/-
# What lies between the vertices of a set

`Between R S x`: some vertex of `S` leads to `x` and `x` leads to some vertex of `S`, along `R`.

Two searches may disagree on what lies between: one follows more edges, the other starts from more
vertices.  Each half of the question can be decided ONE EDGE AT A TIME:

* `between_more_edges`: following the edges of `C` as well finds nothing new exactly when the two
  ends of every edge of `C` that lies between are found without them;
* `between_fewer_seeds`: leaving out seeds loses nothing exactly when the successors of these seeds
  can be reached from the others.
-/
import GovernorGateway.Graph.Reach

namespace Reach

open Relation

variable {α : Type} {R P C E : α → α → Prop} {S T : α → Prop} {x : α}

def Between (R : α → α → Prop) (S : α → Prop) (x : α) : Prop :=
  (∃ c, S c ∧ ReflTransGen R c x) ∧ ∃ c, S c ∧ ReflTransGen R x c

theorem Between.of_mem (h : S x) : Between R S x := ⟨⟨x, h, .refl⟩, x, h, .refl⟩

/-- What lies between carries over to a relation that agrees on a set no edge enters from outside,
when the seeds are in the set. -/
theorem Between.transfer {K : α → Prop} (hback : ∀ x y, K y → P x y → K x)
    (hR : ∀ x y, K x → K y → P x y → E x y) (hS : ∀ x, S x → K x ∧ T x) (h : Between P S x) :
    K x ∧ Between E T x := by
  have hpath : ∀ {a b : α}, K b → ReflTransGen P a b → K a ∧ ReflTransGen E a b := by
    intro a b hb hab
    induction hab with
    | refl => exact ⟨hb, .refl⟩
    | tail _ hlast ih =>
      have hmid := hback _ _ hb hlast
      obtain ⟨ha, hpath⟩ := ih hmid
      exact ⟨ha, hpath.tail (hR _ _ hmid hb hlast)⟩
  obtain ⟨⟨c, hc, hfrom⟩, c', hc', hto⟩ := h
  obtain ⟨hx, hto⟩ := hpath (hS c' hc').1 hto
  exact ⟨hx, ⟨c, (hS c hc).2, (hpath hx hfrom).2⟩, c', (hS c' hc').2, hto⟩

/-! ## 1. More edges -/

variable (hE : ∀ x y, E x y ↔ P x y ∨ C x y) (hST : ∀ x, S x → T x)

/-- An edge of `C` that lies between is found without `C`. -/
def Covered (E C P : α → α → Prop) (S T : α → Prop) : Prop :=
  ∀ u v, C u v → (∃ c, S c ∧ ReflTransGen E c u) → (∃ c, S c ∧ ReflTransGen E v c) →
    Between P T u ∧ Between P T v

include hE hST

/-- From the left: where the last edge of `C` ends there is a path without it. -/
theorem from_seed (h : Covered E C P S T) {c y : α} (hc : S c) (hpath : ReflTransGen E c y)
    (hto : ∃ c', S c' ∧ ReflTransGen E y c') : ∃ t, T t ∧ ReflTransGen P t y := by
  induction hpath with
  | refl => exact ⟨c, hST c hc, .refl⟩
  | @tail y z hcy hyz ih =>
    obtain ⟨c', hc', hzc'⟩ := hto
    rcases (hE y z).mp hyz with hP | hC
    · obtain ⟨t, ht, hty⟩ := ih ⟨c', hc', .head hyz hzc'⟩
      exact ⟨t, ht, hty.tail hP⟩
    · exact (h y z hC ⟨c, hc, hcy⟩ ⟨c', hc', hzc'⟩).2.1

/-- From the right: where the first edge of `C` starts there is a path without it. -/
theorem to_seed (h : Covered E C P S T) {c' y : α} (hc' : S c') (hpath : ReflTransGen E y c')
    (hfrom : ∃ c, S c ∧ ReflTransGen E c y) : ∃ t, T t ∧ ReflTransGen P y t := by
  induction hpath using ReflTransGen.head_induction_on with
  | refl => exact ⟨c', hST c' hc', .refl⟩
  | @head y z hyz hzc' ih =>
    obtain ⟨c, hc, hcy⟩ := hfrom
    rcases (hE y z).mp hyz with hP | hC
    · obtain ⟨t, ht, hzt⟩ := ih ⟨c, hc, hcy.tail hyz⟩
      exact ⟨t, ht, .head hP hzt⟩
    · exact (h y z hC ⟨c, hc, hcy⟩ ⟨c', hc', hzc'⟩).1.2

/-- **More edges find nothing new** exactly when the ends of those between are found already. -/
theorem between_more_edges : (∀ x, Between E S x → Between P T x) ↔ Covered E C P S T := by
  constructor
  · intro h u v hC hfrom hto
    have huv : E u v := (hE u v).mpr (Or.inr hC)
    obtain ⟨c, hc, hcu⟩ := hfrom
    obtain ⟨c', hc', hvc'⟩ := hto
    exact ⟨h u ⟨⟨c, hc, hcu⟩, c', hc', .head huv hvc'⟩, h v ⟨⟨c, hc, hcu.tail huv⟩, c', hc', hvc'⟩⟩
  · rintro h x ⟨⟨c, hc, hcx⟩, c', hc', hxc'⟩
    exact ⟨from_seed hE hST h hc hcx ⟨c', hc', hxc'⟩, to_seed hE hST h hc' hxc' ⟨c, hc, hcx⟩⟩

omit hE hST

/-! ## 2. Fewer seeds -/

/-- **Fewer seeds lose nothing** exactly when the successors of those left out are reached from the
rest.  A seed that is the end of an edge is not left out. -/
theorem between_fewer_seeds (hPE : ∀ x y, P x y → E x y) (hend : ∀ x y, P x y → T y → S y) :
    (∀ x, ¬ T x → Between P T x → Between E S x) ↔
      ∀ c, T c → ¬ S c → ∀ z, P c z → (∃ t, T t ∧ ReflTransGen P z t) → ∃ s, S s ∧ ReflTransGen E s z := by
  constructor
  · intro h c hc _ z hcz hto
    by_cases hz : T z
    · exact ⟨z, hend c z hcz hz, .refl⟩
    · exact (h z hz ⟨⟨c, hc, .single hcz⟩, hto⟩).1
  · rintro h x hx ⟨⟨c, hc, hcx⟩, t, ht, hxt⟩
    constructor
    · by_cases hcS : S c
      · exact ⟨c, hcS, ReflTransGen.mono hPE _ _ hcx⟩
      · rcases ReflTransGen.cases_head hcx with rfl | ⟨z, hcz, hzx⟩
        · exact absurd hc hx
        · obtain ⟨s, hs, hsz⟩ := h c hc hcS z hcz ⟨t, ht, hzx.trans hxt⟩
          exact ⟨s, hs, hsz.trans (ReflTransGen.mono hPE _ _ hzx)⟩
    · rcases ReflTransGen.cases_tail hxt with rfl | ⟨y, -, hyt⟩
      · exact absurd ht hx
      · exact ⟨t, hend y t hyt ht, ReflTransGen.mono hPE _ _ hxt⟩

end Reach
