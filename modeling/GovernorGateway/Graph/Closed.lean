/-
# Sets closed under successors

`Closed R Q`: no edge leads out of `Q`.  Containment of a taint is exactly this: `Q` is what has
been quarantined and an edge runs from a node to whatever was derived from it.

The module says when growing `Q` keeps it closed: by a set whose edges end inside (`Closed.union`),
and by the ball around a vertex (`closed_union_ball_iff`).
-/
import GovernorGateway.Graph.Reach
import Mathlib.Data.Set.Basic

namespace Reach

variable {α : Type} {R R' : α → α → Prop} {Q S : Set α}

/-- No edge leads out of the set. -/
def Closed (R : α → α → Prop) (Q : Set α) : Prop := ∀ x y, R x y → x ∈ Q → y ∈ Q

/-- Everything that can be reached from a member of a closed set is in it. -/
theorem Closed.reachable (h : Closed R Q) {x y : α} (hx : x ∈ Q)
    (hxy : Relation.ReflTransGen R x y) : y ∈ Q :=
  closed_of_reachable (S := (· ∈ Q)) (fun x y hx hxy => h x y hxy hx) hx hxy

/-- The vertices at most `d` edges below `x`. -/
def ball (R : α → α → Prop) (d : ℕ) (x : α) : Set α := fun y => Within R d x y

/-- Adding a set to a closed one leaves it closed as soon as the edges OUT OF THE ADDED PART end
inside. -/
theorem Closed.union (h : Closed R Q) (hS : ∀ x y, R x y → x ∈ S → y ∈ Q ∪ S) :
    Closed R (Q ∪ S) := by
  rintro x y hxy (hx | hx)
  · exact Or.inl (h x y hxy hx)
  · exact hS x y hxy hx

/-- **What a depth bound costs.**  Quarantining the ball of radius `d` keeps the set closed if and
only if the bound cuts nothing off: whatever is reachable from the centre is in the ball or was in
the set already. -/
theorem closed_union_ball_iff (h : Closed R Q) {d : ℕ} {x : α} :
    Closed R (Q ∪ ball R d x) ↔
      ∀ y, Relation.ReflTransGen R x y → y ∈ Q ∨ Within R d x y := by
  constructor
  · intro hc y hxy
    exact hc.reachable (Or.inr (Within.refl R d x)) hxy
  · intro hall
    refine h.union ?_
    intro y z hyz hy
    exact hall z (hy.reachable.tail hyz)

end Reach
