/-
# Bounded reachability, and the searches that compute it

`Steps R n x y` is a path of exactly `n` edges, `Within R d x y` a path of at most `d`.  The
module relates three searches over a finite graph to these two notions:

* `boundedSearch`: level by level with a depth on every queued vertex, no vertex below a depth
  of `D` expanded;
* `countedSearch`: level by level with a loop counter, stopping early once as many vertices
  have been seen as the graph is known to have;
* `saturate`: a seed set closed under successors, the meaning of a recursive query.

The first two compute the ball of radius `D` (`mem_boundedSearch`, `mem_countedSearch`), the
third the vertices reachable at all (`mem_saturate`).  Cycles, self-loops and duplicate
successors are allowed throughout.
-/
import Mathlib.Logic.Relation
import Mathlib.Data.List.Dedup
import Mathlib.Data.Finset.Card

namespace Reach

variable {α : Type} {R : α → α → Prop}

/-! ## 1. Paths -/

/-- A path of exactly `n` edges. -/
inductive Steps (R : α → α → Prop) : ℕ → α → α → Prop
  | refl (x : α) : Steps R 0 x x
  | tail {n : ℕ} {x y z : α} : Steps R n x y → R y z → Steps R (n + 1) x z

/-- A path of at most `d` edges. -/
def Within (R : α → α → Prop) (d : ℕ) (x y : α) : Prop := ∃ n ≤ d, Steps R n x y

theorem Within.refl (R : α → α → Prop) (d : ℕ) (x : α) : Within R d x x :=
  ⟨0, Nat.zero_le d, .refl x⟩

theorem Within.mono {d d' : ℕ} (h : d ≤ d') {x y : α} (hw : Within R d x y) :
    Within R d' x y := by
  obtain ⟨n, hn, hs⟩ := hw
  exact ⟨n, le_trans hn h, hs⟩

theorem Within.tail {d : ℕ} {x y z : α} (h : Within R d x y) (hyz : R y z) :
    Within R (d + 1) x z := by
  obtain ⟨n, hn, hs⟩ := h
  exact ⟨n + 1, by omega, hs.tail hyz⟩

/-- A ball of radius zero is its centre. -/
theorem within_zero {x y : α} : Within R 0 x y ↔ y = x := by
  constructor
  · rintro ⟨n, hn, hs⟩
    obtain rfl : n = 0 := by omega
    cases hs
    rfl
  · rintro rfl
    exact Within.refl R 0 y

/-- The last edge of a path that is not empty. -/
theorem within_succ {d : ℕ} {x z : α} :
    Within R (d + 1) x z ↔ z = x ∨ ∃ y, Within R d x y ∧ R y z := by
  constructor
  · rintro ⟨n, hn, hs⟩
    cases hs with
    | refl => exact Or.inl rfl
    | @tail n _ y _ hs hyz => exact Or.inr ⟨y, ⟨n, by omega, hs⟩, hyz⟩
  · rintro (rfl | ⟨y, hw, hyz⟩)
    · exact Within.refl R _ z
    · exact hw.tail hyz

/-- A path of some length is a path. -/
theorem exists_steps_iff {x y : α} : (∃ n, Steps R n x y) ↔ Relation.ReflTransGen R x y := by
  constructor
  · rintro ⟨n, hs⟩
    induction hs with
    | refl => exact .refl
    | tail _ hyz ih => exact ih.tail hyz
  · intro h
    induction h with
    | refl => exact ⟨0, .refl x⟩
    | tail _ hyz ih =>
      obtain ⟨n, hs⟩ := ih
      exact ⟨n + 1, hs.tail hyz⟩

theorem Within.reachable {d : ℕ} {x y : α} (h : Within R d x y) : Relation.ReflTransGen R x y := by
  obtain ⟨n, -, hs⟩ := h
  exact exists_steps_iff.mp ⟨n, hs⟩

/-- Paths in a graded graph are as short as the grades allow. -/
theorem Within.of_rank (rank : α → ℕ) {d : ℕ} (hR : ∀ x y, R x y → rank x < rank y ∧ rank y ≤ d)
    {x y : α} (h : Relation.ReflTransGen R x y) : Within R d x y := by
  obtain ⟨n, hs⟩ := exists_steps_iff.mpr h
  have hlen : n + rank x ≤ rank y ∧ (n = 0 ∨ rank y ≤ d) := by
    clear h
    induction hs with
    | refl => exact ⟨by omega, Or.inl rfl⟩
    | tail _ hyz ih =>
      obtain ⟨hlt, hle⟩ := hR _ _ hyz
      omega
  exact ⟨n, by omega, hs⟩

/-- **A set closed under successors keeps what it reaches.** -/
theorem closed_of_reachable {S : α → Prop} (hS : ∀ x y, S x → R x y → S y) {x y : α}
    (hx : S x) (h : Relation.ReflTransGen R x y) : S y := by
  induction h with
  | refl => exact hx
  | tail _ hyz ih => exact hS _ _ ih hyz

/-- Paths carry over to a relation that agrees on a set the path cannot enter from outside:
if no edge leads from outside `S` into `S`, a path that ends in `S` runs inside `S`. -/
theorem Steps.transfer {R' : α → α → Prop} {S : α → Prop}
    (hback : ∀ x y, S y → R x y → S x) (hR : ∀ x y, S x → S y → R x y → R' x y) {n : ℕ} {x y : α}
    (h : Steps R n x y) (hy : S y) : Steps R' n x y := by
  induction h with
  | refl x => exact .refl x
  | @tail n _ y z _ hyz ih =>
    have hy' : S y := hback y z hy hyz
    exact (ih hy').tail (hR y z hy' hy hyz)

theorem Within.transfer {R' : α → α → Prop} {S : α → Prop}
    (hback : ∀ x y, S y → R x y → S x) (hR : ∀ x y, S x → S y → R x y → R' x y) {d : ℕ} {x y : α}
    (h : Within R d x y) (hy : S y) : Within R' d x y := by
  obtain ⟨n, hn, hs⟩ := h
  exact ⟨n, hn, hs.transfer hback hR hy⟩

/-! ## 2. One level of a search -/

variable [DecidableEq α]

/-- The loop over the successors of one vertex at `depth`: those not seen yet are marked and
queued one level deeper. -/
def visit (depth : ℕ) : List α → List α × List (α × ℕ) → List α × List (α × ℕ)
  | [], acc => acc
  | c :: cs, (visited, next) =>
    if c ∈ visited then visit depth cs (visited, next)
    else visit depth cs (visited ++ [c], next ++ [(c, depth + 1)])

theorem mem_visit {depth : ℕ} {y : α} : ∀ (cs : List α) (visited : List α) (next : List (α × ℕ)),
    y ∈ (visit depth cs (visited, next)).1 ↔ y ∈ visited ∨ y ∈ cs
  | [], visited, next => by simp [visit]
  | c :: cs, visited, next => by
    rw [visit]
    split
    · rename_i hc
      rw [mem_visit cs visited next, List.mem_cons]
      constructor
      · rintro (h | h)
        · exact Or.inl h
        · exact Or.inr (Or.inr h)
      · rintro (h | rfl | h)
        · exact Or.inl h
        · exact Or.inl hc
        · exact Or.inr h
    · rw [mem_visit cs, List.mem_append, List.mem_singleton, List.mem_cons, or_assoc]

/-- Nothing is queued twice, nothing that was seen before is queued, and everything newly seen
is. -/
theorem mem_visit_next {depth : ℕ} {y : α} {d : ℕ} :
    ∀ (cs : List α) (visited : List α) (next : List (α × ℕ)),
      (y, d) ∈ (visit depth cs (visited, next)).2 ↔
        (y, d) ∈ next ∨ (d = depth + 1 ∧ y ∈ cs ∧ y ∉ visited)
  | [], visited, next => by simp [visit]
  | c :: cs, visited, next => by
    rw [visit]
    split
    · rename_i hc
      rw [mem_visit_next cs visited next]
      constructor
      · rintro (h | ⟨hd, hy, hv⟩)
        · exact Or.inl h
        · exact Or.inr ⟨hd, List.mem_cons_of_mem _ hy, hv⟩
      · rintro (h | ⟨hd, hy, hv⟩)
        · exact Or.inl h
        · rcases List.mem_cons.mp hy with rfl | hy
          · exact absurd hc hv
          · exact Or.inr ⟨hd, hy, hv⟩
    · rename_i hc
      rw [mem_visit_next cs, List.mem_append, List.mem_singleton, Prod.mk.injEq]
      constructor
      · rintro ((h | ⟨rfl, rfl⟩) | ⟨hd, hy, hv⟩)
        · exact Or.inl h
        · exact Or.inr ⟨rfl, List.mem_cons_self, hc⟩
        · exact Or.inr ⟨hd, List.mem_cons_of_mem _ hy, fun h => hv (List.mem_append_left _ h)⟩
      · rintro (h | ⟨hd, hy, hv⟩)
        · exact Or.inl (Or.inl h)
        · by_cases hyc : y = c
          · exact Or.inl (Or.inr ⟨hyc, hd⟩)
          · refine Or.inr ⟨hd, (List.mem_cons.mp hy).resolve_left hyc, ?_⟩
            simp [hv, hyc]

theorem nodup_visit {depth : ℕ} : ∀ (cs : List α) (visited : List α) (next : List (α × ℕ)),
    visited.Nodup → (visit depth cs (visited, next)).1.Nodup
  | [], visited, next, h => by simpa [visit] using h
  | c :: cs, visited, next, h => by
    rw [visit]
    split
    · exact nodup_visit cs visited next h
    · rename_i hc
      refine nodup_visit cs _ _ ?_
      exact List.Nodup.append h (List.nodup_singleton c) (List.disjoint_singleton.mpr hc)

/-! ## 3. The search with a depth on every queued vertex -/

variable (adj : α → List α)

/-- The edge relation of an adjacency function. -/
def Adj (x y : α) : Prop := y ∈ adj x

/-- The loop over one level: a vertex at depth `D` or below it is not expanded. -/
def expand (D : ℤ) : List (α × ℕ) → List α × List (α × ℕ) → List α × List (α × ℕ)
  | [], acc => acc
  | (x, depth) :: rest, acc =>
    if D ≤ (depth : ℤ) then expand D rest acc else expand D rest (visit depth (adj x) acc)

/-- The outer loop, level by level.  After `D + 1` rounds the level is empty, so the fuel the
search starts with is never what ends it. -/
def levels (D : ℤ) : ℕ → List (α × ℕ) → List α → List α
  | 0, _, visited => visited
  | _ + 1, [], visited => visited
  | fuel + 1, x :: level, visited =>
    levels D fuel (expand adj D (x :: level) (visited, [])).2
      (expand adj D (x :: level) (visited, [])).1

/-- Breadth-first search from `root`, bounded by the depth `D`. -/
def boundedSearch (D : ℤ) (root : α) : List α :=
  levels adj D (D.toNat + 1) [(root, 0)] [root]

variable {adj}

/-- Below the bound nothing is expanded. -/
theorem expand_of_le {D : ℤ} {i : ℕ} (hD : D ≤ (i : ℤ)) :
    ∀ (level : List (α × ℕ)) (acc : List α × List (α × ℕ)),
      (∀ x d, (x, d) ∈ level → d = i) → expand adj D level acc = acc
  | [], acc, _ => rfl
  | (x, depth) :: rest, acc, h => by
    have hd : depth = i := h x depth List.mem_cons_self
    rw [expand, if_pos (by omega)]
    exact expand_of_le hD rest acc fun y d hy => h y d (List.mem_cons_of_mem _ hy)

/-- Above it, a level at depth `i` adds exactly its successors. -/
theorem mem_expand {D : ℤ} {i : ℕ} (hD : (i : ℤ) < D) {y : α} :
    ∀ (level : List (α × ℕ)) (acc : List α × List (α × ℕ)),
      (∀ x d, (x, d) ∈ level → d = i) →
      (y ∈ (expand adj D level acc).1 ↔ y ∈ acc.1 ∨ ∃ x, (x, i) ∈ level ∧ Adj adj x y)
  | [], acc, _ => by simp [expand]
  | (x, depth) :: rest, acc, h => by
    have hd : depth = i := h x depth List.mem_cons_self
    subst hd
    rw [expand, if_neg (by omega),
      mem_expand hD rest _ fun z d hz => h z d (List.mem_cons_of_mem _ hz),
      mem_visit (adj x) acc.1 acc.2, or_assoc]
    refine or_congr_right ?_
    constructor
    · rintro (hy | ⟨z, hz, hzy⟩)
      · exact ⟨x, List.mem_cons_self, hy⟩
      · exact ⟨z, List.mem_cons_of_mem _ hz, hzy⟩
    · rintro ⟨z, hz, hzy⟩
      rcases List.mem_cons.mp hz with hz | hz
      · obtain rfl : z = x := (Prod.mk.inj hz).1
        exact Or.inl hzy
      · exact Or.inr ⟨z, hz, hzy⟩

/-- What a level queues is one deeper, seen now and not seen before. -/
theorem mem_expand_next {D : ℤ} {i : ℕ} (hD : (i : ℤ) < D) {y : α} {d : ℕ} :
    ∀ (level : List (α × ℕ)) (acc : List α × List (α × ℕ)),
      (∀ x d, (x, d) ∈ level → d = i) →
      ((y, d) ∈ (expand adj D level acc).2 ↔
        (y, d) ∈ acc.2 ∨ (d = i + 1 ∧ y ∉ acc.1 ∧ ∃ x, (x, i) ∈ level ∧ Adj adj x y))
  | [], acc, _ => by simp [expand]
  | (x, depth) :: rest, acc, h => by
    have hd : depth = i := h x depth List.mem_cons_self
    subst hd
    rw [expand, if_neg (by omega),
      mem_expand_next hD rest _ fun z d hz => h z d (List.mem_cons_of_mem _ hz),
      mem_visit_next (adj x) acc.1 acc.2, mem_visit (adj x) acc.1 acc.2]
    constructor
    · rintro ((h | ⟨hd, hy, hv⟩) | ⟨hd, hv, z, hz, hzy⟩)
      · exact Or.inl h
      · exact Or.inr ⟨hd, hv, x, List.mem_cons_self, hy⟩
      · exact Or.inr ⟨hd, fun hy => hv (Or.inl hy), z, List.mem_cons_of_mem _ hz, hzy⟩
    · rintro (h | ⟨hd, hv, z, hz, hzy⟩)
      · exact Or.inl (Or.inl h)
      · by_cases hy : y ∈ adj x
        · exact Or.inl (Or.inr ⟨hd, hy, hv⟩)
        · refine Or.inr ⟨hd, ?_, z, ?_, hzy⟩
          · rintro (h | h)
            · exact hv h
            · exact hy h
          · rcases List.mem_cons.mp hz with hz | hz
            · obtain rfl : z = x := (Prod.mk.inj hz).1
              exact absurd hzy hy
            · exact hz

/-- The invariant of the outer loop at level `i`: the ball of radius `i` has been seen, and a
vertex seen whose successors have not all been seen is in the level. -/
structure Frontier (adj : α → List α) (root : α) (i : ℕ) (level : List (α × ℕ))
    (visited : List α) : Prop where
  depth : ∀ x d, (x, d) ∈ level → d = i
  queued : ∀ x d, (x, d) ∈ level → x ∈ visited
  ball : ∀ y, y ∈ visited ↔ Within (Adj adj) i root y
  seen : ∀ y, y ∈ visited → (y, i) ∈ level ∨ ∀ z, Adj adj y z → z ∈ visited

/-- One level later the ball has grown by one. -/
theorem Frontier.expand {D : ℤ} {root : α} {i : ℕ} {level : List (α × ℕ)} {visited : List α}
    (h : Frontier adj root i level visited) (hD : (i : ℤ) < D) :
    Frontier adj root (i + 1) (expand adj D level (visited, [])).2
      (expand adj D level (visited, [])).1 := by
  have hmem : ∀ y, y ∈ (Reach.expand adj D level (visited, [])).1 ↔
      y ∈ visited ∨ ∃ x, (x, i) ∈ level ∧ Adj adj x y :=
    fun y => mem_expand hD level (visited, []) h.depth
  have hnext : ∀ y d, (y, d) ∈ (Reach.expand adj D level (visited, [])).2 ↔
      d = i + 1 ∧ y ∉ visited ∧ ∃ x, (x, i) ∈ level ∧ Adj adj x y := by
    intro y d
    rw [mem_expand_next hD level (visited, []) h.depth]
    simp
  -- a successor of anything seen so far is seen after this level
  have hsucc : ∀ y z, y ∈ visited → Adj adj y z →
      z ∈ (Reach.expand adj D level (visited, [])).1 := by
    intro y z hy hyz
    rw [hmem]
    rcases h.seen y hy with hl | hall
    · exact Or.inr ⟨y, hl, hyz⟩
    · exact Or.inl (hall z hyz)
  refine ⟨fun x d hx => ((hnext x d).mp hx).1, ?_, ?_, ?_⟩
  · intro x d hx
    obtain ⟨-, -, hz⟩ := (hnext x d).mp hx
    exact (hmem x).mpr (Or.inr hz)
  · intro y
    constructor
    · intro hy
      rcases (hmem y).mp hy with hy | ⟨x, hx, hxy⟩
      · exact ((h.ball y).mp hy).mono (Nat.le_succ i)
      · exact ((h.ball x).mp (h.queued x i hx)).tail hxy
    · intro hw
      rcases within_succ.mp hw with rfl | ⟨x, hx, hxy⟩
      · exact (hmem y).mpr (Or.inl ((h.ball y).mpr (Within.refl _ _ _)))
      · exact hsucc x y ((h.ball x).mpr hx) hxy
  · intro y hy
    by_cases hv : y ∈ visited
    · exact Or.inr fun z hyz => hsucc y z hv hyz
    · have hx := ((hmem y).mp hy).resolve_left hv
      exact Or.inl ((hnext y (i + 1)).mpr ⟨rfl, hv, hx⟩)

omit [DecidableEq α] in
/-- Once a level is empty the ball has stopped growing. -/
theorem Frontier.of_nil {root : α} {i : ℕ} {visited : List α}
    (h : Frontier adj root i [] visited) {d : ℕ} (hd : i ≤ d) (y : α) :
    y ∈ visited ↔ Within (Adj adj) d root y := by
  have hclosed : ∀ x z, x ∈ visited → Adj adj x z → z ∈ visited := by
    intro x z hx hxz
    rcases h.seen x hx with hl | hall
    · exact absurd hl (by simp)
    · exact hall z hxz
  constructor
  · exact fun hy => ((h.ball y).mp hy).mono hd
  · intro hw
    have hroot : root ∈ visited := (h.ball root).mpr (Within.refl _ _ _)
    exact closed_of_reachable (S := (· ∈ visited)) hclosed hroot hw.reachable

/-- The loop run from any level: with enough fuel it ends in the ball of radius `D`. -/
theorem mem_levels {D : ℤ} {root : α} : ∀ (fuel i : ℕ) (level : List (α × ℕ)) (visited : List α),
    Frontier adj root i level visited → i ≤ D.toNat → D.toNat + 1 ≤ fuel + i → ∀ y,
      (y ∈ levels adj D fuel level visited ↔ Within (Adj adj) D.toNat root y)
  | 0, i, level, visited, h, hi, hfuel, y => absurd hfuel (by omega)
  | fuel + 1, i, [], visited, h, hi, hfuel, y => h.of_nil hi y
  | fuel + 1, i, x :: level, visited, h, hi, hfuel, y => by
    rw [levels]
    rcases Nat.lt_or_ge i D.toNat with hlt | hge
    · exact mem_levels fuel (i + 1) _ _ (h.expand (by omega)) (by omega) (by omega) y
    · -- the last level: it is read and nothing is queued
      obtain rfl : i = D.toNat := by omega
      rw [expand_of_le (by omega) _ _ h.depth]
      cases fuel with
      | zero => exact h.ball y
      | succ fuel => exact h.ball y

omit [DecidableEq α] in
/-- A search starts with its root, at level zero. -/
theorem frontier_root (root : α) : Frontier adj root 0 [(root, 0)] [root] := by
  refine ⟨?_, ?_, ?_, ?_⟩
  · intro x d hx
    simp only [List.mem_singleton, Prod.mk.injEq] at hx
    exact hx.2
  · intro x d hx
    simp only [List.mem_singleton, Prod.mk.injEq] at hx
    exact List.mem_singleton.mpr hx.1
  · intro y
    rw [within_zero, List.mem_singleton]
  · intro y hy
    rw [List.mem_singleton] at hy
    exact Or.inl (by simp [hy])

/-- **The bounded search computes the ball.** -/
theorem mem_boundedSearch {D : ℤ} {root y : α} :
    y ∈ boundedSearch adj D root ↔ Within (Adj adj) D.toNat root y :=
  mem_levels _ 0 _ _ (frontier_root root) (Nat.zero_le _) (by omega) y

/-! ## 4. The search that stops on a count -/

/-- The rows of one query: those not seen yet are marked and make the next level. -/
def collect : List α → List α × List α → List α × List α
  | [], acc => acc
  | c :: cs, (visited, next) =>
    if c ∈ visited then collect cs (visited, next)
    else collect cs (visited ++ [c], next ++ [c])

theorem mem_collect {y : α} : ∀ (cs visited next : List α),
    y ∈ (collect cs (visited, next)).1 ↔ y ∈ visited ∨ y ∈ cs
  | [], visited, next => by simp [collect]
  | c :: cs, visited, next => by
    rw [collect]
    split
    · rename_i hc
      rw [mem_collect cs visited next, List.mem_cons]
      constructor
      · rintro (h | h)
        · exact Or.inl h
        · exact Or.inr (Or.inr h)
      · rintro (h | rfl | h)
        · exact Or.inl h
        · exact Or.inl hc
        · exact Or.inr h
    · rw [mem_collect cs, List.mem_append, List.mem_singleton, List.mem_cons, or_assoc]

theorem mem_collect_next {y : α} : ∀ (cs visited next : List α),
    y ∈ (collect cs (visited, next)).2 ↔ y ∈ next ∨ (y ∈ cs ∧ y ∉ visited)
  | [], visited, next => by simp [collect]
  | c :: cs, visited, next => by
    rw [collect]
    split
    · rename_i hc
      rw [mem_collect_next cs visited next]
      constructor
      · rintro (h | ⟨hy, hv⟩)
        · exact Or.inl h
        · exact Or.inr ⟨List.mem_cons_of_mem _ hy, hv⟩
      · rintro (h | ⟨hy, hv⟩)
        · exact Or.inl h
        · rcases List.mem_cons.mp hy with rfl | hy
          · exact absurd hc hv
          · exact Or.inr ⟨hy, hv⟩
    · rename_i hc
      rw [mem_collect_next cs, List.mem_append, List.mem_singleton]
      constructor
      · rintro ((h | rfl) | ⟨hy, hv⟩)
        · exact Or.inl h
        · exact Or.inr ⟨List.mem_cons_self, hc⟩
        · exact Or.inr ⟨List.mem_cons_of_mem _ hy, fun h => hv (List.mem_append_left _ h)⟩
      · rintro (h | ⟨hy, hv⟩)
        · exact Or.inl (Or.inl h)
        · by_cases hyc : y = c
          · exact Or.inl (Or.inr hyc)
          · refine Or.inr ⟨(List.mem_cons.mp hy).resolve_left hyc, ?_⟩
            simp [hv, hyc]

theorem nodup_collect : ∀ (cs visited next : List α),
    visited.Nodup → (collect cs (visited, next)).1.Nodup
  | [], visited, next, h => by simpa [collect] using h
  | c :: cs, visited, next, h => by
    rw [collect]
    split
    · exact nodup_collect cs visited next h
    · rename_i hc
      refine nodup_collect cs _ _ ?_
      exact List.Nodup.append h (List.nodup_singleton c) (List.disjoint_singleton.mpr hc)

/-- The loop: `query current` lists the successors of a whole level; the loop ends when the
level is empty, when nothing new was found, when the depth is used up, or when `total`
vertices have been seen. -/
def countedLevels (query : List α → List α) (total : ℕ) : ℕ → List α → List α → List α
  | 0, _, visited => visited
  | _ + 1, [], visited => visited
  | depth + 1, x :: current, visited =>
    if (collect (query (x :: current)) (visited, [])).2 = [] then visited
    else if (collect (query (x :: current)) (visited, [])).1.length = total then
      (collect (query (x :: current)) (visited, [])).1
    else
      countedLevels query total depth (collect (query (x :: current)) (visited, [])).2
        (collect (query (x :: current)) (visited, [])).1

/-- Breadth-first search from `root` with a loop counter and the early exit. -/
def countedSearch (query : List α → List α) (total : ℕ) (D : ℤ) (root : α) : List α :=
  countedLevels query total D.toNat [root] [root]

/-- Nothing new in the next level: the vertices seen are closed under successors. -/
theorem closed_of_collect_nil {query : List α → List α} {current visited : List α}
    (hq : ∀ cs y, y ∈ query cs ↔ ∃ x ∈ cs, Adj adj x y)
    (hseen : ∀ y ∈ visited, y ∈ current ∨ ∀ z, Adj adj y z → z ∈ visited)
    (hnil : (collect (query current) (visited, [])).2 = []) :
    ∀ x z, x ∈ visited → Adj adj x z → z ∈ visited := by
  intro x z hx hxz
  rcases hseen x hx with hc | hall
  · by_contra hz
    have hmem := (mem_collect_next (query current) visited []).mpr
      (Or.inr ⟨(hq current z).mpr ⟨x, hc, hxz⟩, hz⟩)
    rw [hnil] at hmem
    exact absurd hmem (by simp)
  · exact hall z hxz

/-- The loop run from any level.  The early exit is harmless because every vertex the search
can meet is in `univ`, which has `total` elements. -/
theorem mem_countedLevels {query : List α → List α} {univ : Finset α} {root : α} {D : ℕ}
    (hq : ∀ cs y, y ∈ query cs ↔ ∃ x ∈ cs, Adj adj x y)
    (hu : ∀ y, Relation.ReflTransGen (Adj adj) root y → y ∈ univ) :
    ∀ (depth i : ℕ) (current visited : List α), depth + i = D → visited.Nodup →
      (∀ y ∈ current, y ∈ visited) → (∀ y, y ∈ visited ↔ Within (Adj adj) i root y) →
      (∀ y ∈ visited, y ∈ current ∨ ∀ z, Adj adj y z → z ∈ visited) → ∀ y,
      (y ∈ countedLevels query univ.card depth current visited ↔ Within (Adj adj) D root y)
  | 0, i, current, visited, hD, hnd, hcur, hball, hseen, y => by
    obtain rfl : i = D := by omega
    exact hball y
  | depth + 1, i, current, visited, hD, hnd, hcur, hball, hseen, y => by
    have hroot : root ∈ visited := (hball root).mpr (Within.refl _ _ _)
    -- a set of seen vertices that is closed is the ball of every larger radius
    have hstop : (∀ x z, x ∈ visited → Adj adj x z → z ∈ visited) →
        (y ∈ visited ↔ Within (Adj adj) D root y) := by
      intro hclosed
      constructor
      · exact fun hy => ((hball y).mp hy).mono (by omega)
      · exact fun hw => closed_of_reachable (S := (· ∈ visited)) hclosed hroot hw.reachable
    cases current with
    | nil =>
      refine hstop fun x z hx hxz => ?_
      exact (hseen x hx).resolve_left (by simp) z hxz
    | cons x current =>
      rw [countedLevels]
      split
      · rename_i hnil
        exact hstop (closed_of_collect_nil hq hseen hnil)
      · set acc := collect (query (x :: current)) (visited, []) with hacc
        have hmem : ∀ z, z ∈ acc.1 ↔ z ∈ visited ∨ ∃ w ∈ x :: current, Adj adj w z := by
          intro z
          rw [hacc, mem_collect, hq]
        have hsucc : ∀ w z, w ∈ visited → Adj adj w z → z ∈ acc.1 := by
          intro w z hw hwz
          rw [hmem]
          rcases hseen w hw with hc | hall
          · exact Or.inr ⟨w, hc, hwz⟩
          · exact Or.inl (hall z hwz)
        have hball' : ∀ z, z ∈ acc.1 ↔ Within (Adj adj) (i + 1) root z := by
          intro z
          constructor
          · intro hz
            rcases (hmem z).mp hz with hz | ⟨w, hw, hwz⟩
            · exact ((hball z).mp hz).mono (Nat.le_succ i)
            · exact ((hball w).mp (hcur w hw)).tail hwz
          · intro hw
            rcases within_succ.mp hw with rfl | ⟨w, hw, hwz⟩
            · exact (hmem z).mpr (Or.inl ((hball z).mpr (Within.refl _ _ _)))
            · exact hsucc w z ((hball w).mpr hw) hwz
        have hnd' : acc.1.Nodup := nodup_collect _ _ _ hnd
        split
        · -- all of `univ` has been seen, so nothing reachable is missing
          rename_i hlen
          have hsub : acc.1.toFinset ⊆ univ := by
            intro z hz
            exact hu z ((hball' z).mp (List.mem_toFinset.mp hz)).reachable
          have hall : acc.1.toFinset = univ :=
            Finset.eq_of_subset_of_card_le hsub
              (by rw [List.toFinset_card_of_nodup hnd', hlen])
          constructor
          · exact fun hy => ((hball' y).mp hy).mono (by omega)
          · intro hw
            have hy := hu y hw.reachable
            rw [← hall] at hy
            exact List.mem_toFinset.mp hy
        · refine mem_countedLevels hq hu depth (i + 1) acc.2 acc.1 (by omega) hnd' ?_ hball' ?_ y
          · intro z hz
            rw [hacc, mem_collect_next] at hz
            rcases hz with hz | ⟨hz, -⟩
            · exact absurd hz (by simp)
            · exact (hmem z).mpr (Or.inr ((hq _ z).mp hz))
          · intro z hz
            by_cases hv : z ∈ visited
            · exact Or.inr fun w hzw => hsucc z w hv hzw
            · refine Or.inl ?_
              rw [hacc, mem_collect_next]
              exact Or.inr ⟨(hq _ z).mpr (((hmem z).mp hz).resolve_left hv), hv⟩

/-- **The counted search computes the ball too**, as long as the count it stops at is that of a
set the search cannot leave. -/
theorem mem_countedSearch {query : List α → List α} {univ : Finset α} {root y : α} {D : ℤ}
    (hq : ∀ cs y, y ∈ query cs ↔ ∃ x ∈ cs, Adj adj x y)
    (hu : ∀ y, Relation.ReflTransGen (Adj adj) root y → y ∈ univ) :
    y ∈ countedSearch query univ.card D root ↔ Within (Adj adj) D.toNat root y := by
  refine mem_countedLevels hq hu D.toNat 0 [root] [root] rfl (List.nodup_singleton root) ?_ ?_ ?_ y
  · exact fun y hy => hy
  · intro y
    rw [within_zero, List.mem_singleton]
  · exact fun y hy => Or.inl hy

/-- What has been seen stays seen, whatever the query and the count are. -/
theorem mem_countedLevels_of_mem {query : List α → List α} {total : ℕ} {y : α} :
    ∀ (depth : ℕ) (current visited : List α), y ∈ visited →
      y ∈ countedLevels query total depth current visited
  | 0, _, _, h => h
  | _ + 1, [], _, h => h
  | depth + 1, x :: current, visited, h => by
    have hnext := (mem_collect (query (x :: current)) visited []).mpr (Or.inl h)
    rw [countedLevels]
    split
    · exact h
    · split
      · exact hnext
      · exact mem_countedLevels_of_mem depth _ _ hnext

/-! ## 5. Saturation: the meaning of a recursive query -/

/-- The successors of a set that are not in it. -/
def fresh (adj : α → List α) (seen : List α) : List α :=
  ((seen.flatMap adj).filter (· ∉ seen)).dedup

/-- Add successors until there are no new ones. -/
def saturate (adj : α → List α) : ℕ → List α → List α
  | 0, seen => seen
  | fuel + 1, seen =>
    if fresh adj seen = [] then seen else saturate adj fuel (seen ++ fresh adj seen)

theorem mem_fresh {seen : List α} {y : α} :
    y ∈ fresh adj seen ↔ (∃ x ∈ seen, Adj adj x y) ∧ y ∉ seen := by
  simp [fresh, Adj]

theorem mem_saturate_sound {y : α} : ∀ (fuel : ℕ) (seen : List α), y ∈ saturate adj fuel seen →
    ∃ x ∈ seen, Relation.ReflTransGen (Adj adj) x y
  | 0, seen, h => ⟨y, h, .refl⟩
  | fuel + 1, seen, h => by
    rw [saturate] at h
    split at h
    · exact ⟨y, h, .refl⟩
    · obtain ⟨x, hx, hxy⟩ := mem_saturate_sound fuel _ h
      rcases List.mem_append.mp hx with hx | hx
      · exact ⟨x, hx, hxy⟩
      · obtain ⟨⟨z, hz, hzx⟩, -⟩ := mem_fresh.mp hx
        exact ⟨z, hz, .head hzx hxy⟩

theorem subset_saturate : ∀ (fuel : ℕ) (seen : List α), ∀ x ∈ seen, x ∈ saturate adj fuel seen
  | 0, _, _, h => h
  | fuel + 1, seen, x, h => by
    rw [saturate]
    split
    · exact h
    · exact subset_saturate fuel _ x (List.mem_append_left _ h)

/-- With as much fuel as there are possible successors, saturation ends closed. -/
theorem saturate_closed (univ : Finset α) (hu : ∀ x y, Adj adj x y → y ∈ univ) :
    ∀ (fuel : ℕ) (seen : List α), (univ \ seen.toFinset).card ≤ fuel →
      ∀ x y, x ∈ saturate adj fuel seen → Adj adj x y → y ∈ saturate adj fuel seen
  | 0, seen, hfuel, x, y, hx, hxy => by
    have hy : y ∉ univ \ seen.toFinset := by
      rw [Finset.card_eq_zero.mp (Nat.le_zero.mp hfuel)]
      exact Finset.notMem_empty y
    rw [Finset.mem_sdiff, not_and, not_not] at hy
    exact List.mem_toFinset.mp (hy (hu x y hxy))
  | fuel + 1, seen, hfuel, x, y, hx, hxy => by
    rw [saturate] at hx ⊢
    split
    · rename_i hnil
      rw [if_pos hnil] at hx
      by_contra hy
      have := mem_fresh.mpr ⟨⟨x, hx, hxy⟩, hy⟩
      rw [hnil] at this
      exact absurd this (by simp)
    · rename_i hnil
      rw [if_neg hnil] at hx
      refine saturate_closed univ hu fuel _ ?_ x y hx hxy
      obtain ⟨z, hz⟩ := List.exists_mem_of_ne_nil _ hnil
      obtain ⟨⟨w, hw, hwz⟩, hzs⟩ := mem_fresh.mp hz
      -- the new vertex `z` leaves the set of those still missing
      have hlt : (univ \ (seen ++ fresh adj seen).toFinset).card < (univ \ seen.toFinset).card := by
        refine Finset.card_lt_card ((Finset.ssubset_iff_of_subset ?_).mpr ⟨z, ?_, ?_⟩)
        · intro v hv
          simp only [Finset.mem_sdiff, List.mem_toFinset, List.mem_append, not_or] at hv ⊢
          exact ⟨hv.1, hv.2.1⟩
        · simp only [Finset.mem_sdiff, List.mem_toFinset]
          exact ⟨hu w z hwz, hzs⟩
        · simp only [Finset.mem_sdiff, List.mem_toFinset, List.mem_append, not_and, not_not]
          exact fun _ => Or.inr hz
      omega

/-- **Saturation computes reachability.** -/
theorem mem_saturate (univ : Finset α) (hu : ∀ x y, Adj adj x y → y ∈ univ) {fuel : ℕ}
    (hfuel : univ.card ≤ fuel) {seen : List α} {y : α} :
    y ∈ saturate adj fuel seen ↔ ∃ x ∈ seen, Relation.ReflTransGen (Adj adj) x y := by
  constructor
  · exact mem_saturate_sound fuel seen
  · rintro ⟨x, hx, hxy⟩
    have hle : (univ \ seen.toFinset).card ≤ fuel :=
      le_trans (Finset.card_le_card Finset.sdiff_subset) hfuel
    exact closed_of_reachable (S := (· ∈ saturate adj fuel seen)) (saturate_closed univ hu fuel seen hle)
      (subset_saturate fuel seen x hx) hxy

end Reach
