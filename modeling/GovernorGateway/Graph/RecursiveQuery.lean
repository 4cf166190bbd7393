/-
# `WITH RECURSIVE ... UNION`

A recursive query is evaluated with a WORKING TABLE: the rows found in the last round are joined
with the base tables, rows that are in the result already are dropped, and what is left is added to
the result and becomes the next working table.

`depthQuery` is the query that walks a graph with a depth column.  A row of its result is a vertex
with the length of a path that leads to it, so one vertex can stand in many rows; the vertices in
the result are the ball of radius `D` (`mem_depthQuery`), as they are for the searches of
`Graph/Reach.lean`.
-/
import GovernorGateway.Graph.Reach

namespace Reach

variable {α β : Type} [DecidableEq α] [DecidableEq β]

/-! ## 1. Rounds -/

/-- The rows a round adds. -/
def newRows (join : List β → List β) (working result : List β) : List β :=
  (join working).dedup.filter (· ∉ result)

theorem mem_newRows {join : List β → List β} {working result : List β} {row : β} :
    row ∈ newRows join working result ↔ row ∈ join working ∧ row ∉ result := by
  simp [newRows]

/-- The evaluation, from a working table and the result so far. -/
def recursiveUnion (join : List β → List β) : ℕ → List β → List β → List β
  | 0, _, result => result
  | _ + 1, [], result => result
  | fuel + 1, row :: working, result =>
    recursiveUnion join fuel (newRows join (row :: working) result)
      (result ++ newRows join (row :: working) result)

/-! ## 2. The query with a depth column -/

variable {adj : α → List α}

/-- `SELECT child, depth + 1 FROM edges JOIN working ON parent = vertex WHERE depth < D`. -/
def joinChildren (adj : α → List α) (D : ℤ) (working : List (α × ℕ)) : List (α × ℕ) :=
  (working.filter fun row => (row.2 : ℤ) < D).flatMap fun row =>
    (adj row.1).map fun child => (child, row.2 + 1)

/-- The query from `root`.  A row of round `i` has depth `i`, so there are at most `D` rounds with
rows to join and the fuel is never what ends it. -/
def depthQuery (adj : α → List α) (D : ℤ) (root : α) : List (α × ℕ) :=
  recursiveUnion (joinChildren adj D) (D.toNat + 1) [(root, 0)] [(root, 0)]

omit [DecidableEq α] in
theorem mem_joinChildren {D : ℤ} {working : List (α × ℕ)} {y : α} {d : ℕ} :
    (y, d) ∈ joinChildren adj D working ↔
      ∃ x i, (x, i) ∈ working ∧ (i : ℤ) < D ∧ Adj adj x y ∧ d = i + 1 := by
  simp only [joinChildren, List.mem_flatMap, List.mem_filter, List.mem_map, decide_eq_true_eq,
    Prod.mk.injEq, Prod.exists]
  constructor
  · rintro ⟨x, i, ⟨hx, hi⟩, child, hchild, rfl, rfl⟩
    exact ⟨x, i, hx, hi, hchild, rfl⟩
  · rintro ⟨x, i, hx, hi, hxy, rfl⟩
    exact ⟨x, i, ⟨hx, hi⟩, y, hxy, rfl, rfl⟩

/-- The invariant after `i` rounds: the working table is the end points of the paths of length `i`,
the result those of all paths of at most that length. -/
structure Rounds (adj : α → List α) (root : α) (i : ℕ) (working result : List (α × ℕ)) : Prop where
  working : ∀ y d, (y, d) ∈ working ↔ d = i ∧ Steps (Adj adj) i root y
  result : ∀ y d, (y, d) ∈ result ↔ d ≤ i ∧ Steps (Adj adj) d root y

/-- One round later the paths are one edge longer. -/
theorem Rounds.step {D : ℤ} {root : α} {i : ℕ} {working result : List (α × ℕ)}
    (h : Rounds adj root i working result) (hD : (i : ℤ) < D) :
    Rounds adj root (i + 1) (newRows (joinChildren adj D) working result)
      (result ++ newRows (joinChildren adj D) working result) := by
  have hworking : ∀ y d, (y, d) ∈ newRows (joinChildren adj D) working result ↔
      d = i + 1 ∧ Steps (Adj adj) (i + 1) root y := by
    intro y d
    rw [mem_newRows, mem_joinChildren, h.result]
    constructor
    · rintro ⟨⟨x, j, hx, -, hxy, rfl⟩, -⟩
      obtain ⟨rfl, hsteps⟩ := (h.working x j).mp hx
      exact ⟨rfl, hsteps.tail hxy⟩
    · rintro ⟨rfl, hsteps⟩
      refine ⟨?_, fun hle => absurd hle.1 (by omega)⟩
      cases hsteps with
      | @tail _ _ x _ hx hxy => exact ⟨x, i, (h.working x i).mpr ⟨rfl, hx⟩, hD, hxy, rfl⟩
  refine ⟨hworking, ?_⟩
  intro y d
  rw [List.mem_append, hworking, h.result]
  constructor
  · rintro (⟨hd, hsteps⟩ | ⟨rfl, hsteps⟩)
    · exact ⟨by omega, hsteps⟩
    · exact ⟨le_refl _, hsteps⟩
  · rintro ⟨hd, hsteps⟩
    rcases Nat.lt_or_ge i d with hlt | hge
    · obtain rfl : d = i + 1 := by omega
      exact Or.inr ⟨rfl, hsteps⟩
    · exact Or.inl ⟨hge, hsteps⟩

/-- At the bound nothing is joined. -/
theorem newRows_of_le {D : ℤ} {root : α} {i : ℕ} {working result : List (α × ℕ)}
    (h : Rounds adj root i working result) (hD : D ≤ (i : ℤ)) :
    newRows (joinChildren adj D) working result = [] := by
  rw [List.eq_nil_iff_forall_not_mem]
  rintro ⟨y, d⟩ hrow
  rw [mem_newRows, mem_joinChildren] at hrow
  obtain ⟨⟨x, j, hx, hj, -, -⟩, -⟩ := hrow
  obtain ⟨rfl, -⟩ := (h.working x j).mp hx
  omega

omit [DecidableEq α] in
/-- Once the working table is empty no path is longer. -/
theorem Rounds.of_nil {root : α} {i : ℕ} {result : List (α × ℕ)} (h : Rounds adj root i [] result)
    {n : ℕ} {y : α} (hsteps : Steps (Adj adj) n root y) : n < i := by
  have hnone : ∀ m, ¬ ∃ z, Steps (Adj adj) (i + m) root z := by
    intro m
    induction m with
    | zero =>
      rintro ⟨z, hz⟩
      exact absurd ((h.working z i).mpr ⟨rfl, hz⟩) (by simp)
    | succ m ih =>
      rintro ⟨z, hz⟩
      cases hz with
      | @tail _ _ x _ hx _ => exact ih ⟨x, hx⟩
  by_contra hge
  exact hnone (n - i) ⟨y, by rwa [show i + (n - i) = n by omega]⟩

/-- The evaluation from any round: with enough fuel it ends with the paths of length at most `D`. -/
theorem mem_recursiveUnion {D : ℤ} {root : α} : ∀ (fuel i : ℕ) (working result : List (α × ℕ)),
    Rounds adj root i working result → i ≤ D.toNat → D.toNat + 1 ≤ fuel + i → ∀ y d,
      ((y, d) ∈ recursiveUnion (joinChildren adj D) fuel working result ↔
        d ≤ D.toNat ∧ Steps (Adj adj) d root y)
  | 0, i, _, _, _, hi, hfuel, _, _ => absurd hfuel (by omega)
  | fuel + 1, i, [], result, h, hi, _, y, d => by
    rw [recursiveUnion, h.result]
    constructor
    · exact fun hrow => ⟨by omega, hrow.2⟩
    · exact fun hrow => ⟨by have := h.of_nil hrow.2; omega, hrow.2⟩
  | fuel + 1, i, row :: working, result, h, hi, hfuel, y, d => by
    rw [recursiveUnion]
    rcases Nat.lt_or_ge i D.toNat with hlt | hge
    · exact mem_recursiveUnion fuel (i + 1) _ _ (h.step (by omega)) (by omega) (by omega) y d
    · -- the last round: its rows are at the bound and none is joined
      obtain rfl : i = D.toNat := by omega
      rw [newRows_of_le h (by omega), List.append_nil]
      cases fuel with
      | zero => exact h.result y d
      | succ fuel => exact h.result y d

omit [DecidableEq α] in
/-- The query starts with its root, at depth zero. -/
theorem rounds_root (root : α) : Rounds adj root 0 [(root, 0)] [(root, 0)] := by
  have hsteps : ∀ y, Steps (Adj adj) 0 root y ↔ y = root := by
    intro y
    constructor
    · intro h
      cases h
      rfl
    · rintro rfl
      exact .refl y
  constructor
  · intro y d
    rw [List.mem_singleton, Prod.mk.injEq, hsteps, and_comm]
  · intro y d
    rw [List.mem_singleton, Prod.mk.injEq]
    constructor
    · rintro ⟨rfl, rfl⟩
      exact ⟨le_refl 0, .refl y⟩
    · rintro ⟨hd, h⟩
      obtain rfl : d = 0 := by omega
      exact ⟨(hsteps y).mp h, rfl⟩

/-- **The vertices of the query are the ball**: a row for each length of a path, and a vertex in one
of them if and only if it is within `D` edges. -/
theorem mem_depthQuery {D : ℤ} {root y : α} :
    y ∈ (depthQuery adj D root).map Prod.fst ↔ Within (Adj adj) D.toNat root y := by
  have hrow : ∀ d, (y, d) ∈ depthQuery adj D root ↔ d ≤ D.toNat ∧ Steps (Adj adj) d root y :=
    mem_recursiveUnion _ 0 _ _ (rounds_root root) (Nat.zero_le _) (by omega) y
  constructor
  · intro hy
    obtain ⟨⟨z, d⟩, hz, rfl⟩ := List.mem_map.mp hy
    exact ⟨d, (hrow d).mp hz⟩
  · rintro ⟨d, hd⟩
    exact List.mem_map.mpr ⟨(y, d), (hrow d).mpr hd, rfl⟩

end Reach
