/-
# A breadth-first search that stays inside a set

The search takes the head of its queue, and expands it only if it is INSIDE; what is outside is
looked at and dropped.  So it finds the vertices that a path of inside vertices leads to, and no
others (`mem_inner_iff`).

The queue may hold a vertex many times, and what bounds the number of rounds is the number `n` of
entries that can ever be queued: a vertex is expanded once, and duplicate-free lists of vertices
have at most `n` successors in all (`Expands`).
-/
import Mathlib.Logic.Relation
import Mathlib.Data.List.Dedup
import Mathlib.Algebra.BigOperators.Group.List.Basic
import Mathlib.Algebra.GroupWithZero.Nat

namespace Reach

variable {α : Type}

/-! ## 1. The loop invariant -/

/-- A step between two inside vertices. -/
def InnerStep (inside : α → Prop) (next : α → List α) (x y : α) : Prop :=
  inside x ∧ inside y ∧ y ∈ next x

/-- Different vertices have at most `n` successors in all. -/
def Expands (next : α → List α) (n : ℕ) : Prop :=
  ∀ xs : List α, xs.Nodup → (xs.map fun x => (next x).length).sum ≤ n

variable {inside : α → Prop} {next : α → List α} {fuel n : ℕ} {queue visited found : List α}
  {x y root : α}

/-- A path of inside vertices that ends inside begins inside. -/
theorem inside_of_path (h : Relation.ReflTransGen (InnerStep inside next) x y) (hy : inside y) :
    inside x := by
  induction h using Relation.ReflTransGen.head_induction_on with
  | refl => exact hy
  | head hstep _ _ => exact hstep.1

/-- `found` is the inside part of `visited`, its successors are visited or queued, and
the rounds that are left are enough for the queue and for all that can still be queued. -/
structure InnerLoop (inside : α → Prop) (next : α → List α) (n fuel : ℕ)
    (queue visited found : List α) : Prop where
  nodup : found.Nodup
  mem_found : ∀ x, x ∈ found ↔ x ∈ visited ∧ inside x
  mem_next : ∀ x ∈ found, ∀ y ∈ next x, y ∈ visited ∨ y ∈ queue
  rounds : queue.length + n ≤ fuel + (found.map fun x => (next x).length).sum

/-- What has been found is closed, once nothing is queued. -/
def InnerClosed (inside : α → Prop) (next : α → List α) (found : List α) : Prop :=
  ∀ x ∈ found, ∀ y ∈ next x, inside y → y ∈ found

namespace InnerLoop

theorem closed (h : InnerLoop inside next n fuel [] visited found) : InnerClosed inside next found := by
  intro x hx y hy hinside
  rcases h.mem_next x hx y hy with hv | hq
  · exact (h.mem_found y).mpr ⟨hv, hinside⟩
  · exact absurd hq List.not_mem_nil

/-- A vertex that has been visited is taken from the queue. -/
theorem skip (h : InnerLoop inside next n (fuel + 1) (x :: queue) visited found) (hx : x ∈ visited) :
    InnerLoop inside next n fuel queue visited found where
  nodup := h.nodup
  mem_found := h.mem_found
  mem_next := by
    intro a ha y hy
    rcases h.mem_next a ha y hy with hv | hq
    · exact Or.inl hv
    · rcases List.mem_cons.mp hq with rfl | hq
      · exact Or.inl hx
      · exact Or.inr hq
  rounds := by
    have hrounds := h.rounds
    rw [List.length_cons] at hrounds
    omega

/-- A vertex outside is visited and dropped. -/
theorem drop (h : InnerLoop inside next n (fuel + 1) (x :: queue) visited found) (hx : ¬ inside x) :
    InnerLoop inside next n fuel queue (visited ++ [x]) found where
  nodup := h.nodup
  mem_found := by
    intro y
    rw [List.mem_append, List.mem_singleton, h.mem_found]
    constructor
    · rintro ⟨hy, hinside⟩
      exact ⟨Or.inl hy, hinside⟩
    · rintro ⟨hy | rfl, hinside⟩
      · exact ⟨hy, hinside⟩
      · exact absurd hinside hx
  mem_next := by
    intro a ha y hy
    rcases h.mem_next a ha y hy with hv | hq
    · exact Or.inl (List.mem_append_left _ hv)
    · rcases List.mem_cons.mp hq with rfl | hq
      · exact Or.inl (List.mem_append_right _ (List.mem_singleton_self y))
      · exact Or.inr hq
  rounds := by
    have hrounds := h.rounds
    rw [List.length_cons] at hrounds
    omega

/-- A vertex inside is found and expanded. -/
theorem expand (h : InnerLoop inside next n (fuel + 1) (x :: queue) visited found) (hx : x ∉ visited)
    (hinside : inside x) :
    InnerLoop inside next n fuel (queue ++ next x) (visited ++ [x]) (found ++ [x]) where
  nodup := by
    refine h.nodup.append (List.nodup_singleton x) (List.disjoint_singleton.mpr fun hfound => ?_)
    exact hx ((h.mem_found x).mp hfound).1
  mem_found := by
    intro y
    rw [List.mem_append, List.mem_append, List.mem_singleton, h.mem_found]
    constructor
    · rintro (⟨hy, hin⟩ | rfl)
      · exact ⟨Or.inl hy, hin⟩
      · exact ⟨Or.inr rfl, hinside⟩
    · rintro ⟨hy | rfl, hin⟩
      · exact Or.inl ⟨hy, hin⟩
      · exact Or.inr rfl
  mem_next := by
    intro a ha y hy
    rcases List.mem_append.mp ha with ha | ha
    · rcases h.mem_next a ha y hy with hv | hq
      · exact Or.inl (List.mem_append_left _ hv)
      · rcases List.mem_cons.mp hq with rfl | hq
        · exact Or.inl (List.mem_append_right _ (List.mem_singleton_self y))
        · exact Or.inr (List.mem_append_left _ hq)
    · obtain rfl := List.mem_singleton.mp ha
      exact Or.inr (List.mem_append_right _ hy)
  rounds := by
    have hrounds := h.rounds
    rw [List.length_cons] at hrounds
    rw [List.length_append, List.map_append, List.sum_append, List.map_singleton, List.sum_singleton]
    omega

end InnerLoop

section Search

variable [DecidableEq α]

/-- `while queue:`; what is inside is appended to `found` when it is taken for the first time. -/
def inner (inside : α → Prop) [DecidablePred inside] (next : α → List α) :
    ℕ → List α → List α → List α → List α
  | 0, _, _, found => found
  | _ + 1, [], _, found => found
  | fuel + 1, x :: queue, visited, found =>
    if x ∈ visited then inner inside next fuel queue visited found
    else if inside x then
      inner inside next fuel (queue ++ next x) (visited ++ [x]) (found ++ [x])
    else inner inside next fuel queue (visited ++ [x]) found

variable [DecidablePred inside]

/-! ## 2. Sound -/

/-- **What is found** was there, or a path of inside vertices leads to it from the queue. -/
theorem mem_inner (h : x ∈ inner inside next fuel queue visited found) :
    x ∈ found ∨ ∃ q ∈ queue, inside x ∧ Relation.ReflTransGen (InnerStep inside next) q x := by
  induction fuel generalizing queue visited found with
  | zero => exact Or.inl h
  | succ fuel ih =>
    cases queue with
    | nil => exact Or.inl h
    | cons a queue =>
      rw [inner] at h
      split at h
      · rcases ih h with hx | ⟨q, hq, hx⟩
        · exact Or.inl hx
        · exact Or.inr ⟨q, List.mem_cons_of_mem _ hq, hx⟩
      · split at h
        · rename_i hinside
          rcases ih h with hx | ⟨q, hq, hx, hpath⟩
          · rcases List.mem_append.mp hx with hx | hx
            · exact Or.inl hx
            · obtain rfl := List.mem_singleton.mp hx
              exact Or.inr ⟨x, List.mem_cons_self, hinside, .refl⟩
          · rcases List.mem_append.mp hq with hq | hq
            · exact Or.inr ⟨q, List.mem_cons_of_mem _ hq, hx, hpath⟩
            · exact Or.inr ⟨a, List.mem_cons_self, hx,
                .head ⟨hinside, inside_of_path hpath hx, hq⟩ hpath⟩
        · rcases ih h with hx | ⟨q, hq, hx⟩
          · exact Or.inl hx
          · exact Or.inr ⟨q, List.mem_cons_of_mem _ hq, hx⟩

/-- What has been found stays in front. -/
theorem prefix_inner (fuel : ℕ) (queue visited found : List α) :
    found <+: inner inside next fuel queue visited found := by
  induction fuel generalizing queue visited found with
  | zero => exact List.prefix_rfl
  | succ fuel ih =>
    cases queue with
    | nil => exact List.prefix_rfl
    | cons a queue =>
      rw [inner]
      split
      · exact ih _ _ _
      · split
        · exact (List.prefix_append found [a]).trans (ih _ _ _)
        · exact ih _ _ _

/-- The root comes first, if it is inside. -/
theorem inner_root (hroot : inside root) :
    ∃ further, inner inside next (fuel + 1) [root] [] [] = root :: further := by
  rw [inner, if_neg List.not_mem_nil, if_pos hroot]
  obtain ⟨further, h⟩ : [root] <+: inner inside next fuel ([] ++ next root) ([] ++ [root])
    ([] ++ [root]) := prefix_inner fuel _ _ _
  exact ⟨further, h.symm⟩

/-! ## 3. Complete -/

/-- **What is queued and inside is found**, and so is what follows it. -/
theorem InnerLoop.complete (hn : Expands next n) (h : InnerLoop inside next n fuel queue visited found) :
    (∀ x ∈ queue, inside x → x ∈ inner inside next fuel queue visited found) ∧
      InnerClosed inside next (inner inside next fuel queue visited found) := by
  induction fuel generalizing queue visited found with
  | zero =>
    have hrounds := h.rounds
    have hsum := hn found h.nodup
    obtain rfl : queue = [] := List.length_eq_zero_iff.mp (by omega)
    exact ⟨fun x hx => absurd hx List.not_mem_nil, h.closed⟩
  | succ fuel ih =>
    cases queue with
    | nil => exact ⟨fun x hx => absurd hx List.not_mem_nil, h.closed⟩
    | cons a queue =>
      rw [inner]
      split
      · rename_i ha
        obtain ⟨hqueue, hclosed⟩ := ih (h.skip ha)
        refine ⟨fun x hx hinside => ?_, hclosed⟩
        rcases List.mem_cons.mp hx with rfl | hx
        · exact (prefix_inner _ _ _ _).subset ((h.mem_found x).mpr ⟨ha, hinside⟩)
        · exact hqueue x hx hinside
      · rename_i ha
        split
        · rename_i hin
          obtain ⟨hqueue, hclosed⟩ := ih (h.expand ha hin)
          refine ⟨fun x hx hinside => ?_, hclosed⟩
          rcases List.mem_cons.mp hx with rfl | hx
          · exact (prefix_inner _ _ _ _).subset (List.mem_append_right _ (List.mem_singleton_self x))
          · exact hqueue x (List.mem_append_left _ hx) hinside
        · rename_i hin
          obtain ⟨hqueue, hclosed⟩ := ih (h.drop hin)
          refine ⟨fun x hx hinside => ?_, hclosed⟩
          rcases List.mem_cons.mp hx with rfl | hx
          · exact absurd hinside hin
          · exact hqueue x hx hinside

/-- **What the search finds**: the vertices that a path of inside vertices leads to from the
root. -/
theorem mem_inner_iff (hn : Expands next n) :
    x ∈ inner inside next (n + 1) [root] [] [] ↔
      inside root ∧ Relation.ReflTransGen (InnerStep inside next) root x := by
  constructor
  · intro h
    rcases mem_inner h with hx | ⟨q, hq, hx, hpath⟩
    · exact absurd hx List.not_mem_nil
    · obtain rfl := List.mem_singleton.mp hq
      exact ⟨inside_of_path hpath hx, hpath⟩
  · rintro ⟨hroot, hpath⟩
    have hloop : InnerLoop inside next n (n + 1) [root] [] [] := by
      refine ⟨List.nodup_nil, by simp, by simp, ?_⟩
      simp only [List.length_singleton, List.map_nil, List.sum_nil]
      omega
    obtain ⟨hqueue, hnext⟩ := hloop.complete hn
    induction hpath with
    | refl => exact hqueue root (List.mem_singleton_self root) hroot
    | tail _ hstep ih => exact hnext _ ih _ hstep.2.2 hstep.2.1

/-! ## 4. Successors from a table -/

/-- One more row adds at most its own entries, and to one vertex. -/
theorem Expands.add {next' : α → List α} {a : α} {c : ℕ} (h : Expands next n)
    (hle : ∀ x, (next' x).length ≤ (if x = a then c else 0) + (next x).length) :
    Expands next' (c + n) := by
  have hsum : ∀ xs : List α, xs.Nodup → (xs.map fun x => (next' x).length).sum ≤
      (if a ∈ xs then c else 0) + (xs.map fun x => (next x).length).sum := by
    intro xs
    induction xs with
    | nil => simp
    | cons x xs ih =>
      intro hnodup
      obtain ⟨hx, hxs⟩ := List.nodup_cons.mp hnodup
      have hrest := ih hxs
      have hhead := hle x
      rw [List.map_cons, List.sum_cons, List.map_cons, List.sum_cons]
      by_cases ha : x = a
      · subst ha
        rw [if_neg hx] at hrest
        rw [if_pos rfl] at hhead
        rw [if_pos List.mem_cons_self]
        omega
      · rw [if_neg ha] at hhead
        simp only [List.mem_cons, Ne.symm ha, false_or]
        omega
  intro xs hxs
  have hle := hsum xs hxs
  have hn := h xs hxs
  split at hle
  · omega
  · omega

omit [DecidableEq α] in
/-- The order of the successors is immaterial. -/
theorem Expands.congr {next' : α → List α} (h : Expands next n)
    (hlength : ∀ x, (next' x).length = (next x).length) : Expands next' n := by
  intro xs hxs
  simp only [hlength]
  exact h xs hxs

/-- The successors are the rows of an edge table. -/
theorem expands_filter {β : Type} (key f : β → α) (rows : List β) :
    Expands (fun x => (rows.filter fun b => key b = x).map f) rows.length := by
  induction rows with
  | nil => exact fun xs _ => by simp
  | cons b rows ih =>
    rw [List.length_cons, Nat.add_comm]
    refine ih.add (a := key b) fun x => ?_
    rw [List.filter_cons]
    by_cases hx : x = key b
    · subst hx
      simp only [decide_true, if_true, List.map_cons, List.length_cons]
      omega
    · rw [if_neg (by simpa using Ne.symm hx), if_neg hx]
      omega

/-- The successors are listed in the first row that is found. -/
theorem expands_find {β : Type} (key : β → α) (f : β → List α) (rows : List β) :
    Expands (fun x => ((rows.find? fun b => key b = x).map f).getD [])
      (rows.map fun b => (f b).length).sum := by
  induction rows with
  | nil => exact fun xs _ => by simp
  | cons b rows ih =>
    rw [List.map_cons, List.sum_cons]
    refine ih.add (a := key b) fun x => ?_
    rw [List.find?_cons]
    by_cases hx : x = key b
    · subst hx
      simp only [decide_true, Option.map_some, Option.getD_some, if_true]
      omega
    · rw [if_neg hx]
      have hother : decide (key b = x) = false := decide_eq_false (Ne.symm hx)
      simp [hother]

end Search

end Reach
