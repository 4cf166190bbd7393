/-
# Breadth-first search with a queue

The search as it is written over a dictionary: take the head of the queue, SCAN ALL THE ENTRIES of
the dictionary, and queue those not seen yet that the head touches.  On the way an entry can be
marked, by what it is to the vertex that discovers it.

The loop keeps `visited = reached ++ queue` without duplicates, and expands what it has reached, so
that it ends with exactly the vertices reachable from the root (`mem_search`).  What is marked
depends on the order: an entry is discovered by the FIRST reached vertex that touches it, and by no
other (`mem_search_marked`).
-/
import Mathlib.Logic.Relation
import Mathlib.Data.List.Dedup
import Mathlib.Data.List.Perm.Subperm

namespace Reach

/-- The variables of the loop; `reached` is in the order in which vertices are taken. -/
structure QueueSearch (α : Type) where
  visited : List α
  queue : List α
  reached : List α := []
  marked : List α := []

namespace QueueSearch

variable {α β : Type} [DecidableEq α]

section Loop

variable (key : β → α) (touches mark : α → β → Bool)

/-- One entry of the dictionary, seen from the vertex that was taken. -/
def look (x : α) (s : QueueSearch α) (b : β) : QueueSearch α :=
  if key b ∈ s.visited then s
  else if touches x b then
    { s with
      visited := s.visited ++ [key b]
      queue := s.queue ++ [key b]
      marked := if mark x b then s.marked ++ [key b] else s.marked }
  else s

/-- `while queue:`. -/
def run (univ : List β) : ℕ → QueueSearch α → QueueSearch α
  | 0, s => s
  | fuel + 1, s =>
    match s.queue with
    | [] => s
    | x :: queue =>
      run univ fuel (univ.foldl (look key touches mark x)
        { s with queue := queue, reached := s.reached ++ [x] })

/-- The search from `root`: every entry is queued at most once, which bounds the number of
rounds. -/
def search (univ : List β) (root : α) : QueueSearch α :=
  run key touches mark univ (univ.length + 1) { visited := [root], queue := [root] }

/-- An entry of the dictionary that a vertex touches. -/
def Touch (univ : List β) (x y : α) : Prop := ∃ b ∈ univ, key b = y ∧ touches x b = true

end Loop

variable {key : β → α} {touches mark : α → β → Bool} {univ : List β} {root x y : α}

/-! ## 1. One scan -/

/-- What a scan adds: the entries not seen before that the vertex touches. -/
structure Scanned (key : β → α) (touches : α → β → Bool) (x : α) (bs : List β)
    (s s' : QueueSearch α) : Prop where
  reached : s'.reached = s.reached
  added : ∃ new, s'.visited = s.visited ++ new ∧ s'.queue = s.queue ++ new
  visited : ∀ y, y ∈ s'.visited ↔ y ∈ s.visited ∨ ∃ b ∈ bs, key b = y ∧ touches x b = true
  nodup : s.visited.Nodup → s'.visited.Nodup

theorem scanned (key : β → α) (touches mark : α → β → Bool) (x : α) :
    ∀ (bs : List β) (s : QueueSearch α),
      Scanned key touches x bs s (bs.foldl (look key touches mark x) s)
  | [], s => ⟨rfl, ⟨[], by simp, by simp⟩, by simp, id⟩
  | b :: bs, s => by
    rw [List.foldl_cons]
    have ih := scanned key touches mark x bs (look key touches mark x s b)
    unfold look at ih ⊢
    by_cases hb : key b ∈ s.visited
    · rw [if_pos hb] at ih ⊢
      refine ⟨ih.reached, ih.added, ?_, ih.nodup⟩
      intro y
      rw [ih.visited]
      constructor
      · rintro (hy | ⟨c, hc, hy⟩)
        · exact Or.inl hy
        · exact Or.inr ⟨c, List.mem_cons_of_mem _ hc, hy⟩
      · rintro (hy | ⟨c, hc, rfl, ht⟩)
        · exact Or.inl hy
        · rcases List.mem_cons.mp hc with rfl | hc
          · exact Or.inl hb
          · exact Or.inr ⟨c, hc, rfl, ht⟩
    · rw [if_neg hb] at ih ⊢
      by_cases ht : touches x b = true
      · rw [if_pos ht] at ih ⊢
        obtain ⟨new, hvisited, hqueue⟩ := ih.added
        refine ⟨ih.reached, ⟨key b :: new, ?_, ?_⟩, ?_, ?_⟩
        · rw [hvisited, List.append_assoc]
          rfl
        · rw [hqueue, List.append_assoc]
          rfl
        · intro y
          rw [ih.visited, List.mem_append, List.mem_singleton]
          constructor
          · rintro ((hy | rfl) | ⟨c, hc, hy⟩)
            · exact Or.inl hy
            · exact Or.inr ⟨b, List.mem_cons_self, rfl, ht⟩
            · exact Or.inr ⟨c, List.mem_cons_of_mem _ hc, hy⟩
          · rintro (hy | ⟨c, hc, rfl, htc⟩)
            · exact Or.inl (Or.inl hy)
            · rcases List.mem_cons.mp hc with rfl | hc
              · exact Or.inl (Or.inr rfl)
              · exact Or.inr ⟨c, hc, rfl, htc⟩
        · intro hnodup
          exact ih.nodup (hnodup.append (List.nodup_singleton _) (List.disjoint_singleton.mpr hb))
      · rw [if_neg ht] at ih ⊢
        refine ⟨ih.reached, ih.added, ?_, ih.nodup⟩
        intro y
        rw [ih.visited]
        constructor
        · rintro (hy | ⟨c, hc, hy⟩)
          · exact Or.inl hy
          · exact Or.inr ⟨c, List.mem_cons_of_mem _ hc, hy⟩
        · rintro (hy | ⟨c, hc, rfl, htc⟩)
          · exact Or.inl hy
          · rcases List.mem_cons.mp hc with rfl | hc
            · exact absurd htc ht
            · exact Or.inr ⟨c, hc, rfl, htc⟩

/-- A scan marks the entries it adds that are marked by the vertex. -/
theorem mem_scan_marked : ∀ (bs : List β) (s : QueueSearch α), (bs.map key).Nodup →
    (y ∈ (bs.foldl (look key touches mark x) s).marked ↔ y ∈ s.marked ∨
      ∃ b ∈ bs, key b = y ∧ y ∉ s.visited ∧ touches x b = true ∧ mark x b = true)
  | [], s, _ => by simp
  | b :: bs, s, hnodup => by
    rw [List.map_cons, List.nodup_cons] at hnodup
    rw [List.foldl_cons, mem_scan_marked bs _ hnodup.2]
    have hother : ∀ c ∈ bs, key c ≠ key b := fun c hc h => hnodup.1 (List.mem_map.mpr ⟨c, hc, h⟩)
    unfold look
    constructor
    · split
      · rintro (hy | ⟨c, hc, hrest⟩)
        · exact Or.inl hy
        · exact Or.inr ⟨c, List.mem_cons_of_mem _ hc, hrest⟩
      · rename_i hb
        split
        · rename_i ht
          rintro (hy | ⟨c, hc, rfl, hnew, htouch, hmark⟩)
          · by_cases hm : mark x b = true
            · rw [if_pos hm, List.mem_append, List.mem_singleton] at hy
              rcases hy with hy | rfl
              · exact Or.inl hy
              · exact Or.inr ⟨b, List.mem_cons_self, rfl, hb, ht, hm⟩
            · rw [if_neg hm] at hy
              exact Or.inl hy
          · refine Or.inr ⟨c, List.mem_cons_of_mem _ hc, rfl, ?_, htouch, hmark⟩
            exact fun h => hnew (List.mem_append_left _ h)
        · rintro (hy | ⟨c, hc, hrest⟩)
          · exact Or.inl hy
          · exact Or.inr ⟨c, List.mem_cons_of_mem _ hc, hrest⟩
    · rintro (hy | ⟨c, hc, rfl, hnew, htouch, hmark⟩)
      · refine Or.inl ?_
        split
        · exact hy
        · split
          · split
            · exact List.mem_append_left _ hy
            · exact hy
          · exact hy
      · rcases List.mem_cons.mp hc with rfl | hc
        · refine Or.inl ?_
          rw [if_neg hnew, if_pos htouch, if_pos hmark]
          simp
        · refine Or.inr ⟨c, hc, rfl, ?_, htouch, hmark⟩
          split
          · exact hnew
          · split
            · rw [List.mem_append, List.mem_singleton]
              rintro (h | h)
              · exact hnew h
              · exact hother c hc h
            · exact hnew

/-! ## 2. The loop -/

/-- The invariant of the loop. -/
structure Inv (key : β → α) (touches : α → β → Bool) (univ : List β) (root : α)
    (s : QueueSearch α) : Prop where
  split : s.visited = s.reached ++ s.queue
  nodup : s.visited.Nodup
  rooted : root ∈ s.visited
  discovered : ∀ y ∈ s.visited, y = root ∨ ∃ x ∈ s.reached, Touch key touches univ x y
  reachable : ∀ y ∈ s.visited, Relation.ReflTransGen (Touch key touches univ) root y
  expanded : ∀ x ∈ s.reached, ∀ y, Touch key touches univ x y → y ∈ s.visited

omit [DecidableEq α] in
/-- The root alone, not yet expanded. -/
theorem Inv.start : Inv key touches univ root { visited := [root], queue := [root] } := by
  refine ⟨rfl, List.nodup_singleton root, List.mem_singleton_self root, ?_, ?_, ?_⟩
  · exact fun y hy => Or.inl (List.mem_singleton.mp hy)
  · intro y hy
    rw [List.mem_singleton.mp hy]
  · exact fun x hx => absurd hx (by simp)

/-- One round: the head of the queue is taken and expanded. -/
theorem Inv.round {s : QueueSearch α} {queue : List α} (h : Inv key touches univ root s)
    (hqueue : s.queue = x :: queue) :
    Inv key touches univ root (univ.foldl (look key touches mark x)
      { s with queue := queue, reached := s.reached ++ [x] }) := by
  have hscan := scanned key touches mark x univ
    { s with queue := queue, reached := s.reached ++ [x] }
  have hx : x ∈ s.visited := by
    rw [h.split, hqueue]
    simp
  obtain ⟨new, hvisited, hqueued⟩ := hscan.added
  refine ⟨?_, hscan.nodup h.nodup, (hscan.visited root).mpr (Or.inl h.rooted), ?_, ?_, ?_⟩
  · rw [hvisited, hscan.reached, hqueued, h.split, hqueue]
    simp
  · intro y hy
    rw [hscan.reached]
    rcases (hscan.visited y).mp hy with hy | hy
    · rcases h.discovered y hy with rfl | ⟨z, hz, hzy⟩
      · exact Or.inl rfl
      · exact Or.inr ⟨z, List.mem_append_left _ hz, hzy⟩
    · exact Or.inr ⟨x, by simp, hy⟩
  · intro y hy
    rcases (hscan.visited y).mp hy with hy | hy
    · exact h.reachable y hy
    · exact (h.reachable x hx).tail hy
  · intro z hz y hzy
    rw [hscan.reached] at hz
    refine (hscan.visited y).mpr ?_
    rcases List.mem_append.mp hz with hz | hz
    · exact Or.inl (h.expanded z hz y hzy)
    · obtain rfl := List.mem_singleton.mp hz
      exact Or.inr hzy

omit [DecidableEq α] in
/-- What has been visited is the root or an entry. -/
theorem Inv.length_le {s : QueueSearch α} (h : Inv key touches univ root s) :
    s.visited.length ≤ univ.length + 1 := by
  have hsubset : s.visited ⊆ root :: univ.map key := by
    intro y hy
    rcases h.discovered y hy with rfl | ⟨x, -, b, hb, rfl, -⟩
    · exact List.mem_cons_self
    · exact List.mem_cons_of_mem _ (List.mem_map_of_mem hb)
  have hlength := (List.subperm_of_subset h.nodup hsubset).length_le
  simpa using hlength

/-- With enough rounds left the loop ends with an empty queue, and keeps the invariant. -/
theorem Inv.run : ∀ (fuel : ℕ) (s : QueueSearch α), Inv key touches univ root s →
    univ.length + 1 ≤ fuel + s.reached.length →
      Inv key touches univ root (run key touches mark univ fuel s) ∧
        (run key touches mark univ fuel s).queue = []
  | 0, s, h, hfuel => by
    refine ⟨h, ?_⟩
    have hle := h.length_le
    rw [h.split, List.length_append] at hle
    change s.queue = []
    exact List.eq_nil_of_length_eq_zero (by omega)
  | fuel + 1, s, h, hfuel => by
    rw [QueueSearch.run]
    cases hqueue : s.queue with
    | nil => exact ⟨h, hqueue⟩
    | cons x queue =>
      refine Inv.run fuel _ (h.round hqueue) ?_
      rw [(scanned key touches mark x univ _).reached, List.length_append, List.length_singleton]
      omega

variable (key touches mark univ root)

theorem inv_search :
    Inv key touches univ root (search key touches mark univ root) ∧
      (search key touches mark univ root).queue = [] :=
  Inv.run _ _ Inv.start (by simp)

/-- Rounds that find the queue empty do nothing. -/
theorem run_add : ∀ (fuel more : ℕ) (s : QueueSearch α),
    (run key touches mark univ fuel s).queue = [] →
      run key touches mark univ (fuel + more) s = run key touches mark univ fuel s
  | 0, 0, _, _ => rfl
  | 0, more + 1, s, h => by
    have hqueue : s.queue = [] := h
    rw [Nat.zero_add, QueueSearch.run, QueueSearch.run, hqueue]
  | fuel + 1, more, s, h => by
    rw [Nat.add_right_comm, QueueSearch.run, QueueSearch.run]
    rw [QueueSearch.run] at h
    cases hqueue : s.queue with
    | nil => rfl
    | cons x queue =>
      rw [hqueue] at h
      exact run_add fuel more _ h

/-- **The loop ends**: the queue is empty, and more rounds would find nothing to do. -/
theorem search_ends : (search key touches mark univ root).queue = [] ∧
    ∀ more, run key touches mark univ (univ.length + 1 + more)
      { visited := [root], queue := [root] } = search key touches mark univ root := by
  have hqueue := (inv_search key touches mark univ root).2
  exact ⟨hqueue, fun more => run_add key touches mark univ _ more _ hqueue⟩

theorem visited_search :
    (search key touches mark univ root).visited = (search key touches mark univ root).reached := by
  obtain ⟨hinv, hqueue⟩ := inv_search key touches mark univ root
  rw [hinv.split, hqueue, List.append_nil]

theorem nodup_search : (search key touches mark univ root).reached.Nodup := by
  rw [← visited_search]
  exact (inv_search key touches mark univ root).1.nodup

/-- Two searches that differ in what they mark. -/
def SameRoute (s s' : QueueSearch α) : Prop :=
  s.visited = s'.visited ∧ s.queue = s'.queue ∧ s.reached = s'.reached

theorem SameRoute.scan {mark' : α → β → Bool} (x : α) :
    ∀ (bs : List β) {s s' : QueueSearch α}, SameRoute s s' →
      SameRoute (bs.foldl (look key touches mark x) s) (bs.foldl (look key touches mark' x) s')
  | [], _, _, h => h
  | b :: bs, s, s', h => by
    rw [List.foldl_cons, List.foldl_cons]
    refine SameRoute.scan x bs ?_
    obtain ⟨hvisited, hqueue, hreached⟩ := h
    unfold look
    rw [hvisited]
    split
    · exact ⟨hvisited, hqueue, hreached⟩
    · split
      · exact ⟨rfl, congrArg (· ++ [key b]) hqueue, hreached⟩
      · exact ⟨hvisited, hqueue, hreached⟩

theorem SameRoute.run {mark' : α → β → Bool} : ∀ (fuel : ℕ) {s s' : QueueSearch α},
    SameRoute s s' → SameRoute (QueueSearch.run key touches mark univ fuel s)
      (QueueSearch.run key touches mark' univ fuel s')
  | 0, _, _, h => h
  | fuel + 1, s, s', h => by
    rw [QueueSearch.run, QueueSearch.run, ← h.2.1]
    cases hqueue : s.queue with
    | nil => exact h
    | cons x queue =>
      refine SameRoute.run fuel (SameRoute.scan key touches mark x univ ?_)
      exact ⟨h.1, rfl, congrArg (· ++ [x]) h.2.2⟩

/-- The order of the search does not depend on the marks. -/
theorem reached_search (mark' : α → β → Bool) :
    (search key touches mark univ root).reached = (search key touches mark' univ root).reached :=
  (SameRoute.run key touches mark univ (univ.length + 1) ⟨rfl, rfl, rfl⟩).2.2

variable {key touches mark univ root}

/-- **The search reaches what is reachable.** -/
theorem mem_search : y ∈ (search key touches mark univ root).reached ↔
    Relation.ReflTransGen (Touch key touches univ) root y := by
  obtain ⟨hinv, -⟩ := inv_search key touches mark univ root
  constructor
  · intro hy
    rw [← visited_search] at hy
    exact hinv.reachable y hy
  · intro h
    induction h with
    | refl =>
      rw [← visited_search]
      exact hinv.rooted
    | tail _ hyz ih =>
      rw [← visited_search]
      exact hinv.expanded _ ih _ hyz

/-! ## 3. Who discovers what -/

/-- The marks are those of the first vertex that touches the entry. -/
def Marks (key : β → α) (touches mark : α → β → Bool) (univ : List β) (root : α)
    (s : QueueSearch α) : Prop :=
  ∀ y, y ∈ s.marked ↔ ∃ b ∈ univ, key b = y ∧ y ≠ root ∧
    ∃ x, s.reached.find? (touches · b) = some x ∧ mark x b = true

theorem Marks.round {s : QueueSearch α} {queue : List α} (hnodup : (univ.map key).Nodup)
    (h : Inv key touches univ root s) (hmarks : Marks key touches mark univ root s) :
    Marks key touches mark univ root (univ.foldl (look key touches mark x)
      { s with queue := queue, reached := s.reached ++ [x] }) := by
  have hreached := (scanned key touches mark x univ
    { s with queue := queue, reached := s.reached ++ [x] }).reached
  -- an entry has been visited once it has been touched, and unless it is the root not before
  have hvisited : ∀ b ∈ univ, key b ≠ root →
      (key b ∈ s.visited ↔ s.reached.find? (touches · b) ≠ none) := by
    intro b hb hroot
    rw [ne_eq, List.find?_eq_none]
    push Not
    constructor
    · intro hkey
      rcases h.discovered _ hkey with heq | ⟨z, hz, c, hc, hkc, ht⟩
      · exact absurd heq hroot
      · obtain rfl := List.inj_on_of_nodup_map hnodup hc hb hkc
        exact ⟨z, hz, ht⟩
    · rintro ⟨z, hz, ht⟩
      exact h.expanded z hz _ ⟨b, hb, rfl, ht⟩
  intro y
  rw [mem_scan_marked univ _ hnodup, hmarks y, hreached]
  constructor
  · rintro (⟨b, hb, rfl, hroot, z, hz, hm⟩ | ⟨b, hb, rfl, hnew, ht, hm⟩)
    · refine ⟨b, hb, rfl, hroot, z, ?_, hm⟩
      rw [List.find?_append, hz]
      rfl
    · have hroot : key b ≠ root := fun heq => hnew (heq ▸ h.rooted)
      refine ⟨b, hb, rfl, hroot, x, ?_, hm⟩
      have hnone := mt (hvisited b hb hroot).mpr hnew
      rw [not_not] at hnone
      rw [List.find?_append, hnone]
      simp [ht]
  · rintro ⟨b, hb, rfl, hroot, z, hz, hm⟩
    rw [List.find?_append] at hz
    cases hold : s.reached.find? (touches · b) with
    | some z' =>
      rw [hold] at hz
      obtain rfl := Option.some.inj hz
      exact Or.inl ⟨b, hb, rfl, hroot, z', hold, hm⟩
    | none =>
      rw [hold, Option.none_or] at hz
      have ht := List.find?_some hz
      obtain rfl := List.mem_singleton.mp (List.mem_of_find?_eq_some hz)
      refine Or.inr ⟨b, hb, rfl, ?_, ht, hm⟩
      exact fun hkey => (hvisited b hb hroot).mp hkey hold

theorem Marks.run (hnodup : (univ.map key).Nodup) : ∀ (fuel : ℕ) (s : QueueSearch α),
    Inv key touches univ root s → Marks key touches mark univ root s →
      Marks key touches mark univ root (run key touches mark univ fuel s)
  | 0, _, _, hmarks => hmarks
  | fuel + 1, s, h, hmarks => by
    rw [QueueSearch.run]
    cases hqueue : s.queue with
    | nil => exact hmarks
    | cons x queue => exact Marks.run hnodup fuel _ (h.round hqueue) (hmarks.round hnodup h)

/-- **What is marked**: an entry other than the root, by the first vertex that touches it. -/
theorem mem_search_marked (hnodup : (univ.map key).Nodup) :
    y ∈ (search key touches mark univ root).marked ↔ ∃ b ∈ univ, key b = y ∧ y ≠ root ∧
      ∃ x, (search key touches mark univ root).reached.find? (touches · b) = some x ∧
        mark x b = true := by
  refine Marks.run hnodup _ _ Inv.start ?_ y
  intro y
  simp

end QueueSearch

end Reach
