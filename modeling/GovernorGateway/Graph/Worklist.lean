/-
# A worklist loop

`while queue:` pop a vertex, mark the successors that have not been seen and queue them.  The loop
starts from any list of vertices, with duplicates or not, and its state is what `collect` works on:
the vertices seen and the queue.

**It ends, with what is reachable** (`worklist_eq`): a vertex is queued once more than it was at the
start at most, so there are no more rounds than vertices in the first queue and vertices that can be
found.
-/
import GovernorGateway.Graph.Reach

namespace Reach

variable {α : Type} [DecidableEq α] {adj : α → List α}

/-- The loop, from a queue and the vertices seen; `none` when the rounds are used up before the
queue is. -/
def worklist (adj : α → List α) : ℕ → List α → List α → Option (List α)
  | _, [], seen => some seen
  | 0, _ :: _, _ => none
  | rounds + 1, x :: queue, seen =>
    worklist adj rounds (collect (adj x) (seen, queue)).2 (collect (adj x) (seen, queue)).1

/-- The invariant: everything seen can be reached from a root, and a vertex whose successors have
not been seen is queued. -/
structure Worklist (adj : α → List α) (roots queue seen : List α) : Prop where
  rooted : ∀ x ∈ roots, x ∈ seen
  queued : ∀ x ∈ queue, x ∈ seen
  sound : ∀ y ∈ seen, ∃ x ∈ roots, Relation.ReflTransGen (Adj adj) x y
  expanded : ∀ y ∈ seen, y ∈ queue ∨ ∀ z, Adj adj y z → z ∈ seen

omit [DecidableEq α] in
/-- The loop starts with its roots queued and seen. -/
theorem Worklist.start {roots seen : List α} (h : ∀ x, x ∈ seen ↔ x ∈ roots) :
    Worklist adj roots roots seen where
  rooted := fun x hx => (h x).mpr hx
  queued := fun x hx => (h x).mpr hx
  sound := fun y hy => ⟨y, (h y).mp hy, .refl⟩
  expanded := fun y hy => Or.inl ((h y).mp hy)

omit [DecidableEq α] in
/-- **One round**: the successors of the vertex that was popped have been seen, and those that are
new are queued. -/
theorem Worklist.round {roots queue seen queue' seen' : List α} {x : α}
    (h : Worklist adj roots (x :: queue) seen) (hseen : ∀ y, y ∈ seen' ↔ y ∈ seen ∨ Adj adj x y)
    (hqueue : ∀ y, y ∈ queue' ↔ y ∈ queue ∨ (Adj adj x y ∧ y ∉ seen)) :
    Worklist adj roots queue' seen' := by
  classical
  have hx : x ∈ seen := h.queued x List.mem_cons_self
  constructor
  · intro y hy
    exact (hseen y).mpr (Or.inl (h.rooted y hy))
  · intro y hy
    rw [hseen]
    rcases (hqueue y).mp hy with hy | ⟨hxy, -⟩
    · exact Or.inl (h.queued y (List.mem_cons_of_mem x hy))
    · exact Or.inr hxy
  · intro y hy
    rcases (hseen y).mp hy with hy | hxy
    · exact h.sound y hy
    · obtain ⟨r, hr, hpath⟩ := h.sound x hx
      exact ⟨r, hr, hpath.tail hxy⟩
  · intro y hy
    by_cases hyx : y = x
    · -- the vertex that was popped has its successors seen now
      subst hyx
      exact Or.inr fun z hz => (hseen z).mpr (Or.inr hz)
    · rcases (hseen y).mp hy with hold | hxy
      · rcases h.expanded y hold with hq | hall
        · exact Or.inl ((hqueue y).mpr (Or.inl ((List.mem_cons.mp hq).resolve_left hyx)))
        · exact Or.inr fun z hz => (hseen z).mpr (Or.inl (hall z hz))
      · by_cases hold : y ∈ seen
        · rcases h.expanded y hold with hq | hall
          · exact Or.inl ((hqueue y).mpr (Or.inl ((List.mem_cons.mp hq).resolve_left hyx)))
          · exact Or.inr fun z hz => (hseen z).mpr (Or.inl (hall z hz))
        · exact Or.inl ((hqueue y).mpr (Or.inr ⟨hxy, hold⟩))

omit [DecidableEq α] in
/-- With nothing queued, what has been seen is what is reachable. -/
theorem Worklist.mem_of_done {roots seen : List α} (h : Worklist adj roots [] seen) (y : α) :
    y ∈ seen ↔ ∃ x ∈ roots, Relation.ReflTransGen (Adj adj) x y := by
  refine ⟨h.sound y, ?_⟩
  rintro ⟨x, hx, hpath⟩
  refine closed_of_reachable (S := (· ∈ seen)) ?_ (h.rooted x hx) hpath
  intro z w hz hzw
  rcases h.expanded z hz with hq | hall
  · exact absurd hq (by simp)
  · exact hall w hzw

/-- What is queued leaves the vertices that are still to be found. -/
theorem length_collect_le (univ : Finset α) : ∀ (cs seen queue : List α), (∀ c ∈ cs, c ∈ univ) →
    (collect cs (seen, queue)).2.length + (univ \ (collect cs (seen, queue)).1.toFinset).card ≤
      queue.length + (univ \ seen.toFinset).card
  | [], _, _, _ => le_refl _
  | c :: cs, seen, queue, hcs => by
    have hrest : ∀ d ∈ cs, d ∈ univ := fun d hd => hcs d (List.mem_cons_of_mem c hd)
    rw [collect]
    split
    · exact length_collect_le univ cs seen queue hrest
    · rename_i hnew
      refine (length_collect_le univ cs _ _ hrest).trans ?_
      have hfound : univ \ (seen ++ [c]).toFinset = (univ \ seen.toFinset).erase c := by
        ext y
        simp only [Finset.mem_sdiff, List.mem_toFinset, List.mem_append, List.mem_singleton,
          Finset.mem_erase, not_or]
        tauto
      have hmem : c ∈ univ \ seen.toFinset := by
        rw [Finset.mem_sdiff, List.mem_toFinset]
        exact ⟨hcs c List.mem_cons_self, hnew⟩
      rw [hfound, Finset.card_erase_of_mem hmem, List.length_append, List.length_singleton]
      have hpos := Finset.card_pos.mpr ⟨c, hmem⟩
      omega

/-- **The loop from any of its states**: with enough rounds it ends, with what is reachable. -/
theorem Worklist.run {univ : Finset α} (hu : ∀ x y, Adj adj x y → y ∈ univ) {roots : List α} :
    ∀ (rounds : ℕ) (queue seen : List α), Worklist adj roots queue seen →
      queue.length + (univ \ seen.toFinset).card ≤ rounds →
      ∃ found, worklist adj rounds queue seen = some found ∧
        ∀ y, y ∈ found ↔ ∃ x ∈ roots, Relation.ReflTransGen (Adj adj) x y
  | rounds, [], seen, h, _ => by
    refine ⟨seen, ?_, h.mem_of_done⟩
    cases rounds <;> rfl
  | 0, x :: queue, seen, _, hrounds => absurd hrounds (by simp)
  | rounds + 1, x :: queue, seen, h, hrounds => by
    rw [worklist]
    refine Worklist.run hu rounds _ _ (h.round (fun y => mem_collect (adj x) seen queue)
      fun y => mem_collect_next (adj x) seen queue) ?_
    have hle := length_collect_le univ (adj x) seen queue fun y hy => hu x y hy
    rw [List.length_cons] at hrounds
    omega

/-- **The worklist loop** from its roots. -/
theorem worklist_eq {univ : Finset α} (hu : ∀ x y, Adj adj x y → y ∈ univ) {roots : List α}
    {rounds : ℕ} (hrounds : roots.length + univ.card ≤ rounds) :
    ∃ found, worklist adj rounds roots roots.dedup = some found ∧
      ∀ y, y ∈ found ↔ ∃ x ∈ roots, Relation.ReflTransGen (Adj adj) x y := by
  refine Worklist.run hu rounds roots roots.dedup (Worklist.start fun x => List.mem_dedup) ?_
  have hle := Finset.card_le_card (Finset.sdiff_subset (s := univ) (t := roots.dedup.toFinset))
  omega

end Reach
