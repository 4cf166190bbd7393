/-
# The interval gap of a compaction, in memory

`_compute_covers_interval_gap` (`src/governor_service.py`): two worklist loops from the covered ids,
one DOWN the parent references, which scans the graph for the children of a node, and one UP, which
leaves out parents that are not in the graph.  What both find and is not covered is the gap.

The argument is a dictionary of payloads; its keys are distinct, and they need not be the ids that
the payloads carry.  The in-memory backend calls it with its own
(`Memory.computeCoversIntervalGap_eq`).
-/
import GovernorGateway.Graph.Between
import GovernorGateway.Graph.Worklist
import GovernorGateway.Memory.Backend

namespace GovernorGateway

namespace Gap

variable (dag : List (NodeId × Payload))

/-- The ids under which a payload with the parent `x` is stored. -/
def childrenOf (x : NodeId) : List NodeId := (dag.filter fun n => x ∈ n.2.parentIds).map Prod.fst

/-- The parents of `x` that are stored. -/
def parentsOf (x : NodeId) : List NodeId :=
  (((Keyed.lookup Prod.fst dag x).map fun n => n.2.parentIds).getD []).filter (· ∈ dag.map Prod.fst)

/-- `_compute_covers_interval_gap`, with a bound on the rounds of each loop. -/
def computeCoversIntervalGap (rounds : ℕ) (covers : List NodeId) : Option (List NodeId) :=
  if covers = [] then some []
  else do
    let below ← Reach.worklist (childrenOf dag) rounds covers covers.dedup
    let above ← Reach.worklist (parentsOf dag) rounds covers covers.dedup
    pure (sortedSet ((below.filter (· ∈ above)).filter (· ∉ covers)))

/-- The payload stored under `y` has the parent `x`. -/
def ParentEdge (x y : NodeId) : Prop := ∃ p, (y, p) ∈ dag ∧ x ∈ p.parentIds

variable {dag} {covers : List NodeId} {x y : NodeId}

/-! ## 1. The two searches -/

theorem adj_childrenOf : Reach.Adj (childrenOf dag) x y ↔ ParentEdge dag x y := by
  simp only [Reach.Adj, childrenOf, List.mem_map, List.mem_filter, decide_eq_true_eq, ParentEdge]
  constructor
  · rintro ⟨⟨z, p⟩, ⟨hp, hx⟩, rfl⟩
    exact ⟨p, hp, hx⟩
  · rintro ⟨p, hp, hx⟩
    exact ⟨(y, p), ⟨hp, hx⟩, rfl⟩

theorem adj_parentsOf (hdag : (dag.map Prod.fst).Nodup) :
    Reach.Adj (parentsOf dag) y x ↔ ParentEdge dag x y ∧ x ∈ dag.map Prod.fst := by
  rw [Reach.Adj, parentsOf, List.mem_filter, decide_eq_true_eq]
  refine and_congr_left fun _ => ?_
  constructor
  · intro hx
    cases hlookup : Keyed.lookup Prod.fst dag y with
    | none =>
      rw [hlookup] at hx
      exact absurd hx (by simp)
    | some n =>
      rw [hlookup] at hx
      obtain ⟨hn, rfl⟩ := Keyed.lookup_mem hlookup
      exact ⟨n.2, hn, hx⟩
  · rintro ⟨p, hp, hx⟩
    have hlookup : Keyed.lookup Prod.fst dag y = some (y, p) := Keyed.lookup_of_mem hdag hp
    rw [hlookup]
    exact hx

/-- The child of a reference is stored. -/
theorem ParentEdge.stored (h : ParentEdge dag x y) : y ∈ dag.map Prod.fst := by
  obtain ⟨p, hp, -⟩ := h
  exact List.mem_map.mpr ⟨(y, p), hp, rfl⟩

/-- **Leaving out parents that are not stored loses nothing**: from a stored node, the search up
finds every path that leads to its start. -/
theorem path_up_iff (hdag : (dag.map Prod.fst).Nodup) (hx : x ∈ dag.map Prod.fst) :
    Relation.ReflTransGen (Reach.Adj (parentsOf dag)) y x ↔
      Relation.ReflTransGen (ParentEdge dag) x y := by
  constructor
  · intro h
    induction h with
    | refl => exact .refl
    | tail _ hstep ih =>
      obtain ⟨hedge, -⟩ := (adj_parentsOf hdag).mp hstep
      exact .head hedge (ih hedge.stored)
  · intro h
    induction h using Relation.ReflTransGen.head_induction_on with
    | refl => exact .refl
    | head hedge _ ih => exact (ih hedge.stored).tail ((adj_parentsOf hdag).mpr ⟨hedge, hx⟩)

/-! ## 2. The gap -/

/-- A node on a path that is not its start is stored. -/
theorem stored_of_between (h : Reach.Between (ParentEdge dag) (· ∈ covers) x) (hx : x ∉ covers) :
    x ∈ dag.map Prod.fst := by
  obtain ⟨⟨c, hc, hpath⟩, -⟩ := h
  rcases Relation.ReflTransGen.cases_tail hpath with rfl | ⟨y, -, hedge⟩
  · exact absurd hc hx
  · exact hedge.stored

/-- **What both searches find** and is not covered lies between covered ids. -/
theorem found_iff (hdag : (dag.map Prod.fst).Nodup) :
    ((∃ c ∈ covers, Relation.ReflTransGen (Reach.Adj (childrenOf dag)) c x) ∧
        ∃ c ∈ covers, Relation.ReflTransGen (Reach.Adj (parentsOf dag)) c x) ∧ x ∉ covers ↔
      x ∉ covers ∧ Reach.Between (ParentEdge dag) (· ∈ covers) x := by
  have hdown : Reach.Adj (childrenOf dag) = ParentEdge dag := by
    funext y z
    exact propext adj_childrenOf
  rw [hdown, and_comm]
  refine and_congr_right fun hx => ?_
  constructor
  · rintro ⟨⟨c, hc, hpath⟩, c', hc', hpath'⟩
    have hstored : x ∈ dag.map Prod.fst := by
      rcases Relation.ReflTransGen.cases_tail hpath with rfl | ⟨y, -, hedge⟩
      · exact absurd hc hx
      · exact hedge.stored
    exact ⟨⟨c, hc, hpath⟩, c', hc', (path_up_iff hdag hstored).mp hpath'⟩
  · intro hbetween
    obtain ⟨hfrom, c', hc', hpath'⟩ := id hbetween
    exact ⟨hfrom, c', hc', (path_up_iff hdag (stored_of_between hbetween hx)).mpr hpath'⟩

/-- Two lists in strict order with the same members are one list. -/
theorem eq_of_mem_iff {xs ys : List NodeId} (hxs : xs.Pairwise (· < ·)) (hys : ys.Pairwise (· < ·))
    (h : ∀ x, x ∈ xs ↔ x ∈ ys) : xs = ys := by
  have hperm : xs.Perm ys := (List.perm_ext_iff_of_nodup hxs.nodup hys.nodup).mpr h
  exact hperm.eq_of_pairwise (fun _ _ _ _ hab hba => absurd hab (lt_asymm hba)) hxs hys

/-- **The loops end**, and the gap is what lies between covered ids. -/
theorem gap_spec (hdag : (dag.map Prod.fst).Nodup) (covers : List NodeId) :
    ∃ gap, (∀ rounds, covers.length + dag.length ≤ rounds →
        computeCoversIntervalGap dag rounds covers = some gap) ∧
      gap.Pairwise (· < ·) ∧ ∀ x, x ∈ gap ↔ x ∉ covers ∧ Reach.Between (ParentEdge dag) (· ∈ covers) x := by
  have hlen : ((dag.map Prod.fst).toFinset).card ≤ dag.length := by
    have h := List.toFinset_card_le (dag.map Prod.fst)
    rwa [List.length_map] at h
  have hgap : ∀ rounds, covers.length + dag.length ≤ rounds →
      ∃ gap, computeCoversIntervalGap dag rounds covers = some gap ∧ gap.Pairwise (· < ·) ∧
        ∀ x, x ∈ gap ↔ x ∉ covers ∧ Reach.Between (ParentEdge dag) (· ∈ covers) x := by
    intro rounds hrounds
    by_cases hnil : covers = []
    · subst hnil
      refine ⟨[], if_pos rfl, List.Pairwise.nil, fun x => ?_⟩
      simp [Reach.Between]
    · have hdown : ∀ y z, Reach.Adj (childrenOf dag) y z → z ∈ (dag.map Prod.fst).toFinset :=
        fun y z hyz => List.mem_toFinset.mpr (adj_childrenOf.mp hyz).stored
      have hup : ∀ y z, Reach.Adj (parentsOf dag) y z → z ∈ (dag.map Prod.fst).toFinset :=
        fun y z hyz => List.mem_toFinset.mpr ((adj_parentsOf hdag).mp hyz).2
      have hfew : covers.length + ((dag.map Prod.fst).toFinset).card ≤ rounds := by omega
      obtain ⟨below, hbelow, hmem⟩ := Reach.worklist_eq hdown hfew
      obtain ⟨above, habove, hmem'⟩ := Reach.worklist_eq hup hfew
      refine ⟨sortedSet ((below.filter (· ∈ above)).filter (· ∉ covers)), ?_, pairwise_sortedSet _,
        fun x => ?_⟩
      · rw [computeCoversIntervalGap, if_neg hnil, hbelow, habove]
        rfl
      · rw [mem_sortedSet, List.mem_filter, List.mem_filter]
        simp only [decide_eq_true_eq]
        rw [hmem, hmem']
        exact found_iff hdag
  obtain ⟨gap, hrun, hsorted, hmem⟩ := hgap (covers.length + dag.length) (le_refl _)
  refine ⟨gap, fun rounds hrounds => ?_, hsorted, hmem⟩
  obtain ⟨gap', hrun', hsorted', hmem'⟩ := hgap rounds hrounds
  rw [hrun', eq_of_mem_iff hsorted' hsorted fun x => (hmem' x).trans (hmem x).symm]

end Gap

/-! ## 3. The in-memory backend -/

namespace Memory

variable {adj : NodeId → List NodeId}

/-- A round of `drain` leaves no more to do than there was. -/
theorem length_drain_le {univ : Finset NodeId} {x : NodeId} (hu : ∀ y, Reach.Adj adj x y → y ∈ univ)
    (queue seen : List NodeId) :
    (queue ++ ((adj x).filter (· ∉ seen)).dedup).length +
        (univ \ (seen ++ ((adj x).filter (· ∉ seen)).dedup).toFinset).card ≤
      queue.length + (univ \ seen.toFinset).card := by
  have hnew : ∀ y, y ∈ ((adj x).filter (· ∉ seen)).dedup ↔ y ∈ adj x ∧ y ∉ seen := by
    intro y
    simp
  have hcard : ((adj x).filter (· ∉ seen)).dedup.length =
      (((adj x).filter (· ∉ seen)).dedup.toFinset).card :=
    (List.toFinset_card_of_nodup (List.nodup_dedup _)).symm
  have hsub : ((adj x).filter (· ∉ seen)).dedup.toFinset ⊆ univ \ seen.toFinset := by
    intro y hy
    obtain ⟨hadj, hy⟩ := (hnew y).mp (List.mem_toFinset.mp hy)
    rw [Finset.mem_sdiff, List.mem_toFinset]
    exact ⟨hu y hadj, hy⟩
  have hrest := Finset.card_sdiff_add_card_eq_card hsub
  have hunion : univ \ (seen ++ ((adj x).filter (· ∉ seen)).dedup).toFinset =
      (univ \ seen.toFinset) \ ((adj x).filter (· ∉ seen)).dedup.toFinset := by
    rw [List.toFinset_append]
    exact sdiff_sdiff_left.symm
  rw [hunion, List.length_append, hcard]
  omega

/-- `drain` from any state of a worklist loop. -/
theorem mem_drain {univ : Finset NodeId} (hu : ∀ x y, Reach.Adj adj x y → y ∈ univ) {roots : List NodeId} :
    ∀ (fuel : ℕ) (queue seen : List NodeId), Reach.Worklist adj roots queue seen →
      queue.length + (univ \ seen.toFinset).card ≤ fuel →
      ∀ y, y ∈ drain adj fuel queue seen ↔ ∃ x ∈ roots, Relation.ReflTransGen (Reach.Adj adj) x y
  | fuel, [], seen, h, _ => by
    have hdone : drain adj fuel [] seen = seen := by
      cases fuel <;> rfl
    rw [hdone]
    exact h.mem_of_done
  | 0, x :: queue, seen, _, hfuel => absurd hfuel (by simp)
  | fuel + 1, x :: queue, seen, h, hfuel => by
    rw [drain]
    refine mem_drain hu fuel _ _ (h.round (fun y => ?_) fun y => ?_) ?_
    · by_cases hy : y ∈ seen <;> simp [hy, Reach.Adj]
    · simp [Reach.Adj]
    · have hle := length_drain_le (hu x) queue seen
      rw [List.length_cons] at hfuel
      omega

/-- What the two loops of the backend search along is what the helper's do. -/
theorem childrenOf_getDag (m : Memory) (x : NodeId) :
    Gap.childrenOf m.getDag x = (m.dag.filter fun p => x ∈ p.parentIds).map Payload.payloadId := by
  rw [Gap.childrenOf, getDag, List.filter_map, List.map_map]
  rfl

theorem lookup_getDag (m : Memory) (x : NodeId) :
    Keyed.lookup Prod.fst m.getDag x = (m.node? x).map fun p => (p.payloadId, p) := by
  rw [Keyed.lookup, getDag, List.find?_map]
  rfl

theorem keys_getDag (m : Memory) : m.getDag.map Prod.fst = m.nodeIds := by
  rw [getDag, List.map_map]
  rfl

theorem parentsOf_getDag (m : Memory) (x : NodeId) :
    Gap.parentsOf m.getDag x = (((m.node? x).map Payload.parentIds).getD []).filter (· ∈ m.nodeIds) := by
  rw [Gap.parentsOf, lookup_getDag, keys_getDag, Option.map_map]
  rfl

/-- **The backend's function is the helper**, on its own dictionary. -/
theorem computeCoversIntervalGap_eq (m : Memory) (hm : m.nodeIds.Nodup) (covers : List NodeId) {rounds : ℕ}
    (hrounds : covers.length + m.dag.length ≤ rounds) :
    Gap.computeCoversIntervalGap m.getDag rounds covers = some (m.computeCoversIntervalGap covers) := by
  have hdag : (m.getDag.map Prod.fst).Nodup := by rwa [keys_getDag]
  have hlen : m.getDag.length = m.dag.length := List.length_map _
  obtain ⟨gap, hgap, hsorted, hmem⟩ := Gap.gap_spec hdag covers
  rw [hgap rounds (by omega)]
  refine congrArg some (Gap.eq_of_mem_iff hsorted (pairwise_sortedSet _) fun x => ?_)
  have hcard : m.nodeIds.toFinset.card ≤ m.dag.length := by
    have h := List.toFinset_card_le m.nodeIds
    rwa [nodeIds, List.length_map] at h
  have hfuel : covers.length + (m.nodeIds.toFinset \ covers.toFinset).card ≤
      covers.length + m.dag.length := by
    have h := Finset.card_le_card (Finset.sdiff_subset (s := m.nodeIds.toFinset) (t := covers.toFinset))
    omega
  have hstart : ∀ adj, Reach.Worklist adj covers covers covers := fun adj =>
    Reach.Worklist.start fun _ => Iff.rfl
  have hdown : ∀ y z, Reach.Adj (Gap.childrenOf m.getDag) y z → z ∈ m.nodeIds.toFinset := by
    intro y z hyz
    rw [List.mem_toFinset, ← keys_getDag]
    exact (Gap.adj_childrenOf.mp hyz).stored
  have hup : ∀ y z, Reach.Adj (Gap.parentsOf m.getDag) y z → z ∈ m.nodeIds.toFinset := by
    intro y z hyz
    rw [List.mem_toFinset, ← keys_getDag]
    exact ((Gap.adj_parentsOf hdag).mp hyz).2
  have hbelow := mem_drain hdown _ covers covers (hstart _) hfuel x
  have habove := mem_drain hup _ covers covers (hstart _) hfuel x
  rw [hmem, ← Gap.found_iff hdag, ← hbelow, ← habove, funext (childrenOf_getDag m),
    funext (parentsOf_getDag m), computeCoversIntervalGap, mem_sortedSet, List.mem_filter,
    decide_eq_true_eq, ← and_assoc]

end Memory

end GovernorGateway
