/-
# What the in-memory traversal finds

`MemoryStateBackend.compute_blast_radius` is a breadth-first search that classifies on the way: a
node counts as an affected compaction when the node that DISCOVERS it, the first one of the search
that it names, is the parent of one of its `CARRIED` entries.  What other nodes of the radius are to
it is not looked at.

`mem_search_reached` and `mem_search_affected` say what the search finds, in terms of the graph and
of the order of the search; `classified` is the effect on the records.
-/
import GovernorGateway.Memory.Backend
import GovernorGateway.Graph.QueueSearch
import GovernorGateway.Sqlite.Verdict

namespace GovernorGateway

open Reach

/-- The payload has a `CARRIED` entry for the node. -/
def Payload.Carries (p : Payload) (x : NodeId) : Prop :=
  ∃ c ∈ p.parents, c.parentNodeId = x ∧ c.edgeClass = some .carried

instance (p : Payload) (x : NodeId) : Decidable (p.Carries x) :=
  inferInstanceAs (Decidable (∃ c ∈ _, _))

namespace Memory

variable {m : Memory} {root x y : NodeId}

/-! ## 1. The search is a search with a queue -/

/-- The node is named by the entry, as a parent or among what it covers. -/
def touches (x : NodeId) (p : Payload) : Bool := decide (p.Names x)

def carries (x : NodeId) (p : Payload) : Bool := decide (p.Carries x)

/-- What is below the root, in the order of a breadth-first search over the dictionary. -/
def breadthFirst (m : Memory) (root : NodeId) : List NodeId :=
  (QueueSearch.search Payload.payloadId touches (fun _ _ => false) m.dag root).reached

/-- An entry of the dictionary names the node. -/
def Refers (m : Memory) (x y : NodeId) : Prop := ∃ p ∈ m.dag, p.payloadId = y ∧ p.Names x

/-- The variables of the loop, as the library has them. -/
def Search.toQueue (s : Search) : QueueSearch NodeId := ⟨s.visited, s.queue, s.reached, s.affected⟩

theorem Search.toQueue_injective : Function.Injective Search.toQueue := by
  rintro ⟨visited, queue, reached, affected⟩ ⟨visited', queue', reached', affected'⟩ h
  cases h
  rfl

theorem Search.toQueue_look (x : NodeId) (s : Search) (p : Payload) :
    (Search.look x s p).toQueue =
      QueueSearch.look Payload.payloadId touches carries x s.toQueue p := by
  unfold Search.look QueueSearch.look
  by_cases hvisited : p.payloadId ∈ s.visited
  · have hvisited' : p.payloadId ∈ s.toQueue.visited := hvisited
    rw [if_pos hvisited, if_pos hvisited']
  · have hvisited' : p.payloadId ∉ s.toQueue.visited := hvisited
    rw [if_neg hvisited, if_neg hvisited']
    have hcarries : (p.parents.any fun c =>
        c.parentNodeId = x && decide (c.edgeClass = some .carried)) = carries x p := by
      rw [carries, Bool.eq_iff_iff, List.any_eq_true, decide_eq_true_eq, Payload.Carries]
      simp only [Bool.and_eq_true, decide_eq_true_eq]
    by_cases hparent : x ∈ p.parentIds
    · have htouches : touches x p = true := decide_eq_true (Or.inl hparent)
      rw [if_pos hparent, if_pos htouches, hcarries]
      rfl
    · rw [if_neg hparent]
      by_cases hcovers : x ∈ p.covers
      · have htouches : touches x p = true := decide_eq_true (Or.inr hcovers)
        have hnot : carries x p = false := by
          rw [carries, decide_eq_false_iff_not]
          rintro ⟨c, hc, rfl, -⟩
          exact hparent (List.mem_map_of_mem hc)
        rw [if_pos hcovers, if_pos htouches, hnot]
        rfl
      · have htouches : ¬ touches x p = true := by
          rw [touches, decide_eq_true_eq]
          exact not_or.mpr ⟨hparent, hcovers⟩
        rw [if_neg hcovers, if_neg htouches]

theorem Search.toQueue_scan (x : NodeId) : ∀ (dag : List Payload) (s : Search),
    (dag.foldl (Search.look x) s).toQueue =
      dag.foldl (QueueSearch.look Payload.payloadId touches carries x) s.toQueue
  | [], _ => rfl
  | p :: dag, s => by
    rw [List.foldl_cons, List.foldl_cons, Search.toQueue_scan x dag, Search.toQueue_look]

theorem Search.toQueue_run (dag : List Payload) : ∀ (fuel : ℕ) (s : Search),
    (Search.run dag fuel s).toQueue =
      QueueSearch.run Payload.payloadId touches carries dag fuel s.toQueue
  | 0, _ => rfl
  | fuel + 1, s => by
    obtain ⟨visited, queue, reached, affected⟩ := s
    cases queue with
    | nil => rfl
    | cons x queue =>
      rw [Search.run]
      change (Search.run dag fuel _).toQueue = QueueSearch.run _ _ _ dag fuel _
      rw [Search.toQueue_run dag fuel, Search.toQueue_scan]
      rfl

theorem search_toQueue (m : Memory) (root : NodeId) :
    (m.search root).toQueue =
      QueueSearch.search Payload.payloadId touches carries m.dag root :=
  Search.toQueue_run m.dag _ _

theorem search_reached (m : Memory) (root : NodeId) :
    (m.search root).reached = m.breadthFirst root := by
  rw [breadthFirst, QueueSearch.reached_search _ _ _ _ _ carries, ← search_toQueue]
  rfl

theorem nodup_breadthFirst (m : Memory) (root : NodeId) : (m.breadthFirst root).Nodup :=
  QueueSearch.nodup_search _ _ _ _ _

/-- The loop ends: with the queue empty, and more rounds would change nothing. -/
theorem search_ends (m : Memory) (root : NodeId) :
    (m.search root).queue = [] ∧ ∀ rounds, Search.run m.dag (m.dag.length + 1 + rounds)
      { visited := [root], queue := [root] } = m.search root := by
  have hends := QueueSearch.search_ends Payload.payloadId touches carries m.dag root
  rw [← search_toQueue] at hends
  refine ⟨hends.1, ?_⟩
  intro rounds
  have hrun := Search.toQueue_run m.dag (m.dag.length + 1 + rounds)
    { visited := [root], queue := [root] }
  exact Search.toQueue_injective (hrun.trans (hends.2 rounds))

/-! ## 2. What it finds -/

/-- **The radius**: what descends from the root, at any depth. -/
theorem mem_breadthFirst : y ∈ m.breadthFirst root ↔ Relation.ReflTransGen m.Refers root y := by
  have htouch : QueueSearch.Touch Payload.payloadId touches m.dag = m.Refers := by
    funext x y
    simp only [QueueSearch.Touch, Refers, touches, decide_eq_true_eq]
  rw [breadthFirst, QueueSearch.mem_search, htouch]

/-- The first node of the search that the payload names. -/
def discoverer (m : Memory) (root : NodeId) (p : Payload) : Option NodeId :=
  (m.breadthFirst root).find? fun x => touches x p

/-- The search discovers the payload by a `CARRIED` entry. -/
def DiscoveredCarried (m : Memory) (root : NodeId) (p : Payload) : Prop :=
  p.payloadId ≠ root ∧ ∃ x, m.discoverer root p = some x ∧ p.Carries x

/-- **The affected compactions** are the payloads the search discovers by a `CARRIED` entry. -/
theorem mem_search_affected (hnodup : m.nodeIds.Nodup) :
    y ∈ (m.search root).affected ↔ ∃ p ∈ m.dag, p.payloadId = y ∧ m.DiscoveredCarried root p := by
  have hmarked : (m.search root).affected =
      (QueueSearch.search Payload.payloadId touches carries m.dag root).marked := by
    rw [← search_toQueue]
    rfl
  rw [hmarked, QueueSearch.mem_search_marked hnodup]
  have hreached : (QueueSearch.search Payload.payloadId touches carries m.dag root).reached =
      m.breadthFirst root := QueueSearch.reached_search _ _ _ _ _ _
  simp only [hreached, carries, decide_eq_true_eq]
  constructor
  · rintro ⟨p, hp, rfl, hne, x, hx, hcarries⟩
    exact ⟨p, hp, rfl, hne, x, hx, hcarries⟩
  · rintro ⟨p, hp, rfl, hne, x, hx, hcarries⟩
    exact ⟨p, hp, rfl, hne, x, hx, hcarries⟩

/-! ## 3. The loop over the affected compactions -/

theorem terminal_eq : m.terminal x = finalIn m.repairCandidates x := by
  rw [terminal, finalIn, findingOf]
  cases Keyed.lookup Prod.fst m.repairCandidates x with
  | none => rfl
  | some row => rfl

theorem classify_eq {reached : List NodeId} {rollback : Bool} : m.classify reached rollback x =
    if finalIn m.repairCandidates x then none
    else verdict m.checkpoints reached rollback (m.node? x) := by
  rw [classify, terminal_eq]
  split
  · rfl
  · cases rollback with
    | true => rfl
    | false => cases m.node? x <;> rfl

theorem findingOf_setRepairCandidate {rc : RepairCandidate} (y : NodeId) :
    findingOf (m.setRepairCandidate x rc).repairCandidates y =
      if y = x then some rc.finding else findingOf m.repairCandidates y := by
  rw [findingOf, setRepairCandidate, Keyed.lookup_assign]
  by_cases hy : x = y
  · rw [if_pos hy, if_pos hy.symm]
    rfl
  · rw [if_neg hy, if_neg (Ne.symm hy), findingOf]

/-- The loop changes the records and nothing else. -/
theorem foldl_classifyOne (reached : List NodeId) (rollback : Bool) :
    ∀ (xs : List NodeId) (m : Memory),
      (∃ rcs, xs.foldl (classifyOne reached rollback) m = { m with repairCandidates := rcs }) ∧
        Classified (fun x => verdict m.checkpoints reached rollback (m.node? x)) xs
          m.repairCandidates (xs.foldl (classifyOne reached rollback) m).repairCandidates
  | [], m => ⟨⟨m.repairCandidates, rfl⟩, Classified.nil⟩
  | x :: xs, m => by
    rw [List.foldl_cons, classifyOne, classify_eq]
    cases hfinal : finalIn m.repairCandidates x with
    | true =>
      obtain ⟨hsame, hrest⟩ := foldl_classifyOne reached rollback xs m
      exact ⟨hsame, Classified.skip (Or.inl hfinal) hrest⟩
    | false =>
      simp only [Bool.false_eq_true, if_false]
      cases hverdict : verdict m.checkpoints reached rollback (m.node? x) with
      | none =>
        obtain ⟨hsame, hrest⟩ := foldl_classifyOne reached rollback xs m
        exact ⟨hsame, Classified.skip (Or.inr hverdict) hrest⟩
      | some rc =>
        obtain ⟨⟨rcs, hsame⟩, hrest⟩ :=
          foldl_classifyOne reached rollback xs (m.setRepairCandidate x rc)
        exact ⟨⟨rcs, hsame⟩, Classified.store hfinal hverdict findingOf_setRepairCandidate hrest⟩

/-- The traversal leaves everything but the records as it is. -/
theorem computeBlastRadius_snd (m : Memory) (root : NodeId) :
    ∃ rcs, (m.computeBlastRadius root).2 = { m with repairCandidates := rcs } :=
  (foldl_classifyOne _ _ _ m).1

/-- What the traversal answers. -/
theorem computeBlastRadius_fst (m : Memory) (root : NodeId) :
    (m.computeBlastRadius root).1 = sortedSet (m.breadthFirst root) := by
  rw [computeBlastRadius, search_reached, sortedSet_of_nodup (nodup_breadthFirst m root)]

/-- **The records after a traversal.** -/
theorem classified (m : Memory) (root : NodeId) :
    Classified (fun x => verdict m.checkpoints (m.breadthFirst root)
        (m.externalEffects.any fun e => e.nodeId ∈ m.breadthFirst root) (m.node? x))
      (m.search root).affected m.repairCandidates
      (m.computeBlastRadius root).2.repairCandidates := by
  have h := (foldl_classifyOne (m.search root).reached
    (m.externalEffects.any fun e => e.nodeId ∈ (m.search root).reached)
    (m.search root).affected m).2
  rw [search_reached] at h
  rw [computeBlastRadius, search_reached]
  exact h

end Memory

end GovernorGateway
