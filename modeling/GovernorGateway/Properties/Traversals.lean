/-
# Four traversals, one answer

`compute_blast_radius` is written three times: `src/sqlite_backend.py` has a search that scans the
edge table once and one that queries it level by level, `src/postgres_backend.py` has a recursive
query.  They bound the depth differently (a depth on every queued node, a loop counter, a depth
column), and the second stops as soon as it has seen as many nodes as it counted.

`traversals_agree`: on every node and edge table that `commit_node` can leave behind they answer the
SAME SORTED LIST, that of the ids within the depth bound of the root.  The early exit is sound
because the child of an edge is always a stored node, so that only the root itself can be missing
from the count.

The fourth, of the in-memory backend (`src/governor_service.py`), has no bound and asks nothing of
its dictionary: `Memory.radius_exact`.
-/
import GovernorGateway.Graph.RecursiveQuery
import GovernorGateway.Sqlite.Queries
import GovernorGateway.Memory.Repair

namespace GovernorGateway

namespace Lineage

variable {D : Int} {root : NodeId} {L : Lineage}

/-! ## 1. The recursive query -/

/-- `SELECT DISTINCT node_id FROM blast_radius`, the query of the PostgreSQL backend. -/
def recursiveTraverse (D : Int) (root : NodeId) (L : Lineage) : List NodeId :=
  ((Reach.depthQuery L.children D root).map Prod.fst).dedup

theorem mem_recursiveTraverse {y : NodeId} :
    y ∈ recursiveTraverse D root L ↔ Reach.Within L.Edge D.toNat root y := by
  rw [recursiveTraverse, List.mem_dedup, Reach.mem_depthQuery, adj_children_eq]

/-! ## 2. Tables reachable through `commit_node` -/

/-- The node and edge tables of a database: just created or just reset, and then written by
`commit_node` only. -/
inductive Committed (sha256 : String → String) : Lineage → Prop
  | created : Committed sha256 {}
  | reset (db : Db) : Committed sha256 (db.reset sha256).toLineage
  | commit {L : Lineage} (p : Payload) :
      Committed sha256 L → Committed sha256 (L.commitNode sha256 p).2

theorem Committed.wf {sha256 : String → String} (h : Committed sha256 L) : L.Wf := by
  induction h with
  | created =>
    refine ⟨List.nodup_nil, List.nodup_nil, ?_⟩
    intro p c
    simp [Edge]
  | reset db => exact (wf_reset sha256 db).1
  | commit p _ ih => exact ih.commitNode

/-- **The strategy makes no difference.**  The two branches of the SQLite backend, the query of the
PostgreSQL backend and hence `compute_blast_radius` itself answer one list: sorted, without
duplicates, the ids at most `D` parent or covers edges below the root.  The edge table may have
cycles and the root need not be stored. -/
theorem traversals_agree {sha256 : String → String} {db : Db} (h : Committed sha256 db.toLineage)
    (D : Int) (root : NodeId) :
    let ids := sortedSet (sparseTraverse D root db.toLineage)
    sortedSet (denseTraverse D root db.toLineage) = ids ∧
      sortedSet (recursiveTraverse D root db.toLineage) = ids ∧
      (db.computeBlastRadius D root).1 = ids ∧
      ids.Pairwise (· ≤ ·) ∧ ids.Nodup ∧ root ∈ ids ∧
      ∀ y, y ∈ ids ↔ Reach.Within db.toLineage.Edge D.toNat root y := by
  have hmem : ∀ y, y ∈ sortedSet (sparseTraverse D root db.toLineage) ↔
      Reach.Within db.toLineage.Edge D.toNat root y := by
    intro y
    rw [mem_sortedSet, mem_sparseTraverse]
  refine ⟨?_, ?_, ?_, List.pairwise_insertionSort _ _, nodup_sortedSet _, ?_, hmem⟩
  · exact sortedSet_congr fun y => by rw [mem_denseTraverse h.wf, mem_sparseTraverse]
  · exact sortedSet_congr fun y => by rw [mem_recursiveTraverse, mem_sparseTraverse]
  · rw [Db.computeBlastRadius]
    exact sortedSet_congr fun y => by rw [mem_traverse h.wf, mem_sparseTraverse]
  · exact (hmem root).mpr (Reach.Within.refl _ _ _)

/-- Two payloads that cover each other. -/
def cyclicDb : Db :=
  let sha256 : String → String := fun _ => ""
  let first := ((Db.reset {} sha256).toLineage.commitNode sha256
    { payloadId := "a", covers := ["b"] }).2
  { toLineage := (first.commitNode sha256 { payloadId := "b", covers := ["a"] }).2 }

/-- On a cycle: the three traversals find both nodes. -/
theorem traversals_agree_cyclic :
    sortedSet (denseTraverse 3 "a" cyclicDb.toLineage) = ["a", "b"] ∧
      sortedSet (recursiveTraverse 3 "a" cyclicDb.toLineage) = ["a", "b"] ∧
      (cyclicDb.computeBlastRadius 3 "a").1 = ["a", "b"] := by
  have hids : sortedSet (sparseTraverse 3 "a" cyclicDb.toLineage) = ["a", "b"] := by
    decide +kernel
  have hcommitted : Committed (fun _ => "") cyclicDb.toLineage :=
    .commit _ (.commit _ (.reset {}))
  have h := traversals_agree hcommitted 3 "a"
  rw [hids] at h
  exact ⟨h.1, h.2.1, h.2.2.1⟩

end Lineage

/-! ## 3. The search over the dictionary -/

namespace Memory

/-- **Exactly what descends from the root.**  On every dictionary the loop ends, and what it has
popped, sorted, is the root and the entries reached from it through `parent_dependency_commitments`
and `covers`: in order and none twice, whatever cycles there are and whether or not the root is
stored. -/
theorem radius_exact (m : Memory) (root : NodeId) :
    (m.search root).queue = [] ∧
      (∀ rounds, Search.run m.dag (m.dag.length + 1 + rounds)
        { visited := [root], queue := [root] } = m.search root) ∧
      (m.computeBlastRadius root).1.Pairwise (· < ·) ∧
      ∀ y, y ∈ (m.computeBlastRadius root).1 ↔ y = root ∨ (y ∈ m.nodeIds ∧
        Relation.TransGen (fun x y => ∃ p ∈ m.dag, p.payloadId = y ∧
          (x ∈ p.parentIds ∨ x ∈ p.covers)) root y) := by
  obtain ⟨hqueue, hrounds⟩ := m.search_ends root
  refine ⟨hqueue, hrounds, ?_, ?_⟩
  · rw [computeBlastRadius_fst]
    exact pairwise_sortedSet _
  · intro y
    rw [computeBlastRadius_fst, mem_sortedSet, mem_breadthFirst,
      Relation.reflTransGen_iff_eq_or_transGen]
    refine or_congr_right ?_
    constructor
    · intro hreach
      have hstored : y ∈ m.nodeIds := by
        obtain ⟨x, -, p, hp, rfl, -⟩ := Relation.TransGen.tail'_iff.mp hreach
        exact List.mem_map_of_mem hp
      exact ⟨hstored, hreach⟩
    · exact fun h => h.2

end Memory

end GovernorGateway
