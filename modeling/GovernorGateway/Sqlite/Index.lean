/-
# The edge table, row by row

Every traversal reads the edge table and never the payloads, so the two copies of the lineage have
to agree down to the CLASS of an edge.  `Payload.edgeClass?` says which class the payload itself
gives an edge: that of the first commitment to the parent, else `COVERS`.  `Lineage.Indexed` says
that the rows of the edge table are exactly these, under the composite key.

`Lineage.Extends` is the other half: what is stored under an id, and the edges that lead into it,
stay as they are.  Both are kept by every function of the store.
-/
import GovernorGateway.Backend

namespace GovernorGateway

/-! ## 1. The class of an edge -/

/-- The class of the edge from `x` into the node with this payload, if there is one. -/
def Payload.edgeClass? (p : Payload) (x : NodeId) : Option EdgeClass :=
  match p.parents.find? fun c => c.parentNodeId = x with
  | some c => some (c.edgeClass.getD .material)
  | none => if x ∈ p.covers then some .covers else none

theorem Payload.edgeClass?_isSome {p : Payload} {x : NodeId} :
    (p.edgeClass? x).isSome ↔ p.Names x := by
  unfold edgeClass? Names parentIds
  cases hfind : p.parents.find? fun c => c.parentNodeId = x with
  | some c =>
    have hx : c.parentNodeId = x := by simpa using List.find?_some hfind
    simp only [Option.isSome_some, true_iff]
    exact Or.inl (List.mem_map.mpr ⟨c, List.mem_of_find?_eq_some hfind, hx⟩)
  | none =>
    have hnot : x ∉ p.parents.map ParentCommitment.parentNodeId := by
      intro hx
      obtain ⟨c, hc, rfl⟩ := List.mem_map.mp hx
      exact absurd (List.find?_eq_none.mp hfind c hc) (by simp)
    by_cases hx : x ∈ p.covers
    · simp [hx]
    · simp [hx, hnot]

/-- The first of the rows `commit_node` inserts for a parent carries the payload's class. -/
theorem Lineage.lookup_edgeRows {p : Payload} {x : NodeId} {e : EdgeRow} :
    Keyed.lookup EdgeRow.key (Lineage.edgeRows p) (p.payloadId, x) = some e ↔
      e.childId = p.payloadId ∧ e.parentId = x ∧ p.edgeClass? x = some e.edgeClass := by
  have hparents : (p.parents.map fun c => (⟨p.payloadId, c.parentNodeId,
      c.edgeClass.getD .material⟩ : EdgeRow)).find? (fun r => r.key = (p.payloadId, x)) =
      (p.parents.find? fun c => c.parentNodeId = x).map fun c =>
        ⟨p.payloadId, c.parentNodeId, c.edgeClass.getD .material⟩ := by
    rw [List.find?_map]
    simp only [Function.comp_def, EdgeRow.key, Prod.mk.injEq, true_and]
  have hcovers : (p.covers.map fun y => (⟨p.payloadId, y, .covers⟩ : EdgeRow)).find?
      (fun r => r.key = (p.payloadId, x)) =
      if x ∈ p.covers then some ⟨p.payloadId, x, .covers⟩ else none := by
    rw [List.find?_map]
    cases hfind : p.covers.find? ((fun r : EdgeRow => decide (r.key = (p.payloadId, x))) ∘
        fun y => (⟨p.payloadId, y, .covers⟩ : EdgeRow)) with
    | none =>
      have hnot : x ∉ p.covers := by
        intro hx
        exact absurd (List.find?_eq_none.mp hfind x hx) (by simp [EdgeRow.key])
      rw [if_neg hnot]
      rfl
    | some y =>
      have hy : y = x := by simpa [EdgeRow.key] using List.find?_some hfind
      subst hy
      rw [if_pos (List.mem_of_find?_eq_some hfind)]
      rfl
  rw [Keyed.lookup, edgeRows, List.find?_append, hparents, hcovers, Payload.edgeClass?]
  cases hfind : p.parents.find? fun c => c.parentNodeId = x with
  | some c =>
    have hx : c.parentNodeId = x := by simpa using List.find?_some hfind
    obtain ⟨child, parent, cls⟩ := e
    simp only [Option.map_some, Option.some_or, Option.some.injEq, EdgeRow.mk.injEq, hx]
    constructor
    · rintro ⟨rfl, rfl, rfl⟩
      exact ⟨rfl, rfl, rfl⟩
    · rintro ⟨rfl, rfl, rfl⟩
      exact ⟨rfl, rfl, rfl⟩
  | none =>
    obtain ⟨child, parent, cls⟩ := e
    by_cases hx : x ∈ p.covers
    · simp only [hx, if_true, Option.map_none, Option.none_or, Option.some.injEq, EdgeRow.mk.injEq]
      constructor
      · rintro ⟨rfl, rfl, rfl⟩
        exact ⟨rfl, rfl, rfl⟩
      · rintro ⟨rfl, rfl, rfl⟩
        exact ⟨rfl, rfl, rfl⟩
    · simp [hx]

namespace Lineage

variable {L : Lineage}

/-! ## 2. The representation invariant -/

/-- **The edge table is the index of the payloads.**  Ids and pairs are keys, and a row is there
exactly when the payload stored under its child gives the edge that class. -/
structure Indexed (L : Lineage) : Prop where
  nodup : L.nodeIds.Nodup
  edges_nodup : (L.edges.map EdgeRow.key).Nodup
  mem_edges : ∀ e, e ∈ L.edges ↔
    ∃ n ∈ L.nodes, n.nodeId = e.childId ∧ n.payload.edgeClass? e.parentId = some e.edgeClass

theorem Indexed.commitNode {sha256 : String → String} {p : Payload} (h : L.Indexed) :
    (commitNode sha256 p L).2.Indexed := by
  by_cases hp : p.payloadId ∈ L.nodeIds
  · rwa [commitNode_of_mem hp]
  · have hfresh : ∀ x, (p.payloadId, x) ∉ L.edges.map EdgeRow.key := by
      intro x hx
      obtain ⟨e, he, hkey⟩ := List.mem_map.mp hx
      obtain ⟨n, hn, hid, -⟩ := (h.mem_edges e).mp he
      exact hp (mem_nodeIds.mpr ⟨n, hn, hid.trans (congrArg Prod.fst hkey)⟩)
    have hedges : (Lineage.commitNode sha256 p L).2.edges =
        (edgeRows p).foldl (Keyed.insertOrIgnore EdgeRow.key) L.edges := by
      rw [Lineage.commitNode, if_neg hp]
    refine ⟨?_, ?_, ?_⟩
    · rw [Lineage.commitNode, if_neg hp]
      exact Keyed.nodup_insertOrIgnore h.nodup
    · rw [hedges]
      exact Keyed.nodup_foldl_insertOrIgnore _ _ h.edges_nodup
    · intro e
      rw [hedges, Keyed.mem_foldl_insertOrIgnore, h.mem_edges]
      constructor
      · rintro (⟨n, hn, hid, hcls⟩ | ⟨-, hrow⟩)
        · exact ⟨n, mem_nodes_commitNode.mpr (Or.inl hn), hid, hcls⟩
        · -- the row is one of the new ones, so its child is the new node
          have hchild : e.childId = p.payloadId := by
            have hmem := (Keyed.lookup_mem hrow).1
            simp only [edgeRows, List.mem_append, List.mem_map] at hmem
            rcases hmem with ⟨c, -, rfl⟩ | ⟨y, -, rfl⟩
            · rfl
            · rfl
          rw [show e.key = (p.payloadId, e.parentId) from by rw [EdgeRow.key, hchild]] at hrow
          exact ⟨nodeRow sha256 p, mem_nodes_commitNode.mpr (Or.inr ⟨rfl, hp⟩), hchild.symm,
            (lookup_edgeRows.mp hrow).2.2⟩
      · rintro ⟨n, hn, hid, hcls⟩
        rcases mem_nodes_commitNode.mp hn with hn | ⟨rfl, -⟩
        · exact Or.inl ⟨n, hn, hid, hcls⟩
        · have hkey : e.key = (p.payloadId, e.parentId) := by rw [EdgeRow.key, ← hid]; rfl
          rw [hkey]
          exact Or.inr ⟨hfresh _, lookup_edgeRows.mpr ⟨hid.symm, rfl, hcls⟩⟩

/-- The tables right after `reset` are the index of the one payload they hold. -/
theorem indexed_reset (sha256 : String → String) (db : Db) :
    (db.reset sha256).toLineage.Indexed := by
  rw [Db.reset_toLineage]
  refine ⟨List.nodup_singleton _, List.nodup_nil, ?_⟩
  intro e
  simp [Lineage.nodeRow, Payload.edgeClass?]

/-- The keys of the edge table are the references of the payloads. -/
theorem Indexed.edge_iff (h : L.Indexed) {x c : NodeId} :
    L.Edge x c ↔ ∃ n ∈ L.nodes, n.nodeId = c ∧ n.payload.Names x := by
  constructor
  · rintro ⟨e, he, rfl, rfl⟩
    obtain ⟨n, hn, hid, hcls⟩ := (h.mem_edges e).mp he
    exact ⟨n, hn, hid, Payload.edgeClass?_isSome.mp (by rw [hcls]; rfl)⟩
  · rintro ⟨n, hn, rfl, hnames⟩
    obtain ⟨cls, hcls⟩ := Option.isSome_iff_exists.mp (Payload.edgeClass?_isSome.mpr hnames)
    exact ⟨⟨n.nodeId, x, cls⟩, (h.mem_edges _).mpr ⟨n, hn, rfl, hcls⟩, rfl, rfl⟩

/-! ## 3. What is stored stays -/

/-- `L'` has the node rows of `L`, and no other edge rows into a node of `L`. -/
structure Extends (L L' : Lineage) : Prop where
  nodes : ∀ n ∈ L.nodes, n ∈ L'.nodes
  edges : ∀ e : EdgeRow, e.childId ∈ L.nodeIds → (e ∈ L'.edges ↔ e ∈ L.edges)

theorem Extends.refl (L : Lineage) : L.Extends L := ⟨fun _ h => h, fun _ _ => Iff.rfl⟩

theorem Extends.mem_nodeIds {L' : Lineage} (h : L.Extends L') {x : NodeId} (hx : x ∈ L.nodeIds) :
    x ∈ L'.nodeIds := by
  obtain ⟨n, hn, rfl⟩ := Lineage.mem_nodeIds.mp hx
  exact Lineage.mem_nodeIds.mpr ⟨n, h.nodes n hn, rfl⟩

theorem Extends.commitNode {L' : Lineage} {sha256 : String → String} {p : Payload}
    (h : L.Extends L') : L.Extends (commitNode sha256 p L').2 := by
  by_cases hp : p.payloadId ∈ L'.nodeIds
  · rwa [commitNode_of_mem hp]
  · refine ⟨fun n hn => mem_nodes_commitNode.mpr (Or.inl (h.nodes n hn)), ?_⟩
    intro e he
    rw [Lineage.commitNode, if_neg hp, Keyed.mem_foldl_insertOrIgnore, h.edges e he]
    refine or_iff_left_iff_imp.mpr ?_
    rintro ⟨-, hrow⟩
    -- a new row leads into the new node, whose id was free
    have hmem := (Keyed.lookup_mem hrow).1
    simp only [edgeRows, List.mem_append, List.mem_map] at hmem
    rcases hmem with ⟨c, -, rfl⟩ | ⟨y, -, rfl⟩
    · exact absurd (h.mem_nodeIds he) hp
    · exact absurd (h.mem_nodeIds he) hp

/-- A row stored under an id is the only one. -/
theorem Extends.unique {L' : Lineage} (h : L.Extends L') (hnodup : L'.nodeIds.Nodup) {n m : NodeRow}
    (hn : n ∈ L.nodes) (hm : m ∈ L'.nodes) (hid : m.nodeId = n.nodeId) : m = n := by
  have h₁ : Keyed.lookup NodeRow.nodeId L'.nodes m.nodeId = some m :=
    Keyed.lookup_of_mem hnodup hm
  have h₂ : Keyed.lookup NodeRow.nodeId L'.nodes n.nodeId = some n :=
    Keyed.lookup_of_mem hnodup (h.nodes n hn)
  rw [hid, h₂] at h₁
  exact (Option.some.inj h₁).symm

end Lineage

/-- A property of the lineage that the two writes keep is kept by every function of the store. -/
theorem Store.exec_lineage {g : Setup} {K : Lineage → Prop}
    (hcommit : ∀ (p : Payload) L, K L → K (L.commitNode g.env.sha256 p).2)
    (hquarantine : ∀ (ids : List NodeId) L, K L → K (L.quarantine ids)) (c : Store) (db : Db)
    (h : K db.toLineage) : K (c.exec g db).2.toLineage := by
  by_cases hc : c.Loud
  · cases c with
    | commitNode site p => exact hcommit p db.toLineage h
    | applyQuarantineTransaction event ids => exact hquarantine ids db.toLineage h
    | updateRepairCandidate x rc => exact h
    | _ => exact absurd hc id
  · rwa [Store.exec_toLineage g db c hc]

end GovernorGateway
