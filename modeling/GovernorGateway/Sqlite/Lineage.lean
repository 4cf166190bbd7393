/-
# The lineage tables and what writes them

`commit_node`, the ledger half of `apply_quarantine_transaction` and the traversal of
`compute_blast_radius` (`src/sqlite_backend.py`), as functions on the three lineage tables.

`Lineage.Wf` is the invariant of the tables: the edge table is the index of the references in the
stored payloads.  Under it the traversal, whichever of its two strategies runs, returns THE BALL OF
RADIUS `MAX_TRAVERSAL_DEPTH` (`mem_traverse`), and containment of the stored payloads is closedness
of the edge relation (`Wf.contained_iff`), so that the lemmas of `Graph/Closed.lean` apply.
-/
import GovernorGateway.Sqlite.Tables
import GovernorGateway.Graph.Closed

namespace GovernorGateway

/-! ## 1. Sorted sets -/

/-- `sorted(set(xs))`. -/
def sortedSet (xs : List NodeId) : List NodeId := xs.dedup.insertionSort (· ≤ ·)

@[simp] theorem mem_sortedSet {xs : List NodeId} {x : NodeId} : x ∈ sortedSet xs ↔ x ∈ xs := by
  simp [sortedSet]

theorem nodup_sortedSet (xs : List NodeId) : (sortedSet xs).Nodup :=
  (List.perm_insertionSort (· ≤ ·) xs.dedup).nodup_iff.mpr (List.nodup_dedup xs)

theorem sortedSet_of_nodup {xs : List NodeId} (h : xs.Nodup) :
    sortedSet xs = xs.insertionSort (· ≤ ·) := by
  rw [sortedSet, h.dedup]

/-- Sorted, and nothing twice. -/
theorem pairwise_sortedSet (xs : List NodeId) : (sortedSet xs).Pairwise (· < ·) := by
  have hsorted : (sortedSet xs).Pairwise (· ≤ ·) := List.pairwise_insertionSort _ _
  exact hsorted.imp₂ (fun _ _ hle hne => lt_of_le_of_ne hle hne) (nodup_sortedSet xs)

/-- A sorted set only depends on its members. -/
theorem sortedSet_congr {xs ys : List NodeId} (h : ∀ x, x ∈ xs ↔ x ∈ ys) :
    sortedSet xs = sortedSet ys := by
  have hperm : (sortedSet xs).Perm (sortedSet ys) := by
    rw [List.perm_ext_iff_of_nodup (nodup_sortedSet xs) (nodup_sortedSet ys)]
    intro x
    rw [mem_sortedSet, mem_sortedSet, h]
  exact List.Perm.eq_of_pairwise (fun _ _ _ _ hab hba => le_antisymm hab hba)
    (List.pairwise_insertionSort _ _) (List.pairwise_insertionSort _ _) hperm

namespace Lineage

variable {L : Lineage}

theorem mem_nodeIds {x : NodeId} : x ∈ L.nodeIds ↔ ∃ n ∈ L.nodes, n.nodeId = x := by
  simp [nodeIds]

/-! ## 2. Committing a node -/

/-- The commitment of a payload:
`sha256(content_hash + "".join(sorted(parent_node_id + ":" + parent_content_hash)))`. -/
def commitment (sha256 : String → String) (p : Payload) : String :=
  sha256 (p.contentDigest.getD "" ++ String.join
    ((p.parents.map fun c => c.parentNodeId ++ ":" ++ c.parentContentHash.getD "").insertionSort
      (· ≤ ·)))

/-- The row `commit_node` inserts into `nodes`. -/
def nodeRow (sha256 : String → String) (p : Payload) : NodeRow :=
  ⟨p.payloadId, p, p.contentDigest.getD "", commitment sha256 p⟩

/-- The rows `commit_node` inserts into `edges`: the declared parents, then the covered nodes. -/
def edgeRows (p : Payload) : List EdgeRow :=
  (p.parents.map fun c => ⟨p.payloadId, c.parentNodeId, c.edgeClass.getD .material⟩) ++
    p.covers.map fun x => ⟨p.payloadId, x, .covers⟩

/-- `commit_node`: a payload whose id is taken changes nothing. -/
def commitNode (sha256 : String → String) (p : Payload) (L : Lineage) : Bool × Lineage :=
  if p.payloadId ∈ L.nodeIds then (false, L)
  else
    (true, { L with
      nodes := Keyed.insertOrIgnore NodeRow.nodeId L.nodes (nodeRow sha256 p)
      edges := (edgeRows p).foldl (Keyed.insertOrIgnore EdgeRow.key) L.edges })

section Commit

variable {sha256 : String → String} {p : Payload}

theorem commitNode_of_mem (h : p.payloadId ∈ L.nodeIds) : commitNode sha256 p L = (false, L) :=
  if_pos h

@[simp] theorem commitNode_ledger : (commitNode sha256 p L).2.ledger = L.ledger := by
  unfold commitNode
  split <;> rfl

theorem mem_nodes_commitNode {n : NodeRow} :
    n ∈ (commitNode sha256 p L).2.nodes ↔
      n ∈ L.nodes ∨ (n = nodeRow sha256 p ∧ p.payloadId ∉ L.nodeIds) := by
  unfold commitNode
  split
  · rename_i h
    constructor
    · exact Or.inl
    · rintro (hn | ⟨-, hn⟩)
      · exact hn
      · exact absurd h hn
  · exact Keyed.mem_insertOrIgnore

theorem mem_nodeIds_commitNode {x : NodeId} :
    x ∈ (commitNode sha256 p L).2.nodeIds ↔ x ∈ L.nodeIds ∨ x = p.payloadId := by
  rw [mem_nodeIds]
  constructor
  · rintro ⟨n, hn, rfl⟩
    rcases mem_nodes_commitNode.mp hn with hn | ⟨rfl, -⟩
    · exact Or.inl (mem_nodeIds.mpr ⟨n, hn, rfl⟩)
    · exact Or.inr rfl
  · rintro (hx | rfl)
    · obtain ⟨n, hn, rfl⟩ := mem_nodeIds.mp hx
      exact ⟨n, mem_nodes_commitNode.mpr (Or.inl hn), rfl⟩
    · by_cases hp : p.payloadId ∈ L.nodeIds
      · obtain ⟨n, hn, he⟩ := mem_nodeIds.mp hp
        exact ⟨n, mem_nodes_commitNode.mpr (Or.inl hn), he⟩
      · exact ⟨nodeRow sha256 p, mem_nodes_commitNode.mpr (Or.inr ⟨rfl, hp⟩), rfl⟩

/-- The rows of the edge table after a sequence of inserts, read as pairs. -/
theorem exists_key_foldl {k : NodeId × NodeId} : ∀ (rows t : List EdgeRow),
    k ∈ (rows.foldl (Keyed.insertOrIgnore EdgeRow.key) t).map EdgeRow.key ↔
      k ∈ t.map EdgeRow.key ∨ k ∈ rows.map EdgeRow.key
  | [], t => by simp
  | r :: rows, t => by
    rw [List.foldl_cons, exists_key_foldl rows, Keyed.mem_keys_insertOrIgnore, List.map_cons,
      List.mem_cons, or_assoc]

theorem edge_iff_mem_keys {a b : NodeId} : L.Edge a b ↔ (b, a) ∈ L.edges.map EdgeRow.key := by
  simp only [Edge, List.mem_map, EdgeRow.key, Prod.mk.injEq, and_comm]

theorem mem_keys_edgeRows {a b : NodeId} :
    (b, a) ∈ (edgeRows p).map EdgeRow.key ↔ b = p.payloadId ∧ p.Names a := by
  simp only [edgeRows, List.map_append, List.map_map, List.mem_append, List.mem_map,
    Function.comp_apply, EdgeRow.key, Prod.mk.injEq, Payload.Names, Payload.parentIds]
  constructor
  · rintro (⟨c, hc, rfl, rfl⟩ | ⟨x, hx, rfl, rfl⟩)
    · exact ⟨rfl, Or.inl ⟨c, hc, rfl⟩⟩
    · exact ⟨rfl, Or.inr hx⟩
  · rintro ⟨rfl, ⟨c, hc, rfl⟩ | hx⟩
    · exact Or.inl ⟨c, hc, rfl, rfl⟩
    · exact Or.inr ⟨a, hx, rfl, rfl⟩

/-- A fresh node adds exactly the edges from what its payload names. -/
theorem edge_commitNode (h : p.payloadId ∉ L.nodeIds) {a b : NodeId} :
    (commitNode sha256 p L).2.Edge a b ↔ L.Edge a b ∨ (b = p.payloadId ∧ p.Names a) := by
  rw [commitNode, if_neg h, edge_iff_mem_keys, edge_iff_mem_keys, exists_key_foldl,
    mem_keys_edgeRows]

theorem edge_of_edge_commitNode {a b : NodeId} (h : (commitNode sha256 p L).2.Edge a b) :
    L.Edge a b ∨ (b = p.payloadId ∧ p.payloadId ∉ L.nodeIds ∧ p.Names a) := by
  by_cases hp : p.payloadId ∈ L.nodeIds
  · rw [commitNode_of_mem hp] at h
    exact Or.inl h
  · rcases (edge_commitNode hp).mp h with h | ⟨hb, ha⟩
    · exact Or.inl h
    · exact Or.inr ⟨hb, hp, ha⟩

theorem Edge.commitNode {a b : NodeId} (h : L.Edge a b) : (commitNode sha256 p L).2.Edge a b := by
  by_cases hp : p.payloadId ∈ L.nodeIds
  · rwa [commitNode_of_mem hp]
  · exact (edge_commitNode hp).mpr (Or.inl h)

/-- `commit_node` keeps the tables well formed. -/
theorem nodup_nodeIds_commitNode (h : L.nodeIds.Nodup) : (commitNode sha256 p L).2.nodeIds.Nodup := by
  by_cases hp : p.payloadId ∈ L.nodeIds
  · rwa [commitNode_of_mem hp]
  · rw [commitNode, if_neg hp]
    exact Keyed.nodup_insertOrIgnore h

theorem Wf.commitNode (h : L.Wf) : (commitNode sha256 p L).2.Wf := by
  by_cases hp : p.payloadId ∈ L.nodeIds
  · rwa [commitNode_of_mem hp]
  · refine ⟨nodup_nodeIds_commitNode h.nodup, ?_, ?_⟩
    · rw [commitNode_ledger]
      exact h.ledger_nodup
    · intro a b
      rw [edge_commitNode hp, h.edge_iff]
      constructor
      · rintro (⟨n, hn, hb, ha⟩ | ⟨rfl, ha⟩)
        · exact ⟨n, mem_nodes_commitNode.mpr (Or.inl hn), hb, ha⟩
        · exact ⟨nodeRow sha256 p, mem_nodes_commitNode.mpr (Or.inr ⟨rfl, hp⟩), rfl, ha⟩
      · rintro ⟨n, hn, hb, ha⟩
        rcases mem_nodes_commitNode.mp hn with hn | ⟨rfl, -⟩
        · exact Or.inl ⟨n, hn, hb, ha⟩
        · exact Or.inr ⟨hb.symm, ha⟩

end Commit

/-! ## 3. The ledger -/

/-- `INSERT OR IGNORE INTO quarantine_ledger` for every id. -/
def quarantine (ids : List NodeId) (L : Lineage) : Lineage :=
  { L with ledger := ids.foldl (Keyed.insertOrIgnore id) L.ledger }

@[simp] theorem quarantine_nodes (ids : List NodeId) : (quarantine ids L).nodes = L.nodes := rfl

@[simp] theorem quarantine_edges (ids : List NodeId) : (quarantine ids L).edges = L.edges := rfl

@[simp] theorem quarantine_nodeIds (ids : List NodeId) : (quarantine ids L).nodeIds = L.nodeIds := rfl

@[simp] theorem quarantine_edge (ids : List NodeId) : (quarantine ids L).Edge = L.Edge := rfl

theorem mem_foldl_insertOrIgnore {x : NodeId} : ∀ ids t : List NodeId,
    x ∈ ids.foldl (Keyed.insertOrIgnore id) t ↔ x ∈ t ∨ x ∈ ids
  | [], t => by simp
  | y :: ids, t => by
    have hy : x ∈ Keyed.insertOrIgnore id t y ↔ x ∈ t ∨ x = y := by
      have hkeys : x ∈ (Keyed.insertOrIgnore id t y).map id ↔ x ∈ t.map id ∨ x = id y :=
        Keyed.mem_keys_insertOrIgnore
      simpa using hkeys
    rw [List.foldl_cons, mem_foldl_insertOrIgnore ids, hy, List.mem_cons, or_assoc]

@[simp] theorem mem_ledger_quarantine {ids : List NodeId} {x : NodeId} :
    x ∈ (quarantine ids L).ledger ↔ x ∈ L.ledger ∨ x ∈ ids :=
  mem_foldl_insertOrIgnore ids L.ledger

theorem nodup_foldl_insertOrIgnore : ∀ ids t : List NodeId, t.Nodup →
    (ids.foldl (Keyed.insertOrIgnore id) t).Nodup
  | [], _, h => h
  | y :: ids, t, h => by
    refine nodup_foldl_insertOrIgnore ids _ ?_
    have hkeys : ((Keyed.insertOrIgnore id t y).map id).Nodup :=
      Keyed.nodup_insertOrIgnore (by simpa using h)
    simpa using hkeys

theorem Wf.quarantine (h : L.Wf) (ids : List NodeId) : (quarantine ids L).Wf :=
  ⟨h.nodup, nodup_foldl_insertOrIgnore ids L.ledger h.ledger_nodup, h.edge_iff⟩

/-! ## 4. The traversal -/

/-- The children of a node, one for each row: `adjacency.get(node_id, [])`. -/
def children (L : Lineage) (x : NodeId) : List NodeId :=
  (L.edges.filter fun e => e.parentId = x).map EdgeRow.childId

/-- `SELECT DISTINCT child_id FROM edges WHERE parent_id IN (...)`. -/
def childrenOfAny (L : Lineage) (xs : List NodeId) : List NodeId :=
  ((L.edges.filter fun e => e.parentId ∈ xs).map EdgeRow.childId).dedup

/-- The `visited` set of `compute_blast_radius`: one scan of the edge table when it is small, a
query for each level with an early exit when it is not. -/
def traverse (D : Int) (root : NodeId) (L : Lineage) : List NodeId :=
  if L.edges.length ≤ 10000 then Reach.boundedSearch L.children D root
  else
    Reach.countedSearch L.childrenOfAny
      (L.nodes.length + if root ∈ L.nodeIds then 0 else 1) D root

/-- `if edge_count <= 10_000`: the branch that scans the edge table once. -/
def sparseTraverse (D : Int) (root : NodeId) (L : Lineage) : List NodeId :=
  Reach.boundedSearch L.children D root

/-- The other branch: a query for each level, with the early exit. -/
def denseTraverse (D : Int) (root : NodeId) (L : Lineage) : List NodeId :=
  Reach.countedSearch L.childrenOfAny (L.nodes.length + if root ∈ L.nodeIds then 0 else 1) D root

theorem traverse_eq (D : Int) (root : NodeId) (L : Lineage) :
    traverse D root L =
      if L.edges.length ≤ 10000 then sparseTraverse D root L else denseTraverse D root L := rfl

theorem adj_children {x y : NodeId} : Reach.Adj L.children x y ↔ L.Edge x y := by
  simp [Reach.Adj, children, Edge, and_assoc]

theorem adj_children_eq : Reach.Adj L.children = L.Edge := by
  funext x y
  exact propext adj_children

theorem mem_childrenOfAny {xs : List NodeId} {y : NodeId} :
    y ∈ L.childrenOfAny xs ↔ ∃ x ∈ xs, Reach.Adj L.children x y := by
  simp only [childrenOfAny, adj_children, Edge, List.mem_dedup, List.mem_map, List.mem_filter,
    decide_eq_true_eq]
  constructor
  · rintro ⟨e, ⟨he, hx⟩, rfl⟩
    exact ⟨e.parentId, hx, e, he, rfl, rfl⟩
  · rintro ⟨x, hx, e, he, rfl, rfl⟩
    exact ⟨e, ⟨he, hx⟩, rfl⟩

/-- A small edge table determines the traversal. -/
theorem traverse_congr {M : Lineage} (h : L.edges = M.edges) (hsmall : M.edges.length ≤ 10000)
    (D : Int) (root : NodeId) : traverse D root L = traverse D root M := by
  have hchildren : L.children = M.children := by
    funext x
    rw [children, children, h]
  rw [traverse, traverse, if_pos (by rwa [h]), if_pos hsmall, hchildren]

/-- The child of an edge is a stored node. -/
theorem Wf.mem_of_edge (h : L.Wf) {a b : NodeId} (hab : L.Edge a b) : b ∈ L.nodeIds := by
  obtain ⟨n, hn, hb, -⟩ := (h.edge_iff a b).mp hab
  exact mem_nodeIds.mpr ⟨n, hn, hb⟩

theorem Wf.mem_of_reachable (h : L.Wf) {a b : NodeId} (hab : Relation.ReflTransGen L.Edge a b) :
    b = a ∨ b ∈ L.nodeIds := by
  cases hab with
  | refl => exact Or.inl rfl
  | tail _ hb => exact Or.inr (h.mem_of_edge hb)

theorem mem_sparseTraverse {D : Int} {root y : NodeId} :
    y ∈ sparseTraverse D root L ↔ Reach.Within L.Edge D.toNat root y := by
  rw [sparseTraverse, Reach.mem_boundedSearch, adj_children_eq]

/-- What the early exit of the other strategy relies on: node ids are keys, and the child of an edge
is a stored node. -/
structure NoOrphans (L : Lineage) : Prop where
  nodup : L.nodeIds.Nodup
  child : ∀ a b, L.Edge a b → b ∈ L.nodeIds

theorem Wf.noOrphans (h : L.Wf) : L.NoOrphans := ⟨h.nodup, fun _ _ => h.mem_of_edge⟩

/-- The count the early exit compares with is that of the stored ids together with the root. -/
theorem length_nodes_eq_card (h : L.nodeIds.Nodup) (root : NodeId) :
    L.nodes.length + (if root ∈ L.nodeIds then 0 else 1) =
      (insert root L.nodeIds.toFinset).card := by
  have hlen : L.nodes.length = L.nodeIds.toFinset.card := by
    rw [List.toFinset_card_of_nodup h, nodeIds, List.length_map]
  by_cases hr : root ∈ L.nodeIds
  · rw [if_pos hr, Finset.insert_eq_of_mem (List.mem_toFinset.mpr hr), hlen, Nat.add_zero]
  · rw [if_neg hr, Finset.card_insert_of_notMem (fun hm => hr (List.mem_toFinset.mp hm)), hlen]

theorem NoOrphans.mem_denseTraverse (h : L.NoOrphans) {D : Int} {root y : NodeId} :
    y ∈ denseTraverse D root L ↔ Reach.Within L.Edge D.toNat root y := by
  rw [denseTraverse, length_nodes_eq_card h.nodup, ← adj_children_eq]
  refine Reach.mem_countedSearch (fun _ _ => mem_childrenOfAny) ?_
  intro z hz
  rw [adj_children_eq] at hz
  rw [Finset.mem_insert, List.mem_toFinset]
  cases hz with
  | refl => exact Or.inl rfl
  | tail _ hlast => exact Or.inr (h.child _ _ hlast)

theorem mem_denseTraverse (h : L.Wf) {D : Int} {root y : NodeId} :
    y ∈ denseTraverse D root L ↔ Reach.Within L.Edge D.toNat root y :=
  h.noOrphans.mem_denseTraverse

/-- **The traversal computes the ball**, with either strategy. -/
theorem NoOrphans.mem_traverse (h : L.NoOrphans) {D : Int} {root y : NodeId} :
    y ∈ traverse D root L ↔ Reach.Within L.Edge D.toNat root y := by
  rw [traverse_eq]
  split
  · exact mem_sparseTraverse
  · exact h.mem_denseTraverse

theorem mem_traverse (h : L.Wf) {D : Int} {root y : NodeId} :
    y ∈ traverse D root L ↔ Reach.Within L.Edge D.toNat root y :=
  h.noOrphans.mem_traverse

/-- The traversal visits its root, in any tables. -/
theorem root_mem_traverse (D : Int) (root : NodeId) (L : Lineage) : root ∈ traverse D root L := by
  rw [traverse_eq]
  split
  · rw [mem_sparseTraverse]
    exact Reach.Within.refl _ _ _
  · exact Reach.mem_countedLevels_of_mem _ _ _ (List.mem_singleton_self root)

/-! ## 5. Containment -/

/-- Containment of the stored payloads is closedness of the edge table. -/
theorem Wf.contained_iff (h : L.Wf) :
    L.Contained ↔ Reach.Closed L.Edge (fun x => x ∈ L.ledger) := by
  constructor
  · intro hc x y hxy hx
    obtain ⟨n, hn, rfl, hnames⟩ := (h.edge_iff x y).mp hxy
    exact hc n hn x hx hnames
  · intro hc n hn x hx hnames
    exact hc x n.nodeId ((h.edge_iff x n.nodeId).mpr ⟨n, hn, rfl, hnames⟩) hx

/-- **Committing keeps containment** when the id is stored already, is quarantined, or the payload
names nothing quarantined. -/
theorem contained_commitNode {sha256 : String → String} {p : Payload} (hc : L.Contained)
    (hp : p.payloadId ∈ L.nodeIds ∨ p.payloadId ∈ L.ledger ∨ ∀ x, p.Names x → x ∉ L.ledger) :
    (commitNode sha256 p L).2.Contained := by
  intro n hn x hx hnames
  rw [commitNode_ledger] at hx ⊢
  rcases mem_nodes_commitNode.mp hn with hn | ⟨rfl, hfresh⟩
  · exact hc n hn x hx hnames
  · rcases hp with hp | hp | hp
    · exact absurd hp hfresh
    · exact hp
    · exact absurd hx (hp x hnames)

/-- Nothing that can be reached from a quarantined node is outside the ledger. -/
theorem Contained.reachable (hwf : L.Wf) (hc : L.Contained) {x y : NodeId} (hx : x ∈ L.ledger)
    (hxy : Relation.ReflTransGen L.Edge x y) : y ∈ L.ledger :=
  (hwf.contained_iff.mp hc).reachable hx hxy

/-- The depth bound cuts nothing off below `root`: what can be reached from it is within the bound
or in the ledger already. -/
def DepthCovers (D : Int) (root : NodeId) (L : Lineage) : Prop :=
  ∀ y, Relation.ReflTransGen L.Edge root y → y ∈ L.ledger ∨ Reach.Within L.Edge D.toNat root y

/-- The depth bound cuts nothing off anywhere: what descends from a node does so in at most `D`
steps. -/
def Shallow (D : Int) (L : Lineage) : Prop :=
  ∀ x y, Relation.ReflTransGen L.Edge x y → Reach.Within L.Edge D.toNat x y

theorem Shallow.depthCovers {D : Int} (h : Shallow D L) (root : NodeId) : DepthCovers D root L :=
  fun y hy => Or.inr (h root y hy)

/-- No edge starts where another one ends. -/
def flat (L : Lineage) : Bool :=
  L.edges.all fun e => L.edges.all fun e' => e.childId ≠ e'.parentId

theorem shallow_of_flat {D : Int} (hD : 1 ≤ D.toNat) (h : L.flat = true) :
    L.Shallow D := by
  intro x y hpath
  rcases Relation.ReflTransGen.cases_tail hpath with heq | ⟨z, hxz, hzy⟩
  · rw [heq]
    exact Reach.Within.refl _ _ _
  · rcases Relation.ReflTransGen.cases_tail hxz with heq | ⟨u, -, huz⟩
    · rw [heq] at hzy
      exact ((Reach.Within.refl _ 0 x).tail hzy).mono hD
    · obtain ⟨e, he, -, rfl⟩ := huz
      obtain ⟨e', he', hparent, -⟩ := hzy
      have hne := List.all_eq_true.mp (List.all_eq_true.mp h e he) e' he'
      exact absurd hparent.symm (of_decide_eq_true hne)

/-- Quarantining what the traversal finds keeps containment exactly when the depth bound cuts
nothing off. -/
theorem contained_quarantine_traverse_iff (hwf : L.Wf) (hc : L.Contained) {D : Int}
    {root : NodeId} {ids : List NodeId} (hids : ∀ y, y ∈ ids ↔ y ∈ traverse D root L) :
    (quarantine ids L).Contained ↔ DepthCovers D root L := by
  have hset : (fun x => x ∈ (quarantine ids L).ledger) =
      ((fun x => x ∈ L.ledger) ∪ Reach.ball L.Edge D.toNat root : Set NodeId) := by
    funext x
    apply propext
    rw [mem_ledger_quarantine, hids, mem_traverse hwf]
    exact Iff.rfl
  rw [(hwf.quarantine ids).contained_iff, quarantine_edge, hset,
    Reach.closed_union_ball_iff (hwf.contained_iff.mp hc)]
  exact Iff.rfl

end Lineage

end GovernorGateway
