/-
# The stored lineage over whole runs

The tables `nodes` and `edges` in every state that requests can reach: the edge table is the index
of the payloads, and what is stored under an id stays as it is, WHATEVER later requests re-use the
id (`edgeTable_of_run`).
-/
import GovernorGateway.Semantics.Stable
import GovernorGateway.Sqlite.Index
import GovernorGateway.Properties.Containment

namespace GovernorGateway

open Effects

variable {g : Setup} {answers : Answers}

/-! ## 1. The edge table and write-once nodes -/

/-- A run keeps the index. -/
theorem Run.indexed {w w' : World} {hs : List Handled} (hrun : Run g (Step g answers) w hs w')
    (hsaved : w.saved = none) (hw : w.lin.Indexed) : w'.lin.Indexed :=
  hrun.stable (K := fun db => db.toLineage.Indexed)
    (Store.exec_lineage (fun _ _ h => h.commitNode) fun _ _ h => ⟨h.1, h.2, h.3⟩) hsaved hw

/-- A run keeps what is stored. -/
theorem Run.extends {w w' : World} {hs : List Handled} (hrun : Run g (Step g answers) w hs w')
    (hsaved : w.saved = none) : w.lin.Extends w'.lin :=
  hrun.stable (K := fun db => w.lin.Extends db.toLineage)
    (Store.exec_lineage (fun _ _ h => h.commitNode) fun _ _ h => ⟨h.1, h.2⟩) hsaved
    (Lineage.Extends.refl _)

/-- **The edge table and write-once nodes.**  In every world a run from `reset` passes through, the
edge table has a row for a pair exactly when the stored payload of the child names the parent, and
the row has the class that payload gives the edge; and however the run goes on, the row stored under
an id and the edge rows into it are the same. -/
theorem edgeTable_of_run {db : Db} {adapterKey : Option String} {hs hs' : List Handled}
    {w w' : World} (hrun : Run g (Step g answers) (World.initial g db adapterKey) hs w)
    (hrest : Run g (Step g answers) w hs' w') :
    (∀ x c, w.lin.Edge x c ↔ ∃ n ∈ w.lin.nodes, n.nodeId = c ∧ n.payload.Names x) ∧
    w.lin.Indexed ∧ ∀ n ∈ w.lin.nodes,
      (∀ m, m ∈ w'.lin.nodes ∧ m.nodeId = n.nodeId ↔ m = n) ∧
      ∀ e : EdgeRow, e.childId = n.nodeId → (e ∈ w'.lin.edges ↔ e ∈ w.lin.edges) := by
  have hindexed : w.lin.Indexed := hrun.indexed rfl (Lineage.indexed_reset g.env.sha256 db)
  have hsaved : w.saved = none := hrun.saved rfl
  have hextends := hrest.extends hsaved
  have hnodup := (hrest.indexed hsaved hindexed).nodup
  refine ⟨fun _ _ => hindexed.edge_iff, hindexed, fun n hn => ⟨fun m => ⟨?_, ?_⟩, fun e he => ?_⟩⟩
  · rintro ⟨hm, hid⟩
    exact hextends.unique hnodup hn hm hid
  · rintro rfl
    exact ⟨hextends.nodes m hn, rfl⟩
  · exact hextends.edges e (Lineage.mem_nodeIds.mpr ⟨n, hn, he.symm⟩)

/-- The root of the initial state is summarised and its id then used for a payload with a tainted
parent: the row stored under it has not changed. -/
theorem edgeTable_after_reuse : ∃ hs w,
    Run (sampleSetup fun _ => zeros64) (Step (sampleSetup fun _ => zeros64) Answers.lawful)
      (World.initial (sampleSetup fun _ => zeros64) {} none) hs w ∧
    "clean-parent-1" ∈ w.lin.ledger ∧
    ∀ m, m ∈ w.lin.nodes ∧ m.nodeId = "clean-parent-1" ↔
      m = Lineage.nodeRow (fun _ => zeros64) { payloadId := "clean-parent-1" } := by
  have hsha : ∀ s, hex64 ((fun _ => zeros64 : String → String) s) = true := fun _ => hex64_zeros64
  obtain ⟨hs, w, hrun, hlin, -⟩ := exists_reuse_run hsha
  refine ⟨hs, w, hrun, by rw [hlin, summarised_eq]; simp, ?_⟩
  exact ((edgeTable_of_run (.nil _) hrun).2.2 _ (List.mem_singleton.mpr rfl)).1

end GovernorGateway
