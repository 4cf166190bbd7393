/-
# Blast radius and repair candidates

`compute_blast_radius` (`src/sqlite_backend.py`) returns the sorted traversal AND, on the way,
decides what is to become of every compaction that carries something from inside it (R1 and R2):
it writes the table `repair_candidates` and no other (`computeBlastRadius_toLineage` and the lemmas
after it).

The frontier of a pending candidate is computed against the traversal of the ONE root the call was
made for, `covers` minus `visited`; `mem_repair_of_mem` says exactly which rows a call can leave
behind.
-/
import GovernorGateway.Sqlite.Lineage

namespace GovernorGateway

namespace Db

/-- `has_external_effects`. -/
def hasExternalEffects (db : Db) (ids : List NodeId) : Bool :=
  db.externalEffects.any fun e => e.nodeId ∈ ids

/-- `_set_repair_candidate`, also `update_repair_candidate`. -/
def setRepairCandidate (x : NodeId) (rc : RepairCandidate) (db : Db) : Db :=
  { db with repairCandidates := Keyed.insertOrReplace Prod.fst db.repairCandidates (x, rc) }

/-- The compactions with a `CARRIED` edge from inside the blast radius. -/
def affectedCompactions (db : Db) (ids : List NodeId) : List NodeId :=
  ((db.edges.filter fun e => e.parentId ∈ ids ∧ e.edgeClass = .carried).map EdgeRow.childId).dedup

/-- `disposition in ("REDUCIBLE", "IRREDUCIBLE")`. -/
def terminal (db : Db) (x : NodeId) : Bool :=
  match Keyed.lookup Prod.fst db.repairCandidates x with
  | some row => row.2.disposition ≠ .pendingReconstruction
  | none => false

/-- One affected compaction: the record to store, or `none` when the loop goes on without
storing one. -/
def classify (db : Db) (visited : List NodeId) (rollback : Bool) (x : NodeId) :
    Option RepairCandidate :=
  if db.terminal x then none
  else if rollback then
    some { disposition := .irreducible, reason := some "semantic_rollback_hazard",
           escalationRecord :=
             some "Quarantined subgraph contains irreversible external effects" }
  else
    match db.payload? x with
    | none => none
    | some p =>
      -- R1: the admissible frontier
      let frontier := p.covers.filter (· ∉ visited)
      if frontier = [] then
        some { disposition := .irreducible, reason := some "empty_frontier",
               escalationRecord := some "Requires human review" }
      else if p.methodId = some "llm-v1" then
        -- R2: the first checkpoint of a frontier node
        match db.checkpoints.find? fun cp => cp.targetNodeId ∈ frontier with
        | none =>
          some { disposition := .irreducible, reason := some "no_admissible_checkpoint",
                 escalationRecord := some "Requires human review" }
        | some cp =>
          some { disposition := .pendingReconstruction, frontier := frontier,
                 method := some "verified_checkpoint_reconstruction", checkpoint := some cp }
      else
        some { disposition := .irreducible, reason := some "no_reconstruction_backend",
               escalationRecord := some "Unknown summarizer method" }

/-- The loop over the affected compactions. -/
def classifyAll (visited : List NodeId) (rollback : Bool) : List NodeId → Db → Db
  | [], db => db
  | x :: xs, db =>
    match db.classify visited rollback x with
    | none => classifyAll visited rollback xs db
    | some rc => classifyAll visited rollback xs (db.setRepairCandidate x rc)

/-- `compute_blast_radius`.  Its temporary tables, and the transaction their rows open on a shared
connection, are left out. -/
def computeBlastRadius (D : Int) (root : NodeId) (db : Db) : List NodeId × Db :=
  let visited := db.toLineage.traverse D root
  let ids := sortedSet visited
  (ids, classifyAll visited (db.hasExternalEffects ids) (db.affectedCompactions ids) db)

/-! ## Only the repair candidates change -/

/-- Everything but `repair_candidates`. -/
def withRepair (db : Db) (rcs : List (NodeId × RepairCandidate)) : Db :=
  { db with repairCandidates := rcs }

theorem classifyAll_eq (visited : List NodeId) (rollback : Bool) : ∀ (xs : List NodeId) (db : Db),
    ∃ rcs, classifyAll visited rollback xs db = db.withRepair rcs
  | [], db => ⟨db.repairCandidates, rfl⟩
  | x :: xs, db => by
    rw [classifyAll]
    cases db.classify visited rollback x with
    | none => exact classifyAll_eq visited rollback xs db
    | some rc =>
      obtain ⟨rcs, h⟩ := classifyAll_eq visited rollback xs (db.setRepairCandidate x rc)
      exact ⟨rcs, h⟩

theorem computeBlastRadius_snd (D : Int) (root : NodeId) (db : Db) :
    ∃ rcs, (computeBlastRadius D root db).2 = db.withRepair rcs :=
  classifyAll_eq _ _ _ _

@[simp] theorem computeBlastRadius_toLineage (D : Int) (root : NodeId) (db : Db) :
    (computeBlastRadius D root db).2.toLineage = db.toLineage := by
  obtain ⟨rcs, h⟩ := computeBlastRadius_snd D root db
  rw [h]
  rfl

/-- What a call answers is the ball, sorted. -/
theorem mem_computeBlastRadius {D : Int} {root y : NodeId} {db : Db} (h : db.toLineage.Wf) :
    y ∈ (computeBlastRadius D root db).1 ↔ Reach.Within db.toLineage.Edge D.toNat root y := by
  rw [computeBlastRadius, mem_sortedSet, Lineage.mem_traverse h]

/-! ## Which rows a call leaves behind -/

/-- A pending record has been made for a stored compaction: its frontier is what the compaction
covers outside the traversal, and its checkpoint is that of a frontier node. -/
theorem classify_pending {db : Db} {visited : List NodeId} {rollback : Bool} {x : NodeId}
    {rc : RepairCandidate} (h : db.classify visited rollback x = some rc)
    (hp : rc.disposition = .pendingReconstruction) :
    ∃ p, db.payload? x = some p ∧ rc.frontier = p.covers.filter (· ∉ visited) ∧
      rc.frontier ≠ [] ∧ rc.method.isSome ∧
        ∃ cp ∈ db.checkpoints, rc.checkpoint = some cp ∧ cp.targetNodeId ∈ rc.frontier := by
  unfold classify at h
  split at h
  · exact absurd h (by simp)
  · split at h
    · obtain rfl := Option.some.inj h
      exact absurd hp (by simp)
    · split at h
      · exact absurd h (by simp)
      · rename_i p hpay
        simp only at h
        split at h
        · obtain rfl := Option.some.inj h
          exact absurd hp (by simp)
        · rename_i hne
          split at h
          · split at h
            · obtain rfl := Option.some.inj h
              exact absurd hp (by simp)
            · rename_i cp hcp
              obtain rfl := Option.some.inj h
              have ht := List.find?_some hcp
              exact ⟨p, hpay, rfl, hne, rfl, cp, List.mem_of_find?_eq_some hcp, rfl,
                of_decide_eq_true ht⟩
          · obtain rfl := Option.some.inj h
            exact absurd hp (by simp)

/-- A row after the loop is a row from before it, or was stored by a round of it. -/
theorem mem_repair_of_mem {visited : List NodeId} {rollback : Bool} {row : NodeId × RepairCandidate} :
    ∀ (xs : List NodeId) (db : Db), row ∈ (classifyAll visited rollback xs db).repairCandidates →
      row ∈ db.repairCandidates ∨ ∃ rcs, (db.withRepair rcs).classify visited rollback row.1 = some row.2
  | [], _, h => Or.inl h
  | x :: xs, db, h => by
    rw [classifyAll] at h
    cases hc : db.classify visited rollback x with
    | none =>
      rw [hc] at h
      exact mem_repair_of_mem xs db h
    | some rc =>
      rw [hc] at h
      rcases mem_repair_of_mem xs _ h with hrow | ⟨rcs, hrow⟩
      · rcases Keyed.mem_insertOrReplace.mp hrow with ⟨hrow, -⟩ | rfl
        · exact Or.inl hrow
        · exact Or.inr ⟨db.repairCandidates, hc⟩
      · exact Or.inr ⟨rcs, hrow⟩

/-- A pending row after a call was pending before it, or its frontier is what a stored compaction
covers outside this call's traversal and a checkpoint has been declared for it. -/
theorem pending_computeBlastRadius {D : Int} {root : NodeId} {db : Db}
    {row : NodeId × RepairCandidate} (h : row ∈ (computeBlastRadius D root db).2.repairCandidates)
    (hp : row.2.disposition = .pendingReconstruction) :
    row ∈ db.repairCandidates ∨
      ∃ p, db.payload? row.1 = some p ∧ row.2.frontier ≠ [] ∧
        row.2.frontier = p.covers.filter (· ∉ db.toLineage.traverse D root) ∧
        ∃ cp ∈ db.checkpoints, cp.targetNodeId ∈ row.2.frontier := by
  rcases mem_repair_of_mem _ db h with h | ⟨rcs, h⟩
  · exact Or.inl h
  · obtain ⟨p, hpay, hfr, hne, -, cp, hcp, -, htarget⟩ := classify_pending h hp
    exact Or.inr ⟨p, hpay, hne, hfr, cp, hcp, htarget⟩

end Db

end GovernorGateway
