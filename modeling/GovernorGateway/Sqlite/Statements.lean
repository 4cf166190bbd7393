/-
# The SQLite backend, statement by statement

Outside `transaction()` every function of `SqliteStateBackend` works on ONE connection, shared by
all handlers, and ends with its own `commit()`.  Here each of them is the list of its statements
that write, in their order; a function that only reads has none, and so have the statements on the
temporary table of `compute_blast_radius`.

`run_statements`: all statements of a function together do what the other modules say it does.  What
is left when one of them raises is a prefix of the list; nothing rolls the shared connection back.
-/
import GovernorGateway.Backend
import GovernorGateway.Effects.Connection

namespace GovernorGateway

open Effects

/-- What can be called on the shared connection. -/
inductive Shared where
  | store (c : Store)
  | reset
  | initDb

namespace Db

/-! ## 1. Statements -/

/-- `INSERT OR IGNORE INTO nodes`. -/
def insertNode (sha256 : String → String) (p : Payload) (db : Db) : Db :=
  { db with nodes := Keyed.insertOrIgnore NodeRow.nodeId db.nodes (Lineage.nodeRow sha256 p) }

/-- `INSERT OR IGNORE INTO edges`. -/
def insertEdge (e : EdgeRow) (db : Db) : Db :=
  { db with edges := Keyed.insertOrIgnore EdgeRow.key db.edges e }

/-- `INSERT OR IGNORE INTO quarantine_ledger`. -/
def insertLedger (x : NodeId) (db : Db) : Db :=
  { db with ledger := Keyed.insertOrIgnore id db.ledger x }

/-- `INSERT OR IGNORE INTO withdrawal_ledger`. -/
def insertWithdrawal (r : Withdrawal) (db : Db) : Db :=
  { db with withdrawalLedger := Keyed.insertOrIgnore Withdrawal.nodeId db.withdrawalLedger r }

/-- `UPDATE tainted_rejections SET completed = 1` for one pending offer. -/
def completeRetry (p : Payload) (done : TaintedRejection) (db : Db) : Db :=
  { db with taintedRejections := db.taintedRejections.map fun r =>
      if r.nodeId = done.nodeId ∧ !r.completed then
        { r with completed := true, completedBy := some p.payloadId }
      else r }

/-- `INSERT OR REPLACE INTO quarantine_events`; the event gets the depth the backend was built
with. -/
def insertQuarantineEvent (D : Int) (event : QuarantineEvent) (db : Db) : Db :=
  { db with
    quarantineEvents :=
      Keyed.insertOrReplace QuarantineEvent.quarantineEventId db.quarantineEvents
        { event with maxTraversalDepth := some D } }

/-- `INSERT OR REPLACE INTO recurrence_events`. -/
def insertRecurrence (event : RecurrenceEvent) (db : Db) : Db :=
  { db with recurrenceEvents := Keyed.insertOrReplace RecurrenceEvent.eventId db.recurrenceEvents event }

/-- A function with one statement. -/
def once (f : Db → Db) : List (Statement Db) := [.write f, .commit]

/-- `commit_node`; when the id is taken it returns before the edges, and WITHOUT A COMMIT. -/
def commitStatements (sha256 : String → String) (p : Payload) (db : Db) : List (Statement Db) :=
  .write (insertNode sha256 p) ::
    if p.payloadId ∈ db.nodeIds then []
    else (Lineage.edgeRows p).map (fun e => .write (insertEdge e)) ++ [.commit]

/-- The loop over the affected compactions; `_set_repair_candidate` commits each record. -/
def repairStatements (visited : List NodeId) (rollback : Bool) : List NodeId → Db → List (Statement Db)
  | [], _ => []
  | x :: xs, db =>
    match db.classify visited rollback x with
    | none => repairStatements visited rollback xs db
    | some rc =>
      once (setRepairCandidate x rc) ++
        repairStatements visited rollback xs (db.setRepairCandidate x rc)

/-- The thirteen `DELETE`s of `reset`, the nodes first. -/
def deletes : List (Db → Db) :=
  [fun db => { db with nodes := [] }, fun db => { db with edges := [] },
    fun db => { db with ledger := [] }, fun db => { db with quarantineEvents := [] },
    fun db => { db with repairCandidates := [] }, fun db => { db with checkpoints := [] },
    fun db => { db with externalEffects := [] }, fun db => { db with reintegrationHorizon := [] },
    fun db => { db with recurrenceEvents := [] }, fun db => { db with withdrawalLedger := [] },
    fun db => { db with calibrationRuns := [] }, fun db => { db with signalAttempts := [] },
    fun db => { db with continuityExposures := [] }]

/-- `reset`: the deletes, `commit_node` of the initial root and the first entry of the ledger. -/
def resetStatements (sha256 : String → String) : List (Statement Db) :=
  deletes.map .write ++ [.commit] ++ commitStatements sha256 { payloadId := "clean-parent-1" } {} ++
    once (insertLedger "quarantined-node-A")

end Db

/-- The statements of a function, from the view it finds. -/
def Store.statements (g : Setup) : Store → Db → List (Statement Db)
  | .commitNode _ p, db => db.commitStatements g.env.sha256 p
  | .computeBlastRadius root, db =>
    let visited := db.toLineage.traverse g.settings.maxTraversalDepth root
    Db.repairStatements visited (db.hasExternalEffects (sortedSet visited))
      (db.affectedCompactions (sortedSet visited)) db
  | .applyQuarantineTransaction event ids, _ =>
    .write (Db.insertQuarantineEvent g.settings.maxTraversalDepth event) ::
      ids.map (fun x => .write (Db.insertLedger x)) ++ [.commit]
  | .applyWithdrawalTransaction event ids now, _ =>
    .write (Db.insertRecurrence event) ::
      (Db.withdrawals event now ids).map (fun r => .write (Db.insertWithdrawal r)) ++ [.commit]
  | .checkRetryCompletion p, db =>
    let completed := (db.taintedRejections.filter fun r => r.offered && !r.completed).filter
      (Db.retryCompletes p)
    completed.map (fun r => .write (Db.completeRetry p r)) ++ if completed = [] then [] else [.commit]
  -- a taken `decision_id` makes the only statement raise
  | .recordShadowDecision d, db =>
    if d.decisionId ∈ db.shadowDecisions.map ShadowDecision.decisionId then []
    else Db.once fun db => { db with shadowDecisions := db.shadowDecisions ++ [d] }
  | .updateRepairCandidate x rc, _ => Db.once (Db.setRepairCandidate x rc)
  | .recordTaintedRejection x parent rejectedAt author, _ =>
    Db.once fun db => db.recordTaintedRejection x parent rejectedAt author
  | .recordTaintedOffer x replacement type, _ => Db.once fun db => db.recordTaintedOffer x replacement type
  | .recordReintegration x predecessor horizon now, _ =>
    Db.once fun db => db.recordReintegration x predecessor horizon now
  | .recordReintegrationEvidence e, _ => Db.once fun db => db.recordReintegrationEvidence e
  | .recordContinuityExposure e, _ => Db.once fun db => db.recordContinuityExposure e
  | .recordSignalAttempt source x kind outcome now, _ =>
    Db.once fun db => db.recordSignalAttempt source x kind outcome now
  | .recordDetectorEvent e, _ => Db.once fun db => db.recordDetectorEvent e
  | .addCheckpoint c, _ => Db.once fun db => db.addCheckpoint c
  | .addSubstituteDeclaration d, _ => Db.once fun db => db.addSubstituteDeclaration d
  | .addExternalEffect key x type now, _ => Db.once fun db => db.addExternalEffect key x type now
  | .renewTrust x horizon now, _ => Db.once fun db => db.renewTrust x horizon now
  | .recordCalibrationRun r, _ => Db.once fun db => db.recordCalibrationRun r
  | .getDag, _ | .getQuarantineLedger, _ | .getRepairCandidates, _ | .getCheckpoints, _
  | .getSubstituteDeclarations, _ | .nodesExist _, _ | .areQuarantined _, _
  | .getNodeContentHashes _, _ | .computeCoversIntervalGap _, _ | .computeQuarantineDigest _, _
  | .computeStateDigest, _ | .getCriticalDependents _, _ | .findContinuityReplacement _, _
  | .getActiveHorizonSet _, _ | .countRecentSignals _ _, _ | .countRecentSignalsGlobal _, _
  | .assignRepairCandidate _ _, _ => []

def Shared.statements (g : Setup) : Shared → Db → List (Statement Db)
  | .store c, db => c.statements g db
  | .reset, _ => Db.resetStatements g.env.sha256
  -- `CREATE TABLE IF NOT EXISTS` and `CREATE INDEX IF NOT EXISTS` change no row
  | .initDb, _ => [.commit]

/-- What a call does when nothing raises. -/
def Shared.exec (g : Setup) : Shared → Db → Db
  | .store c, db => (c.exec g db).2
  | .reset, db => db.reset g.env.sha256
  | .initDb, db => db

/-! ## 2. All statements of a function -/

namespace Db

variable {sha256 : String → String} {p : Payload} {c : Connection Db}

theorem run_once (f : Db → Db) (c : Connection Db) : (c.run (once f)).view = f c.view := rfl

theorem foldl_insertEdge : ∀ (rows : List EdgeRow) (db : Db),
    (rows.map insertEdge).foldl (fun d f => f d) db =
      { db with edges := rows.foldl (Keyed.insertOrIgnore EdgeRow.key) db.edges }
  | [], _ => rfl
  | e :: rows, db => foldl_insertEdge rows (insertEdge e db)

theorem foldl_insertLedger : ∀ (ids : List NodeId) (db : Db),
    (ids.map insertLedger).foldl (fun d f => f d) db =
      { db with ledger := ids.foldl (Keyed.insertOrIgnore id) db.ledger }
  | [], _ => rfl
  | x :: ids, db => foldl_insertLedger ids (insertLedger x db)

theorem foldl_insertWithdrawal : ∀ (rows : List Withdrawal) (db : Db),
    (rows.map insertWithdrawal).foldl (fun d f => f d) db =
      { db with
        withdrawalLedger := rows.foldl (Keyed.insertOrIgnore Withdrawal.nodeId) db.withdrawalLedger }
  | [], _ => rfl
  | r :: rows, db => foldl_insertWithdrawal rows (insertWithdrawal r db)

theorem foldl_completeRetry (p : Payload) : ∀ (rows : List TaintedRejection) (db : Db),
    (rows.map (completeRetry p)).foldl (fun d f => f d) db =
      { db with
        taintedRejections := rows.foldl
          (fun rows done => rows.map fun r =>
            if r.nodeId = done.nodeId ∧ !r.completed then
              { r with completed := true, completedBy := some p.payloadId }
            else r) db.taintedRejections }
  | [], _ => rfl
  | r :: rows, db => foldl_completeRetry p rows (completeRetry p r db)

/-- `commit_node`, from the view it finds. -/
theorem run_commitStatements : (c.run (c.view.commitStatements sha256 p)).view =
    (c.view.commitNode sha256 p).2 := by
  rw [commitStatements, commitNode, Lineage.commitNode]
  by_cases hp : p.payloadId ∈ c.view.nodeIds
  · rw [if_pos hp, if_pos hp]
    change insertNode sha256 p c.view = _
    rw [insertNode, Keyed.insertOrIgnore_of_mem hp]
  · rw [if_neg hp, if_neg hp]
    rw [Connection.run_batch, foldl_insertEdge]
    rfl

/-- The loop of `compute_blast_radius`. -/
theorem run_repairStatements (visited : List NodeId) (rollback : Bool) : ∀ (xs : List NodeId) (db : Db)
    (c : Connection Db), c.view = db →
    (c.run (repairStatements visited rollback xs db)).view = classifyAll visited rollback xs db
  | [], _, _, h => h
  | x :: xs, db, c, h => by
    rw [repairStatements, classifyAll]
    cases db.classify visited rollback x with
    | none => exact run_repairStatements visited rollback xs db c h
    | some rc =>
      simp only
      rw [Connection.run_append]
      refine run_repairStatements visited rollback xs _ _ ?_
      rw [run_once, h]

theorem run_resetStatements : (c.run (resetStatements sha256)).view = c.view.reset sha256 := rfl

/-- `apply_quarantine_transaction`. -/
theorem run_quarantine (D : Int) (event : QuarantineEvent) (ids : List NodeId) :
    (c.run (.write (insertQuarantineEvent D event) ::
      ids.map (fun x => .write (insertLedger x)) ++ [.commit])).view =
      (c.view.applyQuarantineTransaction D event ids).2 := by
  rw [List.cons_append, Connection.run_batch, foldl_insertLedger]
  rfl

/-- `apply_withdrawal_transaction`. -/
theorem run_withdrawal (event : RecurrenceEvent) (ids : List NodeId) (now : Time) :
    (c.run (.write (insertRecurrence event) ::
      (withdrawals event now ids).map (fun r => .write (insertWithdrawal r)) ++ [.commit])).view =
      c.view.applyWithdrawalTransaction event ids now := by
  rw [List.cons_append, Connection.run_batch, foldl_insertWithdrawal]
  rfl

/-- `check_retry_completion`. -/
theorem run_retry (p : Payload) (rows : List TaintedRejection) :
    (c.run (rows.map (fun r => .write (completeRetry p r)) ++ if rows = [] then [] else [.commit])).view =
      (rows.map (completeRetry p)).foldl (fun d f => f d) c.view := by
  have hrows : rows.map (fun r => Statement.write (completeRetry p r)) =
      (rows.map (completeRetry p)).map Statement.write := by
    rw [List.map_map]
    rfl
  rw [hrows]
  by_cases hnil : rows = []
  · subst hnil
    rfl
  · rw [if_neg hnil, Connection.run_append]
    exact Connection.run_writes _ c

end Db

/-- A function that only reads has no statements and changes nothing. -/
theorem run_reads {g : Setup} {s : Store} {db : Db} {c : Connection Db} (hview : c.view = db)
    (hread : s.statements g db = []) (hexec : (s.exec g db).2 = db) :
    (c.run (s.statements g db)).view = (s.exec g db).2 := by
  rw [hread, hexec]
  exact hview

/-- **All statements of a function do what the function does.** -/
theorem run_statements (g : Setup) (x : Shared) (c : Connection Db) :
    (c.run (x.statements g c.view)).view = x.exec g c.view := by
  cases x with
  | reset => exact Db.run_resetStatements
  | initDb => rfl
  | store s =>
    change (c.run (s.statements g c.view)).view = (s.exec g c.view).2
    cases s with
    | commitNode site p => exact Db.run_commitStatements
    | computeBlastRadius root => exact Db.run_repairStatements _ _ _ _ c rfl
    | applyQuarantineTransaction event ids => exact Db.run_quarantine _ event ids
    | applyWithdrawalTransaction event ids now => exact Db.run_withdrawal event ids now
    | checkRetryCompletion p => exact (Db.run_retry p _).trans (Db.foldl_completeRetry p _ _)
    | recordShadowDecision d =>
      rw [Store.statements]
      change _ = (c.view.recordShadowDecision d).2
      rw [Db.recordShadowDecision]
      by_cases hd : d.decisionId ∈ c.view.shadowDecisions.map ShadowDecision.decisionId
      · rw [if_pos hd, if_pos hd]
        rfl
      · rw [if_neg hd, if_neg hd]
        rfl
    | _ => first | exact run_reads rfl rfl rfl | exact Db.run_once _ c

end GovernorGateway
