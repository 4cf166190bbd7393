/-
# What a handler awaits

A request handler of the gateway is a program over the calls of this module.

* `Store`: the functions of the SQLite backend, with `Store.exec` their meaning on a database.
* `Ext`: the outside world.  Its answers are not determined by the state.
* `Sync`: the admission lock and the transaction, split at the points where another task can run.
* the adapter key, the one setting the program assigns.

A call of `commit_node` carries the place in the source it is made from.  The store does not look
at it; it lets a statement about "the nodes committed by `_attempt_reconstruction`" be one about
the calls of a run.
-/
import GovernorGateway.Effects.Prog
import GovernorGateway.Sqlite.Queries
import GovernorGateway.Policy

namespace GovernorGateway

/-! ## 1. The store -/

/-- Who calls `commit_node`. -/
inductive CommitSite where
  /-- `submit_candidate`, in shadow mode. -/
  | shadow
  /-- `submit_candidate`, the decision was to admit. -/
  | admission
  /-- `submit_candidate`, `TAINTED_PARENT`. -/
  | rejection
  /-- `declare_context_compacted`. -/
  | compaction
  /-- `_attempt_reconstruction`. -/
  | reconstruction
  /-- `_attempt_safe_continuity`, M4. -/
  | checkpointReplay
  /-- `_attempt_safe_continuity`, M3. -/
  | substitution
  /-- `seed_root`. -/
  | seedRoot
  deriving DecidableEq

inductive Store where
  | getDag
  | getQuarantineLedger
  | getRepairCandidates
  | getCheckpoints
  | getSubstituteDeclarations
  | nodesExist (ids : List NodeId)
  | areQuarantined (ids : List NodeId)
  | getNodeContentHashes (ids : List NodeId)
  | computeCoversIntervalGap (covers : List NodeId)
  | computeQuarantineDigest (ids : List NodeId)
  | computeStateDigest
  | getCriticalDependents (ids : List NodeId)
  | findContinuityReplacement (x : NodeId)
  | getActiveHorizonSet (now : Time)
  | countRecentSignals (source since : String)
  | countRecentSignalsGlobal (since : String)
  | commitNode (site : CommitSite) (p : Payload)
  | computeBlastRadius (root : NodeId)
  | applyQuarantineTransaction (event : QuarantineEvent) (ids : List NodeId)
  | applyWithdrawalTransaction (event : RecurrenceEvent) (ids : List NodeId) (now : Time)
  | updateRepairCandidate (x : NodeId) (rc : RepairCandidate)
  /-- No function of the store: an assignment to a record that `get_repair_candidates` has handed
  out. -/
  | assignRepairCandidate (x : NodeId) (rc : RepairCandidate)
  | recordTaintedRejection (x parent : NodeId) (rejectedAt author : String)
  | recordTaintedOffer (x replacement : NodeId) (type : ReplacementType)
  | checkRetryCompletion (p : Payload)
  | recordShadowDecision (d : ShadowDecision)
  | recordReintegration (x predecessor : NodeId) (horizonSeconds : ℕ) (now : Time)
  | recordReintegrationEvidence (e : ReintegrationEvidence)
  | recordContinuityExposure (e : ContinuityExposure)
  | recordSignalAttempt (source : String) (x : NodeId) (kind outcome : String) (now : Time)
  | recordDetectorEvent (e : DetectorEventRow)
  | addCheckpoint (c : Checkpoint)
  | addSubstituteDeclaration (d : SubstituteDeclaration)
  | addExternalEffect (key : String) (x : NodeId) (type : String) (now : Time)
  | renewTrust (x : NodeId) (horizonSeconds : ℕ) (now : Time)
  | recordCalibrationRun (r : CalibrationRun)

/-- The type of a store function's answer. -/
@[reducible] def Store.Res : Store → Type
  | .getDag => List (NodeId × Payload)
  | .getQuarantineLedger => List NodeId
  | .getRepairCandidates => List (NodeId × RepairCandidate)
  | .getCheckpoints => List Checkpoint
  | .getSubstituteDeclarations => List SubstituteDeclaration
  | .nodesExist _ => NodeId → Bool
  | .areQuarantined _ => NodeId → Bool
  | .getNodeContentHashes _ => NodeId → Option String
  | .computeCoversIntervalGap _ => List NodeId
  | .computeQuarantineDigest _ => String
  | .computeStateDigest => String
  | .getCriticalDependents _ => List Db.CriticalDependent
  | .findContinuityReplacement _ => Option Db.Replacement
  | .getActiveHorizonSet _ => List NodeId
  | .countRecentSignals _ _ => ℕ
  | .countRecentSignalsGlobal _ => ℕ
  | .commitNode _ _ => Bool
  | .computeBlastRadius _ => List NodeId
  | .applyQuarantineTransaction _ _ => QuarantineEvent
  | _ => Unit

/-- What the program is run with: its settings and the functions it imports. -/
structure Setup where
  settings : Settings
  env : Env

/-- A store function on a database: its answer and the database after it. -/
def Store.exec (g : Setup) : (c : Store) → Db → Except Exc c.Res × Db
  | .getDag, db => (.ok db.getDag, db)
  | .getQuarantineLedger, db => (.ok db.ledger, db)
  | .getRepairCandidates, db => (.ok db.repairCandidates, db)
  | .getCheckpoints, db => (.ok db.checkpoints, db)
  | .getSubstituteDeclarations, db => (.ok db.substituteDeclarations, db)
  | .nodesExist ids, db => (.ok (db.nodesExist ids), db)
  | .areQuarantined ids, db => (.ok (db.areQuarantined ids), db)
  | .getNodeContentHashes ids, db => (.ok (db.getNodeContentHashes ids), db)
  | .computeCoversIntervalGap covers, db => (.ok (db.computeCoversIntervalGap covers), db)
  | .computeQuarantineDigest ids, db => (.ok (db.computeQuarantineDigest g.env.sha256 ids), db)
  | .computeStateDigest, db => (.ok (db.computeStateDigest g.env.sha256), db)
  | .getCriticalDependents ids, db => (.ok (db.getCriticalDependents ids), db)
  | .findContinuityReplacement x, db => (.ok (db.findContinuityReplacement x), db)
  | .getActiveHorizonSet now, db => (.ok (db.getActiveHorizonSet now), db)
  | .countRecentSignals source since, db => (.ok (db.countRecentSignals source since), db)
  | .countRecentSignalsGlobal since, db => (.ok (db.countRecentSignalsGlobal since), db)
  | .commitNode _ p, db => (.ok (db.commitNode g.env.sha256 p).1, (db.commitNode g.env.sha256 p).2)
  | .computeBlastRadius root, db =>
    (.ok (db.computeBlastRadius g.settings.maxTraversalDepth root).1,
      (db.computeBlastRadius g.settings.maxTraversalDepth root).2)
  | .applyQuarantineTransaction event ids, db =>
    (.ok (db.applyQuarantineTransaction g.settings.maxTraversalDepth event ids).1,
      (db.applyQuarantineTransaction g.settings.maxTraversalDepth event ids).2)
  | .applyWithdrawalTransaction event ids now, db =>
    (.ok (), db.applyWithdrawalTransaction event ids now)
  | .updateRepairCandidate x rc, db => (.ok (), db.setRepairCandidate x rc)
  -- the record was parsed from the JSON column: what is assigned to it is stored nowhere
  | .assignRepairCandidate _ _, db => (.ok (), db)
  | .recordTaintedRejection x parent at_ author, db =>
    (.ok (), db.recordTaintedRejection x parent at_ author)
  | .recordTaintedOffer x replacement type, db => (.ok (), db.recordTaintedOffer x replacement type)
  | .checkRetryCompletion p, db => (.ok (), db.checkRetryCompletion p)
  | .recordShadowDecision d, db => db.recordShadowDecision d
  | .recordReintegration x predecessor horizon now, db =>
    (.ok (), db.recordReintegration x predecessor horizon now)
  | .recordReintegrationEvidence e, db => (.ok (), db.recordReintegrationEvidence e)
  | .recordContinuityExposure e, db => (.ok (), db.recordContinuityExposure e)
  | .recordSignalAttempt source x kind outcome now, db =>
    (.ok (), db.recordSignalAttempt source x kind outcome now)
  | .recordDetectorEvent e, db => (.ok (), db.recordDetectorEvent e)
  | .addCheckpoint c, db => (.ok (), db.addCheckpoint c)
  | .addSubstituteDeclaration d, db => (.ok (), db.addSubstituteDeclaration d)
  | .addExternalEffect key x type now, db => (.ok (), db.addExternalEffect key x type now)
  | .renewTrust x horizon now, db => (.ok (), db.renewTrust x horizon now)
  | .recordCalibrationRun r, db => (.ok (), db.recordCalibrationRun r)

/-- The calls that write the lineage tables, or would make a repair candidate pending. -/
def Store.Loud : Store → Prop
  | .commitNode _ _ => True
  | .applyQuarantineTransaction _ _ => True
  | .updateRepairCandidate _ rc => rc.disposition = .pendingReconstruction
  | _ => False

/-- **Frame.**  Every other store function leaves the lineage alone. -/
theorem Store.exec_toLineage (g : Setup) (db : Db) :
    ∀ c : Store, ¬ c.Loud → (c.exec g db).2.toLineage = db.toLineage
  | .commitNode _ _, h => absurd trivial h
  | .applyQuarantineTransaction _ _, h => absurd trivial h
  | .computeBlastRadius root, _ => Db.computeBlastRadius_toLineage _ root db
  | .recordShadowDecision d, _ => by
    simp only [Store.exec, Db.recordShadowDecision]
    split <;> rfl
  | .getDag, _ | .getQuarantineLedger, _ | .getRepairCandidates, _ | .getCheckpoints, _
  | .getSubstituteDeclarations, _ | .nodesExist _, _ | .areQuarantined _, _
  | .getNodeContentHashes _, _ | .computeCoversIntervalGap _, _ | .computeQuarantineDigest _, _
  | .computeStateDigest, _ | .getCriticalDependents _, _ | .findContinuityReplacement _, _
  | .getActiveHorizonSet _, _ | .countRecentSignals _ _, _ | .countRecentSignalsGlobal _, _
  | .applyWithdrawalTransaction _ _ _, _ | .updateRepairCandidate _ _, _
  | .assignRepairCandidate _ _, _
  | .recordTaintedRejection _ _ _ _, _ | .recordTaintedOffer _ _ _, _ | .checkRetryCompletion _, _
  | .recordReintegration _ _ _ _, _ | .recordReintegrationEvidence _, _
  | .recordContinuityExposure _, _ | .recordSignalAttempt _ _ _ _ _, _ | .recordDetectorEvent _, _
  | .addCheckpoint _, _ | .addSubstituteDeclaration _, _ | .addExternalEffect _ _ _ _, _
  | .renewTrust _ _ _, _ | .recordCalibrationRun _, _ => rfl

/-! ## 2. The outside world -/

/-- What a reading of the clock is for. -/
inductive ClockUse where
  /-- The expiry of a token, inside `jwt.decode`. -/
  | token
  /-- The start of the rate-limit window. -/
  | rateWindow
  /-- The time a signal attempt is stored with. -/
  | signal
  /-- `request_timestamp_epoch` of the policy input. -/
  | policy
  /-- A time that is stored, reported, or compared with trust horizons. -/
  | record
  deriving DecidableEq

/-- The body of the request to the recovery adapter; the graph snapshot is the dag without the
nodes' content. -/
structure AdapterRequest where
  graphSnapshot : List (NodeId × Payload)
  quarantineLedger : List NodeId
  poisonedRootId : NodeId
  compactionCovers : List NodeId
  requestedFrontier : List NodeId
  method : Option String
  checkpoint : Option Checkpoint

inductive Ext where
  | now (use : ClockUse)
  | uuid
  /-- `ec.generate_private_key`: the key is named by its public half. -/
  | generateKey
  | sign (publicKey message : String)
  | opa (q : PolicyQuery)
  /-- The candidate the recovery adapter sent, if it answered 200 with one. -/
  | reconstruct (req : AdapterRequest)
  /-- The order in which a Python `set` happens to be iterated. -/
  | iterSet (xs : List NodeId)

@[reducible] def Ext.Res : Ext → Type
  | .now _ => Time
  | .uuid => String
  | .generateKey => String
  | .sign _ _ => String
  | .opa _ => PolicyAnswer
  | .reconstruct _ => Option Payload
  | .iterSet _ => List NodeId

/-! ## 3. Calls -/

/-- The points of the admission lock and of a transaction at which a task can wait.
`exclusive()` is two of them: it first raises the request flag, then polls. -/
inductive Sync where
  | enterShared
  | leaveShared
  | requestExclusive
  | enterExclusive
  | leaveExclusive
  | begin
  | commit
  | rollback
  deriving DecidableEq

inductive Call where
  | store (c : Store)
  | ext (e : Ext)
  | sync (s : Sync)
  | getAdapterKey
  | setAdapterKey (key : String)

@[reducible] def Call.Res : Call → Type
  | .store c => c.Res
  | .ext e => e.Res
  | .sync _ => Unit
  | .getAdapterKey => Option String
  | .setAdapterKey _ => Unit

/-- A handler, or a part of one. -/
abbrev Handler (α : Type) : Type := Effects.Act Call Call.Res Exc α

def store (c : Store) : Handler c.Res := Effects.Act.perform (R := Call.Res) (Call.store c)

def ext (e : Ext) : Handler e.Res := Effects.Act.perform (R := Call.Res) (Call.ext e)

def sync (s : Sync) : Handler Unit := Effects.Act.perform (R := Call.Res) (Call.sync s)

def getAdapterKey : Handler (Option String) :=
  Effects.Act.perform (R := Call.Res) Call.getAdapterKey

def setAdapterKey (key : String) : Handler Unit :=
  Effects.Act.perform (R := Call.Res) (Call.setAdapterKey key)

/-- `async with _admission_shared():`. -/
def withShared {α : Type} (x : Handler α) : Handler α := do
  sync .enterShared
  x.always (sync .leaveShared)

/-- `async with _admission_exclusive():`. -/
def withExclusive {α : Type} (x : Handler α) : Handler α := do
  sync .requestExclusive
  sync .enterExclusive
  x.always (sync .leaveExclusive)

/-- `async with backend.transaction():`.  The commit is inside the `try`: one that fails is rolled
back like a body that raises. -/
def withTransaction {α : Type} (x : Handler α) : Handler α := do
  sync .begin
  match ← (do
    let a ← x
    sync .commit
    pure a).attempt with
  | .ok a => pure a
  | .error e => do
    sync .rollback
    Effects.Act.raise e

/-- `async with _admission_shared(): await backend.commit_node(payload)`. -/
def commitShared (site : CommitSite) (p : Payload) : Handler Unit :=
  withShared (do
    let _ ← store (.commitNode site p)
    pure ())

end GovernorGateway
