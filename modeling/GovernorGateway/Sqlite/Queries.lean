/-
# The other functions of the SQLite backend

What is left of `src/sqlite_backend.py` that the request handlers call: the reads, and the writes
to the tables outside the lineage.  A function that reads the clock takes the time as an argument.

A dictionary answer is the function its callers use it as: `{}.get(id)` is `false` or `none`.
-/
import GovernorGateway.Sqlite.Repair
import GovernorGateway.Graph.Between

namespace GovernorGateway

namespace Db

variable (db : Db)

/-! ## 1. Reads of the lineage -/

/-- `get_dag`. -/
def getDag : List (NodeId × Payload) := db.nodes.map fun n => (n.nodeId, n.payload)

/-- `nodes_exist`. -/
def nodesExist (ids : List NodeId) (x : NodeId) : Bool := x ∈ ids && x ∈ db.nodeIds

/-- `are_quarantined`. -/
def areQuarantined (ids : List NodeId) (x : NodeId) : Bool := x ∈ ids && x ∈ db.ledger

/-- `get_node_content_hashes`. -/
def getNodeContentHashes (ids : List NodeId) (x : NodeId) : Option String :=
  if x ∈ ids then (Keyed.lookup NodeRow.nodeId db.nodes x).map NodeRow.contentHash else none

/-- `compute_quarantine_digest`: over the ledger AS IT WOULD BE with these ids added. -/
def computeQuarantineDigest (sha256 : String → String) (ids : List NodeId) : String :=
  sha256 (Json.dumpsList (sortedSet (db.ledger ++ ids)))

/-- `compute_state_digest`. -/
def computeStateDigest (sha256 : String → String) : String :=
  sha256 (Json.dumps (.obj
    [("nodes", .arr ((db.nodes.insertionSort (fun a b => a.nodeId ≤ b.nodeId)).map fun n =>
        .arr [.str n.nodeId, .str n.commitment])),
     ("quarantine", .arr ((db.ledger.insertionSort (· ≤ ·)).map .str))]))

/-- `compute_covers_interval_gap`: what lies between two covered nodes and is not covered. -/
def computeCoversIntervalGap (covers : List NodeId) : List NodeId :=
  let stored := covers.filter (· ∈ db.nodeIds)
  let parentsOf (x : NodeId) := (db.edges.filter fun e => e.childId = x).map EdgeRow.parentId
  let descendants := Reach.saturate db.children db.edges.length stored
  let ancestors := Reach.saturate parentsOf db.edges.length stored
  sortedSet (descendants.filter fun x => x ∈ ancestors ∧ x ∉ stored)

/-- An entry of `get_critical_dependents`. -/
structure CriticalDependent where
  nodeId : NodeId
  criticalityWeight : ℚ
  taintedParents : List NodeId

/-- `get_critical_dependents`. -/
def getCriticalDependents (ids : List NodeId) : List CriticalDependent :=
  db.getDag.filterMap fun (x, p) =>
    let tainted := p.parentIds.filter (· ∈ ids)
    if 0 < p.weight ∧ (x ∈ ids ∨ tainted ≠ []) then
      some ⟨x, p.weight, if tainted = [] then [x] else tainted⟩
    else none

/-! ## 2. Continuity and tainted actions -/

/-- The parents of a node, in the order of the primary key `(child_id, parent_id)`, from which
SQLite answers `SELECT parent_id FROM edges WHERE child_id = ?`. -/
def parentsInOrder (x : NodeId) : List NodeId :=
  ((db.edges.filter fun e => e.childId = x).map EdgeRow.parentId).insertionSort (· ≤ ·)

/-- The breadth-first walk up the parent edges that stays inside the quarantine.  Every edge is
queued at most once, which bounds the number of rounds. -/
def quarantinedAncestors : ℕ → List NodeId → List NodeId → List NodeId → List NodeId
  | 0, _, _, candidates => candidates
  | _ + 1, [], _, candidates => candidates
  | fuel + 1, x :: queue, visited, candidates =>
    if x ∈ visited then quarantinedAncestors fuel queue visited candidates
    else if x ∈ db.ledger then
      quarantinedAncestors fuel (queue ++ db.parentsInOrder x) (visited ++ [x]) (candidates ++ [x])
    else quarantinedAncestors fuel queue (visited ++ [x]) candidates

/-- What `find_continuity_replacement` returns. -/
structure Replacement where
  replacementNodeId : NodeId
  replacementFor : NodeId
  exposureId : Option String
  mechanism : Option String
  deriving DecidableEq

/-- The first exposure whose node was emitted for the candidate. -/
def replacementByExposure (candidate : NodeId) : Option Replacement :=
  db.continuityExposures.findSome? fun e =>
    match db.payload? e.nodeId with
    | none => none
    | some p =>
      match Json.find? p.stateContent "original_target" with
      | some (.str target) =>
        if target = candidate then
          some ⟨e.nodeId, candidate, some e.exposureId, e.exposureRecord.mechanism⟩
        else none
      | _ => none

/-- The declared substitute of the candidate, if it is stored and clean. -/
def replacementByDeclaration (candidate : NodeId) : Option Replacement :=
  match Keyed.lookup SubstituteDeclaration.targetNodeId db.substituteDeclarations candidate with
  | none => none
  | some d =>
    if d.substituteSourceId ≠ "" ∧ d.substituteSourceId ∈ db.nodeIds ∧
        d.substituteSourceId ∉ db.ledger then
      some ⟨d.substituteSourceId, candidate, none, some "M3_DECLARED_SUBSTITUTE"⟩
    else none

/-- `find_continuity_replacement`. -/
def findContinuityReplacement (tainted : NodeId) : Option Replacement :=
  (db.quarantinedAncestors (db.edges.length + 1) [tainted] [] []).findSome? fun candidate =>
    (db.replacementByExposure candidate).or (db.replacementByDeclaration candidate)

/-- `record_tainted_rejection`. -/
def recordTaintedRejection (x parent : NodeId) (at_ author : String) : Db :=
  { db with taintedRejections := db.taintedRejections ++
      [{ nodeId := x, taintedParentId := parent, rejectedAtUtc := at_, authorIdentity := author }] }

/-- `record_tainted_offer`. -/
def recordTaintedOffer (x replacement : NodeId) (type : ReplacementType) : Db :=
  { db with taintedRejections := db.taintedRejections.map fun r =>
      if r.nodeId = x ∧ !r.offered then
        { r with offered := true, offeredReplacement := some replacement,
                 replacementType := some type }
      else r }

/-- Whether a pending offer is taken up by this payload. -/
def retryCompletes (p : Payload) (r : TaintedRejection) : Bool :=
  (r.offeredReplacement.getD "" ≠ "") && (r.offeredReplacement.getD "" ∈ p.parentIds) &&
    !(p.retryOf = some r.nodeId && r.nodeId ≠ "" && r.authorIdentity ≠ "" &&
        p.identityId.getD "" ≠ r.authorIdentity)

/-- `check_retry_completion`: the offers pending at the start of the call, one after the other. -/
def checkRetryCompletion (p : Payload) : Db :=
  let pending := db.taintedRejections.filter fun r => r.offered && !r.completed
  { db with
    taintedRejections := (pending.filter (retryCompletes p)).foldl
      (fun rows done => rows.map fun r =>
        if r.nodeId = done.nodeId ∧ !r.completed then
          { r with completed := true, completedBy := some p.payloadId }
        else r)
      db.taintedRejections }

/-- Offers and completions of one kind of replacement. -/
structure TaintedCounts where
  offered : ℕ
  completed : ℕ
  deriving DecidableEq

/-- The rates, which the source rounds to floats, are exact here. -/
structure TaintedActionStats where
  totalRejections : ℕ
  offered : ℕ
  completed : ℕ
  completionRate : ℚ
  offerRate : ℚ
  direct : TaintedCounts
  ancestor : TaintedCounts
  deriving DecidableEq

/-- `get_tainted_action_stats`. -/
def getTaintedActionStats : TaintedActionStats :=
  let total := db.taintedRejections.length
  let offered := db.taintedRejections.countP TaintedRejection.offered
  let completed := db.taintedRejections.countP TaintedRejection.completed
  let counts (type : ReplacementType) : TaintedCounts :=
    { offered := db.taintedRejections.countP fun r =>
        r.offered && decide (r.replacementType = some type)
      completed := db.taintedRejections.countP fun r =>
        r.completed && decide (r.replacementType = some type) }
  { totalRejections := total
    offered := offered
    completed := completed
    completionRate := if 0 < total then completed / total else 0
    offerRate := if 0 < total then offered / total else 0
    direct := counts .direct
    ancestor := counts .ancestor }

/-- `record_continuity_exposure`. -/
def recordContinuityExposure (e : ContinuityExposure) : Db :=
  { db with continuityExposures :=
      Keyed.insertOrIgnore ContinuityExposure.exposureId db.continuityExposures e }

/-! ## 3. Horizons and withdrawal -/

/-- `record_reintegration`. -/
def recordReintegration (x predecessor : NodeId) (horizonSeconds : ℕ) (now : Time) : Db :=
  { db with
    reintegrationHorizon := Keyed.insertOrReplace Horizon.nodeId db.reintegrationHorizon
      { nodeId := x, admittedAtUtc := Clock.stamp now,
        trustExpiresUtc := Clock.stamp (now + Clock.seconds horizonSeconds),
        predecessorId := predecessor } }

/-- `record_reintegration_evidence`. -/
def recordReintegrationEvidence (e : ReintegrationEvidence) : Db :=
  { db with reintegrationEvidence :=
      Keyed.insertOrReplace ReintegrationEvidence.nodeId db.reintegrationEvidence e }

/-- `get_active_horizon_set`: the keys of the answer. -/
def getActiveHorizonSet (now : Time) : List NodeId :=
  (db.reintegrationHorizon.filter fun h => Clock.stamp now < h.trustExpiresUtc).map Horizon.nodeId

/-- `renew_trust`. -/
def renewTrust (x : NodeId) (horizonSeconds : ℕ) (now : Time) : Db :=
  { db with reintegrationHorizon := db.reintegrationHorizon.map fun h =>
      if h.nodeId = x then
        { h with trustExpiresUtc := Clock.stamp (now + Clock.seconds horizonSeconds),
                 renewalCount := h.renewalCount + 1 }
      else h }

/-- The rows `apply_withdrawal_transaction` inserts: the first is the implicated node. -/
def withdrawals (event : RecurrenceEvent) (now : Time) : List NodeId → List Withdrawal
  | [] => []
  | x :: xs =>
    ⟨x, Clock.stamp now, event.eventId, .directlyImplicated⟩ ::
      xs.map fun y => ⟨y, Clock.stamp now, event.eventId, .unexaminedDependent⟩

/-- `apply_withdrawal_transaction`. -/
def applyWithdrawalTransaction (event : RecurrenceEvent) (ids : List NodeId) (now : Time) : Db :=
  { db with
    recurrenceEvents := Keyed.insertOrReplace RecurrenceEvent.eventId db.recurrenceEvents event
    withdrawalLedger := (withdrawals event now ids).foldl (Keyed.insertOrIgnore Withdrawal.nodeId)
      db.withdrawalLedger }

/-! ## 4. Signals, declarations and audit -/

/-- `count_recent_signals`: stored times are compared as text. -/
def countRecentSignals (source since : String) : ℕ :=
  (db.signalAttempts.filter fun a => a.signalSource = source ∧ since < a.recordedAtUtc).length

/-- `count_recent_signals_global`. -/
def countRecentSignalsGlobal (since : String) : ℕ :=
  (db.signalAttempts.filter fun a => since < a.recordedAtUtc).length

/-- `record_signal_attempt`. -/
def recordSignalAttempt (source : String) (x : NodeId) (kind outcome : String) (now : Time) : Db :=
  { db with signalAttempts := db.signalAttempts ++ [⟨source, x, kind, outcome, Clock.stamp now⟩] }

/-- `record_detector_event`. -/
def recordDetectorEvent (e : DetectorEventRow) : Db :=
  { db with detectorEvents := Keyed.insertOrIgnore DetectorEventRow.eventId db.detectorEvents e }

/-- `record_shadow_decision`: a plain `INSERT`, so a taken `decision_id` is an error. -/
def recordShadowDecision (d : ShadowDecision) : Except Exc Unit × Db :=
  if d.decisionId ∈ db.shadowDecisions.map ShadowDecision.decisionId then
    (.error (.other "UNIQUE constraint failed: shadow_decisions.decision_id"), db)
  else (.ok (), { db with shadowDecisions := db.shadowDecisions ++ [d] })

/-- `add_checkpoint`. -/
def addCheckpoint (c : Checkpoint) : Db :=
  { db with checkpoints := Keyed.insertOrReplace Checkpoint.checkpointId db.checkpoints c }

/-- `add_substitute_declaration`. -/
def addSubstituteDeclaration (d : SubstituteDeclaration) : Db :=
  { db with substituteDeclarations :=
      Keyed.insertOrReplace SubstituteDeclaration.targetNodeId db.substituteDeclarations d }

/-- `add_external_effect`. -/
def addExternalEffect (key : String) (x : NodeId) (type : String) (now : Time) : Db :=
  { db with
    externalEffects := Keyed.insertOrReplace ExternalEffect.idempotencyKey db.externalEffects
      ⟨key, x, type, Clock.stamp now⟩ }

/-- `record_calibration_run`. -/
def recordCalibrationRun (r : CalibrationRun) : Db :=
  { db with calibrationRuns := Keyed.insertOrReplace CalibrationRun.runId db.calibrationRuns r }

/-! ## 5. The lineage writes, on the whole database -/

/-- `commit_node`. -/
def commitNode (sha256 : String → String) (p : Payload) : Bool × Db :=
  ((db.toLineage.commitNode sha256 p).1,
    { db with toLineage := (db.toLineage.commitNode sha256 p).2 })

/-- `apply_quarantine_transaction`: the event gets the depth the backend was built with, is
stored, and the ids enter the ledger.  The caller's dictionary is the one that is changed. -/
def applyQuarantineTransaction (D : Int) (event : QuarantineEvent) (ids : List NodeId) :
    QuarantineEvent × Db :=
  let event := { event with maxTraversalDepth := some D }
  (event, { db with
    toLineage := db.toLineage.quarantine ids
    quarantineEvents :=
      Keyed.insertOrReplace QuarantineEvent.quarantineEventId db.quarantineEvents event })

/-- What `reset` empties: five tables are not on its list. -/
def cleared : Db :=
  { shadowDecisions := db.shadowDecisions
    reintegrationEvidence := db.reintegrationEvidence
    substituteDeclarations := db.substituteDeclarations
    taintedRejections := db.taintedRejections
    detectorEvents := db.detectorEvents }

/-- `reset`. -/
def reset (sha256 : String → String) : Db :=
  let db' := (db.cleared.commitNode sha256 { payloadId := "clean-parent-1" }).2
  { db' with toLineage := db'.toLineage.quarantine ["quarantined-node-A"] }

theorem reset_toLineage (sha256 : String → String) :
    (db.reset sha256).toLineage =
      { nodes := [Lineage.nodeRow sha256 { payloadId := "clean-parent-1" }], edges := [],
        ledger := ["quarantined-node-A"] } := rfl

end Db

/-- The tables right after `reset` are well formed and contained. -/
theorem Lineage.wf_reset (sha256 : String → String) (db : Db) :
    (db.reset sha256).toLineage.Wf ∧ (db.reset sha256).toLineage.Contained := by
  rw [Db.reset_toLineage]
  refine ⟨⟨List.nodup_singleton _, List.nodup_singleton _, ?_⟩, ?_⟩
  · intro p c
    simp [Lineage.Edge, Lineage.nodeRow, Payload.Names, Payload.parentIds]
  · intro n hn x hx hnames
    simp only [List.mem_singleton] at hn
    subst hn
    simp [Lineage.nodeRow, Payload.Names, Payload.parentIds] at hnames

/-! ## 6. The interval gap -/

/-- **The SQL**: descendants and ancestors of the stored covered ids, along the edge table. -/
theorem Db.mem_computeCoversIntervalGap {db : Db} {covers : List NodeId} {x : NodeId} :
    x ∈ db.computeCoversIntervalGap covers ↔ ¬ (x ∈ covers ∧ x ∈ db.nodeIds) ∧
      Reach.Between db.Edge (fun c => c ∈ covers ∧ c ∈ db.nodeIds) x := by
  have hchild : ∀ y z, Reach.Adj db.children y z → z ∈ (db.edges.map EdgeRow.childId).toFinset := by
    intro y z hyz
    obtain ⟨e, he, -, rfl⟩ := Lineage.adj_children.mp hyz
    exact List.mem_toFinset.mpr (List.mem_map.mpr ⟨e, he, rfl⟩)
  have hswap : Reach.Adj (fun x => (db.edges.filter fun e => e.childId = x).map EdgeRow.parentId) =
      Function.swap db.Edge := by
    funext y z
    apply propext
    simp only [Reach.Adj, Function.swap, Lineage.Edge, List.mem_map, List.mem_filter, decide_eq_true_eq]
    constructor
    · rintro ⟨e, ⟨he, rfl⟩, rfl⟩
      exact ⟨e, he, rfl, rfl⟩
    · rintro ⟨e, he, rfl, rfl⟩
      exact ⟨e, ⟨he, rfl⟩, rfl⟩
  have hparent : ∀ y z, Reach.Adj
      (fun x => (db.edges.filter fun e => e.childId = x).map EdgeRow.parentId) y z →
        z ∈ (db.edges.map EdgeRow.parentId).toFinset := by
    intro y z hyz
    rw [hswap] at hyz
    obtain ⟨e, he, rfl, -⟩ := hyz
    exact List.mem_toFinset.mpr (List.mem_map.mpr ⟨e, he, rfl⟩)
  have hfew : ∀ f : EdgeRow → NodeId, ((db.edges.map f).toFinset).card ≤ db.edges.length := by
    intro f
    have h := List.toFinset_card_le (db.edges.map f)
    rwa [List.length_map] at h
  simp only [Db.computeCoversIntervalGap, mem_sortedSet, List.mem_filter, decide_eq_true_eq]
  rw [Reach.mem_saturate _ hchild (hfew _), Reach.mem_saturate _ hparent (hfew _), hswap,
    Lineage.adj_children_eq, ← and_assoc, and_comm]
  simp only [List.mem_filter, decide_eq_true_eq, Relation.reflTransGen_swap, Reach.Between]

end GovernorGateway
