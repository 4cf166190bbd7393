/-
# The in-memory backend

`MemoryStateBackend` (`src/governor_service.py`) has the interface of the SQLite backend and
dictionaries for tables.  Three differences matter to a handler:

* `get_repair_candidates` hands out the stored records themselves, so what is assigned to one of
  them IS stored (`Memory.exec` on `.assignRepairCandidate`);
* `transaction` is the base class's, which does nothing: nothing is rolled back;
* the traversal has no depth bound.

A dictionary is the list of its values in its order of iteration; they carry their keys.  Its
functions never fail.
-/
import GovernorGateway.Backend
import Mathlib.Algebra.GroupWithZero.Nat

namespace GovernorGateway

structure Memory where
  dag : List Payload
  quarantineLedger : List NodeId
  quarantineEvents : List QuarantineEvent := []
  repairCandidates : List (NodeId × RepairCandidate) := []
  checkpoints : List Checkpoint := []
  externalEffects : List ExternalEffect := []
  /-- Of a decision, `would_have_blocked` is kept. -/
  shadowDecisions : List Bool := []
  reintegrationHorizon : List Horizon := []
  reintegrationEvidence : List ReintegrationEvidence := []
  recurrenceEvents : List RecurrenceEvent := []
  withdrawalLedger : List Withdrawal := []
  calibrationRuns : List CalibrationRun := []
  signalAttempts : List SignalAttempt := []
  continuityExposures : List ContinuityExposure := []
  substituteDeclarations : List SubstituteDeclaration := []
  detectorEvents : List DetectorEventRow := []
  taintedRejections : List TaintedRejection := []

namespace Memory

/-- `_reset_sync`; the evidence of reintegrations is not on its list. -/
def reset (m : Memory) : Memory where
  dag := [{ payloadId := "clean-parent-1" }]
  quarantineLedger := ["quarantined-node-A"]
  reintegrationEvidence := m.reintegrationEvidence

variable (m : Memory)

def nodeIds : List NodeId := m.dag.map Payload.payloadId

/-- `self.dag.get(x)`. -/
def node? (x : NodeId) : Option Payload := Keyed.lookup Payload.payloadId m.dag x

/-- `commit_node`. -/
def commitNode (p : Payload) : Bool × Memory :=
  if p.payloadId ∈ m.nodeIds then (false, m) else (true, { m with dag := m.dag ++ [p] })

/-! ## 1. The traversal -/

/-- The variables of the loop of `compute_blast_radius`; `reached` is `c_p`. -/
structure Search where
  visited : List NodeId
  queue : List NodeId
  reached : List NodeId := []
  affected : List NodeId := []

namespace Search

/-- One entry of the dictionary, seen from the node that was popped. -/
def look (current : NodeId) (s : Search) (p : Payload) : Search :=
  if p.payloadId ∈ s.visited then s
  else if current ∈ p.parentIds then
    let carried := p.parents.any fun c =>
      c.parentNodeId = current && decide (c.edgeClass = some .carried)
    { s with
      visited := s.visited ++ [p.payloadId]
      queue := s.queue ++ [p.payloadId]
      affected := if carried then s.affected ++ [p.payloadId] else s.affected }
  else if current ∈ p.covers then
    { s with visited := s.visited ++ [p.payloadId], queue := s.queue ++ [p.payloadId] }
  else s

/-- `while queue:`.  Every entry is queued at most once, which bounds the number of rounds. -/
def run (dag : List Payload) : ℕ → Search → Search
  | 0, s => s
  | fuel + 1, s =>
    match s.queue with
    | [] => s
    | x :: queue =>
      run dag fuel (dag.foldl (look x) { s with queue := queue, reached := s.reached ++ [x] })

end Search

def search (root : NodeId) : Search :=
  Search.run m.dag (m.dag.length + 1) { visited := [root], queue := [root] }

/-! ## 2. Repair candidates -/

/-- `self.repair_candidates[x] = rc`, also `update_repair_candidate`. -/
def setRepairCandidate (x : NodeId) (rc : RepairCandidate) : Memory :=
  { m with repairCandidates := Keyed.assign Prod.fst m.repairCandidates (x, rc) }

/-- `rc_data[...] = ...` on a record that was handed out: it is the stored one, if it still is. -/
def assignRepairCandidate (x : NodeId) (rc : RepairCandidate) : Memory :=
  if x ∈ m.repairCandidates.map Prod.fst then m.setRepairCandidate x rc else m

/-- `disposition in ("REDUCIBLE", "IRREDUCIBLE")`. -/
def terminal (x : NodeId) : Bool :=
  match Keyed.lookup Prod.fst m.repairCandidates x with
  | some row => row.2.disposition ≠ .pendingReconstruction
  | none => false

/-- One affected compaction, as in the SQLite backend. -/
def classify (reached : List NodeId) (rollback : Bool) (x : NodeId) : Option RepairCandidate :=
  if m.terminal x then none
  else if rollback then
    some { disposition := .irreducible, reason := some "semantic_rollback_hazard",
           escalationRecord :=
             some "Quarantined subgraph contains irreversible external effects" }
  else
    match m.node? x with
    | none => none
    | some p =>
      -- R1: the admissible frontier
      let frontier := p.covers.filter (· ∉ reached)
      if frontier = [] then
        some { disposition := .irreducible, reason := some "empty_frontier",
               escalationRecord := some "Requires human review" }
      else if p.methodId = some "llm-v1" then
        -- R2: the first checkpoint of a frontier node
        match m.checkpoints.find? fun cp => cp.targetNodeId ∈ frontier with
        | none =>
          some { disposition := .irreducible, reason := some "no_admissible_checkpoint",
                 escalationRecord := some "Requires human review" }
        | some cp =>
          some { disposition := .pendingReconstruction, frontier := frontier,
                 method := some "verified_checkpoint_reconstruction", checkpoint := some cp }
      else
        some { disposition := .irreducible, reason := some "no_reconstruction_backend",
               escalationRecord := some "Unknown summarizer method" }

/-- One round of the loop over the affected compactions. -/
def classifyOne (reached : List NodeId) (rollback : Bool) (m : Memory) (x : NodeId) : Memory :=
  match m.classify reached rollback x with
  | none => m
  | some rc => m.setRepairCandidate x rc

/-- `compute_blast_radius`. -/
def computeBlastRadius (root : NodeId) : List NodeId × Memory :=
  let s := m.search root
  let rollback := m.externalEffects.any fun e => e.nodeId ∈ s.reached
  (s.reached.insertionSort (· ≤ ·), s.affected.foldl (classifyOne s.reached rollback) m)

/-! ## 3. Reads -/

def getDag : List (NodeId × Payload) := m.dag.map fun p => (p.payloadId, p)

def nodesExist (ids : List NodeId) (x : NodeId) : Bool := x ∈ ids && x ∈ m.nodeIds

def areQuarantined (ids : List NodeId) (x : NodeId) : Bool := x ∈ ids && x ∈ m.quarantineLedger

def getNodeContentHashes (ids : List NodeId) (x : NodeId) : Option String :=
  if x ∈ ids then (m.node? x).map fun p => p.contentDigest.getD "" else none

/-- A `while queue:` loop that queues what it has not seen. -/
def drain (adj : NodeId → List NodeId) : ℕ → List NodeId → List NodeId → List NodeId
  | 0, _, seen => seen
  | _ + 1, [], seen => seen
  | fuel + 1, x :: queue, seen =>
    let new := ((adj x).filter (· ∉ seen)).dedup
    drain adj fuel (queue ++ new) (seen ++ new)

/-- `_compute_covers_interval_gap`. -/
def computeCoversIntervalGap (covers : List NodeId) : List NodeId :=
  let fuel := covers.length + m.dag.length
  let children (x : NodeId) := (m.dag.filter fun p => x ∈ p.parentIds).map Payload.payloadId
  let parents (x : NodeId) := (((m.node? x).map Payload.parentIds).getD []).filter (· ∈ m.nodeIds)
  let descendants := drain children fuel covers covers
  let ancestors := drain parents fuel covers covers
  sortedSet (descendants.filter fun x => x ∈ ancestors ∧ x ∉ covers)

def computeQuarantineDigest (sha256 : String → String) (ids : List NodeId) : String :=
  sha256 (Json.dumpsList (sortedSet (m.quarantineLedger ++ ids)))

/-- `compute_state_digest`; `dumps` is the text of a stored payload. -/
def computeStateDigest (sha256 : String → String) (dumps : Payload → String) : String :=
  sha256 (Json.dumps (.obj
    [("nodes", .arr ((m.dag.insertionSort (fun a b => a.payloadId ≤ b.payloadId)).map fun p =>
        .arr [.str p.payloadId, .str (sha256 (dumps p))])),
     ("quarantine", .arr ((m.quarantineLedger.insertionSort (· ≤ ·)).map .str))]))

def getCriticalDependents (ids : List NodeId) : List Db.CriticalDependent :=
  m.dag.filterMap fun p =>
    let tainted := p.parentIds.filter (· ∈ ids)
    if 0 < p.weight ∧ (p.payloadId ∈ ids ∨ tainted ≠ []) then
      some ⟨p.payloadId, p.weight, if tainted = [] then [p.payloadId] else tainted⟩
    else none

/-- The walk up the parent commitments that stays inside the quarantine. -/
def quarantinedAncestors : ℕ → List NodeId → List NodeId → List NodeId → List NodeId
  | 0, _, _, candidates => candidates
  | _ + 1, [], _, candidates => candidates
  | fuel + 1, x :: queue, visited, candidates =>
    if x ∈ visited then quarantinedAncestors fuel queue visited candidates
    else if x ∈ m.quarantineLedger then
      quarantinedAncestors fuel (queue ++ ((m.node? x).map Payload.parentIds).getD [])
        (visited ++ [x]) (candidates ++ [x])
    else quarantinedAncestors fuel queue (visited ++ [x]) candidates

def replacementByExposure (candidate : NodeId) : Option Db.Replacement :=
  m.continuityExposures.findSome? fun e =>
    match Json.find? (((m.node? e.nodeId).map Payload.stateContent).getD []) "original_target" with
    | some (.str target) =>
      if target = candidate then
        some ⟨e.nodeId, candidate, some e.exposureId,
          some (e.exposureRecord.mechanism.getD "unknown")⟩
      else none
    | _ => none

def replacementByDeclaration (candidate : NodeId) : Option Db.Replacement :=
  match Keyed.lookup SubstituteDeclaration.targetNodeId m.substituteDeclarations candidate with
  | none => none
  | some d =>
    if d.substituteSourceId ≠ "" ∧ d.substituteSourceId ∈ m.nodeIds ∧
        d.substituteSourceId ∉ m.quarantineLedger then
      some ⟨d.substituteSourceId, candidate, none, some "M3_DECLARED_SUBSTITUTE"⟩
    else none

/-- `find_continuity_replacement`; a parent is queued once for every entry that names it. -/
def findContinuityReplacement (tainted : NodeId) : Option Db.Replacement :=
  let fuel := (m.dag.map fun p => p.parents.length).sum + 1
  (m.quarantinedAncestors fuel [tainted] [] []).findSome? fun candidate =>
    (m.replacementByExposure candidate).or (m.replacementByDeclaration candidate)

def getActiveHorizonSet (now : Time) : List NodeId :=
  (m.reintegrationHorizon.filter fun h => Clock.stamp now < h.trustExpiresUtc).map Horizon.nodeId

/-- `count_recent_signals`: the start of the window counts, as it does not in the other backend. -/
def countRecentSignals (source since : String) : ℕ :=
  (m.signalAttempts.filter fun a => a.signalSource = source ∧ since ≤ a.recordedAtUtc).length

def countRecentSignalsGlobal (since : String) : ℕ :=
  (m.signalAttempts.filter fun a => since ≤ a.recordedAtUtc).length

/-! ## 4. Writes -/

/-- `apply_quarantine_transaction`: the caller's event is stored as it is. -/
def applyQuarantineTransaction (event : QuarantineEvent) (ids : List NodeId) : Memory :=
  { m with
    quarantineEvents := m.quarantineEvents ++ [event]
    quarantineLedger := ids.foldl (Keyed.insertOrIgnore id) m.quarantineLedger }

def applyWithdrawalTransaction (event : RecurrenceEvent) (ids : List NodeId) (now : Time) :
    Memory :=
  { m with
    recurrenceEvents := m.recurrenceEvents ++ [event]
    withdrawalLedger :=
      (Db.withdrawals event now ids).foldl (Keyed.insertOrIgnore Withdrawal.nodeId)
        m.withdrawalLedger }

def recordTaintedRejection (x parent : NodeId) (at_ author : String) : Memory :=
  { m with taintedRejections := m.taintedRejections ++
      [{ nodeId := x, taintedParentId := parent, rejectedAtUtc := at_, authorIdentity := author }] }

/-- The first row that is asked for is changed: `for r in rows: if ...: ...; break`. -/
def offerFirst (x replacement : NodeId) (type : ReplacementType) :
    List TaintedRejection → List TaintedRejection
  | [] => []
  | r :: rows =>
    if r.nodeId = x ∧ !r.offered then
      { r with offered := true, offeredReplacement := some replacement,
               replacementType := some type } :: rows
    else r :: offerFirst x replacement type rows

def recordTaintedOffer (x replacement : NodeId) (type : ReplacementType) : Memory :=
  { m with taintedRejections := offerFirst x replacement type m.taintedRejections }

/-- `check_retry_completion`: each row by itself. -/
def checkRetryCompletion (p : Payload) : Memory :=
  { m with taintedRejections := m.taintedRejections.map fun r =>
      if r.offered ∧ !r.completed ∧ Db.retryCompletes p r then
        { r with completed := true, completedBy := some p.payloadId }
      else r }

def recordReintegration (x predecessor : NodeId) (horizonSeconds : ℕ) (now : Time) : Memory :=
  { m with
    reintegrationHorizon := Keyed.assign Horizon.nodeId m.reintegrationHorizon
      { nodeId := x, admittedAtUtc := Clock.stamp now,
        trustExpiresUtc := Clock.stamp (now + Clock.seconds horizonSeconds),
        predecessorId := predecessor } }

def renewTrust (x : NodeId) (horizonSeconds : ℕ) (now : Time) : Memory :=
  { m with reintegrationHorizon := m.reintegrationHorizon.map fun h =>
      if h.nodeId = x then
        { h with trustExpiresUtc := Clock.stamp (now + Clock.seconds horizonSeconds),
                 renewalCount := h.renewalCount + 1 }
      else h }

/-! ## 5. The store -/

/-- A store function on the in-memory backend: its answer and the backend after it. -/
def exec (g : Setup) (dumps : Payload → String) : (c : Store) → Memory → Except Exc c.Res × Memory
  | .getDag, m => (.ok m.getDag, m)
  | .getQuarantineLedger, m => (.ok m.quarantineLedger, m)
  | .getRepairCandidates, m => (.ok m.repairCandidates, m)
  | .getCheckpoints, m => (.ok m.checkpoints, m)
  | .getSubstituteDeclarations, m => (.ok m.substituteDeclarations, m)
  | .nodesExist ids, m => (.ok (m.nodesExist ids), m)
  | .areQuarantined ids, m => (.ok (m.areQuarantined ids), m)
  | .getNodeContentHashes ids, m => (.ok (m.getNodeContentHashes ids), m)
  | .computeCoversIntervalGap covers, m => (.ok (m.computeCoversIntervalGap covers), m)
  | .computeQuarantineDigest ids, m => (.ok (m.computeQuarantineDigest g.env.sha256 ids), m)
  | .computeStateDigest, m => (.ok (m.computeStateDigest g.env.sha256 dumps), m)
  | .getCriticalDependents ids, m => (.ok (m.getCriticalDependents ids), m)
  | .findContinuityReplacement x, m => (.ok (m.findContinuityReplacement x), m)
  | .getActiveHorizonSet now, m => (.ok (m.getActiveHorizonSet now), m)
  | .countRecentSignals source since, m => (.ok (m.countRecentSignals source since), m)
  | .countRecentSignalsGlobal since, m => (.ok (m.countRecentSignalsGlobal since), m)
  | .commitNode _ p, m => (.ok (m.commitNode p).1, (m.commitNode p).2)
  | .computeBlastRadius root, m =>
    (.ok (m.computeBlastRadius root).1, (m.computeBlastRadius root).2)
  | .applyQuarantineTransaction event ids, m =>
    (.ok event, m.applyQuarantineTransaction event ids)
  | .applyWithdrawalTransaction event ids now, m =>
    (.ok (), m.applyWithdrawalTransaction event ids now)
  | .updateRepairCandidate x rc, m => (.ok (), m.setRepairCandidate x rc)
  | .assignRepairCandidate x rc, m => (.ok (), m.assignRepairCandidate x rc)
  | .recordTaintedRejection x parent at_ author, m =>
    (.ok (), m.recordTaintedRejection x parent at_ author)
  | .recordTaintedOffer x replacement type, m => (.ok (), m.recordTaintedOffer x replacement type)
  | .checkRetryCompletion p, m => (.ok (), m.checkRetryCompletion p)
  | .recordShadowDecision d, m =>
    (.ok (), { m with shadowDecisions := m.shadowDecisions ++ [d.wouldHaveBlocked] })
  | .recordReintegration x predecessor horizon now, m =>
    (.ok (), m.recordReintegration x predecessor horizon now)
  | .recordReintegrationEvidence e, m =>
    (.ok (), { m with
      reintegrationEvidence := Keyed.assign ReintegrationEvidence.nodeId m.reintegrationEvidence e })
  | .recordContinuityExposure e, m =>
    (.ok (), { m with continuityExposures := m.continuityExposures ++ [e] })
  | .recordSignalAttempt source x kind outcome now, m =>
    (.ok (), { m with signalAttempts :=
      m.signalAttempts ++ [⟨source, x, kind, outcome, Clock.stamp now⟩] })
  | .recordDetectorEvent e, m => (.ok (), { m with detectorEvents := m.detectorEvents ++ [e] })
  | .addCheckpoint c, m =>
    (.ok (), { m with checkpoints := Keyed.assign Checkpoint.checkpointId m.checkpoints c })
  | .addSubstituteDeclaration d, m =>
    (.ok (), { m with
      substituteDeclarations :=
        Keyed.assign SubstituteDeclaration.targetNodeId m.substituteDeclarations d })
  | .addExternalEffect key x type now, m =>
    (.ok (), { m with
      externalEffects := Keyed.assign ExternalEffect.idempotencyKey m.externalEffects
        ⟨key, x, type, Clock.stamp now⟩ })
  | .renewTrust x horizon now, m => (.ok (), m.renewTrust x horizon now)
  | .recordCalibrationRun r, m =>
    (.ok (), { m with calibrationRuns := m.calibrationRuns ++ [r] })

end Memory

end GovernorGateway
