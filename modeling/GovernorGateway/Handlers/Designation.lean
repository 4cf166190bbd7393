/-
# Designation

`/designate` and `/detector/{source}` (`src/governor_service.py`), with the two detector adapters
(`src/detectors/`).

Both contain the blast radius under the exclusive lock.  They differ in three places: only
`/designate` opens a transaction; only `/designate` runs continuity and reconstruction INSIDE the
exclusive section (and inside the transaction), while `/detector` runs them after releasing the
lock; and an unknown node is an answer of the one, an exception of the other.
-/
import GovernorGateway.Handlers.Admission

namespace GovernorGateway

open Effects

variable (g : Setup)

/-- The fields of a designation the handlers read. -/
structure DesignationEvent where
  poisonedNodeId : NodeId
  reason : String

/-! ## 1. Rate limiting -/

/-- `record_signal_attempt`, at the time it is called. -/
def recordSignal (source : String) (x : NodeId) (kind outcome : String) : Handler Unit := do
  let now ← ext (.now .signal)
  store (.recordSignalAttempt source x kind outcome now)

/-- The start of the rate-limit window, as text. -/
def rateWindowStart : Handler String := do
  let now ← ext (.now .rateWindow)
  pure (Clock.stamp (now - Clock.seconds g.settings.continuationHorizonSeconds))

/-- The attempts of one identity are counted whatever became of them. -/
def limitDesignations (identity : String) (x : NodeId) : Handler Unit := do
  let since ← rateWindowStart g
  let count ← store (.countRecentSignals identity since)
  if g.settings.designationRateLimit ≤ (count : Int) then do
    recordSignal identity x "designation" "RATE_LIMITED"
    Act.raise (.text 429 "Rate limit exceeded for designations")
  else recordSignal identity x "designation" "PENDING"

/-! ## 2. Containment -/

/-- Traverse, run the recurrence hook, and move the blast radius into the ledger. -/
def contain (x : NodeId) (identity reason : String) (source : Option String) :
    Handler (List NodeId × QuarantineEvent) := do
  let ids ← store (.computeBlastRadius x)
  recurrenceHook g ids "RENEWED_DESIGNATION"
  let digest ← store (.computeQuarantineDigest ids)
  let eventId ← ext .uuid
  let detected ← stampNow
  let event ← store (.applyQuarantineTransaction
    { quarantineEventId := eventId, detectedAtUtc := detected, poisonedRootId := x,
      computedBlastRadius := ids, monotonicLedgerDigestPostTransition := digest,
      designatorIdentity := some identity, designationReason := some reason,
      detectorSource := source }
    ids)
  pure (ids, event)

/-! ## 3. `/designate` -/

/-- Everything inside the exclusive lock and the transaction. -/
def designateLocked (e : DesignationEvent) (identity : String) : Handler Response := do
  let exists_ ← store (.nodesExist [e.poisonedNodeId])
  let quarantined ← store (.areQuarantined [e.poisonedNodeId])
  if !exists_ e.poisonedNodeId then pure { status := 404, reply := .notFound }
  else if quarantined e.poisonedNodeId then pure { reply := .alreadyQuarantined }
  else do
    let (ids, event) ← contain g e.poisonedNodeId identity e.reason none
    let continuity ← attemptSafeContinuity g ids event
    attemptReconstruction g e.poisonedNodeId
    pure { reply := .designated event continuity }

/-- `designate_poison`. -/
def designatePoison (header : Option String) (e : DesignationEvent) : Handler Response := do
  let claims ← verifyRole g header "designator"
  let identity := claims.sub.getD "unknown"
  limitDesignations g identity e.poisonedNodeId
  withExclusive (withTransaction (designateLocked g e identity))

/-! ## 4. Detector adapters -/

/-- A detector's event, with the fields the two adapters read.  `broken` is an event whose fields
have types the adapter, or the validation of its result, trips over. -/
structure RawEvent where
  eventId : Option String := none
  nodeId : Option String := none
  gascNodeId : Option String := none
  metadataGascNodeId : Option String := none
  preSnapshotId : Option String := none
  action : String := ""
  operation : String := "write"
  detector : String := ""
  reason : Option String := none
  broken : Bool := false

/-- The registered detector sources. -/
inductive DetectorSource where
  | humanReport
  | amg
  deriving DecidableEq

def DetectorSource.name : DetectorSource → String
  | .humanReport => "human_report"
  | .amg => "amg"

/-- `DETECTOR_REGISTRY`. -/
def detectorRegistry (source : String) : Option DetectorSource :=
  [DetectorSource.humanReport, .amg].find? fun d => d.name = source

/-- `HumanReportAdapter.to_designation`; the error is the reason for dropping the event. -/
def humanReportDesignation (raw : RawEvent) : Except String DesignationEvent :=
  if raw.nodeId.getD "" = "" then .error "missing required field: node_id"
  else .ok ⟨raw.nodeId.getD "", raw.reason.getD "Human-reported incident"⟩

/-- The reasons for which an AMG event tells of content that was already stored. -/
def amgReasons (raw : RawEvent) (action operation : String) : List String :=
  (if raw.detector = "protected_key" then
    ["SHA-256 baseline tampering detected by " ++ raw.detector] else []) ++
  (if action = "quarantine" ∧ operation ≠ "write" then
    ["quarantine of stored content (operation=" ++ operation ++ ")"] else []) ++
  (if raw.detector = "self_reinforcement" ∧ action ≠ "block" then
    ["self-reinforcement loop detected (action=" ++ action ++ ")"] else []) ++
  (if operation = "lifecycle" ∧ raw.preSnapshotId.getD "" ≠ "" then
    ["retire_if predicate fired (snapshot=" ++ raw.preSnapshotId.getD "" ++ ")"] else [])

/-- `AMGAdapter.to_designation`. -/
def amgDesignation (env : Env) (raw : RawEvent) : Except String DesignationEvent :=
  let action := env.lower raw.action
  let operation := env.lower raw.operation
  let node := if raw.gascNodeId.getD "" = "" then raw.metadataGascNodeId.getD ""
    else raw.gascNodeId.getD ""
  if node = "" then .error "no gasc_node_id in event or metadata"
  else if action = "allow" then .error "action=allow, no threat detected"
  else if action = "redact" then
    .error "action=redact, content modified at ingress, not a designation"
  else if action = "block" ∧ operation = "write" then
    .error ("ingress block: AMG blocked write before storage (detector=" ++ raw.detector ++ ")")
  else if amgReasons raw action operation = [] then
    .error ("event does not indicate retroactive detection (action=" ++ action ++ ", operation=" ++
      operation ++ ", detector=" ++ raw.detector ++ ")")
  else .ok ⟨node, "; ".intercalate (amgReasons raw action operation)⟩

/-- `DETECTOR_REGISTRY[source].to_designation`. -/
def toDesignation (env : Env) : DetectorSource → RawEvent → Except String DesignationEvent
  | .humanReport => humanReportDesignation
  | .amg => amgDesignation env

/-! ## 5. `/detector/{source}` -/

/-- The exclusive section: no transaction, and an unknown node raises. -/
def detectorLocked (e : DesignationEvent) (identity : String) (source : DetectorSource) :
    Handler (Option (List NodeId × QuarantineEvent)) := do
  let exists_ ← store (.nodesExist [e.poisonedNodeId])
  let quarantined ← store (.areQuarantined [e.poisonedNodeId])
  if !exists_ e.poisonedNodeId then Act.raise (.text 404 "Node ID not found in DAG")
  else if quarantined e.poisonedNodeId then pure none
  else do
    let contained ← contain g e.poisonedNodeId identity e.reason (some source.name)
    pure (some contained)

/-- A detector event that names a node: rate limit, contain, then recover outside the lock. -/
def designateDetected (header : Option String) (source : DetectorSource) (e : DesignationEvent) :
    Handler Response := do
  let claims ← verifyRole g header "designator"
  let identity := claims.sub.getD ("detector:" ++ source.name)
  limitDesignations g identity e.poisonedNodeId
  match ← withExclusive (detectorLocked g e identity source) with
  | none => pure { reply := .alreadyQuarantined }
  | some (ids, event) => do
    let continuity ← attemptSafeContinuity g ids event
    attemptReconstruction g e.poisonedNodeId
    pure { reply := .designated event continuity }

/-- Record the raw event whatever becomes of it. -/
def recordRawEvent (source : DetectorSource) (raw : RawEvent) : Handler Unit := do
  let uuid ← ext .uuid
  let at_ ← stampNow
  store (.recordDetectorEvent ⟨raw.eventId.getD uuid, source.name, at_⟩)

/-- `ingest_detector_event`. -/
def ingestDetectorEvent (header : Option String) (source : String) (raw : RawEvent) :
    Handler Response := do
  let _ ← verifyRole g header "designator"
  match detectorRegistry source with
  | none =>
    Act.raise (.text 400 ("Unknown detector source: " ++ source ++
      ". Available: [\x27human_report\x27, \x27amg\x27]"))
  | some source => do
    recordRawEvent source raw
    Act.raiseIf raw.broken (.other "the adapter cannot read the event")
    match toDesignation g.env source raw with
    | .error reason => pure { reply := .dropped reason }
    | .ok e => designateDetected g header source e

end GovernorGateway
