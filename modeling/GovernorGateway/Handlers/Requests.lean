/-
# The other endpoints, and requests

The administrative endpoints of `src/governor_service.py`, and `Request.handle`, the program a
request runs.
-/
import GovernorGateway.Handlers.Designation

namespace GovernorGateway

open Effects

variable (g : Setup)

/-! ## 1. `/observe` -/

structure ObserveEvent where
  nodeId : NodeId
  recurrenceClass : String
  evidence : List (String × Json) := []
  adapterSignature : Option String := none

/-- The two rate limits of `/observe`; a rejected attempt is recorded too. -/
def limitObservations (source : String) (x : NodeId) : Handler Unit := do
  let since ← rateWindowStart g
  let count ← store (.countRecentSignals source since)
  if g.settings.recurrenceSignalRateLimit ≤ (count : Int) then do
    recordSignal source x "recurrence" "RATE_LIMITED"
    Act.raise (.text 429 "Rate limit exceeded for recurrence signals")
  else do
    let total ← store (.countRecentSignalsGlobal since)
    if g.settings.recurrenceSignalGlobalLimit ≤ (total : Int) then do
      recordSignal source x "recurrence" "RATE_LIMITED"
      Act.raise (.text 429 "Global rate limit exceeded for recurrence signals")
    else recordSignal source x "recurrence" "PENDING"

/-- A contradiction must be signed with the current adapter key. -/
def checkContradiction (e : ObserveEvent) : Handler Unit := do
  Act.raiseIf (decide (e.adapterSignature.getD "" = ""))
    (.text 403 "adapter_signature required for VERIFIER_CONTRADICTION")
  let key ← getAdapterKey
  Act.raiseIf (decide (key.getD "" = "")) (.text 500 "RECOVERY_ADAPTER_PUBLIC_KEY not configured")
  Act.raiseIf (!g.env.ecdsaVerify (key.getD "") (e.adapterSignature.getD "") e.nodeId)
    (.text 403 "Invalid adapter signature")

/-- `observe_recurrence`. -/
def observeRecurrence (header : Option String) (e : ObserveEvent) : Handler Response := do
  let claims ← verifyRole g header "designator"
  let source := claims.sub.getD "unknown"
  Act.raiseIf (decide (e.recurrenceClass ∉ ["FUNCTIONAL_FAILURE", "VERIFIER_CONTRADICTION"]))
    (.text 400 "Invalid recurrence class")
  limitObservations g source e.nodeId
  if e.recurrenceClass = "VERIFIER_CONTRADICTION" then checkContradiction g e else pure ()
  processRecurrence g e.nodeId e.recurrenceClass source e.evidence
  pure { reply := .success "" }

/-! ## 2. Declarations -/

/-- `declare_checkpoint`. -/
def declareCheckpoint (header : Option String) (c : Checkpoint) : Handler Response := do
  let _ ← verifyRole g header "admin"
  store (.addCheckpoint c)
  pure { reply := .success "Checkpoint declared" }

/-- `declare_external_effect`. -/
def declareExternalEffect (header : Option String) (key : String) (x : NodeId) (type : String) :
    Handler Response := do
  let _ ← verifyRole g header "admin"
  let now ← ext (.now .record)
  store (.addExternalEffect key x type now)
  pure { reply := .success "External effect recorded." }

/-- `declare_substitute`.  The declared time is stored as it is sent, `null` when it is not: it has
to be truthy, not to be a text. -/
def declareSubstitute (header : Option String) (target source : Option String) (declaredAt : Json) :
    Handler Response := do
  let _ ← verifyRole g header "admin"
  Act.raiseIf
    (decide (target.getD "" = "" ∨ source.getD "" = "" ∨ declaredAt.truthy = false))
    (.text 400 "target_node_id, substitute_source_id, and declared_at_utc are required")
  let exists_ ← store (.nodesExist [source.getD ""])
  Act.raiseIf (!exists_ (source.getD ""))
    (.text 404 ("Substitute source " ++ source.getD "" ++ " not found in DAG"))
  let quarantined ← store (.areQuarantined [source.getD ""])
  Act.raiseIf (quarantined (source.getD "")) (.text 403 "Substitute source is quarantined")
  store (.addSubstituteDeclaration
    { targetNodeId := target.getD "", substituteSourceId := source.getD "",
      declaredAtUtc := declaredAt })
  pure { reply := .success "Substitute declaration recorded" }

/-- `seed_root`. -/
def seedRoot (header rootId : Option String) : Handler Response := do
  let claims ← verifyRole g header "admin"
  let root := rootId.getD ""
  Act.raiseIf (decide (root = "")) (.text 400 "root_id required")
  let exists_ ← store (.nodesExist [root])
  Act.raiseIf (exists_ root) (.text 409 ("Node " ++ root ++ " already exists"))
  let key ← ext .generateKey
  let content := [("type", Json.str "seed_root"),
    ("seeded_by", Json.str (claims.sub.getD "unknown"))]
  let signature ← ext (.sign key (contentHash g.env content))
  let timestamp ← ext (.now .record)
  let fixedAt ← ext (.now .record)
  let _ ← store (.commitNode .seedRoot
    { payloadId := root
      timestampUtc := some (Clock.isoformat timestamp)
      ephemeralNhi := some { identityId := some key, sessionToken := some "gateway_seed",
                             expiresAtUtc := some "9999-12-31T23:59:59Z" }
      declaredEvidenceBoundary := some ⟨"seed-" ++ root, Clock.isoformat fixedAt, zeros64⟩
      stateContent := content
      contentDigest := some (contentHash g.env content)
      agentSignature := some signature
      signatureAlgorithm := some "ECDSA-P256-SHA256" })
  pure { reply := .seeded root key }

/-! ## 3. Exposure, trust and calibration -/

/-- `record_continuity_exposure`, the endpoint. -/
def continuityExpose (header node status reason : Option String) : Handler Response := do
  let _ ← verifyRole g header "designator"
  let status := status.getD "ORIGINAL"
  Act.raiseIf (decide (node.getD "" = "")) (.text 400 "node_id required")
  Act.raiseIf
    (decide (status ∉ ["ORIGINAL", "BOUNDED_SUBSTITUTE", "DEGRADED", "CHECKPOINT"]))
    (.text 400 ("substitute_status must be one of: ORIGINAL, BOUNDED_SUBSTITUTE, " ++
      "DEGRADED, CHECKPOINT"))
  let ledger ← store .getQuarantineLedger
  Act.raiseIf (decide (node.getD "" ∈ ledger))
    (.text 403 "Cannot expose quarantined node — taint fact must not be cleared")
  let exposureId ← ext .uuid
  let at_ ← stampNow
  store (.recordContinuityExposure
    ⟨exposureId, node.getD "", status, at_, !ledger.isEmpty, { reason := some (reason.getD "") }⟩)
  pure { reply := .exposed exposureId (!ledger.isEmpty) }

/-- The parents recorded for a node, if it is stored. -/
def storedParents (dag : List (NodeId × Payload)) (x : NodeId) : List NodeId :=
  match Keyed.lookup Prod.fst dag x with
  | none => []
  | some n => n.2.parentIds

/-- Python's `repr` of a printable string. -/
def pyRepr (s : String) : String :=
  let single := Char.ofNat 39
  let quote := if single ∈ s.toList ∧ Char.ofNat 34 ∉ s.toList then Char.ofNat 34 else single
  let escaped := s.toList.flatMap fun c =>
    if c = quote ∨ c = Char.ofNat 92 then [Char.ofNat 92, c] else [c]
  String.ofList ([quote] ++ escaped ++ [quote])

/-- `renew_trust`, the endpoint. -/
def renewTrust (header : Option String) (x : NodeId) : Handler Response := do
  let _ ← verifyRole g header "designator"
  let ledger ← store .getQuarantineLedger
  Act.raiseIf (decide (x ∈ ledger)) (.text 403
    "Cannot renew trust: Prohibited path from historical quarantine exists (node is tainted)")
  let dag ← store .getDag
  let parents := storedParents dag x
  let quarantined ← store (.areQuarantined parents)
  let tainted := (parents.filter quarantined).eraseDups
  Act.raiseIf (!tainted.isEmpty) (.text 403 ("Cannot renew trust: parent(s) [" ++
    ", ".intercalate (tainted.map pyRepr) ++ "] are now quarantined (R5 predicate failed)"))
  let now ← ext (.now .record)
  store (.renewTrust x g.settings.continuationHorizonSeconds now)
  pure { reply := .success "" }

/-- `calibrate_harness`. -/
def calibrateHarness (header : Option String) (r : CalibrationRun) : Handler Response := do
  let _ ← verifyRole g header "admin"
  Act.raiseIf (!g.settings.debugMode) (.text 403 "Calibration requires DEBUG_MODE")
  store (.recordCalibrationRun r)
  pure { reply := .success "" }

/-! ## 4. Requests -/

inductive Request where
  | submitCandidate (bytes : ℕ) (body : SubmitBody)
  | contextCompacted (e : ContextCompactedEvent)
  | designate (header : Option String) (e : DesignationEvent)
  | detector (header : Option String) (source : String) (raw : RawEvent)
  | observe (header : Option String) (e : ObserveEvent)
  | checkpoint (header : Option String) (c : Checkpoint)
  | declareSubstitute (header target source : Option String) (declaredAt : Json)
  | declareExternalEffect (header : Option String) (key : String) (x : NodeId) (type : String)
  | seedRoot (header rootId : Option String)
  | continuityExpose (header node status reason : Option String)
  | renewTrust (header : Option String) (x : NodeId)
  | calibrate (header : Option String) (r : CalibrationRun)

/-- The program a request runs. -/
def Request.handle : Request → Handler Response
  | .submitCandidate bytes body => GovernorGateway.submitCandidate g bytes body
  | .contextCompacted e => declareContextCompacted g e
  | .designate header e => designatePoison g header e
  | .detector header source raw => ingestDetectorEvent g header source raw
  | .observe header e => observeRecurrence g header e
  | .checkpoint header c => declareCheckpoint g header c
  | .declareSubstitute header target source declaredAt =>
    GovernorGateway.declareSubstitute g header target source declaredAt
  | .declareExternalEffect header key x type =>
    GovernorGateway.declareExternalEffect g header key x type
  | .seedRoot header rootId => GovernorGateway.seedRoot g header rootId
  | .continuityExpose header node status reason =>
    GovernorGateway.continuityExpose g header node status reason
  | .renewTrust header x => GovernorGateway.renewTrust g header x
  | .calibrate header r => calibrateHarness g header r

end GovernorGateway
