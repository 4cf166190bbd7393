/-
# Admission

`/submit-candidate` and `/context-compacted`, the two endpoints through which agents write
(`src/governor_service.py`), with `evaluate_admission` and the schema of the payload.

`submit_candidate` does everything between its static checks and its answer inside the shared lock
and one transaction.  `declare_context_compacted` checks the nodes it covers BEFORE it takes the
lock.
-/
import GovernorGateway.Handlers.Recovery

namespace GovernorGateway

open Effects

variable (g : Setup)

/-! ## 1. Answers -/

/-- What an endpoint answers, status code aside. -/
inductive Reply where
  /-- A handler that falls off its end answers `null`. -/
  | null
  | success (message : String)
  /-- "State node committed to DAG." -/
  | committed (idempotent : Bool)
  | refused (reason : String)
  | tainted (event : QuarantineEvent) (replacement : Option Db.Replacement)
  | designated (event : QuarantineEvent) (continuity : ContinuityResults)
  | alreadyQuarantined
  | notFound
  | dropped (reason : String)
  | seeded (root : NodeId) (gatewayIdentity : String)
  | exposed (exposureId : String) (quarantineNonEmpty : Bool)
  deriving DecidableEq

structure Response where
  status : ℕ := 200
  reply : Reply
  deriving DecidableEq

/-- Go on with a value that was computed or raise what the check raised. -/
def check {α : Type} (r : Except Exc α) : Handler α := Act.resume r

/-! ## 2. The payload schema -/

/-- `^[a-fA-F0-9]{64}$` as Python matches it: a line feed may follow. -/
def hex64 (s : String) : Bool :=
  let digit (c : Char) : Bool :=
    (48 ≤ c.toNat && c.toNat ≤ 57) || (65 ≤ c.toNat && c.toNat ≤ 70) ||
      (97 ≤ c.toNat && c.toNat ≤ 102)
  let cs := s.toList
  (cs.take 64).all digit && (cs.length = 64 || (cs.length = 65 && cs.getLast? = some (Char.ofNat 10)))

/-- What `schemas/state_write_payload.json` asks of a payload beyond the types of its fields. -/
def schemaValid (p : Payload) : Bool :=
  p.timestampUtc.isSome &&
  (match p.ephemeralNhi with
   | none => false
   | some n => n.identityId.isSome && n.sessionToken.isSome && n.expiresAtUtc.isSome) &&
  (match p.declaredEvidenceBoundary with
   | none => false
   | some b => hex64 b.boundaryDigest) &&
  !p.parents.isEmpty &&
  (p.parents.all fun c =>
    (match c.parentContentHash with
     | none => false
     | some h => hex64 h) &&
    (match c.edgeClass with
     | none => true
     | some e => e = .material || e = .incidental || e = .carried)) &&
  (match p.contentDigest with
   | none => false
   | some h => hex64 h) &&
  p.agentSignature.isSome &&
  decide (p.signatureAlgorithm = some "ECDSA-P256-SHA256") &&
  (match p.criticalityWeight with
   | none => true
   | some w => 0 ≤ w && w ≤ 1)

/-- The body of a submission, as far as the parser and the types of the schema take it. -/
inductive SubmitBody where
  | notJson
  /-- A document with the wrong shape; the message is the validator's, and the flag tells whether
  it is about `signature_algorithm`. -/
  | malformed (message : String) (aboutAlgorithm : Bool)
  | payload (p : Payload)

/-- The two texts of a schema error. -/
def schemaError (message : String) (aboutAlgorithm : Bool) : Exc :=
  if aboutAlgorithm then
    .text 400 ("signature_algorithm is required and must be \x27ECDSA-P256-SHA256\x27. " ++
      "Signatures produced with SHA-1 (the ecdsa library default) are no longer accepted.")
  else .text 400 ("Schema validation failed: " ++ message)

/-- Size, syntax, schema and algorithm.  What the validator says about a payload with the right
types is not modelled beyond the fact that it objects. -/
def parseSubmission (bytes : ℕ) (body : SubmitBody) : Except Exc Payload :=
  if g.settings.maxPayloadBytes < bytes then
    .error (.text 413 ("Payload exceeds maximum allowed size of " ++
      toString g.settings.maxPayloadBytes ++ " bytes"))
  else
    match body with
    | .notJson => .error (.text 400 "Invalid JSON format")
    | .malformed message aboutAlgorithm => .error (schemaError message aboutAlgorithm)
    | .payload p =>
      if schemaValid p then .ok p
      else
        .error (schemaError "" (decide (p.signatureAlgorithm ≠ some "ECDSA-P256-SHA256")))

/-! ## 3. `evaluate_admission` -/

inductive Decision where
  | admitted
  | taintedParent (poisonedRoot : NodeId)
  | lineageInvalid
  | verificationFailed
  deriving DecidableEq

/-- `decision.get("reason", "")`. -/
def Decision.reason : Decision → String
  | .admitted => ""
  | .taintedParent _ => "TAINTED_PARENT"
  | .lineageInvalid => "Lineage or Monotonicity Invalid"
  | .verificationFailed => "Verification Separation Policy Failed"

/-- What the policy, and the audit record, are told about the declared parents. -/
def parentStatus (p : Payload) (exists_ quarantined : NodeId → Bool) : List ParentStatus :=
  p.parentIds.map fun x => ⟨x, exists_ x, quarantined x⟩

/-- The refusal of a write the integrity policy does not allow: the first tainted parent is the
poisoned root. -/
def integrityRefusal (p : Payload) (quarantined : NodeId → Bool) : Decision :=
  match p.parentIds.filter quarantined with
  | [] => .lineageInvalid
  | x :: _ => .taintedParent x

def integrityInput (p : Payload) (exists_ quarantined : NodeId → Bool) : IntegrityInput :=
  ⟨p, parentStatus p exists_ quarantined⟩

def verificationInput (p : Payload) (quarantined : NodeId → Bool) (auth : Claims) (now : Time) :
    VerificationInput :=
  { newCandidateNodeId := p.payloadId
    admissibleFrontierParentIds := p.parentIds
    justification := Json.find? p.stateContent "justification"
    quarantineSetQ := p.parentIds.filter quarantined
    authContext := auth
    requestTimestampEpoch := Clock.epoch now
    verifierExecutionStatus := auth.verifierExecutionStatus.getD (.str "PENDING") }

/-- `if not result`. -/
def PolicyAnswer.truthy : PolicyAnswer → Bool
  | .dict _ _ _ => true
  | .bool b => b

/-- The two separate policy calls. -/
def evaluateSequentially (p : Payload) (quarantined : NodeId → Bool) (i : IntegrityInput)
    (v : VerificationInput) : Handler Decision := do
  let integrity ← ext (.opa (.integrity i))
  if !integrity.truthy then pure (integrityRefusal p quarantined)
  else do
    let reintegration ← ext (.opa (.verification v))
    if !reintegration.truthy then pure .verificationFailed else pure .admitted

/-- `evaluate_admission`: the combined policy first, the two separate ones when it is not
available. -/
def evaluateAdmission (p : Payload) (exists_ quarantined : NodeId → Bool) (auth : Claims) :
    Handler Decision := do
  let now ← ext (.now .policy)
  let i := integrityInput p exists_ quarantined
  let v := verificationInput p quarantined auth now
  match ← (ext (.opa (.combined i v))).attempt with
  | .ok (.dict write reintegration _) =>
    if !write then pure (integrityRefusal p quarantined)
    else if !reintegration then pure .verificationFailed
    else pure .admitted
  | .ok (.bool _) => evaluateSequentially p quarantined i v
  | .error (.policy _) => evaluateSequentially p quarantined i v
  | .error e => Act.raise e

/-! ## 4. `/submit-candidate` -/

/-- `verify_nhi_jwt`, at the time it is called. -/
def verifyNhi (token identity : Option String) : Handler Claims := do
  let now ← ext (.now .token)
  check (verifyNhiJwt g.env now token identity)

/-- `verify_role_jwt`, at the time it is called. -/
def verifyRole (header : Option String) (role : String) : Handler Claims := do
  let now ← ext (.now .token)
  check (verifyRoleJwt g.env now header role)

/-- Everything before the lock: the payload, its verified claims and the id of the decision. -/
def submitChecks (bytes : ℕ) (body : SubmitBody) : Handler (Payload × Claims × String) := do
  let p ← check (parseSubmission g bytes body)
  let auth ← verifyNhi g p.sessionToken p.identityId
  Act.raiseIf (!verifyCryptographicSignature g.env p)
    (.text 401 "Cryptographic signature verification failed")
  Act.raiseIf (decide (256 < p.parentIds.length)) (.text 400 "Too many declared parents")
  let decisionId ← ext .uuid
  pure (p, auth, decisionId)

/-- A compaction gets its interval gap and must not cover a quarantined node.  A payload of any
other type is passed on as it is, covers included. -/
def prepareCompaction (p : Payload) : Handler Payload :=
  if p.nodeType = some .compaction then do
    let gap ← store (.computeCoversIntervalGap p.covers)
    let p' := { p with coversIntervalGap := some gap }
    if p.covers = [] then pure p'
    else do
      let quarantined ← store (.areQuarantined p.covers)
      if p.covers.filter quarantined = [] then pure p'
      else Act.raise (.http 403 (.taintedCovers (p.covers.filter quarantined)))
  else pure p

/-- `PolicyEvaluationError` is an availability problem. -/
def failClosed (x : Handler Decision) : Handler Decision := do
  match ← x.attempt with
  | .ok d => pure d
  | .error (.policy m) => Act.raise (.text 503 ("Policy engine unavailable: " ++ m))
  | .error e => Act.raise e

/-- REQ-001: the first declared hash that differs from the stored one. -/
def hashMismatch (hashes : NodeId → Option String) (c : ParentCommitment) : Option Exc :=
  let stored := (hashes c.parentNodeId).getD ""
  let declared := c.parentContentHash.getD ""
  if stored ≠ "" ∧ declared ≠ stored then
    some (.text 403 ("Content hash mismatch for parent " ++ c.parentNodeId ++ ": declared " ++
      String.ofList (declared.toList.take 16) ++ "... != stored " ++
      String.ofList (stored.toList.take 16) ++ "..."))
  else none

/-- `record_shadow_decision` with the fields that do not change. -/
def recordDecision (decisionId writer : String) (p : Payload) (status : List ParentStatus)
    (blocked : Bool) (reason : String) : Handler Unit := do
  let at_ ← stampNow
  store (.recordShadowDecision
    { decisionId := decisionId, nodeId := p.payloadId, evaluatedAtUtc := at_,
      wouldHaveBlocked := blocked, reason := reason, parentStatus := status,
      policyBundleDigest := (g.settings.opaPolicyBundle.filter (· ≠ "")).getD "none",
      writerIdentity := writer })

/-- Offer the replacement continuity has produced, if any. -/
def offerReplacement (p : Payload) (root : NodeId) : Handler (Option Db.Replacement) := do
  let replacement ← store (.findContinuityReplacement root)
  match replacement with
  | none => pure none
  | some r => do
    store (.recordTaintedOffer p.payloadId r.replacementNodeId
      (if r.replacementFor = root then .direct else .ancestor))
    pure (some r)

/-- The `TAINTED_PARENT` branch.  The digest is taken over the ledger with the whole blast radius
added; what enters the ledger is the rejected id alone. -/
def rejectTainted (p : Payload) (root : NodeId) :
    Handler (QuarantineEvent × Option Db.Replacement) := do
  let _ ← store (.commitNode .rejection p)
  let ids ← store (.computeBlastRadius root)
  recurrenceHook g ids "PROHIBITED_PATH"
  let digest ← store (.computeQuarantineDigest (ids ++ [p.payloadId]))
  let eventId ← ext .uuid
  let detected ← stampNow
  let event ← store (.applyQuarantineTransaction
    { quarantineEventId := eventId, detectedAtUtc := detected, poisonedRootId := root,
      computedBlastRadius := ids, monotonicLedgerDigestPostTransition := digest }
    [p.payloadId])
  let rejected ← stampNow
  store (.recordTaintedRejection p.payloadId root rejected (p.identityId.getD ""))
  let replacement ← offerReplacement p root
  pure (event, replacement)

/-- The admitted write. -/
def admitWrite (p : Payload) (hashes : NodeId → Option String) : Handler Bool :=
  match p.parents.findSome? (hashMismatch hashes) with
  | some e => Act.raise e
  | none => store (.commitNode .admission p)

/-- The audit of an admitted write; a duplicate leaves no second record. -/
def auditAdmission (p : Payload) (status : List ParentStatus) (decisionId writer : String)
    (isNew : Bool) : Handler Unit :=
  if isNew then do
    recordDecision g decisionId writer p status false "admit"
    store (.checkRetryCompletion p)
  else pure ()

/-- What follows the decision in enforcement mode. -/
def enforce (p : Payload) (status : List ParentStatus) (hashes : NodeId → Option String)
    (decisionId writer : String) : Decision → Handler Response
  | .admitted => do
    let isNew ← admitWrite p hashes
    auditAdmission g p status decisionId writer isNew
    pure { reply := .committed (!isNew) }
  | .taintedParent root => do
    let (event, replacement) ← rejectTainted g p root
    recordDecision g decisionId writer p status true (Decision.taintedParent root).reason
    pure { status := 403, reply := .tainted event replacement }
  | .lineageInvalid => do
    recordDecision g decisionId writer p status true Decision.lineageInvalid.reason
    pure { status := 400, reply := .refused Decision.lineageInvalid.reason }
  | .verificationFailed => do
    recordDecision g decisionId writer p status true Decision.verificationFailed.reason
    pure { status := 403, reply := .refused Decision.verificationFailed.reason }

/-- The locked section.  In shadow mode it ends with the commit: the audit writes the source has
for that mode stand in the branch for the other one. -/
def submitLocked (p : Payload) (auth : Claims) (decisionId : String) : Handler Response := do
  let idQuarantined ← store (.areQuarantined [p.payloadId])
  Act.raiseIf (idQuarantined p.payloadId)
    (.text 409 ("payload_id " ++ p.payloadId ++
      " is quarantined; cannot reuse a quarantined identity"))
  let exists_ ← store (.nodesExist p.parentIds)
  let quarantined ← store (.areQuarantined p.parentIds)
  let hashes ← store (.getNodeContentHashes p.parentIds)
  let p' ← prepareCompaction p
  let decision ← failClosed (evaluateAdmission p' exists_ quarantined auth)
  match g.settings.enforcementMode with
  | .shadow => do
    let _ ← store (.commitNode .shadow p')
    pure { reply := .null }
  | .enforce =>
    enforce g p' (parentStatus p' exists_ quarantined) hashes decisionId
      (auth.sub.getD "unknown") decision

/-- `submit_candidate`. -/
def submitCandidate (bytes : ℕ) (body : SubmitBody) : Handler Response := do
  let (p, auth, decisionId) ← submitChecks g bytes body
  withShared (withTransaction (submitLocked g p auth decisionId))

/-! ## 5. `/context-compacted` -/

structure ContextCompactedEvent where
  compactedNodeIds : List NodeId
  compactionNodeId : NodeId
  timestampUtc : String
  ephemeralNhi : EphemeralNhi
  stateContent : List (String × Json)
  agentSignature : String
  signatureAlgorithm : String := "ECDSA-P256-SHA256"
  methodId : String := "llm_summary"

/-- The commitments to the compacted nodes; the first id that is not stored is an error. -/
def carriedParents (dag : List (NodeId × Payload)) :
    List NodeId → Except Exc (List ParentCommitment)
  | [] => .ok []
  | x :: xs =>
    match Keyed.lookup Prod.fst dag x with
    | none => .error (.text 400 ("Compacted node " ++ x ++ " not found in DAG"))
    | some n =>
      (carriedParents dag xs).map fun ps =>
        { parentNodeId := x, parentContentHash := some (n.2.contentDigest.getD zeros64),
          edgeClass := some .carried } :: ps

/-- The payload of a compaction event. -/
def compactionPayload (e : ContextCompactedEvent) (parents : List ParentCommitment) : Payload :=
  { payloadId := e.compactionNodeId
    nodeType := some .compaction
    timestampUtc := some e.timestampUtc
    ephemeralNhi := some e.ephemeralNhi
    declaredEvidenceBoundary := some ⟨"bnd-" ++ e.compactionNodeId, e.timestampUtc, zeros64⟩
    stateContent := e.stateContent
    contentDigest := some (contentHash g.env e.stateContent)
    agentSignature := some e.agentSignature
    signatureAlgorithm := some e.signatureAlgorithm
    covers := e.compactedNodeIds
    parents := parents
    summarizer := some { methodId := some e.methodId, configDigest := some zeros64 } }

/-- The checks of `/context-compacted`, all of them before the lock. -/
def compactionChecks (e : ContextCompactedEvent) : Handler Payload := do
  let dag ← store .getDag
  let parents ← check (carriedParents dag e.compactedNodeIds)
  let p := compactionPayload g e parents
  let _ ← verifyNhi g p.sessionToken p.identityId
  Act.raiseIf (!verifyCryptographicSignature g.env p)
    (.text 401 "Cryptographic signature verification failed")
  let quarantined ← store (.areQuarantined e.compactedNodeIds)
  if e.compactedNodeIds.filter quarantined = [] then pure p
  else Act.raise (.http 403 (.taintedCovers (e.compactedNodeIds.filter quarantined)))

/-- `declare_context_compacted`. -/
def declareContextCompacted (e : ContextCompactedEvent) : Handler Response := do
  let p ← compactionChecks g e
  commitShared .compaction p
  pure { reply := .success "Compaction node committed to DAG." }

end GovernorGateway
