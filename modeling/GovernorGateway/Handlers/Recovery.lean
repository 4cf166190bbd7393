/-
# Recurrence, reconstruction and safe continuity

The three functions of the gateway that act on their own after a containment decision:
`process_recurrence` (`src/r6_utils.py`), `_attempt_reconstruction` (R3 to R5) and
`_attempt_safe_continuity` (M3 and M4).  All three are called from inside other handlers; the last
two take the shared side of the admission lock around each commit.

A `for` loop that serves the first match and breaks is a `find?` followed by the body of the loop.
-/
import GovernorGateway.Backend

namespace GovernorGateway

open Effects

variable (g : Setup)

/-- Sixty-four zeros: the digest the gateway declares when it has none. -/
def zeros64 : String := "0000000000000000000000000000000000000000000000000000000000000000"

/-- `"e" * 64`. -/
def es64 : String := "eeeeeeeeeeeeeeeeeeeeeeeeeeeeeeeeeeeeeeeeeeeeeeeeeeeeeeeeeeeeeeee"

/-- The time now, as stored. -/
def stampNow : Handler String := do
  let t ← ext (.now .record)
  pure (Clock.stamp t)

/-! ## 1. Recurrence -/

/-- `process_recurrence`. -/
def processRecurrence (x : NodeId) (cls source : String) (evidence : List (String × Json)) :
    Handler Unit := do
  let w ← store (.computeBlastRadius x)
  let eventId ← ext .uuid
  let detected ← stampNow
  let now ← ext (.now .record)
  let event : RecurrenceEvent :=
    { eventId := eventId, nodeId := x, recurrenceClass := cls, detectedAtUtc := detected,
      signalSource := source, evidence := evidence }
  if g.settings.maxWithdrawalAmplification < (w.length : Int) then
    -- the event is recorded, with an empty update of the withdrawal ledger
    store (.applyWithdrawalTransaction { event with escalated := true } [] now)
  else store (.applyWithdrawalTransaction event w now)

/-- The recurrence hook of a containment: every node of the blast radius with an active horizon. -/
def recurrenceHook (ids : List NodeId) (cls : String) : Handler Unit := do
  let now ← ext (.now .record)
  let active ← store (.getActiveHorizonSet now)
  Act.forEach
    (fun x => if x ∈ active then processRecurrence g x cls "internal_hook" [] else pure ()) ids

/-! ## 2. Reconstruction -/

/-- The candidate the gateway makes itself when there is no recovery adapter (REQ-009); its key
becomes the adapter key. -/
def inlineCandidate (rc : RepairCandidate) : Handler Payload := do
  let key ← ext .generateKey
  let uuid ← ext .uuid
  let snapshot := (rc.checkpoint.map Checkpoint.snapshotData).getD []
  let content := [("data", Json.str ((Json.obj snapshot).dumpsWith false)),
    ("reconstructed", Json.bool true)]
  let signature ← ext (.sign key (contentHash g.env content))
  setAdapterKey key
  pure
    { payloadId := "reconstructed-" ++ uuid
      nodeType := some .compaction
      stateContent := content
      parents := rc.frontier.map fun x =>
        { parentNodeId := x, parentContentHash := some es64, edgeClass := some .compaction }
      covers := rc.frontier
      contentDigest := some (contentHash g.env content)
      agentSignature := some signature
      signatureAlgorithm := some "ECDSA-P256-SHA256"
      ephemeralNhi := some { identityId := some key, sessionToken := some "inline_adapter" } }

/-- What the adapter is told about the graph. -/
def dagProjection (dag : List (NodeId × Payload)) : List (NodeId × Payload) :=
  dag.map fun n => (n.1, { n.2 with stateContent := [] })

/-- Ask the recovery adapter if there is one, else reconstruct inline. -/
def reconstructionCandidate (root : NodeId) (rc : RepairCandidate)
    (dag : List (NodeId × Payload)) (ledger covers : List NodeId) : Handler (Option Payload) :=
  if g.settings.hasAdapter then
    ext (.reconstruct
      { graphSnapshot := dagProjection dag, quarantineLedger := ledger, poisonedRootId := root,
        compactionCovers := covers, requestedFrontier := rc.frontier, method := rc.method,
        checkpoint := rc.checkpoint })
  else do
    let c ← inlineCandidate g rc
    pure (some c)

/-- `rc_data["disposition"] = "IRREDUCIBLE"`, with the reason, stored. -/
def giveUp (x : NodeId) (rc : RepairCandidate) (reason : String) : Handler Unit :=
  store (.updateRepairCandidate x { rc with disposition := .irreducible, reason := some reason })

/-- The four entries of the evidence, each with its own reading of the clock. -/
def gateEvidence : Handler (List GateEvidence) := do
  let t1 ← stampNow
  let t2 ← stampNow
  let t3 ← stampNow
  let t4 ← stampNow
  pure [⟨"signature_verification", true, t1⟩, ⟨"identity_verification", true, t2⟩,
    ⟨"frontier_verification", true, t3⟩, ⟨"quarantine_ancestry_check", true, t4⟩]

/-- The reintegration gate (R5) and the commit. -/
def reintegrate (x : NodeId) (rc : RepairCandidate) (c : Payload) : Handler Unit := do
  let evidence ← gateEvidence
  let pre ← store .computeStateDigest
  commitShared .reconstruction c
  let post ← store .computeStateDigest
  let t ← ext (.now .record)
  store (.recordReintegration c.payloadId x g.settings.continuationHorizonSeconds t)
  let recorded ← stampNow
  store (.recordReintegrationEvidence ⟨c.payloadId, pre, post, evidence, recorded⟩)
  store (.updateRepairCandidate x
    { rc with disposition := .reducible, reconstructedNodeId := some c.payloadId })

/-- The checks on a candidate, in the order of the source. -/
def gate (x : NodeId) (rc : RepairCandidate) : Option Payload → Handler Unit
  | none => giveUp x rc "backend_unavailable"
  | some c =>
    if !verifyCryptographicSignature g.env c then giveUp x rc "invalid_signature"
    else do
      let key ← getAdapterKey
      if key.getD "" = "" ∨ c.identityId ≠ key then giveUp x rc "invalid_identity"
      else if ¬ (∀ y ∈ c.covers, y ∈ rc.frontier) ∨ ¬ (∀ y ∈ rc.frontier, y ∈ c.covers) then
        giveUp x rc "frontier_mismatch"
      else reintegrate g x rc c

/-- The body of the `try`: one pending candidate. -/
def reconstructPending (root x : NodeId) (rc : RepairCandidate)
    (cache : List (NodeId × Payload) × List NodeId) : Handler Unit :=
  match Keyed.lookup Prod.fst cache.1 x with
  | none => Act.raise (.other "KeyError")
  | some node => do
    let candidate ← reconstructionCandidate g root rc cache.1 cache.2 node.2.covers
    gate g x rc candidate

/-- `_dag_cache` and `_q_ledger_cache`, read once for all candidates. -/
def readCache : Handler (List (NodeId × Payload) × List NodeId) := do
  let dag ← store .getDag
  let ledger ← store .getQuarantineLedger
  pure (dag, ledger)

/-- The cache, read now if it has not been read yet; a failure to read it is caught. -/
def cached : Option (List (NodeId × Payload) × List NodeId) →
    Handler (Except Exc (List (NodeId × Payload) × List NodeId))
  | some c => pure (.ok c)
  | none => readCache.attempt

/-- The two `except` clauses: they assign to the record that was read from the store. -/
def assignFailure (x : NodeId) (rc : RepairCandidate) (e : Exc) : Handler Unit :=
  store (.assignRepairCandidate x
    { rc with
      disposition := .irreducible
      reason := some (if e = .readTimeout then "backend_timeout" else "backend_unavailable") })

/-- One round of the loop. -/
def reconstructOne (root : NodeId) (cache : Option (List (NodeId × Payload) × List NodeId))
    (row : NodeId × RepairCandidate) : Handler (Option (List (NodeId × Payload) × List NodeId)) :=
  if row.2.disposition ≠ .pendingReconstruction then pure cache
  else do
    match ← cached cache with
    | .error e => do
      assignFailure row.1 row.2 e
      pure none
    | .ok c => do
      match ← (reconstructPending g root row.1 row.2 c).attempt with
      | .error e => do
        assignFailure row.1 row.2 e
        pure (some c)
      | .ok _ => pure (some c)

/-- `_attempt_reconstruction`. -/
def attemptReconstruction (root : NodeId) : Handler Unit := do
  let rcs ← store .getRepairCandidates
  let _ ← Act.fold (reconstructOne g root) rcs none
  pure ()

/-! ## 3. Safe continuity -/

/-- What was read once for all critical nodes. -/
structure Snapshot where
  checkpoints : List Checkpoint
  substitutes : List SubstituteDeclaration
  ledger : List NodeId
  dag : List (NodeId × Payload)

/-- `dag.get(node_id, {})`, as far as its parents go. -/
def Snapshot.parentsOf (s : Snapshot) (x : NodeId) : List NodeId :=
  match Keyed.lookup Prod.fst s.dag x with
  | none => []
  | some n => n.2.parentIds

/-- `relevant_tainted`: the tainted parents, the node itself if quarantined, its quarantined
parents. -/
def Snapshot.relevantTainted (s : Snapshot) (dep : Db.CriticalDependent) : List NodeId :=
  (dep.taintedParents ++ (if dep.nodeId ∈ s.ledger then [dep.nodeId] else []) ++
    (s.parentsOf dep.nodeId).filter (· ∈ s.ledger)).dedup

/-- The tests of M4 on one checkpoint. -/
def Snapshot.replayable (s : Snapshot) (dep : Db.CriticalDependent) (containment : String)
    (cp : Checkpoint) : Bool :=
  cp.targetNodeId ∈ s.relevantTainted dep && cp.declaredAtUtc < containment &&
    !cp.snapshotData.isEmpty && cp.snapshotData.all fun f => f.1 ∉ s.ledger

/-- `decl_time >= containment_time`, negated.  Only a text can be compared with the time of the
containment; for anything else Python raises `TypeError`. -/
def SubstituteDeclaration.predates (d : SubstituteDeclaration) (containment : String) : Except Exc Bool :=
  match d.declaredAtUtc with
  | .str t => .ok (decide (t < containment))
  | _ => .error (.other "TypeError")

/-- The tests of M3 on one tainted ancestor: the declaration and the payload of its source. -/
def Snapshot.substitutable (s : Snapshot) (containment : String) (tainted : NodeId) :
    Except Exc (Option (NodeId × SubstituteDeclaration × Payload)) :=
  match Keyed.lookup SubstituteDeclaration.targetNodeId s.substitutes tainted with
  | none => .ok none
  | some d =>
    match d.predates containment with
    | .error e => .error e
    | .ok predates =>
      if predates = true ∧ d.substituteSourceId ≠ "" ∧ d.substituteSourceId ∉ s.ledger then
        .ok ((Keyed.lookup Prod.fst s.dag d.substituteSourceId).map fun n => (tainted, d, n.2))
      else .ok none

/-- `clean_parents`, with the fallback to the initial root. -/
def Snapshot.cleanParents (s : Snapshot) (x : NodeId) : List NodeId :=
  match (s.parentsOf x).filter (· ∉ s.ledger) with
  | [] => ["clean-parent-1"]
  | ps => ps

/-- What `_attempt_safe_continuity` reports. -/
structure ContinuityResults where
  enabled : Bool
  checkpointReplays : List (NodeId × NodeId × String × String) := []
  substitutions : List (NodeId × NodeId × NodeId × String) := []
  escalations : List NodeId := []
  deriving DecidableEq

/-- The record both mechanisms emit: a new identity, signed with a new key. -/
def continuityPayload (id key signature token containment timestamp : String)
    (content : List (String × Json)) (parents : List ParentCommitment) (weight : ℚ) : Payload :=
  { payloadId := id
    nodeType := some .standard
    timestampUtc := some timestamp
    stateContent := content
    contentDigest := some (contentHash g.env content)
    agentSignature := some signature
    signatureAlgorithm := some "ECDSA-P256-SHA256"
    ephemeralNhi := some { identityId := some key, sessionToken := some token,
                           expiresAtUtc := some "2099-01-01T00:00:00Z" }
    declaredEvidenceBoundary := some ⟨"cont-" ++ id, containment, zeros64⟩
    parents := parents
    criticalityWeight := some weight }

/-- Commit the record under the shared lock and record the exposure; answers the exposure's id. -/
def expose (site : CommitSite) (p : Payload) (key status : String) (record : ExposureRecord) :
    Handler String := do
  setAdapterKey key
  commitShared site p
  let exposureId ← ext .uuid
  let at_ ← stampNow
  store (.recordContinuityExposure ⟨exposureId, p.payloadId, status, at_, true, record⟩)
  pure exposureId

/-- M4: replay a checkpoint. -/
def replayCheckpoint (s : Snapshot) (dep : Db.CriticalDependent) (containment : String)
    (cp : Checkpoint) : Handler (NodeId × String) := do
  let key ← ext .generateKey
  let uuid ← ext .uuid
  let replayId := "continuity-cp-" ++ uuid
  let content := [("checkpoint_replay", Json.obj cp.snapshotData),
    ("source_checkpoint", Json.str cp.checkpointId), ("original_target", Json.str cp.targetNodeId)]
  let signature ← ext (.sign key (contentHash g.env content))
  let timestamp ← stampNow
  let p := continuityPayload g replayId key signature "continuity_m4" containment timestamp content
    ((s.cleanParents dep.nodeId).map fun x =>
      { parentNodeId := x, parentContentHash := some es64 })
    dep.criticalityWeight
  let exposureId ← expose .checkpointReplay p key "CHECKPOINT_REPLAY"
    { sourceCheckpoint := some cp.checkpointId, criticalNode := some dep.nodeId,
      mechanism := some "M4" }
  pure (replayId, exposureId)

/-- M3: substitute a declared source. -/
def substitute (dep : Db.CriticalDependent) (containment : String) (tainted : NodeId)
    (d : SubstituteDeclaration) (source : Payload) : Handler (NodeId × String) := do
  let key ← ext .generateKey
  let uuid ← ext .uuid
  let subId := "continuity-sub-" ++ uuid
  let content := [("substituted_from", Json.str d.substituteSourceId),
    ("original_target", Json.str tainted), ("substitute_declaration", d.declaredAtUtc)]
  let signature ← ext (.sign key (contentHash g.env content))
  let timestamp ← stampNow
  let p := continuityPayload g subId key signature "continuity_m3" containment timestamp content
    [{ parentNodeId := d.substituteSourceId,
       parentContentHash := some (source.contentDigest.getD es64) }]
    dep.criticalityWeight
  let exposureId ← expose .substitution p key "BOUNDED_SUBSTITUTE"
    { substituteSource := some d.substituteSourceId, criticalNode := some dep.nodeId,
      mechanism := some "M3" }
  pure (subId, exposureId)

/-- One critical node: a checkpoint if one serves, else a substitute, else an escalation. -/
def serveCritical (s : Snapshot) (containment : String) (results : ContinuityResults)
    (dep : Db.CriticalDependent) : Handler ContinuityResults :=
  match s.checkpoints.find? (s.replayable dep containment) with
  | some cp => do
    let (replayId, exposureId) ← replayCheckpoint g s dep containment cp
    pure { results with checkpointReplays :=
      results.checkpointReplays ++ [(replayId, dep.nodeId, cp.checkpointId, exposureId)] }
  | none => do
    let order ← ext (.iterSet (s.relevantTainted dep))
    -- the loop over the set ends at the first substitute, or at the first time that is no text
    match ← Act.resume (order.findSomeM? (s.substitutable containment)) with
    | some (tainted, d, source) => do
      let (subId, exposureId) ← substitute g dep containment tainted d source
      pure { results with substitutions :=
        results.substitutions ++ [(subId, dep.nodeId, d.substituteSourceId, exposureId)] }
    | none => pure { results with escalations := results.escalations ++ [dep.nodeId] }

/-- `_attempt_safe_continuity`. -/
def attemptSafeContinuity (ids : List NodeId) (event : QuarantineEvent) :
    Handler ContinuityResults :=
  if !g.settings.continuityEnabled then pure { enabled := false }
  else do
    let deps ← store (.getCriticalDependents ids)
    if deps.isEmpty then pure { enabled := true }
    else do
      let checkpoints ← store .getCheckpoints
      let substitutes ← store .getSubstituteDeclarations
      let ledger ← store .getQuarantineLedger
      let dag ← store .getDag
      Act.fold (serveCritical g ⟨checkpoints, substitutes, ledger, dag⟩ event.detectedAtUtc) deps
        { enabled := true }

end GovernorGateway
