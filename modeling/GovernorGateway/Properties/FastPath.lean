/-
# One policy call or two

`evaluate_admission` asks for the combined package first and falls back to the two separate ones.
Here it is over the documents that are sent: the payload and the claims are JSON objects, and the
list of parents and the two maps are whatever the caller has.

* `fast_path_eq_slow_path`: where the engine does not fail, the combined package and the two
  separate ones lead to one decision, whichever transport each is reached by.
* `evaluateAdmission_decides`: that decision is the one the handlers of this development come to,
  whose policies are functions of typed records.
-/
import GovernorGateway.Policy.Transports
import GovernorGateway.Semantics.World

namespace GovernorGateway

open Effects Rego

/-! ## 1. `evaluate_admission` over documents -/

/-- `payload["state_content"]["justification"]`, if it is there. -/
def justificationOf (payload : List (String × Json)) : Except Exc (Option Json) := do
  let content := (Json.find? payload "state_content").getD (.obj [])
  if ← pyContains "justification" content then
    let j ← pyItem content "justification"
    pure (some j)
  else pure none

/-- `integrity_input`. -/
def integrityDocument (payload : List (String × Json)) (parentIds : List NodeId)
    (exists_ quarantined : NodeId → Bool) : Json :=
  .obj [("write_request", .obj payload),
    ("parent_status", .arr (parentIds.map fun x => .obj
      [("parent_node_id", .str x), ("exists", .bool (exists_ x)),
        ("quarantined", .bool (quarantined x))]))]

/-- `reintegration_input["candidate_submission"]`. -/
def candidateSubmission (payload : List (String × Json)) (parentIds : List NodeId)
    (justification : Option Json) : Json :=
  .obj ([("new_candidate_node_id", (Json.find? payload "payload_id").getD .null),
    ("target_replaced_node_id", .str "none"),
    ("admissible_frontier_parent_ids", .arr (parentIds.map .str))] ++
      (justification.map fun j => ("justification", j)).toList)

/-- `reintegration_input`. -/
def verificationDocument (payload : List (String × Json)) (parentIds : List NodeId)
    (quarantined : NodeId → Bool) (auth : List (String × Json)) (now : Int)
    (justification : Option Json) : Json :=
  .obj [("candidate_submission", candidateSubmission payload parentIds justification),
    ("quarantine_set_Q", .arr ((parentIds.filter quarantined).map .str)),
    ("auth_context", .obj auth),
    ("request_timestamp_epoch", .int now),
    ("verifier_execution_status",
      (Json.find? auth "verifier_execution_status").getD (.str "PENDING"))]

/-- Both inputs, or what raises on the way to them. -/
def policyInputs (payload : List (String × Json)) (parentIds : List NodeId)
    (exists_ quarantined : NodeId → Bool) (auth : List (String × Json)) (now : Int) :
    Except Exc (Json × Json) := do
  let justification ← justificationOf payload
  pure (integrityDocument payload parentIds exists_ quarantined,
    verificationDocument payload parentIds quarantined auth now justification)

/-- What is answered to a write the integrity policy does not allow. -/
def refusal (parentIds : List NodeId) (quarantined : NodeId → Bool) : Decision :=
  match parentIds.filter quarantined with
  | [] => .lineageInvalid
  | x :: _ => .taintedParent x

section Evaluate

variable (opa : PolicyCall → Json → Except Exc Json) (parentIds : List NodeId)
  (quarantined : NodeId → Bool)

/-- The two calls in sequence. -/
def decideSequentially (inputs : Json × Json) : Except Exc Decision := do
  let integrity ← opa .integrity inputs.1
  if !integrity.truthy then pure (refusal parentIds quarantined)
  else
    let reintegration ← opa .verification inputs.2
    if !reintegration.truthy then pure .verificationFailed else pure .admitted

/-- The combined call, and the two others where it gives no object. -/
def decideCombined (inputs : Json × Json) : Except Exc Decision :=
  match opa .admission (Admission.nest inputs.1 inputs.2) with
  | .ok (.obj fields) =>
    if !((Json.find? fields "allow_state_write").getD (.bool false)).truthy then
      .ok (refusal parentIds quarantined)
    else if !((Json.find? fields "allow_reintegration").getD (.bool false)).truthy then
      .ok .verificationFailed
    else .ok .admitted
  | .ok _ => decideSequentially opa parentIds quarantined inputs
  | .error (.policy _) => decideSequentially opa parentIds quarantined inputs
  | .error e => .error e

end Evaluate

/-- The decision, in terms of the two separate policies. -/
def decisionOf (K : Compound) (parentIds : List NodeId) (quarantined : NodeId → Bool)
    (inputs : Json × Json) : Decision :=
  if !Integrity.allowStateWrite K inputs.1 then refusal parentIds quarantined
  else if !Verification.allowReintegration K inputs.2 then .verificationFailed
  else .admitted

/-! ## 2. One decision -/

section Decide

variable {K : Compound} {e : Engine} {t : Transport} {inputs : Json × Json}

theorem decideSequentially_eq (he : e.Sound K) (parentIds : List NodeId)
    (quarantined : NodeId → Bool) (hintegrity : ∃ r, e t .integrity inputs.1 = .ok r)
    (hverification : ∃ r, e t .verification inputs.2 = .ok r) :
    decideSequentially (e.opa t) parentIds quarantined inputs =
      .ok (decisionOf K parentIds quarantined inputs) := by
  obtain ⟨r, hr⟩ := hintegrity
  obtain ⟨s, hs⟩ := hverification
  obtain ⟨v, hv, rfl⟩ := e.opa_ok he hr
  obtain ⟨u, hu, rfl⟩ := e.opa_ok he hs
  simp only [decideSequentially, hv, hu, bind, Except.bind, Json.truthy, decisionOf]
  cases Integrity.allowStateWrite K inputs.1 with
  | false => rfl
  | true =>
    cases Verification.allowReintegration K inputs.2 with
    | false => rfl
    | true => rfl

theorem decideCombined_eq (he : e.Sound K) (parentIds : List NodeId)
    (quarantined : NodeId → Bool)
    (hcombined : ∃ r, e t .admission (Admission.nest inputs.1 inputs.2) = .ok r) :
    decideCombined (e.opa t) parentIds quarantined inputs =
      .ok (decisionOf K parentIds quarantined inputs) := by
  obtain ⟨r, hr⟩ := hcombined
  obtain ⟨v, hv, fields, rfl, hwrite, hreintegration⟩ := e.opa_ok he hr
  rw [Admission.allowStateWrite_eq] at hwrite
  rw [Admission.allowReintegration_eq] at hreintegration
  simp only [decideCombined, hv, hwrite, hreintegration, Option.getD_some, Json.truthy, decisionOf]
  cases Integrity.allowStateWrite K inputs.1 with
  | false => rfl
  | true =>
    cases Verification.allowReintegration K inputs.2 with
    | false => rfl
    | true => rfl

end Decide

/-- **The fast path decides as the slow path does.**  For any payload, parents, maps and claims,
where the engine answers the queries, the combined package over one transport and the two separate
packages over another lead to the same decision; and where the inputs cannot be formed, both raise
the same. -/
theorem fast_path_eq_slow_path {K : Compound} {e : Engine} (he : e.Sound K) (t t' : Transport)
    (payload : List (String × Json)) (parentIds : List NodeId) (exists_ quarantined : NodeId → Bool)
    (auth : List (String × Json)) (now : Int)
    (hanswers : ∀ i v, policyInputs payload parentIds exists_ quarantined auth now = .ok (i, v) →
      (∃ r, e t .admission (Admission.nest i v) = .ok r) ∧ (∃ r, e t' .integrity i = .ok r) ∧
        ∃ r, e t' .verification v = .ok r) :
    (policyInputs payload parentIds exists_ quarantined auth now >>=
        decideCombined (e.opa t) parentIds quarantined) =
      (policyInputs payload parentIds exists_ quarantined auth now).map
        (decisionOf K parentIds quarantined) ∧
    (policyInputs payload parentIds exists_ quarantined auth now >>=
        decideSequentially (e.opa t') parentIds quarantined) =
      (policyInputs payload parentIds exists_ quarantined auth now).map
        (decisionOf K parentIds quarantined) := by
  cases hinputs : policyInputs payload parentIds exists_ quarantined auth now with
  | error x => exact ⟨rfl, rfl⟩
  | ok inputs =>
    obtain ⟨hcombined, hintegrity, hverification⟩ := hanswers inputs.1 inputs.2 hinputs
    exact ⟨decideCombined_eq he parentIds quarantined hcombined,
      decideSequentially_eq he parentIds quarantined hintegrity hverification⟩

/-! ## 3. An engine -/

/-- The documented response without anything around it. -/
def Engine.reference (K : Compound) : Engine := fun t c input =>
  match c.value K input with
  | none => .error (.unreachable "")
  | some v =>
    match t with
    | .wasm => .ok (.arr [.obj [("result", v)]])
    | .rest => .ok (.obj [("result", .obj (c.document K input))])
    | .bundle | .subprocess =>
      .ok (.obj [("result", .arr [.obj [("expressions", .arr [.obj [("value", v)]])]])])

theorem Engine.reference_sound (K : Compound) : (Engine.reference K).Sound K := by
  intro t c input r hr
  obtain ⟨v, hv⟩ : ∃ v, c.value K input = some v := by cases c <;> exact ⟨_, rfl⟩
  simp only [Engine.reference, hv] at hr
  cases t with
  | wasm =>
    obtain rfl := Except.ok.inj hr
    simp only [Transport.Documents, WasmShape, hv]
    exact Or.inl ⟨_, _, rfl, rfl⟩
  | rest =>
    obtain rfl := Except.ok.inj hr
    exact ⟨_, _, rfl, rfl, fun _ _ => rfl⟩
  | bundle | subprocess =>
    obtain rfl := Except.ok.inj hr
    simp only [Transport.Documents, EvalShape, hv]
    exact ⟨_, rfl, _, _, _, _, rfl, rfl, rfl⟩

/-- An engine that compares arrays and objects with nothing. -/
def plainEngine : Compound where
  same := fun _ _ => false
  above := fun _ _ => false

/-- A payload whose boundary is fixed. -/
def boundedPayload : List (String × Json) :=
  [("payload_id", .str "node-1"),
    ("declared_evidence_boundary", .obj [("fixed_at_utc", .str "2025-10-27T10:00:00Z")])]

/-- The claims of an agent that may reconstruct. -/
def agentClaims : List (String × Json) :=
  [("is_nhi", .bool true), ("expires_at_epoch", .int 4102444800),
    ("scope", .str "agent:state:reconstruct"), ("verifier_execution_status", .str "PASSED")]

/-- A clean write is admitted by the server's combined package and by the module's separate ones. -/
theorem fast_path_admits :
    (policyInputs boundedPayload ["clean-parent-1"] (fun _ => true) (fun _ => false) agentClaims 0 >>=
        decideCombined ((Engine.reference plainEngine).opa .rest) ["clean-parent-1"]
          fun _ => false) = .ok .admitted ∧
    (policyInputs boundedPayload ["clean-parent-1"] (fun _ => true) (fun _ => false) agentClaims 0 >>=
        decideSequentially ((Engine.reference plainEngine).opa .wasm) ["clean-parent-1"]
          fun _ => false) = .ok .admitted := by
  obtain ⟨hfast, hslow⟩ := fast_path_eq_slow_path (Engine.reference_sound plainEngine) .rest .wasm
    boundedPayload ["clean-parent-1"] (fun _ => true) (fun _ => false) agentClaims 0
    (fun _ _ _ => ⟨⟨_, rfl⟩, ⟨_, rfl⟩, _, rfl⟩)
  have hdecision : (policyInputs boundedPayload ["clean-parent-1"] (fun _ => true) (fun _ => false)
      agentClaims 0).map (decisionOf plainEngine ["clean-parent-1"] fun _ => false) =
      .ok .admitted := by
    decide +kernel
  exact ⟨hfast.trans hdecision, hslow.trans hdecision⟩

/-! ## 4. The typed policies -/

/-- The payload is what this development keeps of the document. -/
structure Payload.ReadFrom (p : Payload) (payload : List (String × Json)) : Prop where
  id : Json.find? payload "payload_id" = some (.str p.payloadId)
  content : Json.find? payload "state_content" = some (.obj p.stateContent)
  boundary : ref (.obj payload) ["declared_evidence_boundary", "fixed_at_utc"] =
    p.declaredEvidenceBoundary.map fun b => .str b.fixedAtUtc

/-- The claims are what this development keeps of the decoded token. -/
structure Claims.ReadFrom (c : Claims) (auth : List (String × Json)) : Prop where
  isNhi : Json.find? auth "is_nhi" = c.isNhi
  expires : Json.find? auth "expires_at_epoch" = c.expiresAtEpoch
  scope : Json.find? auth "scope" = c.scope
  status : Json.find? auth "verifier_execution_status" = c.verifierExecutionStatus

section Typed

variable {K : Compound} {p : Payload} {payload : List (String × Json)} {c : Claims}
  {auth : List (String × Json)} {exists_ quarantined : NodeId → Bool}

theorem eq_text (t : Term) (s : String) : eq K t (some (.str s)) = Policy.isText s t := by
  cases t with
  | none => rfl
  | some v => exact (same_str_right v s).trans (by cases v <;> rfl)

theorem eq_true (t : Term) : eq K t (some (.bool true)) = Policy.isTrue t := by
  cases t with
  | none => rfl
  | some v => exact (same_true_right v).trans (by cases v <;> rfl)

theorem gt_int (t : Term) (n : Int) :
    gt K t (some (.int n)) = match t with
      | none => false
      | some v => Policy.greater v n := by
  cases t with
  | none => rfl
  | some v =>
    rw [gt, above_int_right]
    cases v <;> rfl

/-- **The integrity package** on the document is the typed policy on the record. -/
theorem allowStateWrite_typed (hp : p.ReadFrom payload) :
    Integrity.allowStateWrite K (integrityDocument payload p.parentIds exists_ quarantined) =
      Policy.allowStateWrite (integrityInput p exists_ quarantined) := by
  have hstatus : ∀ body : Json → Bool,
      (every (ref (integrityDocument payload p.parentIds exists_ quarantined) ["parent_status"]) body =
        p.parentIds.all fun x => body (.obj [("parent_node_id", .str x), ("exists", .bool (exists_ x)),
          ("quarantined", .bool (quarantined x))])) ∧
      someIn (ref (integrityDocument payload p.parentIds exists_ quarantined) ["parent_status"]) body =
        p.parentIds.any fun x => body (.obj [("parent_node_id", .str x), ("exists", .bool (exists_ x)),
          ("quarantined", .bool (quarantined x))]) :=
    fun body => ⟨List.all_map, List.any_map⟩
  have hboundary : ref (integrityDocument payload p.parentIds exists_ quarantined)
      ["write_request", "declared_evidence_boundary", "fixed_at_utc"] =
      p.declaredEvidenceBoundary.map fun b => .str b.fixedAtUtc :=
    (ref_cons rfl _).trans hp.boundary
  have hexists : Integrity.declaredDependenciesResolved K
      (integrityDocument payload p.parentIds exists_ quarantined) =
      Policy.declaredDependenciesResolved (integrityInput p exists_ quarantined) := by
    rw [Integrity.declaredDependenciesResolved, (hstatus _).1, Policy.declaredDependenciesResolved,
      integrityInput, parentStatus, List.all_map]
    refine congrArg _ (funext fun x => ?_)
    exact eq_true _
  have hquarantined : Integrity.anyParentQuarantined K
      (integrityDocument payload p.parentIds exists_ quarantined) =
      Policy.anyParentQuarantined (integrityInput p exists_ quarantined) := by
    rw [Integrity.anyParentQuarantined, (hstatus _).2, Policy.anyParentQuarantined,
      integrityInput, parentStatus, List.any_map]
    refine congrArg _ (funext fun x => ?_)
    exact eq_true _
  rw [Integrity.allowStateWrite, Integrity.parentsAreClean, hexists, hquarantined, hboundary,
    Policy.allowStateWrite]
  refine congrArg _ ?_
  rw [integrityInput]
  cases p.declaredEvidenceBoundary with
  | none => rfl
  | some b => simp [ne]

/-- **The verification package** on the document is the typed policy on the record. -/
theorem allowReintegration_typed (hp : p.ReadFrom payload) (hc : c.ReadFrom auth) (now : Time) :
    Verification.allowReintegration K (verificationDocument payload p.parentIds quarantined auth
        (Clock.epoch now) (Json.find? p.stateContent "justification")) =
      Policy.allowReintegration (verificationInput p quarantined c now) := by
  have hplanner : Verification.hasEvaluativePlannerOutput (verificationDocument payload p.parentIds
      quarantined auth (Clock.epoch now) (Json.find? p.stateContent "justification")) =
      Policy.hasEvaluativePlannerOutput (verificationInput p quarantined c now) := by
    rw [Policy.hasEvaluativePlannerOutput, verificationInput]
    cases Json.find? p.stateContent "justification" with
    | none => rfl
    | some j =>
      have hj : Verification.hasEvaluativePlannerOutput (verificationDocument payload p.parentIds
          quarantined auth (Clock.epoch now) (some j)) =
          (false || (holds (some j) || (false || (false || false)))) := rfl
      rw [hj]
      simp only [Bool.false_or, Bool.or_false]
      cases j <;> rfl
  have hfresh : Verification.freshIdentityValid K (verificationDocument payload p.parentIds
      quarantined auth (Clock.epoch now) (Json.find? p.stateContent "justification")) =
      decide (p.payloadId ≠ "none") := by
    have hid : ref (verificationDocument payload p.parentIds quarantined auth (Clock.epoch now)
        (Json.find? p.stateContent "justification"))
        ["candidate_submission", "new_candidate_node_id"] = some (.str p.payloadId) := by
      change some ((Json.find? payload "payload_id").getD .null) = _
      rw [hp.id]
      rfl
    rw [Verification.freshIdentityValid, hid]
    change (!same K (.str p.payloadId) (.str "none")) = _
    simp
  have hfrontier : Verification.frontierContainsQuarantinedAncestors K (verificationDocument payload
      p.parentIds quarantined auth (Clock.epoch now) (Json.find? p.stateContent "justification")) =
      Policy.frontierContainsQuarantinedAncestors (verificationInput p quarantined c now) := by
    change ((p.parentIds.map Json.str).any fun x =>
      member K x (some (.arr ((p.parentIds.filter quarantined).map .str)))) = _
    rw [List.any_map]
    refine congrArg _ (funext fun x => ?_)
    exact member_strs x _
  have hidentity : Verification.ephemeralIdentityValid K (verificationDocument payload p.parentIds
      quarantined auth (Clock.epoch now) (Json.find? p.stateContent "justification")) =
      Policy.ephemeralIdentityValid (verificationInput p quarantined c now) := by
    rw [Verification.ephemeralIdentityValid, eq_true, eq_text]
    change (Policy.isTrue (Json.find? auth "is_nhi") &&
      gt K (Json.find? auth "expires_at_epoch") (some (.int (Clock.epoch now))) &&
      Policy.isText "agent:state:reconstruct" (Json.find? auth "scope")) = _
    rw [gt_int, hc.isNhi, hc.expires, hc.scope, Policy.ephemeralIdentityValid, verificationInput]
    cases c.expiresAtEpoch <;> rfl
  have hstatus : ref (verificationDocument payload p.parentIds quarantined auth (Clock.epoch now)
      (Json.find? p.stateContent "justification")) ["verifier_execution_status"] =
      some (c.verifierExecutionStatus.getD (.str "PENDING")) := by
    change some ((Json.find? auth "verifier_execution_status").getD (.str "PENDING")) = _
    rw [hc.status]
  rw [Verification.allowReintegration, hplanner, hfresh, hfrontier, hidentity, hstatus, eq_text,
    Policy.allowReintegration]
  rfl

/-- The inputs of a payload with an object for its content can be formed. -/
theorem policyInputs_ok (hp : p.ReadFrom payload) (now : Int) :
    policyInputs payload p.parentIds exists_ quarantined auth now =
      .ok (integrityDocument payload p.parentIds exists_ quarantined,
        verificationDocument payload p.parentIds quarantined auth now
          (Json.find? p.stateContent "justification")) := by
  have hj : justificationOf payload = .ok (Json.find? p.stateContent "justification") := by
    simp only [justificationOf, hp.content, Option.getD_some, pyContains, pyItem]
    cases Json.find? p.stateContent "justification" <;> rfl
  rw [policyInputs, hj]
  rfl

/-- **The handlers decide so.**  Where the engine evaluates the typed policies, `evaluateAdmission`
comes to the decision the packages make on the documents. -/
theorem evaluateAdmission_decides {g : Setup} {answers : Answers} {now : Time} (hp : p.ReadFrom payload)
    (hc : c.ReadFrom auth) (hclock : ∀ r, answers (.now .policy) r → r = .ok now)
    (hopa : ∀ q r, answers (.opa q) r → r = .ok (Policy.rego q)) (w : World) :
    Act.Sat (Step g answers) Trans.any (evaluateAdmission p exists_ quarantined c)
      (fun r w' => w' = w ∧ ∃ inputs,
        policyInputs payload p.parentIds exists_ quarantined auth (Clock.epoch now) = .ok inputs ∧
          r = .ok (decisionOf K p.parentIds quarantined inputs)) w := by
  have hdecision : decisionOf K p.parentIds quarantined
      (integrityDocument payload p.parentIds exists_ quarantined,
        verificationDocument payload p.parentIds quarantined auth (Clock.epoch now)
          (Json.find? p.stateContent "justification")) =
      if !Policy.allowStateWrite (integrityInput p exists_ quarantined) then
        integrityRefusal p quarantined
      else if !Policy.allowReintegration (verificationInput p quarantined c now) then
        .verificationFailed
      else .admitted := by
    rw [decisionOf, allowStateWrite_typed hp, allowReintegration_typed hp hc]
    rfl
  rw [evaluateAdmission, Act.sat_bind]
  rintro r w₁ ⟨hnow, rfl⟩
  obtain rfl := hclock r hnow
  refine ⟨trivial, ?_⟩
  change Act.Sat _ _ (Act.attempt _ >>= _) _ _
  rw [Act.sat_bind, Act.sat_attempt]
  rintro r w₂ ⟨hrego, rfl⟩
  obtain rfl := hopa _ r hrego
  refine ⟨trivial, ?_⟩
  have hinputs : policyInputs payload p.parentIds exists_ quarantined auth (Clock.epoch now) =
      .ok _ := policyInputs_ok hp _
  simp only [onOk_ok, Policy.rego]
  cases hw : Policy.allowStateWrite (integrityInput p exists_ quarantined) with
  | false =>
    rw [hw] at hdecision
    exact ⟨rfl, _, hinputs, congrArg _ hdecision.symm⟩
  | true =>
    rw [hw] at hdecision
    cases hr : Policy.allowReintegration (verificationInput p quarantined c now) with
    | false =>
      rw [hr] at hdecision
      exact ⟨rfl, _, hinputs, congrArg _ hdecision.symm⟩
    | true =>
      rw [hr] at hdecision
      exact ⟨rfl, _, hinputs, congrArg _ hdecision.symm⟩

end Typed

end GovernorGateway
