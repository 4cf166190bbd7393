/-
# The three Rego packages

`policies/gasc_quarantine_integrity.rego`, `policies/gasc_verification_separation.rego` and
`policies/gasc_admission_combined.rego`, each a function of its own input document.  The third one
is a copy of the rules of the other two, one level deeper in its input.

`Admission.allowStateWrite_eq` and `Admission.allowReintegration_eq`: on an input that nests the
other two, the copies are worth what the originals are.
-/
import GovernorGateway.Policy.Rego

namespace GovernorGateway

open Rego

/-- The value of a rule without `default`, as an entry of its package: it is there when it is
true. -/
def entryIf (name : String) (b : Bool) : List (String × Json) :=
  if b then [(name, .bool true)] else []

/-! ## 1. `gasc.governor.integrity` -/

namespace Integrity

variable (K : Compound) (input : Json)

def declaredDependenciesResolved : Bool :=
  every (ref input ["parent_status"]) fun p => eq K (ref p ["exists"]) (some (.bool true))

def anyParentQuarantined : Bool :=
  someIn (ref input ["parent_status"]) fun p => eq K (ref p ["quarantined"]) (some (.bool true))

def parentsAreClean : Bool := !anyParentQuarantined K input

def allowStateWrite : Bool :=
  declaredDependenciesResolved K input && parentsAreClean K input &&
    ne K (ref input ["write_request", "declared_evidence_boundary", "fixed_at_utc"]) (some (.str ""))

def monotonicityPreserved : Bool :=
  every (ref input ["quarantine_set_Q_current"]) fun x =>
    member K x (ref input ["quarantine_set_Q_proposed"])

/-- `data.gasc.governor.integrity`. -/
def document : List (String × Json) :=
  [("allow_state_write", .bool (allowStateWrite K input))] ++
    entryIf "declared_dependencies_resolved" (declaredDependenciesResolved K input) ++
    entryIf "any_parent_quarantined" (anyParentQuarantined K input) ++
    entryIf "parents_are_clean" (parentsAreClean K input) ++
    entryIf "monotonicity_preserved" (monotonicityPreserved K input)

end Integrity

/-! ## 2. `gasc.governor.verification` -/

/-- The keys that count as planner output. -/
def plannerKeys : List String :=
  ["planner_score", "justification", "confidence_rating", "reasoning_tokens"]

namespace Verification

variable (K : Compound) (input : Json)

def hasEvaluativePlannerOutput : Bool :=
  plannerKeys.any fun key => holds (ref input ["candidate_submission", key])

def freshIdentityValid : Bool :=
  ne K (ref input ["candidate_submission", "new_candidate_node_id"])
    (ref input ["candidate_submission", "target_replaced_node_id"])

def frontierContainsQuarantinedAncestors : Bool :=
  someIn (ref input ["candidate_submission", "admissible_frontier_parent_ids"]) fun x =>
    member K x (ref input ["quarantine_set_Q"])

def ephemeralIdentityValid : Bool :=
  eq K (ref input ["auth_context", "is_nhi"]) (some (.bool true)) &&
    gt K (ref input ["auth_context", "expires_at_epoch"]) (ref input ["request_timestamp_epoch"]) &&
    eq K (ref input ["auth_context", "scope"]) (some (.str "agent:state:reconstruct"))

def allowReintegration : Bool :=
  !hasEvaluativePlannerOutput input && freshIdentityValid K input &&
    !frontierContainsQuarantinedAncestors K input && ephemeralIdentityValid K input &&
    eq K (ref input ["verifier_execution_status"]) (some (.str "PASSED"))

def isIrreducible : Bool :=
  frontierContainsQuarantinedAncestors K input ||
    eq K (ref input ["verifier_execution_status"]) (some (.str "FAILED_UNRESOLVABLE_DEPENDENCY"))

/-- `data.gasc.governor.verification`. -/
def document : List (String × Json) :=
  [("allow_reintegration", .bool (allowReintegration K input)),
    ("is_irreducible", .bool (isIrreducible K input))] ++
    entryIf "has_evaluative_planner_output" (hasEvaluativePlannerOutput input) ++
    entryIf "fresh_identity_valid" (freshIdentityValid K input) ++
    entryIf "frontier_contains_quarantined_ancestors"
      (frontierContainsQuarantinedAncestors K input) ++
    entryIf "ephemeral_identity_valid" (ephemeralIdentityValid K input)

end Verification

/-! ## 3. `gasc.governor.admission` -/

namespace Admission

section Rules

variable (K : Compound) (input : Json)

def declaredDependenciesResolved : Bool :=
  every (ref input ["integrity", "parent_status"]) fun p =>
    eq K (ref p ["exists"]) (some (.bool true))

def anyParentQuarantined : Bool :=
  someIn (ref input ["integrity", "parent_status"]) fun p =>
    eq K (ref p ["quarantined"]) (some (.bool true))

def parentsAreClean : Bool := !anyParentQuarantined K input

def allowStateWrite : Bool :=
  declaredDependenciesResolved K input && parentsAreClean K input &&
    ne K (ref input ["integrity", "write_request", "declared_evidence_boundary", "fixed_at_utc"])
      (some (.str ""))

def hasEvaluativePlannerOutput : Bool :=
  plannerKeys.any fun key => holds (ref input ["verification", "candidate_submission", key])

def freshIdentityValid : Bool :=
  ne K (ref input ["verification", "candidate_submission", "new_candidate_node_id"])
    (ref input ["verification", "candidate_submission", "target_replaced_node_id"])

def frontierContainsQuarantinedAncestors : Bool :=
  someIn (ref input ["verification", "candidate_submission", "admissible_frontier_parent_ids"])
    fun x => member K x (ref input ["verification", "quarantine_set_Q"])

def ephemeralIdentityValid : Bool :=
  eq K (ref input ["verification", "auth_context", "is_nhi"]) (some (.bool true)) &&
    gt K (ref input ["verification", "auth_context", "expires_at_epoch"])
      (ref input ["verification", "request_timestamp_epoch"]) &&
    eq K (ref input ["verification", "auth_context", "scope"])
      (some (.str "agent:state:reconstruct"))

def allowReintegration : Bool :=
  !hasEvaluativePlannerOutput input && freshIdentityValid K input &&
    !frontierContainsQuarantinedAncestors K input && ephemeralIdentityValid K input &&
    eq K (ref input ["verification", "verifier_execution_status"]) (some (.str "PASSED"))

def isIrreducible : Bool :=
  frontierContainsQuarantinedAncestors K input ||
    eq K (ref input ["verification", "verifier_execution_status"])
      (some (.str "FAILED_UNRESOLVABLE_DEPENDENCY"))

/-- The object of the three defaulted rules. -/
def result : List (String × Json) :=
  [("allow_state_write", .bool (allowStateWrite K input)),
    ("allow_reintegration", .bool (allowReintegration K input)),
    ("is_irreducible", .bool (isIrreducible K input))]

/-- `data.gasc.governor.admission`. -/
def document : List (String × Json) :=
  result K input ++ [("result", .obj (result K input))] ++
    entryIf "declared_dependencies_resolved" (declaredDependenciesResolved K input) ++
    entryIf "any_parent_quarantined" (anyParentQuarantined K input) ++
    entryIf "parents_are_clean" (parentsAreClean K input) ++
    entryIf "has_evaluative_planner_output" (hasEvaluativePlannerOutput input) ++
    entryIf "fresh_identity_valid" (freshIdentityValid K input) ++
    entryIf "frontier_contains_quarantined_ancestors"
      (frontierContainsQuarantinedAncestors K input) ++
    entryIf "ephemeral_identity_valid" (ephemeralIdentityValid K input)

end Rules

/-- `combined_input`. -/
def nest (integrity verification : Json) : Json :=
  .obj [("integrity", integrity), ("verification", verification)]

variable {K : Compound} (i v : Json)

@[simp] theorem ref_nest_integrity (path : List String) :
    ref (nest i v) ("integrity" :: path) = ref i path :=
  ref_cons rfl path

@[simp] theorem ref_nest_verification (path : List String) :
    ref (nest i v) ("verification" :: path) = ref v path :=
  ref_cons rfl path

/-! Rule by rule, the copies read the same values as the originals. -/

theorem declaredDependenciesResolved_eq :
    declaredDependenciesResolved K (nest i v) = Integrity.declaredDependenciesResolved K i := by
  simp only [declaredDependenciesResolved, Integrity.declaredDependenciesResolved, ref_nest_integrity]

theorem parentsAreClean_eq : parentsAreClean K (nest i v) = Integrity.parentsAreClean K i := by
  simp only [parentsAreClean, Integrity.parentsAreClean, anyParentQuarantined,
    Integrity.anyParentQuarantined, ref_nest_integrity]

theorem hasEvaluativePlannerOutput_eq :
    hasEvaluativePlannerOutput (nest i v) = Verification.hasEvaluativePlannerOutput v := by
  simp only [hasEvaluativePlannerOutput, Verification.hasEvaluativePlannerOutput,
    ref_nest_verification]

theorem frontierContainsQuarantinedAncestors_eq :
    frontierContainsQuarantinedAncestors K (nest i v) =
      Verification.frontierContainsQuarantinedAncestors K v := by
  simp only [frontierContainsQuarantinedAncestors,
    Verification.frontierContainsQuarantinedAncestors, ref_nest_verification]

theorem ephemeralIdentityValid_eq :
    ephemeralIdentityValid K (nest i v) = Verification.ephemeralIdentityValid K v := by
  simp only [ephemeralIdentityValid, Verification.ephemeralIdentityValid, ref_nest_verification]

/-- **The integrity copy.** -/
theorem allowStateWrite_eq : allowStateWrite K (nest i v) = Integrity.allowStateWrite K i := by
  rw [allowStateWrite, declaredDependenciesResolved_eq, parentsAreClean_eq, ref_nest_integrity,
    Integrity.allowStateWrite]

/-- **The verification copy.** -/
theorem allowReintegration_eq :
    allowReintegration K (nest i v) = Verification.allowReintegration K v := by
  rw [allowReintegration, hasEvaluativePlannerOutput_eq, frontierContainsQuarantinedAncestors_eq,
    ephemeralIdentityValid_eq, ref_nest_verification, freshIdentityValid, ref_nest_verification,
    ref_nest_verification, Verification.allowReintegration, Verification.freshIdentityValid]

end Admission

/-! ## 4. The three queries -/

inductive PolicyCall where
  | admission
  | integrity
  | verification
  deriving DecidableEq

namespace PolicyCall

/-- The package, as the REST endpoint names it. -/
def package : PolicyCall → String
  | admission => "gasc/governor/admission"
  | integrity => "gasc/governor/integrity"
  | verification => "gasc/governor/verification"

/-- The query, as the other transports name it. -/
def query : PolicyCall → String
  | admission => "data.gasc.governor.admission.result"
  | integrity => "data.gasc.governor.integrity.allow_state_write"
  | verification => "data.gasc.governor.verification.allow_reintegration"

variable (K : Compound) (input : Json)

/-- The value of the query. -/
def value : PolicyCall → Term
  | admission => some (.obj (Admission.result K input))
  | integrity => some (.bool (Integrity.allowStateWrite K input))
  | verification => some (.bool (Verification.allowReintegration K input))

/-- The document of the package. -/
def document : PolicyCall → List (String × Json)
  | admission => Admission.document K input
  | integrity => Integrity.document K input
  | verification => Verification.document K input

end PolicyCall

end GovernorGateway
