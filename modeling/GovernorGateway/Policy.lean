/-
# The admission policies

The three Rego packages of `policies/`, as functions of their input documents.  The gateway does
not evaluate them itself: it asks a policy engine (`Backend.lean`), and `rego` is what an engine
that evaluates the repository's policies answers.

Rego reads a missing field as UNDEFINED, which makes the rule body fail; a `default` rule turns
that into `false`.
-/
import GovernorGateway.Sqlite.Tables

namespace GovernorGateway

/-- `integrity_input`. -/
structure IntegrityInput where
  writeRequest : Payload
  parentStatus : List ParentStatus

/-- `reintegration_input`, with its `candidate_submission` laid flat. -/
structure VerificationInput where
  newCandidateNodeId : NodeId
  targetReplacedNodeId : NodeId := "none"
  admissibleFrontierParentIds : List NodeId
  justification : Option Json
  quarantineSetQ : List NodeId
  authContext : Claims
  requestTimestampEpoch : Int
  verifierExecutionStatus : Json

inductive PolicyQuery where
  | combined (integrity : IntegrityInput) (verification : VerificationInput)
  | integrity (input : IntegrityInput)
  | verification (input : VerificationInput)

/-- What `evaluate_opa_policy` returns: the object of the combined policy, or a truth value. -/
inductive PolicyAnswer where
  | dict (allowStateWrite allowReintegration isIrreducible : Bool)
  | bool (b : Bool)
  deriving DecidableEq

namespace Policy

/-! ## 1. `gasc.governor.integrity` -/

/-- `declared_dependencies_resolved`. -/
def declaredDependenciesResolved (i : IntegrityInput) : Bool := i.parentStatus.all (·.exists)

/-- `any_parent_quarantined`. -/
def anyParentQuarantined (i : IntegrityInput) : Bool := i.parentStatus.any (·.quarantined)

/-- `allow_state_write`. -/
def allowStateWrite (i : IntegrityInput) : Bool :=
  declaredDependenciesResolved i && !anyParentQuarantined i &&
    (match i.writeRequest.declaredEvidenceBoundary with
     | none => false
     | some b => b.fixedAtUtc ≠ "")

/-! ## 2. `gasc.governor.verification` -/

/-- An expression in a rule body holds unless it is undefined or `false`. -/
def holds : Option Json → Bool
  | none => false
  | some (.bool b) => b
  | some _ => true

/-- `has_evaluative_planner_output`: of the four keys only `justification` is ever sent. -/
def hasEvaluativePlannerOutput (v : VerificationInput) : Bool := holds v.justification

/-- `frontier_contains_quarantined_ancestors`. -/
def frontierContainsQuarantinedAncestors (v : VerificationInput) : Bool :=
  v.admissibleFrontierParentIds.any (· ∈ v.quarantineSetQ)

/-- `v > n` in Rego's order of all values: `null` and booleans are below the numbers, strings,
arrays and objects above them. -/
def greater (v : Json) (n : Int) : Bool :=
  match v with
  | .null => false
  | .bool _ => false
  | .int m => n < m
  | .float q _ => (n : ℚ) < q
  | .str _ => true
  | .arr _ => true
  | .obj _ => true

/-- `value == "text"`. -/
def isText (s : String) : Option Json → Bool
  | some (.str t) => t = s
  | _ => false

/-- `value == true`. -/
def isTrue : Option Json → Bool
  | some (.bool b) => b
  | _ => false

/-- `ephemeral_identity_valid`. -/
def ephemeralIdentityValid (v : VerificationInput) : Bool :=
  isTrue v.authContext.isNhi &&
    (match v.authContext.expiresAtEpoch with
     | none => false
     | some e => greater e v.requestTimestampEpoch) &&
    isText "agent:state:reconstruct" v.authContext.scope

/-- `allow_reintegration`. -/
def allowReintegration (v : VerificationInput) : Bool :=
  !hasEvaluativePlannerOutput v && v.newCandidateNodeId ≠ v.targetReplacedNodeId &&
    !frontierContainsQuarantinedAncestors v && ephemeralIdentityValid v &&
    isText "PASSED" (some v.verifierExecutionStatus)

/-- `is_irreducible`. -/
def isIrreducible (v : VerificationInput) : Bool :=
  frontierContainsQuarantinedAncestors v ||
    isText "FAILED_UNRESOLVABLE_DEPENDENCY" (some v.verifierExecutionStatus)

/-! ## 3. The engine -/

/-- The value of the query under the repository's policies. -/
def rego : PolicyQuery → PolicyAnswer
  | .combined i v => .dict (allowStateWrite i) (allowReintegration v) (isIrreducible v)
  | .integrity i => .bool (allowStateWrite i)
  | .verification v => .bool (allowReintegration v)

/-- A write that the integrity policy allows has no quarantined parent. -/
theorem not_quarantined_of_allowStateWrite {i : IntegrityInput} (h : allowStateWrite i = true) :
    ∀ s ∈ i.parentStatus, s.exists = true ∧ s.quarantined = false := by
  simp only [allowStateWrite, declaredDependenciesResolved, anyParentQuarantined, Bool.and_eq_true,
    List.all_eq_true, Bool.not_eq_true', List.any_eq_false, Bool.not_eq_true] at h
  exact fun s hs => ⟨h.1.1 s hs, h.1.2 s hs⟩

end Policy

end GovernorGateway
