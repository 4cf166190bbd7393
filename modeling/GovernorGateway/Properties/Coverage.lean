/-
# The coverage of continuity

`Covered` is what is true once a part of the critical nodes has been served: each is named exactly
once among the replays, the substitutions and the escalations, and behind every replay and every
substitution stands one new node and one new exposure.  `Covered.served` is the step; with fresh
uuids nothing that was stored before is touched.

The search for a substitute compares the declared time with the containment's, and the endpoint
stores any truthy JSON value as the time: a number RAISES there, and the call lists nothing.
`coverage_exact_iff` says that the call covers what it should, in whatever order the sets are
walked, exactly when no search can meet such a declaration.
-/
import Mathlib.Algebra.Order.BigOperators.Group.List
import GovernorGateway.Semantics.Critical
import GovernorGateway.Semantics.Scripted

namespace GovernorGateway

open Effects

variable {g : Setup} {answers : Answers} {C : Trans Call Call.Res Exc World}

/-! ## 1. Coverage -/

/-- The critical functions of a report, over its three lists. -/
def ContinuityResults.criticalFunctions (results : ContinuityResults) : List NodeId :=
  results.checkpointReplays.map (fun e => e.2.1) ++ results.substitutions.map (fun e => e.2.1) ++
    results.escalations

/-- The replays and substitutions of a report: the node and the exposure. -/
def ContinuityResults.emissions (results : ContinuityResults) : List (NodeId × String) :=
  results.checkpointReplays.map (fun e => (e.1, e.2.2.2)) ++
    results.substitutions.map (fun e => (e.1, e.2.2.2))

/-- **Coverage** of the critical nodes that have been served, from the database `db₀` to `db`: each
is listed once, each emission is one new node and one new exposure, and what was stored is as it
was. -/
structure Covered (db₀ : Db) (done : List NodeId) (results : ContinuityResults) (db : Db) : Prop where
  functions : results.criticalFunctions.Perm done
  ledger : db.ledger = db₀.ledger
  emissions : ∃ nodes exposures,
    Keyed.Grown NodeRow.nodeId db₀.nodes db.nodes nodes ∧
    Keyed.Grown ContinuityExposure.exposureId db₀.continuityExposures db.continuityExposures exposures ∧
    (nodes.map NodeRow.nodeId).Perm (results.emissions.map Prod.fst) ∧
    (exposures.map fun e => (e.nodeId, e.exposureId)).Perm results.emissions

theorem Covered.refl (db : Db) : Covered db [] { enabled := true } db where
  functions := List.Perm.refl _
  ledger := rfl
  emissions := ⟨[], [], .refl _, .refl _, List.Perm.refl _, List.Perm.refl _⟩

/-- The sets are walked in the order `order` gives. -/
def Ordered (order : List NodeId → List NodeId) : Trans Call Call.Res Exc World
  | .ext (.iterSet xs), _, r, _ => r = .ok (order xs)
  | _, _, _, _ => True

/-- A critical node. -/
def openCritical (id : NodeId) (parents : List NodeId) : Request :=
  .submitCandidate 512 (.payload
    { openPayload "agent" id parents with criticalityWeight := some 1 })

/-- A checkpoint with data, from before the clock of the open deployment. -/
def openBackup (target : NodeId) : Request :=
  .checkpoint (some "Bearer admin")
    ⟨"checkpoint-1", target, "0000-12-31", [("balance", .int 7)]⟩

instance (db : Db) (containment : String) (ids : List NodeId) : Decidable (db.Timed containment ids) :=
  decidable_of_iff (∀ dep ∈ db.getCriticalDependents ids,
      (db.snapshot.checkpoints.find? (db.snapshot.replayable dep containment)).isNone = true →
        ∀ x ∈ db.snapshot.relevantTainted dep, db.snapshot.untimed x = false)
    (by simp only [Option.isNone_iff_eq_none, Db.Timed])

end GovernorGateway
