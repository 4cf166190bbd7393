/-
# One critical node after the other

`_attempt_safe_continuity` serves the critical nodes in the order of the graph: the first checkpoint
that passes its tests is replayed (M4), else the first declared substitute that passes its own is
emitted (M3), else the node is escalated.  `Served` says what each of the three does to the report
and to the database.

The loop can END EARLY.  The declared time of a substitute is any truthy JSON value, and a value
that is no text cannot be compared with the containment's time: the search raises (`Failed`), with
it the whole call, and the nodes after it are not looked at.  `attemptSafeContinuity_at` is the rule
for the loop with both ends.
-/
import GovernorGateway.Semantics.World

namespace GovernorGateway

open Effects

variable {g : Setup} {answers : Answers} {C : Trans Call Call.Res Exc World}

/-! ## 1. One emission -/

/-- The search for a substitute among the tainted ancestors of a critical node, in an order in which
the set of them has been walked, and how it has ended. -/
def Searched (C : Trans Call Call.Res Exc World) (snap : Snapshot) (containment : String)
    (dep : Db.CriticalDependent)
    (outcome : Except Exc (Option (NodeId × SubstituteDeclaration × Payload))) : Prop :=
  ∃ order w, List.Perm order (snap.relevantTainted dep) ∧
    C (.ext (.iterSet (snap.relevantTainted dep))) w (.ok order) w ∧
    order.findSomeM? (snap.substitutable containment) = outcome

/-- No checkpoint serves the node, and the search for a substitute has raised. -/
structure Failed (C : Trans Call Call.Res Exc World) (snap : Snapshot) (containment : String)
    (dep : Db.CriticalDependent) : Prop where
  unserved : snap.checkpoints.find? (snap.replayable dep containment) = none
  search : ∃ e, Searched C snap containment dep (.error e)

/-- A search that has failed has met a declaration whose time is no text. -/
theorem Failed.untimed {snap : Snapshot} {containment : String} {dep : Db.CriticalDependent}
    (h : Failed C snap containment dep) :
    ∃ x ∈ snap.relevantTainted dep, snap.untimed x = true := by
  obtain ⟨e, order, w, hperm, -, hsearch⟩ := h.search
  obtain ⟨x, hx, hraise⟩ := exists_of_findSomeM?_error hsearch
  exact ⟨x, hperm.mem_iff.mp hx, Snapshot.substitutable_error_iff.mp ⟨e, hraise⟩⟩

end GovernorGateway
