/-
# One write, handled twice

The two endpoints through which agents write, in the logic of `Effects/Twin.lean`.  As long as a
payload names nothing the gateway has generated, every read in front of the decision answers alike
on both sides, the policy engine is asked the SAME question, and what is committed or quarantined is
the same id.

The audit is the one table the two sides fill differently: a decision has an id of its own on each
side, and both are fresh (`Beside`, `submitChecks`, `recordDecision`).
-/
import GovernorGateway.Semantics.TwoRuns

namespace GovernorGateway

open Effects

variable {α β : Type} {g : Setup} {answers : Answers} {G : NodeId → Prop} {on on' : Bool}
  {ds ds' : List String} {w w' : World}

/-! ## 1. Before the lock -/

/-- The payload names nothing in `G`. -/
def Payload.Outside (G : NodeId → Prop) (p : Payload) : Prop :=
  ¬ G p.payloadId ∧ ∀ x, p.Names x → ¬ G x

theorem Payload.Outside.parents {G : NodeId → Prop} {p : Payload} (h : p.Outside G) :
    ∀ x ∈ p.parentIds, ¬ G x := fun x hx => h.2 x (Or.inl hx)

theorem Payload.Outside.covers {G : NodeId → Prop} {p : Payload} (h : p.Outside G) :
    ∀ x ∈ p.covers, ¬ G x := fun x hx => h.2 x (Or.inr hx)

/-- Both return and the worlds are beside each other, or both raise. -/
abbrev Finished (G : NodeId → Prop) : Except Exc α → Except Exc β → World → World → Prop :=
  bothOk (fun _ _ => Beside G [] []) fun _ _ => True

theorem Db.lookup_getDag (db : Db) (x : NodeId) :
    Keyed.lookup Prod.fst db.getDag x =
      (Keyed.lookup NodeRow.nodeId db.nodes x).map fun n => (n.nodeId, n.payload) := by
  rw [Keyed.lookup, Db.getDag, List.find?_map]
  rfl

end GovernorGateway
