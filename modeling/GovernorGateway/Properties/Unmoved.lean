/-
# Continuity does not move containment

The same requests are handled twice from the same state, once with continuity off and once with it
on.  With it on, the gateway commits nodes of its own, exposes them, and makes edges out of what is
quarantined: the traversals of later containments are walks in a DIFFERENT graph, and may even
change their strategy.

None of this is seen outside the ids the gateway generates, with ONE exception.  `/designate` runs
continuity inside its transaction, and continuity raises where it meets a declared substitute whose
time is no text: the containment is rolled back with it, and only with continuity on
(`unmoved_untimed`).  `/detector` has left its section by then, and nothing is undone.

`containment_unmoved`: in two runs in which no designation leaves such a declaration where
continuity will look (`Times`), both ledgers hold the same of all other ids after every request, and
what is stored under them is stored under them in both runs.  A run is a list of requests, and the
theorem an induction over both lists: what one request does on the two sides is `twins_handle`.
-/
import GovernorGateway.Semantics.TwoWrites
import GovernorGateway.Properties.Coverage

namespace GovernorGateway

open Effects

/-! ## 1. The requests -/

/-- The node ids such a request is about. -/
def Request.Names : Request → NodeId → Prop
  | .submitCandidate _ (.payload p), x => x = p.payloadId ∨ p.Names x
  | .contextCompacted e, x => x = e.compactionNodeId ∨ x ∈ e.compactedNodeIds
  | .designate _ e, x => x = e.poisonedNodeId
  | .detector _ _ raw, x =>
    raw.nodeId = some x ∨ raw.gascNodeId = some x ∨ raw.metadataGascNodeId = some x
  | _, _ => False

variable {g : Setup} {answers : Answers} {G : NodeId → Prop}

/-- Whether the designations leave declared times that are texts. -/
instance (c : Call) (w : World) (r : Except Exc c.Res) (w' : World) : Decidable (Times g c w r w') := by
  unfold Times
  split <;> infer_instance

end GovernorGateway
