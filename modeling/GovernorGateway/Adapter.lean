/-
# The recovery adapter

`src/recovery_adapter.py`, the service a gateway with `RECOVERY_ADAPTER_URL` sends its pending
compactions to.  It derives the admissible frontier again from the graph it is sent, with a
traversal of its own, and refuses the request when the two frontiers differ.

What a gateway receives of an answer that is no 200 is nothing at all: `Ext.reconstruct` answers
`none`.
-/
import GovernorGateway.Backend
import GovernorGateway.Graph.QueueSearch

namespace GovernorGateway

namespace Adapter

/-- The node names the current one among its parents; what it covers is not looked at. -/
def childOf (current : NodeId) (n : NodeId × Payload) : Bool := current ∈ n.2.parentIds

/-- `_compute_blast_radius`. -/
def computeBlastRadius (dag : List (NodeId × Payload)) (root : NodeId) : List NodeId :=
  (Reach.QueueSearch.search Prod.fst childOf (fun _ _ => false) dag root).reached.insertionSort (· ≤ ·)

/-- `computed_frontier`, R4. -/
def computedFrontier (req : AdapterRequest) : List NodeId :=
  (req.compactionCovers.filter
    (· ∉ computeBlastRadius req.graphSnapshot req.poisonedRootId)).insertionSort (· ≤ ·)

/-- `sorted(req.requested_frontier)`. -/
def requestedFrontier (req : AdapterRequest) : List NodeId :=
  req.requestedFrontier.insertionSort (· ≤ ·)

/-- `reconstruct`: the candidate, or the `frontier_mismatch`.  The text is the language model's, or
the fallback; the key is the adapter's. -/
def reconstruct (env : Env) (key uuid text : String) (sign : String → String) (req : AdapterRequest) :
    Except Exc Payload :=
  if computedFrontier req ≠ requestedFrontier req then .error (.text 403 "frontier_mismatch")
  else
    let content := [("data", Json.str text)]
    let hash := env.sha256 (Json.obj content).dumps
    .ok
      { payloadId := "reconstructed-" ++ uuid
        nodeType := some .compaction
        stateContent := content
        parents := (computedFrontier req).map fun x =>
          { parentNodeId := x, edgeClass := some .compaction }
        covers := computedFrontier req
        summarizer := some { methodId := req.method }
        ephemeralNhi := some { identityId := some key, sessionToken := some "adapter_session" }
        contentDigest := some hash
        agentSignature := some (sign hash)
        signatureAlgorithm := some "ECDSA-P256-SHA256" }

/-- Declared parenthood in the graph that was sent. -/
def Parent (dag : List (NodeId × Payload)) (p c : NodeId) : Prop :=
  ∃ n ∈ dag, n.1 = c ∧ p ∈ n.2.parentIds

/-- **The adapter's radius**: what descends from the root by declared parenthood, at any depth. -/
theorem mem_computeBlastRadius {dag : List (NodeId × Payload)} {root y : NodeId} :
    y ∈ computeBlastRadius dag root ↔ Relation.ReflTransGen (Parent dag) root y := by
  have htouch : Reach.QueueSearch.Touch Prod.fst childOf dag = Parent dag := by
    funext x y
    simp only [Reach.QueueSearch.Touch, Parent, childOf, decide_eq_true_eq]
  rw [computeBlastRadius, List.mem_insertionSort, Reach.QueueSearch.mem_search, htouch]

/-- **Two frontiers over the same covered ids** agree as sorted lists exactly when they leave out
the same of them. -/
theorem computedFrontier_eq_iff {req : AdapterRequest} {ball : List NodeId}
    (hfrontier : req.requestedFrontier = req.compactionCovers.filter (· ∉ ball)) :
    computedFrontier req = requestedFrontier req ↔
      ∀ x ∈ req.compactionCovers,
        (x ∈ ball ↔ x ∈ computeBlastRadius req.graphSnapshot req.poisonedRootId) := by
  rw [computedFrontier, requestedFrontier, hfrontier]
  constructor
  · intro heq x hx
    have hmem : x ∈ req.compactionCovers.filter
          (· ∉ computeBlastRadius req.graphSnapshot req.poisonedRootId) ↔
        x ∈ req.compactionCovers.filter (· ∉ ball) := by
      rw [← List.mem_insertionSort (· ≤ ·), heq, List.mem_insertionSort]
    simp only [List.mem_filter, hx, true_and, decide_eq_true_eq] at hmem
    exact not_iff_not.mp hmem.symm
  · intro hagree
    refine congrArg (List.insertionSort (· ≤ ·)) (List.filter_congr fun x hx => ?_)
    simp only [hagree x hx]

end Adapter

end GovernorGateway
