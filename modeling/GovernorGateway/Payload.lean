/-
# State-write payloads and the other records the gateway stores

The records of `schemas/state_write_payload.json`, of the request models and of the JSON columns
of the store, with the fields the code reads.  A field the code reads with `.get(key)` and no
default is an `Option`; one it reads with a default has that default here.

`parent_dependency_commitments` and `covers` are the two places a payload NAMES other nodes; the
rest of the development only needs `Payload.Names`.
-/
import GovernorGateway.Json
import GovernorGateway.Clock

namespace GovernorGateway

/-- Node ids are arbitrary strings: the schema's `uuid` format is not asserted. -/
abbrev NodeId := String

/-! ## 1. Payloads -/

/-- `edge_class`.  The first three are the schema's; the gateway's own reconstructions use
`COMPACTION`, the store adds `COVERS`, and an external recovery adapter may send any text. -/
inductive EdgeClass where
  | material
  | incidental
  | carried
  | compaction
  | covers
  | other (name : String)
  deriving DecidableEq

/-- `node_type`; absent means `STANDARD`. -/
inductive NodeType where
  | standard
  | compaction
  deriving DecidableEq

/-- One entry of `parent_dependency_commitments`. -/
structure ParentCommitment where
  parentNodeId : NodeId
  parentContentHash : Option String := none
  edgeClass : Option EdgeClass := none
  deriving DecidableEq

/-- `summarizer`. -/
structure Summarizer where
  methodId : Option String := none
  configDigest : Option String := none
  deriving DecidableEq

/-- `ephemeral_nhi`. -/
structure EphemeralNhi where
  identityId : Option String := none
  sessionToken : Option String := none
  expiresAtUtc : Option String := none
  deriving DecidableEq

/-- `declared_evidence_boundary`. -/
structure EvidenceBoundary where
  boundaryId : String
  fixedAtUtc : String
  boundaryDigest : String
  deriving DecidableEq

/-- A node payload: what `/submit-candidate` receives, what the gateway builds itself, and what
`nodes.payload_json` holds. -/
structure Payload where
  payloadId : NodeId
  nodeType : Option NodeType := none
  covers : List NodeId := []
  coversIntervalGap : Option (List NodeId) := none
  summarizer : Option Summarizer := none
  timestampUtc : Option String := none
  ephemeralNhi : Option EphemeralNhi := none
  declaredEvidenceBoundary : Option EvidenceBoundary := none
  parents : List ParentCommitment := []
  stateContent : List (String × Json) := []
  contentDigest : Option String := none
  agentSignature : Option String := none
  signatureAlgorithm : Option String := none
  criticalityWeight : Option ℚ := none
  retryOf : Option String := none

namespace Payload

/-- `[p["parent_node_id"] for p in payload.get("parent_dependency_commitments", [])]`. -/
def parentIds (p : Payload) : List NodeId := p.parents.map ParentCommitment.parentNodeId

/-- The payload names the id, as a parent or among the nodes it covers. -/
def Names (p : Payload) (x : NodeId) : Prop := x ∈ p.parentIds ∨ x ∈ p.covers

instance (p : Payload) (x : NodeId) : Decidable (p.Names x) :=
  inferInstanceAs (Decidable (_ ∨ _))

/-- `payload.get("ephemeral_nhi", {}).get("identity_id")`. -/
def identityId (p : Payload) : Option String := p.ephemeralNhi.bind EphemeralNhi.identityId

/-- `payload.get("ephemeral_nhi", {}).get("session_token")`. -/
def sessionToken (p : Payload) : Option String := p.ephemeralNhi.bind EphemeralNhi.sessionToken

/-- `payload.get("criticality_weight", 0)`. -/
def weight (p : Payload) : ℚ := p.criticalityWeight.getD 0

/-- `payload.get("summarizer", {}).get("method_id")`. -/
def methodId (p : Payload) : Option String := p.summarizer.bind Summarizer.methodId

end Payload

/-! ## 2. Incidents -/

/-- A quarantine event, as recorded in `quarantine_events`.  The last four fields are only set
by the endpoints that know them. -/
structure QuarantineEvent where
  quarantineEventId : String
  detectedAtUtc : String
  poisonedRootId : NodeId
  computedBlastRadius : List NodeId
  monotonicLedgerDigestPostTransition : String
  designatorIdentity : Option String := none
  designationReason : Option String := none
  detectorSource : Option String := none
  maxTraversalDepth : Option Int := none
  deriving DecidableEq

/-- A declared checkpoint; `snapshot_data` is a JSON object. -/
structure Checkpoint where
  checkpointId : String
  targetNodeId : NodeId
  declaredAtUtc : String
  snapshotData : List (String × Json)

/-- A pre-declared substitute for `targetNodeId`.  The declared time is whatever JSON value the
client has sent. -/
structure SubstituteDeclaration where
  targetNodeId : NodeId
  substituteSourceId : NodeId
  declaredAtUtc : Json
  declaredBy : String := "admin"

/-- What has been decided about an affected compaction. -/
inductive Disposition where
  | pendingReconstruction
  | reducible
  | irreducible
  deriving DecidableEq

/-- A row of `repair_candidates`: the JSON record with the keys the code reads and writes. -/
structure RepairCandidate where
  disposition : Disposition
  reason : Option String := none
  escalationRecord : Option String := none
  frontier : List NodeId := []
  method : Option String := none
  checkpoint : Option Checkpoint := none
  reconstructedNodeId : Option NodeId := none

/-- A recurrence event. -/
structure RecurrenceEvent where
  eventId : String
  nodeId : NodeId
  recurrenceClass : String
  detectedAtUtc : String
  signalSource : String
  evidence : List (String × Json) := []
  escalated : Bool := false

/-! ## 3. Credentials -/

/-- The claims of a decoded token the code looks at.  `sub` and `role` are compared as text; the
others are handed to the policy engine as they are. -/
structure Claims where
  sub : Option String := none
  role : Option String := none
  isNhi : Option Json := none
  expiresAtEpoch : Option Json := none
  scope : Option Json := none
  verifierExecutionStatus : Option Json := none

end GovernorGateway
