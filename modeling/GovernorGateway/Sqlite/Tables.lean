/-
# The tables of the SQLite backend

`Db` is the content of the database `init_db` creates.  Its first three tables (`nodes`, `edges`,
`quarantine_ledger`) are the `Lineage`: what containment is about, and what most calls leave
alone, so that a frame condition is one equation, `db'.toLineage = db.toLineage`.  The two tables
written outside every lock (`signal_attempts`, `detector_events`) are the `Journal`.

A JSON column holds the record itself: `json.loads` gives back what `json.dumps` was given.
-/
import GovernorGateway.Settings
import GovernorGateway.Tables.Keyed

namespace GovernorGateway

/-! ## 1. Rows -/

structure NodeRow where
  nodeId : NodeId
  payload : Payload
  contentHash : String
  commitment : String

structure EdgeRow where
  childId : NodeId
  parentId : NodeId
  edgeClass : EdgeClass
  deriving DecidableEq

/-- `PRIMARY KEY (child_id, parent_id)`. -/
def EdgeRow.key (e : EdgeRow) : NodeId × NodeId := (e.childId, e.parentId)

structure ExternalEffect where
  idempotencyKey : String
  nodeId : NodeId
  effectType : String
  recordedAtUtc : String
  deriving DecidableEq

structure Horizon where
  nodeId : NodeId
  admittedAtUtc : String
  trustExpiresUtc : String
  predecessorId : NodeId
  renewalCount : ℕ := 0
  deriving DecidableEq

structure SignalAttempt where
  signalSource : String
  nodeId : NodeId
  signalKind : String
  outcome : String
  recordedAtUtc : String
  deriving DecidableEq

inductive WithdrawalReason where
  | directlyImplicated
  | unexaminedDependent
  deriving DecidableEq

structure Withdrawal where
  nodeId : NodeId
  withdrawnAtUtc : String
  triggeringEventId : String
  withdrawalReason : WithdrawalReason
  deriving DecidableEq

/-- What the policy was told about one declared parent. -/
structure ParentStatus where
  parentNodeId : NodeId
  «exists» : Bool
  quarantined : Bool
  deriving DecidableEq

structure ShadowDecision where
  decisionId : String
  nodeId : NodeId
  evaluatedAtUtc : String
  wouldHaveBlocked : Bool
  reason : String
  parentStatus : List ParentStatus
  policyBundleDigest : String
  writerIdentity : String
  deriving DecidableEq

structure GateEvidence where
  gate : String
  passed : Bool
  evaluatedAtUtc : String
  deriving DecidableEq

structure ReintegrationEvidence where
  nodeId : NodeId
  preStateDigest : String
  postStateDigest : String
  gateEvidence : List GateEvidence
  recordedAtUtc : String
  deriving DecidableEq

/-- The keys of an exposure record; which are set depends on who recorded it. -/
structure ExposureRecord where
  sourceCheckpoint : Option String := none
  substituteSource : Option NodeId := none
  criticalNode : Option NodeId := none
  mechanism : Option String := none
  reason : Option String := none
  deriving DecidableEq

structure ContinuityExposure where
  exposureId : String
  nodeId : NodeId
  substituteStatus : String
  exposedAtUtc : String
  quarantineNonEmpty : Bool
  exposureRecord : ExposureRecord
  deriving DecidableEq

structure CalibrationRun where
  runId : String
  runAtUtc : String
  seededCount : Int
  detectedCount : Int
  sensitivityFloor : ℚ
  deriving DecidableEq

structure DetectorEventRow where
  eventId : String
  source : String
  receivedAtUtc : String
  deriving DecidableEq

/-- Whether the immediate tainted parent was replaced, or something upstream of it. -/
inductive ReplacementType where
  | direct
  | ancestor
  deriving DecidableEq

structure TaintedRejection where
  nodeId : NodeId
  taintedParentId : NodeId
  rejectedAtUtc : String
  authorIdentity : String
  offered : Bool := false
  offeredReplacement : Option NodeId := none
  replacementType : Option ReplacementType := none
  completed : Bool := false
  completedBy : Option NodeId := none
  deriving DecidableEq

/-! ## 2. The database -/

/-- `nodes`, `edges` and `quarantine_ledger`. -/
structure Lineage where
  nodes : List NodeRow := []
  edges : List EdgeRow := []
  ledger : List NodeId := []

/-- The tables that handlers write before they take any lock. -/
structure Journal where
  signalAttempts : List SignalAttempt := []
  detectorEvents : List DetectorEventRow := []

structure Db extends Lineage, Journal where
  quarantineEvents : List QuarantineEvent := []
  repairCandidates : List (NodeId × RepairCandidate) := []
  checkpoints : List Checkpoint := []
  externalEffects : List ExternalEffect := []
  reintegrationHorizon : List Horizon := []
  recurrenceEvents : List RecurrenceEvent := []
  withdrawalLedger : List Withdrawal := []
  calibrationRuns : List CalibrationRun := []
  shadowDecisions : List ShadowDecision := []
  reintegrationEvidence : List ReintegrationEvidence := []
  continuityExposures : List ContinuityExposure := []
  substituteDeclarations : List SubstituteDeclaration := []
  taintedRejections : List TaintedRejection := []

namespace Lineage

variable (L : Lineage)

/-- The ids of the `nodes` table. -/
def nodeIds : List NodeId := L.nodes.map NodeRow.nodeId

/-- The payload stored under an id. -/
def payload? (x : NodeId) : Option Payload := (Keyed.lookup NodeRow.nodeId L.nodes x).map NodeRow.payload

/-- A row of the edge table from `parent` to `child`. -/
def Edge (parent child : NodeId) : Prop := ∃ e ∈ L.edges, e.parentId = parent ∧ e.childId = child

/-- **Containment**, one step at a time: a stored node whose payload names a quarantined id is
quarantined itself. -/
def Contained : Prop := ∀ n ∈ L.nodes, ∀ x ∈ L.ledger, n.payload.Names x → n.nodeId ∈ L.ledger

/-- The two copies of the lineage agree: node ids and ledger entries are keys, and the rows of the
edge table are exactly the references of the stored payloads. -/
structure Wf : Prop where
  nodup : L.nodeIds.Nodup
  ledger_nodup : L.ledger.Nodup
  edge_iff : ∀ p c, L.Edge p c ↔ ∃ n ∈ L.nodes, n.nodeId = c ∧ n.payload.Names p

end Lineage

end GovernorGateway
