/-
# The measured cost

`/measured-cost` (`src/governor_service.py`): what the report is computed from (`CostData`, the
answers of eight functions of the backend) and what it says.  Fractions, which the source rounds to
floats, are exact here.

The report names the breaches of containment.  Its loop looks at one node at a time, at its parents
first and, if none of these is quarantined (the `else` of the `for`), at what it covers.
-/
import GovernorGateway.Sqlite.Queries

namespace GovernorGateway

/-! ## 1. Breaches -/

/-- A `for` loop that ends at the first quarantined id. -/
def meetsQuarantine (ledger : List NodeId) : List NodeId → Bool
  | [] => false
  | x :: xs => if x ∈ ledger then true else meetsQuarantine ledger xs

/-- What one node of the graph adds to the breaches. -/
def breachesOf (ledger : List NodeId) (n : NodeId × Payload) : List NodeId :=
  if n.1 ∈ ledger then []
  else if meetsQuarantine ledger n.2.parentIds then [n.1]
  else if meetsQuarantine ledger n.2.covers then [n.1]
  else []

/-- The breaches of containment, in the order of the graph. -/
def breaches (dag : List (NodeId × Payload)) (ledger : List NodeId) : List NodeId :=
  dag.flatMap (breachesOf ledger)

/-! ## 2. The report -/

/-- What the report is computed from. -/
structure CostData where
  repairCandidates : List (NodeId × RepairCandidate)
  activeHorizons : List NodeId
  expiredHorizons : List NodeId
  withdrawalLedger : List NodeId
  quarantineLedger : List NodeId
  /-- Signal attempts, counted by their outcome. -/
  signalCounts : List (String × ℕ)
  dag : List (NodeId × Payload)
  calibrationRuns : List CalibrationRun

structure SafetyMetrics where
  quarantinedNodes : ℕ
  containmentFraction : ℚ
  withdrawnNodes : ℕ
  containmentBreaches : ℕ
  escapeSet : List NodeId

structure AvailabilityMetrics where
  totalNodes : ℕ
  unavailableNodes : ℕ
  availabilityFraction : ℚ

structure CoverageMetrics where
  repairCandidatesTotal : ℕ
  reducibleCount : ℕ
  irreducibleCount : ℕ
  verifiedRepairCoverage : ℚ

structure RestorationMetrics where
  reintegratedActive : ℕ
  reintegratedExpired : ℕ
  reintegratedTotal : ℕ
  restorationFraction : ℚ

structure BurdenMetrics where
  irreducibleFraction : ℚ
  quarantinePressure : ℚ
  withdrawalAmplification : ℚ

structure RecurrenceMetrics where
  signalOutcomeCounts : List (String × ℕ)
  withdrawnCount : ℕ
  activeHorizonsCount : ℕ
  expiredHorizonsCount : ℕ
  calibrationRuns : ℕ
  latestSensitivityFloor : Option ℚ

structure MeasuredCost where
  measuredAtUtc : String
  safety : SafetyMetrics
  availability : AvailabilityMetrics
  coverage : CoverageMetrics
  functionRestoration : RestorationMetrics
  burden : BurdenMetrics
  recurrence : RecurrenceMetrics

/-- `a / b if b > 0 else fallback`. -/
def fraction (a : Int) (b : ℕ) (fallback : ℚ) : ℚ := if 0 < b then (a : ℚ) / b else fallback

namespace CostData

variable (c : CostData)

def safety : SafetyMetrics :=
  { quarantinedNodes := c.quarantineLedger.length
    containmentFraction := fraction c.quarantineLedger.length c.dag.length 0
    withdrawnNodes := c.withdrawalLedger.length
    containmentBreaches := (breaches c.dag c.quarantineLedger).length
    escapeSet := breaches c.dag c.quarantineLedger }

/-- Two ledgers are counted, whatever is in them. -/
def availability : AvailabilityMetrics :=
  let unavailable := c.quarantineLedger.length + c.withdrawalLedger.length
  { totalNodes := c.dag.length
    unavailableNodes := unavailable
    availabilityFraction := fraction (c.dag.length - unavailable) c.dag.length 1 }

/-- The repair candidates of one disposition. -/
def countOf (d : Disposition) : ℕ := c.repairCandidates.countP fun rc => rc.2.disposition = d

def coverage : CoverageMetrics :=
  { repairCandidatesTotal := c.repairCandidates.length
    reducibleCount := c.countOf .reducible
    irreducibleCount := c.countOf .irreducible
    verifiedRepairCoverage := fraction (c.countOf .reducible) c.repairCandidates.length 0 }

def functionRestoration : RestorationMetrics :=
  let total := c.activeHorizons.length + c.expiredHorizons.length
  { reintegratedActive := c.activeHorizons.length
    reintegratedExpired := c.expiredHorizons.length
    reintegratedTotal := total
    restorationFraction := fraction c.activeHorizons.length total 0 }

/-- `signal_counts.get(outcome, 0)`. -/
def signals (outcome : String) : ℕ :=
  ((Keyed.lookup Prod.fst c.signalCounts outcome).map Prod.snd).getD 0

def burden : BurdenMetrics :=
  { irreducibleFraction := fraction (c.countOf .irreducible) c.repairCandidates.length 0
    quarantinePressure := fraction c.quarantineLedger.length c.dag.length 0
    withdrawalAmplification := (c.withdrawalLedger.length : ℚ) /
      (max 1 (c.signals "PROCESSED" + c.signals "RATE_LIMITED") : ℕ) }

def recurrence : RecurrenceMetrics :=
  { signalOutcomeCounts := c.signalCounts
    withdrawnCount := c.withdrawalLedger.length
    activeHorizonsCount := c.activeHorizons.length
    expiredHorizonsCount := c.expiredHorizons.length
    calibrationRuns := c.calibrationRuns.length
    latestSensitivityFloor := c.calibrationRuns.getLast?.map CalibrationRun.sensitivityFloor }

/-- `get_measured_cost`, from what it has gathered. -/
def report (now : Time) : MeasuredCost :=
  { measuredAtUtc := Clock.stamp now
    safety := c.safety
    availability := c.availability
    coverage := c.coverage
    functionRestoration := c.functionRestoration
    burden := c.burden
    recurrence := c.recurrence }

end CostData

/-! ## 3. What is gathered -/

namespace Db

variable (db : Db)

/-- `get_expired_horizon_set`. -/
def getExpiredHorizonSet (now : Time) : List NodeId :=
  (db.reintegrationHorizon.filter fun h => h.trustExpiresUtc ≤ Clock.stamp now).map Horizon.nodeId

/-- `get_withdrawal_ledger`: the keys of the answer. -/
def getWithdrawalLedger : List NodeId := db.withdrawalLedger.map Withdrawal.nodeId

/-- `get_signal_outcome_counts`. -/
def getSignalOutcomeCounts : List (String × ℕ) :=
  (db.signalAttempts.map SignalAttempt.outcome).dedup.map fun o =>
    (o, db.signalAttempts.countP fun a => a.outcome = o)

/-- What the backend answers; the clock is read for each of the two sets of horizons. -/
def costData (active expired : Time) : CostData :=
  { repairCandidates := db.repairCandidates
    activeHorizons := db.getActiveHorizonSet active
    expiredHorizons := db.getExpiredHorizonSet expired
    withdrawalLedger := db.getWithdrawalLedger
    quarantineLedger := db.ledger
    signalCounts := db.getSignalOutcomeCounts
    dag := db.getDag
    calibrationRuns := db.calibrationRuns }

end Db

end GovernorGateway
