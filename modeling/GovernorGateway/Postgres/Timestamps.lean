/-
# The timed tables of the Postgres backend

`reintegration_horizon` and `signal_attempts` of `src/postgres_backend.py`, whose times are
TIMESTAMPTZ, and the functions that write and read them.  A window comes in as text, which
`_parse_utc` reads; what it cannot read is a `ValueError`, `none` here.
-/
import GovernorGateway.Clock.Parse
import GovernorGateway.Tables.Keyed
import GovernorGateway.Sqlite.Tables

namespace GovernorGateway

namespace Postgres

structure HorizonRow where
  nodeId : NodeId
  admittedAt : Time
  trustExpires : Time
  predecessorId : NodeId
  renewalCount : ℕ := 0

structure AttemptRow where
  signalSource : String
  nodeId : NodeId
  signalKind : String
  outcome : String
  recordedAt : Time

end Postgres

/-- The two tables. -/
structure Postgres where
  reintegrationHorizon : List Postgres.HorizonRow := []
  signalAttempts : List Postgres.AttemptRow := []

namespace Postgres

variable (pg : Postgres)

/-- `record_reintegration`: on a conflict the times and the predecessor are updated. -/
def recordReintegration (x predecessor : NodeId) (horizonSeconds : ℕ) (now : Time) : Postgres :=
  { pg with
    reintegrationHorizon :=
      if x ∈ pg.reintegrationHorizon.map HorizonRow.nodeId then
        pg.reintegrationHorizon.map fun h =>
          if h.nodeId = x then
            { h with admittedAt := now, trustExpires := now + Clock.seconds horizonSeconds,
                     predecessorId := predecessor }
          else h
      else pg.reintegrationHorizon ++
        [{ nodeId := x, admittedAt := now, trustExpires := now + Clock.seconds horizonSeconds,
           predecessorId := predecessor }] }

/-- `renew_trust`. -/
def renewTrust (x : NodeId) (horizonSeconds : ℕ) (now : Time) : Postgres :=
  { pg with reintegrationHorizon := pg.reintegrationHorizon.map fun h =>
      if h.nodeId = x then
        { h with trustExpires := now + Clock.seconds horizonSeconds,
                 renewalCount := h.renewalCount + 1 }
      else h }

/-- `record_signal_attempt`. -/
def recordSignalAttempt (source : String) (x : NodeId) (kind outcome : String) (now : Time) :
    Postgres :=
  { pg with signalAttempts := pg.signalAttempts ++ [⟨source, x, kind, outcome, now⟩] }

/-- `get_active_horizon_set`: the keys of the answer. -/
def getActiveHorizonSet (now : Time) : List NodeId :=
  (pg.reintegrationHorizon.filter fun h => now < h.trustExpires).map HorizonRow.nodeId

/-- `get_expired_horizon_set`. -/
def getExpiredHorizonSet (now : Time) : List NodeId :=
  (pg.reintegrationHorizon.filter fun h => h.trustExpires ≤ now).map HorizonRow.nodeId

/-- `count_recent_signals`. -/
def countRecentSignals (source since : String) : Option ℕ :=
  (Clock.parseUtc since).map fun since =>
    (pg.signalAttempts.filter fun a => a.signalSource = source ∧ since.moment < a.recordedAt).length

/-- `count_recent_signals_global`. -/
def countRecentSignalsGlobal (since : String) : Option ℕ :=
  (Clock.parseUtc since).map fun since =>
    (pg.signalAttempts.filter fun a => since.moment < a.recordedAt).length

end Postgres

end GovernorGateway
