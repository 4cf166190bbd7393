/-
# Times as text, times as times

SQLite stores the text of a time and compares texts; Postgres stores the time and compares times.

* The texts are ordered as the times are, whole seconds (which `isoformat` writes without a
  fraction) included, and `_parse_utc` reads each text back (`stamps_are_times`).
* HENCE, after the same writes at the same times, the two backends have the same nodes with active
  and with expired trust at any moment, and count the same signals in any window.
-/
import GovernorGateway.Postgres.Timestamps
import GovernorGateway.Sqlite.Report

namespace GovernorGateway

open Clock

/-! ## 1. Texts -/

theorem stamp_eq {a : Fields} (ha : a.Valid) : a.stamp = Clock.stamp a.toTime := by
  have h : (Fields.ofTime a.toTime).stamp = Clock.stamp a.toTime := by
    rw [Fields.stamp, Fields.isoformat_ofTime, Clock.stamp]
  rwa [Fields.ofTime_toTime ha] at h

/-- **Texts are ordered as times are.** -/
theorem stamp_lt_stamp_iff {a b : Fields} (ha : a.Valid) (hb : b.Valid) :
    a.stamp < b.stamp ↔ a.toTime < b.toTime := by
  rw [stamp_eq ha, stamp_eq hb]
  exact stamp_lt_iff (Fields.toTime_lt ha) (Fields.toTime_lt hb)

theorem stamp_le_iff {t t' : ℕ} (ht : t < bound) (ht' : t' < bound) :
    Clock.stamp t ≤ Clock.stamp t' ↔ t ≤ t' := by
  rw [← not_lt, stamp_lt_iff ht' ht, not_lt]

/-! ## 2. The two backends -/

/-- What is written with a time. -/
inductive TimedWrite where
  | recordReintegration (x predecessor : NodeId) (horizonSeconds : ℕ)
  | renewTrust (x : NodeId) (horizonSeconds : ℕ)
  | recordSignalAttempt (source : String) (x : NodeId) (kind outcome : String)

namespace TimedWrite

/-- The latest time a write stores: `datetime` cannot go beyond the end of year 9999. -/
def latest (now : Time) : TimedWrite → Time
  | .recordReintegration _ _ horizonSeconds => now + Clock.seconds horizonSeconds
  | .renewTrust _ horizonSeconds => now + Clock.seconds horizonSeconds
  | .recordSignalAttempt _ _ _ _ => now

def onSqlite (now : Time) : TimedWrite → Db → Db
  | .recordReintegration x predecessor horizon, db => db.recordReintegration x predecessor horizon now
  | .renewTrust x horizon, db => db.renewTrust x horizon now
  | .recordSignalAttempt source x kind outcome, db => db.recordSignalAttempt source x kind outcome now

def onPostgres (now : Time) : TimedWrite → Postgres → Postgres
  | .recordReintegration x predecessor horizon, pg => pg.recordReintegration x predecessor horizon now
  | .renewTrust x horizon, pg => pg.renewTrust x horizon now
  | .recordSignalAttempt source x kind outcome, pg => pg.recordSignalAttempt source x kind outcome now

end TimedWrite

/-- Writes, each with the time it happens at. -/
abbrev TimedWrites := List (Time × TimedWrite)

def TimedWrites.onSqlite (ws : TimedWrites) (db : Db) : Db :=
  ws.foldl (fun db w => w.2.onSqlite w.1 db) db

def TimedWrites.onPostgres (ws : TimedWrites) (pg : Postgres) : Postgres :=
  ws.foldl (fun pg w => w.2.onPostgres w.1 pg) pg

/-- The row of SQLite for a row of Postgres. -/
def Postgres.AttemptRow.text (a : Postgres.AttemptRow) : SignalAttempt :=
  ⟨a.signalSource, a.nodeId, a.signalKind, a.outcome, Clock.stamp a.recordedAt⟩

/-- The tables hold the same times, one the texts of the other. -/
structure SameTimes (db : Db) (pg : Postgres) : Prop where
  horizon : ∀ x text, (∃ h ∈ db.reintegrationHorizon, h.nodeId = x ∧ h.trustExpiresUtc = text) ↔
    ∃ h ∈ pg.reintegrationHorizon, h.nodeId = x ∧ Clock.stamp h.trustExpires = text
  attempts : db.signalAttempts = pg.signalAttempts.map Postgres.AttemptRow.text
  expires_lt : ∀ h ∈ pg.reintegrationHorizon, h.trustExpires < bound
  recorded_lt : ∀ a ∈ pg.signalAttempts, a.recordedAt < bound

namespace SameTimes

variable {db : Db} {pg : Postgres}

theorem initial : SameTimes {} {} where
  horizon := by simp
  attempts := rfl
  expires_lt := by simp
  recorded_lt := by simp

theorem recordReintegration (h : SameTimes db pg) {x predecessor : NodeId} {horizon : ℕ} {now : Time}
    (hlt : now + Clock.seconds horizon < bound) :
    SameTimes (db.recordReintegration x predecessor horizon now)
      (pg.recordReintegration x predecessor horizon now) := by
  have hsqlite : ∀ y text, (∃ r ∈ (db.recordReintegration x predecessor horizon now).reintegrationHorizon,
      r.nodeId = y ∧ r.trustExpiresUtc = text) ↔
      (y ≠ x ∧ ∃ r ∈ db.reintegrationHorizon, r.nodeId = y ∧ r.trustExpiresUtc = text) ∨
        (y = x ∧ Clock.stamp (now + Clock.seconds horizon) = text) := by
    intro y text
    simp only [Db.recordReintegration, Keyed.mem_insertOrReplace]
    constructor
    · rintro ⟨r, ⟨hr, hne⟩ | rfl, hy, htext⟩
      · exact Or.inl ⟨fun hyx => hne (hy.trans hyx), r, hr, hy, htext⟩
      · exact Or.inr ⟨hy.symm, htext⟩
    · rintro (⟨hne, r, hr, hy, htext⟩ | ⟨hy, htext⟩)
      · exact ⟨r, Or.inl ⟨hr, fun hrx => hne (hy.symm.trans hrx)⟩, hy, htext⟩
      · exact ⟨_, Or.inr rfl, hy.symm, htext⟩
  have hpostgres : ∀ y (t : Time), (∃ r ∈ (pg.recordReintegration x predecessor horizon
      now).reintegrationHorizon, r.nodeId = y ∧ r.trustExpires = t) ↔
      (y ≠ x ∧ ∃ r ∈ pg.reintegrationHorizon, r.nodeId = y ∧ r.trustExpires = t) ∨
        (y = x ∧ now + Clock.seconds horizon = t) := by
    intro y t
    unfold Postgres.recordReintegration
    split
    · rename_i hx
      simp only [List.mem_map, exists_exists_and_eq_and]
      constructor
      · rintro ⟨r, hr, hy, ht⟩
        by_cases hrx : r.nodeId = x
        · rw [if_pos hrx] at hy ht
          exact Or.inr ⟨hy.symm.trans hrx, ht⟩
        · rw [if_neg hrx] at hy ht
          exact Or.inl ⟨fun hyx => hrx (hy.trans hyx), r, hr, hy, ht⟩
      · rintro (⟨hne, r, hr, hy, ht⟩ | ⟨rfl, ht⟩)
        · have hrx : r.nodeId ≠ x := fun hrx => hne (hy.symm.trans hrx)
          refine ⟨r, hr, ?_⟩
          rw [if_neg hrx]
          exact ⟨hy, ht⟩
        · obtain ⟨r, hr, hrx⟩ := List.mem_map.mp hx
          refine ⟨r, hr, ?_⟩
          rw [if_pos hrx]
          exact ⟨hrx, ht⟩
    · rename_i hx
      simp only [List.mem_append, List.mem_singleton]
      constructor
      · rintro ⟨r, hr | rfl, hy, ht⟩
        · refine Or.inl ⟨fun hyx => hx ?_, r, hr, hy, ht⟩
          exact List.mem_map.mpr ⟨r, hr, hy.trans hyx⟩
        · exact Or.inr ⟨hy.symm, ht⟩
      · rintro (⟨-, r, hr, hy, ht⟩ | ⟨hy, ht⟩)
        · exact ⟨r, Or.inl hr, hy, ht⟩
        · exact ⟨_, Or.inr rfl, hy.symm, ht⟩
  constructor
  · intro y text
    have hsame := h.horizon y text
    rw [hsqlite, hsame]
    constructor
    · rintro (⟨hne, r, hr, hy, htext⟩ | ⟨hy, htext⟩)
      · obtain ⟨r', hr', hy', ht'⟩ := (hpostgres y r.trustExpires).mpr (Or.inl ⟨hne, r, hr, hy, rfl⟩)
        exact ⟨r', hr', hy', by rw [ht']; exact htext⟩
      · obtain ⟨r', hr', hy', ht'⟩ := (hpostgres y _).mpr (Or.inr ⟨hy, rfl⟩)
        exact ⟨r', hr', hy', by rw [ht']; exact htext⟩
    · rintro ⟨r, hr, hy, htext⟩
      rcases (hpostgres y r.trustExpires).mp ⟨r, hr, hy, rfl⟩ with ⟨hne, r', hr', hy', ht'⟩ | ⟨hyx, ht⟩
      · exact Or.inl ⟨hne, r', hr', hy', by rw [ht']; exact htext⟩
      · exact Or.inr ⟨hyx, by rw [ht]; exact htext⟩
  · exact h.attempts
  · intro r hr
    rcases (hpostgres r.nodeId r.trustExpires).mp ⟨r, hr, rfl, rfl⟩ with ⟨-, r', hr', -, ht'⟩ | ⟨-, ht⟩
    · rw [← ht']
      exact h.expires_lt r' hr'
    · rw [← ht]
      exact hlt
  · exact h.recorded_lt

theorem renewTrust (h : SameTimes db pg) {x : NodeId} {horizon : ℕ} {now : Time}
    (hlt : now + Clock.seconds horizon < bound) :
    SameTimes (db.renewTrust x horizon now) (pg.renewTrust x horizon now) := by
  constructor
  · intro y text
    simp only [Db.renewTrust, Postgres.renewTrust, List.mem_map, exists_exists_and_eq_and]
    by_cases hyx : y = x
    · subst hyx
      constructor
      · rintro ⟨r, hr, hy, htext⟩
        have hry : r.nodeId = y := by
          split at hy
          · exact hy
          · exact hy
        rw [if_pos hry] at htext
        obtain ⟨r', hr', hy', -⟩ := (h.horizon y r.trustExpiresUtc).mp ⟨r, hr, hry, rfl⟩
        refine ⟨r', hr', ?_⟩
        rw [if_pos hy']
        exact ⟨hy', htext⟩
      · rintro ⟨r, hr, hy, htext⟩
        have hry : r.nodeId = y := by
          split at hy
          · exact hy
          · exact hy
        rw [if_pos hry] at htext
        obtain ⟨r', hr', hy', -⟩ := (h.horizon y (Clock.stamp r.trustExpires)).mpr ⟨r, hr, hry, rfl⟩
        refine ⟨r', hr', ?_⟩
        rw [if_pos hy']
        exact ⟨hy', htext⟩
    · have hsqlite : (∃ r ∈ db.reintegrationHorizon, (if r.nodeId = x then
          { r with trustExpiresUtc := Clock.stamp (now + Clock.seconds horizon),
                   renewalCount := r.renewalCount + 1 } else r).nodeId = y ∧
          (if r.nodeId = x then
          { r with trustExpiresUtc := Clock.stamp (now + Clock.seconds horizon),
                   renewalCount := r.renewalCount + 1 } else r).trustExpiresUtc = text) ↔
          ∃ r ∈ db.reintegrationHorizon, r.nodeId = y ∧ r.trustExpiresUtc = text := by
        refine exists_congr fun r => and_congr_right fun _ => ?_
        split
        · rename_i hrx
          constructor
          · rintro ⟨hy, -⟩
            exact absurd (hy.symm.trans hrx) hyx
          · rintro ⟨hy, -⟩
            exact absurd (hy.symm.trans hrx) hyx
        · exact Iff.rfl
      rw [hsqlite, h.horizon]
      refine exists_congr fun r => and_congr_right fun _ => ?_
      split
      · rename_i hrx
        constructor
        · rintro ⟨hy, -⟩
          exact absurd (hy.symm.trans hrx) hyx
        · rintro ⟨hy, -⟩
          exact absurd (hy.symm.trans hrx) hyx
      · exact Iff.rfl
  · exact h.attempts
  · intro r hr
    obtain ⟨r', hr', rfl⟩ := List.mem_map.mp hr
    split
    · exact hlt
    · exact h.expires_lt r' hr'
  · exact h.recorded_lt

theorem recordSignalAttempt (h : SameTimes db pg) {source : String} {x : NodeId} {kind outcome : String}
    {now : Time} (hlt : now < bound) :
    SameTimes (db.recordSignalAttempt source x kind outcome now)
      (pg.recordSignalAttempt source x kind outcome now) where
  horizon := h.horizon
  attempts := by
    change db.signalAttempts ++ _ = (pg.signalAttempts ++ _).map _
    rw [List.map_append, h.attempts]
    rfl
  expires_lt := h.expires_lt
  recorded_lt := by
    intro a ha
    rcases List.mem_append.mp ha with ha | ha
    · exact h.recorded_lt a ha
    · obtain rfl := List.mem_singleton.mp ha
      exact hlt

/-- **One write.** -/
theorem write (h : SameTimes db pg) {now : Time} {w : TimedWrite} (hlt : w.latest now < bound) :
    SameTimes (w.onSqlite now db) (w.onPostgres now pg) := by
  cases w with
  | recordReintegration x predecessor horizon => exact h.recordReintegration hlt
  | renewTrust x horizon => exact h.renewTrust hlt
  | recordSignalAttempt source x kind outcome => exact h.recordSignalAttempt hlt

/-- **Any writes**, by induction. -/
theorem writes : ∀ (ws : TimedWrites) {db : Db} {pg : Postgres}, SameTimes db pg →
    (∀ w ∈ ws, w.2.latest w.1 < bound) → SameTimes (ws.onSqlite db) (ws.onPostgres pg)
  | [], _, _, h, _ => h
  | w :: ws, _, _, h, hlt =>
    writes ws (h.write (hlt w List.mem_cons_self)) fun v hv => hlt v (List.mem_cons_of_mem _ hv)

/-! ## 3. What is read -/

theorem mem_active_iff (h : SameTimes db pg) {now : ℕ} (hnow : now < bound) (x : NodeId) :
    x ∈ db.getActiveHorizonSet now ↔ x ∈ pg.getActiveHorizonSet now := by
  simp only [Db.getActiveHorizonSet, Postgres.getActiveHorizonSet, List.mem_map, List.mem_filter,
    decide_eq_true_eq]
  constructor
  · rintro ⟨r, ⟨hr, hlt⟩, hx⟩
    obtain ⟨r', hr', hx', htext⟩ := (h.horizon x r.trustExpiresUtc).mp ⟨r, hr, hx, rfl⟩
    rw [← htext, stamp_lt_iff hnow (h.expires_lt r' hr')] at hlt
    exact ⟨r', ⟨hr', hlt⟩, hx'⟩
  · rintro ⟨r, ⟨hr, hlt⟩, hx⟩
    obtain ⟨r', hr', hx', htext⟩ := (h.horizon x (Clock.stamp r.trustExpires)).mpr ⟨r, hr, hx, rfl⟩
    refine ⟨r', ⟨hr', ?_⟩, hx'⟩
    rw [htext]
    exact (stamp_lt_iff hnow (h.expires_lt r hr)).mpr hlt

theorem mem_expired_iff (h : SameTimes db pg) {now : ℕ} (hnow : now < bound) (x : NodeId) :
    x ∈ db.getExpiredHorizonSet now ↔ x ∈ pg.getExpiredHorizonSet now := by
  simp only [Db.getExpiredHorizonSet, Postgres.getExpiredHorizonSet, List.mem_map, List.mem_filter,
    decide_eq_true_eq]
  constructor
  · rintro ⟨r, ⟨hr, hle⟩, hx⟩
    obtain ⟨r', hr', hx', htext⟩ := (h.horizon x r.trustExpiresUtc).mp ⟨r, hr, hx, rfl⟩
    rw [← htext, stamp_le_iff (h.expires_lt r' hr') hnow] at hle
    exact ⟨r', ⟨hr', hle⟩, hx'⟩
  · rintro ⟨r, ⟨hr, hle⟩, hx⟩
    obtain ⟨r', hr', hx', htext⟩ := (h.horizon x (Clock.stamp r.trustExpires)).mpr ⟨r, hr, hx, rfl⟩
    refine ⟨r', ⟨hr', ?_⟩, hx'⟩
    rw [htext]
    exact (stamp_le_iff (h.expires_lt r hr) hnow).mpr hle

/-- A window selects the rows of one table that are the texts of those it selects of the other. -/
theorem length_filter (h : SameTimes db pg) {since : Fields} (hsince : since.Valid)
    (p : SignalAttempt → Bool) (q : Postgres.AttemptRow → Bool) (hpq : ∀ a, p a.text = q a) :
    (db.signalAttempts.filter fun a => p a ∧ since.stamp < a.recordedAtUtc).length =
      (pg.signalAttempts.filter fun a => q a ∧ since.utc.moment < a.recordedAt).length := by
  rw [h.attempts, List.filter_map, List.length_map]
  refine congrArg List.length (List.filter_congr fun a ha => ?_)
  rw [Function.comp_apply, hpq, moment_utc, stamp_eq hsince]
  have htext : Clock.stamp since.toTime < a.text.recordedAtUtc ↔ since.toTime < a.recordedAt :=
    stamp_lt_iff (Fields.toTime_lt hsince) (h.recorded_lt a ha)
  rw [decide_eq_decide, htext, Int.ofNat_lt]

theorem countRecentSignals (h : SameTimes db pg) {since : Fields} (hsince : since.Valid)
    (source : String) :
    pg.countRecentSignals source since.stamp = some (db.countRecentSignals source since.stamp) := by
  rw [Postgres.countRecentSignals, parseUtc_stamp hsince, Option.map_some]
  have hlen := h.length_filter hsince (fun a => a.signalSource = source)
    (fun a => a.signalSource = source) fun _ => rfl
  simp only [decide_eq_true_eq] at hlen
  rw [Db.countRecentSignals, hlen]

theorem countRecentSignalsGlobal (h : SameTimes db pg) {since : Fields} (hsince : since.Valid) :
    pg.countRecentSignalsGlobal since.stamp = some (db.countRecentSignalsGlobal since.stamp) := by
  rw [Postgres.countRecentSignalsGlobal, parseUtc_stamp hsince, Option.map_some]
  have hlen := h.length_filter hsince (fun _ => true) (fun _ => true) fun _ => rfl
  simp only [true_and] at hlen
  rw [Db.countRecentSignalsGlobal, hlen]

end SameTimes

/-- **Times as text.**  Any two UTC-aware datetimes compare as their texts do, and a text is read
back as the datetime it was written from; so after any writes, in any window and at any moment, the
two backends select the same rows. -/
theorem stamps_are_times (a b : Fields) (ha : a.Valid) (hb : b.Valid) (ws : TimedWrites)
    (hws : ∀ w ∈ ws, w.2.latest w.1 < bound) (source : String) :
    (a.utc.moment < b.utc.moment ↔ a.stamp < b.stamp) ∧ parseUtc a.stamp = some a.utc ∧
    (∀ x, x ∈ (ws.onSqlite {}).getActiveHorizonSet a.toTime ↔
      x ∈ (ws.onPostgres {}).getActiveHorizonSet a.toTime) ∧
    (∀ x, x ∈ (ws.onSqlite {}).getExpiredHorizonSet a.toTime ↔
      x ∈ (ws.onPostgres {}).getExpiredHorizonSet a.toTime) ∧
    (ws.onPostgres {}).countRecentSignals source a.stamp =
      some ((ws.onSqlite {}).countRecentSignals source a.stamp) ∧
    (ws.onPostgres {}).countRecentSignalsGlobal a.stamp =
      some ((ws.onSqlite {}).countRecentSignalsGlobal a.stamp) := by
  have hsame : SameTimes (ws.onSqlite {}) (ws.onPostgres {}) := SameTimes.initial.writes ws hws
  refine ⟨?_, parseUtc_stamp ha, hsame.mem_active_iff (Fields.toTime_lt ha),
    hsame.mem_expired_iff (Fields.toTime_lt ha), hsame.countRecentSignals ha source,
    hsame.countRecentSignalsGlobal ha⟩
  rw [moment_utc, moment_utc, stamp_lt_stamp_iff ha hb, Int.ofNat_lt]

/-- A whole second and one microsecond later: the fraction is left out of the first text, and it is
the smaller one. -/
theorem stamps_are_times_second :
    let a : Fields := ⟨2025, 10, 27, 10, 0, 0, 0⟩
    let b : Fields := ⟨2025, 10, 27, 10, 0, 0, 1⟩
    a.stamp = "2025-10-27T10:00:00+00:00Z" ∧ b.stamp = "2025-10-27T10:00:00.000001+00:00Z" ∧
      a.stamp < b.stamp ∧ parseUtc a.stamp = some a.utc := by
  intro a b
  have hboth := stamps_are_times a b (by decide) (by decide) [] (by simp) "detector"
  exact ⟨by decide, by decide, hboth.1.mp (by decide), hboth.2.1⟩

end GovernorGateway
