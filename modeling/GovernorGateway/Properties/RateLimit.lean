/-
# The rate limit of designations

`/designate` counts the recent attempts of its caller, and records its own attempt afterwards, in
another call.  `PENDING` is the outcome of an attempt that is let through.

`rateLimit_of_timely`: in every interleaving in which no attempt gets between a count and the record
that relies on it (or the count with it would still have been below the limit), no window of
`CONTINUATION_HORIZON_SECONDS` holds more let-through attempts of one identity than
`DESIGNATION_RATE_LIMIT`.  Two designations that count before either records exceed a limit of one
(`rateLimit_exceeded`).

The clock is the one thing the tasks share that the database does not hold: `datetime.now` does not
go back.
-/
import GovernorGateway.Clock.Order
import GovernorGateway.Concurrency.Scheduled

namespace GovernorGateway

open Effects

variable {ι : Type} [DecidableEq ι] {g : Setup} {answers : Answers}

/-! ## 1. Attempts -/

/-- The attempts of a source after a time, whatever became of them. -/
def recentAttempts (source since : String) (rows : List SignalAttempt) : ℕ :=
  (rows.filter fun a => a.signalSource = source ∧ since < a.recordedAtUtc).length

/-- The attempts of a source that were let through after `a`, and not after `b`. -/
def letThrough (source : String) (a b : Time) (rows : List SignalAttempt) : ℕ :=
  (rows.filter fun r => r.signalSource = source ∧ r.outcome = "PENDING" ∧
    Clock.stamp a < r.recordedAtUtc ∧ ¬ Clock.stamp b < r.recordedAtUtc).length

/-- **The limit.**  No window of `CONTINUATION_HORIZON_SECONDS` holds more. -/
def WithinRate (g : Setup) (rows : List SignalAttempt) : Prop :=
  ∀ (source : String) (a b : Time), a ≤ b →
    b ≤ a + Clock.seconds g.settings.continuationHorizonSeconds → b < Clock.bound →
    (letThrough source a b rows : Int) ≤ g.settings.designationRateLimit

theorem stamp_mono {s t : ℕ} (hst : s ≤ t) (ht : t < Clock.bound) :
    Clock.stamp s ≤ Clock.stamp t := by
  rcases Nat.lt_or_eq_of_le hst with h | rfl
  · exact (Clock.stamp_lt ht h).le
  · exact le_rfl

/-- An earlier start counts more. -/
theorem recentAttempts_mono {source : String} {s t : ℕ} (hst : s ≤ t) (ht : t < Clock.bound)
    (rows : List SignalAttempt) :
    recentAttempts source (Clock.stamp t) rows ≤ recentAttempts source (Clock.stamp s) rows := by
  refine (List.monotone_filter_right rows ?_).length_le
  intro r hr
  obtain ⟨hsource, hsince⟩ := of_decide_eq_true hr
  exact decide_eq_true ⟨hsource, (stamp_mono hst ht).trans_lt hsince⟩

/-- What is let through is an attempt. -/
theorem letThrough_le {source since : String} {a b : Time} (h : since ≤ Clock.stamp a)
    (rows : List SignalAttempt) : letThrough source a b rows ≤ recentAttempts source since rows := by
  refine (List.monotone_filter_right rows ?_).length_le
  intro r hr
  obtain ⟨hsource, -, hafter, -⟩ := of_decide_eq_true hr
  exact decide_eq_true ⟨hsource, h.trans_lt hafter⟩

theorem letThrough_append (source : String) (a b : Time) (rows rows' : List SignalAttempt) :
    letThrough source a b (rows ++ rows') =
      letThrough source a b rows + letThrough source a b rows' := by
  unfold letThrough
  rw [List.filter_append, List.length_append]

theorem letThrough_singleton (source : String) (a b : Time) (r : SignalAttempt) :
    letThrough source a b [r] = if r.signalSource = source ∧ r.outcome = "PENDING" ∧
      Clock.stamp a < r.recordedAtUtc ∧ ¬ Clock.stamp b < r.recordedAtUtc then 1 else 0 := by
  unfold letThrough
  split
  · rename_i h
    rw [List.filter_cons_of_pos (by simpa using h), List.filter_nil, List.length_singleton]
  · rename_i h
    rw [List.filter_cons_of_neg (by simpa using h), List.filter_nil, List.length_nil]

/-- The start of the window that ends at `now`. -/
def windowStart (g : Setup) (now : Time) : String :=
  Clock.stamp (now - Clock.seconds g.settings.continuationHorizonSeconds)

/-- **One record.**  An attempt that is let through below the limit keeps the limit. -/
theorem WithinRate.record {rows : List SignalAttempt} (h : WithinRate g rows)
    {source kind outcome : String} {x : NodeId} {now : ℕ} (hnow : now < Clock.bound)
    (hroom : outcome = "PENDING" →
      (recentAttempts source (windowStart g now) rows : Int) < g.settings.designationRateLimit) :
    WithinRate g (rows ++ [⟨source, x, kind, outcome, Clock.stamp now⟩]) := by
  intro s a b hab hlong hbound
  have hold : (letThrough s a b rows : Int) ≤ g.settings.designationRateLimit :=
    h s a b hab hlong hbound
  by_cases hin : source = s ∧ outcome = "PENDING" ∧ Clock.stamp a < Clock.stamp now ∧
      ¬ Clock.stamp b < Clock.stamp now
  · obtain ⟨rfl, houtcome, hafter, hbefore⟩ := hin
    have hend : now ≤ b := by
      by_contra hlt
      exact hbefore (Clock.stamp_lt hnow (Nat.lt_of_not_le hlt))
    have hstart : now - Clock.seconds g.settings.continuationHorizonSeconds ≤ a :=
      Nat.sub_le_of_le_add (hend.trans hlong)
    have hcount : letThrough source a b rows ≤ recentAttempts source (windowStart g now) rows :=
      letThrough_le (stamp_mono hstart (hab.trans_lt hbound)) rows
    have hroom := hroom houtcome
    rw [letThrough_append, letThrough_singleton, if_pos ⟨rfl, houtcome, hafter, hbefore⟩]
    omega
  · rw [letThrough_append, letThrough_singleton, if_neg hin]
    exact hold

/-! ## 2. The clock and the counts -/

/-- The shared state, what the clock showed last, and the attempts that were stored when a task
last counted. -/
structure Metered (ι : Type) where
  gateway : Gateway ι
  clock : Time := 0
  counted : ι → List SignalAttempt := fun _ => []

/-- What the clock shows after a call: it does not go back, nor beyond `datetime`. -/
def Ticks : (c : Call) → Except Exc c.Res → Time → Time → Prop
  | .ext (.now _), r, t, t' => t ≤ t' ∧ t' < Clock.bound ∧ ∀ a, r = .ok a → a = t'
  | _, _, t, t' => t' = t

/-- `count_recent_signals`. -/
def Call.counts : Call → Bool
  | .store (.countRecentSignals _ _) => true
  | _ => false

/-- The attempts a task sees. -/
def Gateway.attempts (s : Gateway ι) (i : ι) : List SignalAttempt := (s.view i).db.signalAttempts

/-- One call of task `i`. -/
def MeterStep (g : Setup) (answers : Answers) (i : ι) : Trans Call Call.Res Exc (Metered ι) :=
  fun c m r m' => TaskStep g answers i c m.gateway r m'.gateway ∧ Ticks c r m.clock m'.clock ∧
    m'.counted = if c.counts then Function.update m.counted i (m.gateway.attempts i) else m.counted

/-- The attempts of a source. -/
def attemptsOf (source : String) (rows : List SignalAttempt) : List SignalAttempt :=
  rows.filter fun a => a.signalSource = source

/-- **The condition.**  When an attempt is recorded as let through, no other attempt of its source
has been recorded since its task counted; or there is still room. -/
def Timely (g : Setup) (i : ι) (c : Call) (m : Metered ι) : Prop :=
  ∀ source x kind now, c = .store (.recordSignalAttempt source x kind "PENDING" now) →
    attemptsOf source (m.gateway.attempts i) = attemptsOf source (m.counted i) ∨
    (recentAttempts source (windowStart g now) (m.gateway.attempts i) : Int) <
      g.settings.designationRateLimit

/-- The steps that meet it. -/
def TimelyStep (g : Setup) (answers : Answers) (i : ι) : Trans Call Call.Res Exc (Metered ι) :=
  fun c m r m' => MeterStep g answers i c m r m' ∧ Timely g i c m

/-- The handlers of some requests, none of which has started. -/
def Metered.serve (g : Setup) (req : ι → Request) (m : Metered ι) :
    Pool ι Call Call.Res Exc (Metered ι) (Except Exc Response) :=
  ⟨m, fun i => ((req i).handle g).tree⟩

/-! ## 3. One designation -/

/-- What a task knows: a time that has passed, and the attempts it has counted. -/
structure Meter where
  seen : Time := 0
  counted : List SignalAttempt := []

/-- A call of a task, as the task sees it. -/
def MeterLocal : Trans Call Call.Res Exc Meter
  | .ext (.now _), l, r, l' =>
    l.seen ≤ l'.seen ∧ l'.seen < Clock.bound ∧ (∀ a, r = .ok a → a = l'.seen) ∧
      l'.counted = l.counted
  | .store (.countRecentSignals source since), l, r, l' =>
    r = .ok (recentAttempts source since l'.counted) ∧ l'.seen = l.seen
  | _, l, _, l' => l' = l

/-- What it owes: an attempt is let through only below the limit, as far as the task has counted. -/
def MeterDuty (g : Setup) : Trans Call Call.Res Exc Meter
  | .store (.recordSignalAttempt source _ _ outcome now), l, _, _ => now < Clock.bound ∧
    (outcome = "PENDING" → (recentAttempts source (windowStart g now) l.counted : Int) <
      g.settings.designationRateLimit)
  | _, _, _, _ => True

/-- A part of a handler that records no attempt owes nothing. -/
theorem meter_of_uses {α : Type} {x : Handler α} (hx : x.Uses fun c => c.kind ≠ .signal)
    (l : Meter) : Act.Sat MeterLocal (MeterDuty g) x (fun _ _ => True) l := by
  refine Prog.Uses.sat (I := fun _ => True) hx ?_ trivial
  intro c hc l r l' _ _
  refine ⟨?_, trivial⟩
  cases c with
  | store c =>
    cases c with
    | recordSignalAttempt source x kind outcome now => exact absurd rfl hc
    | _ => trivial
  | _ => trivial

/-- The record of an attempt, when the last time that was read is `l.seen`. -/
theorem meter_recordSignal {source kind outcome : String} {x : NodeId} {l : Meter}
    (h : outcome = "PENDING" → ∀ t, l.seen ≤ t → t < Clock.bound →
      (recentAttempts source (windowStart g t) l.counted : Int) < g.settings.designationRateLimit) :
    Act.Sat MeterLocal (MeterDuty g) (recordSignal source x kind outcome) (fun _ _ => True) l := by
  rw [recordSignal, Act.sat_bind]
  rintro r l₁ ⟨hseen, hbound, hr, hcounted⟩
  refine ⟨trivial, ?_⟩
  cases r with
  | error e => trivial
  | ok now =>
    obtain rfl := hr now rfl
    rintro r l₂ -
    refine ⟨⟨hbound, fun houtcome => ?_⟩, trivial⟩
    rw [hcounted]
    exact h houtcome _ hseen hbound

/-- **Rate limiting.**  The window it counts starts no later than the one of its record. -/
theorem meter_limitDesignations (identity : String) (x : NodeId) (l : Meter) :
    Act.Sat MeterLocal (MeterDuty g) (limitDesignations g identity x) (fun _ _ => True) l := by
  rw [limitDesignations, Act.sat_bind, rateWindowStart, Act.sat_bind]
  rintro r l₁ ⟨-, -, hr, -⟩
  refine ⟨trivial, ?_⟩
  cases r with
  | error e => trivial
  | ok t₀ =>
    obtain rfl := hr t₀ rfl
    change Act.Sat _ _ (store (.countRecentSignals identity _) >>= _) _ _
    rw [Act.sat_bind]
    rintro r l₂ ⟨rfl, hseen⟩
    refine ⟨trivial, ?_⟩
    change Act.Sat _ _ (if _ then _ else _) _ _
    split
    · rw [Act.sat_bind]
      refine (meter_recordSignal fun houtcome => absurd houtcome (by decide)).mono ?_
      rintro (e | a) l₃ -
      · trivial
      · trivial
    · rename_i hroom
      refine meter_recordSignal fun _ t ht hbound => ?_
      have hstart : l₁.seen - Clock.seconds g.settings.continuationHorizonSeconds ≤
          t - Clock.seconds g.settings.continuationHorizonSeconds :=
        Nat.sub_le_sub_right (hseen ▸ ht) _
      have hcount : recentAttempts identity (windowStart g t) l₂.counted ≤
          recentAttempts identity (windowStart g l₁.seen) l₂.counted :=
        recentAttempts_mono hstart ((Nat.sub_le _ _).trans_lt hbound) l₂.counted
      have hbelow : (recentAttempts identity (windowStart g l₁.seen) l₂.counted : Int) <
          g.settings.designationRateLimit := Int.not_le.mp hroom
      omega

theorem of_noSignal {ks : List CallKind} (h : ks.contains .signal = false) :
    Call.Of (fun c => c.kind ≠ .signal) ks := by
  intro c hc heq
  rw [heq, ← List.contains_iff_mem, h] at hc
  exact absurd hc (by decide)

/-- `/designate` records its attempt where it is rate limited, and nowhere else. -/
theorem meter_designatePoison (header : Option String) (e : DesignationEvent) (l : Meter) :
    Act.Sat MeterLocal (MeterDuty g) (designatePoison g header e) (fun _ _ => True) l := by
  rw [designatePoison, Act.sat_bind]
  refine (meter_of_uses (uses_verifyRole g (of_noSignal rfl) header "designator") l).mono ?_
  rintro (e' | claims) l₁ -
  · trivial
  change Act.Sat _ _ (limitDesignations g _ _ >>= _) _ _
  rw [Act.sat_bind]
  refine (meter_limitDesignations _ _ l₁).mono ?_
  rintro (e' | _) l₂ -
  · trivial
  exact meter_of_uses (uses_withExclusive (of_noSignal rfl)
    (uses_withTransaction (of_noSignal rfl) (uses_designateLocked g (of_noSignal rfl) e _))) l₂

/-! ## 4. Designations that run together -/

/-- What every task knows is true, and the limit holds of what is committed and of the copy of an
open transaction. -/
structure Metered.Coherent (g : Setup) (m : Metered ι) (l : ι → Meter) : Prop where
  db : WithinRate g m.gateway.db.signalAttempts
  tx : ∀ j d, m.gateway.tx = some (j, d) → WithinRate g d.signalAttempts
  seen : ∀ i, (l i).seen ≤ m.clock
  counted : ∀ i, (l i).counted = m.counted i

/-- Only one function writes the table. -/
theorem Store.exec_signalAttempts (g : Setup) (c : Store) (db : Db) :
    (c.exec g db).2.signalAttempts = db.signalAttempts ∨
      ∃ source x kind outcome now, c = .recordSignalAttempt source x kind outcome now := by
  cases c with
  | recordSignalAttempt source x kind outcome now => exact Or.inr ⟨source, x, kind, outcome, now, rfl⟩
  | computeBlastRadius root =>
    obtain ⟨rcs, hrcs⟩ := Db.computeBlastRadius_snd g.settings.maxTraversalDepth root db
    refine Or.inl ?_
    change (db.computeBlastRadius g.settings.maxTraversalDepth root).2.signalAttempts = _
    rw [hrcs]
    rfl
  | recordShadowDecision d =>
    simp only [Store.exec, Db.recordShadowDecision]
    split <;> exact Or.inl rfl
  | _ => exact Or.inl rfl

/-- A step writes a table of what is committed, or of the task's own copy. -/
theorem TaskStep.attempts {K : List SignalAttempt → Prop} {s s' : Gateway ι} {i : ι} {c : Call}
    {r : Except Exc c.Res} (ht : TaskStep g answers i c s r s')
    (hc : ∀ c', c = .store c' → K (c'.exec g (s.view i).db).2.signalAttempts)
    (hdb : K s.db.signalAttempts) (htx : ∀ j d, s.tx = some (j, d) → K d.signalAttempts) :
    K s'.db.signalAttempts ∧ ∀ j d, s'.tx = some (j, d) → K d.signalAttempts := by
  cases c with
  | store c =>
    have hc' := hc c rfl
    cases hs : s.tx with
    | none =>
      rw [Coherent.view_of_none hs] at hc'
      simp only [TaskStep, hs] at ht
      obtain ⟨-, rfl⟩ := ht
      exact ⟨hc', by simp⟩
    | some q =>
      obtain ⟨j, d⟩ := q
      simp only [TaskStep, hs] at ht
      split at ht
      · rename_i hj
        subst hj
        rw [Coherent.view_of_own hs] at hc'
        obtain ⟨-, rfl⟩ := ht
        refine ⟨hdb, fun k d' hd => ?_⟩
        obtain ⟨-, rfl⟩ := Prod.mk.inj (Option.some.inj hd)
        exact hc'
      · obtain ⟨rfl, -⟩ := ht
        exact ⟨hdb, htx⟩
  | ext e =>
    obtain ⟨-, rfl⟩ := ht
    exact ⟨hdb, htx⟩
  | getAdapterKey =>
    obtain ⟨-, rfl⟩ := ht
    exact ⟨hdb, htx⟩
  | setAdapterKey key =>
    obtain ⟨-, rfl⟩ := ht
    exact ⟨hdb, htx⟩
  | sync k =>
    cases k with
    | begin =>
      rcases ht with ⟨-, -, rfl⟩ | ⟨-, -, rfl⟩
      · refine ⟨hdb, fun k d' hd => ?_⟩
        obtain ⟨-, rfl⟩ := Prod.mk.inj (Option.some.inj hd)
        exact hdb
      · exact ⟨hdb, htx⟩
    | commit =>
      obtain ⟨d, hs, -, rfl⟩ := ht
      exact ⟨htx i d hs, by simp⟩
    | rollback =>
      obtain ⟨d, -, -, rfl⟩ := ht
      exact ⟨hdb, by simp⟩
    | _ =>
      obtain ⟨l, -, -, rfl⟩ := ht
      exact ⟨hdb, htx⟩

theorem recentAttempts_eq (source since : String) (rows : List SignalAttempt) :
    recentAttempts source since rows =
      ((attemptsOf source rows).filter fun a => since < a.recordedAtUtc).length := by
  unfold recentAttempts attemptsOf
  rw [List.filter_filter]
  simp only [Bool.decide_and, Bool.and_comm]

/-- A task that does its duty, in time, keeps the limit. -/
theorem WithinRate.timely {m : Metered ι} {l : Meter} {i : ι} {c : Store}
    {r : Except Exc c.Res} {l' : Meter} (hcounted : l.counted = m.counted i)
    (hduty : MeterDuty g (.store c) l r l') (htimely : Timely g i (.store c) m)
    (h : WithinRate g (m.gateway.attempts i)) :
    WithinRate g (c.exec g (m.gateway.view i).db).2.signalAttempts := by
  rcases Store.exec_signalAttempts g c (m.gateway.view i).db with hsame |
    ⟨source, x, kind, outcome, now, rfl⟩
  · rw [hsame]
    exact h
  · obtain ⟨hnow, hroom⟩ := hduty
    refine h.record hnow fun houtcome => ?_
    subst houtcome
    rcases htimely source x kind now rfl with hnone | hroom'
    · rw [recentAttempts_eq, hnone, ← hcounted, ← recentAttempts_eq]
      exact hroom rfl
    · exact hroom'

theorem Metered.Coherent.view {m : Metered ι} {l : ι → Meter} (h : m.Coherent g l) (i : ι) :
    WithinRate g (m.gateway.attempts i) := by
  unfold Gateway.attempts Gateway.view
  split
  · exact h.db
  · rename_i j d hs
    split
    · exact h.tx j d hs
    · exact h.db

theorem Ticks.le {c : Call} {r : Except Exc c.Res} {t t' : Time} (h : Ticks c r t t') : t ≤ t' := by
  cases c with
  | ext e =>
    cases e with
    | now use => exact h.1
    | _ => exact h.ge
  | _ => exact h.ge

theorem MeterStep.counted_ne {m m' : Metered ι} {i j : ι} {c : Call} {r : Except Exc c.Res}
    (ht : MeterStep g answers i c m r m') (hj : j ≠ i) : m'.counted j = m.counted j := by
  rw [ht.2.2]
  split
  · rw [Function.update_of_ne hj]
  · rfl

/-- A count is of what the task sees. -/
theorem TaskStep.count {s s' : Gateway ι} {i : ι} {source since : String} {r : Except Exc ℕ}
    (ht : TaskStep g answers i (.store (.countRecentSignals source since)) s r s') :
    r = .ok (recentAttempts source since (s.attempts i)) := by
  cases hs : s.tx with
  | none =>
    rw [Gateway.attempts, Coherent.view_of_none hs]
    simp only [TaskStep, hs] at ht
    exact ht.1
  | some q =>
    obtain ⟨j, d⟩ := q
    simp only [TaskStep, hs] at ht
    split at ht
    · rename_i hj
      subst hj
      rw [Gateway.attempts, Coherent.view_of_own hs]
      exact ht.1
    · rename_i hj
      rw [Gateway.attempts, Coherent.view_of_other hs hj]
      rcases ht.2 with ⟨hr, -⟩ | ⟨hlock, -⟩
      · exact hr
      · exact absurd hlock (by simp [Store.readOnly])

/-- A call of the shared state, as its task sees it. -/
theorem MeterStep.exists_local {m m' : Metered ι} {l : Meter} {i : ι} {c : Call} {r : Except Exc c.Res}
    (ht : MeterStep g answers i c m r m') (hseen : l.seen ≤ m.clock)
    (hcounted : l.counted = m.counted i) :
    ∃ l', MeterLocal c l r l' ∧ l'.seen ≤ m'.clock ∧ l'.counted = m'.counted i := by
  obtain ⟨htask, hticks, hcount⟩ := ht
  have hseen' : l.seen ≤ m'.clock := hseen.trans hticks.le
  have hstill : c.counts = false → l.counted = m'.counted i := by
    intro hc
    rw [hcount, hc]
    exact hcounted
  cases c with
  | store c =>
    cases c with
    | countRecentSignals source since =>
      refine ⟨{ l with counted := m.gateway.attempts i }, ⟨?_, rfl⟩, hseen', ?_⟩
      · exact htask.count
      · rw [hcount, if_pos (show Call.counts _ = true from rfl), Function.update_self]
    | _ => exact ⟨l, rfl, hseen', hstill rfl⟩
  | ext e =>
    cases e with
    | now use =>
      obtain ⟨hle, hbound, hr⟩ := hticks
      exact ⟨{ l with seen := m'.clock }, ⟨hseen', hbound, hr, rfl⟩, le_rfl, hstill rfl⟩
    | _ => exact ⟨l, rfl, hseen', hstill rfl⟩
  | _ => exact ⟨l, rfl, hseen', hstill rfl⟩

/-- **A step of a task that does its duty, in time, leaves everything true.** -/
theorem Metered.Coherent.step {m m' : Metered ι} {l : ι → Meter} (h : m.Coherent g l) {i : ι}
    {c : Call} {r : Except Exc c.Res} (ht : TimelyStep g answers i c m r m') :
    ∃ l', MeterLocal c (l i) r l' ∧
      (MeterDuty g c (l i) r l' → m'.Coherent g (Function.update l i l')) := by
  obtain ⟨ht, htimely⟩ := ht
  obtain ⟨l', hlocal, hseen, hcounted⟩ :=
    ht.exists_local (h.seen i) (h.counted i)
  refine ⟨l', hlocal, fun hduty => ?_⟩
  have hkeep : ∀ c', c = .store c' →
      WithinRate g (c'.exec g (m.gateway.view i).db).2.signalAttempts := by
    rintro c' rfl
    exact WithinRate.timely (h.counted i) hduty htimely (h.view i)
  obtain ⟨hdb, htx⟩ := ht.1.attempts hkeep h.db h.tx
  refine ⟨hdb, htx, fun j => ?_, fun j => ?_⟩
  · by_cases hj : j = i
    · subst hj
      rwa [Function.update_self]
    · rw [Function.update_of_ne hj]
      exact (h.seen j).trans ht.2.1.le
  · by_cases hj : j = i
    · subst hj
      rwa [Function.update_self]
    · rw [Function.update_of_ne hj, ht.counted_ne hj]
      exact h.counted j

/-- **Timely designations keep the limit.** -/
theorem rateLimit_of_timely {req : ι → Request}
    (hreq : ∀ i, ∃ header e, req i = .designate header e) {s : Gateway ι} (htx : s.tx = none)
    (hlimit : WithinRate g s.db.signalAttempts)
    {p : Pool ι Call Call.Res Exc (Metered ι) (Except Exc Response)}
    (hrun : Relation.ReflTransGen (Pool.Step (TimelyStep g answers))
      (Metered.serve g req { gateway := s }) p) :
    WithinRate g p.state.gateway.db.signalAttempts := by
  have hstart : ({ gateway := s } : Metered ι).Coherent g fun _ => {} :=
    ⟨hlimit, fun j d hd => absurd (htx.symm.trans hd) (by simp), fun _ => le_rfl, fun _ => rfl⟩
  have hsat : ∀ i, Act.Sat MeterLocal (MeterDuty g) ((req i).handle g) (fun _ _ => True) {} := by
    intro i
    obtain ⟨header, e, hi⟩ := hreq i
    rw [hi]
    exact meter_designatePoison header e {}
  obtain ⟨l, hl, -⟩ := Pool.invariant (I := fun m l => m.Coherent g l)
    (L := fun _ => MeterLocal) (P := fun _ => MeterDuty g) (Q := fun _ _ _ => True)
    (fun i c m r m' l hm ht => hm.step ht) hrun hstart hsat
  exact hl.db

/-! ## 5. Two designations -/

/-- A call that reads the clock. -/
def Call.ticks : Call → Bool
  | .ext (.now _) => true
  | _ => false

/-- What a call does under the script; the task waits while the clock would go back. -/
def Script.meterStep (o : Script) (g : Setup) (i : ι) (c : Call) (m : Metered ι) :
    Option (Except Exc c.Res × Metered ι) :=
  match o.taskStep g i c m.gateway with
  | none => none
  | some (r, s) =>
    if m.clock ≤ o.now ∧ o.now < Clock.bound then
      some (r, { gateway := s, clock := if c.ticks then o.now else m.clock,
                 counted := if c.counts then Function.update m.counted i (m.gateway.attempts i)
                   else m.counted })
    else none

theorem Script.meterStep_spec (o : Script) {i : ι} {c : Call} {m m' : Metered ι}
    {r : Except Exc c.Res} (h : o.meterStep g i c m = some (r, m')) :
    MeterStep g Answers.lawful i c m r m' := by
  unfold meterStep at h
  split at h
  · exact absurd h (by simp)
  · rename_i r₁ s hs
    split at h
    · rename_i hclock
      obtain ⟨rfl, rfl⟩ := Prod.mk.inj (Option.some.inj h)
      refine ⟨o.taskStep_spec hs, ?_, rfl⟩
      cases c with
      | ext e =>
        cases e with
        | now use =>
          refine ⟨hclock.1, hclock.2, fun a ha => ?_⟩
          obtain ⟨rfl, -⟩ := Prod.mk.inj (Option.some.inj hs)
          exact (Except.ok.inj ha).symm
        | _ => rfl
      | _ => rfl
    · exact absurd h (by simp)

/-- The condition, when it is met because nobody has been recorded in between. -/
def Call.timely (i : ι) (m : Metered ι) : Call → Bool
  | .store (.recordSignalAttempt source _ _ _ _) =>
    attemptsOf source (m.gateway.attempts i) = attemptsOf source (m.counted i)
  | _ => true

theorem Call.timely_spec {i : ι} {m : Metered ι} {c : Call} (h : c.timely i m = true) :
    Timely g i c m := by
  rintro source x kind now rfl
  exact Or.inl (of_decide_eq_true h)

/-- The open deployment, with a limit of one. -/
def limitedSetup : Setup :=
  { openSetup with settings := { openSetup.settings with designationRateLimit := 1 } }

/-- The root is designated. -/
def limitedRequest : Request := .designate (some "Bearer designator") ⟨"clean-parent-1", "report"⟩

/-- The root is designated twice. -/
def limitedPool : Pool Bool Call Call.Res Exc (Metered Bool) (Except Exc Response) :=
  Metered.serve limitedSetup (fun _ => limitedRequest)
    { gateway := { db := (World.initial limitedSetup {} none).db } }

/-- The script of both tasks, on 2025-10-28 at midnight. -/
def limitedScript : Script := { now := 63897206400000000, uuid := "0" }

/-- The same, when only timely records are made. -/
def Script.timelyStep (o : Script) (g : Setup) (i : ι) (c : Call) (m : Metered ι) :
    Option (Except Exc c.Res × Metered ι) :=
  if c.timely i m then o.meterStep g i c m else none

theorem Script.timelyStep_spec (o : Script) {i : ι} {c : Call} {m m' : Metered ι}
    {r : Except Exc c.Res} (h : o.timelyStep g i c m = some (r, m')) :
    TimelyStep g Answers.lawful i c m r m' := by
  unfold timelyStep at h
  split at h
  · rename_i htimely
    exact ⟨o.meterStep_spec h, Call.timely_spec htimely⟩
  · exact absurd h (by simp)

/-- One after the other: the second attempt is refused. -/
theorem rateLimit_of_timely_sequential : ∃ p, Relation.ReflTransGen
    (Pool.Step (TimelyStep limitedSetup Answers.lawful)) limitedPool p ∧
    WithinRate limitedSetup p.state.gateway.db.signalAttempts ∧
    p.state.gateway.db.signalAttempts.map SignalAttempt.outcome = ["PENDING", "RATE_LIMITED"] := by
  have hrun := Pool.schedule_run (T := TimelyStep limitedSetup Answers.lawful)
    (fun _ _ _ _ _ h => limitedScript.timelyStep_spec h)
    [(true, fun _ => false), (false, fun _ => false)] limitedPool
  have hempty : WithinRate limitedSetup [] := by
    intro source a b _ _ _
    exact (by decide : (0 : Int) ≤ 1)
  refine ⟨_, hrun, rateLimit_of_timely (fun _ => ⟨_, _, rfl⟩) rfl hempty hrun, ?_⟩
  decide +kernel

/-- The next call of the task records an attempt. -/
def Call.records : Call → Bool
  | .store (.recordSignalAttempt _ _ _ _ _) => true
  | _ => false

/-- The next call of the task asks for the exclusive side. -/
def Call.requests : Call → Bool
  | .sync .requestExclusive => true
  | _ => false

/-- **Both are let through.**  Each counts before the other one records. -/
theorem rateLimit_exceeded : ¬ ∀ p, Relation.ReflTransGen
    (Pool.Step (MeterStep limitedSetup Answers.lawful)) limitedPool p →
    WithinRate limitedSetup p.state.gateway.db.signalAttempts := by
  intro hall
  have hrun := Pool.schedule_run (T := MeterStep limitedSetup Answers.lawful)
    (fun _ _ _ _ _ h => limitedScript.meterStep_spec h)
    [(true, Call.records), (false, Call.records), (true, Call.requests), (false, Call.requests)]
    limitedPool
  have htwo : letThrough "designator" 63897206399000000 63897206400000000 (limitedPool.schedule
      (fun i => limitedScript.meterStep limitedSetup i) [(true, Call.records),
        (false, Call.records), (true, Call.requests),
        (false, Call.requests)]).state.gateway.db.signalAttempts = 2 := by
    decide +kernel
  have hone := hall _ hrun "designator" 63897206399000000 63897206400000000 (by decide) (by decide)
    (by decide)
  rw [htwo] at hone
  exact absurd hone (by decide)

end GovernorGateway
