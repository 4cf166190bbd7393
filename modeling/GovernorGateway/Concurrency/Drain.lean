/-
# The drain

`shutdown_event` (`src/governor_service.py`) sets the drain event, polls the in-flight counter until
it is zero or the deadline has passed, and closes the backend.  Nothing else tells a request that
the service goes down: what keeps requests from the closed backend is the test of
`_acquire_in_flight`, and the counter.

* `requests_complete`: whatever the order of their steps, requests take finitely many of them, and
  nobody waits for the lock of the counter for ever: when the middleware can take no step, whoever
  is not answered is in its handler.  A drain before the deadline therefore waits for the HANDLERS
  alone.
* `drain_graceful`: if the backend is closed before the deadline nobody is in flight, and WHO IS
  SERVED LATER was already past the test, but not counted yet, when the drain event was set.  In
  between there is only the lock of the counter; where a free lock is taken at once there is nobody
  in between.
-/
import GovernorGateway.Concurrency.Backpressure
import Mathlib.Data.Rat.Lemmas
import Mathlib.Algebra.Order.BigOperators.Group.Finset
import Mathlib.Algebra.Group.Action.Defs

namespace GovernorGateway

open Effects

/-! ## 1. The server -/

/-- Where `shutdown_event` stands. -/
inductive Server where
  | running
  /-- The drain event is set; the loop polls until the deadline. -/
  | draining (deadline : ℚ)
  /-- `await backend.close()`, and the time it was called. -/
  | closed (deadline closedAt : ℚ)

/-- The requests, the server, and `time.monotonic()`. -/
structure Service (ι : Type) where
  gate : Backpressure ι
  server : Server := .running
  clock : ℚ := 0

namespace Service

variable {ι : Type} [DecidableEq ι]

/-- One step: of a request, of the clock, or of `shutdown_event`. -/
inductive Step (limit : Int) (timeout : ℚ) (scope : ι → Scope) : Service ι → Service ι → Prop
  | request {s i gate'} : Backpressure.Step limit scope (some i) s.gate gate' →
      Step limit timeout scope s { s with gate := gate' }
  | tick {s t} : s.clock ≤ t → Step limit timeout scope s { s with clock := t }
  | shutdown {s} : s.server = .running →
      Step limit timeout scope s
        { s with gate := { s.gate with draining := true }, server := .draining (s.clock + timeout) }
  /-- `await asyncio.sleep(0.05)`. -/
  | sleep {s deadline} : s.server = .draining deadline → 0 < s.gate.inFlight → s.clock < deadline →
      Step limit timeout scope s s
  | close {s deadline} : s.server = .draining deadline → ¬ (0 < s.gate.inFlight ∧ s.clock < deadline) →
      Step limit timeout scope s { s with server := .closed deadline s.clock }

/-- Any number of steps, in any order. -/
def Reaches (limit : Int) (timeout : ℚ) (scope : ι → Scope) : Service ι → Service ι → Prop :=
  Relation.ReflTransGen (Step limit timeout scope)

/-- After startup, before the first request. -/
def initial : Service ι := { gate := Backpressure.initial }

end Service

/-! ## 2. Requests take finitely many steps -/

namespace Stage

/-- How many steps are left, at most. -/
def remaining : Stage → ℕ
  | .arriving => 9
  | .acquirePoll => 8
  | .acquireTest => 7
  | .acquireCount => 6
  | .acquireGranted => 5
  | .serving => 4
  | .releasePoll _ => 3
  | .releaseCount _ | .acquireRefused => 2
  | .releaseDone _ | .rejecting _ => 1
  | .finished _ | .rejected _ => 0

theorem remaining_le (st : Stage) : st.remaining ≤ 9 := by
  cases st <;> simp [remaining]

/-- The request has been answered. -/
def answered : Stage → Bool
  | .finished _ | .rejected _ => true
  | _ => false

/-- The request has passed the test of the drain event and is not counted yet. -/
def entering : Stage → Bool
  | .acquirePoll | .acquireTest | .acquireCount => true
  | _ => false

theorem letThrough_of_answered {st : Stage} (h : st.answered = true) : st.letThrough = false := by
  cases st <;> simp [answered, letThrough] at h ⊢

end Stage

namespace Backpressure

variable {ι : Type} [DecidableEq ι] {limit : Int} {scope : ι → Scope} {s s' : Backpressure ι} {i : ι}

/-- **A step of a request brings it nearer to its end.** -/
theorem Step.remaining_lt (h : Step limit scope (some i) s s') :
    (s'.stage i).remaining < (s.stage i).remaining := by
  have hmove : ∀ {st : Stage}, st.remaining < (s.stage i).remaining →
      ((s.move i st).stage i).remaining < (s.stage i).remaining := by
    intro st hst
    rwa [move_stage_self]
  cases h with
  | pass hi | refuse hi | arrive hi | lockAcquire hi | full hi | room hi | count hi | grant hi
  | unlockRefused hi | send hi | endUncounted o hi | «end» o hi | lockRelease hi | discount hi
  | unlockReleased hi =>
    refine hmove ?_
    rw [hi]
    simp [Stage.remaining]

/-- The steps that are left to all requests together. -/
def remaining [Fintype ι] (s : Backpressure ι) : ℕ := ∑ i, (s.stage i).remaining

theorem Step.total_lt [Fintype ι] (h : Step limit scope (some i) s s') : s'.remaining < s.remaining := by
  refine Finset.sum_lt_sum (fun j _ => ?_) ⟨i, Finset.mem_univ i, h.remaining_lt⟩
  by_cases hj : j = i
  · subst hj
    exact h.remaining_lt.le
  · rw [h.stage_eq fun heq => hj (Option.some.inj heq).symm]

/-- A schedule of the requests is no longer than what was left to them. -/
theorem length_le_remaining [Fintype ι] {f : ℕ → Backpressure ι} : ∀ {n : ℕ},
    (∀ m < n, ∃ i, Step limit scope (some i) (f m) (f (m + 1))) → n + (f n).remaining ≤ (f 0).remaining
  | 0, _ => by omega
  | n + 1, h => by
    have ih := length_le_remaining (n := n) fun m hm => h m (by omega)
    obtain ⟨i, hstep⟩ := h n (by omega)
    have hlt := hstep.total_lt
    omega

/-- Whoever has the lock is inside it. -/
def Held (s : Backpressure ι) : Prop := ∀ i, s.lock = some i → (s.stage i).inLock = true

omit [DecidableEq ι] in
theorem held_initial : (initial : Backpressure ι).Held := fun i h => absurd h (by simp [initial])

/-- A move of one request, which is inside the lock afterwards if it has it. -/
theorem Held.move (h : s.Held) {st : Stage} (hst : s.lock = some i → st.inLock = true) :
    (s.move i st).Held := by
  intro j hj
  by_cases hji : j = i
  · subst hji
    rw [move_stage_self]
    exact hst hj
  · rw [move_stage_ne s hji]
    exact h j hj

theorem Held.step (h : s.Held) {who : Option ι} (hstep : Step limit scope who s s') : s'.Held := by
  -- a request that is outside the lock has not got it
  have hout : ∀ {i : ι} {st : Stage}, (s.stage i).inLock = false → s.lock = some i → st.inLock = true := by
    intro i st hi hlock
    rw [h i hlock] at hi
    exact absurd hi (by decide)
  have htaken : ∀ {i : ι} {st : Stage}, st.inLock = true → Held { s.move i st with lock := some i } := by
    intro i st hst j hj
    obtain rfl := Option.some.inj hj
    change ((s.move i st).stage i).inLock = true
    rwa [move_stage_self]
  cases hstep with
  | drain b => exact h
  | pass hi | refuse hi | arrive hi | send hi | endUncounted o hi | «end» o hi =>
    exact h.move (hout (by rw [hi]; rfl))
  | lockAcquire hi => exact htaken rfl
  | lockRelease hi => exact htaken rfl
  | full hi => exact h.move fun _ => rfl
  | room hi => exact h.move fun _ => rfl
  | @count _ i hi =>
    have hmove : (s.move i .acquireGranted).Held := h.move fun _ => rfl
    exact hmove
  | @discount _ i o hi =>
    have hmove : (s.move i (.releaseDone o)).Held := h.move fun _ => rfl
    exact hmove
  | grant hi => exact fun j hj => absurd hj (by simp)
  | unlockRefused hi => exact fun j hj => absurd hj (by simp)
  | unlockReleased hi => exact fun j hj => absurd hj (by simp)

theorem Held.reaches (h : s.Held) (hrun : Reaches limit scope s s') : s'.Held := by
  induction hrun with
  | refl => exact h
  | tail _ hstep ih =>
    obtain ⟨who, hstep⟩ := hstep
    exact ih.step hstep

/-- Whoever is inside the lock can go on. -/
theorem exists_step_of_inLock (hi : (s.stage i).inLock = true) : ∃ s', Step limit scope (some i) s s' := by
  cases hst : s.stage i with
  | acquireTest =>
    rcases le_or_gt limit s.inFlight with hfull | hroom
    · exact ⟨_, .full hst hfull⟩
    · exact ⟨_, .room hst hroom⟩
  | acquireCount => exact ⟨_, .count hst⟩
  | acquireGranted => exact ⟨_, .grant hst⟩
  | acquireRefused => exact ⟨_, .unlockRefused hst⟩
  | releaseCount o => exact ⟨_, .discount hst⟩
  | releaseDone o => exact ⟨_, .unlockReleased hst⟩
  | _ =>
    rw [hst] at hi
    exact absurd hi (by simp [Stage.inLock])

/-- With the lock free, whoever has not been answered can go on. -/
theorem exists_step_of_free (hfree : s.lock = none) (hout : (s.stage i).inLock = false)
    (hi : (s.stage i).answered = false) : ∃ s', Step limit scope (some i) s s' := by
  cases hst : s.stage i with
  | arriving =>
    cases ht : (scope i).tracked with
    | false => exact ⟨_, .pass hst ht⟩
    | true =>
      cases hd : s.draining with
      | true => exact ⟨_, .refuse hst ht hd⟩
      | false => exact ⟨_, .arrive hst ht hd⟩
  | acquirePoll => exact ⟨_, .lockAcquire hst hfree⟩
  | rejecting status => exact ⟨_, .send hst⟩
  | serving =>
    cases ht : (scope i).tracked with
    | false => exact ⟨_, .endUncounted .returned hst ht⟩
    | true => exact ⟨_, .end .returned hst ht⟩
  | releasePoll o => exact ⟨_, .lockRelease hst hfree⟩
  | finished o =>
    rw [hst] at hi
    exact absurd hi (by simp [Stage.answered])
  | rejected status =>
    rw [hst] at hi
    exact absurd hi (by simp [Stage.answered])
  | _ =>
    rw [hst] at hout
    exact absurd hout (by simp [Stage.inLock])

/-- **Requests come to an end**, as far as it lies with the middleware.  From any state the service
can be in, a schedule of the requests has at most nine steps for each of them.  In a state in which
the middleware can take no step every request has been answered or is in its handler, the lock is
free, and the counter counts those in their handlers.  That a handler ends is NOT settled here:
where each one does, every request is answered and the counter is zero. -/
theorem requests_complete [Fintype ι] (hrun : Reaches limit scope initial s) :
    (∀ (f : ℕ → Backpressure ι) n, f 0 = s → (∀ m < n, ∃ i, Step limit scope (some i) (f m) (f (m + 1))) →
      n ≤ 9 * Fintype.card ι) ∧
    ((∀ i, s.stage i ≠ .serving → ∀ s', ¬ Step limit scope (some i) s s') →
      (∀ i, (s.stage i).answered = true ∨ s.stage i = .serving) ∧ s.lock = none ∧
      Counts (fun i => (scope i).tracked && decide (s.stage i = .serving)) s.inFlight ∧
      ((∀ i, s.stage i ≠ .serving) → (∀ i, (s.stage i).answered = true) ∧ s.inFlight = 0)) := by
  have hinv : Inv limit scope s := Inv.initial.reaches hrun
  have hheld : s.Held := held_initial.reaches hrun
  constructor
  · intro f n hf hsteps
    have hlength := length_le_remaining hsteps
    have hmost : (f 0).remaining ≤ ∑ _i : ι, 9 := Finset.sum_le_sum fun i _ => Stage.remaining_le _
    rw [Finset.sum_const, Finset.card_univ, smul_eq_mul] at hmost
    omega
  · intro hstuck
    have hfree : s.lock = none := by
      cases hlock : s.lock with
      | none => rfl
      | some i =>
        have hin : (s.stage i).inLock = true := hheld i hlock
        obtain ⟨s', hstep⟩ : ∃ s', Step limit scope (some i) s s' := exists_step_of_inLock hin
        refine absurd hstep (hstuck i (fun hserving => ?_) s')
        rw [hserving] at hin
        exact absurd hin (by decide)
    have hwhere : ∀ i, (s.stage i).answered = true ∨ s.stage i = .serving := by
      intro i
      by_contra hi
      obtain ⟨hanswered, hserving⟩ := not_or.mp hi
      obtain ⟨s', hstep⟩ : ∃ s', Step limit scope (some i) s s' :=
        exists_step_of_free hfree (hinv.nobody hfree i) (by simpa using hanswered)
      exact hstuck i hserving s' hstep
    have hcounted : inFlightOf scope s.stage =
        fun i => (scope i).tracked && decide (s.stage i = .serving) := by
      funext i
      rcases hwhere i with hi | hi
      · have hserving : s.stage i ≠ .serving := by
          intro h
          rw [h] at hi
          exact absurd hi (by decide)
        rw [inFlightOf, Stage.letThrough_of_answered hi, decide_eq_false hserving]
      · rw [inFlightOf, hi]
        rfl
    have hcounts := hinv.counts
    rw [hcounted] at hcounts
    refine ⟨hwhere, hfree, hcounts, fun hnone => ⟨fun i => (hwhere i).resolve_right (hnone i), ?_⟩⟩
    refine hcounts.eq_zero fun i => ?_
    rw [decide_eq_false (hnone i), Bool.and_false]

/-- One request that is being served: it is answered in four steps. -/
theorem requests_complete_serving : ∃ s : Backpressure Unit, s.stage () = .serving ∧ s.inFlight = 1 ∧
    (∀ (f : ℕ → Backpressure Unit) n, f 0 = s →
      (∀ m < n, ∃ i, Step 1 (fun _ => .http "/submit-candidate") (some i) (f m) (f (m + 1))) → n ≤ 9) ∧
    (∀ i, (s.stage i).answered = true ∨ s.stage i = .serving) := by
  have hrun : Reaches 1 (fun _ => .http "/submit-candidate") (initial : Backpressure Unit)
      { inFlight := 1, stage := Function.update (fun _ => .arriving) () .serving } := by
    refine .head ⟨_, .arrive (i := ()) rfl rfl rfl⟩ <|
      .head ⟨_, .lockAcquire (i := ()) rfl rfl⟩ <| .head ⟨_, .room (i := ()) rfl (by decide)⟩ <|
      .head ⟨_, .count (i := ()) rfl⟩ <| .head ⟨_, .grant (i := ()) rfl⟩ ?_
    simp only [move, initial, Function.update_idem]
    exact .refl
  obtain ⟨hlength, hstuck⟩ := requests_complete hrun
  exact ⟨_, rfl, rfl, hlength, (hstuck fun _ hi => absurd rfl hi).1⟩

/-! ## 3. While the service drains -/

/-- Nobody passes the test any more, and whoever is let through had passed it before. -/
theorem Step.while_draining (h : Step limit scope (some i) s s') (hdrain : s.draining = true) {j : ι}
    (hj : (scope j).tracked = true) :
    ((s'.stage j).entering = true → (s.stage j).entering = true) ∧
      ((s'.stage j).letThrough = true → (s.stage j).letThrough = true ∨ (s.stage j).entering = true) := by
  by_cases hji : j = i
  · subst hji
    have hmove : ∀ {st : Stage}, (st.entering = true → (s.stage j).entering = true) →
        (st.letThrough = true → (s.stage j).letThrough = true ∨ (s.stage j).entering = true) →
        (((s.move j st).stage j).entering = true → (s.stage j).entering = true) ∧
          (((s.move j st).stage j).letThrough = true →
            (s.stage j).letThrough = true ∨ (s.stage j).entering = true) := by
      intro st hentering hlet
      rw [move_stage_self]
      exact ⟨hentering, hlet⟩
    cases h with
    | pass hi ht => exact absurd (hj.symm.trans ht) (by decide)
    | arrive hi ht hd => exact absurd (hdrain.symm.trans hd) (by decide)
    | endUncounted o hi ht => exact absurd (hj.symm.trans ht) (by decide)
    | refuse hi | lockAcquire hi | full hi | room hi | count hi | grant hi | unlockRefused hi | send hi
    | «end» o hi | lockRelease hi | discount hi | unlockReleased hi =>
      refine hmove ?_ ?_
      · rw [hi]
        simp [Stage.entering]
      · rw [hi]
        simp [Stage.entering, Stage.letThrough]
  · rw [h.stage_eq fun heq => hji (Option.some.inj heq).symm]
    exact ⟨id, Or.inl⟩

theorem Step.draining_eq (h : Step limit scope (some i) s s') : s'.draining = s.draining := by
  cases h <;> rfl

end Backpressure

namespace Service

variable {ι : Type} [DecidableEq ι] {limit : Int} {timeout : ℚ} {scope : ι → Scope} {s s' d : Service ι}

/-- What the service does to the counter is what the middleware does. -/
theorem Reaches.gate (h : Reaches limit timeout scope s s') :
    Backpressure.Reaches limit scope s.gate s'.gate := by
  induction h with
  | refl => exact .refl
  | tail _ hstep ih =>
    cases hstep with
    | request hstep => exact ih.tail ⟨_, hstep⟩
    | tick _ => exact ih
    | shutdown _ => exact ih.tail ⟨none, .drain true⟩
    | sleep _ _ _ => exact ih
    | close _ _ => exact ih

/-- The service when `shutdown_event` has set the event. -/
def shutDown (timeout : ℚ) (s : Service ι) : Service ι :=
  { s with gate := { s.gate with draining := true }, server := .draining (s.clock + timeout) }

/-- **The invariant of a drain** that began in the state `s`. -/
structure Drains (scope : ι → Scope) (s d : Service ι) : Prop where
  draining : d.gate.draining = true
  stopped : d.server ≠ .running
  entering : ∀ i, (scope i).tracked = true → (d.gate.stage i).entering = true →
    (s.gate.stage i).entering = true
  /-- After an early close only those are let through who were past the test. -/
  late : ∀ deadline closedAt, d.server = .closed deadline closedAt → closedAt < deadline →
    ∀ i, (scope i).tracked = true → (d.gate.stage i).letThrough = true → (s.gate.stage i).entering = true

omit [DecidableEq ι] in
theorem Drains.start (s : Service ι) : Drains scope s (s.shutDown timeout) where
  draining := rfl
  stopped := by simp [shutDown]
  entering := fun _ _ hi => hi
  late := fun _ _ h => absurd h (by simp [shutDown])

theorem Drains.step (h : Drains scope s d) (hinv : Backpressure.Inv limit scope d.gate) {d' : Service ι}
    (hstep : Step limit timeout scope d d') : Drains scope s d' := by
  cases hstep with
  | request hstep =>
    refine ⟨hstep.draining_eq.trans h.draining, h.stopped, fun i hi hentering => ?_, ?_⟩
    · exact h.entering i hi ((hstep.while_draining h.draining hi).1 hentering)
    · intro deadline closedAt hclosed hearly i hi hlet
      rcases (hstep.while_draining h.draining hi).2 hlet with hlet | hentering
      · exact h.late deadline closedAt hclosed hearly i hi hlet
      · exact h.entering i hi hentering
  | tick _ => exact ⟨h.draining, h.stopped, h.entering, h.late⟩
  | shutdown hrunning => exact absurd hrunning h.stopped
  | sleep _ _ _ => exact h
  | @close deadline hserver hnot =>
    refine ⟨h.draining, by simp, h.entering, fun deadline' closedAt hclosed hearly i hi hlet => ?_⟩
    obtain ⟨rfl, rfl⟩ := Server.closed.inj hclosed
    -- closed early, so the loop has seen a counter of zero, and the counter is exact
    have hpos : 0 < d.gate.inFlight :=
      hinv.counts.pos (i := i) (by rw [Backpressure.inFlightOf, hi, hlet]; rfl)
    exact absurd ⟨hpos, hearly⟩ hnot

theorem Drains.reaches (hinv : Backpressure.Inv limit scope s.gate)
    (h : Reaches limit timeout scope (s.shutDown timeout) d) : Drains scope s d := by
  have hstart : Backpressure.Reaches limit scope s.gate (s.shutDown timeout).gate :=
    .single ⟨none, .drain true⟩
  induction h with
  | refl => exact Drains.start s
  | tail hrun hstep ih => exact ih.step (hinv.reaches (hstart.trans (Reaches.gate hrun))) hstep

/-- **A graceful drain.**  When `shutdown_event` begins, no further request passes the test,
whatever the order of the steps; and in every state after a close before the deadline, whoever is
being served had passed the test, and was not counted yet, when the drain began.  If there was
nobody in between, the counter is zero from the close on. -/
theorem drain_graceful (hrun : Reaches limit timeout scope initial s)
    (hdrain : Reaches limit timeout scope (s.shutDown timeout) d) :
    (∀ i, (scope i).tracked = true → (d.gate.stage i).entering = true → (s.gate.stage i).entering = true) ∧
    ∀ deadline closedAt, d.server = .closed deadline closedAt → closedAt < deadline →
      (∀ i, (scope i).tracked = true → (d.gate.stage i).letThrough = true →
        (s.gate.stage i).entering = true) ∧
      ((∀ i, (s.gate.stage i).entering = false) → d.gate.inFlight = 0) := by
  have hinv : Backpressure.Inv limit scope s.gate := Backpressure.Inv.initial.reaches hrun.gate
  have hdrains : Drains scope s d := Drains.reaches hinv hdrain
  refine ⟨hdrains.entering, fun deadline closedAt hclosed hearly => ?_⟩
  have hlate := hdrains.late deadline closedAt hclosed hearly
  refine ⟨hlate, fun hnobody => ?_⟩
  have hgate : Backpressure.Reaches limit scope s.gate d.gate :=
    Relation.ReflTransGen.head ⟨none, .drain true⟩ (Reaches.gate hdrain)
  refine (hinv.reaches hgate).counts.eq_zero fun i => ?_
  by_contra hcounted
  have hboth : (scope i).tracked = true ∧ (d.gate.stage i).letThrough = true := by
    simpa [Backpressure.inFlightOf] using hcounted
  have hentering := hlate i hboth.1 hboth.2
  rw [hnobody i] at hentering
  exact absurd hentering (by decide)

/-- A request is being served when the drain begins.  It is answered, and the service closes at
once. -/
theorem drain_graceful_served : ∃ s d : Service Unit,
    s.gate.inFlight = 1 ∧ d.server = .closed 30 0 ∧ d.gate.stage () = .finished .returned ∧
      ((∀ i, (s.gate.stage i).entering = false) → d.gate.inFlight = 0) := by
  let scope : Unit → Scope := fun _ => .http "/submit-candidate"
  let s : Service Unit :=
    { gate := { inFlight := 1, stage := Function.update (fun _ => .arriving) () .serving } }
  let d : Service Unit :=
    { gate := { draining := true, stage := Function.update (fun _ => .arriving) () (.finished .returned) }
      server := .closed 30 0 }
  have hrun : Reaches 1 30 scope initial s := by
    refine .head (.request (.arrive (i := ()) rfl rfl rfl)) <|
      .head (.request (.lockAcquire (i := ()) rfl rfl)) <|
      .head (.request (.room (i := ()) rfl (by decide))) <| .head (.request (.count (i := ()) rfl)) <|
      .head (.request (.grant (i := ()) rfl)) ?_
    simp only [Backpressure.move, initial, Backpressure.initial, Function.update_idem]
    exact .refl
  have hdrain : Reaches 1 30 scope (s.shutDown 30) d := by
    refine .head (.request (.end (i := ()) .returned rfl rfl)) <|
      .head (.request (.lockRelease (i := ()) rfl rfl)) <| .head (.request (.discount (i := ()) rfl)) <|
      .head (.request (.unlockReleased (i := ()) rfl)) <|
      .head (.close (congrArg Server.draining (zero_add 30)) fun h => absurd h.1 (by decide)) ?_
    simp only [Backpressure.move, shutDown, s, Function.update_idem]
    exact .refl
  exact ⟨s, d, rfl, rfl, rfl,
    ((drain_graceful hrun hdrain).2 30 0 rfl (by decide)).2⟩

end Service

end GovernorGateway
