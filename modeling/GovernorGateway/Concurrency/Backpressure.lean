/-
# The in-flight counter

`BackpressureMiddleware` (`src/governor_service.py`) lets a request through when fewer than
`MAX_IN_FLIGHT_REQUESTS` are in flight, counts it, and takes it off the count in a `finally` block.
The counter is guarded by a lock of its own; `/ready` and scopes that are not HTTP pass by
uncounted.

Section 1 is the code: one stage for each place where a request can stand, with the lock, the test
and the assignment as SEPARATE steps, and nothing assumed about the order in which requests take
them.  `backpressure_exact` says that the counter is what it is meant to be: the number of requests
that were let through and not released yet.  So the clamp in the release never acts, a rejected
request takes nothing off, and the limit is kept; a limit below zero is kept as if it were zero.
-/
import GovernorGateway.Effects.Counted
import Mathlib.Logic.Relation

namespace GovernorGateway

open Effects

/-! ## 1. The middleware -/

/-- The `scope` of an ASGI call: an HTTP request with its path, or a connection of another type. -/
inductive Scope where
  | http (path : String := "")
  | other (type : String)
  deriving DecidableEq

/-- The requests the counter is about. -/
def Scope.tracked : Scope → Bool
  | .http path => path ≠ "/ready"
  | .other _ => false

/-- How the application ended. -/
inductive AppOutcome where
  | returned
  | raised
  deriving DecidableEq

/-- Where a request stands. -/
inductive Stage where
  /-- It has not reached the tests of `_acquire_in_flight` yet. -/
  | arriving
  /-- `_acquire_in_flight`: it waits for the lock. -/
  | acquirePoll
  /-- It holds the lock: `if _in_flight >= settings.MAX_IN_FLIGHT_REQUESTS`. -/
  | acquireTest
  /-- `_in_flight += 1`. -/
  | acquireCount
  /-- It is counted and leaves the lock. -/
  | acquireGranted
  /-- It is not counted and leaves the lock. -/
  | acquireRefused
  /-- `_send_json_response`. -/
  | rejecting (status : ℕ)
  /-- `await self.app(scope, receive, send)`. -/
  | serving
  /-- `_release_in_flight`, in the `finally` block: it waits for the lock. -/
  | releasePoll (o : AppOutcome)
  /-- `_in_flight = max(0, _in_flight - 1)`. -/
  | releaseCount (o : AppOutcome)
  /-- It is off the count and leaves the lock. -/
  | releaseDone (o : AppOutcome)
  | finished (o : AppOutcome)
  | rejected (status : ℕ)
  deriving DecidableEq

namespace Stage

/-- The request holds the lock. -/
def inLock : Stage → Bool
  | .acquireTest | .acquireCount | .acquireGranted | .acquireRefused | .releaseCount _
  | .releaseDone _ => true
  | _ => false

/-- The request was let through and has not been released. -/
def letThrough : Stage → Bool
  | .acquireGranted | .serving | .releasePoll _ | .releaseCount _ => true
  | _ => false

/-- The request was answered by the middleware itself. -/
def turnedAway : Stage → Bool
  | .acquireRefused | .rejecting _ | .rejected _ => true
  | _ => false

/-- The request was let through, released or not. -/
def admitted : Stage → Bool
  | .acquireGranted | .serving | .releasePoll _ | .releaseCount _ | .releaseDone _
  | .finished _ => true
  | _ => false

/-- A stage that only counted requests reach. -/
def counting : Stage → Bool
  | .acquirePoll | .releasePoll _ => true
  | st => st.inLock

end Stage

/-- The variables of the module and the stage of every request. -/
structure Backpressure (ι : Type) where
  inFlight : Int := 0
  lock : Option ι := none
  draining : Bool := false
  stage : ι → Stage

namespace Backpressure

variable {ι : Type} [DecidableEq ι]

/-- A request moves on. -/
def move (s : Backpressure ι) (i : ι) (st : Stage) : Backpressure ι :=
  { s with stage := Function.update s.stage i st }

@[simp] theorem move_stage_self (s : Backpressure ι) (i : ι) (st : Stage) :
    (s.move i st).stage i = st :=
  Function.update_self ..

theorem move_stage_ne (s : Backpressure ι) {i j : ι} (h : j ≠ i) (st : Stage) :
    (s.move i st).stage j = s.stage j :=
  Function.update_of_ne h ..

/-- One step: of a request, or of the server that starts or stops draining. -/
inductive Step (limit : Int) (scope : ι → Scope) : Option ι → Backpressure ι → Backpressure ι → Prop
  | drain {s} (b : Bool) : Step limit scope none s { s with draining := b }
  | pass {s i} : s.stage i = .arriving → (scope i).tracked = false →
      Step limit scope (some i) s (s.move i .serving)
  | refuse {s i} : s.stage i = .arriving → (scope i).tracked = true → s.draining = true →
      Step limit scope (some i) s (s.move i (.rejecting 503))
  | arrive {s i} : s.stage i = .arriving → (scope i).tracked = true → s.draining = false →
      Step limit scope (some i) s (s.move i .acquirePoll)
  | lockAcquire {s i} : s.stage i = .acquirePoll → s.lock = none →
      Step limit scope (some i) s { s.move i .acquireTest with lock := some i }
  | full {s i} : s.stage i = .acquireTest → limit ≤ s.inFlight →
      Step limit scope (some i) s (s.move i .acquireRefused)
  | room {s i} : s.stage i = .acquireTest → s.inFlight < limit →
      Step limit scope (some i) s (s.move i .acquireCount)
  | count {s i} : s.stage i = .acquireCount →
      Step limit scope (some i) s { s.move i .acquireGranted with inFlight := s.inFlight + 1 }
  | grant {s i} : s.stage i = .acquireGranted →
      Step limit scope (some i) s { s.move i .serving with lock := none }
  | unlockRefused {s i} : s.stage i = .acquireRefused →
      Step limit scope (some i) s { s.move i (.rejecting 429) with lock := none }
  | send {s i status} : s.stage i = .rejecting status →
      Step limit scope (some i) s (s.move i (.rejected status))
  /-- The application has returned or raised; `_release_in_flight` does nothing for `/ready`. -/
  | endUncounted {s i} (o : AppOutcome) : s.stage i = .serving → (scope i).tracked = false →
      Step limit scope (some i) s (s.move i (.finished o))
  | «end» {s i} (o : AppOutcome) : s.stage i = .serving → (scope i).tracked = true →
      Step limit scope (some i) s (s.move i (.releasePoll o))
  | lockRelease {s i o} : s.stage i = .releasePoll o → s.lock = none →
      Step limit scope (some i) s { s.move i (.releaseCount o) with lock := some i }
  | discount {s i o} : s.stage i = .releaseCount o →
      Step limit scope (some i) s
        { s.move i (.releaseDone o) with inFlight := max 0 (s.inFlight - 1) }
  | unlockReleased {s i o} : s.stage i = .releaseDone o →
      Step limit scope (some i) s { s.move i (.finished o) with lock := none }

/-- Any number of steps, in any order. -/
def Reaches (limit : Int) (scope : ι → Scope) : Backpressure ι → Backpressure ι → Prop :=
  Relation.ReflTransGen fun s s' => ∃ who, Step limit scope who s s'

/-- Before the first request. -/
def initial : Backpressure ι := { stage := fun _ => .arriving }

/-- The requests the counter is meant to count. -/
def inFlightOf (scope : ι → Scope) (stage : ι → Stage) (i : ι) : Bool :=
  (scope i).tracked && (stage i).letThrough

/-! ## 2. The invariant -/

/-- What holds between any two steps: the lock excludes, a test that succeeded is still true when
its assignment is made, and the counter counts. -/
structure Inv (limit : Int) (scope : ι → Scope) (s : Backpressure ι) : Prop where
  lock : ∀ i, (s.stage i).inLock = true → s.lock = some i
  tracked : ∀ i, (s.stage i).counting = true → (scope i).tracked = true
  room : ∀ i, s.stage i = .acquireCount → s.inFlight < limit
  counts : Counts (inFlightOf scope s.stage) s.inFlight
  bound : s.inFlight ≤ max 0 limit

namespace Inv

variable {limit : Int} {scope : ι → Scope} {s s' : Backpressure ι} {i : ι}

omit [DecidableEq ι] in
theorem initial : Inv limit scope (initial : Backpressure ι) where
  lock := by simp [Backpressure.initial, Stage.inLock]
  tracked := by simp [Backpressure.initial, Stage.counting, Stage.inLock]
  room := by simp [Backpressure.initial]
  counts := by
    have hnone : inFlightOf scope (Backpressure.initial : Backpressure ι).stage = fun _ => false := by
      funext i
      simp [inFlightOf, Backpressure.initial, Stage.letThrough]
    rw [hnone]
    exact Counts.zero
  bound := le_max_left 0 limit

omit [DecidableEq ι] in
/-- While a request holds the lock no other one does. -/
theorem others (h : Inv limit scope s) (hi : (s.stage i).inLock = true) :
    ∀ j, j ≠ i → (s.stage j).inLock = false := by
  intro j hj
  by_contra hne
  have hlock := h.lock j (by simpa using hne)
  rw [h.lock i hi] at hlock
  exact hj (Option.some.inj hlock).symm

omit [DecidableEq ι] in
theorem nobody (h : Inv limit scope s) (hfree : s.lock = none) :
    ∀ j, (s.stage j).inLock = false := by
  intro j
  by_contra hne
  have hlock := h.lock j (by simpa using hne)
  rw [hfree] at hlock
  exact absurd hlock (by simp)

/-- Who is counted after a move. -/
theorem inFlightOf_move (st : Stage) :
    inFlightOf scope (s.move i st).stage =
      Function.update (inFlightOf scope s.stage) i ((scope i).tracked && st.letThrough) := by
  funext j
  by_cases hj : j = i
  · subst hj
    simp [inFlightOf, move]
  · simp [inFlightOf, move, Function.update_of_ne hj]

/-- A move outside the lock that counts nobody and releases nobody. -/
theorem alike (h : Inv limit scope s) {st : Stage} (hout : st.inLock = false)
    (htracked : st.counting = true → (scope i).tracked = true)
    (hsame : ((scope i).tracked && st.letThrough) = inFlightOf scope s.stage i) :
    Inv limit scope (s.move i st) := by
  refine ⟨fun j hj => ?_, fun j hj => ?_, fun j hj => ?_, ?_, h.bound⟩
  · by_cases hji : j = i
    · subst hji
      rw [move_stage_self, hout] at hj
      exact absurd hj (by decide)
    · rw [move_stage_ne s hji] at hj
      exact h.lock j hj
  · by_cases hji : j = i
    · subst hji
      rw [move_stage_self] at hj
      exact htracked hj
    · rw [move_stage_ne s hji] at hj
      exact h.tracked j hj
  · by_cases hji : j = i
    · subst hji
      rw [move_stage_self] at hj
      rw [hj] at hout
      exact absurd hout (by decide)
    · rw [move_stage_ne s hji] at hj
      exact h.room j hj
  · rw [inFlightOf_move, hsame, Function.update_eq_self]
    exact h.counts

/-- A step of the only request that is at the lock: into it, inside it or out of it. -/
theorem exclusive (h : Inv limit scope s) (hothers : ∀ j, j ≠ i → (s.stage j).inLock = false)
    (hi : (s.stage i).counting = true) {st : Stage} {n : Int} {lock : Option ι}
    (hlock : st.inLock = true → lock = some i) (hroom : st = .acquireCount → n < limit)
    (hcounts : Counts (Function.update (inFlightOf scope s.stage) i st.letThrough) n)
    (hbound : n ≤ max 0 limit) :
    Inv limit scope { s.move i st with inFlight := n, lock := lock } := by
  have htracked := h.tracked i hi
  refine ⟨fun j hj => ?_, fun j hj => ?_, fun j hj => ?_, ?_, hbound⟩
  · by_cases hji : j = i
    · subst hji
      exact hlock (by simpa using hj)
    · have hout := hothers j hji
      change ((s.move i st).stage j).inLock = true at hj
      rw [move_stage_ne s hji, hout] at hj
      exact absurd hj (by decide)
  · by_cases hji : j = i
    · subst hji
      exact htracked
    · change ((s.move i st).stage j).counting = true at hj
      rw [move_stage_ne s hji] at hj
      exact h.tracked j hj
  · by_cases hji : j = i
    · subst hji
      exact hroom (by simpa using hj)
    · have hout := hothers j hji
      change (s.move i st).stage j = .acquireCount at hj
      rw [move_stage_ne s hji] at hj
      rw [hj] at hout
      exact absurd hout (by decide)
  · have hmove := @inFlightOf_move _ _ scope s i st
    rw [htracked, Bool.true_and] at hmove
    exact hmove ▸ hcounts

omit [DecidableEq ι] in
/-- A request at a stage of the counting is in flight or not by its stage alone. -/
theorem inFlightOf_eq (h : Inv limit scope s) (hi : (s.stage i).counting = true) :
    inFlightOf scope s.stage i = (s.stage i).letThrough := by
  rw [inFlightOf, h.tracked i hi, Bool.true_and]

/-- **Every step keeps the invariant.** -/
theorem step (h : Inv limit scope s) {who : Option ι} (hstep : Step limit scope who s s') :
    Inv limit scope s' := by
  cases hstep with
  | drain b => exact ⟨h.lock, h.tracked, h.room, h.counts, h.bound⟩
  | pass hi ht =>
    refine h.alike rfl (by simp [Stage.counting, Stage.inLock]) ?_
    simp [inFlightOf, ht]
  | refuse hi ht hd =>
    refine h.alike rfl (by simp [Stage.counting, Stage.inLock]) ?_
    simp [inFlightOf, hi, Stage.letThrough]
  | arrive hi ht hd =>
    refine h.alike rfl (fun _ => ht) ?_
    simp [inFlightOf, hi, Stage.letThrough]
  | send hi =>
    refine h.alike rfl (by simp [Stage.counting, Stage.inLock]) ?_
    simp [inFlightOf, hi, Stage.letThrough]
  | endUncounted o hi ht =>
    refine h.alike rfl (by simp [Stage.counting, Stage.inLock]) ?_
    simp [inFlightOf, ht]
  | «end» o hi ht =>
    refine h.alike rfl (fun _ => ht) ?_
    simp [inFlightOf, hi, Stage.letThrough]
  | @lockAcquire _ i hi hfree =>
    have hc : (s.stage i).counting = true := by rw [hi]; rfl
    refine h.exclusive (fun j _ => h.nobody hfree j) hc (fun _ => rfl) (by simp) ?_ h.bound
    exact h.counts.keep (by rw [h.inFlightOf_eq hc, hi]; rfl)
  | @lockRelease _ i o hi hfree =>
    have hc : (s.stage i).counting = true := by rw [hi]; rfl
    refine h.exclusive (fun j _ => h.nobody hfree j) hc (fun _ => rfl) (by simp) ?_ h.bound
    exact h.counts.keep (by rw [h.inFlightOf_eq hc, hi]; rfl)
  | @full _ i hi hfull =>
    have hl : (s.stage i).inLock = true := by rw [hi]; rfl
    have hc : (s.stage i).counting = true := by rw [hi]; rfl
    refine h.exclusive (h.others hl) hc (fun _ => h.lock i hl) (by simp) ?_ h.bound
    exact h.counts.keep (by rw [h.inFlightOf_eq hc, hi]; rfl)
  | @room _ i hi hroom =>
    have hl : (s.stage i).inLock = true := by rw [hi]; rfl
    have hc : (s.stage i).counting = true := by rw [hi]; rfl
    refine h.exclusive (h.others hl) hc (fun _ => h.lock i hl) (fun _ => hroom) ?_ h.bound
    exact h.counts.keep (by rw [h.inFlightOf_eq hc, hi]; rfl)
  | @count _ i hi =>
    have hl : (s.stage i).inLock = true := by rw [hi]; rfl
    have hc : (s.stage i).counting = true := by rw [hi]; rfl
    have hroom := h.room i hi
    refine h.exclusive (h.others hl) hc (fun _ => h.lock i hl) (by simp) ?_ (by omega)
    exact h.counts.enter (by rw [h.inFlightOf_eq hc, hi]; rfl)
  | @grant _ i hi =>
    have hl : (s.stage i).inLock = true := by rw [hi]; rfl
    have hc : (s.stage i).counting = true := by rw [hi]; rfl
    refine h.exclusive (h.others hl) hc (by simp [Stage.inLock]) (by simp) ?_ h.bound
    exact h.counts.keep (by rw [h.inFlightOf_eq hc, hi]; rfl)
  | @unlockRefused _ i hi =>
    have hl : (s.stage i).inLock = true := by rw [hi]; rfl
    have hc : (s.stage i).counting = true := by rw [hi]; rfl
    refine h.exclusive (h.others hl) hc (by simp [Stage.inLock]) (by simp) ?_ h.bound
    exact h.counts.keep (by rw [h.inFlightOf_eq hc, hi]; rfl)
  | @discount _ i o hi =>
    have hl : (s.stage i).inLock = true := by rw [hi]; rfl
    have hc : (s.stage i).counting = true := by rw [hi]; rfl
    have hin : inFlightOf scope s.stage i = true := by rw [h.inFlightOf_eq hc, hi]; rfl
    -- the request is itself on the count, so the clamp has nothing to do
    have hpos := h.counts.pos hin
    have hmax : max 0 (s.inFlight - 1) = s.inFlight - 1 := by omega
    have hbound := h.bound
    refine h.exclusive (h.others hl) hc (fun _ => h.lock i hl) (by simp) ?_ (by omega)
    rw [hmax]
    exact h.counts.leave hin
  | @unlockReleased _ i o hi =>
    have hl : (s.stage i).inLock = true := by rw [hi]; rfl
    have hc : (s.stage i).counting = true := by rw [hi]; rfl
    refine h.exclusive (h.others hl) hc (by simp [Stage.inLock]) (by simp) ?_ h.bound
    exact h.counts.keep (by rw [h.inFlightOf_eq hc, hi]; rfl)

theorem reaches (h : Inv limit scope s) (hrun : Reaches limit scope s s') : Inv limit scope s' := by
  induction hrun with
  | refl => exact h
  | tail _ hstep ih =>
    obtain ⟨who, hstep⟩ := hstep
    exact ih.step hstep

end Inv

/-! ## 3. What becomes of a request -/

section Steps

variable {limit : Int} {scope : ι → Scope} {s s' : Backpressure ι}

/-- A step moves one request. -/
theorem Step.stage_eq {who : Option ι} (h : Step limit scope who s s') {j : ι}
    (hj : who ≠ some j) : s'.stage j = s.stage j := by
  have hmove : ∀ {i : ι} (st : Stage), some i ≠ some j → (s.move i st).stage j = s.stage j :=
    fun {i} st hne => move_stage_ne s (fun h => hne (congrArg some h.symm)) st
  cases h with
  | drain b => rfl
  | _ => exact hmove _ hj

/-- A request that was turned away stays so. -/
theorem Step.turnedAway {who : Option ι} (h : Step limit scope who s s') {j : ι}
    (hj : (s.stage j).turnedAway = true) : (s'.stage j).turnedAway = true := by
  by_cases hwho : who = some j
  · subst hwho
    cases h with
    | unlockRefused hi =>
      change ((s.move j (.rejecting 429)).stage j).turnedAway = true
      rw [move_stage_self]
      rfl
    | send hi =>
      rw [move_stage_self]
      rfl
    | pass hi | refuse hi | arrive hi | lockAcquire hi | full hi | room hi | count hi | grant hi
    | endUncounted o hi | «end» o hi | lockRelease hi | discount hi | unlockReleased hi =>
      rw [hi] at hj
      simp [Stage.turnedAway] at hj
  · rwa [h.stage_eq hwho]

theorem Reaches.turnedAway (h : Reaches limit scope s s') {j : ι}
    (hj : (s.stage j).turnedAway = true) : (s'.stage j).turnedAway = true := by
  induction h with
  | refl => exact hj
  | tail _ hstep ih =>
    obtain ⟨who, hstep⟩ := hstep
    exact hstep.turnedAway ih

/-- A request that was let through stays so. -/
theorem Step.admitted {who : Option ι} (h : Step limit scope who s s') {j : ι}
    (hj : (s.stage j).admitted = true) : (s'.stage j).admitted = true := by
  by_cases hwho : who = some j
  · subst hwho
    have hmove : ∀ st : Stage, st.admitted = true → ((s.move j st).stage j).admitted = true := by
      intro st hst
      rwa [move_stage_self]
    cases h with
    | pass hi | refuse hi | arrive hi | lockAcquire hi | full hi | room hi | count hi
    | unlockRefused hi | send hi =>
      rw [hi] at hj
      simp [Stage.admitted] at hj
    | grant hi | endUncounted o hi | «end» o hi | lockRelease hi | discount hi
    | unlockReleased hi => exact hmove _ rfl
  · rwa [h.stage_eq hwho]

theorem Reaches.admitted (h : Reaches limit scope s s') {j : ι}
    (hj : (s.stage j).admitted = true) : (s'.stage j).admitted = true := by
  induction h with
  | refl => exact hj
  | tail _ hstep ih =>
    obtain ⟨who, hstep⟩ := hstep
    exact hstep.admitted ih

theorem not_turnedAway_of_admitted {st : Stage} (h : st.admitted = true) :
    st.turnedAway = false := by
  cases st <;> simp [Stage.admitted, Stage.turnedAway] at h ⊢

/-- Only the release takes something off the counter. -/
theorem Step.lowers {who : Option ι} (h : Step limit scope who s s')
    (hlt : s'.inFlight < s.inFlight) : ∃ i o, who = some i ∧ s.stage i = .releaseCount o := by
  cases h with
  | @discount _ i o hi => exact ⟨i, o, rfl, hi⟩
  | count hi =>
    have hle : s.inFlight + 1 < s.inFlight := hlt
    omega
  | _ => exact absurd hlt (lt_irrefl s.inFlight)

/-- **The counter is exact**, whatever the requests and the order of their steps.  It is the number
of requests that were let through and not released, at most the limit or zero; the clamp of the
release returns what it is given; and what takes something off is a request that was not turned away
before and will not be after. -/
theorem backpressure_exact (hrun : Reaches limit scope initial s) :
    Counts (inFlightOf scope s.stage) s.inFlight ∧ s.inFlight ≤ max 0 limit ∧
      (∀ i o, s.stage i = .releaseCount o → max 0 (s.inFlight - 1) = s.inFlight - 1) ∧
      ∀ who s', Step limit scope who s s' → s'.inFlight < s.inFlight →
        ∃ i, who = some i ∧
          (∀ r, Reaches limit scope r s → (r.stage i).turnedAway = false) ∧
          ∀ t, Reaches limit scope s' t → (t.stage i).turnedAway = false := by
  have hinv : Inv limit scope s := Inv.initial.reaches hrun
  refine ⟨hinv.counts, hinv.bound, ?_, ?_⟩
  · intro i o hi
    have hc : (s.stage i).counting = true := by rw [hi]; rfl
    have hpos := hinv.counts.pos (i := i) (by rw [hinv.inFlightOf_eq hc, hi]; rfl)
    omega
  · intro who s' hstep hlt
    obtain ⟨i, o, rfl, hi⟩ := hstep.lowers hlt
    refine ⟨i, rfl, ?_, ?_⟩
    · intro r hr
      by_contra haway
      have hs := hr.turnedAway (j := i) (by simpa using haway)
      rw [hi] at hs
      simp [Stage.turnedAway] at hs
    · intro t ht
      have hs : (s'.stage i).admitted = true := hstep.admitted (by rw [hi]; rfl)
      exact not_turnedAway_of_admitted (ht.admitted hs)

end Steps

/-- With room for one, the first request is served and the second is answered 429. -/
theorem backpressure_exact_one : ∃ s : Backpressure Bool,
    Reaches 1 (fun _ => .http "/submit-candidate") initial s ∧ s.stage true = .serving ∧
      s.stage false = .rejecting 429 ∧ s.inFlight = 1 ∧
      Counts (inFlightOf (fun _ => .http "/submit-candidate") s.stage) 1 := by
  let scope : Bool → Scope := fun _ => .http "/submit-candidate"
  let s₁ : Backpressure Bool :=
    { inFlight := 1, stage := Function.update (fun _ => .arriving) true .serving }
  let s₂ : Backpressure Bool :=
    { inFlight := 1, stage := Function.update s₁.stage false (.rejecting 429) }
  have hfirst : Reaches 1 scope initial s₁ := by
    refine .head ⟨_, .arrive (i := true) rfl rfl rfl⟩ <|
      .head ⟨_, .lockAcquire (i := true) rfl rfl⟩ <|
      .head ⟨_, .room (i := true) rfl (by decide)⟩ <| .head ⟨_, .count (i := true) rfl⟩ <|
      .head ⟨_, .grant (i := true) rfl⟩ ?_
    simp only [move, initial, Function.update_idem]
    exact .refl
  have hsecond : Reaches 1 scope s₁ s₂ := by
    refine .head ⟨_, .arrive (i := false) rfl rfl rfl⟩ <|
      .head ⟨_, .lockAcquire (i := false) rfl rfl⟩ <|
      .head ⟨_, .full (i := false) rfl (by decide)⟩ <|
      .head ⟨_, .unlockRefused (i := false) rfl⟩ ?_
    simp only [move, Function.update_idem]
    exact .refl
  exact ⟨s₂, hfirst.trans hsecond, rfl, rfl, rfl,
    (backpressure_exact (hfirst.trans hsecond)).1⟩

/-- A limit below zero is exceeded before the first request. -/
theorem backpressure_negative_limit : ¬ ∀ s : Backpressure Unit,
    Reaches (-1) (fun _ => .http "/submit-candidate") initial s → s.inFlight ≤ -1 := by
  intro h
  have hle : (initial : Backpressure Unit).inFlight ≤ -1 := h initial .refl
  exact absurd hle (by decide)

end Backpressure

end GovernorGateway
