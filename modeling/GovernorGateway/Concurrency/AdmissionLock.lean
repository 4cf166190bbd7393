/-
# The admission lock

`_AdmissionLock` (`src/governor_service.py`): a read-write lock made from a mutex, a counter and two
flags, whose callers poll.

Section 1 is what each critical section of the mutex does to the fields: this is the lock that the
handlers see (`AdmissionLock.sync`).  Section 2 is the code itself, one program counter for each
place where a task can stand, with the mutex, the test and the assignment as SEPARATE steps; nothing
is assumed about the order in which tasks run.  `LockStep.refines` says that the second is an
implementation of the first, and `lock_safe` that it is a read-write lock.

An activation of `shared()` or `exclusive()` is a task here.  A task that nests two activations is
two of these, so its schedules are among those covered.
-/
import GovernorGateway.Backend
import Mathlib.Data.Finset.Card
import Mathlib.Logic.Function.Basic
import Mathlib.Logic.Relation

namespace GovernorGateway

/-! ## 1. What a critical section does -/

structure AdmissionLock where
  readers : Int := 0
  writer : Bool := false
  writeRequested : Bool := false
  deriving DecidableEq

namespace AdmissionLock

/-- `not self._writer and not self._write_requested`. -/
def admitsReader (l : AdmissionLock) : Bool := !l.writer && !l.writeRequested

/-- `self._readers == 0 and not self._writer`. -/
def admitsWriter (l : AdmissionLock) : Bool := l.readers = 0 && !l.writer

/-- One critical section of the mutex, if its test succeeds.  A transaction does not concern the
lock. -/
def sync (l : AdmissionLock) : Sync → Option AdmissionLock
  | .enterShared => if l.admitsReader then some { l with readers := l.readers + 1 } else none
  | .leaveShared => some { l with readers := l.readers - 1 }
  | .requestExclusive => some { l with writeRequested := true }
  | .enterExclusive => if l.admitsWriter then some { l with writer := true } else none
  | .leaveExclusive => some { l with writer := false, writeRequested := false }
  | .begin | .commit | .rollback => some l

theorem admitsReader_iff {l : AdmissionLock} :
    l.admitsReader = true ↔ l.writer = false ∧ l.writeRequested = false := by
  simp [admitsReader]

theorem admitsWriter_iff {l : AdmissionLock} :
    l.admitsWriter = true ↔ l.readers = 0 ∧ l.writer = false := by
  simp [admitsWriter]

end AdmissionLock

/-- What a task has to do with the lock. -/
inductive Role where
  | idle
  | reader
  /-- It has raised the request flag. -/
  | waiting
  | writer
  deriving DecidableEq

/-- The role after a critical section, if the task may execute it. -/
def Role.next : Sync → Role → Option Role
  | .enterShared, .idle => some .reader
  | .leaveShared, .reader => some .idle
  | .requestExclusive, .idle => some .waiting
  | .enterExclusive, .waiting => some .writer
  | .leaveExclusive, .writer => some .idle
  | _, _ => none

/-- **A read-write lock.**  The fields agree with the roles of the tasks. -/
structure LockHeld {ι : Type} (l : AdmissionLock) (role : ι → Role) : Prop where
  readers : ∃ S : Finset ι, (∀ i, i ∈ S ↔ role i = .reader) ∧ l.readers = S.card
  writer : ∀ i, role i = .writer → l.writer = true ∧ l.readers = 0
  unique : ∀ i j, role i = .writer → role j = .writer → i = j
  held : l.writer = true → ∃ i, role i = .writer
  requested : l.writeRequested = true → ∃ i, role i = .waiting ∨ role i = .writer

theorem lockHeld_initial {ι : Type} : LockHeld {} fun _ : ι => Role.idle where
  readers := ⟨∅, by simp, rfl⟩
  writer := by simp
  unique := by simp
  held := by simp
  requested := by simp

namespace LockHeld

variable {ι : Type} {l : AdmissionLock} {role : ι → Role}

/-- No reader is in beside a writer. -/
theorem not_reader (h : LockHeld l role) {i j : ι} (hi : role i = .writer) :
    role j ≠ .reader := by
  intro hj
  obtain ⟨S, hS, hcard⟩ := h.readers
  have hpos : 0 < S.card := Finset.card_pos.mpr ⟨j, (hS j).mpr hj⟩
  have hzero := (h.writer i hi).2
  omega

variable [DecidableEq ι] {i : ι}

theorem enterShared (h : LockHeld l role) (hi : role i = .idle) (hl : l.admitsReader = true) :
    LockHeld { l with readers := l.readers + 1 } (Function.update role i .reader) := by
  obtain ⟨S, hS, hcard⟩ := h.readers
  obtain ⟨hwriter, hrequested⟩ := AdmissionLock.admitsReader_iff.mp hl
  have hnone : ∀ j, Function.update role i .reader j ≠ .writer := by
    intro j hj
    by_cases hji : j = i
    · subst hji
      rw [Function.update_self] at hj
      exact absurd hj (by decide)
    · rw [Function.update_of_ne hji] at hj
      rw [(h.writer j hj).1] at hwriter
      exact absurd hwriter (by decide)
  refine ⟨⟨insert i S, fun j => ?_, ?_⟩, fun j hj => absurd hj (hnone j),
    fun j _ hj _ => absurd hj (hnone j), fun hw => ?_, fun hr => ?_⟩
  · rw [Finset.mem_insert, hS]
    by_cases hji : j = i
    · subst hji
      simp
    · simp [hji]
  · have hfresh : i ∉ S := by
      rw [hS, hi]
      decide
    rw [Finset.card_insert_of_notMem hfresh]
    push_cast
    exact congrArg (· + 1) hcard
  · rw [hwriter] at hw
    exact absurd hw (by decide)
  · rw [hrequested] at hr
    exact absurd hr (by decide)

theorem leaveShared (h : LockHeld l role) (hi : role i = .reader) :
    LockHeld { l with readers := l.readers - 1 } (Function.update role i .idle) := by
  obtain ⟨S, hS, hcard⟩ := h.readers
  have hmem : i ∈ S := (hS i).mpr hi
  have hnone : ∀ j, role j ≠ .writer := fun j hj => h.not_reader hj hi
  have hold : ∀ j, Function.update role i .idle j ≠ .idle →
      Function.update role i .idle j = role j := by
    intro j hj
    by_cases hji : j = i
    · subst hji
      exact absurd (Function.update_self ..) hj
    · exact Function.update_of_ne hji ..
  refine ⟨⟨S.erase i, fun j => ?_, ?_⟩, fun j hj => ?_, fun j _ hj _ => ?_, fun hw => ?_,
    fun hr => ?_⟩
  · rw [Finset.mem_erase, hS]
    by_cases hji : j = i
    · subst hji
      simp
    · simp [hji]
  · have hpos : 0 < S.card := Finset.card_pos.mpr ⟨i, hmem⟩
    rw [Finset.card_erase_of_mem hmem]
    push_cast [hpos]
    exact congrArg (· - 1) hcard
  · exact absurd (hold j (by rw [hj]; decide) ▸ hj) (hnone j)
  · exact absurd (hold j (by rw [hj]; decide) ▸ hj) (hnone j)
  · obtain ⟨j, hj⟩ := h.held hw
    exact absurd hj (hnone j)
  · obtain ⟨j, hj⟩ := h.requested hr
    have hji : j ≠ i := by
      rintro rfl
      rw [hi] at hj
      exact absurd hj (by decide)
    exact ⟨j, by rwa [Function.update_of_ne hji]⟩

theorem requestExclusive (h : LockHeld l role) (hi : role i = .idle) :
    LockHeld { l with writeRequested := true } (Function.update role i .waiting) := by
  obtain ⟨S, hS, hcard⟩ := h.readers
  have hsame : ∀ j, Function.update role i .waiting j = .writer ↔ role j = .writer := by
    intro j
    by_cases hji : j = i
    · subst hji
      simp [hi]
    · rw [Function.update_of_ne hji]
  refine ⟨⟨S, fun j => ?_, hcard⟩, fun j hj => h.writer j ((hsame j).mp hj),
    fun j k hj hk => h.unique j k ((hsame j).mp hj) ((hsame k).mp hk), fun hw => ?_,
    fun _ => ⟨i, Or.inl (Function.update_self ..)⟩⟩
  · rw [hS]
    by_cases hji : j = i
    · subst hji
      simp [hi]
    · rw [Function.update_of_ne hji]
  · obtain ⟨j, hj⟩ := h.held hw
    exact ⟨j, (hsame j).mpr hj⟩

theorem enterExclusive (h : LockHeld l role) (hi : role i = .waiting)
    (hl : l.admitsWriter = true) :
    LockHeld { l with writer := true } (Function.update role i .writer) := by
  obtain ⟨S, hS, hcard⟩ := h.readers
  obtain ⟨hreaders, hwriter⟩ := AdmissionLock.admitsWriter_iff.mp hl
  have honly : ∀ j, Function.update role i .writer j = .writer → j = i := by
    intro j hj
    by_contra hji
    rw [Function.update_of_ne hji] at hj
    rw [(h.writer j hj).1] at hwriter
    exact absurd hwriter (by decide)
  refine ⟨⟨S, fun j => ?_, hcard⟩, fun _ _ => ⟨rfl, hreaders⟩,
    fun j k hj hk => (honly j hj).trans (honly k hk).symm,
    fun _ => ⟨i, Function.update_self ..⟩, fun _ => ⟨i, Or.inr (Function.update_self ..)⟩⟩
  rw [hS]
  by_cases hji : j = i
  · subst hji
    simp [hi]
  · rw [Function.update_of_ne hji]

theorem leaveExclusive (h : LockHeld l role) (hi : role i = .writer) :
    LockHeld { l with writer := false, writeRequested := false }
      (Function.update role i .idle) := by
  obtain ⟨S, hS, hcard⟩ := h.readers
  have hnone : ∀ j, Function.update role i .idle j ≠ .writer := by
    intro j hj
    by_cases hji : j = i
    · subst hji
      rw [Function.update_self] at hj
      exact absurd hj (by decide)
    · rw [Function.update_of_ne hji] at hj
      exact hji (h.unique j i hj hi)
  refine ⟨⟨S, fun j => ?_, hcard⟩, fun j hj => absurd hj (hnone j),
    fun j _ hj _ => absurd hj (hnone j), fun hw => absurd hw (by simp),
    fun hr => absurd hr (by simp)⟩
  rw [hS]
  by_cases hji : j = i
  · subst hji
    simp [hi]
  · rw [Function.update_of_ne hji]

/-- **Every critical section keeps the lock a read-write lock.** -/
theorem sync (h : LockHeld l role) {k : Sync} {ρ : Role} {l' : AdmissionLock}
    (hk : (role i).next k = some ρ) (hl : l.sync k = some l') :
    LockHeld l' (Function.update role i ρ) := by
  cases k <;> cases hi : role i <;> rw [hi] at hk <;>
    simp only [Role.next, Option.some.injEq, reduceCtorEq] at hk <;> subst hk
  case enterShared.idle =>
    rw [AdmissionLock.sync] at hl
    split at hl
    · obtain rfl := Option.some.inj hl
      exact h.enterShared hi ‹_›
    · exact absurd hl (by simp)
  case leaveShared.reader =>
    obtain rfl := Option.some.inj hl
    exact h.leaveShared hi
  case requestExclusive.idle =>
    obtain rfl := Option.some.inj hl
    exact h.requestExclusive hi
  case enterExclusive.waiting =>
    rw [AdmissionLock.sync] at hl
    split at hl
    · obtain rfl := Option.some.inj hl
      exact h.enterExclusive hi ‹_›
    · exact absurd hl (by simp)
  case leaveExclusive.writer =>
    obtain rfl := Option.some.inj hl
    exact h.leaveExclusive hi

end LockHeld

/-! ## 2. The code, statement by statement -/

/-- Where a task stands.  `…Poll`, `…Request` and `…Finally` wait for the mutex; `…Retry`,
`…Granted`, `…Flagged` and `…Done` are about to release it. -/
inductive Pc where
  | outside
  | sharedPoll
  | sharedTest
  | sharedIncrement
  | sharedRetry
  | sharedSleep
  | sharedGranted
  | sharedBody
  | sharedFinally
  | sharedDecrement
  | sharedDone
  | exclusiveRequest
  | exclusiveFlag
  | exclusiveFlagged
  | exclusivePoll
  | exclusiveTest
  | exclusiveClaim
  | exclusiveRetry
  | exclusiveSleep
  | exclusiveGranted
  | exclusiveBody
  | exclusiveFinally
  | exclusiveClear
  | exclusiveDone
  deriving DecidableEq

namespace Pc

/-- Steps that touch neither the mutex nor the fields.  A body that raises goes to its `finally`
like one that finishes. -/
def moves : Pc → List Pc
  | .outside => [.sharedPoll, .exclusiveRequest]
  | .sharedSleep => [.sharedPoll]
  | .sharedBody => [.sharedFinally]
  | .exclusiveSleep => [.exclusivePoll]
  | .exclusiveBody => [.exclusiveFinally]
  | _ => []

/-- `async with mutex:`, on the way in. -/
def acquires : Pc → Option Pc
  | .sharedPoll => some .sharedTest
  | .sharedFinally => some .sharedDecrement
  | .exclusiveRequest => some .exclusiveFlag
  | .exclusivePoll => some .exclusiveTest
  | .exclusiveFinally => some .exclusiveClear
  | _ => none

/-- The statements inside. -/
def statement (l : AdmissionLock) : Pc → Option (Pc × AdmissionLock)
  | .sharedTest => some (if l.admitsReader then .sharedIncrement else .sharedRetry, l)
  | .sharedIncrement => some (.sharedGranted, { l with readers := l.readers + 1 })
  | .sharedDecrement => some (.sharedDone, { l with readers := l.readers - 1 })
  | .exclusiveFlag => some (.exclusiveFlagged, { l with writeRequested := true })
  | .exclusiveTest => some (if l.admitsWriter then .exclusiveClaim else .exclusiveRetry, l)
  | .exclusiveClaim => some (.exclusiveGranted, { l with writer := true })
  | .exclusiveClear => some (.exclusiveDone, { l with writer := false, writeRequested := false })
  | _ => none

/-- `async with mutex:`, on the way out. -/
def releases : Pc → Option Pc
  | .sharedRetry => some .sharedSleep
  | .sharedGranted => some .sharedBody
  | .sharedDone => some .outside
  | .exclusiveFlagged => some .exclusivePoll
  | .exclusiveRetry => some .exclusiveSleep
  | .exclusiveGranted => some .exclusiveBody
  | .exclusiveDone => some .outside
  | _ => none

/-- The task holds the mutex. -/
def inMutex (pc : Pc) : Bool := (pc.statement {}).isSome || pc.releases.isSome

/-- A reader stands between its increment of `_readers` and its decrement, a writer between its
`_writer = True` and its `_writer = False`. -/
def role : Pc → Role
  | .sharedGranted | .sharedBody | .sharedFinally | .sharedDecrement => .reader
  | .exclusiveFlagged | .exclusivePoll | .exclusiveTest | .exclusiveClaim | .exclusiveRetry
  | .exclusiveSleep => .waiting
  | .exclusiveGranted | .exclusiveBody | .exclusiveFinally | .exclusiveClear => .writer
  | _ => .idle

end Pc

/-- The fields of the lock, who holds the mutex, and where every task stands. -/
structure LockState (ι : Type) where
  lock : AdmissionLock := {}
  mutex : Option ι := none
  pc : ι → Pc

variable {ι : Type} [DecidableEq ι]

/-- One step of one task. -/
inductive LockStep : LockState ι → LockState ι → Prop
  | move {s : LockState ι} (i : ι) {pc : Pc} : pc ∈ (s.pc i).moves →
      LockStep s { s with pc := Function.update s.pc i pc }
  | acquire {s : LockState ι} (i : ι) {pc : Pc} : s.mutex = none → (s.pc i).acquires = some pc →
      LockStep s { s with mutex := some i, pc := Function.update s.pc i pc }
  | statement {s : LockState ι} (i : ι) {pc : Pc} {l : AdmissionLock} :
      (s.pc i).statement s.lock = some (pc, l) →
      LockStep s { s with lock := l, pc := Function.update s.pc i pc }
  | release {s : LockState ι} (i : ι) {pc : Pc} : (s.pc i).releases = some pc →
      LockStep s { s with mutex := none, pc := Function.update s.pc i pc }

/-- A new lock, with every task outside. -/
def LockState.initial : LockState ι := { pc := fun _ => .outside }

/-! ## 3. The code implements the lock -/

/-- What the mutex protects: a test that succeeded is still true when its assignment is made. -/
structure LockState.Inv (s : LockState ι) : Prop where
  mutex : ∀ i, (s.pc i).inMutex = true → s.mutex = some i
  increment : ∀ i, s.pc i = .sharedIncrement → s.lock.admitsReader = true
  claim : ∀ i, s.pc i = .exclusiveClaim → s.lock.admitsWriter = true
  held : LockHeld s.lock fun i => (s.pc i).role

namespace Pc

/-- A step that assigns nothing and is not a test. -/
structure Alike (pc pc' : Pc) : Prop where
  role : pc'.role = pc.role
  increment : pc' ≠ .sharedIncrement
  claim : pc' ≠ .exclusiveClaim

theorem alike_moves {pc pc' : Pc} (h : pc' ∈ pc.moves) :
    Alike pc pc' ∧ pc'.inMutex = false := by
  cases pc <;> simp only [moves, List.mem_cons, List.not_mem_nil, or_false] at h
  case outside =>
    rcases h with rfl | rfl
    · exact ⟨⟨rfl, by decide, by decide⟩, rfl⟩
    · exact ⟨⟨rfl, by decide, by decide⟩, rfl⟩
  all_goals
    subst h
    exact ⟨⟨rfl, by decide, by decide⟩, rfl⟩

theorem alike_acquires {pc pc' : Pc} (h : pc.acquires = some pc') : Alike pc pc' := by
  cases pc <;> simp only [acquires, Option.some.injEq, reduceCtorEq] at h
  all_goals
    subst h
    exact ⟨rfl, by decide, by decide⟩

theorem alike_releases {pc pc' : Pc} (h : pc.releases = some pc') :
    Alike pc pc' ∧ pc'.inMutex = false := by
  cases pc <;> simp only [releases, Option.some.injEq, reduceCtorEq] at h
  all_goals
    subst h
    exact ⟨⟨rfl, by decide, by decide⟩, rfl⟩

theorem inMutex_releases {pc pc' : Pc} (h : pc.releases = some pc') : pc.inMutex = true := by
  simp [inMutex, h]

/-- What a statement can be: a test, or the assignment of a critical section. -/
theorem statement_cases {pc pc' : Pc} {l l' : AdmissionLock} (h : pc.statement l = some (pc', l'))
    (hincrement : pc = .sharedIncrement → l.admitsReader = true)
    (hclaim : pc = .exclusiveClaim → l.admitsWriter = true) :
    pc.inMutex = true ∧
      ((l' = l ∧ pc'.role = pc.role ∧ (pc' = .sharedIncrement → l.admitsReader = true) ∧
          (pc' = .exclusiveClaim → l.admitsWriter = true)) ∨
        (pc' ≠ .sharedIncrement ∧ pc' ≠ .exclusiveClaim ∧
          ∃ k, pc.role.next k = some pc'.role ∧ l.sync k = some l')) := by
  cases pc <;> simp only [statement, Option.some.injEq, Prod.mk.injEq, reduceCtorEq] at h <;>
    obtain ⟨rfl, rfl⟩ := h <;> refine ⟨rfl, ?_⟩
  case sharedTest =>
    split
    · exact Or.inl ⟨rfl, rfl, fun _ => ‹_›, by simp⟩
    · exact Or.inl ⟨rfl, rfl, by simp, by simp⟩
  case exclusiveTest =>
    split
    · exact Or.inl ⟨rfl, rfl, by simp, fun _ => ‹_›⟩
    · exact Or.inl ⟨rfl, rfl, by simp, by simp⟩
  case sharedIncrement =>
    exact Or.inr ⟨by simp, by simp, .enterShared, rfl, if_pos (hincrement rfl)⟩
  case exclusiveClaim =>
    exact Or.inr ⟨by simp, by simp, .enterExclusive, rfl, if_pos (hclaim rfl)⟩
  case sharedDecrement => exact Or.inr ⟨by simp, by simp, .leaveShared, rfl, rfl⟩
  case exclusiveFlag => exact Or.inr ⟨by simp, by simp, .requestExclusive, rfl, rfl⟩
  case exclusiveClear => exact Or.inr ⟨by simp, by simp, .leaveExclusive, rfl, rfl⟩

end Pc

namespace LockState

variable {s : LockState ι}

omit [DecidableEq ι] in
theorem inv_initial : (initial : LockState ι).Inv where
  mutex := by
    intro i hi
    exact absurd hi (by simp [initial, Pc.inMutex, Pc.statement, Pc.releases])
  increment := by simp [initial]
  claim := by simp [initial]
  held := lockHeld_initial

omit [DecidableEq ι] in
/-- While a task is in the mutex no other one is. -/
theorem Inv.not_inMutex (h : s.Inv) {i j : ι} (hi : (s.pc i).inMutex = true) (hj : j ≠ i) :
    (s.pc j).inMutex = false := by
  by_contra hne
  have hjm := h.mutex j (by simpa using hne)
  rw [h.mutex i hi] at hjm
  exact hj (Option.some.inj hjm).symm

theorem update_cases (f : ι → Pc) (i j : ι) (pc : Pc) :
    (j = i ∧ Function.update f i pc j = pc) ∨ (j ≠ i ∧ Function.update f i pc j = f j) := by
  by_cases hj : j = i
  · subst hj
    exact Or.inl ⟨rfl, Function.update_self ..⟩
  · exact Or.inr ⟨hj, Function.update_of_ne hj ..⟩

theorem role_update (f : ι → Pc) (i : ι) (pc : Pc) :
    (fun j => (Function.update f i pc j).role) =
      Function.update (fun j => (f j).role) i pc.role := by
  funext j
  rcases update_cases f i j pc with ⟨rfl, hj⟩ | ⟨hne, hj⟩
  · rw [hj, Function.update_self]
  · rw [hj, Function.update_of_ne hne]

/-- Steps that assign nothing: everything but the mutex is as before. -/
theorem Inv.alike (h : s.Inv) {i : ι} {pc : Pc} (hpc : Pc.Alike (s.pc i) pc) {m : Option ι}
    (hm : ∀ j, (Function.update s.pc i pc j).inMutex = true → m = some j) :
    Inv { s with mutex := m, pc := Function.update s.pc i pc } := by
  refine ⟨hm, fun j hj => ?_, fun j hj => ?_, ?_⟩
  · rcases update_cases s.pc i j pc with ⟨rfl, hj'⟩ | ⟨-, hj'⟩
    · exact absurd (hj'.symm.trans hj) hpc.increment
    · exact h.increment j (hj'.symm.trans hj)
  · rcases update_cases s.pc i j pc with ⟨rfl, hj'⟩ | ⟨-, hj'⟩
    · exact absurd (hj'.symm.trans hj) hpc.claim
    · exact h.claim j (hj'.symm.trans hj)
  · change LockHeld s.lock fun j => (Function.update s.pc i pc j).role
    rw [role_update, hpc.role, Function.update_eq_self]
    exact h.held

/-- A statement of a task in the mutex: no other task is in it, so no other test is pending. -/
theorem Inv.statement (h : s.Inv) {i : ι} {pc : Pc} {l : AdmissionLock}
    (hst : (s.pc i).statement s.lock = some (pc, l)) :
    Inv { s with lock := l, pc := Function.update s.pc i pc } := by
  obtain ⟨hi, hcases⟩ := Pc.statement_cases hst (h.increment i) (h.claim i)
  have hother : ∀ j pc', j ≠ i → pc'.inMutex = true → Function.update s.pc i pc j ≠ pc' := by
    intro j pc' hne hmutex hj
    rw [Function.update_of_ne hne] at hj
    have hout := h.not_inMutex hi hne
    rw [hj, hmutex] at hout
    exact absurd hout (by decide)
  refine ⟨fun j (hj : (Function.update s.pc i pc j).inMutex = true) => ?_, fun j hj => ?_,
    fun j hj => ?_, ?_⟩
  · rcases update_cases s.pc i j pc with ⟨rfl, -⟩ | ⟨hne, hj'⟩
    · exact h.mutex j hi
    · exact h.mutex j (by rwa [hj'] at hj)
  · rcases update_cases s.pc i j pc with ⟨rfl, hj'⟩ | ⟨hne, -⟩
    · rcases hcases with ⟨rfl, -, hinc, -⟩ | ⟨hinc, -⟩
      · exact hinc (hj'.symm.trans hj)
      · exact absurd (hj'.symm.trans hj) hinc
    · exact absurd hj (hother j _ hne rfl)
  · rcases update_cases s.pc i j pc with ⟨rfl, hj'⟩ | ⟨hne, -⟩
    · rcases hcases with ⟨rfl, -, -, hclaim⟩ | ⟨-, hclaim, -⟩
      · exact hclaim (hj'.symm.trans hj)
      · exact absurd (hj'.symm.trans hj) hclaim
    · exact absurd hj (hother j _ hne rfl)
  · change LockHeld l fun j => (Function.update s.pc i pc j).role
    rw [role_update]
    rcases hcases with ⟨rfl, hrole, -⟩ | ⟨-, -, k, hk, hl⟩
    · rw [hrole, Function.update_eq_self]
      exact h.held
    · exact h.held.sync hk hl

/-- **Every step keeps the invariant.** -/
theorem Inv.step (h : s.Inv) {s' : LockState ι} (hstep : LockStep s s') : s'.Inv := by
  cases hstep with
  | move i hpc =>
    obtain ⟨halike, hout⟩ := Pc.alike_moves hpc
    refine h.alike halike fun j hj => ?_
    rcases update_cases s.pc i j _ with ⟨rfl, hj'⟩ | ⟨-, hj'⟩
    · rw [hj', hout] at hj
      exact absurd hj (by decide)
    · exact h.mutex j (by rwa [hj'] at hj)
  | acquire i hfree hpc =>
    refine h.alike (Pc.alike_acquires hpc) fun j hj => ?_
    rcases update_cases s.pc i j _ with ⟨rfl, -⟩ | ⟨-, hj'⟩
    · rfl
    · have hm := h.mutex j (by rwa [hj'] at hj)
      rw [hfree] at hm
      exact absurd hm (by simp)
  | statement i hst => exact h.statement hst
  | release i hpc =>
    obtain ⟨halike, hout⟩ := Pc.alike_releases hpc
    refine h.alike halike fun j hj => ?_
    rcases update_cases s.pc i j _ with ⟨rfl, hj'⟩ | ⟨hne, hj'⟩
    · rw [hj', hout] at hj
      exact absurd hj (by decide)
    · rw [hj', h.not_inMutex (Pc.inMutex_releases hpc) hne] at hj
      exact absurd hj (by decide)

theorem inv_of_reachable (h : Relation.ReflTransGen LockStep initial s) : s.Inv := by
  induction h with
  | refl => exact inv_initial
  | tail _ hstep ih => exact ih.step hstep

end LockState

/-- What every task has to do with the lock. -/
def LockState.role (s : LockState ι) (i : ι) : Role := (s.pc i).role

/-- **Refinement.**  A step of the code leaves the fields and the roles alone, or it is one of the
critical sections, made by a task in the role for it. -/
theorem LockStep.refines {s s' : LockState ι} (h : s.Inv) (hstep : LockStep s s') :
    (s'.lock = s.lock ∧ s'.role = s.role) ∨
      ∃ i k ρ, (s.role i).next k = some ρ ∧ s.lock.sync k = some s'.lock ∧
        s'.role = Function.update s.role i ρ := by
  have hsame : ∀ {i : ι} {pc : Pc}, pc.role = (s.pc i).role →
      (fun j => (Function.update s.pc i pc j).role) = s.role := by
    intro i pc hpc
    rw [LockState.role_update, hpc]
    exact Function.update_eq_self i s.role
  cases hstep with
  | move i hpc => exact Or.inl ⟨rfl, hsame (Pc.alike_moves hpc).1.role⟩
  | acquire i hfree hpc => exact Or.inl ⟨rfl, hsame (Pc.alike_acquires hpc).role⟩
  | release i hpc => exact Or.inl ⟨rfl, hsame (Pc.alike_releases hpc).1.role⟩
  | statement i hst =>
    rcases (Pc.statement_cases hst (h.increment i) (h.claim i)).2 with
      ⟨hl, hrole, -⟩ | ⟨-, -, k, hk, hl⟩
    · exact Or.inl ⟨hl, hsame hrole⟩
    · exact Or.inr ⟨i, k, _, hk, hl, LockState.role_update ..⟩

/-! ## 4. Safety -/

/-- **Lock safety.**  Whatever the tasks and the order of their steps, at most one exclusive body
runs, no shared body runs beside it, and `_readers` counts the tasks between their increment and
their decrement. -/
theorem lock_safe {s : LockState ι} (h : Relation.ReflTransGen LockStep LockState.initial s) :
    (∀ i j, s.pc i = .exclusiveBody → s.pc j = .exclusiveBody → i = j) ∧
    (∀ i j, s.pc i = .exclusiveBody → s.pc j ≠ .sharedBody) ∧
    (∃ S : Finset ι, (∀ i, i ∈ S ↔ (s.pc i).role = .reader) ∧ s.lock.readers = S.card) ∧
    0 ≤ s.lock.readers := by
  have hheld := (LockState.inv_of_reachable h).held
  obtain ⟨S, hS, hcard⟩ := hheld.readers
  refine ⟨fun i j hi hj => ?_, fun i j hi hj => ?_, ⟨S, hS, hcard⟩, by omega⟩
  · exact hheld.unique i j (by rw [hi]; rfl) (by rw [hj]; rfl)
  · exact hheld.not_reader (show (s.pc i).role = .writer by rw [hi]; rfl)
      (show (s.pc j).role = .reader by rw [hj]; rfl)

/-- One task is in the body of `shared()` while another one has raised the request flag. -/
theorem lock_safe_reader_and_request : ∃ s : LockState Bool,
    Relation.ReflTransGen LockStep LockState.initial s ∧ s.pc true = .sharedBody ∧
    s.lock = { readers := 1, writeRequested := true } ∧ s.pc false ≠ .exclusiveBody := by
  let s₁ : LockState Bool := { pc := Function.update (fun _ => .outside) true .sharedBody,
                               lock := { readers := 1 } }
  let s₂ : LockState Bool := { pc := Function.update s₁.pc false .exclusivePoll,
                               lock := { readers := 1, writeRequested := true } }
  have hreader : Relation.ReflTransGen LockStep LockState.initial s₁ := by
    refine .head (.move true (show Pc.sharedPoll ∈ _ by decide)) <|
      .head (.acquire true rfl rfl) <| .head (.statement true rfl) <|
      .head (.statement true rfl) <| .head (.release true rfl) ?_
    simp only [LockState.initial, Function.update_idem]
    exact .refl
  have hwriter : Relation.ReflTransGen LockStep s₁ s₂ := by
    refine .head (.move false (show Pc.exclusiveRequest ∈ _ by decide)) <|
      .head (.acquire false rfl rfl) <| .head (.statement false rfl) <|
      .head (.release false rfl) ?_
    simp only [Function.update_idem]
    exact .refl
  refine ⟨s₂, hreader.trans hwriter, rfl, rfl, fun hbody => ?_⟩
  exact (lock_safe (hreader.trans hwriter)).2.1 false true hbody rfl

end GovernorGateway
