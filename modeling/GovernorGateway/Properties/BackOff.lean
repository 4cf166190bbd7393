/-
# The back-off flag

`exclusive()` raises `_write_requested` "so new readers back off", and clears it in its `finally`.
One flag stands for ANY number of writers: whoever leaves first clears it for those who wait as
well.

`writeRequested_exact_iff` says exactly when it is right: along a run, the flag is up whenever some
`exclusive()` waits for the lock or holds it, and no reader gets past it, if and only if no writer
leaves while another one is waiting.  Two overlapping designations are enough to break it
(`writeRequested_lost`).
-/
import GovernorGateway.Concurrency.AdmissionLock

namespace GovernorGateway

variable {ι : Type}

/-! ## 1. The flag and the roles -/

/-- Some `exclusive()` waits for the lock or holds it. -/
def Wanted (role : ι → Role) : Prop := ∃ i, role i = .waiting ∨ role i = .writer

/-- The flag is up exactly then. -/
def FlagExact (l : AdmissionLock) (role : ι → Role) : Prop :=
  l.writeRequested = true ↔ Wanted role

section Sync

variable [DecidableEq ι] {l l' : AdmissionLock} {role : ι → Role} {i : ι} {k : Sync} {ρ : Role}

/-- A change of role that concerns readers only. -/
theorem wanted_update (hi : role i = .idle ∨ role i = .reader) (hρ : ρ = .idle ∨ ρ = .reader) :
    Wanted (Function.update role i ρ) ↔ Wanted role := by
  constructor
  · rintro ⟨j, hj⟩
    by_cases hji : j = i
    · subst hji
      rw [Function.update_self] at hj
      rcases hρ with rfl | rfl <;> exact absurd hj (by decide)
    · rw [Function.update_of_ne hji] at hj
      exact ⟨j, hj⟩
  · rintro ⟨j, hj⟩
    have hji : j ≠ i := by
      rintro rfl
      rcases hi with hi | hi <;> rw [hi] at hj <;> exact absurd hj (by decide)
    exact ⟨j, by rwa [Function.update_of_ne hji]⟩

/-- The writer leaves: whoever is still wanted was waiting beside it. -/
theorem wanted_leave (hheld : LockHeld l role) (hi : role i = .writer) :
    Wanted (Function.update role i .idle) ↔ ∃ j, role j = .waiting := by
  constructor
  · rintro ⟨j, hj⟩
    have hji : j ≠ i := by
      rintro rfl
      rw [Function.update_self] at hj
      exact absurd hj (by decide)
    rw [Function.update_of_ne hji] at hj
    rcases hj with hj | hj
    · exact ⟨j, hj⟩
    · exact absurd (hheld.unique j i hj hi) hji
  · rintro ⟨j, hj⟩
    have hji : j ≠ i := by
      rintro rfl
      rw [hi] at hj
      exact absurd hj (by decide)
    exact ⟨j, Or.inl (by rwa [Function.update_of_ne hji])⟩

/-- **One critical section** keeps the flag exact unless it is the end of an `exclusive()` beside
which another one waits. -/
theorem FlagExact.sync_iff (h : FlagExact l role) (hheld : LockHeld l role)
    (hk : (role i).next k = some ρ) (hl : l.sync k = some l') :
    FlagExact l' (Function.update role i ρ) ↔
      (role i = .writer → ∀ j, role j ≠ .waiting) := by
  cases k <;> cases hi : role i <;> rw [hi] at hk <;>
    simp only [Role.next, Option.some.injEq, reduceCtorEq] at hk <;> subst hk
  case enterShared.idle =>
    have hflag : l'.writeRequested = l.writeRequested := by
      rw [AdmissionLock.sync] at hl
      split at hl
      · rw [← Option.some.inj hl]
      · exact absurd hl (by simp)
    rw [FlagExact, hflag, wanted_update (Or.inl hi) (Or.inr rfl)]
    exact ⟨fun _ hw => absurd hw (by decide), fun _ => h⟩
  case leaveShared.reader =>
    obtain rfl := Option.some.inj hl
    rw [FlagExact, wanted_update (Or.inr hi) (Or.inl rfl)]
    exact ⟨fun _ hw => absurd hw (by decide), fun _ => h⟩
  case requestExclusive.idle =>
    obtain rfl := Option.some.inj hl
    have hwanted : Wanted (Function.update role i .waiting) :=
      ⟨i, Or.inl (Function.update_self ..)⟩
    exact ⟨fun _ hw => absurd hw (by decide), fun _ => ⟨fun _ => hwanted, fun _ => rfl⟩⟩
  case enterExclusive.waiting =>
    have hflag : l'.writeRequested = l.writeRequested := by
      rw [AdmissionLock.sync] at hl
      split at hl
      · rw [← Option.some.inj hl]
      · exact absurd hl (by simp)
    have hwanted : Wanted (Function.update role i .writer) :=
      ⟨i, Or.inr (Function.update_self ..)⟩
    have hup : l.writeRequested = true := h.mpr ⟨i, Or.inl hi⟩
    refine ⟨fun _ hw => absurd hw (by decide), fun _ => ⟨fun _ => hwanted, fun _ => ?_⟩⟩
    rw [hflag, hup]
  case leaveExclusive.writer =>
    obtain rfl := Option.some.inj hl
    rw [FlagExact, wanted_leave hheld hi]
    refine ⟨fun hexact _ j hj => ?_, fun hnone => ⟨fun hup => absurd hup (by simp), ?_⟩⟩
    · exact absurd (hexact.mpr ⟨j, hj⟩) (by simp)
    · rintro ⟨j, hj⟩
      exact absurd hj (hnone rfl j)

end Sync

/-! ## 2. Steps of the code -/

variable [DecidableEq ι]

/-- No writer leaves while another one is waiting. -/
def LeavesAlone (s s' : LockState ι) : Prop :=
  ∀ i, s.role i = .writer → s'.role i ≠ .writer → ∀ j, s.role j ≠ .waiting

/-- A reader is let in only when nobody wants the lock for itself. -/
def BacksOff (s s' : LockState ι) : Prop :=
  ∀ i, s.role i ≠ .reader → s'.role i = .reader → ¬ Wanted s.role

/-- **One step** keeps the flag exact exactly when no writer leaves others waiting. -/
theorem flagExact_step_iff {s s' : LockState ι} (hinv : s.Inv) (hstep : LockStep s s')
    (h : FlagExact s.lock s.role) : FlagExact s'.lock s'.role ↔ LeavesAlone s s' := by
  rcases hstep.refines hinv with ⟨hl, hrole⟩ | ⟨i, k, ρ, hk, hl, hrole⟩
  · rw [hl, hrole]
    refine ⟨fun _ i hi hi' => absurd hi ?_, fun _ => h⟩
    rwa [hrole] at hi'
  · rw [hrole, h.sync_iff hinv.held hk hl]
    constructor
    · intro hleave j hj hj'
      by_cases hji : j = i
      · subst hji
        exact hleave hj
      · rw [hrole, Function.update_of_ne hji] at hj'
        exact absurd hj hj'
    · intro hleave hi
      refine hleave i hi ?_
      rw [hrole, Function.update_self]
      rintro rfl
      rw [hi] at hk
      cases k <;> simp [Role.next] at hk

/-- With an exact flag, readers back off. -/
theorem FlagExact.backsOff {s s' : LockState ι} (hinv : s.Inv) (hstep : LockStep s s')
    (h : FlagExact s.lock s.role) : BacksOff s s' := by
  intro j hj hj'
  rcases hstep.refines hinv with ⟨-, hrole⟩ | ⟨i, k, ρ, hk, hl, hrole⟩
  · rw [hrole] at hj'
    exact absurd hj' hj
  · have hji : j = i := by
      by_contra hne
      rw [hrole, Function.update_of_ne hne] at hj'
      exact hj hj'
    subst hji
    rw [hrole, Function.update_self] at hj'
    subst hj'
    -- the only way to become a reader is past the test
    have hk' : k = .enterShared := by
      cases k <;> cases hi : s.role j <;> rw [hi] at hk <;> simp [Role.next] at hk ⊢
    subst hk'
    rw [AdmissionLock.sync] at hl
    split at hl
    · intro hwanted
      have hup := h.mpr hwanted
      rw [(AdmissionLock.admitsReader_iff.mp ‹_›).2] at hup
      exact absurd hup (by decide)
    · exact absurd hl (by simp)

/-! ## 3. Runs -/

/-- From any state in which the flag is exact. -/
theorem flagExact_chain_iff {s : LockState ι} (hinv : s.Inv) (h : FlagExact s.lock s.role)
    {run : List (LockState ι)} (hrun : (s :: run).IsChain LockStep) :
    ((∀ s' ∈ run, FlagExact s'.lock s'.role) ∧ (s :: run).IsChain BacksOff) ↔
      (s :: run).IsChain LeavesAlone := by
  induction run generalizing s with
  | nil => simp
  | cons s' run ih =>
    obtain ⟨hstep, hrest⟩ := List.isChain_cons_cons.mp hrun
    have hiff := flagExact_step_iff hinv hstep h
    rw [List.isChain_cons_cons, List.isChain_cons_cons, List.forall_mem_cons]
    constructor
    · rintro ⟨⟨hs', hall⟩, -, hback⟩
      exact ⟨hiff.mp hs', (ih (hinv.step hstep) hs' hrest).mp ⟨hall, hback⟩⟩
    · rintro ⟨halone, hchain⟩
      have hs' := hiff.mpr halone
      obtain ⟨hall, hback⟩ := (ih (hinv.step hstep) hs' hrest).mpr hchain
      exact ⟨⟨hs', hall⟩, h.backsOff hinv hstep, hback⟩

/-- **The back-off flag.**  Along a run of any tasks in any order, the flag is up exactly when some
`exclusive()` waits for the lock or holds it, and no `shared()` is granted while one does, if and
only if no writer leaves while another one is waiting. -/
theorem writeRequested_exact_iff {run : List (LockState ι)}
    (hrun : (LockState.initial :: run).IsChain LockStep) :
    ((∀ s ∈ run, FlagExact s.lock s.role) ∧ (LockState.initial :: run).IsChain BacksOff) ↔
      (LockState.initial :: run).IsChain LeavesAlone := by
  refine flagExact_chain_iff LockState.inv_initial ?_ hrun
  refine ⟨fun h => absurd h (by simp [LockState.initial]), ?_⟩
  rintro ⟨i, hi⟩
  exact absurd hi (by simp [LockState.initial, LockState.role, Pc.role])

/-- One `exclusive()`, from its request to its end. -/
theorem writeRequested_exact_alone : ∃ run : List (LockState Bool),
    (LockState.initial :: run).IsChain LockStep ∧ (∃ s ∈ run, s.role true = .writer) ∧
    ∀ s ∈ run, FlagExact s.lock s.role := by
  let pcs (s : LockState Bool) (pc : Pc) : Bool → Pc := Function.update s.pc true pc
  let s₁ : LockState Bool := { LockState.initial with pc := pcs LockState.initial .exclusiveRequest }
  let s₂ : LockState Bool := { s₁ with mutex := some true, pc := pcs s₁ .exclusiveFlag }
  let s₃ : LockState Bool :=
    { s₂ with lock := { writeRequested := true }, pc := pcs s₂ .exclusiveFlagged }
  let s₄ : LockState Bool := { s₃ with mutex := none, pc := pcs s₃ .exclusivePoll }
  let s₅ : LockState Bool := { s₄ with mutex := some true, pc := pcs s₄ .exclusiveTest }
  let s₆ : LockState Bool := { s₅ with pc := pcs s₅ .exclusiveClaim }
  let s₇ : LockState Bool :=
    { s₆ with lock := { writer := true, writeRequested := true }, pc := pcs s₆ .exclusiveGranted }
  let s₈ : LockState Bool := { s₇ with mutex := none, pc := pcs s₇ .exclusiveBody }
  let s₉ : LockState Bool := { s₈ with pc := pcs s₈ .exclusiveFinally }
  let s₁₀ : LockState Bool := { s₉ with mutex := some true, pc := pcs s₉ .exclusiveClear }
  let s₁₁ : LockState Bool := { s₁₀ with lock := {}, pc := pcs s₁₀ .exclusiveDone }
  have hrun : [LockState.initial, s₁, s₂, s₃, s₄, s₅, s₆, s₇, s₈, s₉, s₁₀, s₁₁].IsChain LockStep := by
    simp only [List.isChain_cons_cons]
    exact ⟨.move true (by decide), .acquire true rfl rfl, .statement true rfl, .release true rfl,
      .acquire true rfl rfl, .statement true rfl, .statement true rfl, .release true rfl,
      .move true (by decide), .acquire true rfl rfl, .statement true rfl, .singleton _⟩
  refine ⟨_, hrun, ⟨s₈, by simp, rfl⟩, ((writeRequested_exact_iff hrun).mpr ?_).1⟩
  simp only [List.isChain_cons_cons]
  refine ⟨?_, ?_, ?_, ?_, ?_, ?_, ?_, ?_, ?_, ?_, ?_, .singleton _⟩ <;> unfold LeavesAlone <;> decide

/-- Two of them overlap, and the first one to leave clears the flag of the other. -/
theorem writeRequested_lost : ¬ ∀ s : LockState Bool,
    Relation.ReflTransGen LockStep LockState.initial s → FlagExact s.lock s.role := by
  intro hall
  let s₁ : LockState Bool := { pc := Function.update (fun _ => .outside) true .exclusivePoll,
                               lock := { writeRequested := true } }
  let s₂ : LockState Bool := { pc := Function.update s₁.pc false .outside }
  have hfirst : Relation.ReflTransGen LockStep LockState.initial s₁ := by
    refine .head (.move true (show Pc.exclusiveRequest ∈ _ by decide)) <|
      .head (.acquire true rfl rfl) <| .head (.statement true rfl) <|
      .head (.release true rfl) ?_
    simp only [LockState.initial, Function.update_idem]
    exact .refl
  have hsecond : Relation.ReflTransGen LockStep s₁ s₂ := by
    refine .head (.move false (show Pc.exclusiveRequest ∈ _ by decide)) <|
      .head (.acquire false rfl rfl) <| .head (.statement false rfl) <|
      .head (.release false rfl) <| .head (.acquire false rfl rfl) <|
      .head (.statement false rfl) <| .head (.statement false rfl) <|
      .head (.release false rfl) <| .head (.move false (show Pc.exclusiveFinally ∈ _ by decide)) <|
      .head (.acquire false rfl rfl) <| .head (.statement false rfl) <|
      .head (.release false rfl) ?_
    simp only [Function.update_idem]
    exact .refl
  have hexact := hall s₂ (hfirst.trans hsecond)
  exact absurd (hexact.mpr ⟨true, Or.inl rfl⟩) (by simp [s₂])

end GovernorGateway
