/-
# Handlers that can go on

A task waits for the admission lock by making no step.  A configuration is STUCK when a handler has
not returned and no task can make a step; to poll the lock once more is none.

Two things are asked of a configuration (`Live`): that it is not stuck, and that no task asks for
the shared side while it holds the exclusive one.  The second is about what each task has done so
far, so a run keeps the role of every task beside the shared state (`WithRoles`).

`live_of_run` is the rule: if every handler, alone in its own view, makes its calls of the lock and
of the transaction in place and ends outside the lock, then every state of every interleaving is
live.  Whoever waits then waits for somebody who does not wait: with no reader and no writer in, a
request for the exclusive side is granted, and with no request up a reader is.
-/
import GovernorGateway.Concurrency.Local

namespace GovernorGateway

open Effects

/-! ## 1. The role of each task -/

/-- What a task has to do with the lock after a call. -/
def Role.after (c : Call) (ρ : Role) : Role :=
  match c with
  | .sync k => (ρ.next k).getD ρ
  | _ => ρ

/-- The shared side is asked for from outside. -/
theorem Role.of_enterShared {ρ ρ' : Role} (h : ρ.next .enterShared = some ρ') : ρ = .idle := by
  cases ρ with
  | idle => rfl
  | _ => exact absurd h (by simp [Role.next])

/-- The exclusive side is entered with the request up. -/
theorem Role.of_enterExclusive {ρ ρ' : Role} (h : ρ.next .enterExclusive = some ρ') : ρ = .waiting := by
  cases ρ with
  | waiting => rfl
  | _ => exact absurd h (by simp [Role.next])

/-- The shared state, with the role of each task. -/
structure WithRoles (ι : Type) where
  gateway : Gateway ι
  role : ι → Role := fun _ => .idle

/-- A call of task `i`, which nothing but its own calls moves in or out of a role. -/
def RoleStep {ι : Type} [DecidableEq ι] (g : Setup) (answers : Answers) (Ok : Condition) (i : ι) :
    Trans Call Call.Res Exc (WithRoles ι) := fun c s r s' =>
  TaskStepOn g answers Ok i c s.gateway r s'.gateway ∧
    s'.role = Function.update s.role i (Role.after c (s.role i))

/-- Handlers that run together. -/
abbrev Tasks (ι : Type) : Type :=
  Pool ι Call Call.Res Exc (WithRoles ι) (Except Exc Response)

namespace Tasks

variable {ι : Type}

/-- The handlers of some requests, none of which has started. -/
def start (g : Setup) (req : ι → Request) (s : Gateway ι) : Tasks ι :=
  ⟨{ gateway := s }, fun i => ((req i).handle g).tree⟩

/-- The next call of the task is this one of the lock or of a transaction. -/
def Asks (p : Tasks ι) (i : ι) (k : Sync) : Prop := ∃ rest, p.prog i = .call (.sync k) rest

/-- The handler has not returned. -/
def Running (p : Tasks ι) (i : ι) : Prop := ∀ a, ¬ p.Finished i a

variable [DecidableEq ι]

/-- Not stuck, and nobody who holds the exclusive side asks for the shared one. -/
structure Live (g : Setup) (answers : Answers) (p : Tasks ι) : Prop where
  goesOn : (∃ i, p.Running i) →
    ∃ p', Pool.Step (RoleStep g answers fun _ _ _ => True) p p'
  apart : ∀ i, p.Asks i .enterShared → p.state.role i ≠ .writer

end Tasks

/-! ## 2. The views and the roles -/

theorem Store.exec_readOnly {g : Setup} {c : Store} (hc : c.readOnly = true) (d : Db) :
    (c.exec g d).2 = d := by
  cases c <;> first | rfl | exact absurd hc (by simp [Store.readOnly])

variable {ι : Type} [DecidableEq ι] {g : Setup} {answers : Answers} {t : Terms}
  {F : Bool → Lineage → Prop} {G : Lineage → Lineage → Prop}

/-- A call of the lock or of a transaction, in place, moves the task as `Role.next` says. -/
theorem Loc.next_role {l l' : Loc} {d : Db} {k : Sync} (h : l.next d k = some l') :
    l'.side.role = (l.side.role.next k).getD l.side.role := by
  obtain ⟨side, tx, fresh⟩ := l
  cases k <;> cases side <;> cases tx <;>
    simp only [Loc.next, Option.some.injEq, reduceCtorEq] at h <;> subst h <;> rfl

/-- **A step that does its duty moves the task as `Role.after` says.** -/
theorem LocalStep.role {c : Call} {l l' : Loc} {r : Except Exc c.Res}
    (h : LocalStep g answers t F c l r l') (hduty : Duty g t F G c l r l') :
    l'.side.role = Role.after c l.side.role := by
  obtain ⟨v, -, -, heffect⟩ := h
  cases c with
  | store c =>
    rcases heffect with ⟨-, rfl⟩ | ⟨-, -, rfl⟩
    · exact Coherent.wrote_role l c _
    · rfl
  | ext e => rw [heffect.2]; rfl
  | getAdapterKey => rw [heffect.2]; rfl
  | setAdapterKey key => rw [heffect.2]; rfl
  | sync k =>
    obtain ⟨l₁, hnext⟩ := Option.isSome_iff_exists.mp (hduty.1 v.db)
    simp only [LocalEffect, hnext] at heffect
    rcases heffect with ⟨-, rfl⟩ | ⟨rfl, -, rfl⟩
    · exact Loc.next_role hnext
    · -- the transaction could not be begun
      cases l'.side <;> rfl

/-- The next call of a task whose handler does its duty is in place. -/
theorem next_isSome_of_sat {α : Type} (hnested : t.nested)
    (hsync : ∀ k v r, t.condition (.sync k) v r) {k : Sync}
    {rest : Except Exc Unit → Prog Call Call.Res Exc α} {Q : α → Loc → Prop} {l : Loc} {v : View}
    (hsees : l.Sees t.invariant F v)
    (h : Prog.Sat (LocalStep g answers t F) (Duty g t F G) (.call (.sync k) rest) Q l) (d : Db) :
    (l.next d k).isSome := by
  have hstep : ∃ l', LocalStep g answers t F (.sync k) l (.ok ()) l' := by
    cases hnext : l.next v.db k with
    | none =>
      refine ⟨l, v, hsees, hsync k v _, ?_⟩
      simp only [LocalEffect, hnext]
      exact ⟨fun _ _ => hnested, trivial⟩
    | some l₁ =>
      refine ⟨l₁, v, hsees, hsync k v _, ?_⟩
      simp only [LocalEffect, hnext]
      exact Or.inl ⟨trivial, trivial⟩
  obtain ⟨l', ht⟩ := hstep
  exact (h _ l' ht).1.1 d

/-! ## 3. Who can make a step -/

namespace Coherent

variable {F : ι → Bool → Lineage → Prop} {s : Gateway ι} {l : ι → Loc}

/-- A call of the store can always be made: one that finds another task's transaction open reads
what is committed, or gives up. -/
theorem can_store (g : Setup) (answers : Answers) (s : Gateway ι) (i : ι) (c : Store) :
    ∃ r s', TaskStep g answers i (.store c) s r s' := by
  cases hs : s.tx with
  | none =>
    refine ⟨(c.exec g s.db).1, { s with db := (c.exec g s.db).2 }, ?_⟩
    simp only [TaskStep, hs]
    exact ⟨trivial, trivial⟩
  | some p =>
    obtain ⟨j, d⟩ := p
    by_cases hj : j = i
    · refine ⟨(c.exec g d).1, { s with tx := some (i, (c.exec g d).2) }, ?_⟩
      simp only [TaskStep, hs, if_pos hj]
      exact ⟨trivial, trivial⟩
    · cases hc : c.readOnly with
      | true =>
        refine ⟨(c.exec g s.db).1, s, ?_⟩
        simp only [TaskStep, hs, if_neg hj]
        exact ⟨trivial, Or.inl ⟨trivial, Store.exec_readOnly hc s.db⟩⟩
      | false =>
        refine ⟨.error databaseLocked, s, ?_⟩
        simp only [TaskStep, hs, if_neg hj]
        exact ⟨trivial, Or.inr ⟨hc, trivial⟩⟩

/-- **Only the lock makes a task wait**: for the shared side from outside, for the exclusive side
with the request up. -/
theorem can_step (htotal : ∀ e, ∃ r, answers e r) (h : Coherent t F s l) (i : ι) (c : Call)
    (hplace : ∀ k, c = .sync k → ∀ d, ((l i).next d k).isSome) :
    (∃ r s', TaskStep g answers i c s r s') ∨
      (c = .sync .enterShared ∧ (l i).side.role = .idle ∧ s.lock.admitsReader = false) ∨
      (c = .sync .enterExclusive ∧ (l i).side.role = .waiting ∧ s.lock.admitsWriter = false) := by
  have hlock : ∀ (k : Sync) (lock : AdmissionLock), s.lock.sync k = some lock →
      ∃ (r : Except Exc Unit) (s' : Gateway ι), ∃ l, s.lock.sync k = some l ∧ r = .ok () ∧
        s' = { s with lock := l } :=
    fun k lock hl => ⟨.ok (), _, lock, hl, rfl, rfl⟩
  cases c with
  | store c => exact Or.inl (can_store g answers s i c)
  | ext e =>
    obtain ⟨r, hr⟩ := htotal e
    exact Or.inl ⟨r, s, hr, rfl⟩
  | getAdapterKey => exact Or.inl ⟨_, s, rfl, rfl⟩
  | setAdapterKey key => exact Or.inl ⟨_, _, rfl, rfl⟩
  | sync k =>
    obtain ⟨l₁, hnext⟩ := Option.isSome_iff_exists.mp (hplace k rfl s.db)
    cases k with
    | begin =>
      cases hs : s.tx with
      | none => exact Or.inl ⟨_, _, Or.inl ⟨hs, rfl, rfl⟩⟩
      | some p => exact Or.inl ⟨_, s, Or.inr ⟨by rw [hs]; rfl, rfl, rfl⟩⟩
    | commit =>
      obtain ⟨d₀, d, htx⟩ : ∃ d₀ d, (l i).tx = some (d₀, d) := by
        revert hnext
        rcases l i with ⟨side, _ | ⟨d₀, d⟩, fresh⟩
        · cases side <;> simp [Loc.next]
        · exact fun _ => ⟨d₀, d, rfl⟩
      exact Or.inl ⟨_, _, d, (h.tx i d₀ d htx).1, rfl, rfl⟩
    | rollback =>
      obtain ⟨d₀, d, htx⟩ : ∃ d₀ d, (l i).tx = some (d₀, d) := by
        revert hnext
        rcases l i with ⟨side, _ | ⟨d₀, d⟩, fresh⟩
        · cases side <;> simp [Loc.next]
        · exact fun _ => ⟨d₀, d, rfl⟩
      exact Or.inl ⟨_, _, d, (h.tx i d₀ d htx).1, rfl, rfl⟩
    | leaveShared => exact Or.inl (hlock .leaveShared _ rfl)
    | requestExclusive => exact Or.inl (hlock .requestExclusive _ rfl)
    | leaveExclusive => exact Or.inl (hlock .leaveExclusive _ rfl)
    | enterShared =>
      cases hl : s.lock.admitsReader with
      | true => exact Or.inl (hlock .enterShared _ (by rw [AdmissionLock.sync, if_pos hl]))
      | false =>
        have hrole := (lock_next (k := .enterShared) trivial hnext).1
        exact Or.inr (Or.inl ⟨rfl, Role.of_enterShared hrole, rfl⟩)
    | enterExclusive =>
      cases hl : s.lock.admitsWriter with
      | true => exact Or.inl (hlock .enterExclusive _ (by rw [AdmissionLock.sync, if_pos hl]))
      | false =>
        have hrole := (lock_next (k := .enterExclusive) trivial hnext).1
        exact Or.inr (Or.inr ⟨rfl, Role.of_enterExclusive hrole, rfl⟩)

omit [DecidableEq ι] in
/-- **Nobody waits for ever.**  When every task that runs waits for the lock, and every other one is
outside, one of them is let in. -/
theorem admits_of_waiting (h : Coherent t F s l) {W : ι → Prop}
    (hidle : ∀ i, ¬ W i → (l i).side.role = .idle)
    (hwait : ∀ i, W i → ((l i).side.role = .idle ∧ s.lock.admitsReader = false) ∨
      ((l i).side.role = .waiting ∧ s.lock.admitsWriter = false)) : ∀ i, ¬ W i := by
  have hout : ∀ i, (l i).side.role = .idle ∨ (l i).side.role = .waiting := by
    intro i
    by_cases hi : W i
    · rcases hwait i hi with h' | h'
      · exact Or.inl h'.1
      · exact Or.inr h'.1
    · exact Or.inl (hidle i hi)
  have hreaders : s.lock.readers = 0 := by
    obtain ⟨S, hS, hcard⟩ := h.lock.readers
    have hempty : S = ∅ := by
      refine Finset.eq_empty_of_forall_notMem fun i hi => ?_
      have hrole := (hS i).mp hi
      rcases hout i with h' | h'
      · exact absurd (h'.symm.trans hrole) (by decide)
      · exact absurd (h'.symm.trans hrole) (by decide)
    rw [hcard, hempty]
    rfl
  have hwriter : s.lock.writer = false := by
    by_contra hw
    obtain ⟨i, hi⟩ := h.lock.held (by simpa using hw)
    rcases hout i with h' | h'
    · exact absurd (h'.symm.trans hi) (by decide)
    · exact absurd (h'.symm.trans hi) (by decide)
  have hadmits : s.lock.admitsWriter = true := AdmissionLock.admitsWriter_iff.mpr ⟨hreaders, hwriter⟩
  have hnowait : ∀ i, (l i).side.role = .idle := by
    intro i
    by_cases hi : W i
    · rcases hwait i hi with h' | h'
      · exact h'.1
      · exact absurd (h'.2.symm.trans hadmits) (by decide)
    · exact hidle i hi
  intro i hi
  rcases hwait i hi with ⟨-, hclosed⟩ | ⟨-, hclosed⟩
  · have hrequested : s.lock.writeRequested = false := by
      by_contra hr
      obtain ⟨j, hj⟩ := h.lock.requested (by simpa using hr)
      rcases hj with hj | hj
      · exact absurd ((hnowait j).symm.trans hj) (by decide)
      · exact absurd ((hnowait j).symm.trans hj) (by decide)
    have hopen := AdmissionLock.admitsReader_iff.mpr ⟨hwriter, hrequested⟩
    exact absurd (hclosed.symm.trans hopen) (by decide)
  · exact absurd (hclosed.symm.trans hadmits) (by decide)

end Coherent

/-! ## 4. The rule -/

section Rule

variable {F : ι → Bool → Lineage → Prop} {G : ι → Lineage → Lineage → Prop}
  {Q : ι → Except Exc Response → Loc → Prop}

/-- What the tasks know is true, roles included. -/
def Followed (t : Terms) (F : ι → Bool → Lineage → Prop) (s : WithRoles ι) (l : ι → Loc) : Prop :=
  Coherent t F s.gateway l ∧ ∀ i, s.role i = (l i).side.role

theorem Followed.step {s s' : WithRoles ι} {l : ι → Loc} (h : Followed t F s l)
    (hstable : ∀ i j, j ≠ i → ∀ b L L', G i L L' → F j b L → F j b L') {i : ι} {c : Call}
    {r : Except Exc c.Res} (ht : RoleStep g answers t.condition i c s r s') :
    ∃ l', LocalStep g answers t (F i) c (l i) r l' ∧
      (Duty g t (F i) (G i) c (l i) r l' → Followed t F s' (Function.update l i l')) := by
  obtain ⟨hcoherent, hroles⟩ := h
  obtain ⟨htask, hrole⟩ := ht
  obtain ⟨l', hlocal, hkeep⟩ := hcoherent.step hstable htask
  refine ⟨l', hlocal, fun hduty => ⟨hkeep hduty, fun j => ?_⟩⟩
  rw [hrole]
  by_cases hj : j = i
  · subst hj
    rw [Function.update_self, Function.update_self, hlocal.role hduty, hroles j]
  · rw [Function.update_of_ne hj, Function.update_of_ne hj]
    exact hroles j

/-- **A configuration of tasks that do their duty is live**, if who has returned is outside the
lock. -/
theorem Followed.live (htotal : ∀ e, ∃ r, answers e r) (hnested : t.nested)
    (hsync : ∀ k v r, t.condition (.sync k) v r) {p : Tasks ι} {l : ι → Loc}
    (h : Followed t F p.state l)
    (hp : p.Verified (fun i => LocalStep g answers t (F i)) (fun i => Duty g t (F i) (G i)) Q l)
    (hdone : ∀ i a l, Q i a l → l.side.role = .idle) : p.Live g answers := by
  obtain ⟨hcoherent, hroles⟩ := h
  have hplace : ∀ i c rest, p.prog i = .call c rest → ∀ k, c = .sync k →
      ∀ d, ((l i).next d k).isSome := by
    rintro i c rest hi k rfl d
    have hsat := hp i
    rw [hi] at hsat
    exact next_isSome_of_sat hnested hsync (hcoherent.sees i) hsat d
  refine ⟨?_, ?_⟩
  · rintro ⟨i₀, hi₀⟩
    by_contra hstuck
    -- nobody can make a step: whoever runs waits for the lock
    have hwait : ∀ i, p.Running i → ((l i).side.role = .idle ∧ p.state.gateway.lock.admitsReader = false) ∨
        ((l i).side.role = .waiting ∧ p.state.gateway.lock.admitsWriter = false) := by
      intro i hi
      cases hprog : p.prog i with
      | ret a => exact absurd hprog (hi a)
      | call c rest =>
        rcases hcoherent.can_step (g := g) htotal i c (hplace i c rest hprog) with
          ⟨r, s', ht⟩ | ⟨-, hclosed⟩ | ⟨-, hclosed⟩
        · exact absurd ⟨_, Pool.Step.call i (s := ⟨s', _⟩) hprog ⟨⟨ht, trivial⟩, rfl⟩⟩ hstuck
        · exact Or.inl hclosed
        · exact Or.inr hclosed
    refine hcoherent.admits_of_waiting (W := p.Running) (fun i hi => ?_) hwait i₀ hi₀
    have hret : ∃ a, p.prog i = .ret a := by
      by_contra hno
      exact hi fun a ha => hno ⟨a, ha⟩
    obtain ⟨a, ha⟩ := hret
    have hsat := hp i
    rw [ha] at hsat
    exact hdone i a (l i) hsat
  · rintro i ⟨rest, hi⟩ hwriter
    obtain ⟨l', hnext⟩ := Option.isSome_iff_exists.mp
      (hplace i _ rest hi .enterShared rfl p.state.gateway.db)
    have hrole := (Coherent.lock_next (k := .enterShared) trivial hnext).1
    rw [← hroles i, hwriter] at hrole
    exact absurd (Role.of_enterShared hrole) (by decide)

/-- **The rule.**  Handlers that do their duty, each alone in its own view, and end outside the
lock, are never stuck. -/
theorem live_of_run {req : ι → Request} {s : Gateway ι} {p : Tasks ι}
    (htotal : ∀ e, ∃ r, answers e r) (hnested : t.nested)
    (hsync : ∀ k v r, t.condition (.sync k) v r)
    (hstable : ∀ i j, j ≠ i → ∀ b L L', G i L L' → F j b L → F j b L')
    (hrun : Relation.ReflTransGen (Pool.Step (RoleStep g answers t.condition)) (Tasks.start g req s) p)
    (hs : Coherent t F s fun _ => {})
    (hsat : ∀ i, Act.Sat (LocalStep g answers t (F i)) (Duty g t (F i) (G i)) ((req i).handle g)
      (Q i) {})
    (hdone : ∀ i a l, Q i a l → l.side.role = .idle) : p.Live g answers := by
  obtain ⟨l, hfollowed, hverified⟩ := Pool.invariant (I := Followed t F)
    (P := fun i => Duty g t (F i) (G i)) (fun _ _ _ _ _ _ hI ht => hI.step hstable ht) hrun
    ⟨hs, fun _ => rfl⟩ hsat
  exact hfollowed.live htotal hnested hsync hverified hdone

end Rule

end GovernorGateway
