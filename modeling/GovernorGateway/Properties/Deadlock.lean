/-
# A designation that waits for itself

`/designate` runs continuity and reconstruction INSIDE its exclusive section, and both commit what
they make under the shared side of the same lock.  So a designation with a critical node to serve,
or with a candidate that passes the reintegration gate, asks for the shared side while it holds the
exclusive one: it waits for itself, and every other request behind it
(`designation_waits_for_itself`).  The comment on the lock says that there is no nesting.

A designation that finds nobody to serve and nothing to rebuild, or is sent no candidate that can
pass the gate, asks for nothing (`RecoversOutside`).  `/detector` serves after it has left the lock,
and the two endpoints for agents commit under the shared side alone.  In a run in which every
designation is of that kind no configuration is stuck, whatever is stored, whatever the policy
engine and the clock answer, and in whatever order the handlers run (`no_deadlock_of_run`).
-/
import GovernorGateway.Concurrency.Progress
import GovernorGateway.Concurrency.Scheduled
import GovernorGateway.Properties.Coverage
import GovernorGateway.Semantics.Idle

namespace GovernorGateway

open Effects

/-! ## 1. The condition -/

/-- A designation, whose calls are made inside a transaction:

* leaves nobody to serve when it has contained its root;
* without an adapter, finds no stored compaction that is waiting for its reconstruction;
* is sent no candidate that passes the gate's checks, under any adapter key it can read (`K`). -/
def RecoversOutside (g : Setup) (K : Option String → Prop) : Condition
  | .store (.applyQuarantineTransaction event ids), v, _ => v.inTx = true →
      ¬ (v.db.applyQuarantineTransaction g.settings.maxTraversalDepth event ids).2.Serves g ids
        event.detectedAtUtc
  | .store .getRepairCandidates, v, _ => v.inTx = true → g.settings.hasAdapter = false → ¬ v.db.Rebuilds
  | .ext (.reconstruct req), v, r => v.inTx = true → ∀ c, r = .ok (some c) → ∀ key, K key →
      ¬ Passes g key req.requestedFrontier c
  | .getAdapterKey, v, r => v.inTx = true → ∀ key, r = .ok key → K key
  | _, _, _ => True

def lockTerms (g : Setup) (K : Option String → Prop) : Terms where
  invariant := fun _ => True
  condition := RecoversOutside g K
  nested := True

/-- The handlers that run together. -/
def Request.TakesLock : Request → Prop
  | .submitCandidate _ _ | .contextCompacted _ | .designate _ _ | .detector _ _ _ => True
  | _ => False

variable {g : Setup} {answers : Answers} {K : Option String → Prop}

/-! ## 2. Parts of a handler -/

/-- Nothing is asked of the database here, and nothing promised. -/
abbrev LockStepOf (g : Setup) (answers : Answers) (K : Option String → Prop) :
    Trans Call Call.Res Exc Loc :=
  LocalStep g answers (lockTerms g K) fun _ _ => True

abbrev LockDuty (g : Setup) (K : Option String → Prop) : Trans Call Call.Res Exc Loc :=
  Duty g (lockTerms g K) (fun _ _ => True) fun _ _ => True

theorem gentle_lock : Gentle g (lockTerms g K) fun _ _ => True where
  store := fun _ _ _ _ => trivial
  refl := fun _ => trivial
  keys := fun _ _ _ _ => trivial

/-- Outside the lock, and outside transactions. -/
def Loc.Out (l : Loc) : Prop := ∃ b, l = ⟨.outside, none, b⟩

theorem Loc.Out.role {l : Loc} (h : l.Out) : l.side.role = .idle := by
  obtain ⟨b, rfl⟩ := h
  rfl

theorem frame_out : Frame (LockStepOf g answers K) (LockDuty g K) Loc.Out := by
  rintro c l r l' hc ⟨b, rfl⟩ ht
  obtain ⟨hduty, rfl⟩ := frame_local gentle_lock rfl c _ r l' hc rfl ht
  exact ⟨hduty, b, rfl⟩

/-- A commit under the shared side, from outside. -/
theorem keeps_commitShared_out (site : CommitSite) (p : Payload) :
    Keeps (LockStepOf g answers K) (LockDuty g K) Loc.Out (commitShared site p) fun _ => True := by
  rintro l ⟨b, rfl⟩
  rw [commitShared]
  refine local_withShared ?_
  rw [Act.sat_bind]
  rintro r l ⟨v, -, -, heffect⟩
  refine ⟨fun _ _ _ _ => ⟨trivial, trivial, trivial⟩, ?_⟩
  rcases heffect with ⟨rfl, rfl⟩ | ⟨-, ⟨e, rfl⟩, rfl⟩
  · exact ⟨_, rfl, ⟨_, rfl⟩, trivial⟩
  · exact ⟨b, rfl, b, rfl⟩

/-- Inside a transaction every call but one of the lock is in order. -/
theorem txDuty_of_kind {ks : List CallKind}
    (hks : ks.all (fun k => k ≠ .shared ∧ k ≠ .exclusive ∧ k ≠ .tx) = true) {c : Call}
    (hc : c.kind ∈ ks) (d : Db) (r : Except Exc c.Res) (d' : Db) : TxDuty (lockTerms g K) c d r d' := by
  have hk : c.kind ≠ .shared ∧ c.kind ≠ .exclusive ∧ c.kind ≠ .tx := by
    simpa using List.all_eq_true.mp hks c.kind hc
  cases c with
  | sync k => cases k <;> simp [Call.kind, Sync.kind] at hk
  | _ => trivial

/-- Under the exclusive side without a transaction, too. -/
theorem sat_exclusive_of_kind {α : Type} (ks : List CallKind)
    (hks : ks.all (fun k => k ≠ .shared ∧ k ≠ .exclusive ∧ k ≠ .tx) = true) {x : Handler α}
    (hx : x.Uses fun c => c.kind ∈ ks) (L : Lineage) (b : Bool) :
    Act.Sat (LockStepOf g answers K) (LockDuty g K) x
      (fun _ l => ∃ L' b', l = ⟨.exclusive L', none, b'⟩) ⟨.exclusive L, none, b⟩ := by
  refine Prog.Uses.sat (I := fun l => ∃ L' b', l = (⟨.exclusive L', none, b'⟩ : Loc)) hx ?_
    ⟨L, b, rfl⟩
  rintro c hc l r l' ⟨v, hsees, hok, heffect⟩ ⟨L', b', rfl⟩
  have hk : c.kind ≠ .shared ∧ c.kind ≠ .exclusive ∧ c.kind ≠ .tx := by
    simpa using List.all_eq_true.mp hks c.kind hc
  cases c with
  | store c =>
    refine ⟨fun _ _ _ _ => ⟨trivial, trivial, trivial⟩, ?_⟩
    rcases heffect with ⟨-, rfl⟩ | ⟨-, -, rfl⟩
    · exact ⟨_, _, rfl⟩
    · exact ⟨L', b', rfl⟩
  | ext e => exact ⟨trivial, L', b', heffect.2⟩
  | getAdapterKey => exact ⟨trivial, L', b', heffect.2⟩
  | setAdapterKey key => exact ⟨trivial, L', b', heffect.2⟩
  | sync k => cases k <;> simp [Call.kind, Sync.kind] at hk

/-! ## 3. Recovery, outside the lock and inside a designation -/

theorem keeps_continuity_out (hlaw : answers.Lawful) (ids : List NodeId) (event : QuarantineEvent) :
    Keeps (LockStepOf g answers K) (LockDuty g K) Loc.Out (attemptSafeContinuity g ids event)
      fun _ => True := by
  refine keeps_attemptSafeContinuity (U := fun _ => True) ids event frame_out fun snap deps =>
    ⟨frame_out, fun _ _ _ _ => trivial, ?_, fun site p _ => keeps_commitShared_out site p⟩
  rintro xs l ys l' ⟨v, -, -, hanswer, -⟩ x hx
  obtain ⟨zs, hzs, hperm⟩ := hlaw _ _ hanswer
  obtain rfl := Except.ok.inj hzs
  exact hperm.subset hx

theorem keeps_reconstruction_out (root : NodeId) :
    Keeps (LockStepOf g answers K) (LockDuty g K) Loc.Out (attemptReconstruction g root) fun _ => True :=
  keeps_attemptReconstruction (U := fun _ => True) (V := fun _ => True) (A := fun _ _ => True)
    (Φ := fun _ => True)
    ⟨frame_out, fun _ _ _ _ => trivial, fun _ _ _ _ _ => trivial, fun _ _ _ _ _ _ => trivial,
      fun _ p _ _ => keeps_commitShared_out _ p⟩ root fun _ _ _ _ _ _ _ _ => trivial

/-- The copy of the database of a designation. -/
abbrev DesignationStep (g : Setup) (answers : Answers) (K : Option String → Prop) :
    Trans Call Call.Res Exc Db :=
  TxStep g answers (lockTerms g K) .writer

theorem frame_designation : Frame (DesignationStep g answers K) (TxDuty (lockTerms g K)) fun _ => True :=
  fun c d r d' hc _ _ => ⟨txDuty_quiet (fun _ => trivial) c d r d' hc, trivial⟩

/-- Reads, questions and assignments to what was read are no calls of the lock. -/
theorem reading_designation :
    Reading (DesignationStep g answers K) (TxDuty (lockTerms g K)) fun _ => True := by
  intro c d r d' hc _ _
  refine ⟨?_, trivial⟩
  cases c with
  | sync k => cases k <;> simp [Call.kind, Sync.kind] at hc
  | _ => trivial

/-- **Nothing passes the gate of a designation**, and the lock is not asked for. -/
theorem keeps_reconstruction_designation (hlaw : answers.Lawful) (root : NodeId) :
    Keeps (DesignationStep g answers K) (TxDuty (lockTerms g K)) (fun _ => True)
      (attemptReconstruction g root) fun _ => True := by
  cases hadapter : g.settings.hasAdapter with
  | false =>
    intro d _
    by_cases hreb : d.Rebuilds
    · -- the condition on the first call does not hold
      rw [attemptReconstruction, Act.sat_bind]
      rintro r d' ⟨hok, -⟩
      exact absurd hreb (hok rfl hadapter)
    · refine (idle_reconstruction (solo_txStep hlaw .writer) reading_designation root trivial hreb).mono ?_
      rintro (e | u) d' _
      · trivial
      · exact ⟨trivial, trivial⟩
  | true =>
    refine keeps_attemptReconstruction_gate (U := fun _ => True) (V := K)
      (A := fun frontier c => ∀ key, K key → ¬ Passes g key frontier c) (Φ := fun _ => True)
      ⟨frame_designation, fun _ _ _ _ => trivial, fun d key d' _ ht => ht.1 rfl key rfl,
        fun req c d d' _ ht => ht.1 rfl c rfl, fun x rc c _ hcand => ?_⟩ root
      fun _ _ _ _ _ _ _ _ => trivial
    rcases hcand.source with ⟨-, hrefused⟩ | ⟨hnone, -⟩
    · exact absurd hcand.passes (hrefused _ hcand.identity.1)
    · exact absurd (hadapter.symm.trans hnone) (by simp)

/-- **The section of a designation asks for nothing of the lock.** -/
theorem sat_designateLocked_lock (hlaw : answers.Lawful) (e : DesignationEvent) (identity : String)
    (d : Db) :
    Act.Sat (DesignationStep g answers K) (TxDuty (lockTerms g K)) (designateLocked g e identity)
      (fun _ _ => True) d := by
  have hsolo : Solo g (DesignationStep g answers K) id := solo_txStep hlaw .writer
  have hquiet : ∀ c d r d', c.Quiet → TxDuty (lockTerms g K) c d r d' := txDuty_quiet fun _ => trivial
  unfold designateLocked
  refine hsolo.read_bind hquiet (by simp [Store.Loud]) rfl fun d₁ _ => ?_
  refine hsolo.read_bind hquiet (by simp [Store.Loud]) rfl fun d₂ _ => ?_
  split
  · trivial
  · split
    · trivial
    · rw [Act.sat_bind]
      refine (sat_contain_apply (A := fun c => c.kind ∈ containKinds) (I := fun _ => True)
        (fun _ hc => hc) (fun c hc d r d' _ _ => ⟨txDuty_of_kind (by decide) hc d r d', trivial⟩)
        e.poisonedNodeId identity e.reason none trivial).mono ?_
      rintro (exc | ⟨ids, event⟩) d₃ hout
      · trivial
      · obtain ⟨-, sent, d', -, -, hok, hevent, hd₃⟩ := hout
        have hidle : ¬ (id d₃ : Db).Serves g ids event.detectedAtUtc := by
          have hanswer : event =
              (d'.applyQuarantineTransaction g.settings.maxTraversalDepth sent ids).1 :=
            Except.ok.inj hevent
          have hd : d₃ = (d'.applyQuarantineTransaction g.settings.maxTraversalDepth sent ids).2 := hd₃
          rw [id, hd, hanswer]
          exact hok rfl
        change Act.Sat _ _ (attemptSafeContinuity g ids event >>= _) _ d₃
        rw [Act.sat_bind]
        refine (idle_continuity hsolo reading_designation trivial hidle).mono ?_
        rintro (exc | continuity) d₄ _
        · trivial
        · change Act.Sat _ _ (attemptReconstruction g e.poisonedNodeId >>= _) _ d₄
          rw [Act.sat_bind]
          refine (keeps_reconstruction_designation hlaw e.poisonedNodeId d₄ trivial).mono ?_
          rintro (exc | u) d₅ _
          · trivial
          · trivial

/-! ## 4. The handlers, alone -/

/-- **Each handler makes its calls of the lock in place, and ends outside it.** -/
theorem sat_handle_lock (hlaw : answers.Lawful) (req : Request) (hreq : req.TakesLock) :
    Act.Sat (LockStepOf g answers K) (LockDuty g K) (req.handle g) (fun _ l => l.Out) {} := by
  have hstart : (({} : Loc)).Out := ⟨true, rfl⟩
  cases req with
  | submitCandidate bytes body =>
    change Act.Sat _ _ (submitCandidate g bytes body) _ _
    refine local_quiet_bind gentle_lock rfl (uses_submitChecks g (Call.of_quiet rfl) bytes body)
      (fun out => ?_) fun _ => hstart
    refine local_withShared (local_withTransaction (Or.inl rfl) (fun d _ _ _ => ?_)
      fun e => ⟨true, rfl, true, rfl⟩)
    have huses : (submitLocked g out.1 out.2.1 out.2.2).Uses fun c => c.kind ∈ submitKinds :=
      uses_submitLocked g (fun _ hc => hc) _ _ _
    refine (Prog.Uses.sat (I := fun _ => True) huses
      (fun c hc d r d' _ _ => ⟨txDuty_of_kind (by decide) hc d r d', trivial⟩) trivial).mono ?_
    rintro (e | a) d' _
    · trivial
    · refine ⟨trivial, trivial, trivial, ?_⟩
      rintro (_ | _ | _ | L) hrole
      · exact absurd hrole (by decide)
      · exact ⟨false, rfl, false, rfl⟩
      · exact absurd hrole (by decide)
      · exact absurd hrole (by simp [Side.role])
  | contextCompacted e =>
    change Act.Sat _ _ (declareContextCompacted g e) _ _
    refine local_quiet_bind gentle_lock rfl (uses_compactionChecks g (Call.of_quiet rfl) e)
      (fun p => ?_) fun _ => hstart
    rw [Act.sat_bind]
    refine (keeps_commitShared_out .compaction p {} hstart).mono ?_
    rintro (exc | u) l hl
    · exact hl
    · exact hl.1
  | designate header e =>
    change Act.Sat _ _ (designatePoison g header e) _ _
    refine local_quiet_bind gentle_lock rfl (uses_verifyRole g (Call.of_quiet rfl) _ _)
      (fun claims => ?_) fun _ => hstart
    refine local_quiet_bind gentle_lock rfl (uses_limitDesignations g (Call.of_quiet rfl) _ _)
      (fun _ => ?_) fun _ => hstart
    refine local_withExclusive fun d _ _ _ => ?_
    refine local_withTransaction (Or.inr ⟨_, rfl⟩) (fun d' _ _ _ => ?_)
      fun e => ⟨_, true, rfl, true, rfl⟩
    refine (sat_designateLocked_lock hlaw e _ d').mono ?_
    rintro (exc | a) d'' _
    · trivial
    · refine ⟨trivial, trivial, trivial, ?_⟩
      rintro (_ | _ | _ | L) hrole
      · exact absurd hrole (by simp [Side.role])
      · exact absurd hrole (by simp [Side.role])
      · exact absurd hrole (by simp [Side.role])
      · exact ⟨L, false, rfl, false, rfl⟩
  | detector header source raw =>
    change Act.Sat _ _ (ingestDetectorEvent g header source raw) _ _
    refine local_quiet_bind gentle_lock rfl (uses_verifyRole g (Call.of_quiet rfl) _ _)
      (fun _ => ?_) fun _ => hstart
    cases detectorRegistry source with
    | none => exact hstart
    | some src =>
      refine local_quiet_bind gentle_lock rfl (uses_recordRawEvent (Call.of_quiet rfl) _ _)
        (fun _ => ?_) fun _ => hstart
      refine local_quiet_bind gentle_lock rfl (Act.uses_raiseIf _ _) (fun _ => ?_) fun _ => hstart
      cases toDesignation g.env src raw with
      | error reason => exact hstart
      | ok e =>
        refine local_quiet_bind gentle_lock rfl (uses_verifyRole g (Call.of_quiet rfl) _ _)
          (fun claims => ?_) fun _ => hstart
        refine local_quiet_bind gentle_lock rfl (uses_limitDesignations g (Call.of_quiet rfl) _ _)
          (fun _ => ?_) fun _ => hstart
        rw [Act.sat_bind]
        refine local_withExclusive fun d _ _ _ => ?_
        refine (sat_exclusive_of_kind containKinds (by decide)
          (uses_detectorLocked g (fun _ hc => hc) e _ src) d.toLineage true).mono ?_
        rintro (exc | out) l ⟨L, b, rfl⟩
        · exact ⟨L, b, rfl, b, rfl⟩
        · refine ⟨L, b, rfl, ?_⟩
          cases out with
          | none => exact ⟨b, rfl⟩
          | some out =>
            change Act.Sat _ _ (attemptSafeContinuity g out.1 out.2 >>= _) _ _
            rw [Act.sat_bind]
            refine (keeps_continuity_out hlaw out.1 out.2 _ ⟨b, rfl⟩).mono ?_
            rintro (exc | continuity) l hl
            · exact hl
            · change Act.Sat _ _ (attemptReconstruction g e.poisonedNodeId >>= _) _ l
              rw [Act.sat_bind]
              refine (keeps_reconstruction_out e.poisonedNodeId l hl.1).mono ?_
              rintro (exc | u) l' hl'
              · exact hl'
              · exact hl'.1
  | _ => exact absurd hreq id

/-! ## 5. Together -/

/-- **No deadlock where recovery is outside the lock.**  Any number of submissions, compactions,
designations and detector events on any stored state: in a run whose designations have nothing to
serve, and nothing to rebuild or no candidate that can pass, every state that is reached is live. -/
theorem no_deadlock_of_run {ι : Type} [DecidableEq ι] (hlaw : answers.Lawful)
    (htotal : ∀ e, ∃ r, answers e r) {req : ι → Request} (hreq : ∀ i, (req i).TakesLock)
    {s : Gateway ι} (hlock : s.lock = {}) (htx : s.tx = none) {p : Tasks ι}
    (hrun : Relation.ReflTransGen (Pool.Step (RoleStep g answers (RecoversOutside g K)))
      (Tasks.start g req s) p) : p.Live g answers :=
  live_of_run (t := lockTerms g K) (F := fun _ _ _ => True) (G := fun _ _ _ => True)
    (Q := fun _ _ l => l.Out) htotal trivial (fun _ _ _ => trivial) (fun _ _ _ _ _ _ _ _ => trivial)
    hrun (Coherent.initial s trivial trivial hlock htx fun _ => trivial)
    (fun i => sat_handle_lock hlaw (req i) (hreq i)) fun _ _ _ h => h.role

/-! ## 6. Two configurations -/

/-- A call of a task of the open deployment, with its role. -/
def openTaskStep (i : Fin 2) (c : Call) (s : WithRoles (Fin 2)) :
    Option (Except Exc c.Res × WithRoles (Fin 2)) :=
  ((openScript (toString i.val)).taskStep openSetup i c s.gateway).map fun out =>
    (out.1, ⟨out.2, Function.update s.role i (Role.after c (s.role i))⟩)

theorem openTaskStep_spec {i : Fin 2} {c : Call} {s s' : WithRoles (Fin 2)} {r : Except Exc c.Res}
    (h : openTaskStep i c s = some (r, s')) :
    TaskStep openSetup Answers.lawful i c s.gateway r s'.gateway ∧
      s'.role = Function.update s.role i (Role.after c (s.role i)) := by
  obtain ⟨⟨r', s₁⟩, hstep, heq⟩ := Option.map_eq_some_iff.mp h
  obtain ⟨rfl, rfl⟩ := Prod.mk.inj heq
  exact ⟨Script.taskStep_spec _ hstep, rfl⟩

/-- The next call of the task, if it is one of the lock or of a transaction. -/
def Tasks.nextSync {ι : Type} (p : Tasks ι) (i : ι) : Option Sync :=
  match p.prog i with
  | .call (.sync k) _ => some k
  | _ => none

theorem Tasks.asks_of_nextSync {ι : Type} {p : Tasks ι} {i : ι} {k : Sync}
    (h : p.nextSync i = some k) : p.Asks i k := by
  unfold nextSync at h
  split at h
  · rename_i k' rest hprog
    obtain rfl := Option.some.inj h
    exact ⟨rest, hprog⟩
  · exact absurd h (by simp)

/-- While a writer is in, tasks that all ask for the shared side are stuck. -/
theorem Tasks.stuck_of_asks {ι : Type} [DecidableEq ι] {p : Tasks ι}
    (hasks : ∀ i, p.Asks i .enterShared) (hwriter : p.state.gateway.lock.writer = true) :
    ¬ ∃ p', Pool.Step (RoleStep g answers fun _ _ _ => True) p p' := by
  rintro ⟨p', hnext⟩
  cases hnext with
  | @call i c rest r s hprog ht =>
    obtain ⟨rest', hprog'⟩ := hasks i
    rw [hprog'] at hprog
    obtain ⟨rfl, -⟩ := Prog.call.inj hprog
    obtain ⟨lock, hlock, -⟩ := ht.1.1
    rw [Coherent.sync_enterShared_of_writer hwriter] at hlock
    exact absurd hlock (by simp)

/-- A designation, and a submission that has nothing to do with it. -/
def lockRequests (x : NodeId) (i : Fin 2) : Request :=
  match i with
  | 0 => .designate (some "Bearer designator") ⟨x, "poisoned"⟩
  | 1 => openSubmission "note-1" ["clean-parent-1"]

def lockStart (reqs : List Request) : Gateway (Fin 2) := { db := (openWorld reqs none).db }

/-- There is no adapter. -/
def recoversCheck : Call → View → Bool
  | .store (.applyQuarantineTransaction event ids), v => !v.inTx ||
    !decide ((v.db.applyQuarantineTransaction openSetup.settings.maxTraversalDepth event ids).2.Serves
      openSetup ids event.detectedAtUtc)
  | .store .getRepairCandidates, v => !v.inTx || !decide v.db.Rebuilds
  | .ext (.reconstruct _), v => !v.inTx
  | _, _ => true

theorem recoversOutside_of_check {c : Call} {v : View} {r : Except Exc c.Res}
    (h : recoversCheck c v = true) : RecoversOutside openSetup (fun _ => True) c v r := by
  cases c with
  | store c =>
    cases c with
    | applyQuarantineTransaction event ids =>
      intro hv
      simpa [recoversCheck, hv] using h
    | getRepairCandidates =>
      intro hv _
      simpa [recoversCheck, hv] using h
    | _ => trivial
  | ext e =>
    cases e with
    | reconstruct req =>
      intro hv
      exact absurd h (by simp [recoversCheck, hv])
    | _ => trivial
  | getAdapterKey => exact fun _ _ _ => trivial
  | _ => trivial

/-- The root is designated; there is nobody to serve.  While the designation holds the exclusive
side, the submission waits. -/
theorem no_deadlock_while_waiting : ∃ p : Tasks (Fin 2),
    Relation.ReflTransGen
      (Pool.Step (RoleStep openSetup Answers.lawful (RecoversOutside openSetup fun _ => True)))
      (Tasks.start openSetup (lockRequests "clean-parent-1") (lockStart [])) p ∧
    p.state.role 0 = .writer ∧ p.Asks 1 .enterShared ∧ p.Live openSetup Answers.lawful := by
  let step : (i : Fin 2) → (c : Call) → WithRoles (Fin 2) →
      Option (Except Exc c.Res × WithRoles (Fin 2)) :=
    fun i c s => if recoversCheck c (s.gateway.view i) then openTaskStep i c s else none
  have hstep : ∀ i c s r s', step i c s = some (r, s') →
      RoleStep openSetup Answers.lawful (RecoversOutside openSetup fun _ => True) i c s r s' := by
    intro i c s r s' h
    change (if recoversCheck c (s.gateway.view i) then openTaskStep i c s else none) = _ at h
    split at h
    · rename_i hcheck
      obtain ⟨htask, hrole⟩ := openTaskStep_spec h
      exact ⟨⟨htask, recoversOutside_of_check hcheck⟩, hrole⟩
    · exact absurd h (by simp)
  let start := Tasks.start openSetup (lockRequests "clean-parent-1") (lockStart [])
  -- the designation stops before its transaction
  let turns : List (Fin 2 × (Call → Bool)) := [(0, fun c => c.kind = .tx), (1, fun _ => false)]
  have hrun := Pool.schedule_run hstep turns start
  have hend : (Pool.schedule step turns start).state.role 0 = .writer ∧
      Tasks.nextSync (Pool.schedule step turns start) 1 = some .enterShared := by decide +kernel
  refine ⟨_, hrun, hend.1, Tasks.asks_of_nextSync hend.2, ?_⟩
  refine no_deadlock_of_run (fun _ _ h => h) (fun e => ⟨_, (openScript "").lawful e _ rfl⟩)
    ?_ rfl rfl hrun
  exact Fin.forall_fin_two.mpr ⟨trivial, trivial⟩

/-- **A designation waits for itself.**  A critical node with a checkpoint is designated: its replay
asks for the shared side under the exclusive one.  No task can make a step. -/
theorem designation_waits_for_itself : ∃ p : Tasks (Fin 2),
    Relation.ReflTransGen (Pool.Step (RoleStep openSetup Answers.lawful fun _ _ _ => True))
      (Tasks.start openSetup (lockRequests "critical-1")
        (lockStart [openCritical "critical-1" ["clean-parent-1"], openBackup "critical-1"])) p ∧
    p.Asks 0 .enterShared ∧ p.state.role 0 = .writer ∧ p.Asks 1 .enterShared ∧
    ¬ ∃ p', Pool.Step (RoleStep openSetup Answers.lawful fun _ _ _ => True) p p' := by
  have hstep : ∀ i c s r s', openTaskStep i c s = some (r, s') →
      RoleStep openSetup Answers.lawful (fun _ _ _ => True) i c s r s' := by
    intro i c s r s' h
    obtain ⟨htask, hrole⟩ := openTaskStep_spec h
    exact ⟨⟨htask, trivial⟩, hrole⟩
  let start := Tasks.start openSetup (lockRequests "critical-1")
    (lockStart [openCritical "critical-1" ["clean-parent-1"], openBackup "critical-1"])
  let turns : List (Fin 2 × (Call → Bool)) := [(0, fun _ => false), (1, fun _ => false)]
  have hrun := Pool.schedule_run hstep turns start
  have hend : let p := Pool.schedule openTaskStep turns start
      Tasks.nextSync p 0 = some .enterShared ∧ p.state.role 0 = .writer ∧
        Tasks.nextSync p 1 = some .enterShared ∧ p.state.gateway.lock.writer = true := by
    decide +kernel
  obtain ⟨h₀, hrole, h₁, hwriter⟩ := hend
  have hasks₀ := Tasks.asks_of_nextSync h₀
  have hasks₁ := Tasks.asks_of_nextSync h₁
  refine ⟨_, hrun, hasks₀, hrole, hasks₁, Tasks.stuck_of_asks (fun i => ?_) hwriter⟩
  match i with
  | 0 => exact hasks₀
  | 1 => exact hasks₁

end GovernorGateway
