/-
# Schedules that can be evaluated

To show that an interleaving CAN happen, every task is given the script of its outside world, and
the tasks take turns (`Effects.Pool.schedule`).  `Script.taskStep` is what a call then does; it is
`none` where the task has to wait.
-/
import GovernorGateway.Concurrency.Tasks
import GovernorGateway.Semantics.Scripted

namespace GovernorGateway

open Effects

variable {ι : Type} [DecidableEq ι]

/-- A call of task `i` under the script.  A task that finds another one's transaction open goes on
only with a call that asks for no write lock. -/
def Script.taskStep (o : Script) (g : Setup) (i : ι) :
    (c : Call) → Gateway ι → Option (Except Exc c.Res × Gateway ι)
  | .store c, s =>
    match s.tx with
    | none => some ((c.exec g s.db).1, { s with db := (c.exec g s.db).2 })
    | some (j, d) =>
      if j = i then some ((c.exec g d).1, { s with tx := some (i, (c.exec g d).2) })
      else none
  | .ext e, s => some (.ok (o.answer e), s)
  | .getAdapterKey, s => some (.ok s.adapterKey, s)
  | .setAdapterKey key, s => some (.ok (), { s with adapterKey := some key })
  | .sync .begin, s =>
    match s.tx with
    | none => some (.ok (), { s with tx := some (i, s.db) })
    | some _ => none
  | .sync .commit, s =>
    match s.tx with
    | some (j, d) => if j = i then some (.ok (), { s with db := d, tx := none }) else none
    | none => none
  | .sync .rollback, s =>
    match s.tx with
    | some (j, _) => if j = i then some (.ok (), { s with tx := none }) else none
    | none => none
  | .sync k, s => (s.lock.sync k).map fun l => (.ok (), { s with lock := l })

theorem Script.taskStep_spec (o : Script) {g : Setup} {i : ι} {c : Call} {s s' : Gateway ι}
    {r : Except Exc c.Res} (h : o.taskStep g i c s = some (r, s')) :
    TaskStep g Answers.lawful i c s r s' := by
  have hlock : ∀ (k : Sync) (r : Except Exc Unit), ((s.lock.sync k).map fun l =>
      ((.ok () : Except Exc Unit), { s with lock := l })) = some (r, s') →
      ∃ l, s.lock.sync k = some l ∧ r = .ok () ∧ s' = { s with lock := l } := by
    intro k r h
    obtain ⟨l, hl, heq⟩ := Option.map_eq_some_iff.mp h
    obtain ⟨rfl, rfl⟩ := Prod.mk.inj heq
    exact ⟨l, hl, rfl, rfl⟩
  cases c with
  | store c =>
    rw [taskStep] at h
    split at h
    · rename_i hs
      obtain ⟨rfl, rfl⟩ := Prod.mk.inj (Option.some.inj h)
      simp only [TaskStep, hs]
      exact ⟨trivial, trivial⟩
    · rename_i j d hs
      split at h
      · rename_i hj
        obtain ⟨rfl, rfl⟩ := Prod.mk.inj (Option.some.inj h)
        simp only [TaskStep, hs, if_pos hj]
        exact ⟨trivial, trivial⟩
      · exact absurd h (by simp)
  | ext e =>
    obtain ⟨rfl, rfl⟩ := Prod.mk.inj (Option.some.inj h)
    exact ⟨o.lawful e _ rfl, rfl⟩
  | getAdapterKey =>
    obtain ⟨rfl, rfl⟩ := Prod.mk.inj (Option.some.inj h)
    exact ⟨rfl, rfl⟩
  | setAdapterKey key =>
    obtain ⟨rfl, rfl⟩ := Prod.mk.inj (Option.some.inj h)
    exact ⟨rfl, rfl⟩
  | sync k =>
    cases k with
    | begin =>
      rw [taskStep] at h
      split at h
      · rename_i hs
        obtain ⟨rfl, rfl⟩ := Prod.mk.inj (Option.some.inj h)
        exact Or.inl ⟨hs, rfl, rfl⟩
      · exact absurd h (by simp)
    | commit =>
      rw [taskStep] at h
      split at h
      · rename_i j d hs
        split at h
        · rename_i hj
          subst hj
          obtain ⟨rfl, rfl⟩ := Prod.mk.inj (Option.some.inj h)
          exact ⟨d, hs, rfl, rfl⟩
        · exact absurd h (by simp)
      · exact absurd h (by simp)
    | rollback =>
      rw [taskStep] at h
      split at h
      · rename_i j d hs
        split at h
        · rename_i hj
          subst hj
          obtain ⟨rfl, rfl⟩ := Prod.mk.inj (Option.some.inj h)
          exact ⟨d, hs, rfl, rfl⟩
        · exact absurd h (by simp)
      · exact absurd h (by simp)
    | enterShared => exact hlock _ r h
    | leaveShared => exact hlock _ r h
    | requestExclusive => exact hlock _ r h
    | enterExclusive => exact hlock _ r h
    | leaveExclusive => exact hlock _ r h

/-- **A schedule under scripts happens.** -/
theorem Script.schedule_run (o : ι → Script) (g : Setup) (turns : List (ι × (Call → Bool)))
    (p : Pool ι Call Call.Res Exc (Gateway ι) (Except Exc Response)) :
    Relation.ReflTransGen (Pool.Step (TaskStep g Answers.lawful)) p
      (p.schedule (fun i => (o i).taskStep g i) turns) :=
  Pool.schedule_run (T := TaskStep g Answers.lawful) (fun i _ _ _ _ h => (o i).taskStep_spec h) turns p

/-- A call of task `i` under the script, if it passes a check of what the task sees. -/
def Script.checkedStep (o : Script) (g : Setup) (check : Call → View → Bool) (i : ι) (c : Call)
    (s : Gateway ι) : Option (Except Exc c.Res × Gateway ι) :=
  if check c (s.view i) then o.taskStep g i c s else none

/-- **A schedule whose calls pass the check** meets the condition that the check decides. -/
theorem Script.schedule_run_on (o : ι → Script) (g : Setup) (check : Call → View → Bool) (Ok : Condition)
    (hcheck : ∀ (c : Call) (v : View) (r : Except Exc c.Res), check c v = true → Ok c v r)
    (turns : List (ι × (Call → Bool)))
    (p : Pool ι Call Call.Res Exc (Gateway ι) (Except Exc Response)) :
    Relation.ReflTransGen (Pool.Step (TaskStepOn g Answers.lawful Ok)) p
      (p.schedule (fun i => (o i).checkedStep g check i) turns) := by
  refine Pool.schedule_run (fun i c s r s' h => ?_) turns p
  rw [checkedStep] at h
  split at h
  · rename_i hpass
    exact ⟨(o i).taskStep_spec h, hcheck c _ r hpass⟩
  · exact absurd h (by simp)

end GovernorGateway
