/-
# Programs run together

A `Pool` is a shared state and one program for each task.  A step of the pool is one call of one
task; the transition relation may depend on which task makes the call, since a lock or a transaction
belongs to one of them.

`Pool.invariant` is the proof rule.  Each task is verified ALONE, with `Prog.Sat`, over a local
state of its own choosing: what it knows while the others run.  The rule asks once, for all tasks,
that a step of the pool is a step of its task in that local view, and that a step which meets its
obligation leaves the views of the other tasks true.
-/
import GovernorGateway.Effects.Prog
import Mathlib.Logic.Function.Basic
import Mathlib.Logic.Relation

namespace Effects

variable {ι C : Type} {R : C → Type} {E σ τ α : Type} [DecidableEq ι]

structure Pool (ι C : Type) (R : C → Type) (E σ α : Type) where
  state : σ
  prog : ι → Prog C R E α

namespace Pool

/-- One task makes its next call. -/
inductive Step (T : ι → Trans C R E σ) : Pool ι C R E σ α → Pool ι C R E σ α → Prop
  | call {p : Pool ι C R E σ α} (i : ι) {c : C} {k : Except E (R c) → Prog C R E α}
      {r : Except E (R c)} {s : σ} : p.prog i = .call c k → T i c p.state r s →
      Step T p ⟨s, Function.update p.prog i (k r)⟩

/-- The task has returned. -/
def Finished (p : Pool ι C R E σ α) (i : ι) (a : α) : Prop := p.prog i = .ret a

/-- Every task meets its specification in its local view. -/
def Verified (T P : ι → Trans C R E τ) (Q : ι → α → τ → Prop) (p : Pool ι C R E σ α)
    (l : ι → τ) : Prop := ∀ i, (p.prog i).Sat (T i) (P i) (Q i) (l i)

variable {T : ι → Trans C R E σ} {L P : ι → Trans C R E τ} {Q : ι → α → τ → Prop}
  {I : σ → (ι → τ) → Prop}

/-- **The rule for pools.** -/
theorem invariant
    (hstep : ∀ i c s r s' l, I s l → T i c s r s' →
      ∃ l', L i c (l i) r l' ∧ (P i c (l i) r l' → I s' (Function.update l i l')))
    {p p' : Pool ι C R E σ α} (hrun : Relation.ReflTransGen (Step T) p p') {l : ι → τ}
    (hI : I p.state l) (hp : p.Verified L P Q l) :
    ∃ l', I p'.state l' ∧ p'.Verified L P Q l' := by
  induction hrun with
  | refl => exact ⟨l, hI, hp⟩
  | @tail q _ _ hs ih =>
    obtain ⟨m, hI, hp⟩ := ih
    cases hs with
    | @call i c k r s hq ht =>
      obtain ⟨m', hL, hkeep⟩ := hstep i c q.state r s m hI ht
      have hsat := hp i
      rw [hq] at hsat
      obtain ⟨hP, hrest⟩ := hsat r m' hL
      refine ⟨Function.update m i m', hkeep hP, fun j => ?_⟩
      by_cases hj : j = i
      · subst hj
        simpa only [Function.update_self] using hrest
      · simpa only [Function.update_of_ne hj] using hp j

end Pool

/-! ## Evaluating a schedule -/

/-- Run a program with a function that answers its calls, up to a call at which to stop, or at which
the task has to wait. -/
def Prog.upTo (step : (c : C) → σ → Option (Except E (R c) × σ)) (stop : C → Bool) :
    Prog C R E α → σ → Prog C R E α × σ
  | .ret a, s => (.ret a, s)
  | .call c k, s =>
    if stop c then (.call c k, s)
    else
      match step c s with
      | none => (.call c k, s)
      | some (r, s') => (k r).upTo step stop s'

namespace Pool

/-- The tasks take turns, each up to a call at which it stops. -/
def schedule (step : ι → (c : C) → σ → Option (Except E (R c) × σ)) :
    List (ι × (C → Bool)) → Pool ι C R E σ α → Pool ι C R E σ α
  | [], p => p
  | (i, stop) :: turns, p =>
    let q := (p.prog i).upTo (step i) stop p.state
    schedule step turns ⟨q.2, Function.update p.prog i q.1⟩

variable {T : ι → Trans C R E σ}

theorem upTo_run {step : ι → (c : C) → σ → Option (Except E (R c) × σ)}
    (hstep : ∀ i c s r s', step i c s = some (r, s') → T i c s r s') (i : ι) (stop : C → Bool)
    (q : Prog C R E α) {p : Pool ι C R E σ α} (hq : p.prog i = q) :
    Relation.ReflTransGen (Step T) p
      ⟨(q.upTo (step i) stop p.state).2,
        Function.update p.prog i (q.upTo (step i) stop p.state).1⟩ := by
  have hstay : (⟨p.state, Function.update p.prog i q⟩ : Pool ι C R E σ α) = p := by
    rw [← hq, Function.update_eq_self]
  induction q generalizing p with
  | ret a =>
    rw [Prog.upTo, hstay]
  | call c k ih =>
    rw [Prog.upTo]
    split
    · rw [hstay]
    · split
      · rw [hstay]
      · rename_i r s' hs
        refine .head (.call i hq (hstep i c _ r s' hs)) ?_
        have hrest := ih r (p := ⟨s', Function.update p.prog i (k r)⟩) (Function.update_self ..)
          (by rw [Function.update_idem])
        simpa only [Function.update_idem] using hrest

/-- **What is evaluated does happen.** -/
theorem schedule_run {step : ι → (c : C) → σ → Option (Except E (R c) × σ)}
    (hstep : ∀ i c s r s', step i c s = some (r, s') → T i c s r s') :
    ∀ (turns : List (ι × (C → Bool))) (p : Pool ι C R E σ α),
      Relation.ReflTransGen (Step T) p (p.schedule step turns)
  | [], _ => .refl
  | (i, stop) :: turns, _ =>
    (upTo_run hstep i stop _ rfl).trans (schedule_run hstep turns _)

end Pool

end Effects
