/-
# Pools that crash

A crash ends the programs of a pool where they stand.  What it leaves of the shared state, and what
is started then, is up to the relation `Boots`: `Boots s p` if the pool `p` may come up where the
state was `s`.

`LifeStep` is a step of a task or a crash; nothing says WHEN there is one.  `life_invariant` is the
rule for pools once more: what the rule asks of the steps, and that a crash leaves the invariant
true in local views from which the new programs are verified.
-/
import GovernorGateway.Effects.Interleave

namespace Effects.Pool

variable {ι C : Type} {R : C → Type} {E σ τ α : Type} [DecidableEq ι]

/-- A task makes its next call, or all of them end here. -/
inductive LifeStep (T : ι → Trans C R E σ) (Boots : σ → Pool ι C R E σ α → Prop) :
    Pool ι C R E σ α → Pool ι C R E σ α → Prop
  | step {p p' : Pool ι C R E σ α} : Step T p p' → LifeStep T Boots p p'
  | crash {p p' : Pool ι C R E σ α} : Boots p.state p' → LifeStep T Boots p p'

variable {T : ι → Trans C R E σ} {Boots : σ → Pool ι C R E σ α → Prop} {p p' : Pool ι C R E σ α}

/-- Nothing need crash. -/
theorem life_of_run (h : Relation.ReflTransGen (Step T) p p') :
    Relation.ReflTransGen (LifeStep T Boots) p p' :=
  Relation.ReflTransGen.mono (fun _ _ => .step) _ _ h

/-- **The rule for an invariant of the shared state.** -/
theorem life_state {I : σ → Prop} (hstep : ∀ i c s r s', T i c s r s' → I s → I s')
    (hboots : ∀ s q, I s → Boots s q → I q.state)
    (hlife : Relation.ReflTransGen (LifeStep T Boots) p p') (hI : I p.state) : I p'.state := by
  induction hlife with
  | refl => exact hI
  | tail _ hs ih =>
    cases hs with
    | step hs =>
      cases hs with
      | call i hp ht => exact hstep i _ _ _ _ ht ih
    | crash hb => exact hboots _ _ ih hb

/-- **The rule for programs that are verified alone.** -/
theorem life_invariant {L P : ι → Trans C R E τ} {Q : ι → α → τ → Prop} {I : σ → (ι → τ) → Prop}
    (hstep : ∀ i c s r s' l, I s l → T i c s r s' →
      ∃ l', L i c (l i) r l' ∧ (P i c (l i) r l' → I s' (Function.update l i l')))
    (hboots : ∀ s q l, I s l → Boots s q → ∃ m, I q.state m ∧ q.Verified L P Q m)
    (hlife : Relation.ReflTransGen (LifeStep T Boots) p p') {l : ι → τ} (hI : I p.state l)
    (hp : p.Verified L P Q l) : ∃ m, I p'.state m ∧ p'.Verified L P Q m := by
  induction hlife with
  | refl => exact ⟨l, hI, hp⟩
  | tail _ hs ih =>
    obtain ⟨m, hm, hverified⟩ := ih
    cases hs with
    | step hs => exact invariant hstep (.single hs) hm hverified
    | crash hb => exact hboots _ _ m hm hb

end Effects.Pool
