/-
# What a program asks for after what it has heard

`Prog.Uses` lists the calls on EVERY branch of a program.  A check is a branch: what stands behind
it is asked for only after an answer that passed.  `Act.Within H A` is the same list along the
branches whose answers `H` allows, and a rule for a check hands over what the answer has shown.

Section 2 is about pools.  `Pool.within_invariant` follows an invariant of the shared state when
each task keeps within calls of its own.  `Pool.without` takes tasks AWAY: those whose calls leave
the shared state as it is need not have run for the others to run as they did.
-/
import GovernorGateway.Effects.Interleave

namespace Effects

variable {C : Type} {R : C → Type} {E σ ι α β : Type}

/-! ## 1. Programs -/

/-- The answers a call can get, whatever the state. -/
abbrev Hearing (C : Type) (R : C → Type) (E : Type) : Type := (c : C) → Except E (R c) → Prop

/-- After answers that `H` allows, every call of the program is one of `A`. -/
def Prog.Within (H : Hearing C R E) (A : C → Prop) : Prog C R E α → Prop
  | .ret _ => True
  | .call c k => A c ∧ ∀ r, H c r → (k r).Within H A

/-- The results the program can end with after answers that `H` allows. -/
def Prog.Ends (H : Hearing C R E) (Φ : α → Prop) : Prog C R E α → Prop
  | .ret a => Φ a
  | .call c k => ∀ r, H c r → (k r).Ends H Φ

variable {H : Hearing C R E} {A B : C → Prop}

theorem Prog.Within.mono {p : Prog C R E α} (h : p.Within H A) (hAB : ∀ c, A c → B c) :
    p.Within H B := by
  induction p with
  | ret a => trivial
  | call c k ih => exact ⟨hAB c h.1, fun r hr => ih r (h.2 r hr)⟩

theorem Prog.Uses.within {p : Prog C R E α} (h : p.Uses A) : p.Within H A := by
  induction p with
  | ret a => trivial
  | call c k ih => exact ⟨h.1, fun r _ => ih r (h.2 r)⟩

/-- Calls of which all have `A`. -/
theorem Prog.within_of_all (hA : ∀ c, A c) (p : Prog C R E α) : p.Within H A := by
  induction p with
  | ret a => trivial
  | call c k ih => exact ⟨hA c, fun r _ => ih r⟩

/-- What is known of the calls of a program may be ASSUMED of them. -/
theorem Prog.Within.assume {T P : Trans C R E σ} {p : Prog C R E α} {Q : α → σ → Prop} {s : σ}
    (h : p.Within H A) (hT : ∀ c s r s', T c s r s' → H c r)
    (hp : p.Sat (fun c s r s' => T c s r s' ∧ A c) P Q s) : p.Sat T P Q s := by
  induction p generalizing s with
  | ret a => exact hp
  | call c k ih =>
    intro r s' ht
    obtain ⟨hP, hrest⟩ := hp r s' ⟨ht, h.1⟩
    exact ⟨hP, ih r (h.2 r (hT c s r s' ht)) hrest⟩

theorem Prog.within_bind {p : Prog C R E α} {f : α → Prog C R E β} {Φ : α → Prop}
    (hp : p.Within H A) (hends : p.Ends H Φ) (hf : ∀ a, Φ a → (f a).Within H A) :
    (p.bind f).Within H A := by
  induction p with
  | ret a => exact hf a hends
  | call c k ih => exact ⟨hp.1, fun r hr => ih r (hp.2 r hr) (hends r hr)⟩

theorem Prog.Ends.mono {Φ Ψ : α → Prop} {p : Prog C R E α} (h : p.Ends H Φ)
    (hΦ : ∀ a, Φ a → Ψ a) : p.Ends H Ψ := by
  induction p with
  | ret a => exact hΦ a h
  | call c k ih => exact fun r hr => ih r (h r hr)

theorem Prog.ends_bind {p : Prog C R E α} {f : α → Prog C R E β} {Φ : α → Prop} {Ψ : β → Prop}
    (hends : p.Ends H Φ) (hf : ∀ a, Φ a → (f a).Ends H Ψ) : (p.bind f).Ends H Ψ := by
  induction p with
  | ret a => exact hf a hends
  | call c k ih => exact fun r hr => ih r (hends r hr)

theorem Prog.ends_true (p : Prog C R E α) : p.Ends H fun _ => True := by
  induction p with
  | ret a => trivial
  | call c k ih => exact fun r _ => ih r

/-- What is heard, in the logic of the calls. -/
theorem Prog.Ends.sat {T : Trans C R E σ} {p : Prog C R E α} {Φ : α → Prop} (h : p.Ends H Φ)
    (hT : ∀ c s r s', T c s r s' → H c r) (s : σ) : p.Sat T Trans.any (fun a _ => Φ a) s := by
  induction p generalizing s with
  | ret a => exact h
  | call c k ih => exact fun r s' ht => ⟨trivial, ih r (h r (hT c s r s' ht)) s'⟩

namespace Act

def Within (H : Hearing C R E) (A : C → Prop) (x : Act C R E α) : Prop := x.tree.Within H A

/-- Every value the action can return has `Φ`. -/
def Ends (H : Hearing C R E) (Φ : α → Prop) (x : Act C R E α) : Prop :=
  x.tree.Ends H fun r => ∀ a, r = .ok a → Φ a

/-- The action can only raise. -/
abbrev Fails (H : Hearing C R E) (x : Act C R E α) : Prop := x.Ends H fun _ => False

theorem Uses.within {x : Act C R E α} (h : x.Uses A) : x.Within H A := Prog.Uses.within h

@[simp] theorem within_pure (a : α) : (pure a : Act C R E α).Within H A := trivial

@[simp] theorem within_raise (e : E) : (raise e : Act C R E α).Within H A := trivial

@[simp] theorem within_resume (r : Except E α) : (resume r : Act C R E α).Within H A := trivial

theorem ends_pure {Φ : α → Prop} {a : α} (h : Φ a) : (pure a : Act C R E α).Ends H Φ := by
  intro b hb
  rwa [← Except.ok.inj hb]

theorem ends_raise {Φ : α → Prop} (e : E) : (raise e : Act C R E α).Ends H Φ := by
  intro b hb
  exact absurd hb (by simp)

theorem ends_resume {Φ : α → Prop} {r : Except E α} (h : ∀ a, r = .ok a → Φ a) :
    (resume r : Act C R E α).Ends H Φ := h

theorem ends_perform (c : C) : (perform c : Act C R E (R c)).Ends H fun a => H c (.ok a) := by
  intro r hr a ha
  rwa [← ha]

theorem ends_bind {x : Act C R E α} {f : α → Act C R E β} {Φ : α → Prop} {Ψ : β → Prop}
    (hx : x.Ends H Φ) (hf : ∀ a, Φ a → (f a).Ends H Ψ) : (x >>= f).Ends H Ψ := by
  refine Prog.ends_bind (Φ := fun r : Except E α => ∀ a, r = .ok a → Φ a) hx ?_
  rintro (e | a) h
  · exact ends_raise e
  · exact hf a (h a rfl)

/-- **What was heard is known behind it.** -/
theorem within_bind_ends {x : Act C R E α} {f : α → Act C R E β} {Φ : α → Prop} (hx : x.Within H A)
    (hends : x.Ends H Φ) (hf : ∀ a, Φ a → (f a).Within H A) : (x >>= f).Within H A := by
  refine Prog.within_bind (Φ := fun r : Except E α => ∀ a, r = .ok a → Φ a) hx hends ?_
  rintro (e | a) h
  · trivial
  · exact hf a (h a rfl)

theorem ends_true (x : Act C R E α) : x.Ends H fun _ => True := by
  have h : x.tree.Ends H fun _ => True := Prog.ends_true x.tree
  induction hx : x.tree generalizing x with
  | ret r =>
    rw [Ends, hx]
    exact fun _ _ => trivial
  | call c k ih =>
    rw [Ends, hx]
    exact fun r hr => ih r ⟨k r⟩ (Prog.ends_true _) rfl

theorem within_bind {x : Act C R E α} {f : α → Act C R E β} (hx : x.Within H A)
    (hf : ∀ a, (f a).Within H A) : (x >>= f).Within H A :=
  within_bind_ends hx (ends_true x) fun a _ => hf a

theorem within_attempt {x : Act C R E α} (hx : x.Within H A) : x.attempt.Within H A :=
  Prog.within_bind hx (Prog.ends_true _) fun _ _ => trivial

theorem within_always {x : Act C R E α} {fin : Act C R E Unit} (hx : x.Within H A)
    (hf : fin.Within H A) : (always x fin).Within H A :=
  within_bind (within_attempt hx) fun _ => within_bind hf fun _ => trivial

theorem within_fold {f : α → β → Act C R E α} (hf : ∀ a x, (f a x).Within H A) :
    ∀ (xs : List β) (a : α), (fold f xs a).Within H A
  | [], _ => trivial
  | x :: xs, a => within_bind (hf a x) fun a' => within_fold hf xs a'

/-- Behind a test that raises, the test has failed. -/
theorem ends_raiseIf (b : Bool) (e : E) : (raiseIf b e : Act C R E Unit).Ends H fun _ => b = false := by
  cases b with
  | true => exact ends_raise e
  | false => exact ends_pure rfl

/-- An action that can only raise cuts off what follows it. -/
theorem fails_bind {x : Act C R E α} (f : α → Act C R E β) (hx : x.Fails H) : (x >>= f).Fails H :=
  ends_bind hx fun _ h => h.elim

theorem within_bind_of_fails {x : Act C R E α} {f : α → Act C R E β} (hx : x.Within H A)
    (hfail : x.Fails H) : (x >>= f).Within H A :=
  within_bind_ends hx hfail fun _ h => h.elim

end Act

/-! ## 2. Pools -/

namespace Pool

variable [DecidableEq ι] {T : ι → Trans C R E σ}

/-- **An invariant that every call of every task keeps**, and that may be what the tasks hear. -/
theorem within_invariant {A : ι → C → Prop} {I : σ → Prop}
    (hH : ∀ i c s r s', I s → T i c s r s' → H c r)
    (hI : ∀ i c s r s', A i c → T i c s r s' → I s → I s') {p p' : Pool ι C R E σ α}
    (hrun : Relation.ReflTransGen (Step T) p p') (hp : ∀ i, (p.prog i).Within H (A i))
    (hs : I p.state) : I p'.state ∧ ∀ i, (p'.prog i).Within H (A i) := by
  induction hrun with
  | refl => exact ⟨hs, hp⟩
  | @tail q _ _ hstep ih =>
    obtain ⟨hs, hp⟩ := ih
    cases hstep with
    | @call i c k r s hq ht =>
      have hw := hp i
      rw [hq] at hw
      refine ⟨hI i c q.state r s hw.1 ht hs, fun j => ?_⟩
      change (Function.update q.prog i (k r) j).Within H (A j)
      by_cases hj : j = i
      · subst hj
        rw [Function.update_self]
        exact hw.2 r (hH j c q.state r s hs ht)
      · rw [Function.update_of_ne hj]
        exact hp j

/-- What the tasks can still return. -/
theorem ends_invariant {Φ : ι → α → Prop} (hH : ∀ i c s r s', T i c s r s' → H c r)
    {p p' : Pool ι C R E σ α} (hrun : Relation.ReflTransGen (Step T) p p')
    (hp : ∀ i, (p.prog i).Ends H (Φ i)) : ∀ i, (p'.prog i).Ends H (Φ i) := by
  induction hrun with
  | refl => exact hp
  | @tail q _ _ hstep ih =>
    cases hstep with
    | @call i c k r s hq ht =>
      have hw := ih i
      rw [hq] at hw
      intro j
      change (Function.update q.prog i (k r) j).Ends H (Φ j)
      by_cases hj : j = i
      · subst hj
        rw [Function.update_self]
        exact hw r (hH j c q.state r s ht)
      · rw [Function.update_of_ne hj]
        exact ih j

/-- **Tasks that leave the shared state alone can be taken away.**  The others run as they did, and
the state is the one that was reached. -/
theorem without {S : ι → Prop} (hH : ∀ i c s r s', T i c s r s' → H c r)
    (hS : ∀ i c s r s', S i → A c → T i c s r s' → s' = s) {p p' : Pool ι C R E σ α}
    (hrun : Relation.ReflTransGen (Step T) p p') (hp : ∀ i, S i → (p.prog i).Within H A) :
    ∃ q, Relation.ReflTransGen (Step T) p q ∧ q.state = p'.state ∧
      (∀ i, S i → q.prog i = p.prog i) ∧ ∀ i, ¬ S i → q.prog i = p'.prog i := by
  have hwithin : ∀ {p'' : Pool ι C R E σ α}, Relation.ReflTransGen (Step T) p p'' →
      ∀ i, S i → (p''.prog i).Within H A := by
    intro p'' hrun i hi
    have h := within_invariant (A := fun j c => S j → A c) (I := fun _ => True)
      (fun j c s r s' _ => hH j c s r s') (fun _ _ _ _ _ _ _ _ => trivial) hrun (fun j => ?_) trivial
    · exact (h.2 i).mono fun c hc => hc hi
    · by_cases hj : S j
      · exact (hp j hj).mono fun _ hc _ => hc
      · exact Prog.within_of_all (fun _ h => absurd h hj) _
  induction hrun with
  | refl => exact ⟨p, .refl, rfl, fun _ _ => rfl, fun _ _ => rfl⟩
  | @tail m _ hm hstep ih =>
    obtain ⟨q, hq, hstate, hsilent, hother⟩ := ih
    cases hstep with
    | @call i c k r s hprog ht =>
      by_cases hi : S i
      · -- the step is one of a task that is taken away
        have hw := hwithin hm i hi
        rw [hprog] at hw
        obtain rfl : s = m.state := hS i c m.state r s hi hw.1 ht
        refine ⟨q, hq, hstate, hsilent, fun j hj => ?_⟩
        have hji : j ≠ i := fun h => hj (h ▸ hi)
        change q.prog j = Function.update m.prog i (k r) j
        rw [Function.update_of_ne hji]
        exact hother j hj
      · refine ⟨⟨s, Function.update q.prog i (k r)⟩, hq.tail (.call i ?_ ?_), rfl, fun j hj => ?_,
          fun j hj => ?_⟩
        · rw [hother i hi, hprog]
        · rwa [hstate]
        · have hji : j ≠ i := fun h => hi (h ▸ hj)
          change Function.update q.prog i (k r) j = p.prog j
          rw [Function.update_of_ne hji]
          exact hsilent j hj
        · change Function.update q.prog i (k r) j = Function.update m.prog i (k r) j
          by_cases hji : j = i
          · subst hji
            simp only [Function.update_self]
          · simp only [Function.update_of_ne hji]
            exact hother j hj

end Pool

end Effects
