/-
# Two runs side by side

That a switch makes no difference is a statement about TWO RUNS: one with it off, one with it on,
from the same state and in the same world.  `Prog.Twins` is the program logic for such statements:
every run of the one program and every run of the other, if they are TOLD THE SAME, end related.

The two programs need not make the same calls.  A class `A` of calls is shared: what the outside
answers to them is the same in both runs as long as both ask the same (`ToldTheSame`).  Calls
outside `A` are silent, and a part that makes no others is reasoned about with `Prog.Sat`, on its
own side (`Act.Agree.apart`).
-/
import GovernorGateway.Effects.Prog

namespace Effects

variable {C : Type} {R : C → Type} {E σ τ α β γ δ : Type}

/-! ## 1. What two runs are told -/

/-- The answers to the shared calls, in the order of the trace. -/
def answered (A : C → Bool) (tr : List (Event C R E σ)) : List (Σ c : C, Except E (R c)) :=
  (tr.filter fun e => A e.call).map fun e => ⟨e.call, e.answer⟩

/-- As long as both runs ask the same, both get the same answer.  When they ask different things, or
one of them asks no more, nothing is required of the rest. -/
inductive ToldTheSame :
    List (Σ c : C, Except E (R c)) → List (Σ c : C, Except E (R c)) → Prop
  | left (l : List (Σ c : C, Except E (R c))) : ToldTheSame [] l
  | right (l : List (Σ c : C, Except E (R c))) : ToldTheSame l []
  | apart {a b : Σ c : C, Except E (R c)} {l l' : List (Σ c : C, Except E (R c))} :
      a.1 ≠ b.1 → ToldTheSame (a :: l) (b :: l')
  | same (a : Σ c : C, Except E (R c)) {l l' : List (Σ c : C, Except E (R c))} :
      ToldTheSame l l' → ToldTheSame (a :: l) (a :: l')

/-- Asked the same, told the same. -/
theorem ToldTheSame.head {c : C} {r r' : Except E (R c)} {l l' : List (Σ c : C, Except E (R c))}
    (h : ToldTheSame (⟨c, r⟩ :: l) (⟨c, r'⟩ :: l')) : r = r' ∧ ToldTheSame l l' := by
  cases h with
  | apart hne => exact absurd rfl hne
  | same _ hrest => exact ⟨rfl, hrest⟩

variable {A : C → Bool} {T : Trans C R E σ} {T' : Trans C R E τ}

theorem answered_append (tr tr' : List (Event C R E σ)) :
    answered A (tr ++ tr') = answered A tr ++ answered A tr' := by
  rw [answered, List.filter_append, List.map_append]
  rfl

/-- The obligation to make no shared call. -/
def Trans.silent (A : C → Bool) : Trans C R E σ := fun c _ _ _ => A c = false

/-- A run without shared calls is told nothing. -/
theorem answered_of_silent {tr : List (Event C R E σ)} (h : ∀ e ∈ tr, A e.call = false) :
    answered A tr = [] := by
  have hnone : tr.filter (fun e => A e.call) = [] := by
    rw [List.filter_eq_nil_iff]
    intro e he
    simp [h e he]
  rw [answered, hnone, List.map_nil]

/-- A run of two programs in sequence is a run of the one and then a run of the other. -/
theorem Exec.of_bind {p : Prog C R E α} {f : α → Prog C R E β} {s s' : σ}
    {tr : List (Event C R E σ)} {b : β} (h : Exec T (p.bind f) s tr b s') :
    ∃ tr₁ a s₁ tr₂, tr = tr₁ ++ tr₂ ∧ Exec T p s tr₁ a s₁ ∧ Exec T (f a) s₁ tr₂ b s' := by
  induction p generalizing s tr with
  | ret a => exact ⟨[], a, s, tr, rfl, .ret a s, h⟩
  | call c k ih =>
    cases h with
    | @call _ _ _ s₀ _ r tr₀ _ ht hrest =>
      obtain ⟨tr₁, a, s₁, tr₂, rfl, h₁, h₂⟩ := ih r hrest
      exact ⟨_, a, s₁, tr₂, rfl, .call ht h₁, h₂⟩

/-- **Two runs.**  Whenever the one program runs over `T` and the other over `T'`, and they are told
the same, they end in `Q`, and whatever follows is told the same. -/
def Prog.Twins (A : C → Bool) (T : Trans C R E σ) (T' : Trans C R E τ) (p : Prog C R E α)
    (q : Prog C R E β) (Q : α → β → σ → τ → Prop) (s : σ) (t : τ) : Prop :=
  ∀ ⦃tr a s' tr' b t' l l'⦄, Exec T p s tr a s' → Exec T' q t tr' b t' →
    ToldTheSame (answered A tr ++ l) (answered A tr' ++ l') → Q a b s' t' ∧ ToldTheSame l l'

namespace Prog.Twins

variable {p : Prog C R E α} {q : Prog C R E β} {s : σ} {t : τ}

theorem ret {Q : α → β → σ → τ → Prop} {a : α} {b : β} (h : Q a b s t) :
    Prog.Twins A T T' (.ret a) (.ret b) Q s t := by
  intro tr a' s' tr' b' t' l l' hx hy htold
  cases hx
  cases hy
  exact ⟨h, htold⟩

theorem mono {Q Q' : α → β → σ → τ → Prop} (h : Prog.Twins A T T' p q Q s t)
    (hQ : ∀ a b s' t', Q a b s' t' → Q' a b s' t') : Prog.Twins A T T' p q Q' s t := by
  intro tr a s' tr' b t' l l' hx hy htold
  obtain ⟨hq, hrest⟩ := h hx hy htold
  exact ⟨hQ a b s' t' hq, hrest⟩

/-- Two programs in sequence, on both sides. -/
theorem bind {f : α → Prog C R E γ} {f' : β → Prog C R E δ} {Q : γ → δ → σ → τ → Prop}
    (h : Prog.Twins A T T' p q (fun a b s' t' => Prog.Twins A T T' (f a) (f' b) Q s' t') s t) :
    Prog.Twins A T T' (p.bind f) (q.bind f') Q s t := by
  intro tr c s₂ tr' d t₂ l l' hx hy htold
  obtain ⟨tr₁, a, s₁, tr₂, rfl, hx₁, hx₂⟩ := hx.of_bind
  obtain ⟨tr₁', b, t₁, tr₂', rfl, hy₁, hy₂⟩ := hy.of_bind
  rw [answered_append, answered_append, List.append_assoc, List.append_assoc] at htold
  obtain ⟨hnext, htold⟩ := h hx₁ hy₁ htold
  exact hnext hx₂ hy₂ htold

/-- Silent parts: each side by itself. -/
theorem silent {Q : α → β → σ → τ → Prop}
    (h : p.Sat T (Trans.silent A)
      (fun a s' => q.Sat T' (Trans.silent A) (fun b t' => Q a b s' t') t) s) :
    Prog.Twins A T T' p q Q s t := by
  intro tr a s' tr' b t' l l' hx hy htold
  obtain ⟨hp, hnext⟩ := h.sound hx
  obtain ⟨hq, hQ⟩ := hnext.sound hy
  rw [answered_of_silent hp, answered_of_silent hq] at htold
  exact ⟨hQ, htold⟩

/-- What each side does by itself, next to what both do. -/
theorem and {Q : α → β → σ → τ → Prop} {Q₁ : α → σ → Prop} {Q₂ : β → τ → Prop}
    (h : Prog.Twins A T T' p q Q s t) (h₁ : p.Sat T Trans.any Q₁ s) (h₂ : q.Sat T' Trans.any Q₂ t) :
    Prog.Twins A T T' p q (fun a b s' t' => Q a b s' t' ∧ Q₁ a s' ∧ Q₂ b t') s t := by
  intro tr a s' tr' b t' l l' hx hy htold
  obtain ⟨hQ, hrest⟩ := h hx hy htold
  exact ⟨⟨hQ, (h₁.sound hx).2, (h₂.sound hy).2⟩, hrest⟩

end Prog.Twins

/-! ## 3. Actions that agree -/

/-- Both end with a value, and `F` holds, or both with an exception, and `X` holds. -/
def bothOk (F : α → β → σ → τ → Prop) (X : σ → τ → Prop) :
    Except E α → Except E β → σ → τ → Prop
  | .ok a, .ok b => F a b
  | .error _, .error _ => X
  | .ok _, .error _ => fun _ _ => False
  | .error _, .ok _ => fun _ _ => False

namespace Act

/-- `Prog.Twins` read at actions. -/
def Twins (A : C → Bool) (T : Trans C R E σ) (T' : Trans C R E τ) (x : Act C R E α) (y : Act C R E β)
    (Q : Except E α → Except E β → σ → τ → Prop) (s : σ) (t : τ) : Prop :=
  Prog.Twins A T T' x.tree y.tree Q s t

/-- Two actions agree: from states with `I` they end in states with `I`, both by an exception or
both with a value, and then the values are related by `S`. -/
def Agree (A : C → Bool) (T : Trans C R E σ) (T' : Trans C R E τ) (I : σ → τ → Prop) (x : Act C R E α)
    (y : Act C R E β) (S : α → β → Prop) : Prop :=
  ∀ s t, I s t → Act.Twins A T T' x y (bothOk (fun a b s' t' => I s' t' ∧ S a b) I) s t

/-- The sequencing rule. -/
theorem Twins.bind {x : Act C R E α} {y : Act C R E β} {f : α → Act C R E γ} {f' : β → Act C R E δ}
    {F : γ → δ → σ → τ → Prop} {X : σ → τ → Prop} {s : σ} {t : τ}
    (h : Act.Twins A T T' x y
      (bothOk (fun a b s' t' => Act.Twins A T T' (f a) (f' b) (bothOk F X) s' t') X) s t) :
    Act.Twins A T T' (x >>= f) (y >>= f') (bothOk F X) s t := by
  refine Prog.Twins.bind (h.mono ?_)
  rintro (e | a) (e' | b) s' t' h'
  · exact .ret h'
  · exact absurd h' id
  · exact absurd h' id
  · exact h'

namespace Agree

variable {I : σ → τ → Prop} {x : Act C R E α} {y : Act C R E β} {S : α → β → Prop}

theorem pure {a : α} {b : β} (h : S a b) :
    Agree A T T' I (Pure.pure a : Act C R E α) (Pure.pure b : Act C R E β) S :=
  fun _ _ hI => Prog.Twins.ret ⟨hI, h⟩

theorem raise (e e' : E) :
    Agree A T T' I (Act.raise e : Act C R E α) (Act.raise e' : Act C R E β) S :=
  fun _ _ hI => Prog.Twins.ret hI

/-- The same pure result on both sides. -/
theorem resume (r : Except E α) :
    Agree A T T' I (Act.resume r : Act C R E α) (Act.resume r : Act C R E α) fun a b => a = b := by
  cases r with
  | error e => exact raise e e
  | ok a => exact pure rfl

theorem raiseIf (b : Bool) (e e' : E) :
    Agree A T T' I (Act.raiseIf b e : Act C R E Unit) (Act.raiseIf b e') fun _ _ => True := by
  cases b with
  | true => exact raise e e'
  | false => exact pure trivial

theorem mono {S' : α → β → Prop} (h : Agree A T T' I x y S) (hS : ∀ a b, S a b → S' a b) :
    Agree A T T' I x y S' := by
  intro s t hI
  refine (h s t hI).mono ?_
  rintro (e | a) (e' | b) s' t' h'
  · exact h'
  · exact absurd h' id
  · exact absurd h' id
  · exact ⟨h'.1, hS a b h'.2⟩

theorem bind {f : α → Act C R E γ} {f' : β → Act C R E δ} {S' : γ → δ → Prop}
    (h : Agree A T T' I x y S) (hf : ∀ a b, S a b → Agree A T T' I (f a) (f' b) S') :
    Agree A T T' I (x >>= f) (y >>= f') S' := by
  intro s t hI
  refine Twins.bind ((h s t hI).mono ?_)
  rintro (e | a) (e' | b) s' t' h'
  · exact h'
  · exact absurd h' id
  · exact absurd h' id
  · exact hf a b h'.2 s' t' h'.1

/-- The body of a `try` hands over what both sides have ended with. -/
theorem attempt (h : Agree A T T' I x y S) :
    Agree A T T' I x.attempt y.attempt fun r r' =>
      (∃ a b, r = .ok a ∧ r' = .ok b ∧ S a b) ∨ ∃ e e', r = .error e ∧ r' = .error e' := by
  intro s t hI
  refine Prog.Twins.bind ((h s t hI).mono ?_)
  rintro (e | a) (e' | b) s' t' h'
  · exact .ret ⟨h', Or.inr ⟨e, e', rfl, rfl⟩⟩
  · exact absurd h' id
  · exact absurd h' id
  · exact .ret ⟨h'.1, Or.inl ⟨a, b, rfl, rfl, h'.2⟩⟩

/-- A silent call on each side; both answer. -/
theorem call {c d : C} {S : R c → R d → Prop} (hc : A c = false) (hd : A d = false)
    (h : ∀ s t, I s t → ∀ r s', T c s r s' → ∀ r' t', T' d t r' t' →
      ∃ a b, r = .ok a ∧ r' = .ok b ∧ I s' t' ∧ S a b) :
    Agree A T T' I (Act.perform (E := E) (R := R) c) (Act.perform d) S := by
  intro s t hI
  refine Prog.Twins.silent ?_
  intro r s' ht
  refine ⟨hc, ?_⟩
  intro r' t' ht'
  refine ⟨hd, ?_⟩
  obtain ⟨a, b, rfl, rfl, hI', hS⟩ := h s t hI r s' ht r' t' ht'
  exact ⟨hI', hS⟩

/-- **Parts that have nothing to do with each other.**  Each makes silent calls only, returns, and
keeps `I` by itself. -/
theorem apart {F : α → Prop} {K : β → Prop}
    (h₁ : ∀ s t, I s t → Act.Sat T (Trans.silent A) x
      (onOk (fun a s' => I s' t ∧ F a) fun _ _ => False) s)
    (h₂ : ∀ s t, I s t → Act.Sat T' (Trans.silent A) y
      (onOk (fun b t' => I s t' ∧ K b) fun _ _ => False) t) :
    Agree A T T' I x y fun a b => F a ∧ K b := by
  intro s t hI
  refine Prog.Twins.silent ((h₁ s t hI).mono ?_)
  rintro (e | a) s' h'
  · exact absurd h' id
  · refine (h₂ s' t h'.1).mono ?_
    rintro (e | b) t' h''
    · exact absurd h'' id
    · exact ⟨h''.1, h'.2, h''.2⟩

end Agree

end Act

end Effects
