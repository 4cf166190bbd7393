/-
# Whether a call has raised

A program that catches exceptions can return normally after one of its calls has raised, and a
statement about such a run needs to say WHETHER one has.  `watched T` are the transitions with a
flag for it next to the state.  The flag is only looked at by the proof: every run over `T` is a run
over `watched T` (`Exec.watched`), so what the logic proves of the flag holds of the trace
(`Prog.Sat.flagged`).
-/
import GovernorGateway.Effects.Prog

namespace Effects

variable {C : Type} {R : C → Type} {E σ α β : Type} {T : Trans C R E σ}

/-- Some call of the trace has raised. -/
def Raised (tr : List (Event C R E σ)) : Prop := ∃ e ∈ tr, ∃ x, e.answer = .error x

theorem raised_cons {e : Event C R E σ} {tr : List (Event C R E σ)} :
    Raised (e :: tr) ↔ (∃ x, e.answer = .error x) ∨ Raised tr := by
  constructor
  · rintro ⟨e', he', hx⟩
    rcases List.mem_cons.mp he' with rfl | he'
    · exact Or.inl hx
    · exact Or.inr ⟨e', he', hx⟩
  · rintro (hx | ⟨e', he', hx⟩)
    · exact ⟨e, List.mem_cons_self, hx⟩
    · exact ⟨e', List.mem_cons_of_mem e he', hx⟩

/-- Either a call has raised or all have answered. -/
theorem not_raised_iff {tr : List (Event C R E σ)} :
    (∀ e ∈ tr, ∃ v, e.answer = .ok v) ↔ ¬ Raised tr := by
  constructor
  · rintro h ⟨e, he, x, hx⟩
    obtain ⟨v, hv⟩ := h e he
    rw [hx] at hv
    exact absurd hv (by simp)
  · intro h e he
    cases hans : e.answer with
    | ok v => exact ⟨v, rfl⟩
    | error x => exact absurd ⟨e, he, x, hans⟩ h

/-- The transitions, with the flag. -/
def watched (T : Trans C R E σ) : Trans C R E (σ × Prop) := fun c s r s' =>
  T c s.1 r s'.1 ∧ (s'.2 ↔ s.2 ∨ ∃ x, r = .error x)

/-- **A run is a run that is watched**, and ends with the flag up when it was up or the trace has
raised. -/
theorem Exec.watched {p : Prog C R E α} {s s' : σ} {tr : List (Event C R E σ)} {a : α}
    (h : Exec T p s tr a s') : ∀ flag : Prop,
      ∃ tr', Exec (Effects.watched T) p (s, flag) tr' a (s', flag ∨ Raised tr) := by
  induction h with
  | ret a s =>
    intro flag
    have hflag : (flag ∨ Raised ([] : List (Event C R E σ))) = flag := by simp [Raised]
    rw [hflag]
    exact ⟨[], .ret a (s, flag)⟩
  | @call c k s s' s'' r tr a ht _ ih =>
    intro flag
    obtain ⟨tr', hrest⟩ := ih (flag ∨ ∃ x, r = .error x)
    have hflag : ((flag ∨ ∃ x, r = .error x) ∨ Raised tr) =
        (flag ∨ Raised ((⟨c, s, r, s'⟩ : Event C R E σ) :: tr)) := by
      rw [raised_cons, or_assoc]
    rw [hflag] at hrest
    have hstep : Effects.watched T c (s, flag) r (s', flag ∨ ∃ x, r = .error x) := ⟨ht, Iff.rfl⟩
    exact ⟨_, .call hstep hrest⟩

/-- **What the logic proves of the flag holds of the trace.** -/
theorem Prog.Sat.flagged {P : Trans C R E (σ × Prop)} {p : Prog C R E α} {Q : α → σ × Prop → Prop} {s : σ}
    (h : p.Sat (watched T) P Q (s, False)) {tr : List (Event C R E σ)} {a : α} {s' : σ}
    (hx : Exec T p s tr a s') : Q a (s', Raised tr) := by
  obtain ⟨tr', hx'⟩ := hx.watched False
  have hQ := (h.sound hx').2
  rwa [false_or] at hQ

namespace Act

variable {T P : Trans C R E σ}

/-- The rule for a program that keeps `I` as long as it returns and leaves `X` when it raises, in
front of the rest. -/
theorem sat_seq {x : Act C R E α} {f : α → Act C R E β} {Q : Except E β → σ → Prop} {I X : σ → Prop} {s : σ}
    (hx : Act.Sat T P x (onOk (fun _ => I) fun _ => X) s)
    (hf : ∀ a s', I s' → Act.Sat T P (f a) Q s') (hQ : ∀ e s', X s' → Q (.error e) s') :
    Act.Sat T P (x >>= f) Q s := by
  rw [Act.sat_bind]
  refine hx.mono ?_
  rintro (e | a) s' h
  · exact hQ e s' h
  · exact hf a s' h

/-- The loop rule with an invariant about the rounds that are done, for a list whose rounds differ:
a round knows what has been done before it and what is left. -/
theorem sat_fold_split {f : α → β → Act C R E α} {I : List β → α → σ → Prop} {X : E → σ → Prop} :
    ∀ (done xs : List β) {a : α} {s : σ},
      (∀ pre x post, pre ++ x :: post = done ++ xs → ∀ a s, I pre a s →
        Act.Sat T P (f a x) (onOk (fun a' s' => I (pre ++ [x]) a' s') X) s) →
      I done a s → Act.Sat T P (fold f xs a) (onOk (fun a' s' => I (done ++ xs) a' s') X) s
  | done, [], a, s, _, h => by
    rw [List.append_nil]
    exact h
  | done, x :: xs, a, s, hf, h => by
    have hrest : done ++ [x] ++ xs = done ++ x :: xs := by simp
    rw [fold]
    refine sat_bind.mpr ((hf done x xs rfl a s h).mono ?_)
    rintro (e | a') s' h'
    · exact h'
    · rw [← hrest]
      exact sat_fold_split (done ++ [x]) xs (by rwa [hrest]) h'

end Act

end Effects
