/-
# What every call keeps

Some properties of the database are kept by EVERY function of the store, whoever calls it and in
whichever mode.  They hold in every world of a run without a look at the handlers
(`Run.stable`).  The one thing to watch is the transaction: a rollback goes back to a copy, so the
property is carried for the copy as well.

Between two requests there is no copy: each handler closes the transaction it opens
(`saved_handle`).  So a run can be cut between any two requests (`Run.saved`).
-/
import GovernorGateway.Semantics.Requests

namespace GovernorGateway

open Effects

variable {g : Setup} {answers : Answers}

/-! ## 1. Properties that every call keeps -/

/-- Every program makes only calls. -/
theorem uses_any {C E α : Type} {R : C → Type} (p : Prog C R E α) : p.Uses fun _ => True := by
  induction p with
  | ret a => trivial
  | call c k ih => exact ⟨trivial, ih⟩

/-- The property holds of the database and of the copy a rollback would go back to. -/
def World.Both (K : Db → Prop) (w : World) : Prop := K w.db ∧ ∀ d, w.saved = some d → K d

theorem World.Both.step {K : Db → Prop} {c : Call} {w w' : World} {r : Except Exc c.Res}
    (hK : ∀ k : Store, c = .store k → K w.db → K (k.exec g w.db).2) (h : w.Both K)
    (ht : Step g answers c w r w') : w'.Both K := by
  cases c with
  | store c =>
    obtain ⟨-, rfl⟩ := ht
    exact ⟨hK c rfl h.1, h.2⟩
  | ext e =>
    obtain ⟨-, rfl⟩ := ht
    exact h
  | getAdapterKey =>
    obtain ⟨-, rfl⟩ := ht
    exact h
  | setAdapterKey key =>
    obtain ⟨-, rfl⟩ := ht
    exact h
  | sync k =>
    obtain ⟨-, rfl⟩ := ht
    cases k with
    | begin =>
      refine ⟨h.1, ?_⟩
      intro d hd
      obtain rfl := Option.some.inj hd
      exact h.1
    | commit => exact ⟨h.1, fun d hd => absurd hd (by simp [World.sync])⟩
    | rollback =>
      refine ⟨?_, fun d hd => absurd hd (by simp [World.sync])⟩
      change K (w.saved.getD w.db)
      cases hs : w.saved with
      | none => exact h.1
      | some d => exact h.2 d hs
    | enterShared => exact h
    | leaveShared => exact h
    | requestExclusive => exact h
    | enterExclusive => exact h
    | leaveExclusive => exact h

theorem World.both_of_saved {K : Db → Prop} {w : World} (hsaved : w.saved = none) (hw : K w.db) :
    w.Both K :=
  ⟨hw, fun d hd => absurd (hsaved.symm.trans hd) (by simp)⟩

/-- **What every call keeps, every run keeps.** -/
theorem Run.stable {K : Db → Prop} (hK : ∀ (c : Store) db, K db → K (c.exec g db).2) {w w' : World}
    {hs : List Handled} (hrun : Run g (Step g answers) w hs w') (hsaved : w.saved = none)
    (hw : K w.db) : K w'.db := by
  refine (hrun.invariant (P := Trans.any) (I := World.Both K) ?_
    (World.both_of_saved hsaved hw)).1.1
  intro req w₁ h₁
  refine Prog.Uses.sat (I := World.Both K) (uses_any _) ?_ h₁
  intro c _ w₂ r w₃ ht h₂
  exact ⟨trivial, h₂.step (fun k _ => hK k w₂.db) ht⟩

/-- **What calls of certain kinds keep**, a run of requests keeps that make no others: every call of
the run finds a database with the property, and is of one of the kinds. -/
theorem Run.stable_kinds {K : Db → Prop} {ks : List CallKind}
    (hK : ∀ (c : Store) db, c.kind ∈ ks → K db → K (c.exec g db).2) {w w' : World}
    {hs : List Handled} (hrun : Run g (Step g answers) w hs w')
    (hreq : ∀ k ∈ hs, ∀ kind ∈ k.request.kinds, kind ∈ ks) (hsaved : w.saved = none) (hw : K w.db) :
    K w'.db ∧ ∀ k ∈ hs, ∀ e ∈ k.trace, K e.before.db ∧ e.call.kind ∈ ks := by
  have hhandle : ∀ (req : Request) (w₁ : World), (∀ kind ∈ req.kinds, kind ∈ ks) → w₁.Both K →
      Act.Sat (Step g answers) (fun c w _ _ => K w.db ∧ c.kind ∈ ks) (req.handle g)
        (fun _ w' => w'.Both K) w₁ := by
    intro req w₁ hkinds h₁
    refine Prog.Uses.sat (I := World.Both K)
      (uses_handle g req (A := fun c => c.kind ∈ ks) fun c hc => hkinds _ hc) ?_ h₁
    intro c hc w₂ r w₃ ht h₂
    refine ⟨⟨h₂.1, hc⟩, h₂.step (fun k hk => hK k w₂.db ?_) ht⟩
    rw [hk] at hc
    exact hc
  obtain ⟨hend, hall⟩ := hrun.invariant_of hhandle hreq (World.both_of_saved hsaved hw)
  exact ⟨hend.1, fun k hk e he => (hall k hk).2 e he⟩

/-! ## 2. Transactions are closed -/

/-- A part that opens and closes its own transaction, after calls that open none. -/
theorem saved_bind {α β : Type} {x : Handler α} {f : α → Handler β} (hx : TxFree x)
    (hf : ∀ a w, w.saved = none → Act.Sat (restrict (Step g answers) Trans.any) Trans.any (f a)
      (fun _ w' => w'.saved = none) w) {w : World} (hw : w.saved = none) :
    Act.Sat (restrict (Step g answers) Trans.any) Trans.any (x >>= f)
      (fun _ w' => w'.saved = none) w := by
  rw [Act.sat_bind]
  refine Prog.Sat.mono (Prog.Uses.sat (I := fun w : World => w.saved = none) hx ?_ hw) ?_
  · intro c hc w₁ r w₂ ht h₁
    exact ⟨trivial, (saved_of_step hc ht).trans h₁⟩
  · rintro (e | a) w' hw'
    · exact hw'
    · exact hf a w' hw'

theorem saved_withTransaction {α : Type} {x : Handler α} (hx : TxFree x) (w : World) :
    Act.Sat (restrict (Step g answers) Trans.any) Trans.any (withTransaction x)
      (fun _ w' => w'.saved = none) w := by
  refine sat_withTransaction (fun _ _ _ _ => trivial) hx ?_
  refine Prog.Sat.mono (Prog.Uses.sat (I := fun _ => True) (uses_any _)
    (fun _ _ _ _ _ _ _ => ⟨trivial, trivial⟩) trivial) ?_
  rintro (e | a) w' -
  · rfl
  · rfl

/-- **Every request leaves no transaction open.** -/
theorem saved_handle (req : Request) {w : World} (hw : w.saved = none) :
    Act.Sat (Step g answers) Trans.any (req.handle g) (fun _ w' => w'.saved = none) w := by
  have hfree : TxFree (req.handle g) →
      Act.Sat (Step g answers) Trans.any (req.handle g) (fun _ w' => w'.saved = none) w := by
    intro hx
    refine Prog.Uses.sat (I := fun w : World => w.saved = none) hx ?_ hw
    intro c hc w₁ r w₂ ht h₁
    exact ⟨trivial, (saved_of_step (C := Trans.any) hc ⟨ht, trivial⟩).trans h₁⟩
  cases req with
  | submitCandidate bytes body =>
    refine Prog.Sat.restrict (T := restrict (Step g answers) Trans.any) ?_
      fun _ _ _ _ ht => ⟨ht, trivial⟩
    refine saved_bind (uses_submitChecks g (Call.of_noTx rfl) bytes body) (fun a w₁ h₁ => ?_) hw
    exact sat_withShared (fun _ _ _ _ => trivial)
      (saved_withTransaction (uses_submitLocked g (Call.of_noTx rfl) _ _ _) w₁)
  | designate header e =>
    refine Prog.Sat.restrict (T := restrict (Step g answers) Trans.any) ?_
      fun _ _ _ _ ht => ⟨ht, trivial⟩
    refine saved_bind (uses_verifyRole g (Call.of_noTx rfl) _ _) (fun claims w₁ h₁ => ?_) hw
    refine saved_bind (uses_limitDesignations g (Call.of_noTx rfl) _ _) (fun _ w₂ h₂ => ?_) h₁
    exact sat_withExclusive (fun _ _ _ _ => trivial)
      (saved_withTransaction (uses_designateLocked g (Call.of_noTx rfl) e _) w₂)
  | _ => exact hfree (uses_handle g _ (Call.of_noTx rfl))

theorem Run.saved {w w' : World} {hs : List Handled} (hrun : Run g (Step g answers) w hs w')
    (hw : w.saved = none) : w'.saved = none :=
  (hrun.invariant (P := Trans.any) (I := fun w => w.saved = none)
    (fun req _ h => saved_handle req h) hw).1

end GovernorGateway
