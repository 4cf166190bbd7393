/-
# Who writes the record of a repair candidate

The traversal classifies the affected compactions inside one call of the store.  Every other write
to a record is one of reconstruction's, and it is a write to a record that reconstruction has READ
AS PENDING at its start (`uses_reconstructOne_only`).

So a backend that keeps some rows through every other call, and never hands out a pending record
under one of their keys, keeps them through every request (`Guards.handle`).  That is all the two
backends have to show.
-/
import GovernorGateway.Semantics.Recovery

namespace GovernorGateway

open Effects

/-! ## 1. Calls that write a record -/

/-- The call writes the record of the candidate `x`. -/
def Call.Decides (x : NodeId) : Call → Prop
  | .store (.updateRepairCandidate y _) => y = x
  | .store (.assignRepairCandidate y _) => y = x
  | _ => False

/-- The call writes no record. -/
def Call.Undecided (c : Call) : Prop := ∀ x, ¬ c.Decides x

/-- The call writes no record but that of `x`. -/
def Call.Only (x : NodeId) (c : Call) : Prop := ∀ y, c.Decides y → y = x

theorem Call.of_undecided {ks : List CallKind}
    (h : (ks.all fun k => decide (k ≠ .reopen ∧ k ≠ .decision ∧ k ≠ .assign)) = true) :
    Call.Of Call.Undecided ks := by
  intro c hc x hx
  obtain ⟨hreopen, hdecision, hassign⟩ := of_decide_eq_true (List.all_eq_true.mp h c.kind hc)
  cases c with
  | store c =>
    cases c with
    | updateRepairCandidate y rc =>
      rw [Call.kind, Store.kind] at hreopen hdecision
      split at hreopen
      · exact hreopen rfl
      · rename_i hp
        rw [if_neg hp] at hdecision
        exact hdecision rfl
    | assignRepairCandidate y rc => exact hassign rfl
    | _ => exact hx
  | _ => exact hx

theorem Call.of_only {ks : List CallKind} {x : NodeId}
    (h : (ks.all fun k => decide (k ≠ .reopen ∧ k ≠ .decision ∧ k ≠ .assign)) = true) :
    Call.Of (Call.Only x) ks :=
  fun c hc y hy => absurd hy (Call.of_undecided h c hc y)

section Uses

variable (g : Setup) (root : NodeId) {x : NodeId}

theorem only_update (rc : RepairCandidate) :
    (store (.updateRepairCandidate x rc)).Uses (Call.Only x) :=
  (Act.uses_perform (R := Call.Res) _).mpr fun _ hy => Eq.symm hy

theorem only_assignFailure (rc : RepairCandidate) (e : Exc) :
    (assignFailure x rc e).Uses (Call.Only x) :=
  (Act.uses_perform (R := Call.Res) _).mpr fun _ hy => Eq.symm hy

theorem only_reintegrate (rc : RepairCandidate) (c : Payload) :
    (reintegrate g x rc c).Uses (Call.Only x) := by
  have hA : Call.Of (Call.Only x) [.ext, .read, .commit .reconstruction, .shared, .reintegration] :=
    Call.of_only rfl
  exact Act.uses_bind (uses_gateEvidence (hA.sub rfl)) fun _ =>
    Act.uses_bind (uses_store hA rfl) fun _ =>
      Act.uses_bind (uses_commitShared (hA.sub rfl) _) fun _ =>
        Act.uses_bind (uses_store hA rfl) fun _ => Act.uses_bind (uses_ext hA _ rfl) fun _ =>
          Act.uses_bind (uses_store hA rfl) fun _ =>
            Act.uses_bind (uses_stampNow (hA.sub rfl)) fun _ =>
              Act.uses_bind (uses_store hA rfl) fun _ => only_update _

theorem only_gate (rc : RepairCandidate) (c : Option Payload) :
    (gate g x rc c).Uses (Call.Only x) := by
  have hgive : ∀ reason, (giveUp x rc reason).Uses (Call.Only x) := fun _ => only_update _
  cases c with
  | none => exact hgive _
  | some c =>
    by_cases hsig : (!verifyCryptographicSignature g.env c) = true
    · simp only [gate, hsig, if_true]
      exact hgive _
    · simp only [gate, hsig]
      refine Act.uses_bind (uses_getAdapterKey (Call.of_only rfl)) fun key => ?_
      split
      · exact hgive _
      · split
        · exact hgive _
        · exact only_reintegrate g rc c

theorem only_reconstructPending (rc : RepairCandidate)
    (cache : List (NodeId × Payload) × List NodeId) :
    (reconstructPending g root x rc cache).Uses (Call.Only x) := by
  have hA : Call.Of (Call.Only x) [.ext, .adapter, .setKey] := Call.of_only rfl
  unfold reconstructPending
  split
  · exact Act.uses_raise _
  · refine Act.uses_bind ?_ fun c => only_gate g _ c
    unfold reconstructionCandidate
    split
    · exact uses_ext hA _ rfl
    · refine Act.uses_bind ?_ fun _ => Act.uses_pure _
      exact Act.uses_bind (uses_ext hA _ rfl) fun key => Act.uses_bind (uses_ext hA _ rfl) fun _ =>
        Act.uses_bind (uses_ext hA _ rfl) fun _ =>
          Act.uses_bind (uses_setAdapterKey (hA.sub rfl) key) fun _ => Act.uses_pure _

/-- **One round writes one record**, that of the row it is for. -/
theorem uses_reconstructOne_only (cache : Option (List (NodeId × Payload) × List NodeId))
    (row : NodeId × RepairCandidate) :
    (reconstructOne g root cache row).Uses (Call.Only row.1) := by
  have hread : Call.Of (Call.Only row.1) [.read] := Call.of_only rfl
  have hfailure : ∀ e, (assignFailure row.1 row.2 e).Uses (Call.Only row.1) :=
    fun e => only_assignFailure row.2 e
  unfold reconstructOne
  split
  · exact Act.uses_pure _
  · refine Act.uses_bind ?_ fun read => ?_
    · cases cache with
      | some c => exact Act.uses_pure _
      | none =>
        exact Act.uses_attempt (Act.uses_bind (uses_store hread rfl) fun _ =>
          Act.uses_bind (uses_store hread rfl) fun _ => Act.uses_pure _)
    · cases read with
      | error e => exact Act.uses_bind (hfailure e) fun _ => Act.uses_pure _
      | ok c =>
        refine Act.uses_bind (Act.uses_attempt (only_reconstructPending g root row.2 c)) fun r => ?_
        cases r with
        | error e => exact Act.uses_bind (hfailure e) fun _ => Act.uses_pure _
        | ok u => exact Act.uses_pure _

end Uses

/-! ## 2. Requests, but for their reconstruction -/

variable {σ α : Type} {g : Setup} {T P : Trans Call Call.Res Exc σ} {I : σ → Prop}

/-- The calls that none but reconstruction makes. -/
def Call.Outside (c : Call) : Prop :=
  c.kind ∉ [CallKind.adapter, .reopen, .decision, .assign, .reintegration, .commit .reconstruction]

instance (c : Call) : Decidable c.Outside := inferInstanceAs (Decidable (_ ∉ _))

theorem Call.of_outside {ks : List CallKind} (h : (ks.all fun k =>
      decide (k ∉ [CallKind.adapter, .reopen, .decision, .assign, .reintegration,
        .commit .reconstruction])) = true) :
    Call.Of Call.Outside ks :=
  fun c hc => of_decide_eq_true (List.all_eq_true.mp h c.kind hc)

theorem Call.undecided_of_kind {c : Call}
    (h : c.kind ∉ [CallKind.reopen, .decision, .assign, .reintegration]) : c.Undecided := by
  have hc : Call.Of Call.Undecided [c.kind] := by
    refine Call.of_undecided ?_
    simp only [List.mem_cons, List.not_mem_nil, or_false, not_or] at h
    simp [h.1, h.2.1, h.2.2.1]
  exact hc c List.mem_cons_self

theorem Call.Outside.undecided {c : Call} (h : c.Outside) : c.Undecided :=
  Call.undecided_of_kind fun hmem => h (List.mem_cons_of_mem _ (List.mem_append_left [_] hmem))

/-- What keeps an invariant outside reconstruction, and reconstruction that keeps it as well. -/
structure Recovers (g : Setup) (T P : Trans Call Call.Res Exc σ) (I : σ → Prop) : Prop where
  out : ∀ {α : Type} {x : Handler α}, x.Uses Call.Outside → Keeps T P I x fun _ => True
  reconstruction : ∀ root, Keeps T P I (attemptReconstruction g root) fun _ => True

namespace Recovers

theorem sync (h : Recovers g T P I) (k : Sync) :
    Keeps T P I (GovernorGateway.sync k) fun _ => True :=
  h.out ((Act.uses_perform (R := Call.Res) _).mpr (by cases k <;> decide))

theorem withExclusive (h : Recovers g T P I) {x : Handler α}
    (hx : Keeps T P I x fun _ => True) :
    Keeps T P I (GovernorGateway.withExclusive x) fun _ => True :=
  Keeps.seq (h.sync _) fun _ => Keeps.seq (h.sync _) fun _ => Keeps.always hx (h.sync _)

theorem withTransaction (h : Recovers g T P I) {x : Handler α}
    (hx : Keeps T P I x fun _ => True) :
    Keeps T P I (GovernorGateway.withTransaction x) fun _ => True := by
  have hbody : Keeps T P I (x >>= fun a => GovernorGateway.sync .commit >>= fun _ => pure a)
      fun _ => True :=
    Keeps.seq hx fun a => Keeps.seq (h.sync _) fun _ => Keeps.pure trivial
  refine Keeps.seq (h.sync _) fun _ => Keeps.seq (hbody.attempt.mono fun _ _ => trivial) fun r => ?_
  cases r with
  | error e => exact Keeps.seq (h.sync _) fun _ => Keeps.raise e
  | ok a => exact Keeps.pure trivial

theorem recovery (h : Recovers g T P I) (ids : List NodeId) (event : QuarantineEvent)
    (root : NodeId) (f : ContinuityResults → Response) :
    Keeps T P I (attemptSafeContinuity g ids event >>= fun continuity =>
      attemptReconstruction g root >>= fun _ => pure (f continuity)) fun _ => True :=
  Keeps.seq (h.out (uses_attemptSafeContinuity g (Call.of_outside rfl) ids event)) fun _ =>
    Keeps.seq (h.reconstruction root) fun _ => Keeps.pure trivial

theorem designate (h : Recovers g T P I) (header : Option String) (e : DesignationEvent) :
    Keeps T P I (designatePoison g header e) fun _ => True := by
  have hread : Call.Of Call.Outside [.read] := Call.of_outside rfl
  refine Keeps.seq (h.out (uses_verifyRole g (Call.of_outside rfl) _ _)) fun claims => ?_
  refine Keeps.seq (h.out (uses_limitDesignations g (Call.of_outside rfl) _ _)) fun _ => ?_
  refine h.withExclusive (h.withTransaction ?_)
  refine Keeps.seq (h.out (uses_store hread rfl)) fun _ => ?_
  refine Keeps.seq (h.out (uses_store hread rfl)) fun _ => ?_
  refine Keeps.ite (fun _ => Keeps.pure trivial) fun _ => ?_
  refine Keeps.ite (fun _ => Keeps.pure trivial) fun _ => ?_
  refine Keeps.seq (h.out (uses_contain g (Call.of_outside rfl) _ _ _ _)) fun out => ?_
  exact h.recovery _ _ _ _

theorem detector (h : Recovers g T P I) (header : Option String) (source : String)
    (raw : RawEvent) : Keeps T P I (ingestDetectorEvent g header source raw) fun _ => True := by
  refine Keeps.seq (h.out (uses_verifyRole g (Call.of_outside rfl) _ _)) fun _ => ?_
  split
  · exact Keeps.raise _
  · refine Keeps.seq (h.out (uses_recordRawEvent (Call.of_outside rfl) _ _)) fun _ => ?_
    refine Keeps.seq (h.out (Act.uses_raiseIf _ _)) fun _ => ?_
    split
    · exact Keeps.pure trivial
    · refine Keeps.seq (h.out (uses_verifyRole g (Call.of_outside rfl) _ _)) fun claims => ?_
      refine Keeps.seq (h.out (uses_limitDesignations g (Call.of_outside rfl) _ _))
        fun _ => ?_
      refine Keeps.seq (h.withExclusive
        (h.out (uses_detectorLocked g (Call.of_outside rfl) _ _ _))) fun out => ?_
      cases out with
      | none => exact Keeps.pure trivial
      | some contained => exact h.recovery _ _ _ _

/-- **Every request keeps the invariant.** -/
theorem handle (h : Recovers g T P I) (req : Request) :
    Keeps T P I (req.handle g) fun _ => True := by
  cases req with
  | designate header e => exact h.designate header e
  | detector header source raw => exact h.detector header source raw
  | _ => exact h.out (uses_handle g _ (Call.of_outside rfl))

end Recovers

/-! ## 3. Rows that are kept -/

variable {F : List (NodeId × RepairCandidate)}

/-- While the state has `I`, no record under a key of `F` is handed out as pending, and only a write
to one of these records can end it. -/
structure Guards (T : Trans Call Call.Res Exc σ) (F : List (NodeId × RepairCandidate))
    (I : σ → Prop) : Prop where
  read : ∀ {s rcs s'}, I s → T (.store .getRepairCandidates) s (.ok rcs) s' →
    ∀ row ∈ rcs, row.2.disposition = .pendingReconstruction → row.1 ∉ F.map Prod.fst
  keep : ∀ {c : Call} {s r s'}, (∀ x, c.Decides x → x ∉ F.map Prod.fst) → I s → T c s r s' → I s'

namespace Guards

/-- A part that writes no record. -/
theorem undecided (h : Guards T F I) {x : Handler α} (hx : x.Uses Call.Undecided) :
    Keeps T Trans.any I x fun _ => True := by
  intro s hs
  refine Act.Sat.mono (Prog.Uses.sat hx (fun c hc s r s' ht hI => ⟨trivial, ?_⟩) hs) ?_
  · exact h.keep (fun x hx => absurd hx (hc x)) hI ht
  · rintro (e | a) s' hs'
    · exact hs'
    · exact ⟨hs', trivial⟩

/-- Reconstruction writes to records it has read as pending. -/
theorem reconstruction (h : Guards T F I) (root : NodeId) :
    Keeps T Trans.any I (attemptReconstruction g root) fun _ => True := by
  refine Keeps.bind (R := fun rcs => ∀ row ∈ rcs,
    row.2.disposition = .pendingReconstruction → row.1 ∉ F.map Prod.fst) ?_ fun rcs hrcs => ?_
  · refine Keeps.call fun s r s' hs ht => ⟨trivial, h.keep (c := .store .getRepairCandidates)
      (fun _ hx => False.elim hx) hs ht, ?_⟩
    rintro rcs rfl
    exact h.read hs ht
  · refine Keeps.seq (Keeps.fold rcs (fun row hrow cache _ => ?_) trivial) fun _ => Keeps.pure trivial
    by_cases hp : row.2.disposition = .pendingReconstruction
    · intro s hs
      refine Act.Sat.mono (Prog.Uses.sat (uses_reconstructOne_only g root cache row)
        (fun c hc s r s' ht hI => ⟨trivial, ?_⟩) hs) ?_
      · refine h.keep (fun x hx => ?_) hI ht
        rw [hc x hx]
        exact hrcs row hrow hp
      · rintro (e | a) s' hs'
        · exact hs'
        · exact ⟨hs', trivial⟩
    · rw [reconstructOne, if_pos hp]
      exact Keeps.pure trivial

/-- **Every request keeps the rows.** -/
theorem handle (h : Guards T F I) (req : Request) :
    Keeps T Trans.any I (req.handle g) fun _ => True :=
  Recovers.handle
    { out := fun hx => h.undecided (hx.mono fun _ hc => hc.undecided)
      reconstruction := h.reconstruction } req

end Guards

end GovernorGateway
