/-
# What containment and recovery can do to the lineage

* `sat_contain`: a containment puts exactly the traversal of its root into the ledger.
* `keeps_attemptReconstruction`: reconstruction only commits candidates that passed the gate, each
  made from a pending record (`Reconstruction`).
* `keeps_attemptSafeContinuity`: continuity only commits nodes that cover nothing and whose parents
  are the clean parents of a critical node, or its declared substitute, or the fallback root
  (`ContinuityNode`).

The last two are loops with exceptions inside; they are reasoned about with `Keeps`, an invariant
of the lineage that holds however the part ends.
-/
import GovernorGateway.Semantics.Admission

namespace GovernorGateway

open Effects

variable {σ α β : Type} {g : Setup} {T P : Trans Call Call.Res Exc σ} {lin : σ → Lineage}

/-! ## 1. Containment -/

/-- **Containment**: the traversal of the root, and nothing else, enters the ledger; a containment
that fails has changed nothing. -/
theorem sat_contain (h : Acts g T lin) (hP : ∀ c s r s', c.Quiet → P c s r s') (x : NodeId)
    (identity reason : String) (source : Option String) (s : σ) {K : Prop}
    (happly : ∀ event s₁ r s', EventFor g (lin s₁) [] event → event.poisonedRootId = x →
      event.designatorIdentity = some identity → lin s₁ = lin s →
      T (.store (.applyQuarantineTransaction event event.computedBlastRadius)) s₁ r s' →
      P (.store (.applyQuarantineTransaction event event.computedBlastRadius)) s₁ r s' ∧ K) :
    Act.Sat T P (contain g x identity reason source)
      (onOk (fun out s' =>
          K ∧ out.1 = sortedSet ((lin s).traverse g.settings.maxTraversalDepth x) ∧
            lin s' = (lin s).quarantine out.1)
        fun _ s' => lin s' = lin s) s := by
  refine h.read_bind hP (by simp [Store.Loud]) ?_ fun _ _ hs' => hs'
  intro db₁ ids s₁ hdb₁ hids hs₁
  obtain rfl := Except.ok.inj hids
  refine h.quiet_bind hP (uses_recurrenceHook g (Call.of_quiet rfl) _ _) ?_ fun _ _ hs' => hs'.trans hs₁
  intro _ s₂ hs₂
  refine h.read_bind hP (by simp [Store.Loud]) ?_
    fun _ _ hs' => (hs'.trans hs₂).trans hs₁
  intro db₃ digest s₃ hdb₃ hdigest hs₃
  obtain rfl := Except.ok.inj hdigest
  have hs₃' : lin s₃ = lin s := (hs₃.trans hs₂).trans hs₁
  refine h.quiet_bind hP (quiet_ext _) ?_ fun _ _ hs' => hs'.trans hs₃'
  intro eventId s₄ hs₄
  refine h.quiet_bind hP (uses_stampNow (Call.of_quiet rfl)) ?_ fun _ _ hs' => (hs'.trans hs₄).trans hs₃'
  intro detected s₅ hs₅
  have hs₅' : lin s₅ = lin s := (hs₅.trans hs₄).trans hs₃'
  have hids : (db₁.computeBlastRadius g.settings.maxTraversalDepth x).1 =
      sortedSet ((lin s).traverse g.settings.maxTraversalDepth x) := by
    rw [← hdb₁]
    rfl
  have hledger : db₃.ledger = (lin s₅).ledger := by
    rw [hs₅', ← hs₁, ← hs₂, ← hdb₃]
  refine h.quarantine_bind (K := K) ?_ ?_ fun _ _ hs' => hs'.trans hs₅'
  · intro r s' ht
    refine happly _ s₅ r s' ⟨?_, ?_⟩ rfl rfl hs₅' ht
    · rw [hs₅']
      exact hids
    · simp only [List.append_nil]
      rw [← hledger]
      rfl
  · intro s₆ hK hs₆
    exact ⟨hK, hids, by rw [hs₆, hs₅']⟩

/-! ## 2. Invariants that hold however a part ends -/

/-- Run from a state with `I`, the part ends in one with `I`, by an exception or with a value in
`R`. -/
def Keeps (T P : Trans Call Call.Res Exc σ) (I : σ → Prop) (x : Handler α) (R : α → Prop) : Prop :=
  ∀ s, I s → Act.Sat T P x (onOk (fun a s' => I s' ∧ R a) fun _ s' => I s') s

/-- The quiet calls meet their obligation and keep `I`. -/
def Frame (T P : Trans Call Call.Res Exc σ) (I : σ → Prop) : Prop :=
  ∀ c s r s', c.Quiet → I s → T c s r s' → P c s r s' ∧ I s'

theorem Acts.frame (h : Acts g T lin) (hP : ∀ c s r s', c.Quiet → P c s r s')
    (J : Lineage → Prop) : Frame T P fun s => J (lin s) := by
  intro c s r s' hc hs ht
  refine ⟨hP c s r s' hc, ?_⟩
  change J (lin s')
  rwa [h.quiet hc ht]

/-- A call that only reads, when nothing else writes, in front of the rest of a handler. -/
theorem Solo.read_keeps {I : σ → Prop} {db : σ → Db} (h : Solo g T db) (hframe : Frame T P I)
    {c : Store} {f : c.Res → Handler β} {Q : Except Exc β → σ → Prop} {s : σ} {a : c.Res}
    (hc : ¬ c.Loud) (hread : c.exec g (db s) = (.ok a, db s)) (hs : I s)
    (hok : ∀ s', I s' → db s' = db s → Act.Sat T P (f a) Q s') :
    Act.Sat T P (GovernorGateway.store c >>= f) Q s := by
  rw [Act.sat_bind]
  intro r s' ht
  obtain ⟨hp, hI⟩ := hframe (.store c) s r s' hc hs ht
  refine ⟨hp, ?_⟩
  obtain ⟨rfl, hs'⟩ := h.store ht
  rw [hread] at hs' ⊢
  exact hok s' hI hs'

namespace Keeps

variable {I : σ → Prop}

theorem pure {R : α → Prop} {a : α} (h : R a) : Keeps T P I (Pure.pure a : Handler α) R :=
  fun _ hs => ⟨hs, h⟩

theorem raise {R : α → Prop} (e : Exc) : Keeps T P I (Act.raise e : Handler α) R :=
  fun _ hs => hs

/-- A pure result: a value or an exception. -/
theorem resume (r : Except Exc α) : Keeps T P I (Act.resume r : Handler α) fun a => r = .ok a := by
  cases r with
  | error e => exact raise e
  | ok a => exact pure rfl

theorem mono {x : Handler α} {R R' : α → Prop} (h : Keeps T P I x R) (hR : ∀ a, R a → R' a) :
    Keeps T P I x R' := by
  intro s hs
  refine (h s hs).mono ?_
  rintro (e | a) s' h'
  · exact h'
  · exact ⟨h'.1, hR a h'.2⟩

theorem bind {x : Handler α} {f : α → Handler β} {R : α → Prop} {R' : β → Prop}
    (hx : Keeps T P I x R) (hf : ∀ a, R a → Keeps T P I (f a) R') :
    Keeps T P I (x >>= f) R' := by
  intro s hs
  rw [Act.sat_bind]
  refine (hx s hs).mono ?_
  rintro (e | a) s' h'
  · exact h'
  · exact hf a h'.2 s' h'.1

/-- The parts before and after a value that does not matter. -/
theorem seq {x : Handler α} {f : α → Handler β} {R : β → Prop}
    (hx : Keeps T P I x fun _ => True) (hf : ∀ a, Keeps T P I (f a) R) :
    Keeps T P I (x >>= f) R :=
  hx.bind fun a _ => hf a

theorem quiet (h : Frame T P I) {x : Handler α} (hx : QuietPart x) :
    Keeps T P I x fun _ => True := by
  intro s hs
  refine (Prog.Uses.sat hx (fun c hc s r s' ht hs => h c s r s' hc hs ht) hs).mono ?_
  rintro (e | a) s' hs'
  · exact hs'
  · exact ⟨hs', trivial⟩

/-- A call, with what its transitions say about its answer. -/
theorem call {c : Call} {R : c.Res → Prop}
    (h : ∀ s r s', I s → T c s r s' → P c s r s' ∧ I s' ∧ ∀ a, r = .ok a → R a) :
    Keeps T P I (Act.perform (R := Call.Res) c) R := by
  intro s hs r s' ht
  obtain ⟨hp, hj, hr⟩ := h s r s' hs ht
  refine ⟨hp, ?_⟩
  cases r with
  | error e => exact hj
  | ok a => exact ⟨hj, hr a rfl⟩

theorem attempt {x : Handler α} {R : α → Prop} (hx : Keeps T P I x R) :
    Keeps T P I x.attempt fun r => ∀ a, r = .ok a → R a := by
  intro s hs
  rw [Act.sat_attempt]
  refine (hx s hs).mono ?_
  rintro (e | a) s' h'
  · exact ⟨h', fun a ha => absurd ha (by simp)⟩
  · exact ⟨h'.1, fun b hb => by
      obtain rfl := Except.ok.inj hb
      exact h'.2⟩

theorem always {x : Handler α} {fin : Handler Unit} {R : α → Prop} (hx : Keeps T P I x R)
    (hfin : Keeps T P I fin fun _ => True) : Keeps T P I (x.always fin) R := by
  intro s hs
  rw [Act.sat_always]
  refine (hx s hs).mono ?_
  rintro (e | a) s' h'
  · refine (hfin s' h').mono ?_
    rintro (e' | u) s'' h''
    · exact h''
    · exact h''.1
  · refine (hfin s' h'.1).mono ?_
    rintro (e' | u) s'' h''
    · exact h''
    · exact ⟨h''.1, h'.2⟩

theorem fold {f : α → β → Handler α} {R : α → Prop} (xs : List β)
    (hf : ∀ x ∈ xs, ∀ a, R a → Keeps T P I (f a x) R) {a : α} (ha : R a) :
    Keeps T P I (Act.fold f xs a) R := by
  intro s hs
  exact Act.sat_fold (I := fun a s => I s ∧ R a) xs
    (fun x hx a s h => hf x hx a h.2 s h.1) ⟨hs, ha⟩

theorem ite {c : Prop} [Decidable c] {x y : Handler α} {R : α → Prop}
    (hx : c → Keeps T P I x R) (hy : ¬ c → Keeps T P I y R) :
    Keeps T P I (if c then x else y) R := by
  split
  · exact hx ‹_›
  · exact hy ‹_›

end Keeps

/-! ## 3. Reconstruction -/

/-- Where a candidate comes from: it is one the recovery adapter sent for the frontier (`A`), or one
the gateway made, whose parents are the frontier and whose id is generated (`U` is what uuids are
drawn from). -/
def CandidateFrom (g : Setup) (U : String → Prop) (A : List NodeId → Payload → Prop)
    (rc : RepairCandidate) (c : Payload) : Prop :=
  (g.settings.hasAdapter = true ∧ A rc.frontier c) ∨
    (g.settings.hasAdapter = false ∧ (∀ y, y ∈ c.parentIds ↔ y ∈ rc.frontier) ∧
      ∃ u, U u ∧ c.payloadId = "reconstructed-" ++ u)

/-- The three checks of the gate on a candidate for a frontier, under an adapter key. -/
structure Passes (g : Setup) (key : Option String) (frontier : List NodeId) (c : Payload) : Prop where
  signature : verifyCryptographicSignature g.env c = true
  identity : key.getD "" ≠ "" ∧ c.identityId = key
  covers : ∀ y, y ∈ c.covers ↔ y ∈ frontier

/-- A candidate that passed the gate for a pending record; `V` is what the adapter key can be. -/
structure Reconstruction (g : Setup) (U : String → Prop) (V : Option String → Prop)
    (A : List NodeId → Payload → Prop) (rc : RepairCandidate) (c : Payload) : Prop where
  source : CandidateFrom g U A rc c
  signature : verifyCryptographicSignature g.env c = true
  identity : V c.identityId ∧ c.identityId.getD "" ≠ ""
  covers : ∀ y, y ∈ c.covers ↔ y ∈ rc.frontier

section Reconstruction

variable {I : σ → Prop} {U : String → Prop} {V : Option String → Prop}
  {A : List NodeId → Payload → Prop} {Φ : RepairCandidate → Prop}

/-- It passed under the key that was read. -/
theorem Reconstruction.passes {rc : RepairCandidate} {c : Payload} (h : Reconstruction g U V A rc c) :
    Passes g c.identityId rc.frontier c :=
  ⟨h.signature, ⟨h.identity.2, rfl⟩, h.covers⟩

/-- What reconstruction may be asked to show, and may use, about its calls while the state has
`I`. -/
structure ReconstructionCalls (g : Setup) (T P : Trans Call Call.Res Exc σ) (I : σ → Prop)
    (U : String → Prop) (V : Option String → Prop) (A : List NodeId → Payload → Prop)
    (Φ : RepairCandidate → Prop) : Prop where
  frame : Frame T P I
  uuid : ∀ s u s', T (.ext .uuid) s (.ok u) s' → U u
  key : ∀ s key s', I s → T .getAdapterKey s (.ok key) s' → V key
  adapter : ∀ req c s s', I s → T (.ext (.reconstruct req)) s (.ok (some c)) s' →
    A req.requestedFrontier c
  commit : ∀ rc c, Φ rc → Reconstruction g U V A rc c →
    Keeps T P I (commitShared .reconstruction c) fun _ => True

/-- The same, one step earlier: what is asked for is the whole of what follows a candidate that
passed the gate. -/
structure ReintegrationCalls (g : Setup) (T P : Trans Call Call.Res Exc σ) (I : σ → Prop)
    (U : String → Prop) (V : Option String → Prop) (A : List NodeId → Payload → Prop)
    (Φ : RepairCandidate → Prop) : Prop where
  frame : Frame T P I
  uuid : ∀ s u s', T (.ext .uuid) s (.ok u) s' → U u
  key : ∀ s key s', I s → T .getAdapterKey s (.ok key) s' → V key
  adapter : ∀ req c s s', I s → T (.ext (.reconstruct req)) s (.ok (some c)) s' →
    A req.requestedFrontier c
  reintegrate : ∀ x rc c, Φ rc → Reconstruction g U V A rc c →
    Keeps T P I (reintegrate g x rc c) fun _ => True

theorem keeps_reintegrate (hc : ReconstructionCalls g T P I U V A Φ) (x : NodeId)
    {rc : RepairCandidate} {c : Payload} (hrc : Φ rc) (hcand : Reconstruction g U V A rc c) :
    Keeps T P I (reintegrate g x rc c) fun _ => True := by
  have hstore : ∀ {k : Store}, ¬ k.Loud → Keeps T P I (store k) fun _ => True :=
    fun hk => Keeps.quiet hc.frame (quiet_store hk)
  refine Keeps.seq (Keeps.quiet hc.frame (uses_gateEvidence (Call.of_quiet rfl))) fun evidence => ?_
  refine Keeps.seq (hstore (by simp [Store.Loud])) fun pre => ?_
  refine Keeps.seq (hc.commit rc c hrc hcand) fun _ => ?_
  refine Keeps.seq (hstore (by simp [Store.Loud])) fun post => ?_
  refine Keeps.seq (Keeps.quiet hc.frame (quiet_ext _)) fun t => ?_
  refine Keeps.seq (hstore (by simp [Store.Loud])) fun _ => ?_
  refine Keeps.seq (Keeps.quiet hc.frame (uses_stampNow (Call.of_quiet rfl))) fun recorded => ?_
  refine Keeps.seq (hstore (by simp [Store.Loud])) fun _ => ?_
  exact hstore (by simp [Store.Loud])

theorem ReconstructionCalls.reintegration (hc : ReconstructionCalls g T P I U V A Φ) :
    ReintegrationCalls g T P I U V A Φ where
  frame := hc.frame
  uuid := hc.uuid
  key := hc.key
  adapter := hc.adapter
  reintegrate := fun x _ _ hrc hcand => keeps_reintegrate hc x hrc hcand

theorem keeps_uuid (h : Frame T P I) (hU : ∀ s u s', T (.ext .uuid) s (.ok u) s' → U u) :
    Keeps T P I (ext .uuid) U := by
  refine Keeps.call (c := .ext .uuid) ?_
  intro s r s' hs ht
  obtain ⟨hp, hs'⟩ := h _ _ _ _ (by trivial) hs ht
  refine ⟨hp, hs', ?_⟩
  rintro u rfl
  exact hU s u s' ht

theorem keeps_inlineCandidate (hc : ReintegrationCalls g T P I U V A Φ)
    (hadapter : g.settings.hasAdapter = false) (rc : RepairCandidate) :
    Keeps T P I (inlineCandidate g rc) (CandidateFrom g U A rc) := by
  refine Keeps.seq (Keeps.quiet hc.frame (quiet_ext _)) fun key => ?_
  refine Keeps.bind (keeps_uuid hc.frame hc.uuid) fun u hu => ?_
  refine Keeps.seq (Keeps.quiet hc.frame (quiet_ext _)) fun signature => ?_
  refine Keeps.seq (Keeps.quiet hc.frame ?_) fun _ => Keeps.pure ?_
  · exact (Act.uses_perform (R := Call.Res) (Call.setAdapterKey key)).mpr trivial
  · refine Or.inr ⟨hadapter, ?_, u, hu, rfl⟩
    intro y
    simp [Payload.parentIds]

theorem keeps_reconstructionCandidate (hc : ReintegrationCalls g T P I U V A Φ) (root : NodeId)
    (rc : RepairCandidate) (dag : List (NodeId × Payload)) (ledger covers : List NodeId) :
    Keeps T P I (reconstructionCandidate g root rc dag ledger covers)
      fun c => ∀ p, c = some p → CandidateFrom g U A rc p := by
  unfold reconstructionCandidate
  cases hadapter : g.settings.hasAdapter with
  | true =>
    refine Keeps.call (c := .ext _) ?_
    intro s r s' hs ht
    obtain ⟨hp, hs'⟩ := hc.frame _ _ _ _ (by trivial) hs ht
    refine ⟨hp, hs', ?_⟩
    rintro a rfl p rfl
    exact Or.inl ⟨hadapter, hc.adapter _ p s s' hs ht⟩
  | false =>
    refine Keeps.bind (keeps_inlineCandidate hc hadapter rc) fun c hcand => Keeps.pure ?_
    rintro p hp
    obtain rfl := Option.some.inj hp
    exact hcand

theorem keeps_gate (hc : ReintegrationCalls g T P I U V A Φ) (x : NodeId) {rc : RepairCandidate}
    (hrc : Φ rc) {c : Option Payload} (hcand : ∀ p, c = some p → CandidateFrom g U A rc p) :
    Keeps T P I (gate g x rc c) fun _ => True := by
  have hgive : ∀ reason, Keeps T P I (giveUp x rc reason) fun _ => True :=
    fun _ => Keeps.quiet hc.frame (quiet_store (by simp [Store.Loud]))
  cases c with
  | none => exact hgive _
  | some p =>
    refine Keeps.ite (fun _ => hgive _) fun hsig => ?_
    refine Keeps.bind (R := V) (Keeps.call (c := .getAdapterKey) ?_) fun key hkey => ?_
    · intro s r s' hs ht
      obtain ⟨hp, hs'⟩ := hc.frame _ _ _ _ (by trivial) hs ht
      refine ⟨hp, hs', ?_⟩
      rintro key rfl
      exact hc.key s key s' hs ht
    refine Keeps.ite (fun _ => hgive _) fun hid => Keeps.ite (fun _ => hgive _) fun hcov => ?_
    rw [not_or, not_not] at hid
    rw [not_or, not_not, not_not] at hcov
    refine hc.reintegrate x rc p hrc ⟨hcand p rfl, by simpa using hsig, ?_,
      fun y => ⟨hcov.1 y, hcov.2 y⟩⟩
    rw [hid.2]
    exact ⟨hkey, hid.1⟩

theorem keeps_reconstructOne (hc : ReintegrationCalls g T P I U V A Φ) (root : NodeId)
    (cache : Option (List (NodeId × Payload) × List NodeId)) (row : NodeId × RepairCandidate)
    (hrow : row.2.disposition = .pendingReconstruction → Φ row.2) :
    Keeps T P I (reconstructOne g root cache row) fun _ => True := by
  have hread : QuietPart readCache :=
    Act.uses_bind (quiet_store (by simp [Store.Loud])) fun _ =>
      Act.uses_bind (quiet_store (by simp [Store.Loud])) fun _ => Act.uses_pure _
  have hpending : ∀ c, row.2.disposition = .pendingReconstruction →
      Keeps T P I (reconstructPending g root row.1 row.2 c) fun _ => True := by
    intro c hp
    unfold reconstructPending
    split
    · exact Keeps.raise _
    · exact Keeps.bind (keeps_reconstructionCandidate hc root row.2 _ _ _) fun cand hcand =>
        keeps_gate hc row.1 (hrow hp) hcand
  have hfailure : ∀ e, Keeps T P I (assignFailure row.1 row.2 e) fun _ => True :=
    fun _ => Keeps.quiet hc.frame (quiet_store (by simp [Store.Loud]))
  unfold reconstructOne
  refine Keeps.ite (fun _ => Keeps.pure trivial) fun hp => ?_
  rw [ne_eq, not_not] at hp
  refine Keeps.seq ?_ fun read => ?_
  · cases cache with
    | some c => exact Keeps.pure trivial
    | none => exact Keeps.quiet hc.frame (Act.uses_attempt hread)
  · cases read with
    | error e => exact Keeps.seq (hfailure e) fun _ => Keeps.pure trivial
    | ok c =>
      refine Keeps.seq ((hpending c hp).attempt.mono fun _ _ => trivial) fun r => ?_
      cases r with
      | error e => exact Keeps.seq (hfailure e) fun _ => Keeps.pure trivial
      | ok u => exact Keeps.pure trivial

/-- **Reconstruction** does nothing that matters but with candidates that pass the gate for the
pending records it read. -/
theorem keeps_attemptReconstruction_gate (hc : ReintegrationCalls g T P I U V A Φ) (root : NodeId)
    (hrcs : ∀ s rcs s', I s → T (.store .getRepairCandidates) s (.ok rcs) s' →
      ∀ row ∈ rcs, row.2.disposition = .pendingReconstruction → Φ row.2) :
    Keeps T P I (attemptReconstruction g root) fun _ => True := by
  refine Keeps.bind (R := fun rcs => ∀ row ∈ rcs,
    row.2.disposition = .pendingReconstruction → Φ row.2) (Keeps.call (c := .store _) ?_) ?_
  · intro s r s' hs ht
    obtain ⟨hp, hs'⟩ := hc.frame _ _ _ _ (by simp [Store.Loud]) hs ht
    refine ⟨hp, hs', ?_⟩
    rintro rcs rfl
    exact hrcs s rcs s' hs ht
  · intro rcs hrows
    refine Keeps.seq (Keeps.fold rcs (fun row hrow cache _ => ?_) trivial) fun _ =>
      Keeps.pure trivial
    exact keeps_reconstructOne hc root cache row (hrows row hrow)

/-- **Reconstruction** commits nothing but candidates for the pending records it read. -/
theorem keeps_attemptReconstruction (hc : ReconstructionCalls g T P I U V A Φ) (root : NodeId)
    (hrcs : ∀ s rcs s', I s → T (.store .getRepairCandidates) s (.ok rcs) s' →
      ∀ row ∈ rcs, row.2.disposition = .pendingReconstruction → Φ row.2) :
    Keeps T P I (attemptReconstruction g root) fun _ => True :=
  keeps_attemptReconstruction_gate hc.reintegration root hrcs

end Reconstruction

end GovernorGateway
