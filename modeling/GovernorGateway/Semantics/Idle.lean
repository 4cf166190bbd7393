/-
# Recovery that has nothing to do

Continuity and reconstruction are called after every containment, and mostly find nothing to serve
and nothing to rebuild.  `Db.Serves` and `Db.Rebuilds` say, on the database they read, when they do;
otherwise they only read and ask, and the database is as it was (`idle_continuity`,
`idle_reconstruction`).

This matters because everything else they do takes the shared lock or assigns the adapter key.
-/
import GovernorGateway.Semantics.Continuity

namespace GovernorGateway

open Effects

/-! ## 1. When there is something to do -/

/-- Some critical node has a checkpoint to replay or a substitute to use, for a containment at this
time. -/
def Db.Serves (g : Setup) (ids : List NodeId) (containment : String) (db : Db) : Prop :=
  g.settings.continuityEnabled = true ∧ ∃ dep ∈ db.getCriticalDependents ids,
    (∃ cp ∈ db.checkpoints, db.snapshot.replayable dep containment cp = true) ∨
      ∃ x ∈ db.snapshot.relevantTainted dep, db.snapshot.usable containment x = true

instance (g : Setup) (ids : List NodeId) (containment : String) (db : Db) :
    Decidable (db.Serves g ids containment) :=
  inferInstanceAs (Decidable (_ ∧ _))

/-- Some stored compaction is waiting for its reconstruction. -/
def Db.Rebuilds (db : Db) : Prop :=
  ∃ row ∈ db.repairCandidates, row.2.disposition = .pendingReconstruction ∧ row.1 ∈ db.nodeIds

instance (db : Db) : Decidable db.Rebuilds :=
  inferInstanceAs (Decidable (∃ row ∈ _, _))

variable {σ : Type} {g : Setup} {T P : Trans Call Call.Res Exc σ} {db : σ → Db} {I : σ → Prop}

/-- Reads, questions and assignments to what was read meet their obligation and keep `I`. -/
def Reading (T P : Trans Call Call.Res Exc σ) (I : σ → Prop) : Prop :=
  ∀ c s r s', c.kind = .read ∨ c.kind = .ext ∨ c.kind = .assign → I s → T c s r s' →
    P c s r s' ∧ I s'

/-! ## 2. Reads in front of the rest of a handler -/

section Reads

variable {β : Type} {s : σ}

theorem Solo.reading_bind (h : Solo g T db) (hI : Reading T P I) {c : Store}
    {f : c.Res → Handler β} {Q : Except Exc β → σ → Prop} {a : c.Res} (hc : c.kind = .read)
    (hread : c.exec g (db s) = (.ok a, db s)) (hs : I s)
    (hok : ∀ s', I s' → db s' = db s → Act.Sat T P (f a) Q s') :
    Act.Sat T P (GovernorGateway.store c >>= f) Q s := by
  rw [Act.sat_bind]
  intro r s' ht
  obtain ⟨hp, hs'⟩ := hI (.store c) s r s' (Or.inl hc) hs ht
  refine ⟨hp, ?_⟩
  obtain ⟨rfl, hdb⟩ := h.store ht
  rw [hread] at hdb ⊢
  exact hok s' hs' hdb

theorem Solo.asking_bind (h : Solo g T db) (hI : Reading T P I) {e : Ext}
    {f : e.Res → Handler β} {F : β → σ → Prop} {G : Exc → σ → Prop} (he : e.kind = .ext) (hs : I s)
    (hok : ∀ a s', e.Lawful (.ok a) → I s' → db s' = db s → Act.Sat T P (f a) (onOk F G) s')
    (herr : ∀ x s', I s' → db s' = db s → G x s') :
    Act.Sat T P (GovernorGateway.ext e >>= f) (onOk F G) s := by
  rw [Act.sat_bind]
  intro r s' ht
  obtain ⟨hp, hs'⟩ := hI (.ext e) s r s' (Or.inr (Or.inl he)) hs ht
  refine ⟨hp, ?_⟩
  obtain ⟨hlaw, hdb⟩ := h.ext ht
  cases r with
  | error x => exact herr x s' hs' hdb
  | ok a => exact hok a s' hlaw hs' hdb

end Reads

/-! ## 3. Continuity -/

/-- A critical node with nothing to serve it is escalated. -/
theorem idle_serveCritical (h : Solo g T db) (hI : Reading T P I) {d : Db} {ids : List NodeId}
    {containment : String} (hidle : ¬ d.Serves g ids containment)
    (hon : g.settings.continuityEnabled = true) {dep : Db.CriticalDependent}
    (hdep : dep ∈ d.getCriticalDependents ids) (results : ContinuityResults) {s : σ} (hs : I s)
    (hd : db s = d) :
    Act.Sat T P (serveCritical g d.snapshot containment results dep)
      (onOk (fun _ s' => I s' ∧ db s' = d) fun _ s' => I s' ∧ db s' = d) s := by
  have hnone : ¬ ((∃ cp ∈ d.checkpoints, d.snapshot.replayable dep containment cp = true) ∨
      ∃ x ∈ d.snapshot.relevantTainted dep, d.snapshot.usable containment x = true) :=
    fun hserve => hidle ⟨hon, dep, hdep, hserve⟩
  rw [not_or] at hnone
  have hreplay : d.snapshot.checkpoints.find? (d.snapshot.replayable dep containment) = none := by
    rw [List.find?_eq_none]
    intro cp hcp hyes
    exact hnone.1 ⟨cp, hcp, hyes⟩
  rw [serveCritical, hreplay]
  refine h.asking_bind hI rfl hs (fun order s' hlaw hs' hdb => ?_) fun _ s' hs' hdb => ⟨hs', hdb.trans hd⟩
  cases hsub : order.findSomeM? (d.snapshot.substitutable containment) with
  | error e => exact ⟨hs', hdb.trans hd⟩
  | ok found =>
    cases found with
    | none => exact ⟨hs', hdb.trans hd⟩
    | some found =>
      obtain ⟨x, hx, hfound⟩ := exists_of_findSomeM?_ok hsub
      obtain ⟨ys, hys, hperm⟩ := hlaw
      obtain rfl := Except.ok.inj hys
      exact absurd ⟨x, hperm.subset hx, Snapshot.usable_iff.mpr ⟨found, hfound⟩⟩ hnone.2

/-- **Continuity with nobody to serve** only reads. -/
theorem idle_continuity (h : Solo g T db) (hI : Reading T P I) {ids : List NodeId}
    {event : QuarantineEvent} {s : σ} (hs : I s)
    (hidle : ¬ (db s).Serves g ids event.detectedAtUtc) :
    Act.Sat T P (attemptSafeContinuity g ids event)
      (onOk (fun _ s' => I s' ∧ db s' = db s) fun _ s' => I s' ∧ db s' = db s) s := by
  unfold attemptSafeContinuity
  by_cases hon : g.settings.continuityEnabled = true
  · rw [if_neg (by simp [hon])]
    refine h.reading_bind hI rfl rfl hs fun s₁ hs₁ h₁ => ?_
    split
    · exact ⟨hs₁, h₁⟩
    · refine h.reading_bind hI rfl rfl hs₁ fun s₂ hs₂ h₂ => ?_
      refine h.reading_bind hI rfl rfl hs₂ fun s₃ hs₃ h₃ => ?_
      refine h.reading_bind hI rfl rfl hs₃ fun s₄ hs₄ h₄ => ?_
      refine h.reading_bind hI rfl rfl hs₄ fun s₅ hs₅ h₅ => ?_
      rw [h₄, h₃, h₂, h₁]
      have h₅' : db s₅ = db s := by rw [h₅, h₄, h₃, h₂, h₁]
      refine Act.sat_fold (I := fun _ s' => I s' ∧ db s' = db s)
        (X := fun _ s' => I s' ∧ db s' = db s) _ ?_ ⟨hs₅, h₅'⟩
      rintro dep hdep results s' ⟨hs', hdb⟩
      exact idle_serveCritical h hI hidle hon hdep results hs' hdb
  · rw [if_pos (by simpa using hon)]
    exact ⟨hs, rfl⟩

/-! ## 4. Reconstruction -/

theorem idle_reconstructOne (h : Solo g T db) (hI : Reading T P I) {d : Db} (root : NodeId)
    {row : NodeId × RepairCandidate}
    (hrow : row.2.disposition = .pendingReconstruction → row.1 ∉ d.nodeIds)
    {cache : Option (List (NodeId × Payload) × List NodeId)}
    (hcache : ∀ c, cache = some c → c.1 = d.getDag) {s : σ} (hs : I s) (hd : db s = d) :
    Act.Sat T P (reconstructOne g root cache row)
      (onOk (fun cache' s' => (I s' ∧ db s' = d) ∧ ∀ c, cache' = some c → c.1 = d.getDag)
        fun _ s' => I s' ∧ db s' = d) s := by
  unfold reconstructOne
  split
  · exact ⟨⟨hs, hd⟩, hcache⟩
  · rename_i hp
    have hmissing : Keyed.lookup Prod.fst d.getDag row.1 = none := by
      rw [Keyed.lookup_eq_none, Db.getDag, List.map_map]
      exact hrow (by simpa using hp)
    -- the node is missing: the round ends in its `except` clause
    have hrest : ∀ (c : List (NodeId × Payload) × List NodeId) (s' : σ), c.1 = d.getDag → I s' →
        db s' = d →
        Act.Sat T P (assignFailure row.1 row.2 (.other "KeyError") >>= fun _ => pure (some c))
          (onOk (fun cache' s' => (I s' ∧ db s' = d) ∧ ∀ c, cache' = some c → c.1 = d.getDag)
            fun _ s' => I s' ∧ db s' = d) s' := by
      intro c s' hc hs' hd'
      rw [Act.sat_bind]
      intro r s₁ ht
      obtain ⟨hP, hs₁⟩ := hI _ s' r s₁ (Or.inr (Or.inr rfl)) hs' ht
      obtain ⟨rfl, h₁⟩ := h.store ht
      refine ⟨hP, ⟨hs₁, h₁.trans hd'⟩, ?_⟩
      rintro c' hc'
      obtain rfl := Option.some.inj hc'
      exact hc
    have hraise : ∀ c : List (NodeId × Payload) × List NodeId, c.1 = d.getDag →
        reconstructPending g root row.1 row.2 c = Act.raise (.other "KeyError") := by
      intro c hc
      rw [reconstructPending, hc, hmissing]
    cases cache with
    | some c =>
      change Act.Sat T P ((reconstructPending g root row.1 row.2 c).attempt >>= _) _ s
      rw [hraise c (hcache c rfl)]
      exact hrest c s (hcache c rfl) hs hd
    | none =>
      change Act.Sat T P (readCache.attempt >>= _) _ s
      rw [Act.sat_bind, Act.sat_attempt, readCache]
      refine h.reading_bind hI rfl rfl hs fun s₁ hs₁ h₁ => ?_
      refine h.reading_bind hI rfl rfl hs₁ fun s₂ hs₂ h₂ => ?_
      have hc : ((db s).getDag, (db s₁).ledger).1 = d.getDag := by rw [hd]
      change Act.Sat T P ((reconstructPending g root row.1 row.2
        ((db s).getDag, (db s₁).ledger)).attempt >>= _) _ s₂
      rw [hraise _ hc]
      exact hrest _ s₂ hc hs₂ (by rw [h₂, h₁, hd])

/-- **Reconstruction with nothing to rebuild** only reads. -/
theorem idle_reconstruction (h : Solo g T db) (hI : Reading T P I) (root : NodeId) {s : σ}
    (hs : I s) (hidle : ¬ (db s).Rebuilds) :
    Act.Sat T P (attemptReconstruction g root)
      (onOk (fun _ s' => I s' ∧ db s' = db s) fun _ s' => I s' ∧ db s' = db s) s := by
  unfold attemptReconstruction
  refine h.reading_bind hI rfl rfl hs fun s₁ hs₁ h₁ => ?_
  rw [Act.sat_bind]
  refine (Act.sat_fold
    (I := fun cache s' => (I s' ∧ db s' = db s) ∧ ∀ c, cache = some c → c.1 = (db s).getDag)
    (X := fun _ s' => I s' ∧ db s' = db s) _ ?_ ⟨⟨hs₁, h₁⟩, by simp⟩).mono ?_
  · rintro row hrow cache s' ⟨⟨hs', hd⟩, hcache⟩
    exact idle_reconstructOne h hI root (fun hp hmem => hidle ⟨row, hrow, hp, hmem⟩) hcache hs' hd
  · rintro (e | cache) s' h'
    · exact h'
    · exact h'.1

/-! ## 5. Containment, with the call that ends it -/

/-- A containment that succeeds ends with its ledger write. -/
theorem sat_contain_apply {A : Call → Prop} (hA : Call.Of A containKinds)
    (hI : ∀ c, A c → ∀ s r s', T c s r s' → I s → P c s r s' ∧ I s') (x : NodeId)
    (identity reason : String) (source : Option String) {s : σ} (hs : I s) :
    Act.Sat T P (contain g x identity reason source)
      (onOk (fun out s' => I s' ∧ ∃ event s₁, event.designatorIdentity = some identity ∧
          event.detectorSource = source ∧
          T (.store (.applyQuarantineTransaction event out.1)) s₁ (.ok out.2) s')
        fun _ s' => I s') s := by
  refine (uses_store hA rfl).sat_bind hI hs (fun ids s₁ h₁ => ?_) fun _ _ h' => h'
  refine (uses_recurrenceHook g (hA.sub rfl) _ _).sat_bind hI h₁ (fun _ s₂ h₂ => ?_) fun _ _ h' => h'
  refine (uses_store hA rfl).sat_bind hI h₂ (fun digest s₃ h₃ => ?_) fun _ _ h' => h'
  refine (uses_ext hA _ rfl).sat_bind hI h₃ (fun eventId s₄ h₄ => ?_) fun _ _ h' => h'
  refine (uses_stampNow (hA.sub rfl)).sat_bind hI h₄ (fun detected s₅ h₅ => ?_) fun _ _ h' => h'
  rw [Act.sat_bind]
  intro r s₆ ht
  obtain ⟨hp, h₆⟩ := hI _ (hA _ (by simp [Call.kind, Store.kind])) _ _ _ ht h₅
  refine ⟨hp, ?_⟩
  cases r with
  | error e => exact h₆
  | ok event => exact ⟨h₆, _, s₅, rfl, rfl, ht⟩

end GovernorGateway
