/-
# Crashes

The process may die at any moment: in the middle of a transaction, between two calls of a handler,
or with forty handlers under way.  What is left is the database as it was COMMITTED; the lock, the
open transaction and the programs are gone, and the gateway that is started next serves other
requests.

* `acknowledged_last`: what a request was told is true from then on.  If it was answered that its
  submission is stored, its node contained, its declaration recorded, then that is so in every later
  state, whatever crashes in between.
* `books_survive`: the ledger is explained by the records (`Explained`) in every state of a life of
  crashes, and what is committed only grows.

For the first each task keeps a `Memo` of what its calls have shown it.  What they show inside a
transaction it knows of its copy, and of what is committed only after the `COMMIT`.
-/
import GovernorGateway.Effects.Crash
import GovernorGateway.Properties.Durable
import GovernorGateway.Properties.Explained

namespace GovernorGateway

open Effects

/-! ## 1. Facts -/

/-- What a request can be told. -/
inductive Fact where
  | node (x : NodeId)
  | quarantined (x : NodeId)
  | checkpoint (id : String)
  | substitute (target : NodeId)
  | effect (key : String)
  | exposure (id : String)
  | calibration (runId : String)

namespace Fact

def Holds (db : Db) : Fact → Prop
  | .node x => x ∈ db.nodeIds
  | .quarantined x => x ∈ db.ledger
  | .checkpoint id => id ∈ db.checkpoints.map Checkpoint.checkpointId
  | .substitute target => target ∈ db.substituteDeclarations.map SubstituteDeclaration.targetNodeId
  | .effect key => key ∈ db.externalEffects.map ExternalEffect.idempotencyKey
  | .exposure id => id ∈ db.continuityExposures.map ContinuityExposure.exposureId
  | .calibration runId => runId ∈ db.calibrationRuns.map CalibrationRun.runId

/-- A fact stays true. -/
theorem Holds.grow {f : Fact} {db db' : Db} (h : f.Holds db) (hgrows : db.Grows db') : f.Holds db' := by
  cases f with
  | node x => exact (hgrows.nodes.map NodeRow.nodeId).subset h
  | quarantined x => exact hgrows.ledger.subset h
  | checkpoint id => exact hgrows.checkpoints id h
  | substitute target => exact hgrows.substituteDeclarations target h
  | effect key => exact hgrows.externalEffects key h
  | exposure id => exact (hgrows.continuityExposures.map ContinuityExposure.exposureId).subset h
  | calibration runId => exact hgrows.calibrationRuns runId h

end Fact

/-- What the answer of a call shows. -/
def Store.Shows : (c : Store) → Except Exc c.Res → Fact → Prop
  | .commitNode _ p, .ok _, f => f = .node p.payloadId
  | .applyQuarantineTransaction _ ids, .ok _, f => ∃ x ∈ ids, f = .quarantined x
  | .areQuarantined ids, .ok quarantined, f => ∃ x ∈ ids, quarantined x = true ∧ f = .quarantined x
  | .addCheckpoint c, .ok _, f => f = .checkpoint c.checkpointId
  | .addSubstituteDeclaration d, .ok _, f => f = .substitute d.targetNodeId
  | .addExternalEffect key _ _ _, .ok _, f => f = .effect key
  | .recordContinuityExposure e, .ok _, f => f = .exposure e.exposureId
  | .recordCalibrationRun r, .ok _, f => f = .calibration r.runId
  | _, _, _ => False

/-- A radius has its root. -/
def Store.Rooted : (c : Store) → Except Exc c.Res → Prop
  | .computeBlastRadius root, .ok ids => root ∈ ids
  | _, _ => True

section Calls

variable (g : Setup) (db : Db)

/-- **What is shown is so.** -/
theorem Store.holds_of_shows (c : Store) {f : Fact} (h : c.Shows (c.exec g db).1 f) :
    f.Holds (c.exec g db).2 := by
  cases c with
  | commitNode site p =>
    obtain rfl := h
    exact Lineage.mem_nodeIds_commitNode.mpr (Or.inr rfl)
  | applyQuarantineTransaction event ids =>
    obtain ⟨x, hx, rfl⟩ := h
    exact Lineage.mem_ledger_quarantine.mpr (Or.inr hx)
  | areQuarantined ids =>
    obtain ⟨x, -, hq, rfl⟩ := h
    have hmem : x ∈ ids ∧ x ∈ db.ledger := by simpa [Db.areQuarantined] using hq
    exact hmem.2
  | addCheckpoint c =>
    obtain rfl := h
    exact Keyed.mem_keys_insertOrReplace.mpr (Or.inr rfl)
  | addSubstituteDeclaration d =>
    obtain rfl := h
    exact Keyed.mem_keys_insertOrReplace.mpr (Or.inr rfl)
  | addExternalEffect key x type now =>
    obtain rfl := h
    exact Keyed.mem_keys_insertOrReplace.mpr (Or.inr rfl)
  | recordContinuityExposure e =>
    obtain rfl := h
    exact Keyed.mem_keys_insertOrIgnore.mpr (Or.inr rfl)
  | recordCalibrationRun r =>
    obtain rfl := h
    exact Keyed.mem_keys_insertOrReplace.mpr (Or.inr rfl)
  | _ => exact absurd h (by simp [Store.Shows])

theorem Store.rooted_exec (c : Store) : c.Rooted (c.exec g db).1 := by
  cases c with
  | computeBlastRadius root =>
    change root ∈ (db.computeBlastRadius g.settings.maxTraversalDepth root).1
    rw [Db.computeBlastRadius, mem_sortedSet]
    exact Lineage.root_mem_traverse _ root db.toLineage
  | _ => trivial

theorem Store.not_shows_error (c : Store) (e : Exc) (f : Fact) : ¬ c.Shows (.error e) f := by
  cases c <;> simp [Store.Shows]

theorem Store.rooted_error (c : Store) (e : Exc) : c.Rooted (.error e) := by
  cases c <;> trivial

end Calls

/-! ## 2. What a task knows -/

/-- The facts a task has been shown: in its transaction, of its copy; of what is committed. -/
structure Memo where
  inTx : Bool := false
  mine : Fact → Prop := fun _ => False
  known : Fact → Prop := fun _ => False

namespace Memo

/-- What it knows of the database it works on. -/
def facts (l : Memo) : Fact → Prop := if l.inTx then l.mine else l.known

def learn (l : Memo) (new : Fact → Prop) : Memo :=
  if l.inTx then { l with mine := fun f => l.mine f ∨ new f }
  else { l with known := fun f => l.known f ∨ new f }

def Step : Trans Call Call.Res Exc Memo
  | .store c, l, r, l' => c.Rooted r ∧ l' = l.learn (c.Shows r)
  | .sync .begin, l, r, l' =>
    (r = .ok () ∧ l' = { l with inTx := true, mine := fun _ => False }) ∨ ((∃ e, r = .error e) ∧ l' = l)
  | .sync .commit, l, r, l' => r = .ok () ∧ l' = { known := fun f => l.known f ∨ l.mine f }
  | .sync .rollback, l, r, l' => r = .ok () ∧ l' = { known := l.known }
  | _, l, _, l' => l' = l

/-- The memo has grown, inside or outside the same transaction. -/
structure Before (l l' : Memo) : Prop where
  inTx : l'.inTx = l.inTx
  mine : l.inTx = true → ∀ f, l.mine f → l'.mine f
  known : ∀ f, l.known f → l'.known f

theorem Before.refl (l : Memo) : l.Before l := ⟨rfl, fun _ _ h => h, fun _ h => h⟩

theorem Before.trans {l l' l'' : Memo} (h : l.Before l') (h' : l'.Before l'') : l.Before l'' :=
  ⟨h'.inTx.trans h.inTx, fun hin f hf => h'.mine (h.inTx.trans hin) f (h.mine hin f hf),
    fun f hf => h'.known f (h.known f hf)⟩

theorem Before.facts {l l' : Memo} (h : l.Before l') {f : Fact} (hf : l.facts f) : l'.facts f := by
  unfold Memo.facts at hf ⊢
  rw [h.inTx]
  split at hf
  · rw [if_pos (by assumption)]
    exact h.mine (by assumption) f hf
  · rw [if_neg (by assumption)]
    exact h.known f hf

theorem before_learn (l : Memo) (new : Fact → Prop) : l.Before (l.learn new) := by
  unfold learn
  split
  · exact ⟨rfl, fun _ f hf => Or.inl hf, fun _ hf => hf⟩
  · exact ⟨rfl, fun _ _ hf => hf, fun f hf => Or.inl hf⟩

theorem facts_learn (l : Memo) {new : Fact → Prop} {f : Fact} (hf : new f) : (l.learn new).facts f := by
  unfold learn facts
  split
  · exact Or.inr hf
  · exact Or.inr hf

theorem known_learn {l : Memo} (hout : l.inTx = false) {new : Fact → Prop} {f : Fact}
    (hf : (l.learn new).known f) : l.known f ∨ new f := by
  rw [learn, hout] at hf
  exact hf

/-- The admission lock shows nothing. -/
theorem step_lock {k : Sync} (hk : (Call.sync k).NoTx) {l l' : Memo} {r : Except Exc Unit}
    (h : Step (.sync k) l r l') : l' = l := by
  cases k with
  | begin => exact absurd hk id
  | commit => exact absurd hk id
  | rollback => exact absurd hk id
  | _ => exact h

/-- A call outside the transactions of SQLite. -/
theorem Step.before {c : Call} (hc : c.NoTx) {l l' : Memo} {r : Except Exc c.Res} (h : Step c l r l') :
    l.Before l' := by
  cases c with
  | store c =>
    rw [h.2]
    exact l.before_learn _
  | sync k =>
    obtain rfl := step_lock hc h
    exact Before.refl l'
  | _ =>
    obtain rfl := h
    exact Before.refl l'

end Memo

/-! ## 3. Handlers, alone -/

section Handlers

variable {g : Setup} {α β : Type}

/-- The handler forgets nothing, and a value it returns comes with facts that meet `Q`. -/
def Learns (x : Handler α) (Q : α → (Fact → Prop) → Prop) (l : Memo) : Prop :=
  Act.Sat Memo.Step Trans.any x
    (fun r l' => l.Before l' ∧ ∀ a, r = .ok a → Q a l'.facts) l

theorem learns_pure {a : α} {Q : α → (Fact → Prop) → Prop} {l : Memo} (h : Q a l.facts) :
    Learns (pure a) Q l := by
  refine ⟨Memo.Before.refl l, fun b hb => ?_⟩
  rwa [← Except.ok.inj hb]

theorem learns_raise {e : Exc} {Q : α → (Fact → Prop) → Prop} {l : Memo} :
    Learns (Act.raise e) Q l :=
  ⟨Memo.Before.refl l, fun _ hb => absurd hb (by simp)⟩

theorem learns_bind {x : Handler α} {f : α → Handler β} {Q : α → (Fact → Prop) → Prop}
    {Q' : β → (Fact → Prop) → Prop} {l : Memo} (hx : Learns x Q l)
    (hf : ∀ a l', l.Before l' → Q a l'.facts → Learns (f a) Q' l') : Learns (x >>= f) Q' l := by
  unfold Learns
  rw [Act.sat_bind]
  refine Act.Sat.mono hx ?_
  rintro (e | a) l' ⟨hbefore, hQ⟩
  · exact ⟨hbefore, fun _ hb => absurd hb (by simp)⟩
  · refine Act.Sat.mono (hf a l' hbefore (hQ a rfl)) ?_
    rintro r l'' ⟨hbefore', hQ'⟩
    exact ⟨hbefore.trans hbefore', hQ'⟩

/-- A part without transactions, of which nothing need be known. -/
theorem learns_txFree {x : Handler α} (hx : TxFree x) (l : Memo) : Learns x (fun _ _ => True) l := by
  refine (Prog.Uses.sat (I := fun l' => l.Before l') hx ?_ (Memo.Before.refl l)).mono ?_
  · intro c hc l₁ r l₂ hstep hbefore
    exact ⟨trivial, hbefore.trans (hstep.before hc)⟩
  · exact fun _ _ hbefore => ⟨hbefore, fun _ _ => trivial⟩

theorem learns_skip {x : Handler α} {f : α → Handler β} {Q : β → (Fact → Prop) → Prop} {l : Memo}
    (hx : TxFree x) (hf : ∀ a l', l.Before l' → Learns (f a) Q l') : Learns (x >>= f) Q l :=
  learns_bind (learns_txFree hx l) fun a l' hbefore _ => hf a l' hbefore

theorem learns_store (c : Store) (l : Memo) :
    Learns (store c) (fun a facts => c.Rooted (.ok a) ∧ ∀ f, c.Shows (.ok a) f → facts f) l := by
  rintro r l' ⟨hrooted, rfl⟩
  refine ⟨trivial, l.before_learn _, ?_⟩
  rintro a rfl
  exact ⟨hrooted, fun f hf => l.facts_learn hf⟩

/-- `finally`, with a call of the admission lock. -/
theorem learns_finally {x : Handler α} {k : Sync} (hk : (Call.sync k).NoTx)
    {Q : α → (Fact → Prop) → Prop} {l : Memo} (hx : Learns x Q l) :
    Learns (Act.always x (sync k)) Q l := by
  unfold Learns
  rw [Act.sat_always]
  refine Act.Sat.mono hx ?_
  rintro r l₁ hr r' l₂ hstep
  obtain rfl := Memo.step_lock hk hstep
  refine ⟨trivial, ?_⟩
  cases r' with
  | error e => exact ⟨hr.1, fun _ hb => absurd hb (by simp)⟩
  | ok u => exact hr

theorem learns_withShared {x : Handler α} {Q : α → (Fact → Prop) → Prop} {l : Memo}
    (hx : ∀ l', l.Before l' → Learns x Q l') : Learns (withShared x) Q l :=
  learns_skip (uses_sync (Call.of_noTx rfl : Call.Of Call.NoTx [.shared]) rfl) fun _ l' hbefore =>
    learns_finally (k := .leaveShared) trivial (hx l' hbefore)

theorem learns_withExclusive {x : Handler α} {Q : α → (Fact → Prop) → Prop} {l : Memo}
    (hx : ∀ l', l.Before l' → Learns x Q l') : Learns (withExclusive x) Q l :=
  learns_skip (uses_sync (Call.of_noTx rfl : Call.Of Call.NoTx [.exclusive]) rfl) fun _ _ h₁ =>
    learns_skip (uses_sync (Call.of_noTx rfl : Call.Of Call.NoTx [.exclusive]) rfl) fun _ l₂ h₂ =>
      learns_finally (k := .leaveExclusive) trivial (hx l₂ (h₁.trans h₂))

/-- **The transaction rule.**  What the body has been shown of the copy is known of what is
committed, once it is committed. -/
theorem learns_withTransaction {x : Handler α} {Q : α → (Fact → Prop) → Prop} {l : Memo}
    (hout : l.inTx = false) (hQ : ∀ a F F', (∀ f, F f → F' f) → Q a F → Q a F')
    (hx : ∀ l', l'.inTx = true → Learns x Q l') : Learns (withTransaction x) Q l := by
  unfold Learns
  rw [withTransaction, Act.sat_bind]
  rintro r l₁ hbegin
  refine ⟨trivial, ?_⟩
  rcases hbegin with ⟨rfl, rfl⟩ | ⟨⟨e, rfl⟩, rfl⟩
  · rw [Prog.Sat, onOk_ok, Act.sat_bind, Act.sat_attempt, Act.sat_bind]
    refine Act.Sat.mono (hx { l with inTx := true, mine := fun _ => False } rfl) ?_
    rintro (e | a) l₂ ⟨hbefore, hfacts⟩
    · -- the body has raised
      simp only [onOk_error, onOk_ok]
      rw [Act.sat_bind]
      rintro r l₃ ⟨rfl, rfl⟩
      refine ⟨trivial, ⟨hout.symm, fun hin => ?_, hbefore.known⟩, fun _ hb => absurd hb (by simp)⟩
      exact absurd (hout.symm.trans hin) (by decide)
    · simp only [onOk_ok]
      rw [Act.sat_bind]
      rintro r l₃ ⟨rfl, rfl⟩
      refine ⟨trivial, ⟨hout.symm, fun hin => ?_, fun f hf => Or.inl (hbefore.known f hf)⟩, ?_⟩
      · exact absurd (hout.symm.trans hin) (by decide)
      · rintro b hb
        obtain rfl := Except.ok.inj hb
        refine hQ a _ _ (fun f hf => ?_) (hfacts a rfl)
        rw [Memo.facts, if_pos hbefore.inTx] at hf
        exact Or.inr hf
  · exact ⟨Memo.Before.refl l₁, fun _ hb => absurd hb (by simp)⟩

variable (g)

/-- What a submission has shown: its node, and that it is quarantined if it was rejected. -/
def Tells (x : NodeId) (a : Response) (facts : Fact → Prop) : Prop :=
  ((∀ reason, a.reply ≠ .refused reason) → facts (.node x)) ∧ (a.Rejects → facts (.quarantined x))

theorem txFree_store (c : Store) : TxFree (store c) := (Act.uses_perform (Call.store c)).mpr trivial

theorem txFree_ext (e : Ext) : TxFree (ext e) := (Act.uses_perform (Call.ext e)).mpr trivial

theorem txFree_stampNow : TxFree stampNow := uses_stampNow (Call.of_noTx rfl)

theorem learns_rejectTainted (p : Payload) (root : NodeId) (l : Memo) :
    Learns (rejectTainted g p root)
      (fun _ facts => facts (.node p.payloadId) ∧ facts (.quarantined p.payloadId)) l := by
  refine learns_bind (learns_store _ l) fun _ l₁ _ hcommit => ?_
  have hnode : l₁.facts (.node p.payloadId) := hcommit.2 _ rfl
  refine learns_skip (txFree_store _) fun ids l₂ h₂ => ?_
  refine learns_skip (uses_recurrenceHook g (Call.of_noTx rfl) _ _) fun _ l₃ h₃ => ?_
  refine learns_skip (txFree_store _) fun digest l₄ h₄ => ?_
  refine learns_skip (txFree_ext _) fun eventId l₅ h₅ => ?_
  refine learns_skip txFree_stampNow fun detected l₆ h₆ => ?_
  refine learns_bind (learns_store _ l₆) fun event l₇ h₇ hquarantine => ?_
  have hledger : l₇.facts (.quarantined p.payloadId) :=
    hquarantine.2 _ ⟨p.payloadId, List.mem_singleton_self _, rfl⟩
  refine learns_skip txFree_stampNow fun rejected l₈ h₈ => ?_
  refine learns_skip (txFree_store _) fun _ l₉ h₉ => ?_
  refine learns_skip (uses_offerReplacement (Call.of_noTx rfl) p root) fun replacement l₁₀ h₁₀ => ?_
  have hlater : l₇.Before l₁₀ := h₈.trans (h₉.trans h₁₀)
  have hall : l₁.Before l₁₀ := h₂.trans (h₃.trans (h₄.trans (h₅.trans (h₆.trans (h₇.trans hlater)))))
  exact learns_pure ⟨hall.facts hnode, hlater.facts hledger⟩

theorem learns_enforce (p : Payload) (status : List ParentStatus) (hashes : NodeId → Option String)
    (decisionId writer : String) (d : Decision) (l : Memo) :
    Learns (enforce g p status hashes decisionId writer d) (Tells p.payloadId) l := by
  have hrecord : ∀ blocked reason, TxFree (recordDecision g decisionId writer p status blocked reason) :=
    fun _ _ => uses_recordDecision g (Call.of_noTx rfl) _ _ _ _ _ _
  cases d with
  | admitted =>
    refine learns_bind (Q := fun _ facts => facts (.node p.payloadId)) ?_ fun isNew l₁ h₁ hnode => ?_
    · unfold admitWrite
      split
      · exact learns_raise
      · refine (learns_store _ l).mono ?_
        rintro r l₁ ⟨h₁, hcommit⟩
        exact ⟨h₁, fun a ha => (hcommit a ha).2 _ rfl⟩
    · refine learns_skip (uses_auditAdmission g (Call.of_noTx rfl) _ _ _ _ _) fun _ l₂ h₂ => ?_
      refine learns_pure ⟨fun _ => h₂.facts hnode, ?_⟩
      rintro ⟨event, replacement, ha⟩
      exact absurd ha (by simp)
  | taintedParent root =>
    refine learns_bind (learns_rejectTainted g p root l) fun out l₁ h₁ hfacts => ?_
    refine learns_skip (hrecord _ _) fun _ l₂ h₂ => ?_
    exact learns_pure ⟨fun _ => h₂.facts hfacts.1, fun _ => h₂.facts hfacts.2⟩
  | lineageInvalid =>
    refine learns_skip (hrecord _ _) fun _ l₁ h₁ => learns_pure ⟨fun h => absurd rfl (h _), ?_⟩
    rintro ⟨event, replacement, ha⟩
    exact absurd ha (by simp)
  | verificationFailed =>
    refine learns_skip (hrecord _ _) fun _ l₁ h₁ => learns_pure ⟨fun h => absurd rfl (h _), ?_⟩
    rintro ⟨event, replacement, ha⟩
    exact absurd ha (by simp)

theorem learns_prepareCompaction (p : Payload) (l : Memo) :
    Learns (prepareCompaction p) (fun p' _ => p'.payloadId = p.payloadId) l := by
  unfold prepareCompaction
  split
  · refine learns_skip (txFree_store _) fun gap l₁ h₁ => ?_
    dsimp only
    split
    · exact learns_pure rfl
    · refine learns_skip (txFree_store _) fun quarantined l₂ h₂ => ?_
      split
      · exact learns_pure rfl
      · exact learns_raise
  · exact learns_pure rfl

theorem learns_submitLocked (p : Payload) (auth : Claims) (decisionId : String) (l : Memo) :
    Learns (submitLocked g p auth decisionId) (Tells p.payloadId) l := by
  refine learns_skip (txFree_store _) fun _ l₁ _ => ?_
  refine learns_skip (Act.uses_raiseIf _ _) fun _ l₂ _ => ?_
  refine learns_skip (txFree_store _) fun exists_ l₃ _ => ?_
  refine learns_skip (txFree_store _) fun quarantined l₄ _ => ?_
  refine learns_skip (txFree_store _) fun hashes l₅ _ => ?_
  refine learns_bind (learns_prepareCompaction p l₅) fun p' l₆ _ hid => ?_
  refine learns_skip (uses_failClosed (uses_evaluateAdmission (Call.of_noTx rfl) _ _ _ _))
    fun d l₇ _ => ?_
  rw [← hid]
  split
  · refine learns_bind (learns_store _ l₇) fun _ l₈ _ hcommit => ?_
    refine learns_pure ⟨fun _ => hcommit.2 _ rfl, ?_⟩
    rintro ⟨event, replacement, ha⟩
    exact absurd ha (by simp)
  · exact learns_enforce g p' _ _ _ _ d l₇

theorem learns_contain (x : NodeId) (identity reason : String) (source : Option String) (l : Memo) :
    Learns (contain g x identity reason source) (fun _ facts => facts (.quarantined x)) l := by
  refine learns_bind (learns_store _ l) fun ids l₁ _ hradius => ?_
  have hroot : x ∈ ids := hradius.1
  refine learns_skip (uses_recurrenceHook g (Call.of_noTx rfl) _ _) fun _ l₂ _ => ?_
  refine learns_skip (txFree_store _) fun digest l₃ _ => ?_
  refine learns_skip (txFree_ext _) fun eventId l₄ _ => ?_
  refine learns_skip txFree_stampNow fun detected l₅ _ => ?_
  refine learns_bind (learns_store _ l₅) fun event l₆ _ hquarantine => ?_
  exact learns_pure (hquarantine.2 _ ⟨x, hroot, rfl⟩)

theorem learns_designateLocked (e : DesignationEvent) (identity : String) (l : Memo) :
    Learns (designateLocked g e identity)
      (fun a facts => a.status = 200 → facts (.quarantined e.poisonedNodeId)) l := by
  refine learns_skip (txFree_store _) fun exists_ l₁ _ => ?_
  refine learns_bind (learns_store _ l₁) fun quarantined l₂ _ hledger => ?_
  split
  · exact learns_pure fun h => absurd h (by decide)
  · split
    · rename_i hq
      exact learns_pure fun _ => hledger.2 _ ⟨_, List.mem_singleton_self _, hq, rfl⟩
    · refine learns_bind (learns_contain g _ _ _ _ l₂) fun out l₃ _ hfacts => ?_
      refine learns_skip (uses_attemptSafeContinuity g (Call.of_noTx rfl) _ _) fun _ l₄ h₄ => ?_
      refine learns_skip (uses_attemptReconstruction g (Call.of_noTx rfl) (fun _ => Call.of_noTx rfl) _)
        fun _ l₅ h₅ => ?_
      exact learns_pure fun _ => (h₄.trans h₅).facts hfacts

theorem learns_designateDetected (header : Option String) (source : DetectorSource)
    (e : DesignationEvent) (l : Memo) :
    Learns (designateDetected g header source e)
      (fun _ facts => facts (.quarantined e.poisonedNodeId)) l := by
  refine learns_skip (uses_verifyRole g (Call.of_noTx rfl) _ _) fun claims l₁ _ => ?_
  refine learns_skip (uses_limitDesignations g (Call.of_noTx rfl) _ _) fun _ l₂ _ => ?_
  refine learns_bind (Q := fun _ facts => facts (.quarantined e.poisonedNodeId))
    (learns_withExclusive fun l₃ _ => ?_) fun out l₄ _ hfacts => ?_
  · refine learns_skip (txFree_store _) fun exists_ l₅ _ => ?_
    refine learns_bind (learns_store _ l₅) fun quarantined l₆ _ hledger => ?_
    split
    · exact learns_raise
    · split
      · rename_i hq
        exact learns_pure (hledger.2 _ ⟨_, List.mem_singleton_self _, hq, rfl⟩)
      · exact learns_bind (learns_contain g _ _ _ _ l₆) fun out l₇ _ h => learns_pure h
  · cases out with
    | none => exact learns_pure hfacts
    | some out =>
      refine learns_skip (uses_attemptSafeContinuity g (Call.of_noTx rfl) _ _) fun _ l₅ h₅ => ?_
      refine learns_skip (uses_attemptReconstruction g (Call.of_noTx rfl) (fun _ => Call.of_noTx rfl) _)
        fun _ l₆ h₆ => ?_
      exact learns_pure ((h₅.trans h₆).facts hfacts)

/-- What the answer of a request tells whoever sent it.

`/context-compacted` and `/seed-root` tell NOTHING that lasts: outside transactions `commit_node`
may find the id taken by a row that another handler has not committed, and answers without a
commit. -/
def Request.Acknowledges (req : Request) (a : Response) (f : Fact) : Prop :=
  match req with
  | .submitCandidate bytes body => ∃ p, parseSubmission g bytes body = .ok p ∧
      (((∀ reason, a.reply ≠ .refused reason) ∧ f = .node p.payloadId) ∨
        (a.Rejects ∧ f = .quarantined p.payloadId))
  | .designate _ e => a.status = 200 ∧ f = .quarantined e.poisonedNodeId
  | .detector _ source raw => ∃ src e, detectorRegistry source = some src ∧
      toDesignation g.env src raw = .ok e ∧ f = .quarantined e.poisonedNodeId
  | .checkpoint _ c => f = .checkpoint c.checkpointId
  | .declareSubstitute _ target _ _ => f = .substitute (target.getD "")
  | .declareExternalEffect _ key _ _ => f = .effect key
  | .continuityExpose _ _ _ _ => ∃ id b, a.reply = .exposed id b ∧ f = .exposure id
  | .calibrate _ r => f = .calibration r.runId
  | .contextCompacted _ | .seedRoot _ _ | .observe _ _ | .renewTrust _ _ => False

/-- The handler has been shown what it tells. -/
abbrev Request.Learns (req : Request) : Prop :=
  GovernorGateway.Learns (req.handle g) (fun a facts => ∀ f, req.Acknowledges g a f → facts f) {}

theorem learns_submitChecks (bytes : ℕ) (body : SubmitBody) :
    Learns (submitChecks g bytes body) (fun out _ => parseSubmission g bytes body = .ok out.1) {} := by
  refine (sat_submitChecks_asking (T := Memo.Step) (P := Trans.any) (fun _ _ _ _ h => h)
    (fun _ _ _ _ => trivial) bytes body {}).mono ?_
  rintro (e | out) l hout
  · obtain rfl := hout
    exact ⟨Memo.Before.refl _, fun _ ha => absurd ha (by simp)⟩
  · obtain ⟨rfl, hparse⟩ := hout
    refine ⟨Memo.Before.refl _, fun a ha => ?_⟩
    rwa [← Except.ok.inj ha]

theorem learns_submitCandidate (bytes : ℕ) (body : SubmitBody) :
    (Request.submitCandidate bytes body).Learns g := by
  refine learns_bind (learns_submitChecks g bytes body) fun out l₁ h₁ hparse => ?_
  obtain ⟨p, auth, decisionId⟩ := out
  refine learns_withShared fun l₂ h₂ => ?_
  refine learns_withTransaction (h₁.trans h₂).inTx ?_ fun l₃ _ => ?_
  · intro a F F' hF h f hf
    exact hF f (h f hf)
  · refine (learns_submitLocked g p auth decisionId l₃).mono ?_
    rintro r l₄ ⟨h₄, htells⟩
    refine ⟨h₄, fun a ha f hf => ?_⟩
    obtain ⟨q, hq, hf⟩ := hf
    obtain rfl := Except.ok.inj (hparse.symm.trans hq)
    rcases hf with ⟨hreply, rfl⟩ | ⟨hreject, rfl⟩
    · exact (htells a ha).1 hreply
    · exact (htells a ha).2 hreject

theorem learns_designatePoison (header : Option String) (e : DesignationEvent) :
    (Request.designate header e).Learns g := by
  refine learns_skip (uses_verifyRole g (Call.of_noTx rfl) _ _) fun claims l₁ h₁ => ?_
  refine learns_skip (uses_limitDesignations g (Call.of_noTx rfl) _ _) fun _ l₂ h₂ => ?_
  refine learns_withExclusive fun l₃ h₃ => ?_
  refine learns_withTransaction ((h₁.trans (h₂.trans h₃)).inTx) ?_ fun l₄ _ => ?_
  · intro a F F' hF h f hf
    exact hF f (h f hf)
  · refine (learns_designateLocked g e _ l₄).mono ?_
    rintro r l₅ ⟨h₅, hfacts⟩
    refine ⟨h₅, fun a ha f hf => ?_⟩
    obtain ⟨hstatus, rfl⟩ := hf
    exact hfacts a ha hstatus

theorem learns_ingestDetectorEvent (header : Option String) (source : String) (raw : RawEvent) :
    (Request.detector header source raw).Learns g := by
  refine learns_skip (uses_verifyRole g (Call.of_noTx rfl) _ _) fun _ l₁ _ => ?_
  cases hsource : detectorRegistry source with
  | none => exact learns_raise
  | some src =>
    refine learns_skip (uses_recordRawEvent (Call.of_noTx rfl) _ _) fun _ l₂ _ => ?_
    refine learns_skip (Act.uses_raiseIf _ _) fun _ l₃ _ => ?_
    cases hraw : toDesignation g.env src raw with
    | error reason =>
      refine learns_pure fun f hf => ?_
      obtain ⟨src', e, hsrc, he, -⟩ := hf
      obtain rfl := Option.some.inj (hsource.symm.trans hsrc)
      exact absurd (hraw.symm.trans he) (by simp)
    | ok e =>
      refine (learns_designateDetected g header src e l₃).mono ?_
      rintro r l₄ ⟨h₄, hfacts⟩
      refine ⟨h₄, fun a ha f hf => ?_⟩
      obtain ⟨src', e', hsrc, he, rfl⟩ := hf
      obtain rfl := Option.some.inj (hsource.symm.trans hsrc)
      obtain rfl := Except.ok.inj (hraw.symm.trans he)
      exact hfacts a ha

/-- The last call of a declaration stores what its answer tells. -/
theorem learns_declared {req : Request} {c : Store} {a : Response} {l : Memo}
    (hshows : ∀ v f, req.Acknowledges g a f → c.Shows (.ok v) f) :
    Learns (store c >>= fun _ => pure a) (fun a' facts => ∀ f, req.Acknowledges g a' f → facts f) l :=
  learns_bind (learns_store c l) fun v _ _ hstore => learns_pure fun f hf => hstore.2 f (hshows v f hf)

theorem learns_declareSubstitute (header target source : Option String) (declaredAt : Json) :
    (Request.declareSubstitute header target source declaredAt).Learns g := by
  refine learns_skip (uses_verifyRole g (Call.of_noTx rfl) _ _) fun _ l₁ _ => ?_
  refine learns_skip (Act.uses_raiseIf _ _) fun _ l₂ _ => ?_
  refine learns_skip (txFree_store _) fun exists_ l₃ _ => ?_
  refine learns_skip (Act.uses_raiseIf _ _) fun _ l₄ _ => ?_
  refine learns_skip (txFree_store _) fun quarantined l₅ _ => ?_
  refine learns_skip (Act.uses_raiseIf _ _) fun _ l₆ _ => ?_
  exact learns_declared g fun _ f hf => hf

theorem learns_continuityExpose (header node status reason : Option String) :
    (Request.continuityExpose header node status reason).Learns g := by
  refine learns_skip (uses_verifyRole g (Call.of_noTx rfl) _ _) fun _ l₁ _ => ?_
  refine learns_skip (Act.uses_raiseIf _ _) fun _ l₂ _ => ?_
  refine learns_skip (Act.uses_raiseIf _ _) fun _ l₃ _ => ?_
  refine learns_skip (txFree_store _) fun ledger l₄ _ => ?_
  refine learns_skip (Act.uses_raiseIf _ _) fun _ l₅ _ => ?_
  refine learns_skip (txFree_ext _) fun exposureId l₆ _ => ?_
  refine learns_skip txFree_stampNow fun at_ l₇ _ => learns_declared g ?_
  rintro _ f ⟨id, b, hreply, rfl⟩
  obtain ⟨rfl, -⟩ := Reply.exposed.inj hreply
  rfl

/-- **Every handler has been shown what it tells.** -/
theorem learns_handle (req : Request) : req.Learns g := by
  have hsilent : TxFree (req.handle g) → (∀ a f, ¬ req.Acknowledges g a f) → req.Learns g := by
    intro hfree hnothing
    refine (learns_txFree hfree {}).mono ?_
    exact fun r l' h => ⟨h.1, fun a _ f hf => absurd hf (hnothing a f)⟩
  cases req with
  | submitCandidate bytes body => exact learns_submitCandidate g bytes body
  | designate header e => exact learns_designatePoison g header e
  | detector header source raw => exact learns_ingestDetectorEvent g header source raw
  | checkpoint header c =>
    refine learns_skip (uses_verifyRole g (Call.of_noTx rfl) _ _) fun _ l₁ _ => ?_
    exact learns_declared g fun _ f hf => hf
  | declareSubstitute header target source declaredAt =>
    exact learns_declareSubstitute g header target source declaredAt
  | declareExternalEffect header key x type =>
    refine learns_skip (uses_verifyRole g (Call.of_noTx rfl) _ _) fun _ l₁ _ => ?_
    refine learns_skip (txFree_ext _) fun now l₂ _ => ?_
    exact learns_declared g fun _ f hf => hf
  | continuityExpose header node status reason =>
    exact learns_continuityExpose g header node status reason
  | calibrate header r =>
    refine learns_skip (uses_verifyRole g (Call.of_noTx rfl) _ _) fun _ l₁ _ => ?_
    refine learns_skip (Act.uses_raiseIf _ _) fun _ l₂ _ => ?_
    exact learns_declared g fun _ f hf => hf
  | _ => exact hsilent (uses_handle g _ (Call.of_noTx rfl)) fun _ _ hf => hf

end Handlers

/-! ## 4. Together -/

section Lives

variable {ι : Type} [DecidableEq ι] {g : Setup} {answers : Answers}

/-- The memos of the tasks are true. -/
structure Gateway.Informed (s : Gateway ι) (l : ι → Memo) : Prop where
  grown : ∀ i d, s.tx = some (i, d) → s.db.Grows d
  known : ∀ i f, (l i).known f → f.Holds s.db
  mine : ∀ i d, s.tx = some (i, d) → ∀ f, (l i).mine f → f.Holds d
  inTx : ∀ i, (l i).inTx = true ↔ ∃ d, s.tx = some (i, d)

namespace Gateway.Informed

variable {s s' : Gateway ι} {l : ι → Memo} {i : ι} {m : Memo}

omit [DecidableEq ι] in
theorem start (hs : s.tx = none) : s.Informed fun _ => {} where
  grown := by simp [hs]
  known := fun _ _ hf => absurd hf id
  mine := by simp [hs]
  inTx := by simp [hs]

omit [DecidableEq ι] in
theorem grownFrom (h : s.Informed l) : s.GrownFrom s.db := ⟨Db.Grows.refl s.db, h.grown⟩

omit [DecidableEq ι] in
theorem outside (h : s.Informed l) (hno : ∀ d, s.tx ≠ some (i, d)) : (l i).inTx = false := by
  by_contra hin
  obtain ⟨d, hd⟩ := (h.inTx i).mp (by simpa using hin)
  exact hno d hd

/-- Task `i` has made a step; the transactions of the others are as they were. -/
theorem update (h : s.Informed l) (hgrown : s'.GrownFrom s.db) (hknown : ∀ f, m.known f → f.Holds s'.db)
    (hmine : ∀ d, s'.tx = some (i, d) → ∀ f, m.mine f → f.Holds d)
    (hin : m.inTx = true ↔ ∃ d, s'.tx = some (i, d))
    (hothers : ∀ j, j ≠ i → ∀ d, s'.tx = some (j, d) ↔ s.tx = some (j, d)) :
    s'.Informed (Function.update l i m) := by
  refine ⟨hgrown.2, fun j f hf => ?_, fun j d hd f hf => ?_, fun j => ?_⟩
  · by_cases hj : j = i
    · subst hj
      rw [Function.update_self] at hf
      exact hknown f hf
    · rw [Function.update_of_ne hj] at hf
      exact (h.known j f hf).grow hgrown.1
  · by_cases hj : j = i
    · subst hj
      rw [Function.update_self] at hf
      exact hmine d hd f hf
    · rw [Function.update_of_ne hj] at hf
      exact h.mine j d ((hothers j hj d).mp hd) f hf
  · by_cases hj : j = i
    · subst hj
      rw [Function.update_self]
      exact hin
    · rw [Function.update_of_ne hj, h.inTx j]
      exact exists_congr fun d => (hothers j hj d).symm

/-- The call changed neither the database nor a transaction. -/
theorem alike (h : s.Informed l) (hdb : s'.db = s.db) (htx : s'.tx = s.tx) :
    s'.Informed (Function.update l i (l i)) := by
  rw [Function.update_eq_self]
  refine ⟨fun j d hd => ?_, fun j f hf => ?_, fun j d hd => ?_, fun j => ?_⟩
  · rw [hdb]
    exact h.grown j d (htx ▸ hd)
  · rw [hdb]
    exact h.known j f hf
  · exact h.mine j d (htx ▸ hd)
  · rw [htx]
    exact h.inTx j

/-- **A step of the shared state**, for the memo of its task. -/
theorem step {c : Call} {r : Except Exc c.Res} (h : s.Informed l) (ht : TaskStep g answers i c s r s') :
    ∃ m, Memo.Step c (l i) r m ∧ s'.Informed (Function.update l i m) := by
  have hgrown : s'.GrownFrom s.db := h.grownFrom.step ht
  cases c with
  | ext e =>
    obtain ⟨-, rfl⟩ := ht
    exact ⟨l i, rfl, h.alike rfl rfl⟩
  | getAdapterKey =>
    obtain ⟨-, rfl⟩ := ht
    exact ⟨l i, rfl, h.alike rfl rfl⟩
  | setAdapterKey key =>
    obtain ⟨-, rfl⟩ := ht
    exact ⟨l i, rfl, h.alike rfl rfl⟩
  | store c =>
    simp only [TaskStep] at ht
    split at ht
    · -- no transaction is open
      rename_i htx
      obtain ⟨rfl, rfl⟩ := ht
      have hout : (l i).inTx = false := h.outside fun d hd => by simp [htx] at hd
      refine ⟨_, ⟨c.rooted_exec g s.db, rfl⟩, h.update hgrown (fun f hf => ?_) (fun d hd => ?_) ?_ ?_⟩
      · rcases Memo.known_learn hout hf with hf | hf
        · exact (h.known i f hf).grow hgrown.1
        · exact c.holds_of_shows g s.db hf
      · exact absurd (htx.symm.trans hd) (by simp)
      · rw [((l i).before_learn _).inTx]
        exact h.inTx i
      · exact fun j _ d => Iff.rfl
    · rename_i j d htx
      split at ht
      · -- its own transaction
        rename_i hj
        subst hj
        obtain ⟨rfl, rfl⟩ := ht
        have hin : (l j).inTx = true := (h.inTx j).mpr ⟨d, htx⟩
        refine ⟨_, ⟨c.rooted_exec g d, rfl⟩, h.update hgrown (fun f hf => ?_) (fun d' hd' f hf => ?_) ?_ ?_⟩
        · rw [Memo.learn, if_pos hin] at hf
          exact h.known j f hf
        · obtain ⟨-, rfl⟩ := Prod.mk.inj (Option.some.inj hd')
          rw [Memo.learn, if_pos hin] at hf
          rcases hf with hf | hf
          · exact (h.mine j d htx f hf).grow (c.grows_exec g d)
          · exact c.holds_of_shows g d hf
        · rw [((l j).before_learn _).inTx]
          exact iff_of_true hin ⟨_, rfl⟩
        · intro k hk d'
          rw [htx]
          simp [Ne.symm hk]
      · -- the transaction of another task
        rename_i hj
        obtain ⟨rfl, hr⟩ := ht
        have hout : (l i).inTx = false := h.outside fun d' hd' => by
          rw [htx] at hd'
          exact hj (Prod.mk.inj (Option.some.inj hd')).1
        have hanswer : c.Rooted r ∧ ∀ f, c.Shows r f → f.Holds s'.db := by
          rcases hr with ⟨rfl, hsame⟩ | ⟨-, rfl⟩
          · refine ⟨c.rooted_exec g s'.db, fun f hf => ?_⟩
            rw [← hsame]
            exact c.holds_of_shows g s'.db hf
          · exact ⟨c.rooted_error _, fun f hf => absurd hf (c.not_shows_error _ f)⟩
        refine ⟨_, ⟨hanswer.1, rfl⟩, h.update hgrown (fun f hf => ?_) (fun d' hd' => ?_) ?_ ?_⟩
        · rcases Memo.known_learn hout hf with hf | hf
          · exact h.known i f hf
          · exact hanswer.2 f hf
        · rw [htx] at hd'
          exact absurd (Prod.mk.inj (Option.some.inj hd')).1 hj
        · rw [((l i).before_learn _).inTx]
          exact h.inTx i
        · exact fun j _ d => Iff.rfl
  | sync k =>
    cases k with
    | begin =>
      rcases ht with ⟨htx, rfl, rfl⟩ | ⟨-, rfl, rfl⟩
      · refine ⟨_, Or.inl ⟨rfl, rfl⟩, h.update hgrown (h.known i) (fun _ _ _ hf => absurd hf id) ?_ ?_⟩
        · exact iff_of_true rfl ⟨_, rfl⟩
        · intro j hj d
          rw [htx]
          simp [Ne.symm hj]
      · exact ⟨l i, Or.inr ⟨⟨_, rfl⟩, rfl⟩, h.alike rfl rfl⟩
    | commit =>
      obtain ⟨d, htx, rfl, rfl⟩ := ht
      refine ⟨_, ⟨rfl, rfl⟩, h.update hgrown (fun f hf => ?_) (by simp) (by simp) fun j hj d' => ?_⟩
      · rcases hf with hf | hf
        · exact (h.known i f hf).grow hgrown.1
        · exact h.mine i d htx f hf
      · rw [htx]
        simp [Ne.symm hj]
    | rollback =>
      obtain ⟨d, htx, rfl, rfl⟩ := ht
      refine ⟨_, ⟨rfl, rfl⟩, h.update hgrown (h.known i) (by simp) (by simp) fun j hj d' => ?_⟩
      rw [htx]
      simp [Ne.symm hj]
    | _ =>
      obtain ⟨lock, -, rfl, rfl⟩ := ht
      exact ⟨l i, rfl, h.alike rfl rfl⟩

end Gateway.Informed

/-- The process starts again, with what is committed: nobody has the lock, no transaction is open,
the adapter key is read anew, and other requests are served, all of them with `K`. -/
def Gateway.Boots (g : Setup) (K : Request → Prop) (s : Gateway ι)
    (p : Pool ι Call Call.Res Exc (Gateway ι) (Except Exc Response)) : Prop :=
  ∃ req adapterKey, (∀ i, K (req i)) ∧
    p = Gateway.serve g req { db := s.db, adapterKey := adapterKey }

omit [DecidableEq ι] in
theorem Gateway.GrownFrom.boots {K : Request → Prop} {db₀ : Db} {s : Gateway ι}
    {q : Pool ι Call Call.Res Exc (Gateway ι) (Except Exc Response)} (h : s.GrownFrom db₀)
    (hb : Gateway.Boots g K s q) : q.state.GrownFrom db₀ := by
  obtain ⟨req, key, -, rfl⟩ := hb
  exact ⟨h.1, fun j d hd => absurd hd (by simp [Gateway.serve])⟩

/-- **What was told lasts.**  Requests are served in any interleaving, and one of them has been
answered.  What the answer tells holds in every later state, whatever the other tasks do and however
often the process crashes and starts again. -/
theorem acknowledged_last {s : Gateway ι} (hs : s.tx = none) {req : ι → Request}
    {p p' : Pool ι Call Call.Res Exc (Gateway ι) (Except Exc Response)}
    (hrun : Relation.ReflTransGen (Pool.Step (TaskStep g answers)) (s.serve g req) p) {i : ι}
    {a : Response} (hdone : p.Finished i (.ok a))
    (hlife : Relation.ReflTransGen (Pool.LifeStep (TaskStep g answers) (Gateway.Boots g fun _ => True))
      p p') :
    ∀ f, (req i).Acknowledges g a f → f.Holds p'.state.db := by
  have hstep : ∀ (i : ι) (c : Call) (s : Gateway ι) r s' (l : ι → Memo), s.Informed l →
      TaskStep g answers i c s r s' → ∃ m, Memo.Step c (l i) r m ∧
        (Trans.any c (l i) r m → s'.Informed (Function.update l i m)) := by
    intro i c s r s' l h ht
    obtain ⟨m, hm, hinformed⟩ := h.step ht
    exact ⟨m, hm, fun _ => hinformed⟩
  obtain ⟨l, hl, hverified⟩ := Pool.invariant (L := fun _ => Memo.Step) (P := fun _ => Trans.any)
    hstep hrun (Gateway.Informed.start hs) fun i => learns_handle g (req i)
  have hsat := hverified i
  rw [hdone] at hsat
  obtain ⟨hbefore, htold⟩ := hsat
  intro f hf
  have hfact : (l i).facts f := htold a rfl f hf
  have hout : ¬ (l i).inTx = true := by
    rw [hbefore.inTx]
    decide
  rw [Memo.facts, if_neg hout] at hfact
  have hgrown : p'.state.GrownFrom p.state.db :=
    Pool.life_state (fun _ _ _ _ _ ht h => h.step ht) (fun _ _ h hb => h.boots hb) hlife hl.grownFrom
  exact (hl.known i f hfact).grow hgrown.1

/-- **The books balance after crashes**, when the requests write the ledger inside transactions.  In
every state of every life what is committed has grown from what it was at the start, and an id is in
the ledger if and only if it was there at the start, or is in the radius of a stored designator's
event, or is that of a recorded rejection. -/
theorem books_survive {s : Gateway ι} (hs : s.tx = none) (hstart : ∀ x, s.db.OnRecord x → x ∈ s.db.ledger)
    {req : ι → Request} (hreq : ∀ i, (req i).Transacts)
    {p : Pool ι Call Call.Res Exc (Gateway ι) (Except Exc Response)}
    (hlife : Relation.ReflTransGen
      (Pool.LifeStep (TaskStepOn g answers FreshEvents) (Gateway.Boots g Request.Transacts))
        (s.serve g req) p) :
    s.db.Grows p.state.db ∧ ∀ x, x ∈ p.state.db.ledger ↔ x ∈ s.db.ledger ∨
      (∃ e ∈ p.state.db.quarantineEvents, e.designatorIdentity.isSome = true ∧
        x ∈ e.computedBlastRadius) ∨
      ∃ r ∈ p.state.db.taintedRejections, r.nodeId = x := by
  have hgrown : p.state.GrownFrom s.db :=
    Pool.life_state (fun _ _ _ _ _ ht h => h.step ht.1) (fun _ _ h hb => h.boots hb) hlife
      (Gateway.Informed.start hs).grownFrom
  -- a state in which no transaction is open owes nothing
  have hclosed : ∀ {s' : Gateway ι}, s'.tx = none → s'.db.Accounted s.db.ledger [] →
      s'.Balanced s.db.ledger fun _ => {} := by
    intro s' htx hdb
    exact ⟨hdb, by simp [htx], fun _ _ => rfl⟩
  have hfirst : s.db.Accounted s.db.ledger [] := by
    intro x
    constructor
    · exact Or.inl
    · rintro (hx | hx | hx)
      · exact hx
      · exact hstart x hx
      · exact absurd hx (by simp)
  obtain ⟨l, hl, -⟩ := Pool.life_invariant (L := fun _ => Debt.Step answers) (P := fun _ => Debt.Duty)
    (Q := fun _ _ _ => True) (fun i c s r s' l h ht => Gateway.Balanced.step h ht)
    (fun s' q l h hb => by
      obtain ⟨req', key, hreq', rfl⟩ := hb
      exact ⟨_, hclosed rfl h.db, fun i => debt_request (hreq' i)⟩)
    hlife (hclosed hs hfirst) fun i => debt_request (hreq i)
  refine ⟨hgrown.1, fun x => ?_⟩
  rw [hl.db x, Db.OnRecord]
  simp only [List.not_mem_nil, or_false, List.mem_map]

end Lives

/-! ## 5. Two crashes -/

/-- A child of the root, and a designation of the root. -/
def crashRequests (i : Fin 2) : Request :=
  match i with
  | 0 => openSubmission "node-1" ["clean-parent-1"]
  | 1 => .designate (some "Bearer designator") ⟨"clean-parent-1", "poisoned"⟩

def crashScript (i : Fin 2) : Script := openScript (toString i.val)

def crashStep (i : Fin 2) (c : Call) (s : Gateway (Fin 2)) : Option (Except Exc c.Res × Gateway (Fin 2)) :=
  (crashScript i).taskStep openSetup i c s

/-- The submission is answered. -/
def crashAnswered : Pool (Fin 2) Call Call.Res Exc (Gateway (Fin 2)) (Except Exc Response) :=
  Pool.schedule crashStep [(⟨0, Nat.zero_lt_two⟩, fun _ => false)]
    (Gateway.serve openSetup crashRequests { db := ({} : Db).reset openSetup.env.sha256 })

/-- The designation is in its transaction when the process dies. -/
def crashMiddle : Pool (Fin 2) Call Call.Res Exc (Gateway (Fin 2)) (Except Exc Response) :=
  Pool.schedule crashStep [(⟨1, Nat.one_lt_two⟩, fun c => c.kind = .ledger)] crashAnswered

/-- It is sent again. -/
def crashAgain : Pool (Fin 2) Call Call.Res Exc (Gateway (Fin 2)) (Except Exc Response) :=
  Gateway.serve openSetup crashRequests { db := crashMiddle.state.db }

def crashEnd : Pool (Fin 2) Call Call.Res Exc (Gateway (Fin 2)) (Except Exc Response) :=
  Pool.schedule crashStep [(⟨1, Nat.one_lt_two⟩, fun _ => false)] crashAgain

theorem crash_run (turns : List (Fin 2 × (Call → Bool)))
    (p : Pool (Fin 2) Call Call.Res Exc (Gateway (Fin 2)) (Except Exc Response)) :
    Relation.ReflTransGen (Pool.Step (TaskStep openSetup Answers.lawful)) p
      (Pool.schedule crashStep turns p) :=
  Script.schedule_run crashScript openSetup turns p

theorem crash_life : Relation.ReflTransGen
    (Pool.LifeStep (TaskStep openSetup Answers.lawful) (Gateway.Boots openSetup fun _ => True))
      crashAnswered crashEnd := by
  have hcrash : Pool.LifeStep (TaskStep openSetup Answers.lawful) (Gateway.Boots openSetup fun _ => True)
      crashMiddle crashAgain := .crash ⟨crashRequests, none, fun _ => trivial, rfl⟩
  exact (Pool.life_of_run (crash_run _ crashAnswered)).trans
    (.head hcrash (Pool.life_of_run (crash_run _ crashAgain)))

theorem acknowledged_last_crash : crashMiddle.state.tx.isSome = true ∧
    crashEnd.state.db.ledger = ["quarantined-node-A", "clean-parent-1", "node-1"] ∧
    (Fact.node "node-1").Holds crashEnd.state.db := by
  have hrun := crash_run [(0, fun _ => false)]
    (Gateway.serve openSetup crashRequests { db := ({} : Db).reset openSetup.env.sha256 })
  have hresult : (crashAnswered.prog 0).result? = some (.ok { reply := .committed false }) := by
    decide +kernel
  refine ⟨by decide +kernel, by decide +kernel, ?_⟩
  refine acknowledged_last rfl hrun (Pool.finished_of_result hresult) crash_life _ ?_
  exact ⟨openPayload "agent" "node-1" ["clean-parent-1"], rfl, Or.inl ⟨by simp, rfl⟩⟩

/-- A rejection has written the ledger of its copy, but not its record, when the process dies. -/
theorem books_survive_crash : ∃ p : Pool (Fin 2) Call Call.Res Exc (Gateway (Fin 2))
      (Except Exc Response),
    Relation.ReflTransGen
      (Pool.LifeStep (TaskStepOn openSetup Answers.lawful FreshEvents)
        (Gateway.Boots openSetup Request.Transacts))
      (Gateway.serve openSetup booksRequests { db := ({} : Db).reset openSetup.env.sha256 }) p ∧
    p.state.db.ledger = ["quarantined-node-A", "clean-parent-1"] ∧
    ¬ ∃ r ∈ p.state.db.taintedRejections, r.nodeId = "node-1" := by
  let step := fun i : Fin 2 => (crashScript i).checkedStep openSetup eventCheck i
  have hrun := Script.schedule_run_on crashScript openSetup eventCheck FreshEvents
    fun _ _ _ => freshEvents_of_check
  let start : Gateway (Fin 2) := { db := ({} : Db).reset openSetup.env.sha256 }
  let middle := Pool.schedule step [(0, fun c => c.kind = .tainted)] (start.serve openSetup booksRequests)
  let again : Pool (Fin 2) Call Call.Res Exc (Gateway (Fin 2)) (Except Exc Response) :=
    Gateway.serve openSetup booksRequests { db := middle.state.db }
  have hmiddle := hrun [(0, fun c => c.kind = .tainted)] (start.serve openSetup booksRequests)
  have hagain := hrun [(1, fun _ => false)] again
  have hlife : Relation.ReflTransGen
      (Pool.LifeStep (TaskStepOn openSetup Answers.lawful FreshEvents)
        (Gateway.Boots openSetup Request.Transacts))
      (start.serve openSetup booksRequests) (Pool.schedule step [(1, fun _ => false)] again) := by
    refine (Pool.life_of_run hmiddle).trans
      (.head (.crash ⟨booksRequests, none, booksRequests_transacts, rfl⟩) ?_)
    exact Pool.life_of_run hagain
  have hend : (Pool.schedule step [(1, fun _ => false)] again).state.db.ledger =
      ["quarantined-node-A", "clean-parent-1"] := by decide +kernel
  refine ⟨_, hlife, hend, fun hrow => ?_⟩
  have hstart : ∀ x, start.db.OnRecord x → x ∈ start.db.ledger := by
    rintro x (⟨e, he, -⟩ | hx)
    · exact absurd he (by simp [start, Db.reset, Db.cleared, Db.commitNode])
    · exact absurd hx (by simp [start, Db.reset, Db.cleared, Db.commitNode])
  have hbooks := ((books_survive (s := start) rfl hstart booksRequests_transacts hlife).2 "node-1").mpr
    (Or.inr (Or.inr hrow))
  rw [hend] at hbooks
  exact absurd hbooks (by decide)

end GovernorGateway
