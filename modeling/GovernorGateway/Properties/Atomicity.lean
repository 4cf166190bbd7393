/-
# Submissions are atomic

`/submit-candidate` reads, decides, writes and audits inside one transaction; it answers by
returning, which commits, or by raising, which goes back.  Here every awaited call may FAIL, after
any part of its work: a backend call, the policy engine, the transaction's `BEGIN` and its commit
(`FaultStep`).

`submit_atomic` accounts for every outcome: the node is new afterwards exactly when the answer says
so, and an answer that admits nothing and rejects nothing leaves every table but the audit as it
was.
-/
import GovernorGateway.Semantics.World
import GovernorGateway.Semantics.Scripted

namespace GovernorGateway

open Effects

variable {g : Setup}

/-! ## 1. Calls that may fail -/

/-- A call does what it does, or it raises.  A backend call or a commit that raises has done any
part of its work to the open connection; the outside world answers anything. -/
def FaultStep (g : Setup) : Trans Call Call.Res Exc World
  | .store c, w, r, w' =>
    (r = (c.exec g w.db).1 ∧ w' = { w with db := (c.exec g w.db).2 }) ∨
      (∃ e, r = .error e) ∧ ∃ db, w' = { w with db := db }
  | .ext _, w, _, w' => w' = w
  | .sync .begin, w, r, w' => (r = .ok () ∧ w' = w.sync .begin) ∨ (∃ e, r = .error e) ∧ w' = w
  | .sync .commit, w, r, w' =>
    (r = .ok () ∧ w' = w.sync .commit) ∨ (∃ e, r = .error e) ∧ ∃ db, w' = { w with db := db }
  | .sync k, w, r, w' => r = .ok () ∧ w' = w.sync k
  | .getAdapterKey, w, r, w' => r = .ok w.adapterKey ∧ w' = w
  | .setAdapterKey key, w, r, w' => r = .ok () ∧ w' = { w with adapterKey := some key }

section Rules

variable {d₀ : Db} {I : Db → Prop} {ks : List CallKind}

/-- What the store functions of these kinds keep. -/
def StoreKeeps (g : Setup) (ks : List CallKind) (I : Db → Prop) : Prop :=
  ∀ c : Store, c.kind ∈ ks → ∀ db a, (c.exec g db).1 = .ok a → I db → I (c.exec g db).2

/-- Whatever fails inside the transaction, the copy to go back to is kept. -/
theorem saved_of_fault {c : Call} (hc : c.NoTx) {w w' : World} {r : Except Exc c.Res}
    (ht : FaultStep g c w r w') : w'.saved = w.saved := by
  cases c with
  | store c =>
    rcases ht with ⟨-, rfl⟩ | ⟨-, db, rfl⟩
    · rfl
    · rfl
  | ext e => rw [show w' = w from ht]
  | getAdapterKey => rw [ht.2]
  | setAdapterKey key => rw [ht.2]
  | sync k =>
    cases k with
    | begin => exact absurd hc id
    | commit => exact absurd hc id
    | rollback => exact absurd hc id
    | enterShared => rw [ht.2]; rfl
    | leaveShared => rw [ht.2]; rfl
    | requestExclusive => rw [ht.2]; rfl
    | enterExclusive => rw [ht.2]; rfl
    | leaveExclusive => rw [ht.2]; rfl

/-- A call that answers keeps what the store functions keep. -/
theorem keeps_of_fault (hI : StoreKeeps g ks I) {c : Call} (hk : c.kind ∈ ks) (hc : c.NoTx)
    {w w' : World} {v : c.Res} (ht : FaultStep g c w (.ok v) w') (hw : I w.db) : I w'.db := by
  cases c with
  | store c =>
    rcases ht with ⟨hr, rfl⟩ | ⟨⟨e, he⟩, -⟩
    · exact hI c hk w.db v hr.symm hw
    · exact absurd he (by simp)
  | ext e => rwa [show w' = w from ht]
  | getAdapterKey => rwa [ht.2]
  | setAdapterKey key => rwa [ht.2]
  | sync k =>
    cases k with
    | begin => exact absurd hc id
    | commit => exact absurd hc id
    | rollback => exact absurd hc id
    | enterShared => rwa [ht.2]
    | leaveShared => rwa [ht.2]
    | requestExclusive => rwa [ht.2]
    | enterExclusive => rwa [ht.2]
    | leaveExclusive => rwa [ht.2]

/-- A part of the transaction that lets exceptions through, in front of the rest. -/
theorem fault_bind {α β : Type} {x : Handler α} {f : α → Handler β} {F : β → World → Prop}
    (hI : StoreKeeps g ks I) (hx : x.Propagates) (hu : x.Uses fun c => c.kind ∈ ks ∧ c.NoTx)
    {w : World} (hsaved : w.saved = some d₀) (hw : I w.db)
    (hf : ∀ a w', w'.saved = some d₀ → I w'.db → Act.Sat (FaultStep g) Trans.any (f a)
      (onOk F fun _ w'' => w''.saved = some d₀) w') :
    Act.Sat (FaultStep g) Trans.any (x >>= f) (onOk F fun _ w'' => w''.saved = some d₀) w :=
  hx.sat_bind (I := fun w => w.saved = some d₀ ∧ I w.db) (X := fun w => w.saved = some d₀) hu
    (fun _ hc _ _ _ ht hs => ⟨trivial, (saved_of_fault hc.2 ht).trans hs.1,
      keeps_of_fault hI hc.1 hc.2 ht hs.2⟩)
    (fun _ hc _ _ _ ht hs => ⟨trivial, (saved_of_fault hc.2 ht).trans hs.1⟩)
    (fun _ hs => hs.1) ⟨hsaved, hw⟩ (fun a w' hs => hf a w' hs.1 hs.2)
    fun _ w' (hs : w'.saved = some d₀) => hs

theorem of_kinds (h : ks.contains .tx = false) : Call.Of (fun c => c.kind ∈ ks ∧ c.NoTx) ks :=
  fun c hc => ⟨hc, Call.of_noTx h c hc⟩

end Rules

/-! ## 2. The parts of the transaction let exceptions through -/

theorem propagates_store (c : Store) : (store c).Propagates := Act.propagates_perform _

theorem propagates_ext (e : Ext) : (ext e).Propagates := Act.propagates_perform _

theorem propagates_stampNow : stampNow.Propagates :=
  Act.propagates_bind (propagates_ext _) fun _ => Act.propagates_pure _

theorem propagates_recurrenceHook (ids : List NodeId) (cls : String) :
    (recurrenceHook g ids cls).Propagates := by
  refine Act.propagates_bind (propagates_ext _) fun _ =>
    Act.propagates_bind (propagates_store _) fun active => Act.propagates_forEach (fun x => ?_) ids
  split
  · refine Act.propagates_bind (propagates_store _) fun _ =>
      Act.propagates_bind (propagates_ext _) fun _ => Act.propagates_bind propagates_stampNow fun _ =>
        Act.propagates_bind (propagates_ext _) fun _ => ?_
    split
    · exact propagates_store _
    · exact propagates_store _
  · exact Act.propagates_pure _

theorem propagates_recordDecision (decisionId writer : String) (p : Payload)
    (status : List ParentStatus) (blocked : Bool) (reason : String) :
    (recordDecision g decisionId writer p status blocked reason).Propagates :=
  Act.propagates_bind propagates_stampNow fun _ => propagates_store _

theorem propagates_auditAdmission (p : Payload) (status : List ParentStatus)
    (decisionId writer : String) (isNew : Bool) :
    (auditAdmission g p status decisionId writer isNew).Propagates := by
  unfold auditAdmission
  split
  · exact Act.propagates_bind (propagates_recordDecision ..) fun _ => propagates_store _
  · exact Act.propagates_pure _

theorem propagates_offerReplacement (p : Payload) (root : NodeId) :
    (offerReplacement p root).Propagates := by
  refine Act.propagates_bind (propagates_store _) fun replacement => ?_
  cases replacement with
  | none => exact Act.propagates_pure _
  | some r => exact Act.propagates_bind (propagates_store _) fun _ => Act.propagates_pure _

/-! ## 3. The transaction -/

section Accounting

variable {d₀ : Db}

/-- An answer accounts for what was done: the node is new exactly when it was admitted, or rejected
under a free id, and when it was neither, everything but the audit is as before. -/
structure Accounted (id : NodeId) (d d' : Db) (out : Except Exc Response) : Prop where
  new : (id ∉ d.nodeIds ∧ id ∈ d'.nodeIds) ↔
    ∃ a, out = .ok a ∧ (a.Admits ∨ a.Rejects ∧ id ∉ d.nodeIds)
  same : (¬ ∃ a, out = .ok a ∧ (a.Admits ∨ a.Rejects)) →
    ∃ audit, d' = { d with shadowDecisions := audit }

/-- Nothing was done, and the answer says so. -/
theorem Accounted.of_same {id : NodeId} {d d' : Db} {out : Except Exc Response}
    {audit : List ShadowDecision} (h : d' = { d with shadowDecisions := audit })
    (hout : ¬ ∃ a, out = .ok a ∧ (a.Admits ∨ a.Rejects)) : Accounted id d d' out := by
  refine ⟨⟨?_, ?_⟩, fun _ => ⟨audit, h⟩⟩
  · rintro ⟨hnew, hmem⟩
    rw [h] at hmem
    exact absurd hmem hnew
  · rintro ⟨a, ha, hadmits | ⟨hrejects, -⟩⟩
    · exact absurd ⟨a, ha, Or.inl hadmits⟩ hout
    · exact absurd ⟨a, ha, Or.inr hrejects⟩ hout

/-- The reads of the section change nothing. -/
theorem storeKeeps_reads (I : Db → Prop) : StoreKeeps g [.read, .ext] I := by
  intro c hc db a _ hI
  cases c with
  | updateRepairCandidate x rc => exact absurd hc (Store.kind_updateRepairCandidate x rc rfl rfl)
  | _ => first | exact hI | exact absurd hc (by simp [Store.kind])

/-- The audit is all that `record_shadow_decision` writes. -/
theorem storeKeeps_audit : StoreKeeps g [.ext, .audit]
    fun db => ∃ audit, db = { d₀ with shadowDecisions := audit } := by
  intro c hc db a hr hI
  cases c with
  | recordShadowDecision d =>
    obtain ⟨audit, rfl⟩ := hI
    simp only [Store.exec, Db.recordShadowDecision] at hr ⊢
    split at hr
    · exact absurd hr (by simp)
    · rw [if_neg ‹_›]
      exact ⟨_, rfl⟩
  | updateRepairCandidate x rc => exact absurd hc (Store.kind_updateRepairCandidate x rc rfl rfl)
  | _ => exact absurd hc (by simp [Store.kind])

/-- What follows a commit. -/
def recordKinds : List CallKind := [.ext, .read, .repair, .withdrawal, .ledger, .tainted, .audit]

/-- It leaves the `nodes` table alone. -/
theorem storeKeeps_nodes (ids : List NodeId) :
    StoreKeeps g recordKinds fun db => db.nodeIds = ids := by
  intro c hc db a _ hI
  have hquiet : ¬ c.Loud → (c.exec g db).2.nodeIds = ids := by
    intro h
    rw [Store.exec_toLineage g db c h]
    exact hI
  cases c with
  | commitNode site p => exact absurd hc (by simp [Store.kind, recordKinds])
  | updateRepairCandidate x rc => exact absurd hc (Store.kind_updateRepairCandidate x rc rfl rfl)
  | applyQuarantineTransaction event ids => exact hI
  | _ => exact hquiet id

variable {w : World}

/-- What an exception inside the transaction leaves. -/
abbrev Inside (d₀ : Db) {α : Type} (F : α → World → Prop) : Except Exc α → World → Prop :=
  onOk F fun _ w' => w'.saved = some d₀

/-- The commit, in front of the rest. -/
theorem fault_commit_bind {β : Type} {site : CommitSite} {p : Payload} {f : Bool → Handler β}
    {F : β → World → Prop} (hsaved : w.saved = some d₀)
    (hok : Act.Sat (FaultStep g) Trans.any (f (w.db.commitNode g.env.sha256 p).1) (Inside d₀ F)
      { w with db := (w.db.commitNode g.env.sha256 p).2 }) :
    Act.Sat (FaultStep g) Trans.any (store (.commitNode site p) >>= f) (Inside d₀ F) w := by
  rw [Act.sat_bind]
  rintro r w' (⟨rfl, rfl⟩ | ⟨⟨e, rfl⟩, db, rfl⟩)
  · exact ⟨trivial, hok⟩
  · exact ⟨trivial, hsaved⟩

theorem fault_rejectTainted (p : Payload) (root : NodeId) (hsaved : w.saved = some d₀)
    (hdb : w.db = d₀) :
    Act.Sat (FaultStep g) Trans.any (rejectTainted g p root)
      (Inside d₀ fun _ w' => w'.saved = some d₀ ∧
        w'.db.nodeIds = (d₀.commitNode g.env.sha256 p).2.nodeIds) w := by
  have hA : Call.Of (fun c => c.kind ∈ recordKinds ∧ c.NoTx) recordKinds := of_kinds rfl
  rw [rejectTainted]
  refine fault_commit_bind hsaved ?_
  subst hdb
  refine (Prog.Propagates.sat (I := fun w' : World => w'.saved = some w.db ∧
      w'.db.nodeIds = (w.db.commitNode g.env.sha256 p).2.nodeIds)
    (A := fun c => c.kind ∈ recordKinds ∧ c.NoTx) (X := fun w' => w'.saved = some w.db) ?_ ?_
    (fun c hc _ _ _ ht hs => ⟨trivial, (saved_of_fault hc.2 ht).trans hs.1,
      keeps_of_fault (storeKeeps_nodes _) hc.1 hc.2 ht hs.2⟩)
    (fun c hc _ _ _ ht hs => ⟨trivial, (saved_of_fault hc.2 ht).trans hs.1⟩)
    (fun _ hs => hs.1) ⟨hsaved, rfl⟩)
  · exact Act.propagates_bind (propagates_store _) fun _ =>
      Act.propagates_bind (propagates_recurrenceHook _ _) fun _ =>
        Act.propagates_bind (propagates_store _) fun _ =>
          Act.propagates_bind (propagates_ext _) fun _ => Act.propagates_bind propagates_stampNow
            fun _ => Act.propagates_bind (propagates_store _) fun _ =>
              Act.propagates_bind propagates_stampNow fun _ =>
                Act.propagates_bind (propagates_store _) fun _ =>
                  Act.propagates_bind (propagates_offerReplacement _ _) fun _ =>
                    Act.propagates_pure _
  · exact Act.uses_bind (uses_store hA rfl) fun _ =>
      Act.uses_bind (uses_recurrenceHook g (hA.sub rfl) _ _) fun _ =>
        Act.uses_bind (uses_store hA rfl) fun _ => Act.uses_bind (uses_ext hA _ rfl) fun _ =>
          Act.uses_bind (uses_stampNow (hA.sub rfl)) fun _ => Act.uses_bind (uses_store hA rfl)
            fun _ => Act.uses_bind (uses_stampNow (hA.sub rfl)) fun _ =>
              Act.uses_bind (uses_store hA rfl) fun _ =>
                Act.uses_bind (uses_offerReplacement (hA.sub rfl) _ _) fun _ => Act.uses_pure _

/-- A refusal writes the audit and nothing else. -/
theorem fault_refuse {p : Payload} {status : List ParentStatus} {decisionId writer reason : String}
    {id : NodeId} {a : Response} (ha : ¬ (a.Admits ∨ a.Rejects)) (hsaved : w.saved = some d₀)
    (hdb : w.db = d₀) :
    Act.Sat (FaultStep g) Trans.any
      (recordDecision g decisionId writer p status true reason >>= fun _ => pure a)
      (Inside d₀ fun a' w' => w'.saved = some d₀ ∧ Accounted id d₀ w'.db (.ok a')) w := by
  have haudit : StoreKeeps g [.ext, .audit] fun db => ∃ audit, db = { d₀ with shadowDecisions := audit } :=
    storeKeeps_audit
  refine fault_bind haudit (propagates_recordDecision ..)
    (uses_recordDecision g (of_kinds rfl) ..) hsaved ⟨_, hdb⟩ fun _ w' hsaved' hI => ?_
  obtain ⟨audit, hdb'⟩ := hI
  refine ⟨hsaved', Accounted.of_same hdb' ?_⟩
  rintro ⟨a', ha', h⟩
  rw [← Except.ok.inj ha'] at h
  exact ha h

/-- What follows the decision. -/
theorem fault_enforce (p : Payload) (status : List ParentStatus) (hashes : NodeId → Option String)
    (decisionId writer : String) (d : Decision) (hsaved : w.saved = some d₀) (hdb : w.db = d₀) :
    Act.Sat (FaultStep g) Trans.any (enforce g p status hashes decisionId writer d)
      (Inside d₀ fun a w' => w'.saved = some d₀ ∧ Accounted p.payloadId d₀ w'.db (.ok a)) w := by
  cases d with
  | lineageInvalid =>
    refine fault_refuse ?_ hsaved hdb
    simp [Response.Admits, Response.Rejects]
  | verificationFailed =>
    refine fault_refuse ?_ hsaved hdb
    simp [Response.Admits, Response.Rejects]
  | taintedParent root =>
    rw [enforce, Act.sat_bind]
    refine (fault_rejectTainted p root hsaved hdb).mono ?_
    rintro (e | ⟨event, replacement⟩) w₁ h₁
    · exact h₁
    · refine fault_bind (storeKeeps_nodes _) (propagates_recordDecision ..)
        (uses_recordDecision g ((of_kinds rfl).sub rfl) ..) h₁.1 h₁.2 fun _ w' hsaved' hI => ?_
      have hrej : Response.Rejects { status := 403, reply := .tainted event replacement } :=
        ⟨event, replacement, rfl⟩
      refine ⟨hsaved', ⟨⟨fun h => ⟨_, rfl, Or.inr ⟨hrej, h.1⟩⟩, ?_⟩, fun h => ?_⟩⟩
      · rintro ⟨a, ha, hadmits | ⟨-, hnew⟩⟩
        · rw [← Except.ok.inj ha, Response.Admits] at hadmits
          exact absurd hadmits (by simp)
        · refine ⟨hnew, ?_⟩
          rw [hI]
          exact Lineage.mem_nodeIds_commitNode.mpr (Or.inr rfl)
      · exact absurd ⟨_, rfl, Or.inr hrej⟩ h
  | admitted =>
    rw [enforce, admitWrite]
    split
    · exact hsaved
    · subst hdb
      refine fault_commit_bind hsaved ?_
      by_cases hid : p.payloadId ∈ w.db.nodeIds
      · -- a duplicate: nothing is written, and nothing is audited
        have hdup : w.db.toLineage.commitNode g.env.sha256 p = (false, w.db.toLineage) :=
          Lineage.commitNode_of_mem hid
        have hcommit : w.db.commitNode g.env.sha256 p = (false, w.db) := by
          rw [Db.commitNode, hdup]
        rw [hcommit]
        refine ⟨hsaved, Accounted.of_same rfl ?_⟩
        rintro ⟨a, ha, h⟩
        rw [← Except.ok.inj ha] at h
        exact absurd h (by simp [Response.Admits, Response.Rejects])
      · have hnew : (w.db.commitNode g.env.sha256 p).1 = true := by
          rw [Db.commitNode, Lineage.commitNode, if_neg hid]
        rw [hnew]
        refine fault_bind (storeKeeps_nodes _) (propagates_auditAdmission ..)
          (uses_auditAdmission g ((of_kinds rfl).sub rfl) ..) hsaved rfl fun _ w' hsaved' hI => ?_
        have hadmits : Response.Admits { reply := .committed (!true) } := rfl
        refine ⟨hsaved', ⟨⟨fun _ => ⟨_, rfl, Or.inl hadmits⟩, fun _ => ⟨hid, ?_⟩⟩, fun h => ?_⟩⟩
        · rw [hI]
          exact Lineage.mem_nodeIds_commitNode.mpr (Or.inr rfl)
        · exact absurd ⟨_, rfl, Or.inl hadmits⟩ h

/-- A read of the section, in front of the rest. -/
theorem fault_read_bind {β : Type} {c : Store} {f : c.Res → Handler β} {F : β → World → Prop}
    (hc : c.kind = .read) (hsaved : w.saved = some d₀) (hdb : w.db = d₀)
    (hf : ∀ a w', w'.saved = some d₀ → w'.db = d₀ →
      Act.Sat (FaultStep g) Trans.any (f a) (Inside d₀ F) w') :
    Act.Sat (FaultStep g) Trans.any (store c >>= f) (Inside d₀ F) w :=
  fault_bind (storeKeeps_reads fun db => db = d₀) (propagates_store c)
    (uses_read ((of_kinds rfl).sub rfl) hc) hsaved hdb hf

/-- The payload that goes on has the id that was submitted. -/
theorem fault_prepareCompaction (p : Payload) (hsaved : w.saved = some d₀) (hdb : w.db = d₀) :
    Act.Sat (FaultStep g) Trans.any (prepareCompaction p)
      (Inside d₀ fun p' w' => p'.payloadId = p.payloadId ∧ w'.saved = some d₀ ∧ w'.db = d₀) w := by
  unfold prepareCompaction
  split
  · refine fault_read_bind rfl hsaved hdb fun gap w₁ h₁ hdb₁ => ?_
    split
    · exact ⟨rfl, h₁, hdb₁⟩
    · refine fault_read_bind rfl h₁ hdb₁ fun quarantined w₂ h₂ hdb₂ => ?_
      split
      · exact ⟨rfl, h₂, hdb₂⟩
      · exact h₂
  · exact ⟨rfl, hsaved, hdb⟩

/-- **The locked section accounts for what it does**, whatever fails. -/
theorem fault_submitLocked (hmode : g.settings.enforcementMode = .enforce) (p : Payload)
    (auth : Claims) (decisionId : String) (hsaved : w.saved = some d₀) (hdb : w.db = d₀) :
    Act.Sat (FaultStep g) Trans.any (submitLocked g p auth decisionId)
      (Inside d₀ fun a w' => w'.saved = some d₀ ∧ Accounted p.payloadId d₀ w'.db (.ok a)) w := by
  rw [submitLocked]
  refine fault_read_bind rfl hsaved hdb fun quarantinedId w₁ h₁ hdb₁ => ?_
  rw [Act.sat_bind, Act.sat_raiseIf]
  refine ⟨fun _ => h₁, fun _ => ?_⟩
  refine fault_read_bind rfl h₁ hdb₁ fun exists_ w₂ h₂ hdb₂ => ?_
  refine fault_read_bind rfl h₂ hdb₂ fun quarantined w₃ h₃ hdb₃ => ?_
  refine fault_read_bind rfl h₃ hdb₃ fun hashes w₄ h₄ hdb₄ => ?_
  rw [Act.sat_bind]
  refine (fault_prepareCompaction p h₄ hdb₄).mono ?_
  rintro (e | p') w₅ h₅
  · exact h₅
  · obtain ⟨hid, h₅, hdb₅⟩ := h₅
    have hext : ∀ c : Call, c.kind ∈ [CallKind.ext] → ∀ w r w', FaultStep g c w r w' →
        w = w₅ → Trans.any c w r w' ∧ w' = w₅ := by
      intro c hc w r w' ht hw
      cases c with
      | ext e => exact ⟨trivial, (show w' = w from ht).trans hw⟩
      | store c =>
        cases c with
        | updateRepairCandidate x rc =>
          exact absurd hc (Store.kind_updateRepairCandidate x rc rfl rfl)
        | _ => exact absurd hc (by simp [Call.kind, Store.kind])
      | sync k => cases k <;> exact absurd hc (by simp [Call.kind, Sync.kind])
      | getAdapterKey => exact absurd hc (by simp [Call.kind])
      | setAdapterKey key => exact absurd hc (by simp [Call.kind])
    refine Act.Uses.sat_bind (A := fun c => c.kind ∈ [CallKind.ext]) (I := fun w' => w' = w₅)
      (uses_failClosed (uses_evaluateAdmission (fun _ hc => hc) _ _ _ _)) hext rfl
      (fun d w₆ hw₆ => ?_) fun e w₆ hw₆ => ?_
    · rw [hmode]
      subst hw₆
      rw [← hid]
      exact fault_enforce p' _ _ _ _ d h₅ hdb₅
    · subst hw₆
      exact h₅

end Accounting

/-! ## 4. The request -/

/-- **The transaction rule with failures.**  A value means that the commit went through; whatever
raises, the commit included, leaves the database as it was. -/
theorem fault_withTransaction {α : Type} {x : Handler α} {F : α → Db → Prop} {w : World}
    (h : Act.Sat (FaultStep g) Trans.any x
      (Inside w.db fun a w' => w'.saved = some w.db ∧ F a w'.db) { w with saved := some w.db }) :
    Act.Sat (FaultStep g) Trans.any (withTransaction x)
      (onOk (fun a w' => F a w'.db) fun _ w' => w'.db = w.db) w := by
  have hback : ∀ (e : Exc) (w₁ : World), w₁.saved = some w.db →
      Act.Sat (FaultStep g) Trans.any (do sync .rollback; Act.raise e : Handler α)
        (onOk (fun a w' => F a w'.db) fun _ w' => w'.db = w.db) w₁ := by
    intro e w₁ hsaved
    rw [Act.sat_bind]
    rintro r w₂ ⟨rfl, rfl⟩
    refine ⟨trivial, ?_⟩
    change w₁.saved.getD w₁.db = w.db
    rw [hsaved]
    rfl
  rw [withTransaction, Act.sat_bind]
  rintro r w₁ (⟨rfl, rfl⟩ | ⟨⟨e, rfl⟩, rfl⟩)
  · refine ⟨trivial, ?_⟩
    change Act.Sat _ _ (Act.attempt _ >>= _) _ _
    rw [Act.sat_bind, Act.sat_attempt, Act.sat_bind]
    refine Act.Sat.mono h ?_
    rintro (e | a) w₂ h₂
    · exact hback e w₂ h₂
    · rw [onOk_ok, Act.sat_bind]
      rintro r w₃ (⟨rfl, rfl⟩ | ⟨⟨e, rfl⟩, db, rfl⟩)
      · exact ⟨trivial, h₂.2⟩
      · exact ⟨trivial, hback e _ h₂.1⟩
  · exact ⟨trivial, rfl⟩

theorem fault_withShared {α : Type} {x : Handler α} {F : α → Db → Prop} {d : Db} {w : World}
    (h : Act.Sat (FaultStep g) Trans.any x (onOk (fun a w' => F a w'.db) fun _ w' => w'.db = d) w) :
    Act.Sat (FaultStep g) Trans.any (withShared x)
      (onOk (fun a w' => F a w'.db) fun _ w' => w'.db = d) w := by
  rw [withShared, Act.sat_bind]
  rintro r w₁ ⟨rfl, rfl⟩
  refine ⟨trivial, ?_⟩
  change Act.Sat _ _ (x.always _) _ _
  rw [Act.sat_always]
  refine Act.Sat.mono h ?_
  rintro (e | a) w₂ h₂ r' w₃ ⟨rfl, rfl⟩
  · exact ⟨trivial, h₂⟩
  · exact ⟨trivial, h₂⟩

theorem fault_submitCandidate (hmode : g.settings.enforcementMode = .enforce) (bytes : ℕ)
    (body : SubmitBody) (w : World) :
    Act.Sat (FaultStep g) Trans.any (submitCandidate g bytes body)
      (onOk (fun a w' => ∃ p, parseSubmission g bytes body = .ok p ∧
          Accounted p.payloadId w.db w'.db (.ok a))
        fun _ w' => w'.db = w.db) w := by
  rw [submitCandidate, Act.sat_bind]
  refine (sat_submitChecks (fun _ _ _ _ ht => ht) bytes body w).mono ?_
  rintro (e | ⟨p, auth, decisionId⟩) w₁ h₁
  · exact congrArg World.db h₁
  · obtain ⟨rfl, hparse, -⟩ := h₁
    let F (a : Response) (d : Db) : Prop := ∃ p, parseSubmission g bytes body = .ok p ∧
      Accounted p.payloadId w₁.db d (.ok a)
    refine fault_withShared (F := F) (fault_withTransaction (F := F) ?_)
    refine (fault_submitLocked hmode p auth decisionId (w := { w₁ with saved := some w₁.db })
      (Eq.refl (some w₁.db)) rfl).mono ?_
    rintro (e | a) w₂ h₂
    · exact h₂
    · exact ⟨h₂.1, p, hparse, h₂.2⟩

/-- **Submissions are atomic.**  From any database, for any body, and whatever call fails: the
payload's node is newly stored exactly when the answer is a 200 that is not idempotent, or a 403
`TAINTED_PARENT` under an id that was free; with any other answer, or an exception, every table but
the audit is as it was. -/
theorem submit_atomic (hmode : g.settings.enforcementMode = .enforce) {bytes : ℕ}
    {body : SubmitBody} {w w' : World} {tr : List (Event Call Call.Res Exc World)}
    {out : Except Exc Response}
    (hexec : Exec (FaultStep g) (submitCandidate g bytes body).tree w tr out w') :
    (∀ p, body = .payload p →
      ((p.payloadId ∉ w.db.nodeIds ∧ p.payloadId ∈ w'.db.nodeIds) ↔
        ∃ a, out = .ok a ∧ (a.Admits ∨ a.Rejects ∧ p.payloadId ∉ w.db.nodeIds))) ∧
    ((¬ ∃ a, out = .ok a ∧ (a.Admits ∨ a.Rejects)) →
      ∃ audit, w'.db = { w.db with shadowDecisions := audit }) := by
  have hpost := (Prog.Sat.sound (fault_submitCandidate hmode bytes body w) hexec).2
  cases out with
  | error e =>
    have hsame : w'.db = { w.db with shadowDecisions := w.db.shadowDecisions } := hpost
    have hnone : ¬ ∃ a : Response, Except.error e = .ok a ∧ (a.Admits ∨ a.Rejects) := by simp
    exact ⟨fun p _ => (Accounted.of_same hsame hnone).new, fun _ => ⟨_, hsame⟩⟩
  | ok a =>
    obtain ⟨p, hparse, hacc⟩ := hpost
    refine ⟨fun q hq => ?_, hacc.same⟩
    subst hq
    rw [← parseSubmission_payload hparse]
    exact hacc.new

/-- The calls under a script, except that the record of the rejection cannot be written and the open
connection is left without any of its tables. -/
def failingStep (o : Script) (g : Setup) : (c : Call) → World → Except Exc c.Res × World
  | .store (.recordTaintedRejection _ _ _ _), w =>
    (.error (.other "disk I/O error"), { w with db := {} })
  | c, w => o.step g c w

theorem failingStep_fault (o : Script) (c : Call) (w : World) :
    FaultStep g c w (failingStep o g c w).1 (failingStep o g c w).2 := by
  cases c with
  | store c =>
    cases c with
    | recordTaintedRejection x parent rejectedAt author =>
      exact Or.inr ⟨⟨_, rfl⟩, {}, rfl⟩
    | _ => exact Or.inl ⟨rfl, rfl⟩
  | ext e => rfl
  | sync k => cases k <;> first | exact ⟨rfl, rfl⟩ | exact Or.inl ⟨rfl, rfl⟩
  | getAdapterKey => exact ⟨rfl, rfl⟩
  | setAdapterKey key => exact ⟨rfl, rfl⟩

/-- A rejection in the middle of which the disk fails: the node has been committed and quarantined,
and is gone afterwards. -/
theorem submit_atomic_disk_failure : ∃ tr m w',
    Exec (FaultStep (sampleSetup fun _ => zeros64))
      (submitCandidate (sampleSetup fun _ => zeros64) 512 (.payload
        (samplePayload (fun _ => zeros64) "new-node" ["quarantined-node-A"]))).tree
      (World.initial (sampleSetup fun _ => zeros64) {} none) tr (.error (.other m)) w' ∧
    "new-node" ∉ w'.db.nodeIds ∧ ∃ audit, w'.db =
      { (World.initial (sampleSetup fun _ => zeros64) {} none).db with shadowDecisions := audit } := by
  let g := sampleSetup fun _ => zeros64
  let x := submitCandidate g 512
    (.payload (samplePayload (fun _ => zeros64) "new-node" ["quarantined-node-A"]))
  let w := World.initial g {} none
  obtain ⟨tr, hexec⟩ := Prog.exists_exec (T := FaultStep g)
    (fun c w => failingStep_fault { now := 0, uuid := "1" } c w) x.tree w
  have hout : (x.tree.run (failingStep { now := 0, uuid := "1" } g) w).1 =
      .error (.other "disk I/O error") := by
    decide +kernel
  generalize x.tree.run (failingStep { now := 0, uuid := "1" } g) w = out at hexec hout
  rw [hout] at hexec
  have hatomic := submit_atomic rfl hexec
  refine ⟨tr, _, out.2, hexec, ?_, hatomic.2 ?_⟩
  · intro hmem
    have hfree : "new-node" ∉ w.db.nodeIds := by decide
    have hnew := (hatomic.1 _ rfl).mp ⟨hfree, hmem⟩
    obtain ⟨a, ha, -⟩ := hnew
    exact absurd ha (by simp)
  · rintro ⟨a, ha, -⟩
    exact absurd ha (by simp)

end GovernorGateway
