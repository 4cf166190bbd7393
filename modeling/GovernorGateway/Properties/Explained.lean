/-
# The ledger is explained by the records

An id enters the quarantine ledger with the event of a designator, which names it in its radius, or
as the id of a rejected submission, which has a row in `tainted_rejections`.  A rejection stores the
two in TWO calls.  What holds the books together is the transaction of the submission: between the
calls its copy owes a record (`Debt`), and no `COMMIT` is reached with a debt.

`ledger_explained` is the balance of the committed books, in every state of every interleaving of
requests that write the ledger inside transactions of their own (`Request.Transacts`): the ledger is
what it was at the start and what is on record, no more and no less.
-/
import GovernorGateway.Properties.Provenance

namespace GovernorGateway

open Effects

/-! ## 1. The books -/

/-- The id is in the radius of a designator's event, or is that of a rejection. -/
def Db.OnRecord (db : Db) (x : NodeId) : Prop :=
  (∃ e ∈ db.quarantineEvents, e.designatorIdentity.isSome = true ∧ x ∈ e.computedBlastRadius) ∨
    x ∈ db.taintedRejections.map TaintedRejection.nodeId

/-- The ledger is `ids`, what is on record, and what is owed a record. -/
def Db.Accounted (ids owed : List NodeId) (db : Db) : Prop :=
  ∀ x, x ∈ db.ledger ↔ x ∈ ids ∨ db.OnRecord x ∨ x ∈ owed

section Books

variable {g : Setup} {ids owed : List NodeId} {db db' : Db}

theorem Db.Accounted.of_same (h : db.Accounted ids owed) (hledger : db'.ledger = db.ledger)
    (hevents : db'.quarantineEvents = db.quarantineEvents)
    (hrejections : db'.taintedRejections.map TaintedRejection.nodeId =
      db.taintedRejections.map TaintedRejection.nodeId) : db'.Accounted ids owed := by
  intro x
  rw [hledger, h x, Db.OnRecord, Db.OnRecord, hevents, hrejections]

/-- A new event, and the ids that enter the ledger with it. -/
theorem Db.Accounted.quarantine (h : db.Accounted ids owed) {event : QuarantineEvent}
    {new : List NodeId}
    (hfresh : event.quarantineEventId ∉ db.quarantineEvents.map QuarantineEvent.quarantineEventId) :
    (event.designatorIdentity.isSome = true → new = event.computedBlastRadius) →
    (Store.exec g (.applyQuarantineTransaction event new) db).2.Accounted ids
      (if event.designatorIdentity.isSome = true then owed else owed ++ new) := by
  intro hradius x
  have hledger : x ∈ (Store.exec g (.applyQuarantineTransaction event new) db).2.ledger ↔
      x ∈ db.ledger ∨ x ∈ new := Lineage.mem_ledger_quarantine
  have hevents : (Store.exec g (.applyQuarantineTransaction event new) db).2.quarantineEvents =
      db.quarantineEvents ++ [{ event with maxTraversalDepth := some g.settings.maxTraversalDepth }] :=
    Keyed.insertOrReplace_of_notMem hfresh
  have hrecord : (Store.exec g (.applyQuarantineTransaction event new) db).2.OnRecord x ↔
      db.OnRecord x ∨ (event.designatorIdentity.isSome = true ∧ x ∈ event.computedBlastRadius) := by
    rw [Db.OnRecord, hevents]
    simp only [List.mem_append, List.mem_singleton, Db.OnRecord]
    constructor
    · rintro (⟨e, he | rfl, hdes, hx⟩ | hx)
      · exact Or.inl (Or.inl ⟨e, he, hdes, hx⟩)
      · exact Or.inr ⟨hdes, hx⟩
      · exact Or.inl (Or.inr hx)
    · rintro ((⟨e, he, hdes, hx⟩ | hx) | ⟨hdes, hx⟩)
      · exact Or.inl ⟨e, Or.inl he, hdes, hx⟩
      · exact Or.inr hx
      · exact Or.inl ⟨_, Or.inr rfl, hdes, hx⟩
  rw [hledger, hrecord, h x]
  split
  · rename_i hdes
    rw [hradius hdes]
    tauto
  · rename_i hdes
    rw [List.mem_append]
    tauto

/-- A record of what was owed one. -/
theorem Db.Accounted.rejection (h : db.Accounted ids owed) {x parent : NodeId} {at_ author : String}
    (hx : x ∈ owed) :
    (Store.exec g (.recordTaintedRejection x parent at_ author) db).2.Accounted ids
      (owed.filter (· ≠ x)) := by
  intro y
  have hledger : y ∈ (Store.exec g (.recordTaintedRejection x parent at_ author) db).2.ledger ↔
      y ∈ db.ledger := Iff.rfl
  have hrecord : (Store.exec g (.recordTaintedRejection x parent at_ author) db).2.OnRecord y ↔
      db.OnRecord y ∨ y = x := by
    simp only [Db.OnRecord, Store.exec, Db.recordTaintedRejection, List.map_append, List.mem_append,
      List.map_cons, List.map_nil, List.mem_singleton]
    exact or_assoc.symm
  rw [hledger, hrecord, h y]
  simp only [List.mem_filter, decide_eq_true_eq]
  by_cases hy : y = x
  · subst hy
    simp [hx]
  · simp [hy]

/-- The calls that keep the books: an event, and a rejection. -/
def Store.Books : Store → Bool
  | .applyQuarantineTransaction _ _ | .recordTaintedRejection _ _ _ _ => true
  | _ => false

theorem Db.Accounted.exec (h : db.Accounted ids owed) {c : Store} (hc : c.Books = false) :
    (c.exec g db).2.Accounted ids owed := by
  cases c with
  | applyQuarantineTransaction event ids => exact absurd hc (by simp [Store.Books])
  | recordTaintedRejection x parent at_ author => exact absurd hc (by simp [Store.Books])
  | commitNode site p =>
    exact h.of_same Lineage.commitNode_ledger rfl rfl
  | computeBlastRadius root =>
    obtain ⟨rcs, hrcs⟩ := Db.computeBlastRadius_snd g.settings.maxTraversalDepth root db
    refine h.of_same ?_ ?_ ?_
    all_goals
      simp only [Store.exec]
      rw [hrcs]
      rfl
  | recordShadowDecision d =>
    simp only [Store.exec, Db.recordShadowDecision]
    split
    · exact h
    · exact h.of_same rfl rfl rfl
  | recordTaintedOffer x replacement type =>
    refine h.of_same rfl rfl ?_
    simp only [Store.exec, Db.recordTaintedOffer, List.map_map]
    refine List.map_congr_left fun r _ => ?_
    simp only [Function.comp]
    split
    · rfl
    · rfl
  | checkRetryCompletion p =>
    refine h.of_same rfl rfl ?_
    simp only [Store.exec, Db.checkRetryCompletion]
    generalize (db.taintedRejections.filter _).filter _ = taken
    generalize db.taintedRejections = rows
    induction taken generalizing rows with
    | nil => rfl
    | cons done taken ih =>
      rw [List.foldl_cons, ih, List.map_map]
      refine List.map_congr_left fun r _ => ?_
      simp only [Function.comp]
      split
      · rfl
      · rfl
  | _ => exact h

end Books

/-! ## 2. One task -/

/-- The request writes the ledger, if at all, inside a transaction of its own.  `/detector` does
NOT: its event and its ids are statements on the connection all handlers share, and the commit of
another handler may come between them. -/
def Request.Transacts : Request → Prop
  | .detector _ _ _ => False
  | _ => True

/-- Whether the task has a transaction open, and the ids it has moved into the ledger of its copy
without a record. -/
structure Debt where
  inTx : Bool := false
  owed : List NodeId := []

namespace Debt

/-- What a call does to the debts of its task.  Any call of the store can be refused. -/
def Step (answers : Answers) : Trans Call Call.Res Exc Debt
  | .store (.applyQuarantineTransaction event ids), l, r, l' =>
    ((∃ a, r = .ok a) ∧ l' =
        if event.designatorIdentity.isSome = true then l else { l with owed := l.owed ++ ids }) ∨
      (∃ e, r = .error e) ∧ l' = l
  | .store (.recordTaintedRejection x _ _ _), l, r, l' =>
    (r = .ok () ∧ l' = { l with owed := l.owed.filter (· ≠ x) }) ∨ (∃ e, r = .error e) ∧ l' = l
  | .ext e, l, r, l' => answers e r ∧ l' = l
  | .sync .begin, l, r, l' => (r = .ok () ∧ l' = { inTx := true }) ∨ (∃ e, r = .error e) ∧ l' = l
  | .sync .commit, _, r, l' => r = .ok () ∧ l' = {}
  | .sync .rollback, _, r, l' => r = .ok () ∧ l' = {}
  | _, l, _, l' => l' = l

/-- Debts are made inside a transaction and paid before its end. -/
def Duty : Trans Call Call.Res Exc Debt
  | .store (.applyQuarantineTransaction event ids), l, _, _ =>
    if event.designatorIdentity.isSome = true then ids = event.computedBlastRadius else l.inTx = true
  | .store (.recordTaintedRejection x _ _ _), l, _, _ => l.inTx = true ∧ x ∈ l.owed
  | .sync .commit, l, _, _ => l.owed = []
  | _, _, _, _ => True

end Debt

/-- The calls that change no debt. -/
def Call.Idle : Call → Prop
  | .store (.applyQuarantineTransaction _ _) => False
  | .store (.recordTaintedRejection _ _ _ _) => False
  | .sync .begin => False
  | .sync .commit => False
  | .sync .rollback => False
  | _ => True

theorem Call.of_idle {ks : List CallKind} (h : ks.contains .ledger = false)
    (h' : ks.contains .tainted = false) (h'' : ks.contains .tx = false) : Call.Of Call.Idle ks := by
  intro c hc
  have hnot : ∀ {k : CallKind}, ks.contains k = false → c.kind ≠ k := by
    intro k hk heq
    rw [heq, ← List.contains_iff_mem, hk] at hc
    exact absurd hc (by simp)
  cases c with
  | store c =>
    cases c with
    | applyQuarantineTransaction event ids => exact absurd rfl (hnot h)
    | recordTaintedRejection x parent at_ author => exact absurd rfl (hnot h')
    | _ => trivial
  | sync k =>
    cases k with
    | begin => exact absurd rfl (hnot h'')
    | commit => exact absurd rfl (hnot h'')
    | rollback => exact absurd rfl (hnot h'')
    | _ => trivial
  | _ => trivial

section Task

variable {g : Setup} {answers : Answers} {α β : Type} {req : Request}

/-- A step of the task, whose calls are those its request may make. -/
abbrev Request.Owing (g : Setup) (answers : Answers) (req : Request) : Trans Call Call.Res Exc Debt :=
  fun c l r l' => Debt.Step answers c l r l' ∧ req.May g answers (fun _ => True) c

theorem Debt.step_idle {c : Call} (hc : c.Idle) {l l' : Debt} {r : Except Exc c.Res}
    (h : Debt.Step answers c l r l') : Debt.Duty c l r l' ∧ l' = l := by
  cases c with
  | store c =>
    cases c with
    | applyQuarantineTransaction event ids => exact absurd hc id
    | recordTaintedRejection x parent at_ author => exact absurd hc id
    | _ => exact ⟨trivial, h⟩
  | ext e => exact ⟨trivial, h.2⟩
  | sync k =>
    cases k with
    | begin => exact absurd hc id
    | commit => exact absurd hc id
    | rollback => exact absurd hc id
    | _ => exact ⟨trivial, h⟩
  | _ => exact ⟨trivial, h⟩

/-- A part that changes no debt, in front of the rest. -/
theorem debt_bind {x : Handler α} {f : α → Handler β} {Q : Except Exc β → Debt → Prop} {l : Debt}
    (hx : x.Uses Call.Idle)
    (hok : ∀ a, Act.Sat (req.Owing g answers) Debt.Duty (f a) Q l) (herr : ∀ e, Q (.error e) l) :
    Act.Sat (req.Owing g answers) Debt.Duty (x >>= f) Q l := by
  refine Act.Uses.sat_bind (I := fun l' => l' = l) hx ?_ rfl ?_ ?_
  · rintro c hc l₁ r l₂ ⟨hstep, -⟩ rfl
    exact Debt.step_idle hc hstep
  · rintro a _ rfl
    exact hok a
  · rintro e _ rfl
    exact herr e

/-- A part of a request that makes no debts: no submission, and no other lock than the admission
lock. -/
theorem debt_frame {x : Handler α} {l : Debt} (hx : x.Uses fun c => c.Idle ∨ c.kind = .ledger)
    (hreq : ∀ event ids, MayQuarantine g answers req event ids →
      event.designatorIdentity.isSome = true ∧ ids = event.computedBlastRadius) :
    Act.Sat (req.Owing g answers) Debt.Duty x (fun _ l' => l' = l) l := by
  refine Prog.Uses.sat (I := fun l' => l' = l) hx ?_ rfl
  rintro c hc l₁ r l₂ ⟨hstep, hmay⟩ rfl
  rcases hc with hc | hc
  · exact Debt.step_idle hc hstep
  · cases c with
    | store c =>
      cases c with
      | applyQuarantineTransaction event ids =>
        obtain ⟨hdes, hids⟩ := hreq event ids hmay
        refine ⟨?_, ?_⟩
        · simp only [Debt.Duty, hdes, if_true]
          exact hids
        · rcases hstep with ⟨-, h⟩ | ⟨-, h⟩
          · rwa [if_pos hdes] at h
          · exact h
      | updateRepairCandidate x rc =>
        exact absurd (List.mem_singleton.mpr hc)
          (Store.kind_updateRepairCandidate x rc rfl rfl : _ ∉ [CallKind.ledger])
      | _ => exact absurd hc (by simp [Call.kind, Store.kind])
    | ext e => exact absurd hc (by cases e <;> simp [Call.kind, Ext.kind])
    | sync k => exact absurd hc (by cases k <;> simp [Call.kind, Sync.kind])
    | getAdapterKey => exact absurd hc (by simp [Call.kind])
    | setAdapterKey key => exact absurd hc (by simp [Call.kind])

/-- **A transaction ends without debts** when its body does; a rollback forgets them. -/
theorem debt_withTransaction {x : Handler α} (hx : Act.Sat (req.Owing g answers) Debt.Duty x
      (onOk (fun _ l => l.owed = []) fun _ _ => True) { inTx := true }) :
    Act.Sat (req.Owing g answers) Debt.Duty (withTransaction x) (fun _ l => l = {}) {} := by
  rw [withTransaction, Act.sat_bind]
  rintro r l ⟨hbegin, -⟩
  refine ⟨trivial, ?_⟩
  rcases hbegin with ⟨rfl, rfl⟩ | ⟨⟨e, rfl⟩, rfl⟩
  · rw [Prog.Sat, onOk_ok, Act.sat_bind, Act.sat_attempt, Act.sat_bind]
    refine hx.mono ?_
    rintro (e | a) l hl
    · -- the body has raised
      simp only [onOk_error, onOk_ok]
      rw [Act.sat_bind]
      rintro r l' ⟨hrollback, -⟩
      obtain ⟨rfl, rfl⟩ := hrollback
      exact ⟨trivial, rfl⟩
    · simp only [onOk_ok]
      rw [Act.sat_bind]
      rintro r l' ⟨hcommit, -⟩
      obtain ⟨rfl, rfl⟩ := hcommit
      exact ⟨hl, rfl⟩
  · rfl

/-- The calls of a part without transactions that records no rejection. -/
theorem Call.of_idle_or_ledger {ks : List CallKind} (h : ks.contains .tainted = false)
    (h' : ks.contains .tx = false) : Call.Of (fun c => c.Idle ∨ c.kind = .ledger) ks := by
  intro c hc
  by_cases hkind : c.kind = .ledger
  · exact Or.inr hkind
  · have hmem : c.kind ∈ ks.filter (· ≠ .ledger) := by simpa using ⟨hc, hkind⟩
    have hnot : ∀ {k : CallKind}, ks.contains k = false → (ks.filter (· ≠ .ledger)).contains k = false := by
      intro k hk
      rw [← Bool.not_eq_true, List.contains_iff_mem, List.mem_filter, ← List.contains_iff_mem, hk]
      simp
    refine Or.inl (Call.of_idle ?_ (hnot h) (hnot h') c hmem)
    rw [← Bool.not_eq_true, List.contains_iff_mem, List.mem_filter]
    simp

theorem idle_offerReplacement (p : Payload) (root : NodeId) :
    (offerReplacement p root).Uses Call.Idle := by
  refine Act.uses_bind ((Act.uses_perform _).mpr trivial) fun replacement => ?_
  cases replacement with
  | none => exact Act.uses_pure _
  | some r => exact Act.uses_bind ((Act.uses_perform _).mpr trivial) fun _ => Act.uses_pure _

theorem idle_recordDecision (decisionId writer : String) (p : Payload) (status : List ParentStatus)
    (blocked : Bool) (reason : String) :
    (recordDecision g decisionId writer p status blocked reason).Uses Call.Idle :=
  uses_recordDecision g (Call.of_idle rfl rfl rfl) _ _ _ _ _ _

theorem idle_store {c : Store} (hc : Call.Idle (.store c)) : (store c).Uses Call.Idle :=
  (Act.uses_perform _).mpr hc

/-- **A rejection pays its debt**: the id that enters the ledger is recorded. -/
theorem debt_rejectTainted (p : Payload) (root : NodeId) (hreq : ∃ bytes body,
      req = .submitCandidate bytes body) :
    Act.Sat (req.Owing g answers) Debt.Duty (rejectTainted g p root)
      (onOk (fun _ l => l.owed = []) fun _ _ => True) { inTx := true } := by
  obtain ⟨bytes, body, rfl⟩ := hreq
  refine debt_bind (idle_store trivial) (fun _ => ?_) fun _ => trivial
  refine debt_bind (idle_store trivial) (fun ids => ?_) fun _ => trivial
  refine debt_bind (uses_recurrenceHook g (Call.of_idle rfl rfl rfl) _ _) (fun _ => ?_) fun _ => trivial
  refine debt_bind (idle_store trivial) (fun digest => ?_) fun _ => trivial
  refine debt_bind (uses_ext (Call.of_idle rfl rfl rfl : Call.Of Call.Idle [.ext]) _ rfl)
    (fun eventId => ?_) fun _ => trivial
  refine debt_bind (uses_stampNow (Call.of_idle rfl rfl rfl)) (fun detected => ?_) fun _ => trivial
  rw [Act.sat_bind]
  rintro r l ⟨hevent, -⟩
  refine ⟨rfl, ?_⟩
  rcases hevent with ⟨⟨event, rfl⟩, rfl⟩ | ⟨⟨e, rfl⟩, -⟩
  · -- the id is owed a record
    rw [Prog.Sat, onOk_ok]
    refine debt_bind (uses_stampNow (Call.of_idle rfl rfl rfl)) (fun rejected => ?_) fun _ => trivial
    rw [Act.sat_bind]
    rintro r l ⟨hrecord, -⟩
    refine ⟨⟨rfl, by simp⟩, ?_⟩
    rcases hrecord with ⟨rfl, rfl⟩ | ⟨⟨e, rfl⟩, -⟩
    · rw [Prog.Sat, onOk_ok]
      refine debt_bind (idle_offerReplacement p root) (fun replacement => ?_) fun _ => trivial
      change List.filter (fun x => decide (x ≠ p.payloadId)) [p.payloadId] = []
      simp
    · trivial
  · trivial

theorem debt_enforce (p : Payload) (status : List ParentStatus) (hashes : NodeId → Option String)
    (decisionId writer : String) (hreq : ∃ bytes body, req = .submitCandidate bytes body)
    (d : Decision) :
    Act.Sat (req.Owing g answers) Debt.Duty (enforce g p status hashes decisionId writer d)
      (onOk (fun _ l => l.owed = []) fun _ _ => True) { inTx := true } := by
  cases d with
  | admitted =>
    refine debt_bind ?_ (fun isNew => ?_) fun _ => trivial
    · unfold admitWrite
      split
      · exact Act.uses_raise _
      · exact idle_store trivial
    · refine debt_bind ?_ (fun _ => rfl) fun _ => trivial
      unfold auditAdmission
      split
      · exact Act.uses_bind (idle_recordDecision _ _ _ _ _ _) fun _ => idle_store trivial
      · exact Act.uses_pure _
  | taintedParent root =>
    rw [enforce, Act.sat_bind]
    refine (debt_rejectTainted p root hreq).mono ?_
    rintro (e | out) l hl
    · trivial
    · rw [onOk_ok, Act.sat_bind]
      refine Act.Sat.mono (Prog.Uses.sat (I := fun l' => l' = l) (idle_recordDecision _ _ _ _ _ _)
        ?_ rfl) ?_
      · rintro c hc l₁ r l₂ ⟨hstep, -⟩ rfl
        exact Debt.step_idle hc hstep
      · rintro (e | u) _ rfl
        · trivial
        · exact hl
  | lineageInvalid =>
    exact debt_bind (idle_recordDecision _ _ _ _ _ _) (fun _ => rfl) fun _ => trivial
  | verificationFailed =>
    exact debt_bind (idle_recordDecision _ _ _ _ _ _) (fun _ => rfl) fun _ => trivial

theorem debt_submitLocked (p : Payload) (auth : Claims) (decisionId : String)
    (hreq : ∃ bytes body, req = .submitCandidate bytes body) :
    Act.Sat (req.Owing g answers) Debt.Duty (submitLocked g p auth decisionId)
      (onOk (fun _ l => l.owed = []) fun _ _ => True) { inTx := true } := by
  refine debt_bind (idle_store trivial) (fun _ => ?_) fun _ => trivial
  refine debt_bind (Act.uses_raiseIf _ _) (fun _ => ?_) fun _ => trivial
  refine debt_bind (idle_store trivial) (fun exists_ => ?_) fun _ => trivial
  refine debt_bind (idle_store trivial) (fun quarantined => ?_) fun _ => trivial
  refine debt_bind (idle_store trivial) (fun hashes => ?_) fun _ => trivial
  refine debt_bind (uses_prepareCompaction (Call.of_idle rfl rfl rfl) p) (fun p' => ?_) fun _ => trivial
  refine debt_bind (uses_failClosed (uses_evaluateAdmission (Call.of_idle rfl rfl rfl) _ _ _ _))
    (fun d => ?_) fun _ => trivial
  split
  · exact debt_bind (idle_store trivial) (fun _ => rfl) fun _ => trivial
  · exact debt_enforce _ _ _ _ _ hreq d

/-- **A handler pays its debts.** -/
theorem debt_handle {req : Request} (hreq : req.Transacts) :
    Act.Sat (req.Owing g answers) Debt.Duty (req.handle g) (fun _ _ => True) {} := by
  cases req with
  | submitCandidate bytes body =>
    refine debt_bind (uses_submitChecks g (Call.of_idle rfl rfl rfl) bytes body) (fun out => ?_)
      fun _ => trivial
    refine debt_bind (uses_sync (Call.of_idle rfl rfl rfl : Call.Of Call.Idle [.shared]) rfl) (fun _ => ?_)
      fun _ => trivial
    rw [Act.sat_always]
    refine (debt_withTransaction (debt_submitLocked _ _ _ ⟨bytes, body, rfl⟩)).mono ?_
    rintro r l -
    exact Prog.Sat.mono (Prog.Uses.sat (I := fun _ => True)
      (uses_sync (Call.of_idle rfl rfl rfl : Call.Of Call.Idle [.shared]) rfl)
      (fun c hc l₁ r l₂ hstep _ => ⟨(Debt.step_idle hc hstep.1).1, trivial⟩) trivial)
      fun r _ _ => by cases r <;> trivial
  | designate header e =>
    refine debt_bind (uses_verifyRole g (Call.of_idle rfl rfl rfl) _ _) (fun claims => ?_)
      fun _ => trivial
    refine debt_bind (uses_limitDesignations g (Call.of_idle rfl rfl rfl) _ _) (fun _ => ?_)
      fun _ => trivial
    refine debt_bind (uses_sync (Call.of_idle rfl rfl rfl : Call.Of Call.Idle [.exclusive]) rfl)
      (fun _ => ?_)
      fun _ => trivial
    refine debt_bind (uses_sync (Call.of_idle rfl rfl rfl : Call.Of Call.Idle [.exclusive]) rfl)
      (fun _ => ?_)
      fun _ => trivial
    rw [Act.sat_always]
    have hbody : Act.Sat ((Request.designate header e).Owing g answers) Debt.Duty
        (designateLocked g e (claims.sub.getD "unknown"))
        (onOk (fun _ l => l.owed = []) fun _ _ => True) { inTx := true } := by
      refine (debt_frame (uses_designateLocked g (Call.of_idle_or_ledger rfl rfl) _ _) ?_).mono ?_
      · rintro event ids ⟨⟩
        rename_i hdes _ _ _
        exact ⟨by rw [hdes]; rfl, rfl⟩
      · rintro (e | a) l rfl
        · trivial
        · rfl
    refine (debt_withTransaction hbody).mono ?_
    rintro r l -
    exact Prog.Sat.mono (Prog.Uses.sat (I := fun _ => True)
      (uses_sync (Call.of_idle rfl rfl rfl : Call.Of Call.Idle [.exclusive]) rfl)
      (fun c hc l₁ r l₂ hstep _ => ⟨(Debt.step_idle hc hstep.1).1, trivial⟩) trivial)
      fun r _ _ => by cases r <;> trivial
  | detector header source raw => exact absurd hreq id
  | _ =>
    refine (debt_frame (uses_handle g _ (Call.of_idle_or_ledger rfl rfl)) ?_).mono fun _ _ _ => trivial
    rintro event ids ⟨⟩

/-- The same of what the request may call alone. -/
theorem debt_request {req : Request} (hreq : req.Transacts) :
    Act.Sat (Debt.Step answers) Debt.Duty (req.handle g) (fun _ _ => True) {} := by
  refine Prog.Within.assume (within_handle (K := fun _ => True) (fun _ _ => trivial) req) ?_
    (debt_handle hreq)
  intro c l r l' hstep
  cases c with
  | ext e => exact hstep.1
  | getAdapterKey => exact fun _ _ => trivial
  | _ => trivial

end Task

/-! ## 3. All tasks -/

/-- No event is stored under an id that is taken. -/
def FreshEvents : Condition
  | .store (.applyQuarantineTransaction event _), v, _ =>
    event.quarantineEventId ∉ v.db.quarantineEvents.map QuarantineEvent.quarantineEventId
  | _, _, _ => True

section Tasks

variable {ι : Type} [DecidableEq ι] {g : Setup} {answers : Answers} {ids : List NodeId}

/-- The committed books balance, and those of the open transaction with the debts of its owner.
Nobody else has debts. -/
structure Gateway.Balanced (ids : List NodeId) (s : Gateway ι) (l : ι → Debt) : Prop where
  db : s.db.Accounted ids []
  tx : ∀ i d, s.tx = some (i, d) → (l i).inTx = true ∧ d.Accounted ids (l i).owed
  others : ∀ i, (∀ d, s.tx ≠ some (i, d)) → l i = {}

namespace Gateway.Balanced

variable {s s' : Gateway ι} {l : ι → Debt}

/-- A step that leaves the database, the transaction and the debts alone. -/
theorem relock (h : s.Balanced ids l) (hdb : s'.db = s.db) (htx : s'.tx = s.tx) (i : ι) :
    s'.Balanced ids (Function.update l i (l i)) := by
  rw [Function.update_eq_self]
  refine ⟨by rw [hdb]; exact h.db, fun j d hd => h.tx j d (htx ▸ hd), fun j hj => h.others j ?_⟩
  rwa [htx] at hj

/-- A write of the committed database, outside transactions. -/
theorem publish (h : s.Balanced ids l) (htx : s.tx = none) {db : Db} (hdb : db.Accounted ids [])
    (i : ι) : Gateway.Balanced ids { s with db := db } (Function.update l i (l i)) := by
  rw [Function.update_eq_self]
  refine ⟨hdb, fun j d hd => ?_, h.others⟩
  rw [htx] at hd
  exact absurd hd (by simp)

/-- A write of the copy by the owner of the transaction. -/
theorem privately (h : s.Balanced ids l) {i : ι} {d d' : Db} (htx : s.tx = some (i, d)) {m : Debt}
    (hin : m.inTx = true) (hd' : d'.Accounted ids m.owed) :
    Gateway.Balanced ids { s with tx := some (i, d') } (Function.update l i m) := by
  refine ⟨h.db, fun j e he => ?_, fun j hj => ?_⟩
  · obtain ⟨rfl, rfl⟩ := Prod.mk.inj (Option.some.inj he)
    rw [Function.update_self]
    exact ⟨hin, hd'⟩
  · have hji : j ≠ i := by
      rintro rfl
      exact hj d' rfl
    rw [Function.update_of_ne hji]
    refine h.others j fun e he => ?_
    rw [htx] at he
    exact hji (Prod.mk.inj (Option.some.inj he)).1.symm

/-- The end of the transaction. -/
theorem close (h : s.Balanced ids l) {i : ι} {d db : Db} (htx : s.tx = some (i, d))
    (hdb : db.Accounted ids []) :
    Gateway.Balanced ids { s with db := db, tx := none } (Function.update l i {}) := by
  refine ⟨hdb, fun j e he => absurd he (by simp), fun j _ => ?_⟩
  by_cases hji : j = i
  · subst hji
    rw [Function.update_self]
  · rw [Function.update_of_ne hji]
    refine h.others j fun e he => ?_
    rw [htx] at he
    exact hji (Prod.mk.inj (Option.some.inj he)).1.symm

omit [DecidableEq ι] in
/-- A call of the store on the database `d`, which owes records for the debts of the task. -/
theorem store_books {i : ι} {c : Store} {d : Db} (hd : d.Accounted ids (l i).owed)
    (hfresh : ∀ event new, c = .applyQuarantineTransaction event new →
      event.quarantineEventId ∉ d.quarantineEvents.map QuarantineEvent.quarantineEventId) :
    ∃ m, Debt.Step answers (.store c) (l i) (c.exec g d).1 m ∧
      (Debt.Duty (.store c) (l i) (c.exec g d).1 m →
        m.inTx = (l i).inTx ∧ (c.exec g d).2.Accounted ids m.owed ∧
          ((l i).inTx = false → m = l i)) := by
  cases c with
  | applyQuarantineTransaction event new =>
    refine ⟨_, Or.inl ⟨⟨_, rfl⟩, rfl⟩, fun hduty => ?_⟩
    have hbooks := @Db.Accounted.quarantine g ids _ d hd event new (hfresh event new rfl)
    simp only [Debt.Duty] at hduty
    split at hduty
    · rename_i hdes
      rw [if_pos hdes] at hbooks ⊢
      exact ⟨rfl, hbooks fun _ => hduty, fun _ => rfl⟩
    · rename_i hdes
      rw [if_neg hdes] at hbooks ⊢
      exact ⟨rfl, hbooks fun h => absurd h hdes, fun hout => absurd hduty (by simp [hout])⟩
  | recordTaintedRejection x parent at_ author =>
    refine ⟨_, Or.inl ⟨rfl, rfl⟩, fun hduty => ?_⟩
    exact ⟨rfl, hd.rejection hduty.2, fun hout => absurd hduty.1 (by simp [hout])⟩
  | _ => exact ⟨l i, rfl, fun _ => ⟨rfl, hd.exec rfl, fun _ => rfl⟩⟩

omit [DecidableEq ι] in
/-- A call of the store that is refused, or that reads. -/
theorem store_refused {i : ι} {c : Store} {r : Except Exc c.Res} (hout : l i = {})
    (hr : (∃ d, r = (c.exec g d).1) ∨ ∃ e, r = .error e) :
    ∃ m, Debt.Step answers (.store c) (l i) r m ∧ (Debt.Duty (.store c) (l i) r m → m = l i) := by
  cases c with
  | applyQuarantineTransaction event new =>
    rcases hr with ⟨d, rfl⟩ | ⟨e, rfl⟩
    · refine ⟨_, Or.inl ⟨⟨_, rfl⟩, rfl⟩, fun hduty => ?_⟩
      simp only [Debt.Duty, hout] at hduty
      split at hduty
      · rename_i hdes
        rw [if_pos hdes]
      · exact absurd hduty (by simp)
    · exact ⟨l i, Or.inr ⟨⟨e, rfl⟩, rfl⟩, fun _ => rfl⟩
  | recordTaintedRejection x parent at_ author =>
    rcases hr with ⟨d, rfl⟩ | ⟨e, rfl⟩
    · refine ⟨_, Or.inl ⟨rfl, rfl⟩, fun hduty => ?_⟩
      simp only [Debt.Duty, hout] at hduty
      exact absurd hduty.1 (by simp)
    · exact ⟨l i, Or.inr ⟨⟨e, rfl⟩, rfl⟩, fun _ => rfl⟩
  | _ => exact ⟨l i, rfl, fun _ => rfl⟩

/-- **A step of the shared state**, for the debts of its task. -/
theorem step {i : ι} {c : Call} {r : Except Exc c.Res} (h : s.Balanced ids l)
    (ht : TaskStepOn g answers FreshEvents i c s r s') :
    ∃ m, Debt.Step answers c (l i) r m ∧
      (Debt.Duty c (l i) r m → s'.Balanced ids (Function.update l i m)) := by
  obtain ⟨ht, hfresh⟩ := ht
  cases c with
  | ext e => exact ⟨l i, ⟨ht.1, rfl⟩, fun _ => h.relock (by rw [ht.2]) (by rw [ht.2]) i⟩
  | getAdapterKey => exact ⟨l i, rfl, fun _ => h.relock (by rw [ht.2]) (by rw [ht.2]) i⟩
  | setAdapterKey key => exact ⟨l i, rfl, fun _ => h.relock (by rw [ht.2]) (by rw [ht.2]) i⟩
  | store c =>
    simp only [TaskStep] at ht
    split at ht
    · -- no transaction is open
      rename_i htx
      obtain ⟨rfl, rfl⟩ := ht
      have hout : l i = {} := h.others i fun d hd => by simp [htx] at hd
      have hview : s.view i = ⟨false, s.db⟩ := by rw [Gateway.view, htx]
      obtain ⟨m, hm, hbooks⟩ := store_books (g := g) (l := l) (i := i) (c := c)
        (d := s.db) (by rw [hout]; exact h.db) (by
          rintro event new rfl
          simpa only [FreshEvents, hview] using hfresh)
      refine ⟨m, hm, fun hduty => ?_⟩
      obtain ⟨-, hacc, hsame⟩ := hbooks hduty
      obtain rfl := hsame (by rw [hout])
      rw [hout] at hacc
      exact h.publish htx hacc i
    · rename_i j d htx
      split at ht
      · -- its own transaction
        rename_i hj
        subst hj
        obtain ⟨rfl, rfl⟩ := ht
        obtain ⟨hin, hacc⟩ := h.tx j d htx
        have hview : s.view j = ⟨true, d⟩ := by
          rw [Gateway.view, htx]
          exact if_pos rfl
        obtain ⟨m, hm, hbooks⟩ := store_books (g := g) (l := l) (i := j) (c := c)
          hacc (by
            rintro event new rfl
            simpa only [FreshEvents, hview] using hfresh)
        refine ⟨m, hm, fun hduty => ?_⟩
        obtain ⟨hsame, hacc', -⟩ := hbooks hduty
        exact h.privately htx (hsame.trans hin) hacc'
      · -- the transaction of another task
        rename_i hj
        obtain ⟨rfl, hr⟩ := ht
        have hout : l i = {} := by
          refine h.others i fun d' hd' => ?_
          rw [htx] at hd'
          exact hj (Prod.mk.inj (Option.some.inj hd')).1
        obtain ⟨m, hm, hsame⟩ := store_refused (g := g) (c := c) (r := r) hout (by
          rcases hr with ⟨hr, -⟩ | ⟨-, hr⟩
          · exact Or.inl ⟨_, hr⟩
          · exact Or.inr ⟨_, hr⟩)
        refine ⟨m, hm, fun hduty => ?_⟩
        rw [hsame hduty]
        exact h.relock rfl rfl i
  | sync k =>
    cases k with
    | begin =>
      rcases ht with ⟨htx, rfl, rfl⟩ | ⟨-, rfl, rfl⟩
      · refine ⟨{ inTx := true }, Or.inl ⟨rfl, rfl⟩, fun _ => ⟨h.db, fun j d hd => ?_, fun j hj => ?_⟩⟩
        · obtain ⟨rfl, rfl⟩ := Prod.mk.inj (Option.some.inj hd)
          rw [Function.update_self]
          exact ⟨rfl, h.db⟩
        · have hji : j ≠ i := by
            rintro rfl
            exact hj s.db rfl
          rw [Function.update_of_ne hji]
          exact h.others j fun d hd => by simp [htx] at hd
      · exact ⟨l i, Or.inr ⟨⟨_, rfl⟩, rfl⟩, fun _ => h.relock rfl rfl i⟩
    | commit =>
      obtain ⟨d, htx, rfl, rfl⟩ := ht
      refine ⟨{}, ⟨rfl, rfl⟩, fun hduty => h.close htx ?_⟩
      have hacc := (h.tx i d htx).2
      rwa [show (l i).owed = [] from hduty] at hacc
    | rollback =>
      obtain ⟨d, htx, rfl, rfl⟩ := ht
      exact ⟨{}, ⟨rfl, rfl⟩, fun _ => h.close htx h.db⟩
    | _ =>
      obtain ⟨lock, -, rfl, rfl⟩ := ht
      refine ⟨l i, rfl, fun _ => h.relock ?_ ?_ i⟩
      · rfl
      · rfl

end Gateway.Balanced

/-- **The ledger is explained by the records.**  Start from a database where what is on record is in
the ledger, and let the requests write it inside transactions.  Then in every state of every
interleaving an id is in the committed ledger if and only if it was there at the start, or is in the
radius of a stored designator's event, or is that of a recorded rejection. -/
theorem ledger_explained {req : ι → Request} (hreq : ∀ i, (req i).Transacts) {s : Gateway ι}
    (hs : s.tx = none) (hstart : ∀ x, s.db.OnRecord x → x ∈ s.db.ledger)
    {p : Pool ι Call Call.Res Exc (Gateway ι) (Except Exc Response)}
    (hrun : Relation.ReflTransGen (Pool.Step (TaskStepOn g answers FreshEvents)) (s.serve g req) p)
    (x : NodeId) :
    x ∈ p.state.db.ledger ↔ x ∈ s.db.ledger ∨
      (∃ e ∈ p.state.db.quarantineEvents, e.designatorIdentity.isSome = true ∧
        x ∈ e.computedBlastRadius) ∨
      ∃ r ∈ p.state.db.taintedRejections, r.nodeId = x := by
  have hbalanced : s.Balanced s.db.ledger fun _ => {} := by
    refine ⟨fun x => ?_, fun i d hd => ?_, fun _ _ => rfl⟩
    · refine ⟨Or.inl, ?_⟩
      rintro (hx | hx | hx)
      · exact hx
      · exact hstart x hx
      · exact absurd hx (by simp)
    · rw [hs] at hd
      exact absurd hd (by simp)
  obtain ⟨l, hl, -⟩ := Pool.invariant (L := fun _ => Debt.Step answers) (P := fun _ => Debt.Duty)
    (fun i c s r s' l h ht => Gateway.Balanced.step h ht) hrun hbalanced fun i => debt_request (hreq i)
  rw [hl.db x, Db.OnRecord]
  simp only [List.not_mem_nil, or_false, List.mem_map]

end Tasks

/-! ## 4. A rejection and a report -/

/-- Whether the id of the event is free. -/
def eventCheck : Call → View → Bool
  | .store (.applyQuarantineTransaction event _), v =>
    event.quarantineEventId ∉ v.db.quarantineEvents.map QuarantineEvent.quarantineEventId
  | _, _ => true

theorem freshEvents_of_check {c : Call} {v : View} {r : Except Exc c.Res}
    (h : eventCheck c v = true) : FreshEvents c v r := by
  cases c with
  | store c =>
    cases c with
    | applyQuarantineTransaction event ids =>
      simpa only [eventCheck, FreshEvents, decide_eq_true_eq] using h
    | _ => trivial
  | _ => trivial

/-- A submission below the quarantined node, and a designation of the root. -/
def booksRequests (i : Fin 2) : Request :=
  match i with
  | 0 => openSubmission "node-1" ["quarantined-node-A"]
  | 1 => .designate (some "Bearer designator") ⟨"clean-parent-1", "poisoned"⟩

theorem booksRequests_transacts (i : Fin 2) : (booksRequests i).Transacts := by
  rcases i with ⟨_ | _ | n, hi⟩
  · trivial
  · trivial
  · omega

/-- The submission stops between its two records; the designation has to wait for it. -/
theorem ledger_explained_books : ∃ p : Pool (Fin 2) Call Call.Res Exc (Gateway (Fin 2))
      (Except Exc Response),
    Relation.ReflTransGen (Pool.Step (TaskStepOn openSetup Answers.lawful FreshEvents))
      (Gateway.serve openSetup booksRequests { db := ({} : Db).reset openSetup.env.sha256 }) p ∧
    p.state.db.ledger = ["quarantined-node-A", "node-1", "clean-parent-1"] ∧
    ((∃ e ∈ p.state.db.quarantineEvents, e.designatorIdentity.isSome = true ∧
        "node-1" ∈ e.computedBlastRadius) ∨
      ∃ r ∈ p.state.db.taintedRejections, r.nodeId = "node-1") := by
  let start : Gateway (Fin 2) := { db := ({} : Db).reset openSetup.env.sha256 }
  let turns : List (Fin 2 × (Call → Bool)) :=
    [(0, fun c => c.kind = .tainted), (1, fun _ => false), (0, fun _ => false), (1, fun _ => false)]
  have hrun := Script.schedule_run_on (fun i : Fin 2 => openScript (toString i.val)) openSetup eventCheck
    FreshEvents (fun _ _ _ => freshEvents_of_check) turns (start.serve openSetup booksRequests)
  have hend : ((start.serve openSetup booksRequests).schedule (fun i =>
      (openScript (toString i.val)).checkedStep openSetup eventCheck i) turns).state.db.ledger =
      ["quarantined-node-A", "node-1", "clean-parent-1"] := by decide +kernel
  refine ⟨_, hrun, hend, ?_⟩
  have hstart : ∀ x, start.db.OnRecord x → x ∈ start.db.ledger := by
    rintro x (⟨e, he, -⟩ | hx)
    · exact absurd he (by simp [start, Db.reset, Db.cleared, Db.commitNode])
    · exact absurd hx (by simp [start, Db.reset, Db.cleared, Db.commitNode])
  have hbooks := (ledger_explained booksRequests_transacts (s := start) rfl hstart hrun "node-1").mp
    (by rw [hend]; decide)
  rcases hbooks with h | h
  · exact absurd h (by decide)
  · exact h

end GovernorGateway
