/-
# The audit of submissions

`submit_candidate` records what it decided in `shadow_decisions`: one row for a write it commits,
none for a duplicate.  The writes of the record for BOTH modes stand in the branch for enforcement,
so in shadow mode a submission ends with its commit and records nothing, although the banner of that
mode and the tests say that its decisions are recorded.

`audited_once_iff`: in a run, every submission that commits is audited once if and only if the mode
is enforcement or no submission of the run commits.
-/
import GovernorGateway.Semantics.Scripted

namespace GovernorGateway

open Effects

/-! ## 1. What one submission leaves behind -/

/-- `decision["admit"]`. -/
def Decision.admits : Decision → Bool
  | .admitted => true
  | .taintedParent _ | .lineageInvalid | .verificationFailed => false

/-- The answers that stand for a decision. -/
inductive Decision.Answers : Decision → Response → Prop
  | admitted (idempotent : Bool) : Answers .admitted { reply := .committed idempotent }
  | tainted (root : NodeId) (event : QuarantineEvent) (replacement : Option Db.Replacement) :
      Answers (.taintedParent root) { status := 403, reply := .tainted event replacement }
  | lineage : Answers .lineageInvalid
      { status := 400, reply := .refused Decision.lineageInvalid.reason }
  | verification : Answers .verificationFailed
      { status := 403, reply := .refused Decision.verificationFailed.reason }

/-- The audit table after an answer: a duplicate has left it alone, anything else has added one
row. -/
inductive Audited (x : NodeId) (rows : List ShadowDecision) : Response → List ShadowDecision → Prop
  | duplicate : Audited x rows { reply := .committed true } rows
  | recorded {a : Response} {decision : Decision} {d : ShadowDecision}
      (hdecision : decision.Answers a) (hnew : a ≠ { reply := .committed true })
      (hid : d.nodeId = x) (hblocked : d.wouldHaveBlocked = !decision.admits) :
      Audited x rows a (rows ++ [d])

/-- Anything but a duplicate has added the row of its decision. -/
theorem Audited.row {x : NodeId} {rows rows' : List ShadowDecision} {a : Response}
    (h : Audited x rows a rows') (hnew : a ≠ { reply := .committed true }) :
    ∃ decision d, Decision.Answers decision a ∧ rows' = rows ++ [d] ∧ d.nodeId = x ∧
      d.wouldHaveBlocked = !decision.admits := by
  cases h with
  | duplicate => exact absurd rfl hnew
  | recorded hdecision _ hid hblocked => exact ⟨_, _, hdecision, rfl, hid, hblocked⟩

theorem Audited.eq_of_duplicate {x : NodeId} {rows rows' : List ShadowDecision} {a : Response}
    (h : Audited x rows a rows') (ha : a = { reply := .committed true }) : rows' = rows := by
  cases h with
  | duplicate => rfl
  | recorded _ hnew _ _ => exact absurd ha hnew

/-- The answer to a submission that commits is not that to a duplicate. -/
theorem SubmitOutcome.not_duplicate {K : CommitSite → Payload → Lineage → Prop}
    {sha256 : String → String} {p : Payload} {L L' : Lineage} {a : Response}
    (h : SubmitOutcome K sha256 p L a L') (hfresh : p.payloadId ∉ L.nodeIds)
    (hstored : p.payloadId ∈ L'.nodeIds) : a ≠ { reply := .committed true } := by
  cases h with
  | refused ha hclean => exact absurd hstored hfresh
  | admitted gap =>
    rw [Lineage.commitNode, if_neg hfresh]
    simp
  | rejected gap ha =>
    obtain ⟨event, replacement, rfl⟩ := ha
    simp

/-! ## 2. The calls that write the table -/

/-- A call that neither writes the audit table nor concerns a transaction. -/
def Call.Unaudited (c : Call) : Prop := c.kind ∉ [CallKind.audit, .tx]

instance (c : Call) : Decidable c.Unaudited := inferInstanceAs (Decidable (_ ∉ _))

theorem Call.of_unaudited {ks : List CallKind}
    (h : (ks.all fun k => decide (k ∉ [CallKind.audit, .tx])) = true) :
    Call.Of Call.Unaudited ks :=
  fun c hc => of_decide_eq_true (List.all_eq_true.mp h c.kind hc)

theorem Store.exec_shadowDecisions (g : Setup) (db : Db) {c : Store} (h : c.kind ≠ .audit) :
    (c.exec g db).2.shadowDecisions = db.shadowDecisions := by
  cases c with
  | recordShadowDecision d => exact absurd rfl h
  | computeBlastRadius root =>
    obtain ⟨rcs, hrcs⟩ := Db.computeBlastRadius_snd g.settings.maxTraversalDepth root db
    rw [Store.exec, hrcs]
    rfl
  | _ => rfl

variable {g : Setup} {answers : Answers} {C : Trans Call Call.Res Exc World} {α β : Type}

theorem shadowDecisions_of_step {c : Call} {w w' : World} {r : Except Exc c.Res}
    (hc : c.Unaudited) (ht : restrict (Step g answers) C c w r w') :
    w'.db.shadowDecisions = w.db.shadowDecisions := by
  cases c with
  | store c =>
    rw [ht.1.2]
    exact Store.exec_shadowDecisions g w.db fun hk => hc (by simp [Call.kind, hk])
  | ext e => rw [ht.1.2]
  | getAdapterKey => rw [ht.1.2]
  | setAdapterKey key => rw [ht.1.2]
  | sync k =>
    rw [ht.1.2]
    cases k with
    | begin | commit | rollback => exact absurd (by simp [Call.kind, Sync.kind]) hc
    | enterShared | leaveShared | requestExclusive | enterExclusive | leaveExclusive => rfl

/-- A part that does not write the table leaves it alone, however it ends. -/
theorem sat_unaudited {x : Handler α} (hx : x.Uses Call.Unaudited) (w : World) :
    Act.Sat (restrict (Step g answers) C) Trans.any x
      (fun _ w' => w'.db.shadowDecisions = w.db.shadowDecisions) w := by
  refine Prog.Uses.sat (I := fun w' : World => w'.db.shadowDecisions = w.db.shadowDecisions) hx ?_ rfl
  intro c hc w₁ r w₂ ht hw₁
  exact ⟨trivial, (shadowDecisions_of_step hc ht).trans hw₁⟩

/-- Such a part in front of the rest of a handler. -/
theorem unaudited_bind {x : Handler α} {f : α → Handler β} {F : β → World → Prop} {w : World}
    (hx : x.Uses Call.Unaudited)
    (hok : ∀ a w', w'.db.shadowDecisions = w.db.shadowDecisions →
      Act.Sat (restrict (Step g answers) C) Trans.any (f a) (onOk F fun _ _ => True) w') :
    Act.Sat (restrict (Step g answers) C) Trans.any (x >>= f) (onOk F fun _ _ => True) w := by
  rw [Act.sat_bind]
  refine (sat_unaudited hx w).mono ?_
  rintro (e | a) w' hw'
  · trivial
  · exact hok a w' hw'

/-- The record of a decision: it is added, or the id of the decision is taken and the insert
fails. -/
theorem recordDecision_bind {decisionId writer reason : String} {p : Payload}
    {status : List ParentStatus} {blocked : Bool} {f : Unit → Handler β} {F : β → World → Prop}
    {w : World}
    (hok : ∀ d w', w'.db.shadowDecisions = w.db.shadowDecisions ++ [d] → d.nodeId = p.payloadId →
      d.wouldHaveBlocked = blocked →
      Act.Sat (restrict (Step g answers) C) Trans.any (f ()) (onOk F fun _ _ => True) w') :
    Act.Sat (restrict (Step g answers) C) Trans.any
      (recordDecision g decisionId writer p status blocked reason >>= f)
      (onOk F fun _ _ => True) w := by
  rw [Act.sat_bind]
  have hstamp : stampNow.Uses Call.Unaudited := uses_stampNow (Call.of_unaudited rfl)
  refine (unaudited_bind (F := fun _ w' => ∃ d,
    w'.db.shadowDecisions = w.db.shadowDecisions ++ [d] ∧ d.nodeId = p.payloadId ∧
      d.wouldHaveBlocked = blocked) hstamp fun at_ w₁ h₁ => ?_).mono ?_
  · rintro r w₂ ⟨⟨rfl, rfl⟩, -⟩
    refine ⟨trivial, ?_⟩
    simp only [Store.exec, Db.recordShadowDecision]
    split
    · trivial
    · exact ⟨_, by rw [← h₁], rfl, rfl⟩
  · rintro (e | a) w' hw'
    · trivial
    · obtain ⟨d, hd, hid, hb⟩ := hw'
      exact hok d w' hd hid hb

/-! ## 3. The locked section -/

/-- The audit of an admitted write: a row, unless it is a duplicate. -/
theorem audited_auditAdmission (p : Payload) (status : List ParentStatus)
    (decisionId writer : String) (isNew : Bool) (w : World) :
    Act.Sat (restrict (Step g answers) C) Trans.any
      (auditAdmission g p status decisionId writer isNew)
      (onOk (fun _ w' => Audited p.payloadId w.db.shadowDecisions { reply := .committed (!isNew) }
        w'.db.shadowDecisions) fun _ _ => True) w := by
  cases isNew with
  | false => exact .duplicate
  | true =>
    refine recordDecision_bind fun d w₁ h₁ hid hb => ?_
    have hA : Call.Of Call.Unaudited [.tainted] := Call.of_unaudited rfl
    have hcheck : (store (.checkRetryCompletion p)).Uses Call.Unaudited := uses_store hA rfl
    refine (sat_unaudited hcheck w₁).mono ?_
    rintro (e | a) w₂ h₂
    · trivial
    · change Audited _ _ _ w₂.db.shadowDecisions
      rw [h₂, h₁]
      exact .recorded (.admitted false) (by simp) hid hb

/-- In enforcement mode the answer and the table fit together. -/
theorem audited_enforce (p : Payload) (status : List ParentStatus) (hashes : NodeId → Option String)
    (decisionId writer : String) (w : World) : ∀ decision : Decision,
    Act.Sat (restrict (Step g answers) C) Trans.any
      (enforce g p status hashes decisionId writer decision)
      (onOk (fun a w' => Audited p.payloadId w.db.shadowDecisions a w'.db.shadowDecisions)
        fun _ _ => True) w
  | .admitted => by
    have hA : Call.Of Call.Unaudited [.commit .admission] := Call.of_unaudited rfl
    have hwrite : (admitWrite p hashes).Uses Call.Unaudited := by
      unfold admitWrite
      split
      · exact Act.uses_raise _
      · exact uses_store hA rfl
    refine unaudited_bind hwrite fun isNew w₁ h₁ => ?_
    rw [Act.sat_bind]
    refine (audited_auditAdmission p status decisionId writer isNew w₁).mono ?_
    rintro (e | a) w₂ h₂
    · trivial
    · rw [h₁] at h₂
      exact h₂
  | .taintedParent root => by
    refine unaudited_bind (uses_rejectTainted g (Call.of_unaudited rfl) p root) fun out w₁ h₁ => ?_
    refine recordDecision_bind fun d w₂ h₂ hid hb => ?_
    change Audited _ _ _ w₂.db.shadowDecisions
    rw [h₂, h₁]
    exact .recorded (.tainted root out.1 out.2) (by simp) hid hb
  | .lineageInvalid => by
    refine recordDecision_bind fun d w₁ h₁ hid hb => ?_
    change Audited _ _ _ w₁.db.shadowDecisions
    rw [h₁]
    exact .recorded .lineage (by simp) hid hb
  | .verificationFailed => by
    refine recordDecision_bind fun d w₁ h₁ hid hb => ?_
    change Audited _ _ _ w₁.db.shadowDecisions
    rw [h₁]
    exact .recorded .verification (by simp) hid hb

/-- Preparing a compaction keeps its id, and the table. -/
theorem sat_prepareCompaction_id (p : Payload) (w : World) :
    Act.Sat (restrict (Step g answers) C) Trans.any (prepareCompaction p)
      (onOk (fun p' w' => p'.payloadId = p.payloadId ∧
        w'.db.shadowDecisions = w.db.shadowDecisions) fun _ _ => True) w := by
  have hread : ∀ {c : Store}, c.kind = .read → (store c).Uses Call.Unaudited :=
    fun hc => uses_read (Call.of_unaudited rfl) hc
  unfold prepareCompaction
  split
  · refine unaudited_bind (hread rfl) fun gap w₁ h₁ => ?_
    dsimp only
    split
    · exact ⟨rfl, h₁⟩
    · refine unaudited_bind (hread rfl) fun quarantined w₂ h₂ => ?_
      split
      · exact ⟨rfl, h₂.trans h₁⟩
      · trivial
  · exact ⟨rfl, rfl⟩

/-- The locked section, in enforcement mode. -/
theorem audited_submitLocked (hmode : g.settings.enforcementMode = .enforce) (p : Payload)
    (auth : Claims) (decisionId : String) (w : World) :
    Act.Sat (restrict (Step g answers) C) Trans.any (submitLocked g p auth decisionId)
      (onOk (fun a w' => Audited p.payloadId w.db.shadowDecisions a w'.db.shadowDecisions)
        fun _ _ => True) w := by
  have hread : ∀ {c : Store}, c.kind = .read → (store c).Uses Call.Unaudited :=
    fun hc => uses_read (Call.of_unaudited rfl) hc
  refine unaudited_bind (hread rfl) fun idQuarantined w₁ h₁ => ?_
  refine unaudited_bind (Act.uses_raiseIf _ _) fun _ w₂ h₂ => ?_
  refine unaudited_bind (hread rfl) fun exists_ w₃ h₃ => ?_
  refine unaudited_bind (hread rfl) fun quarantined w₄ h₄ => ?_
  refine unaudited_bind (hread rfl) fun hashes w₅ h₅ => ?_
  rw [Act.sat_bind]
  refine (sat_prepareCompaction_id p w₅).mono ?_
  rintro (e | p') w₆ h₆
  · trivial
  · obtain ⟨hid, h₆⟩ := h₆
    refine unaudited_bind (uses_failClosed (uses_evaluateAdmission (Call.of_unaudited rfl) _ _ _ _))
      fun decision w₇ h₇ => ?_
    simp only [hmode]
    have h := @audited_enforce g answers C p'
      (parentStatus p' exists_ quarantined) hashes decisionId (auth.sub.getD "unknown") w₇ decision
    rw [hid, h₇, h₆, h₅, h₄, h₃, h₂, h₁] at h
    exact h

/-- In shadow mode the section never writes the table. -/
theorem uses_submitLocked_shadow (hmode : g.settings.enforcementMode = .shadow) (p : Payload)
    (auth : Claims) (decisionId : String) :
    (submitLocked g p auth decisionId).Uses Call.Unaudited := by
  have hread : ∀ {c : Store}, c.kind = .read → (store c).Uses Call.Unaudited :=
    fun hc => uses_read (Call.of_unaudited rfl) hc
  refine Act.uses_bind (hread rfl) fun _ => Act.uses_bind (Act.uses_raiseIf _ _) fun _ =>
    Act.uses_bind (hread rfl) fun _ => Act.uses_bind (hread rfl) fun _ =>
      Act.uses_bind (hread rfl) fun _ =>
        Act.uses_bind (uses_prepareCompaction (Call.of_unaudited rfl) p) fun _ =>
          Act.uses_bind (uses_failClosed (uses_evaluateAdmission (Call.of_unaudited rfl) _ _ _ _))
            fun d => ?_
  have hA : Call.Of Call.Unaudited [.commit .shadow] := Call.of_unaudited rfl
  simp only [hmode]
  exact Act.uses_bind (uses_store hA rfl) fun _ => Act.uses_pure _

/-! ## 4. Requests -/

/-- `/submit-candidate` in enforcement mode: an answer with its audit, and what has become of the
lineage; or an exception, and the database as it was. -/
theorem audited_submitCandidate (hlaw : answers.Lawful)
    (hmode : g.settings.enforcementMode = .enforce) (bytes : ℕ) (p : Payload) (w : World) :
    Act.Sat (restrict (Step g answers) C) Trans.any (submitCandidate g bytes (.payload p))
      (onOk (fun a w' => Audited p.payloadId w.db.shadowDecisions a w'.db.shadowDecisions ∧
          SubmitOutcome (fun _ _ _ => True) g.env.sha256 p w.lin a w'.lin)
        fun _ w' => w'.db = w.db) w := by
  rw [submitCandidate, Act.sat_bind]
  refine (sat_submitChecks (fun e s r s' ht => ht.1.2) bytes (.payload p) w).mono ?_
  rintro (e | ⟨q, auth, decisionId⟩) w₁ h₁
  · exact congrArg World.db h₁
  · obtain ⟨rfl, hparse, -⟩ := h₁
    obtain rfl := parseSubmission_payload hparse
    refine sat_withShared (fun _ _ _ _ => trivial) (sat_withTransaction (fun _ _ _ _ => trivial)
      (uses_submitLocked g (Call.of_noTx rfl) q auth decisionId) ?_)
    have haudit := @audited_submitLocked g answers C hmode q auth decisionId
      { w₁ with saved := some w₁.db }
    have hlin := sat_submitLocked (P := Trans.any) (K := fun _ _ _ => True) (acts_step hlaw C) hmode
      q auth decisionId { w₁ with saved := some w₁.db }
      ⟨fun _ _ _ _ _ => trivial, fun _ _ _ _ _ _ => ⟨trivial, trivial⟩,
        fun _ _ _ _ _ _ => trivial, fun _ _ _ _ _ _ _ _ _ _ _ => ⟨trivial, trivial⟩⟩
    refine ((Prog.Sat.and haudit hlin).weaken fun _ _ _ _ _ => trivial).mono ?_
    rintro (e | a) w₂ ⟨h₂, h₂'⟩
    · rfl
    · exact ⟨h₂, h₂'⟩

/-- In shadow mode no submission writes the table. -/
theorem unaudited_submitCandidate
    (hmode : g.settings.enforcementMode = .shadow) (bytes : ℕ) (body : SubmitBody) (w : World) :
    Act.Sat (restrict (Step g answers) C) Trans.any (submitCandidate g bytes body)
      (fun _ w' => w'.db.shadowDecisions = w.db.shadowDecisions) w := by
  rw [submitCandidate, Act.sat_bind]
  refine (sat_unaudited (uses_submitChecks g (Call.of_unaudited rfl) bytes body) w).mono ?_
  rintro (e | ⟨q, auth, decisionId⟩) w₁ h₁
  · exact h₁
  · refine sat_withShared (fun _ _ _ _ => trivial) (sat_withTransaction (fun _ _ _ _ => trivial)
      (uses_submitLocked g (Call.of_noTx rfl) q auth decisionId) ?_)
    refine (sat_unaudited (uses_submitLocked_shadow hmode q auth decisionId)
      { w₁ with saved := some w₁.db }).mono ?_
    rintro (e | a) w₂ h₂
    · exact h₁
    · exact h₂.trans h₁

/-! ## 5. Runs -/

/-- The request is a submission of `p`, and it has committed it. -/
structure Commits (w : World) (k : Handled) (p : Payload) : Prop where
  request : ∃ bytes, k.request = .submitCandidate bytes (.payload p)
  fresh : p.payloadId ∉ w.db.nodeIds
  stored : p.payloadId ∈ k.after.db.nodeIds

/-- A submission that commits adds ONE row for its payload, that tells whether the decision was to
admit; one that is answered as a duplicate adds none. -/
structure AuditedOnce (w : World) (k : Handled) : Prop where
  commits : ∀ p, Commits w k p → ∃ a decision d, k.outcome = .ok a ∧ Decision.Answers decision a ∧
    k.after.db.shadowDecisions = w.db.shadowDecisions ++ [d] ∧ d.nodeId = p.payloadId ∧
      d.wouldHaveBlocked = !decision.admits
  duplicate : ∀ bytes p, k.request = .submitCandidate bytes (.payload p) →
    k.outcome = .ok { reply := .committed true } →
      k.after.db.shadowDecisions = w.db.shadowDecisions

/-- A property of every request of a run and of the world it was handled from. -/
def EachRequest (Q : World → Handled → Prop) : World → List Handled → Prop
  | _, [] => True
  | w, k :: hs => Q w k ∧ EachRequest Q k.after hs

theorem EachRequest.mono {Q Q' : World → Handled → Prop} (h : ∀ w k, Q w k → Q' w k) :
    ∀ {hs : List Handled} {w : World}, EachRequest Q w hs → EachRequest Q' w hs
  | [], _, _ => trivial
  | _ :: _, _, hall => ⟨h _ _ hall.1, EachRequest.mono h hall.2⟩

theorem EachRequest.and {Q Q' : World → Handled → Prop} :
    ∀ {hs : List Handled} {w : World}, EachRequest Q w hs → EachRequest Q' w hs →
      EachRequest (fun w k => Q w k ∧ Q' w k) w hs
  | [], _, _, _ => trivial
  | _ :: _, _, h, h' => ⟨⟨h.1, h'.1⟩, EachRequest.and h.2 h'.2⟩

theorem Run.each {T : Trans Call Call.Res Exc World} {Q : World → Handled → Prop}
    (h : ∀ w k, Exec T (k.request.handle g).tree w k.trace k.outcome k.after → Q w k) {w w' : World}
    {hs : List Handled} (hrun : Run g T w hs w') : EachRequest Q w hs := by
  induction hrun with
  | nil w => trivial
  | cons hexec _ ih => exact ⟨h _ _ hexec, ih⟩

/-- In enforcement mode every request is audited. -/
theorem auditedOnce_of_enforce (hlaw : answers.Lawful)
    (hmode : g.settings.enforcementMode = .enforce) {w : World} {k : Handled}
    (hexec : Exec (restrict (Step g answers) C) (k.request.handle g).tree w k.trace k.outcome k.after) :
    AuditedOnce w k := by
  obtain ⟨request, trace, outcome, after⟩ := k
  have hsat : ∀ bytes p, request = .submitCandidate bytes (.payload p) →
      onOk (fun a w' => Audited p.payloadId w.db.shadowDecisions a w'.db.shadowDecisions ∧
          SubmitOutcome (fun _ _ _ => True) g.env.sha256 p w.lin a w'.lin)
        (fun _ w' => w'.db = w.db) outcome after := by
    rintro bytes p rfl
    exact (Prog.Sat.sound (audited_submitCandidate hlaw hmode bytes p w) hexec).2
  constructor
  · rintro p ⟨⟨bytes, hreq⟩, hfresh, hstored⟩
    have h := hsat bytes p hreq
    cases outcome with
    | error e =>
      have hdb : after.db = w.db := h
      rw [hdb] at hstored
      exact absurd hstored hfresh
    | ok a =>
      obtain ⟨haudit, hlin⟩ := h
      obtain ⟨decision, d, hrow⟩ := haudit.row (hlin.not_duplicate hfresh hstored)
      exact ⟨a, decision, d, rfl, hrow⟩
  · intro bytes p hreq hout
    have h := hsat bytes p hreq
    have hout : outcome = .ok { reply := .committed true } := hout
    rw [hout] at h
    exact h.1.eq_of_duplicate rfl

/-- In shadow mode a request that commits is not. -/
theorem auditedOnce_shadow_iff (hmode : g.settings.enforcementMode = .shadow) {w : World} {k : Handled}
    (hexec : Exec (restrict (Step g answers) C) (k.request.handle g).tree w k.trace k.outcome k.after) :
    AuditedOnce w k ↔ ∀ p, ¬ Commits w k p := by
  obtain ⟨request, trace, outcome, after⟩ := k
  have hsame : ∀ bytes p, request = .submitCandidate bytes (.payload p) →
      after.db.shadowDecisions = w.db.shadowDecisions := by
    rintro bytes p rfl
    exact (Prog.Sat.sound (unaudited_submitCandidate hmode bytes (.payload p) w) hexec).2
  constructor
  · intro h p hp
    obtain ⟨bytes, hreq⟩ := hp.request
    obtain ⟨a, decision, d, -, -, hrows, -⟩ := h.commits p hp
    have hrows : after.db.shadowDecisions = w.db.shadowDecisions ++ [d] := hrows
    rw [hsame bytes p hreq] at hrows
    simp at hrows
  · intro hnone
    exact ⟨fun p hp => absurd hp (hnone p), fun bytes p hreq _ => hsame bytes p hreq⟩

/-- **Audited once, but for shadow mode.**  In a run, every submission that commits is audited by
one row, and no duplicate by any, if and only if the mode is enforcement or none commits. -/
theorem audited_once_iff (hlaw : answers.Lawful) {db : Db} {key : Option String} {w : World}
    {hs : List Handled} (hrun : Run g (Step g answers) (World.initial g db key) hs w) :
    EachRequest AuditedOnce (World.initial g db key) hs ↔
      g.settings.enforcementMode = .enforce ∨
        EachRequest (fun w k => ∀ p, ¬ Commits w k p) (World.initial g db key) hs := by
  have hrun := hrun.restrict (C := Trans.any) fun _ _ _ _ => trivial
  cases hmode : g.settings.enforcementMode with
  | enforce =>
    have hall := hrun.each fun w k hexec => auditedOnce_of_enforce hlaw hmode hexec
    exact ⟨fun _ => Or.inl rfl, fun _ => hall⟩
  | shadow =>
    have hiff := hrun.each fun w k hexec => auditedOnce_shadow_iff hmode hexec
    constructor
    · exact fun h => Or.inr ((hiff.and h).mono fun w k hk => hk.1.mp hk.2)
    · rintro (h | h)
      · exact absurd h (by simp)
      · exact (hiff.and h).mono fun w k hk => hk.1.mpr hk.2

/-- In enforcement mode: a write and its duplicate, and one row. -/
theorem audited_once_iff_enforce : ∃ hs w,
    Run openSetup (Step openSetup Answers.lawful) (World.initial openSetup {} none) hs w ∧
      hs.map Handled.request = [openSubmission "node-1" ["clean-parent-1"],
        openSubmission "node-1" ["clean-parent-1"]] ∧
      EachRequest AuditedOnce (World.initial openSetup {} none) hs ∧
      w.db.shadowDecisions.map (fun d => (d.nodeId, d.wouldHaveBlocked)) = [("node-1", false)] := by
  obtain ⟨hs, hrun, hreqs⟩ := exists_open_run [openSubmission "node-1" ["clean-parent-1"],
    openSubmission "node-1" ["clean-parent-1"]] none
  refine ⟨hs, _, hrun, hreqs, ?_, by decide +kernel⟩
  exact (audited_once_iff (fun _ _ h => h) hrun).mpr (Or.inl rfl)

/-! ## 6. A submission that is not audited -/

/-- The open deployment in shadow mode. -/
def shadowSetup : Setup :=
  { openSetup with settings := { openSetup.settings with enforcementMode := .shadow } }

/-- A child of the root is submitted. -/
def shadowRun : List (Script × Request) :=
  [(openScript "0", openSubmission "node-1" ["clean-parent-1"])]

/-- **No row for a new write.**  The submission passes every check and is committed, and nothing is
recorded of the decision to admit it. -/
theorem audited_once_shadow : ¬ ∀ hs w,
    Run shadowSetup (Step shadowSetup Answers.lawful) (World.initial shadowSetup {} none) hs w →
      EachRequest AuditedOnce (World.initial shadowSetup {} none) hs := by
  intro hall
  obtain ⟨hs, hrun, hreqs⟩ :=
    Script.exists_run shadowSetup shadowRun (World.initial shadowSetup {} none)
  have h := hall hs _ hrun
  cases hrun with
  | @cons k _ _ rest hexec hrest =>
    simp only [List.map_cons, shadowRun, List.map_nil, List.cons.injEq, List.map_eq_nil_iff] at hreqs
    obtain ⟨hreq, rfl⟩ := hreqs
    generalize hw : Script.handleAll shadowSetup shadowRun (World.initial shadowSetup {} none) = w
      at hrest
    cases hrest
    have hstored : "node-1" ∈ k.after.db.nodeIds := by
      rw [← hw]
      decide +kernel
    have hempty : k.after.db.shadowDecisions = [] := by
      rw [← hw]
      decide +kernel
    obtain ⟨a, decision, d, -, -, hrows, -⟩ := h.1.commits
      (openPayload "agent" "node-1" ["clean-parent-1"]) ⟨⟨512, hreq⟩, by decide +kernel, hstored⟩
    rw [hempty] at hrows
    simp at hrows

end GovernorGateway
