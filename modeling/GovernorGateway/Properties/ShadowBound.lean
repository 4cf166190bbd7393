/-
# Shadow mode bounds enforcement

`/shadow-report` warns that "shadow-mode blast radii are upper bounds relative to enforcement mode
because they include writes that would have been blocked".  Here two deployments that differ in the
mode alone get the same traffic from the same start, each in its own order, and every blast radius
of the enforcing one is contained in that of the other (`shadow_radius_bound`).

What blocks a write in shadow mode as well is the ledger: an id that is quarantined is refused in
both.  So a write could be LOST to shadow mode, if its id were quarantined there before it is sent;
it is not, because nothing enters the ledger there that is not stored (`Intake.stored`), and what is
stored under the id is the write.  That needs conditions (`SameTraffic`): one list of parents per
id, a policy engine that answers, tokens that are not refused later, and no summaries, in the
traffic or at the START (`Db.Plain`), whose covers are compared with the ledger and whose
reconstructions get ids of their own.
-/
import GovernorGateway.Properties.Provenance
import GovernorGateway.Properties.Races

namespace GovernorGateway

open Effects

/-- The program in the other mode. -/
def Setup.inMode (g : Setup) (m : EnforcementMode) : Setup :=
  { g with settings := { g.settings with enforcementMode := m } }

/-! ## 1. The invariant -/

/-- What a run has taken in since `L₀`: payloads of `A`, and quarantines of what is stored. -/
structure Lineage.Intake (A : Payload → Prop) (L₀ L : Lineage) : Prop where
  wf : L.Wf
  nodes : ∀ n ∈ L₀.nodes, n ∈ L.nodes
  ledger : ∀ x ∈ L₀.ledger, x ∈ L.ledger
  stored : ∀ x ∈ L.ledger, x ∈ L.nodeIds ∨ x ∈ L₀.ledger
  sent : ∀ n ∈ L.nodes, n ∈ L₀.nodes ∨ n.nodeId ∉ L₀.ledger ∧
    ∃ p, A p ∧ p.payloadId = n.nodeId ∧ p.parentIds = n.payload.parentIds

namespace Lineage.Intake

variable {A : Payload → Prop} {L₀ L : Lineage} {sha256 : String → String} {p : Payload}

theorem start (h : L₀.Wf) : L₀.Intake A L₀ :=
  ⟨h, fun _ hn => hn, fun _ hx => hx, fun _ hx => Or.inr hx, fun _ hn => Or.inl hn⟩

/-- A payload that was sent is stored under an id that is not in the ledger. -/
theorem commitNode (h : L₀.Intake A L) (hp : A p) (hid : p.payloadId ∉ L.ledger)
    (gap : Option (List NodeId)) :
    L₀.Intake A (L.commitNode sha256 { p with coversIntervalGap := gap }).2 where
  wf := h.wf.commitNode
  nodes := fun n hn => mem_nodes_commitNode.mpr (Or.inl (h.nodes n hn))
  ledger := by
    intro x hx
    rw [commitNode_ledger]
    exact h.ledger x hx
  stored := by
    intro x hx
    rw [commitNode_ledger] at hx
    exact (h.stored x hx).imp_left fun hstored => mem_nodeIds_commitNode.mpr (Or.inl hstored)
  sent := by
    intro n hn
    rcases mem_nodes_commitNode.mp hn with hn | ⟨rfl, -⟩
    · exact h.sent n hn
    · exact Or.inr ⟨fun hx => hid (h.ledger _ hx), p, hp, rfl, rfl⟩

/-- Stored ids enter the ledger. -/
theorem quarantine (h : L₀.Intake A L) {ids : List NodeId} (hids : ∀ x ∈ ids, x ∈ L.nodeIds) :
    L₀.Intake A (L.quarantine ids) where
  wf := h.wf.quarantine ids
  nodes := h.nodes
  ledger := fun x hx => mem_ledger_quarantine.mpr (Or.inl (h.ledger x hx))
  stored := by
    intro x hx
    rcases mem_ledger_quarantine.mp hx with hx | hx
    · exact h.stored x hx
    · exact Or.inl (hids x hx)
  sent := h.sent

/-- A traversal stays among the stored nodes when its root is stored: an edge belongs to its
child. -/
theorem mem_nodeIds_of_traverse (h : L.Wf) {D : Int} {root x : NodeId} (hroot : root ∈ L.nodeIds)
    (hx : x ∈ L.traverse D root) : x ∈ L.nodeIds := by
  obtain ⟨n, -, hsteps⟩ := (mem_traverse h).mp hx
  cases hsteps with
  | refl => exact hroot
  | tail _ hedge =>
    obtain ⟨m, hm, hid, -⟩ := (h.edge_iff _ _).mp hedge
    exact mem_nodeIds.mpr ⟨m, hm, hid⟩

end Lineage.Intake

/-- The same of a world.  Nothing covers anything and no record is pending, also in the copy a
transaction goes back to. -/
structure World.Intake (A : Payload → Prop) (L₀ : Lineage) (w : World) : Prop where
  lineage : L₀.Intake A w.lin
  plain : w.db.Plain
  saved : ∀ d, w.saved = some d → d.Plain

/-! ## 2. The requests that contain, in either mode -/

section Requests

variable {g : Setup} {answers : Answers} {A : Payload → Prop} {L₀ : Lineage} {w : World}

/-- The steps of a request that is handled alone. -/
abbrev Alone (g : Setup) (answers : Answers) : Trans Call Call.Res Exc World :=
  restrict (Step g answers) Trans.any

/-- Calls that store no covers and make no record pending. -/
abbrev PlainCalls : Trans Call Call.Res Exc World := fun c _ _ _ => c.Plain

theorem plainCalls_quiet : ∀ (c : Call) (w : World) (r : Except Exc c.Res) (w' : World), c.Quiet →
    PlainCalls c w r w' := fun _ _ _ _ hc => Call.plain_of_quiet hc

/-- Plain calls keep the databases plain. -/
theorem World.plain_step {c : Call} {r : Except Exc c.Res} {w' : World}
    (h : w.db.Plain ∧ ∀ d, w.saved = some d → d.Plain) (ht : Alone g answers c w r w')
    (hc : c.Plain) : w'.db.Plain ∧ ∀ d, w'.saved = some d → d.Plain := by
  obtain ⟨ht, -⟩ := ht
  cases c with
  | store c =>
    rw [ht.2]
    exact ⟨h.1.exec hc, h.2⟩
  | ext e => rwa [ht.2]
  | getAdapterKey => rwa [ht.2]
  | setAdapterKey key => rwa [ht.2]
  | sync k =>
    rw [ht.2]
    cases k with
    | begin =>
      refine ⟨h.1, fun d hd => ?_⟩
      rw [← Option.some.inj hd]
      exact h.1
    | commit => exact ⟨h.1, fun d hd => absurd hd (by simp [World.sync])⟩
    | rollback =>
      refine ⟨?_, fun d hd => absurd hd (by simp [World.sync])⟩
      change (w.saved.getD w.db).Plain
      cases hs : w.saved with
      | none => exact h.1
      | some d => exact h.2 d hs
    | _ => exact h

/-- What is shown of the lineage holds of the world. -/
theorem World.Intake.of_lineage {α : Type} {x : Handler α} (hw : w.Intake A L₀)
    (h : Act.Sat (Alone g answers) PlainCalls x (fun _ w' => L₀.Intake A w'.lin) w) :
    Act.Sat (Alone g answers) PlainCalls x (fun _ w' => w'.Intake A L₀) w :=
  (Prog.Sat.invariant h (fun _ _ _ _ hI ht hc => World.plain_step hI ht hc) ⟨hw.plain, hw.saved⟩).mono
    fun _ _ h' => ⟨h'.1, h'.2.1, h'.2.2⟩

/-- A quiet part in front of the rest. -/
theorem World.Intake.quiet_bind (hlaw : answers.Lawful) {α β : Type} {x : Handler α}
    {f : α → Handler β}
    (hx : QuietPart x) (hw : w.Intake A L₀)
    (hf : ∀ a w', w'.Intake A L₀ →
      Act.Sat (Alone g answers) PlainCalls (f a) (fun _ w₁ => w₁.Intake A L₀) w') :
    Act.Sat (Alone g answers) PlainCalls (x >>= f) (fun _ w₁ => w₁.Intake A L₀) w := by
  have hlin : Act.Sat (Alone g answers) PlainCalls x (fun _ w' => L₀.Intake A w'.lin) w := by
    refine ((acts_step hlaw Trans.any).sat_quiet plainCalls_quiet hx w).mono fun _ w' hw' => ?_
    rw [hw']
    exact hw.lineage
  rw [Act.sat_bind]
  refine (World.Intake.of_lineage hw hlin).mono ?_
  rintro (e | a) w' h'
  · exact h'
  · exact hf a w' h'

/-- A containment at a stored root. -/
theorem World.Intake.contain (hlaw : answers.Lawful) {x : NodeId} (identity reason : String)
    (source : Option String) (hw : w.Intake A L₀) (hx : x ∈ w.lin.nodeIds) :
    Act.Sat (Alone g answers) PlainCalls (GovernorGateway.contain g x identity reason source)
      (fun _ w' => w'.Intake A L₀) w := by
  refine World.Intake.of_lineage hw ?_
  refine (sat_contain (K := True) (acts_step hlaw Trans.any) plainCalls_quiet x identity reason source w
    fun _ _ _ _ _ _ _ _ _ => ⟨trivial, trivial⟩).mono ?_
  rintro (e | out) w' h'
  · change w'.lin = w.lin at h'
    rw [h']
    exact hw.lineage
  · obtain ⟨-, hids, hlin⟩ := h'
    rw [hlin, hids]
    refine hw.lineage.quarantine fun y hy => ?_
    exact Lineage.Intake.mem_nodeIds_of_traverse hw.lineage.wf hx (mem_sortedSet.mp hy)

/-- What follows it: there is no continuity, and nothing to reconstruct. -/
theorem World.Intake.recover (hlaw : answers.Lawful)
    (hcontinuity : g.settings.continuityEnabled = false)
    (ids : List NodeId) (event : QuarantineEvent) (root : NodeId) (f : ContinuityResults → Response)
    (hw : w.Intake A L₀) :
    Act.Sat (Alone g answers) PlainCalls
      (attemptSafeContinuity g ids event >>= fun continuity =>
        attemptReconstruction g root >>= fun _ => pure (f continuity))
      (fun _ w' => w'.Intake A L₀) w := by
  have hnothing : attemptSafeContinuity g ids event = pure { enabled := false } := by
    rw [attemptSafeContinuity, if_pos (by simp [hcontinuity])]
  have hframe : Frame (Alone g answers) PlainCalls fun w' : World => w'.Intake A L₀ := by
    rintro c w₁ r w₂ hc hw₁ ht
    have hplain := World.plain_step ⟨hw₁.plain, hw₁.saved⟩ ht (Call.plain_of_quiet hc)
    refine ⟨Call.plain_of_quiet hc, ?_, hplain.1, hplain.2⟩
    rw [show w₂.lin = w₁.lin from (acts_step hlaw Trans.any).quiet hc ht]
    exact hw₁.lineage
  simp only [hnothing]
  change Act.Sat _ _ (attemptReconstruction g root >>= _) _ w
  rw [Act.sat_bind]
  refine (keeps_attemptReconstruction_settled hframe ?_ root w hw).mono ?_
  · rintro w₁ rcs w₂ hw₁ ⟨⟨hrcs, -⟩, -⟩
    obtain rfl := Except.ok.inj hrcs
    exact hw₁.plain.2
  · rintro (e | u) w' h'
    · exact h'
    · exact h'.1

/-- The two tests in front of a containment. -/
theorem World.Intake.tests {x : NodeId} {β : Type} {f : (NodeId → Bool) → (NodeId → Bool) → Handler β}
    {Q : Except Exc β → World → Prop}
    (hf : ∀ exists_ quarantined, (exists_ x = true → x ∈ w.lin.nodeIds) →
      Act.Sat (Alone g answers) PlainCalls (f exists_ quarantined) Q w) :
    Act.Sat (Alone g answers) PlainCalls
      (store (.nodesExist [x]) >>= fun e => store (.areQuarantined [x]) >>= fun q => f e q) Q w := by
  refine read_at (fun _ _ => trivial) rfl (read_at (fun _ _ => trivial) rfl (hf _ _ fun h => ?_))
  simpa [Db.nodesExist] using h

theorem World.Intake.designate (hlaw : answers.Lawful)
    (hcontinuity : g.settings.continuityEnabled = false)
    (header : Option String) (e : DesignationEvent) (hw : w.Intake A L₀) :
    Act.Sat (Alone g answers) PlainCalls (designatePoison g header e) (fun _ w' => w'.Intake A L₀)
      w := by
  refine World.Intake.quiet_bind hlaw (uses_verifyRole g (Call.of_quiet rfl) _ _) hw
    fun claims w₁ h₁ => ?_
  refine World.Intake.quiet_bind hlaw (uses_limitDesignations g (Call.of_quiet rfl) _ _) h₁
    fun _ w₂ h₂ => ?_
  refine sat_withExclusive (fun _ _ _ _ => trivial) (sat_withTransaction (fun _ _ _ _ => trivial)
    (uses_designateLocked g (Call.of_noTx rfl) e _) ?_)
  have hstart : World.Intake A L₀ { w₂ with saved := some w₂.db } :=
    ⟨h₂.lineage, h₂.plain, fun d hd => Option.some.inj hd ▸ h₂.plain⟩
  have hlocked : Act.Sat (Alone g answers) PlainCalls
      (designateLocked g e (claims.sub.getD "unknown")) (fun _ w' => w'.Intake A L₀)
      { w₂ with saved := some w₂.db } := by
    refine World.Intake.tests fun exists_ quarantined hex => ?_
    split
    · exact hstart
    · rename_i hfound
      split
      · exact hstart
      · rw [Act.sat_bind]
        refine (World.Intake.contain hlaw _ _ _ hstart (hex (by simpa using hfound))).mono ?_
        rintro (exc | ⟨ids, event⟩) w₃ h₃
        · exact h₃
        · exact World.Intake.recover hlaw hcontinuity ids event _ (fun continuity =>
            { reply := .designated event continuity }) h₃
  refine Act.Sat.mono hlocked ?_
  rintro (exc | a) w₃ h₃
  · exact ⟨h₂.lineage, h₂.plain, fun d hd => absurd hd (by simp)⟩
  · exact ⟨h₃.lineage, h₃.plain, fun d hd => absurd hd (by simp)⟩

theorem World.Intake.detector (hlaw : answers.Lawful)
    (hcontinuity : g.settings.continuityEnabled = false)
    (header : Option String) (source : String) (raw : RawEvent) (hw : w.Intake A L₀) :
    Act.Sat (Alone g answers) PlainCalls (ingestDetectorEvent g header source raw)
      (fun _ w' => w'.Intake A L₀) w := by
  refine World.Intake.quiet_bind hlaw (uses_verifyRole g (Call.of_quiet rfl) _ _) hw fun _ w₁ h₁ => ?_
  cases detectorRegistry source with
  | none => exact h₁
  | some src =>
    refine World.Intake.quiet_bind hlaw (uses_recordRawEvent (Call.of_quiet rfl) _ _) h₁
      fun _ w₂ h₂ => ?_
    refine World.Intake.quiet_bind hlaw (Act.uses_raiseIf _ _) h₂ fun _ w₃ h₃ => ?_
    cases toDesignation g.env src raw with
    | error reason => exact h₃
    | ok e =>
      refine World.Intake.quiet_bind hlaw (uses_verifyRole g (Call.of_quiet rfl) _ _) h₃
        fun claims w₄ h₄ => ?_
      refine World.Intake.quiet_bind hlaw (uses_limitDesignations g (Call.of_quiet rfl) _ _) h₄
        fun _ w₅ h₅ => ?_
      rw [Act.sat_bind]
      refine sat_withExclusive (fun _ _ _ _ => trivial) ?_
      rw [detectorLocked]
      have hlocked : Act.Sat (Alone g answers) PlainCalls
          (detectorLocked g e (claims.sub.getD ("detector:" ++ src.name)) src)
          (fun _ w' => w'.Intake A L₀) w₅ := by
        refine World.Intake.tests fun exists_ quarantined hex => ?_
        split
        · exact h₅
        · rename_i hfound
          split
          · exact h₅
          · rw [Act.sat_bind]
            refine (World.Intake.contain hlaw _ _ _ h₅ (hex (by simpa using hfound))).mono ?_
            rintro (exc | out) w₆ h₆
            · exact h₆
            · exact h₆
      refine Act.Sat.mono hlocked ?_
      rintro (exc | out) w₆ h₆
      · exact h₆
      · cases out with
        | none => exact h₆
        | some out =>
          exact World.Intake.recover hlaw hcontinuity out.1 out.2 e.poisonedNodeId
            (fun continuity => { reply := .designated out.2 continuity }) h₆

/-- **A request that submits nothing keeps what is held**, in either mode. -/
theorem World.Intake.other (hlaw : answers.Lawful)
    (hcontinuity : g.settings.continuityEnabled = false)
    {req : Request} (hreq : req.Races ∨ req.Quiet) (hsubmit : ∀ bytes body,
      req ≠ .submitCandidate bytes body) (hw : w.Intake A L₀) :
    Act.Sat (Alone g answers) PlainCalls (req.handle g) (fun _ w' => w'.Intake A L₀) w := by
  have hquiet : req.Quiet →
      Act.Sat (Alone g answers) PlainCalls (req.handle g) (fun _ w' => w'.Intake A L₀) w := by
    intro hq
    refine World.Intake.of_lineage hw ?_
    refine ((acts_step hlaw Trans.any).sat_quiet plainCalls_quiet (quiet_handle g req hq) w).mono ?_
    intro _ w' hw'
    rw [hw']
    exact hw.lineage
  cases req with
  | submitCandidate bytes body => exact absurd rfl (hsubmit bytes body)
  | designate header e => exact World.Intake.designate hlaw hcontinuity header e hw
  | detector header source raw => exact World.Intake.detector hlaw hcontinuity header source raw hw
  | _ => exact hquiet (hreq.resolve_left id)

/-! ## 3. Submissions -/

/-- What a request alone hears. -/
theorem heard_alone {c : Call} {r : Except Exc c.Res} {w' : World} (h : Alone g answers c w r w') :
    Heard answers (fun _ => True) c r := by
  cases c with
  | ext e => exact h.1.1
  | getAdapterKey => exact fun _ _ => trivial
  | _ => trivial

/-- **The frame of a submission**, with what its checks have shown. -/
theorem sat_submission_checked (bytes : ℕ) (body : SubmitBody)
    {Q : Except Exc Response → World → Prop}
    (hfail : ∀ e, Q (.error e) w)
    (hbody : ∀ p auth decisionId, parseSubmission g bytes body = .ok p → p.Authentic g answers →
      p.parentIds.length ≤ 256 →
      Act.Sat (Alone g answers) PlainCalls (submitLocked g p auth decisionId)
        (onOk (fun a w' => Q (.ok a) { w' with saved := none })
          fun e w' => Q (.error e) { w' with db := w.db, saved := none })
        { w with saved := some w.db }) :
    Act.Sat (Alone g answers) PlainCalls (submitCandidate g bytes body) Q w := by
  have hasks := sat_submitChecks_asking (g := g) (T := Alone g answers) (P := PlainCalls)
    (fun e w₁ r w₂ ht => ht.1.2) (fun _ _ _ _ => trivial) bytes body w
  have hheard : Prog.Sat (Alone g answers) Trans.any (submitChecks g bytes body).tree _ w :=
    Prog.Ends.sat (ends_submitChecks (g := g) (K := fun _ => True) bytes body)
      (fun _ _ _ _ ht => heard_alone ht) w
  rw [submitCandidate, Act.sat_bind]
  refine ((Prog.Sat.and hasks hheard).weaken fun _ _ _ _ h => h.1).mono ?_
  rintro (e | ⟨p, auth, decisionId⟩) w₁ ⟨h₁, hshown⟩
  · obtain rfl : w₁ = w := h₁
    exact hfail e
  · obtain ⟨rfl, hparse⟩ := h₁
    obtain ⟨-, hauth, hlength⟩ := hshown _ rfl
    exact sat_withShared (fun _ _ _ _ => trivial) (sat_withTransaction (fun _ _ _ _ => trivial)
      (uses_submitLocked g (Call.of_noTx rfl) p auth decisionId)
      (hbody p auth decisionId hparse hauth hlength))

/-- **In enforcement mode** a submission is stored, or refused. -/
theorem World.Intake.submit_enforce (hlaw : answers.Lawful)
    (hmode : g.settings.enforcementMode = .enforce) (bytes : ℕ) (body : SubmitBody)
    (hsent : ∀ p, parseSubmission g bytes body = .ok p → p.Authentic g answers →
      p.parentIds.length ≤ 256 → A p)
    (hcovers : ∀ p, parseSubmission g bytes body = .ok p → p.covers = []) (hw : w.Intake A L₀) :
    Act.Sat (Alone g answers) PlainCalls (submitCandidate g bytes body) (fun _ w' => w'.Intake A L₀)
      w := by
  refine sat_submission_checked bytes body (fun _ => hw)
    fun p auth decisionId hparse hauth hlength => ?_
  · have hp : A p := hsent p hparse hauth hlength
    have hsection := sat_submitLocked (T := Alone g answers) (P := PlainCalls) (K := fun _ _ _ => True)
      (acts_step hlaw Trans.any) hmode p auth decisionId { w with saved := some w.db }
      ⟨plainCalls_quiet, fun _ _ _ _ _ _ => ⟨hcovers p hparse, trivial⟩,
        fun _ _ _ _ _ _ => hcovers p hparse, fun _ _ _ _ _ _ _ _ _ _ _ => ⟨trivial, trivial⟩⟩
    refine (Prog.Sat.invariant hsection (fun _ _ _ _ hI ht hc => World.plain_step hI ht hc)
      ⟨hw.plain, fun d hd => Option.some.inj hd ▸ hw.plain⟩).mono ?_
    rintro (e | a) w' ⟨hout, hplain, -⟩
    · exact ⟨hw.lineage, hw.plain, fun d hd => absurd hd (by simp)⟩
    · refine ⟨?_, hplain, fun d hd => absurd hd (by simp)⟩
      change SubmitOutcome _ _ _ w.lin a w'.lin at hout
      change L₀.Intake A w'.lin
      generalize w'.lin = L' at hout ⊢
      cases hout with
      | refused _ _ => exact hw.lineage
      | admitted gap hid _ _ _ _ => exact hw.lineage.commitNode hp hid gap
      | rejected gap _ hid _ _ _ =>
        refine (hw.lineage.commitNode hp hid gap).quarantine fun x hx => ?_
        rw [List.mem_singleton.mp hx]
        exact Lineage.mem_nodeIds_commitNode.mpr (Or.inr rfl)

/-- A policy engine that answers. -/
def EngineAnswers (answers : Answers) : Prop := ∀ q r, answers (.opa q) r → ∃ v, r = .ok v

/-- Then a decision is made, and nothing else. -/
theorem sat_failClosed_answers (hlaw : answers.Lawful) (hengine : EngineAnswers answers) (p : Payload)
    (exists_ quarantined : NodeId → Bool) (auth : Claims) :
    Act.Sat (Alone g answers) PlainCalls (failClosed (evaluateAdmission p exists_ quarantined auth))
      (fun r w' => (∃ d, r = .ok d) ∧ w' = w) w := by
  have hask : ∀ {β : Type} (q : PolicyQuery) {f : PolicyAnswer → Handler β}
      {Q : Except Exc β → World → Prop},
      (∀ v, Act.Sat (Alone g answers) PlainCalls (f v) Q w) →
        Act.Sat (Alone g answers) PlainCalls (ext (.opa q) >>= f) Q w := by
    intro β q f Q hf
    rw [Act.sat_bind]
    rintro r w' ⟨⟨hr, rfl⟩, -⟩
    obtain ⟨v, rfl⟩ := hengine q r hr
    exact ⟨trivial, hf v⟩
  have hsequential : ∀ i v, Act.Sat (Alone g answers) PlainCalls (evaluateSequentially p quarantined i v)
      (fun r w' => (∃ d, r = .ok d) ∧ w' = w) w := by
    intro i v
    refine hask _ fun a => ?_
    split
    · exact ⟨⟨_, rfl⟩, rfl⟩
    · refine hask _ fun b => ?_
      split
      · exact ⟨⟨_, rfl⟩, rfl⟩
      · exact ⟨⟨_, rfl⟩, rfl⟩
  rw [failClosed, Act.sat_bind, Act.sat_attempt]
  refine Act.Sat.mono (Q := fun r w' => (∃ d, r = .ok d) ∧ w' = w) ?_ ?_
  · rw [evaluateAdmission, Act.sat_bind]
    rintro r w' ⟨⟨hr, rfl⟩, -⟩
    obtain ⟨now, rfl⟩ := hlaw _ _ hr
    refine ⟨trivial, ?_⟩
    change Act.Sat _ _ (Act.attempt _ >>= _) _ w'
    rw [Act.sat_bind, Act.sat_attempt]
    rintro r w₁ ⟨⟨hr, rfl⟩, -⟩
    obtain ⟨v, rfl⟩ := hengine _ r hr
    refine ⟨trivial, ?_⟩
    cases v with
    | dict write reintegration irreducible =>
      cases write with
      | false => exact ⟨⟨_, rfl⟩, rfl⟩
      | true =>
        cases reintegration with
        | false => exact ⟨⟨_, rfl⟩, rfl⟩
        | true => exact ⟨⟨_, rfl⟩, rfl⟩
    | bool b => exact hsequential _ _
  · rintro r w' ⟨⟨d, rfl⟩, rfl⟩
    exact ⟨⟨d, rfl⟩, rfl⟩

/-- The section of a submission in shadow mode. -/
theorem submitLocked_shadow (hmode : g.settings.enforcementMode = .shadow) (p : Payload)
    (auth : Claims) (decisionId : String) : submitLocked g p auth decisionId = (do
      let idQuarantined ← store (.areQuarantined [p.payloadId])
      Act.raiseIf (idQuarantined p.payloadId)
        (.text 409 ("payload_id " ++ p.payloadId ++
          " is quarantined; cannot reuse a quarantined identity"))
      let exists_ ← store (.nodesExist p.parentIds)
      let quarantined ← store (.areQuarantined p.parentIds)
      let _ ← store (.getNodeContentHashes p.parentIds)
      let p' ← prepareCompaction p
      let _ ← failClosed (evaluateAdmission p' exists_ quarantined auth)
      let _ ← store (.commitNode .shadow p')
      pure { reply := .null }) := by
  unfold submitLocked
  simp only [hmode]

/-- A payload that covers nothing gets its gap, and goes on. -/
theorem prepare_at {p : Payload} (hcovers : p.covers = []) {f : Payload → Handler Response}
    {Q : Except Exc Response → World → Prop}
    (hf : ∀ gap, Act.Sat (Alone g answers) PlainCalls (f { p with coversIntervalGap := gap }) Q w) :
    Act.Sat (Alone g answers) PlainCalls (prepareCompaction p >>= f) Q w := by
  unfold prepareCompaction
  split
  · rw [Act.sat_bind]
    refine read_at (fun _ _ => trivial) rfl ?_
    exact hf (some (w.db.computeCoversIntervalGap p.covers))
  · exact hf p.coversIntervalGap

/-- **Whatever is decided, the payload is stored**, unless its id is quarantined. -/
theorem sat_submitLocked_shadow (hlaw : answers.Lawful) (hengine : EngineAnswers answers)
    (hmode : g.settings.enforcementMode = .shadow) {p : Payload} (hcovers : p.covers = [])
    (auth : Claims) (decisionId : String) :
    Act.Sat (Alone g answers) PlainCalls (submitLocked g p auth decisionId)
      (onOk (fun _ w' => p.payloadId ∉ w.lin.ledger ∧
          ∃ gap, w'.lin = (w.lin.commitNode g.env.sha256 { p with coversIntervalGap := gap }).2)
        fun _ _ => p.payloadId ∈ w.lin.ledger) w := by
  rw [submitLocked_shadow hmode]
  refine read_at (fun _ _ => trivial) rfl ?_
  rw [Act.sat_bind, Act.sat_raiseIf]
  refine ⟨fun hid => ?_, fun hid => ?_⟩
  · change p.payloadId ∈ w.db.ledger
    simpa [Db.areQuarantined] using hid
  have hid : p.payloadId ∉ w.lin.ledger := by simpa [Db.areQuarantined] using hid
  rw [onOk_ok]
  refine read_at (fun _ _ => trivial) rfl (read_at (fun _ _ => trivial) rfl
    (read_at (fun _ _ => trivial) rfl (prepare_at hcovers fun gap => ?_)))
  rw [Act.sat_bind]
  refine (sat_failClosed_answers hlaw hengine _ _ _ auth).mono ?_
  rintro r w₁ ⟨⟨d, rfl⟩, rfl⟩
  rw [onOk_ok, Act.sat_bind]
  rintro r w₂ ⟨⟨rfl, rfl⟩, -⟩
  exact ⟨hcovers, hid, gap, rfl⟩

theorem World.Intake.submit_shadow (hlaw : answers.Lawful) (hengine : EngineAnswers answers)
    (hmode : g.settings.enforcementMode = .shadow) (bytes : ℕ) (body : SubmitBody)
    (hsent : ∀ p, parseSubmission g bytes body = .ok p → A p)
    (hcovers : ∀ p, parseSubmission g bytes body = .ok p → p.covers = []) (hw : w.Intake A L₀) :
    Act.Sat (Alone g answers) PlainCalls (submitCandidate g bytes body) (fun _ w' => w'.Intake A L₀)
      w := by
  refine sat_submission_checked bytes body (fun _ => hw) fun p auth decisionId hparse _ _ => ?_
  have hsection := sat_submitLocked_shadow (w := { w with saved := some w.db }) hlaw hengine hmode
    (hcovers p hparse) auth decisionId
  refine (Prog.Sat.invariant hsection (fun _ _ _ _ hI ht hc => World.plain_step hI ht hc)
    ⟨hw.plain, fun d hd => Option.some.inj hd ▸ hw.plain⟩).mono ?_
  rintro (e | a) w' ⟨hout, hplain, -⟩
  · exact ⟨hw.lineage, hw.plain, fun d hd => absurd hd (by simp)⟩
  · obtain ⟨hid, gap, hlin⟩ := hout
    refine ⟨?_, hplain, fun d hd => absurd hd (by simp)⟩
    change L₀.Intake A w'.lin
    rw [hlin]
    exact hw.lineage.commitNode (hsent p hparse) hid gap

/-- The payload passes the checks in front of the lock, whenever they are made. -/
structure Payload.Passes (g : Setup) (answers : Answers) (p : Payload) : Prop where
  token : ∀ t, answers (.now .token) (.ok t) →
    ∃ auth, verifyNhiJwt g.env t p.sessionToken p.identityId = .ok auth
  signature : verifyCryptographicSignature g.env p = true
  length : p.parentIds.length ≤ 256

theorem sat_submitChecks_passes (hlaw : answers.Lawful) {bytes : ℕ} {body : SubmitBody} {p : Payload}
    (hparse : parseSubmission g bytes body = .ok p) (hp : p.Passes g answers) :
    Act.Sat (Alone g answers) PlainCalls (submitChecks g bytes body)
      (fun r w' => (∃ auth decisionId, r = .ok (p, auth, decisionId)) ∧ w' = w) w := by
  rw [submitChecks, hparse]
  change Act.Sat _ _ (verifyNhi g p.sessionToken p.identityId >>= _) _ w
  rw [Act.sat_bind, verifyNhi, Act.sat_bind]
  rintro r w₁ ⟨⟨hr, rfl⟩, -⟩
  obtain ⟨t, rfl⟩ := hlaw _ _ hr
  obtain ⟨auth, hauth⟩ := hp.token t hr
  refine ⟨trivial, ?_⟩
  change onOk _ _ (Except.ok t) w₁
  rw [onOk_ok, hauth]
  change Act.Sat _ _ (Act.raiseIf _ _ >>= _) _ w₁
  rw [Act.sat_bind, Act.sat_raiseIf]
  refine ⟨fun h => absurd h (by simp [hp.signature]), fun _ => ?_⟩
  rw [onOk_ok, Act.sat_bind, Act.sat_raiseIf]
  refine ⟨fun h => absurd h (by simp [hp.length]), fun _ => ?_⟩
  rw [onOk_ok, Act.sat_bind]
  rintro r w₂ ⟨⟨hr, rfl⟩, -⟩
  obtain ⟨u, rfl⟩ := hlaw _ _ hr
  exact ⟨trivial, ⟨auth, u, rfl⟩, rfl⟩

/-- **What passes the checks is stored in shadow mode**, unless its id is quarantined. -/
theorem sat_submission_stored (hlaw : answers.Lawful) (hengine : EngineAnswers answers)
    (hmode : g.settings.enforcementMode = .shadow) {bytes : ℕ} {body : SubmitBody} {p : Payload}
    (hparse : parseSubmission g bytes body = .ok p) (hp : p.Passes g answers)
    (hcovers : p.covers = []) :
    Act.Sat (Alone g answers) PlainCalls (submitCandidate g bytes body)
      (fun _ w' => p.payloadId ∈ w'.lin.nodeIds ∨ p.payloadId ∈ w.lin.ledger) w := by
  rw [submitCandidate, Act.sat_bind]
  refine (sat_submitChecks_passes hlaw hparse hp).mono ?_
  rintro r w₁ ⟨⟨auth, decisionId, rfl⟩, rfl⟩
  refine sat_withShared (fun _ _ _ _ => trivial) (sat_withTransaction (fun _ _ _ _ => trivial)
    (uses_submitLocked g (Call.of_noTx rfl) p auth decisionId) ?_)
  refine (sat_submitLocked_shadow (w := { w₁ with saved := some w₁.db }) hlaw hengine hmode hcovers auth
    decisionId).mono ?_
  rintro (e | a) w₂ hout
  · exact Or.inr hout
  · obtain ⟨-, gap, hlin⟩ := hout
    refine Or.inl ?_
    change p.payloadId ∈ w₂.lin.nodeIds
    rw [hlin]
    exact Lineage.mem_nodeIds_commitNode.mpr (Or.inr rfl)

/-! ## 4. Runs -/

/-- A run keeps what is held, if its submissions do. -/
theorem World.Intake.run (hlaw : answers.Lawful) (hcontinuity : g.settings.continuityEnabled = false)
    {Q : Request → Prop} (hkinds : ∀ req, Q req → req.Races ∨ req.Quiet)
    (hsubmit : ∀ bytes body w, Q (.submitCandidate bytes body) → w.Intake A L₀ →
      Act.Sat (Alone g answers) PlainCalls (submitCandidate g bytes body)
        (fun _ w' => w'.Intake A L₀) w)
    {hs : List Handled} {w' : World} (hrun : Run g (Step g answers) w hs w')
    (hreqs : ∀ k ∈ hs, Q k.request) (hw : w.Intake A L₀) : w'.Intake A L₀ := by
  have hhandle : ∀ (req : Request) w, Q req → w.Intake A L₀ →
      Act.Sat (Alone g answers) PlainCalls (req.handle g) (fun _ w₁ => w₁.Intake A L₀) w := by
    intro req w hreq hw
    by_cases hsub : ∃ bytes body, req = .submitCandidate bytes body
    · obtain ⟨bytes, body, rfl⟩ := hsub
      exact hsubmit bytes body w hreq hw
    · exact World.Intake.other hlaw hcontinuity (hkinds req hreq)
        (fun bytes body h => hsub ⟨bytes, body, h⟩) hw
  exact ((hrun.restrict fun _ _ _ _ => trivial).invariant_of hhandle hreqs hw).1

end Requests

/-- The conditions on the traffic: what the enforcing deployment is sent, the other one is sent as
well, in any order and perhaps with more. -/
structure SameTraffic (g : Setup) (aE aS : Answers) (reqsE reqsS : List Request) : Prop where
  sent : ∀ req ∈ reqsE, req ∈ reqsS
  kinds : ∀ req ∈ reqsS, req.Races ∨ req.Quiet
  covers : ∀ req ∈ reqsS, ∀ p, req.Submits g p → p.covers = []
  parents : ∀ req ∈ reqsS, ∀ req' ∈ reqsS, ∀ p q, req.Submits g p → req'.Submits g q →
    p.payloadId = q.payloadId → p.parentIds = q.parentIds
  tokens : ∀ p : Payload, p.Authentic g aE → ∀ t, aS (.now .token) (.ok t) →
    ∃ auth, verifyNhiJwt g.env t p.sessionToken p.identityId = .ok auth
  engine : EngineAnswers aS

section Bound

variable {g : Setup} {aE aS : Answers} {w₀ wE wS : World} {hsE hsS : List Handled}

/-- The payloads of the enforcing deployment that are sent and pass the checks. -/
def SentAndChecked (g : Setup) (answers : Answers) (reqs : List Request) (p : Payload) : Prop :=
  (∃ req ∈ reqs, req.Submits g p) ∧ p.Authentic g answers ∧ p.parentIds.length ≤ 256

theorem intake_enforce (hE : aE.Lawful) (hcontinuity : g.settings.continuityEnabled = false)
    (htraffic : SameTraffic g aE aS (hsE.map Handled.request) (hsS.map Handled.request))
    (hrun : Run (g.inMode .enforce) (Step (g.inMode .enforce) aE) w₀ hsE wE)
    (hwf : w₀.lin.Wf) (hplain : w₀.db.Plain) (hsaved : w₀.saved = none) :
    wE.Intake (SentAndChecked g aE (hsE.map Handled.request)) w₀.lin := by
  refine World.Intake.run (g := g.inMode .enforce) (Q := fun req => req ∈ hsE.map Handled.request) hE
    hcontinuity (fun req hreq => htraffic.kinds req (htraffic.sent req hreq)) ?_ hrun
    (fun k hk => List.mem_map_of_mem hk) ⟨.start hwf, hplain, fun d hd => absurd hd (by simp [hsaved])⟩
  intro bytes body w hreq hw
  exact hw.submit_enforce hE rfl bytes body
    (fun p hparse hauth hlength => ⟨⟨_, hreq, hparse⟩, hauth, hlength⟩)
    fun p hparse => htraffic.covers _ (htraffic.sent _ hreq) p hparse

theorem intake_shadow (hS : aS.Lawful) (hcontinuity : g.settings.continuityEnabled = false)
    {reqsE reqsS : List Request} (htraffic : SameTraffic g aE aS reqsE reqsS) {w w' : World}
    {hs : List Handled} (hrun : Run (g.inMode .shadow) (Step (g.inMode .shadow) aS) w hs w')
    (hreqs : ∀ k ∈ hs, k.request ∈ reqsS) {L₀ : Lineage}
    (hw : w.Intake (fun p => ∃ req ∈ reqsS, req.Submits g p) L₀) :
    w'.Intake (fun p => ∃ req ∈ reqsS, req.Submits g p) L₀ := by
  refine World.Intake.run (g := g.inMode .shadow) (Q := fun req => req ∈ reqsS) hS hcontinuity
    (fun req hreq => htraffic.kinds req hreq) ?_ hrun hreqs hw
  intro bytes body w hreq hw
  exact hw.submit_shadow hS htraffic.engine rfl bytes body (fun p hparse => ⟨_, hreq, hparse⟩)
    fun p hparse => htraffic.covers _ hreq p hparse

/-- **What the enforcing deployment has stored, the other one has stored**, with the same
parents. -/
theorem stored_in_shadow (hE : aE.Lawful) (hS : aS.Lawful)
    (hcontinuity : g.settings.continuityEnabled = false) (hwf : w₀.lin.Wf) (hplain : w₀.db.Plain)
    (hsaved : w₀.saved = none)
    (hrunE : Run (g.inMode .enforce) (Step (g.inMode .enforce) aE) w₀ hsE wE)
    (hrunS : Run (g.inMode .shadow) (Step (g.inMode .shadow) aS) w₀ hsS wS)
    (htraffic : SameTraffic g aE aS (hsE.map Handled.request) (hsS.map Handled.request)) :
    ∀ n ∈ wE.db.nodes, ∃ m ∈ wS.db.nodes, m.nodeId = n.nodeId ∧
      m.payload.parentIds = n.payload.parentIds := by
  have hintakeE := intake_enforce hE hcontinuity htraffic hrunE hwf hplain hsaved
  have hstart : w₀.Intake (fun p => ∃ req ∈ hsS.map Handled.request, req.Submits g p) w₀.lin :=
    ⟨.start hwf, hplain, fun d hd => absurd hd (by simp [hsaved])⟩
  have hintakeS := intake_shadow hS hcontinuity htraffic hrunS
    (fun k hk => List.mem_map_of_mem hk) hstart
  intro n hn
  rcases hintakeE.lineage.sent n hn with
    hold | ⟨hnew, p, ⟨⟨req, hreq, hsub⟩, hauth, hlength⟩, hid, hparents⟩
  · exact ⟨n, hintakeS.lineage.nodes n hold, rfl, rfl⟩
  -- the request that submitted it is one of the other run
  obtain ⟨k, hk, hkreq⟩ := List.mem_map.mp (htraffic.sent req hreq)
  obtain ⟨pre, post, hsplit⟩ := List.append_of_mem hk
  obtain ⟨bytes, body, rfl⟩ : ∃ bytes body, req = .submitCandidate bytes body := by
    cases req with
    | submitCandidate bytes body => exact ⟨bytes, body, rfl⟩
    | _ => exact absurd hsub id
  rw [hsplit] at hrunS
  obtain ⟨w₁, hpre, hexec, hpost⟩ := hrunS.split
  have hmem : ∀ j ∈ pre ++ k :: post, j.request ∈ hsS.map Handled.request := fun j hj =>
    List.mem_map_of_mem (hsplit ▸ hj)
  have hbefore := intake_shadow hS hcontinuity htraffic hpre
    (fun j hj => hmem j (List.mem_append_left _ hj)) hstart
  have hpasses : p.Passes (g.inMode .shadow) aS := ⟨htraffic.tokens p hauth, hauth.2, hlength⟩
  have hstored : p.payloadId ∈ k.after.lin.nodeIds ∨ p.payloadId ∈ w₁.lin.ledger := by
    have hsat :=
      sat_submission_stored (g := g.inMode .shadow) (w := w₁) hS htraffic.engine rfl hsub hpasses
        (htraffic.covers _ (htraffic.sent _ hreq) p hsub)
    rw [hkreq] at hexec
    exact (Prog.Sat.sound hsat (hexec.restrict fun _ _ => trivial)).2
  -- and what is stored on the way stays
  have hkeep : ∀ {v v' : World} {hs : List Handled}, v.lin.Wf → v.db.Plain →
      (∀ d, v.saved = some d → d.Plain) → (∀ j ∈ hs, j.request ∈ hsS.map Handled.request) →
      Run (g.inMode .shadow) (Step (g.inMode .shadow) aS) v hs v' →
      ∀ x ∈ v.lin.nodeIds, x ∈ v'.lin.nodeIds := by
    intro v v' hs hv hvplain hvsaved hvreqs hvrun x hx
    have hv' := intake_shadow hS hcontinuity htraffic hvrun hvreqs ⟨.start hv, hvplain, hvsaved⟩
    obtain ⟨m, hm, rfl⟩ := Lineage.mem_nodeIds.mp hx
    exact Lineage.mem_nodeIds.mpr ⟨m, hv'.lineage.nodes m hm, rfl⟩
  have hafter : k.after.Intake (fun p => ∃ req ∈ hsS.map Handled.request, req.Submits g p) w₀.lin :=
    intake_shadow hS hcontinuity htraffic (hpre.snoc hexec) (fun j hj => by
      rcases List.mem_append.mp hj with hj | hj
      · exact hmem j (List.mem_append_left _ hj)
      · rw [List.mem_singleton.mp hj]
        exact hmem k (List.mem_append_right _ List.mem_cons_self)) hstart
  have hend : p.payloadId ∈ wS.lin.nodeIds := by
    rcases hstored with hstored | hledger
    · exact hkeep hafter.lineage.wf hafter.plain hafter.saved
        (fun j hj => hmem j (List.mem_append_right _ (List.mem_cons_of_mem _ hj))) hpost _ hstored
    · rcases hbefore.lineage.stored _ hledger with hstored | hold
      · exact hkeep hbefore.lineage.wf hbefore.plain hbefore.saved
          (fun j hj => hmem j (List.mem_append_right _ hj)) (.cons hexec hpost) _ hstored
      · exact absurd (hid ▸ hold) hnew
  obtain ⟨m, hm, hmid⟩ := Lineage.mem_nodeIds.mp hend
  refine ⟨m, hm, hmid.trans hid, ?_⟩
  rcases hintakeS.lineage.sent m hm with hold | ⟨-, q, ⟨req', hreq', hsub'⟩, hid', hparents'⟩
  · -- then the node was there from the start, in both
    have hsame : m = n := by
      have hmE := hintakeE.lineage.nodes m hold
      have h₁ : Keyed.lookup NodeRow.nodeId wE.db.nodes m.nodeId = some m :=
        Keyed.lookup_of_mem hintakeE.lineage.wf.nodup hmE
      have h₂ : Keyed.lookup NodeRow.nodeId wE.db.nodes n.nodeId = some n :=
        Keyed.lookup_of_mem hintakeE.lineage.wf.nodup hn
      rw [hmid, hid, h₂] at h₁
      exact (Option.some.inj h₁).symm
    rw [hsame]
  · rw [← hparents', ← hparents]
    exact htraffic.parents req' hreq' _ (htraffic.sent _ hreq) q p hsub' hsub (hid'.trans hmid)

/-- **The caveat of `/shadow-report`.**  Two deployments that differ in the mode alone start from
the same database, in which no stored node covers another and nothing is pending (`hplain`), and get
the same traffic, each in its own order.  Then every blast radius of the enforcing one is contained
in the blast radius of the same root in the other. -/
theorem shadow_radius_bound (hE : aE.Lawful) (hS : aS.Lawful)
    (hcontinuity : g.settings.continuityEnabled = false) (hwf : w₀.lin.Wf) (hplain : w₀.db.Plain)
    (hsaved : w₀.saved = none)
    (hrunE : Run (g.inMode .enforce) (Step (g.inMode .enforce) aE) w₀ hsE wE)
    (hrunS : Run (g.inMode .shadow) (Step (g.inMode .shadow) aS) w₀ hsS wS)
    (htraffic : SameTraffic g aE aS (hsE.map Handled.request) (hsS.map Handled.request))
    (root : NodeId) :
    ∀ x ∈ (wE.db.computeBlastRadius g.settings.maxTraversalDepth root).1,
      x ∈ (wS.db.computeBlastRadius g.settings.maxTraversalDepth root).1 := by
  have hintakeE := intake_enforce hE hcontinuity htraffic hrunE hwf hplain hsaved
  have hintakeS := intake_shadow hS hcontinuity htraffic hrunS (fun k hk => List.mem_map_of_mem hk)
    ⟨.start hwf, hplain, fun d hd => absurd hd (by simp [hsaved])⟩
  have hstored := stored_in_shadow hE hS hcontinuity hwf hplain hsaved hrunE hrunS htraffic
  have hedge : ∀ x y, wE.lin.Edge x y → wS.lin.Edge x y := by
    intro x y hxy
    obtain ⟨n, hn, rfl, hnames⟩ := (hintakeE.lineage.wf.edge_iff x y).mp hxy
    obtain ⟨m, hm, hid, hparents⟩ := hstored n hn
    refine (hintakeS.lineage.wf.edge_iff x _).mpr ⟨m, hm, hid, Or.inl ?_⟩
    rw [hparents]
    refine hnames.resolve_right fun hcovered => ?_
    rw [hintakeE.plain.1 n hn] at hcovered
    exact absurd hcovered List.not_mem_nil
  intro x hx
  have hx' : x ∈ wE.lin.traverse g.settings.maxTraversalDepth root := mem_sortedSet.mp hx
  refine mem_sortedSet.mpr ((Lineage.mem_traverse hintakeS.lineage.wf).mpr ?_)
  exact ((Lineage.mem_traverse hintakeE.lineage.wf).mp hx').transfer (S := fun _ => True)
    (fun _ _ _ _ => trivial) (fun y z _ _ hyz => hedge y z hyz) trivial

end Bound

/-! ## 5. A write that only shadow mode lets in -/

/-- Answers that come at once; each request has a uuid of its own. -/
def promptAnswers : Answers := fun e r => ∃ uuid, (openScript uuid).answers e r

theorem promptAnswers_lawful : promptAnswers.Lawful := by
  rintro e r ⟨uuid, hr⟩
  exact (openScript uuid).lawful e r hr

theorem step_prompt {g : Setup} {reqs : List Request} {r : Script × Request} (hr : r ∈ openRun reqs)
    (c : Call) (w : World) : Step g promptAnswers c w (r.1.step g c w).1 (r.1.step g c w).2 := by
  obtain ⟨⟨req, i⟩, -, rfl⟩ := List.mem_map.mp hr
  exact (Script.step_answers c w).mono fun e a ha => ⟨toString i, ha⟩

/-- A write, one with a parent that does not exist, a report of the root, and a child of the
first. -/
def mixedRequests : List Request :=
  [openSubmission "node-1" ["clean-parent-1"], openSubmission "node-2" ["clean-parent-1", "missing"],
    openReport "clean-parent-1", openSubmission "node-3" ["node-1"]]

/-- The world they leave in a mode, in this order or the reverse. -/
def mixedWorld (m : EnforcementMode) (reqs : List Request) : World :=
  Script.handleAll (plainSetup.inMode m) (openRun reqs) (World.initial plainSetup {} none)

/-- What they submit. -/
def mixedPayloads : List Payload :=
  [openPayload "agent" "node-1" ["clean-parent-1"],
    openPayload "agent" "node-2" ["clean-parent-1", "missing"],
    openPayload "agent" "node-3" ["node-1"]]

theorem mem_mixedPayloads {req : Request} (hreq : req ∈ mixedRequests) {p : Payload}
    (hp : req.Submits plainSetup p) : p ∈ mixedPayloads := by
  simp only [mixedRequests, List.mem_cons, List.not_mem_nil, or_false] at hreq
  rcases hreq with rfl | rfl | rfl | rfl
  · rw [parseSubmission_payload hp]
    exact List.mem_cons_self
  · rw [parseSubmission_payload hp]
    exact List.mem_cons_of_mem _ List.mem_cons_self
  · exact absurd hp id
  · rw [parseSubmission_payload hp]
    exact List.mem_cons_of_mem _ (List.mem_cons_of_mem _ List.mem_cons_self)

theorem mixed_traffic {reqsE reqsS : List Request}
    (hS : ∀ req ∈ reqsS, req ∈ mixedRequests) (hsent : ∀ req ∈ reqsE, req ∈ reqsS) :
    SameTraffic plainSetup promptAnswers promptAnswers reqsE reqsS where
  sent := hsent
  kinds := by
    intro req hreq
    have hmixed := hS req hreq
    simp only [mixedRequests, List.mem_cons, List.not_mem_nil, or_false] at hmixed
    rcases hmixed with rfl | rfl | rfl | rfl <;> exact Or.inl trivial
  covers := by
    intro req hreq p hp
    have hall : ∀ p ∈ mixedPayloads, p.covers = [] := by decide
    exact hall p (mem_mixedPayloads (hS req hreq) hp)
  parents := by
    intro req hreq req' hreq' p q hp hq hid
    have hall : ∀ p ∈ mixedPayloads, ∀ q ∈ mixedPayloads, p.payloadId = q.payloadId →
        p.parentIds = q.parentIds := by decide
    exact hall p (mem_mixedPayloads (hS req hreq) hp) q (mem_mixedPayloads (hS req' hreq') hq) hid
  tokens := by
    rintro p ⟨⟨t₀, auth, -, hauth⟩, -⟩ t -
    -- the tokens of this deployment do not expire
    exact ⟨auth, hauth⟩
  engine := by
    rintro q r ⟨uuid, rfl⟩
    exact ⟨_, rfl⟩

/-- In reverse order shadow mode stores all three writes; enforcement mode refuses the second. -/
theorem shadow_radius_bound_mixed :
    ((mixedWorld .enforce mixedRequests).db.computeBlastRadius 8 "clean-parent-1").1 =
        ["clean-parent-1", "node-1", "node-3"] ∧
      ∀ x ∈ ["clean-parent-1", "node-1", "node-3"],
        x ∈ ((mixedWorld .shadow mixedRequests.reverse).db.computeBlastRadius 8 "clean-parent-1").1 := by
  have hradius : ((mixedWorld .enforce mixedRequests).db.computeBlastRadius 8 "clean-parent-1").1 =
      ["clean-parent-1", "node-1", "node-3"] := by decide +kernel
  obtain ⟨hsE, hrunE, hreqsE⟩ := Script.exists_run_under (plainSetup.inMode .enforce)
    (openRun mixedRequests)
    (World.initial plainSetup {} none) fun _ hr => step_prompt hr
  obtain ⟨hsS, hrunS, hreqsS⟩ := Script.exists_run_under (plainSetup.inMode .shadow)
    (openRun mixedRequests.reverse) (World.initial plainSetup {} none) fun _ hr => step_prompt hr
  have hmapE : hsE.map Handled.request = mixedRequests := hreqsE
  have hmapS : hsS.map Handled.request = mixedRequests.reverse := hreqsS
  have hmem : ∀ req ∈ mixedRequests.reverse, req ∈ mixedRequests := fun req h => List.mem_reverse.mp h
  refine ⟨hradius, fun x hx => ?_⟩
  rw [← hradius] at hx
  refine shadow_radius_bound (g := plainSetup) promptAnswers_lawful promptAnswers_lawful rfl
    (Lineage.wf_reset _ _).1 ⟨by decide, fun row hrow => absurd hrow List.not_mem_nil⟩ rfl hrunE hrunS
    ?_ "clean-parent-1" x hx
  rw [hmapE, hmapS]
  exact mixed_traffic hmem fun req h => List.mem_reverse.mpr h

end GovernorGateway
