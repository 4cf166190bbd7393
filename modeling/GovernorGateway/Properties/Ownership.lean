/-
# Who can quarantine a stored node

A node that is stored and clean belongs to whoever wrote it.  Only the endpoints with the designator
role are meant to move it into the ledger; a write of another agent must not.

It can.  The `TAINTED_PARENT` branch of `/submit-candidate` quarantines the `payload_id` OF THE
REQUEST, and `commit_node` has ignored a payload whose id is taken, so that the node quarantined is
the one stored under that id before.  `keepsAdmitted_iff` says that this is the only way.
-/
import GovernorGateway.Semantics.Scripted

namespace GovernorGateway

open Effects

/-! ## 1. The property and its condition -/

/-- What was stored and clean is still clean. -/
def KeepsAdmitted (L L' : Lineage) : Prop := ∀ x ∈ L.nodeIds, x ∉ L.ledger → x ∉ L'.ledger

/-- The endpoints with the designator role that write the ledger. -/
def Request.Designates : Request → Prop
  | .designate _ _ => True
  | .detector _ _ _ => True
  | _ => False

/-- A submission under the id of a stored node, with a tainted parent, that passes every check in
front of the policy. -/
def Request.Hijacks (g : Setup) (L : Lineage) : Request → Prop
  | .submitCandidate bytes body =>
    ∃ t p, Rejectable g t bytes body L p ∧ p.payloadId ∈ L.nodeIds
  | _ => False

/-! ## 2. Calls that leave the ledger alone -/

/-- A call that neither writes the ledger nor opens or closes a transaction. -/
def Call.KeepsLedger : Call → Prop
  | .store (.applyQuarantineTransaction _ _) => False
  | c => c.NoTx

theorem Call.Quiet.keepsLedger {c : Call} (h : c.Quiet) : c.KeepsLedger := by
  cases c with
  | store c =>
    cases c with
    | applyQuarantineTransaction event ids => exact absurd trivial h
    | _ => trivial
  | sync k => exact absurd h id
  | _ => trivial

variable {g : Setup} {answers : Answers}

theorem ledger_of_step {c : Call} {w w' : World} {r : Except Exc c.Res} (hc : c.KeepsLedger)
    (ht : Step g answers c w r w') : w'.lin.ledger = w.lin.ledger := by
  cases c with
  | store c =>
    obtain ⟨-, rfl⟩ := ht
    cases c with
    | applyQuarantineTransaction event ids => exact absurd hc id
    | commitNode site p => exact Lineage.commitNode_ledger
    | updateRepairCandidate x rc => rfl
    | _ => exact congrArg Lineage.ledger (Store.exec_toLineage g w.db _ (by simp [Store.Loud]))
  | ext e => rw [ht.2]
  | getAdapterKey => rw [ht.2]
  | setAdapterKey key => rw [ht.2]
  | sync k =>
    obtain ⟨-, rfl⟩ := ht
    cases k with
    | begin => exact absurd hc id
    | commit => exact absurd hc id
    | rollback => exact absurd hc id
    | _ => rfl

theorem sat_keepsLedger {α : Type} {x : Handler α} (hx : x.Uses Call.KeepsLedger) (w : World) :
    Act.Sat (Step g answers) Trans.any x (fun _ w' => w'.lin.ledger = w.lin.ledger) w := by
  refine Prog.Uses.sat (I := fun w' : World => w'.lin.ledger = w.lin.ledger) hx ?_ rfl
  intro c hc w₁ r w₂ ht hw₁
  exact ⟨trivial, (ledger_of_step hc ht).trans hw₁⟩

/-- `/context-compacted` and `/seed-root` commit, and write no ledger. -/
theorem keepsLedger_handle (req : Request) (hd : ¬ req.Designates)
    (hs : ∀ bytes body, req ≠ .submitCandidate bytes body) :
    (req.handle g).Uses Call.KeepsLedger := by
  have hquiet : ∀ {β : Type} {x : Handler β}, QuietPart x → x.Uses Call.KeepsLedger :=
    fun hx => hx.mono fun _ => Call.Quiet.keepsLedger
  have hcommit : ∀ site p, (store (.commitNode site p)).Uses Call.KeepsLedger :=
    fun site p => (Act.uses_perform (R := Call.Res) (Call.store (.commitNode site p))).mpr trivial
  cases req with
  | submitCandidate bytes body => exact absurd rfl (hs bytes body)
  | designate header e => exact absurd trivial hd
  | detector header source raw => exact absurd trivial hd
  | contextCompacted e =>
    refine Act.uses_bind (hquiet ?_) fun p => Act.uses_bind ?_ fun _ => Act.uses_pure _
    · refine Act.uses_bind (quiet_store (by simp [Store.Loud])) fun dag =>
        Act.uses_bind (uses_check _) fun parents =>
          Act.uses_bind (uses_verifyNhi g (Call.of_quiet rfl) _ _) fun _ =>
          Act.uses_bind (Act.uses_raiseIf _ _) fun _ =>
            Act.uses_bind (quiet_store (by simp [Store.Loud])) fun quarantined => ?_
      split
      · exact Act.uses_pure _
      · exact Act.uses_raise _
    · refine Act.uses_bind ?_ fun _ => Act.uses_always (Act.uses_bind (hcommit _ _) fun _ =>
        Act.uses_pure _) ?_
      · exact (Act.uses_perform (R := Call.Res) (Call.sync .enterShared)).mpr trivial
      · exact (Act.uses_perform (R := Call.Res) (Call.sync .leaveShared)).mpr trivial
  | seedRoot header rootId =>
    exact Act.uses_bind (hquiet (uses_verifyRole g (Call.of_quiet rfl) _ _)) fun _ =>
      Act.uses_bind (Act.uses_raiseIf _ _) fun _ =>
        Act.uses_bind (hquiet (quiet_store (by simp [Store.Loud]))) fun _ =>
          Act.uses_bind (Act.uses_raiseIf _ _) fun _ => Act.uses_bind (hquiet (quiet_ext _))
            fun _ => Act.uses_bind (hquiet (quiet_ext _)) fun _ => Act.uses_bind
              (hquiet (quiet_ext _)) fun _ => Act.uses_bind (hquiet (quiet_ext _)) fun _ =>
                Act.uses_bind (hcommit _ _) fun _ => Act.uses_pure _
  | observe header e => exact hquiet (quiet_handle g _ trivial)
  | checkpoint header c => exact hquiet (quiet_handle g _ trivial)
  | declareSubstitute header target source declaredAt => exact hquiet (quiet_handle g _ trivial)
  | declareExternalEffect header key x type => exact hquiet (quiet_handle g _ trivial)
  | continuityExpose header node status reason => exact hquiet (quiet_handle g _ trivial)
  | renewTrust header x => exact hquiet (quiet_handle g _ trivial)
  | calibrate header r => exact hquiet (quiet_handle g _ trivial)

/-! ## 3. Submissions -/

/-- A submission that is not a hijack keeps what was stored and clean. -/
theorem sat_submitCandidate_keeps (hlaw : answers.Lawful)
    (hmode : g.settings.enforcementMode = .enforce) {bytes : ℕ} {body : SubmitBody} {w : World}
    (hno : ¬ (Request.submitCandidate bytes body).Hijacks g w.lin) :
    Act.Sat (restrict (Step g answers) Trans.any) Trans.any (submitCandidate g bytes body)
      (fun _ w' => KeepsAdmitted w.lin w'.lin) w := by
  have hsync : ∀ k w r w', (Trans.any : Trans Call Call.Res Exc World) (.sync k) w r w' :=
    fun _ _ _ _ => trivial
  have hkeep : KeepsAdmitted w.lin w.lin := fun _ _ hx => hx
  rw [submitCandidate, Act.sat_bind]
  refine Act.Sat.mono (Prog.Sat.restrict (sat_submitChecks (fun _ _ _ _ ht => ht.2) bytes body w)
    fun _ _ _ _ ht => ht.1) ?_
  rintro (e | ⟨p, auth, decisionId⟩) w₁ h₁
  · obtain rfl := h₁
    exact hkeep
  · obtain ⟨rfl, hparse, ⟨t, auth', htoken⟩, hsig, hlen⟩ := h₁
    refine sat_withShared hsync (sat_withTransaction hsync
      (uses_submitLocked g (Call.of_noTx rfl) p auth _) ?_)
    refine (sat_submitLocked (P := Trans.any) (K := fun _ _ _ => True) (acts_step hlaw _) hmode p
      auth decisionId { w₁ with saved := some w₁.db }
      ⟨fun _ _ _ _ _ => trivial, fun _ _ _ _ _ _ => ⟨trivial, trivial⟩,
        fun _ _ _ _ _ _ => trivial, fun _ _ _ _ _ _ _ _ _ _ _ => ⟨trivial, trivial⟩⟩).mono ?_
    rintro (e | a) w₂ h₂
    · exact hkeep
    · change SubmitOutcome _ _ p w₁.lin a w₂.lin at h₂
      change KeepsAdmitted w₁.lin w₂.lin
      generalize w₂.lin = L at h₂ ⊢
      cases h₂ with
      | refused _ _ => exact hkeep
      | admitted gap hid hparents hcovers _ _ =>
        intro x _ hx
        rwa [Lineage.commitNode_ledger]
      | rejected gap ha hid htainted hcovers _ =>
        intro x hstored hx hmem
        rw [Lineage.mem_ledger_quarantine, Lineage.commitNode_ledger, List.mem_singleton] at hmem
        rcases hmem with hmem | rfl
        · exact hx hmem
        · exact hno ⟨t, p, ⟨hparse, ⟨auth', htoken⟩, hsig, hlen, hid, htainted, hcovers⟩, hstored⟩

/-- A hijack can be carried out: some run of the request quarantines the stored node. -/
theorem exists_hijack (hmode : g.settings.enforcementMode = .enforce) (req : Request) {w : World}
    (h : req.Hijacks g w.lin) :
    ∃ k : Handled, k.request = req ∧
      Exec (Step g Answers.lawful) (k.request.handle g).tree w k.trace k.outcome k.after ∧
      ¬ KeepsAdmitted w.lin k.after.lin := by
  cases req with
  | submitCandidate bytes body =>
    obtain ⟨t, p, hrej, hstored⟩ := h
    obtain ⟨u, hu⟩ := exists_fresh (w.db.shadowDecisions.map ShadowDecision.decisionId)
    have hrun := submitCandidate_rejects (o := { now := t, uuid := u }) (C := Trans.any) hmode hrej
      hu (P := Trans.any) (fun _ _ _ _ _ => trivial) (K := True)
      fun _ _ _ _ _ _ _ _ _ _ => ⟨trivial, trivial⟩
    obtain ⟨k, hreq, hexec, -, -, -, gap, hlin⟩ := exists_handled (.submitCandidate bytes body) hrun
    refine ⟨k, hreq, hexec, fun hkeeps => ?_⟩
    refine hkeeps p.payloadId hstored hrej.unquarantined ?_
    rw [hlin, Lineage.mem_ledger_quarantine]
    exact Or.inr (List.mem_singleton.mpr rfl)
  | _ => exact absurd h id

/-- **Only a hijack moves a stored clean node into the ledger**, apart from the two designator
endpoints: whatever a request of any other kind does, on any database and with any answers of the
outside world, keeps every such node out of the ledger if and only if the request is not a
submission under the id of one with a tainted parent. -/
theorem keepsAdmitted_iff (hmode : g.settings.enforcementMode = .enforce) (req : Request)
    (hreq : ¬ req.Designates) (w : World) :
    (∀ k : Handled, k.request = req →
      Exec (Step g Answers.lawful) (k.request.handle g).tree w k.trace k.outcome k.after →
      KeepsAdmitted w.lin k.after.lin) ↔ ¬ req.Hijacks g w.lin := by
  constructor
  · intro hall hhijack
    obtain ⟨k, hk, hexec, hnot⟩ := exists_hijack hmode req hhijack
    exact hnot (hall k hk hexec)
  · rintro hno k rfl hexec
    by_cases hs : ∃ bytes body, k.request = .submitCandidate bytes body
    · obtain ⟨bytes, body, hs⟩ := hs
      rw [hs] at hno hexec
      have hsat : Act.Sat (Step g Answers.lawful) Trans.any (submitCandidate g bytes body)
          (fun _ w' => KeepsAdmitted w.lin w'.lin) w :=
        Prog.Sat.restrict (sat_submitCandidate_keeps (fun _ _ h => h) hmode hno)
          fun _ _ _ _ ht => ⟨ht, trivial⟩
      exact (Prog.Sat.sound hsat hexec).2
    · have hledger := (Prog.Sat.sound (sat_keepsLedger (keepsLedger_handle k.request hreq
        fun bytes body hb => hs ⟨bytes, body, hb⟩) w) hexec).2
      intro x _ hx
      change k.after.lin.ledger = w.lin.ledger at hledger
      rwa [hledger]

/-- Right after `reset`: anybody who may write at all can have the initial root quarantined, by
submitting a payload under its id that names the seeded quarantined node as its parent. -/
theorem hijack_of_initial_root : ¬ ∃ sha256 : String → String,
    (∀ s, hex64 (sha256 s) = true) ∧ ∀ k : Handled,
      k.request = .submitCandidate 512
        (.payload (samplePayload sha256 "clean-parent-1" ["quarantined-node-A"])) →
      Exec (Step (sampleSetup sha256) Answers.lawful)
        (k.request.handle (sampleSetup sha256)).tree (World.initial (sampleSetup sha256) {} none)
        k.trace k.outcome k.after →
      KeepsAdmitted (World.initial (sampleSetup sha256) {} none).lin k.after.lin := by
  rintro ⟨sha256, hsha, hall⟩
  have hrej := sample_rejectable hsha (t := 0)
    (L := (World.initial (sampleSetup sha256) {} none).lin) "clean-parent-1"
    "quarantined-node-A" (by simp [World.initial_ledger]) (by simp [World.initial_ledger])
  obtain ⟨k, hreq, hexec, hnot⟩ := exists_hijack (g := sampleSetup sha256)
    (w := World.initial (sampleSetup sha256) {} none) rfl
    (.submitCandidate 512
      (.payload (samplePayload sha256 "clean-parent-1" ["quarantined-node-A"])))
    ⟨0, _, hrej, by simp [World.initial_nodeIds, samplePayload]⟩
  exact hnot (hall k hreq hexec)

/-- A submission under a new id never quarantines anything that is stored. -/
theorem keepsAdmitted_of_new_id :
    ¬ (Request.submitCandidate 512 (.payload (samplePayload (fun _ => zeros64) "new-id"
        ["quarantined-node-A"]))).Designates ∧
      ∀ k : Handled,
        k.request = .submitCandidate 512 (.payload (samplePayload (fun _ => zeros64) "new-id"
          ["quarantined-node-A"])) →
        Exec (Step (sampleSetup fun _ => zeros64) Answers.lawful)
          (k.request.handle (sampleSetup fun _ => zeros64)).tree
          (World.initial (sampleSetup fun _ => zeros64) {} none) k.trace k.outcome k.after →
        KeepsAdmitted (World.initial (sampleSetup fun _ => zeros64) {} none).lin k.after.lin := by
  refine ⟨id, (keepsAdmitted_iff (g := sampleSetup fun _ => zeros64) rfl _ id
    (World.initial (sampleSetup fun _ => zeros64) {} none)).mpr ?_⟩
  rintro ⟨t, p, hrej, hstored⟩
  rw [parseSubmission_payload hrej.parse, World.initial_nodeIds] at hstored
  exact absurd hstored (by simp [samplePayload])

end GovernorGateway
