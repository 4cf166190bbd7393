/-
# What a request can do to the lineage

One theorem for all endpoints, `RequestCalls.sat_handle`: an invariant of the lineage is kept by
every request as soon as it is kept by every write the endpoints can make.  The writes are named by
the place they are made from, each with everything the handler knows at that moment
(`CommitFacts`); what a development wants to say about ITS runs enters as the condition `C` on
calls, and what it wants to know about their calls as the obligation `P`.
-/
import GovernorGateway.Semantics.World
import GovernorGateway.Sqlite.Index

namespace GovernorGateway

open Effects

/-! ## 1. The writes -/

/-- The lineage of a world. -/
abbrev World.lin (w : World) : Lineage := w.db.toLineage

theorem acts_step {g : Setup} {answers : Answers} (hlaw : answers.Lawful)
    (C : Trans Call Call.Res Exc World) : Acts g (restrict (Step g answers) C) World.lin :=
  (solo_step hlaw C).acts

/-- Each declared parent is stored, and the declared hash is a copy of its digest, or made up when
it has none. -/
def Lineage.CopiesHashes (L : Lineage) (p : Payload) : Prop :=
  ∀ c ∈ p.parents, ∃ n ∈ L.nodes, n.nodeId = c.parentNodeId ∧
    ∃ digest, c.parentContentHash = some (n.payload.contentDigest.getD digest)

/-- What is known of a payload when it is committed, by the place it is committed from. -/
def CommitFacts (L : Lineage) (p : Payload) : CommitSite → Prop
  | .shadow => False
  | .admission =>
    p.payloadId ∉ L.ledger ∧ (∀ x ∈ p.parentIds, x ∈ L.nodeIds ∧ x ∉ L.ledger) ∧
      (p.nodeType = some .compaction → ∀ x ∈ p.covers, x ∉ L.ledger) ∧ L.HashesMatch p
  | .rejection =>
    p.payloadId ∉ L.ledger ∧ (∃ x ∈ p.parentIds, x ∈ L.ledger) ∧
      (p.nodeType = some .compaction → ∀ x ∈ p.covers, x ∉ L.ledger)
  | .compaction => (∀ x, p.Names x → x ∉ L.ledger) ∧ L.CopiesHashes p
  | .reconstruction => True
  | .checkpointReplay => ∀ x, p.Names x → x ∉ L.ledger ∨ x = "clean-parent-1"
  | .substitution => (∀ x, p.Names x → x ∉ L.ledger) ∧ L.CopiesHashes p
  | .seedRoot => ∀ x, ¬ p.Names x

/-- The lineage when the part of the handler that commits has done its work: a rejected payload is
in the ledger as well. -/
def Lineage.settle (g : Setup) (site : CommitSite) (p : Payload) (L : Lineage) : Lineage :=
  match site with
  | .rejection => (L.commitNode g.env.sha256 p).2.quarantine [p.payloadId]
  | _ => (L.commitNode g.env.sha256 p).2

/-- What every endpoint may be asked to show, and may use, about its calls while the lineage has
`J`.  `Φ` and `A` say what is known of a pending record, and of a candidate the recovery adapter
sent for a frontier, given the ledger. -/
structure RequestCalls (g : Setup) (T P : Trans Call Call.Res Exc World) (J : Lineage → Prop)
    (Φ : List NodeId → RepairCandidate → Prop)
    (A : List NodeId → List NodeId → Payload → Prop) : Prop where
  quiet : ∀ c w r w', c.Quiet → P c w r w'
  sync : ∀ k w r w', P (.sync k) w r w'
  commit : ∀ site p w r w', site ≠ .reconstruction → T (.store (.commitNode site p)) w r w' →
    P (.store (.commitNode site p)) w r w' ∧
      (site ≠ .rejection → J w.lin → CommitFacts w.lin p site → J (w.lin.settle g site p))
  reject : ∀ event p L w r w', J L → w.lin = (L.commitNode g.env.sha256 p).2 →
    EventFor g w.lin [p.payloadId] event → event.designatorIdentity = none →
    T (.store (.applyQuarantineTransaction event [p.payloadId])) w r w' →
    P (.store (.applyQuarantineTransaction event [p.payloadId])) w r w' ∧
      (CommitFacts L p .rejection → J (L.settle g .rejection p))
  contain : ∀ event w r w', J w.lin → EventFor g w.lin [] event →
    event.designatorIdentity.isSome →
    T (.store (.applyQuarantineTransaction event event.computedBlastRadius)) w r w' →
    P (.store (.applyQuarantineTransaction event event.computedBlastRadius)) w r w' ∧
      J (w.lin.quarantine event.computedBlastRadius)
  pending : ∀ w rcs w', T (.store .getRepairCandidates) w (.ok rcs) w' →
    ∀ row ∈ rcs, row.2.disposition = .pendingReconstruction → Φ w.lin.ledger row.2
  adapter : ∀ req c w w', T (.ext (.reconstruct req)) w (.ok (some c)) w' →
    A w.lin.ledger req.requestedFrontier c
  reconstruct : ∀ rc p w r w', J w.lin → Φ w.lin.ledger rc →
    Reconstruction g (fun _ => True) (fun _ => True) (A w.lin.ledger) rc p →
    T (.store (.commitNode .reconstruction p)) w r w' →
    P (.store (.commitNode .reconstruction p)) w r w' ∧
      J (w.lin.commitNode g.env.sha256 p).2

/-! ## 2. The endpoints that leave the lineage alone -/

/-- The endpoints that write no lineage table. -/
def Request.Quiet : Request → Prop
  | .submitCandidate _ _ | .contextCompacted _ | .designate _ _ | .detector _ _ _
  | .seedRoot _ _ => False
  | .observe _ _ | .checkpoint _ _ | .declareSubstitute _ _ _ _ | .declareExternalEffect _ _ _ _
  | .continuityExpose _ _ _ _ | .renewTrust _ _ | .calibrate _ _ => True

theorem quiet_handle (g : Setup) (req : Request) (h : req.Quiet) : QuietPart (req.handle g) := by
  refine uses_handle g req (Call.of_quiet ?_)
  cases req with
  | submitCandidate bytes body => exact absurd h id
  | contextCompacted e => exact absurd h id
  | designate header e => exact absurd h id
  | detector header source raw => exact absurd h id
  | seedRoot header rootId => exact absurd h id
  | _ => rfl

/-! ## 3. The frame of a submission -/

/-- A call of this kind is a question to the outside world. -/
theorem Call.of_ext : Call.Of (fun c => ∃ e, c = .ext e) [.ext] := by
  intro c hc
  cases c with
  | ext e => exact ⟨e, rfl⟩
  | store c =>
    cases c with
    | updateRepairCandidate x rc =>
      exact absurd hc (Store.kind_updateRepairCandidate x rc (by decide) (by decide))
    | _ => simp [Call.kind, Store.kind] at hc
  | sync k => cases k <;> simp [Call.kind, Sync.kind] at hc
  | getAdapterKey => simp [Call.kind] at hc
  | setAdapterKey key => simp [Call.kind] at hc

/-- The checks in front of the lock: a payload that passes them has been parsed, and nothing is
asked of the calls but of the questions to the outside world. -/
theorem sat_submitChecks_asking {σ : Type} {g : Setup} {T P : Trans Call Call.Res Exc σ}
    (hT : ∀ e s r s', T (.ext e) s r s' → s' = s) (hext : ∀ e s r s', P (.ext e) s r s') (bytes : ℕ)
    (body : SubmitBody) (s : σ) :
    Act.Sat T P (submitChecks g bytes body)
      (onOk (fun out s' => s' = s ∧ parseSubmission g bytes body = .ok out.1)
        fun _ s' => s' = s) s := by
  have hasks : Act.Sat T P (submitChecks g bytes body) (fun _ _ => True) s := by
    refine Prog.Uses.sat (I := fun _ => True) (uses_submitChecks g Call.of_ext bytes body) ?_ trivial
    rintro c ⟨e, rfl⟩ s₁ r s₂ - -
    exact ⟨hext e s₁ r s₂, trivial⟩
  refine ((Prog.Sat.and hasks (sat_submitChecks hT bytes body s)).weaken fun _ _ _ _ h => h.1).mono ?_
  rintro (e | out) s' ⟨-, h⟩
  · exact h
  · exact ⟨h.1, h.2.1⟩

/-- **The frame of `/submit-candidate`.**  Only the locked section touches the database, on a
payload that has been parsed; when it raises, or the checks in front of it do, the database is as it
was. -/
theorem sat_submission {g : Setup} {answers : Answers} {C P : Trans Call Call.Res Exc World}
    (hext : ∀ e w r w', P (.ext e) w r w') (hsync : ∀ k w r w', P (.sync k) w r w') (bytes : ℕ)
    (body : SubmitBody) {w : World} {Q : Except Exc Response → World → Prop}
    (hfail : ∀ e saved, Q (.error e) { w with saved := saved })
    (hbody : ∀ p auth decisionId, parseSubmission g bytes body = .ok p →
      Act.Sat (restrict (Step g answers) C) P (submitLocked g p auth decisionId)
        (onOk (fun a w' => Q (.ok a) { w' with saved := none })
          fun e w' => Q (.error e) { w' with db := w.db, saved := none })
        { w with saved := some w.db }) :
    Act.Sat (restrict (Step g answers) C) P (submitCandidate g bytes body) Q w := by
  rw [submitCandidate, Act.sat_bind]
  refine (sat_submitChecks_asking (T := restrict (Step g answers) C) (fun e w₁ r w₂ ht => ht.1.2)
    hext bytes body w).mono ?_
  rintro (e | ⟨p, auth, decisionId⟩) w₁ h₁
  · obtain rfl : w₁ = w := h₁
    exact hfail e w₁.saved
  · obtain ⟨rfl, hparse⟩ := h₁
    exact sat_withShared hsync (sat_withTransaction hsync
      (uses_submitLocked g (Call.of_noTx rfl) p auth decisionId) (hbody p auth decisionId hparse))

/-! ## 4. The endpoints that write it -/

namespace RequestCalls

variable {g : Setup} {answers : Answers} {C P : Trans Call Call.Res Exc World}
  {J : Lineage → Prop} {Φ : List NodeId → RepairCandidate → Prop}
  {A : List NodeId → List NodeId → Payload → Prop}

/-- `/submit-candidate`: one of the three outcomes, or the database as it was. -/
theorem sat_submitCandidate (h : RequestCalls g (restrict (Step g answers) C) P J Φ A)
    (hlaw : answers.Lawful) (hmode : g.settings.enforcementMode = .enforce) (bytes : ℕ)
    (body : SubmitBody) {w : World} (hw : J w.lin) :
    Act.Sat (restrict (Step g answers) C) P (submitCandidate g bytes body)
      (fun _ w' => J w'.lin) w := by
  refine sat_submission (fun e w₁ r w₂ => h.quiet (.ext e) w₁ r w₂ trivial) h.sync bytes body
    (fun _ _ => hw) fun p auth decisionId _ => ?_
  refine (sat_submitLocked (K := fun site p L => CommitFacts L p site → J (L.settle g site p))
    (acts_step hlaw C) hmode p auth decisionId _ ⟨h.quiet, ?_, ?_, ?_⟩).mono ?_
  · intro gap w₂ r w₃ hw₂ ht
    obtain ⟨hp, hj⟩ := h.commit .admission _ w₂ r w₃ (by simp) ht
    rw [hw₂] at hj
    exact ⟨hp, hj (by simp) hw⟩
  · intro gap w₂ r w₃ hw₂ ht
    exact (h.commit .rejection _ w₂ r w₃ (by simp) ht).1
  · intro event gap w₂ r w₃ hw₂ hev hdes _ _ ht
    exact h.reject event { p with coversIntervalGap := gap } _ w₂ r w₃ hw hw₂ hev hdes ht
  · rintro (e | a) w₂ h₂
    · exact hw
    · change J w₂.lin
      change SubmitOutcome _ _ _ w.lin _ w₂.lin at h₂
      generalize w₂.lin = L at h₂ ⊢
      cases h₂ with
      | refused _ _ => exact hw
      | admitted gap hid hparents hcovers hhashes hK => exact hK ⟨hid, hparents, hcovers, hhashes⟩
      | rejected gap ha hid htainted hcovers hK => exact hK ⟨hid, htainted, hcovers⟩

/-- A commit that is not the first half of a rejection, under the shared lock or not. -/
theorem keeps_commit (h : RequestCalls g (restrict (Step g answers) C) P J Φ A) {site : CommitSite}
    (hsite : site ≠ .reconstruction ∧ site ≠ .rejection) (p : Payload) {w : World} (hw : J w.lin)
    (hfacts : CommitFacts w.lin p site) :
    Act.Sat (restrict (Step g answers) C) P (store (.commitNode site p))
      (fun _ w' => J w'.lin) w := by
  rintro r w' ht
  obtain ⟨hp, hj⟩ := h.commit site p w r w' hsite.1 ht
  refine ⟨hp, ?_⟩
  obtain ⟨⟨-, rfl⟩, -⟩ := ht
  have hsettle : w.lin.settle g site p = (w.lin.commitNode g.env.sha256 p).2 := by
    cases site with
    | rejection => exact absurd rfl hsite.2
    | _ => rfl
  change J (w.lin.commitNode g.env.sha256 p).2
  rw [← hsettle]
  exact hj hsite.2 hw hfacts

/-- Each commitment is to a compacted id that is stored, with the digest that is stored. -/
theorem mem_carriedParents {dag : List (NodeId × Payload)} {c : ParentCommitment} :
    ∀ {ids : List NodeId} {ps : List ParentCommitment}, carriedParents dag ids = .ok ps → c ∈ ps →
      c.parentNodeId ∈ ids ∧ ∃ n ∈ dag, n.1 = c.parentNodeId ∧
        c.parentContentHash = some (n.2.contentDigest.getD zeros64)
  | [], ps, hps, hc => by
    obtain rfl := Except.ok.inj hps
    exact absurd hc (by simp)
  | y :: ids, ps, hps, hc => by
    rw [carriedParents] at hps
    split at hps
    · exact absurd hps (by simp)
    · rename_i n hn
      cases hrest : carriedParents dag ids with
      | error e =>
        rw [hrest] at hps
        exact absurd hps (by simp [Except.map])
      | ok qs =>
        rw [hrest] at hps
        obtain rfl := Except.ok.inj hps
        rcases List.mem_cons.mp hc with rfl | hc
        · exact ⟨List.mem_cons_self, n, (Keyed.lookup_mem hn).1, (Keyed.lookup_mem hn).2, rfl⟩
        · obtain ⟨hmem, hstored⟩ := mem_carriedParents hrest hc
          exact ⟨List.mem_cons_of_mem _ hmem, hstored⟩

/-- `/context-compacted`, handled alone: what the checks found is still so at the commit. -/
theorem sat_contextCompacted (h : RequestCalls g (restrict (Step g answers) C) P J Φ A)
    (hlaw : answers.Lawful) (e : ContextCompactedEvent) {w : World} (hw : J w.lin) :
    Act.Sat (restrict (Step g answers) C) P (declareContextCompacted g e)
      (fun _ w' => J w'.lin) w := by
  have hsolo := solo_step (g := g) hlaw C
  rw [declareContextCompacted, Act.sat_bind, compactionChecks]
  refine hsolo.read_bind h.quiet (by simp [Store.Loud]) rfl fun w₁ hw₁ => ?_
  have hJ₁ : J w₁.lin := by rw [World.lin, hw₁]; exact hw
  cases hparents : carriedParents w.db.getDag e.compactedNodeIds with
  | error exc => exact hJ₁
  | ok ps =>
    change Act.Sat _ _ (verifyNhi g _ _ >>= _) _ _
    rw [Act.sat_bind]
    refine ((acts_step hlaw C).sat_quiet h.quiet (uses_verifyNhi g (Call.of_quiet rfl) _ _) w₁).mono ?_
    rintro (exc | claims) w₂ hw₂
    · change J w₂.lin
      rwa [hw₂]
    · have hJ₂ : J w₂.lin := by rwa [hw₂]
      rw [onOk_ok, Act.sat_bind, Act.sat_raiseIf]
      refine ⟨fun _ => hJ₂, fun _ => ?_⟩
      refine hsolo.read_bind h.quiet (by simp [Store.Loud]) rfl fun w₃ hw₃ => ?_
      have hJ₃ : J w₃.lin := by rw [World.lin, hw₃]; exact hJ₂
      split
      · rename_i hclean
        change Act.Sat _ _ (commitShared _ _ >>= _) _ _
        rw [Act.sat_bind]
        refine sat_withShared h.sync ?_
        rw [Act.sat_bind]
        have hfacts : CommitFacts w₃.lin (compactionPayload g e ps) .compaction := by
          refine ⟨?_, ?_⟩
          · intro x hx hledger
            have hmem : x ∈ e.compactedNodeIds := by
              rcases hx with hx | hx
              · obtain ⟨c, hc, rfl⟩ := List.mem_map.mp hx
                exact (mem_carriedParents hparents hc).1
              · exact hx
            have hnot := List.filter_eq_nil_iff.mp hclean x hmem
            change x ∈ w₃.db.ledger at hledger
            rw [hw₃] at hledger
            exact hnot (by simp [Db.areQuarantined, hmem, hledger])
          · intro c hc
            obtain ⟨-, n, hn, hid, hhash⟩ := mem_carriedParents hparents hc
            obtain ⟨m, hm, rfl⟩ := List.mem_map.mp hn
            refine ⟨m, ?_, hid, _, hhash⟩
            rw [World.lin, hw₃, show w₂.db.nodes = w₁.db.nodes from congrArg Lineage.nodes hw₂, hw₁]
            exact hm
        refine (keeps_commit h ⟨by simp, by simp⟩ _ hJ₃ hfacts).mono ?_
        rintro (exc | b) w₄ h₄
        · exact h₄
        · exact h₄
      · exact hJ₃

/-- `/seed-root`. -/
theorem sat_seedRoot (h : RequestCalls g (restrict (Step g answers) C) P J Φ A)
    (hlaw : answers.Lawful) (header rootId : Option String) {w : World} (hw : J w.lin) :
    Act.Sat (restrict (Step g answers) C) P (seedRoot g header rootId) (fun _ w' => J w'.lin) w := by
  have hacts := acts_step (g := g) hlaw C
  have hquiet : ∀ {β : Type} {x : Handler β} {f : β → Handler Response} {w : World},
      QuietPart x → J w.lin →
      (∀ a w', J w'.lin → Act.Sat (restrict (Step g answers) C) P (f a) (fun _ w' => J w'.lin) w') →
      Act.Sat (restrict (Step g answers) C) P (x >>= f) (fun _ w' => J w'.lin) w := by
    intro β x f w hx hJ hf
    rw [Act.sat_bind]
    refine (hacts.sat_quiet h.quiet hx w).mono ?_
    rintro (e | a) w' hw'
    · change J w'.lin
      rwa [hw']
    · exact hf a w' (by rwa [hw'])
  refine hquiet (uses_verifyRole g (Call.of_quiet rfl) _ _) hw fun claims w₁ h₁ => ?_
  refine hquiet (Act.uses_raiseIf _ _) h₁ fun _ w₂ h₂ => ?_
  refine hquiet (quiet_store (by simp [Store.Loud])) h₂ fun exists_ w₃ h₃ => ?_
  refine hquiet (Act.uses_raiseIf _ _) h₃ fun _ w₄ h₄ => ?_
  refine hquiet (quiet_ext _) h₄ fun key w₅ h₅ => ?_
  refine hquiet (quiet_ext _) h₅ fun signature w₆ h₆ => ?_
  refine hquiet (quiet_ext _) h₆ fun timestamp w₇ h₇ => ?_
  refine hquiet (quiet_ext _) h₇ fun fixedAt w₈ h₈ => ?_
  rw [Act.sat_bind]
  refine (keeps_commit h ⟨by simp, by simp⟩ _ h₈ ?_).mono ?_
  · intro x hx
    simp [Payload.Names, Payload.parentIds] at hx
  · rintro (e | b) w₉ h₉
    · exact h₉
    · exact h₉

/-! ## 5. The endpoints that contain -/

/-- What follows a containment, with the answer built from what continuity reported. -/
theorem sat_recover (h : RequestCalls g (restrict (Step g answers) C) P J Φ A)
    (hlaw : answers.Lawful) (ids : List NodeId) (event : QuarantineEvent) (root : NodeId)
    (f : ContinuityResults → Response) {w : World} (hw : J w.lin) :
    Act.Sat (restrict (Step g answers) C) P
      (attemptSafeContinuity g ids event >>= fun continuity =>
        attemptReconstruction g root >>= fun _ => pure (f continuity))
      (fun _ w' => J w'.lin ∧ w'.lin.ledger = w.lin.ledger) w := by
  have hacts := acts_step (g := g) hlaw C
  -- recovery commits, it never writes the ledger
  let J' : Lineage → Prop := fun L => J L ∧ L.ledger = w.lin.ledger ∧ w.lin.Extends L
  have hcommit : ∀ site p w' r w'', J' w'.lin →
      ContinuityNode (fun _ => True) w.db.snapshot event.detectedAtUtc
        (w.db.getCriticalDependents ids) site p →
      restrict (Step g answers) C (.store (.commitNode site p)) w' r w'' →
      P (.store (.commitNode site p)) w' r w'' ∧ J' (w'.lin.commitNode g.env.sha256 p).2 := by
    rintro site p w' r w'' ⟨hJ, hledger, hextends⟩ hnode ht
    have hfacts : CommitFacts w'.lin p site := by
      have hclean := fun x (hx : p.Names x) => hnode.clean hx
      rw [show w.db.snapshot.ledger = w'.lin.ledger from hledger.symm] at hclean
      cases hnode with
      | replay => exact fun x hx => (hclean x hx).imp_right And.right
      | substitute _ _ hsub _ hparents _ _ _ _ =>
        refine ⟨fun x hx => (hclean x hx).resolve_right (by simp), ?_⟩
        -- the source was read from the dag, and what is stored stays
        intro c hc
        rw [hparents, List.mem_singleton] at hc
        subst hc
        obtain ⟨n, hn, heq⟩ := List.mem_map.mp (Snapshot.substitutable_some hsub).2.2
        obtain ⟨hid, rfl⟩ := Prod.mk.injEq .. ▸ heq
        exact ⟨n, hextends.nodes n hn, hid, _, rfl⟩
    have hsite : (site ≠ .reconstruction ∧ site ≠ .rejection) ∧
        w'.lin.settle g site p = (w'.lin.commitNode g.env.sha256 p).2 := by
      cases hnode with
      | replay => exact ⟨⟨by simp, by simp⟩, rfl⟩
      | substitute => exact ⟨⟨by simp, by simp⟩, rfl⟩
    obtain ⟨hp, hj⟩ := h.commit site p w' r w'' hsite.1.1 ht
    refine ⟨hp, ?_, by rw [Lineage.commitNode_ledger, hledger], hextends.commitNode⟩
    rw [← hsite.2]
    exact hj hsite.1.2 hJ hfacts
  have hframe : Frame (restrict (Step g answers) C) P fun w => J' w.lin := hacts.frame h.quiet J'
  have hrec : Keeps (restrict (Step g answers) C) P (fun w => J' w.lin)
      (attemptReconstruction g root) fun _ => True := by
    refine keeps_attemptReconstruction (U := fun _ => True) (V := fun _ => True)
      (A := A w.lin.ledger) (Φ := Φ w.lin.ledger)
      ⟨hframe, fun _ _ _ _ => trivial, fun _ _ _ _ _ => trivial, ?_, ?_⟩ root ?_
    · rintro req c w' w'' ⟨-, hledger, -⟩ ht
      rw [← hledger]
      exact h.adapter req c w' w'' ht
    · intro rc c hrc hcand
      refine keeps_commitShared h.sync ?_
      rintro w' r w'' ⟨hJ, hledger, hextends⟩ ht
      rw [← hledger] at hrc hcand
      obtain ⟨hp, hj⟩ := h.reconstruct rc c w' r w'' hJ hrc hcand ht
      exact ⟨hp, hj, by rw [Lineage.commitNode_ledger, hledger], hextends.commitNode⟩
    · rintro w' rcs w'' ⟨-, hledger, -⟩ ht
      rw [← hledger]
      exact h.pending w' rcs w'' ht
  rw [Act.sat_bind]
  refine (sat_attemptSafeContinuity (U := fun _ => True) (solo_step hlaw C) ids event w hframe
    (fun _ _ => ⟨hframe, fun _ _ _ _ => trivial, ?_, ?_⟩) ⟨hw, rfl, .refl _⟩).mono ?_
  · intro xs w' ys w'' ht x hx
    obtain ⟨zs, hzs, hperm⟩ := (hacts.ext ht).1
    obtain rfl := Except.ok.inj hzs
    exact hperm.subset hx
  · intro site p hnode
    exact keeps_commitShared h.sync fun w' r w'' hw' ht => hcommit site p w' r w'' hw' hnode ht
  rintro (e | continuity) w₁ hw₁
  · exact ⟨hw₁.1, hw₁.2.1⟩
  · rw [onOk_ok, Act.sat_bind]
    refine (hrec w₁ hw₁).mono ?_
    rintro (e | u) w₂ hw₂
    · exact ⟨hw₂.1, hw₂.2.1⟩
    · exact ⟨hw₂.1.1, hw₂.1.2.1⟩

/-- The containment itself: the invariant holds after it and the root is in the ledger. -/
theorem sat_containRoot (h : RequestCalls g (restrict (Step g answers) C) P J Φ A)
    (hlaw : answers.Lawful) (x : NodeId) (identity reason : String) (source : Option String)
    {w : World} (hw : J w.lin) :
    Act.Sat (restrict (Step g answers) C) P
      (GovernorGateway.contain g x identity reason source)
      (onOk (fun _ w' => J w'.lin ∧ (w.lin.Wf → x ∈ w'.lin.ledger)) fun _ w' => J w'.lin) w := by
  refine (sat_contain (K := J (w.lin.quarantine
    (sortedSet (w.lin.traverse g.settings.maxTraversalDepth x)))) (acts_step hlaw C) h.quiet x
    identity reason source w ?_).mono ?_
  · intro event w₁ r w₂ hev hroot hdes hw₁ ht
    have hJ : J w₁.lin := by rwa [hw₁]
    obtain ⟨hp, hj⟩ := h.contain event w₁ r w₂ hJ hev (by rw [hdes]; rfl) ht
    rw [hev.radius, hroot, hw₁] at hj
    exact ⟨hp, hj⟩
  · rintro (e | out) w₁ h₁
    · change J w₁.lin
      change w₁.lin = w.lin at h₁
      rwa [h₁]
    · obtain ⟨hJ, hout, hl⟩ := h₁
      refine ⟨by rwa [hl, hout], fun hwf => ?_⟩
      rw [hl, Lineage.mem_ledger_quarantine, hout, mem_sortedSet, Lineage.mem_traverse hwf]
      exact Or.inr (Reach.Within.refl _ _ _)

/-- The locked section of `/designate`. -/
theorem sat_designateLocked (h : RequestCalls g (restrict (Step g answers) C) P J Φ A)
    (hlaw : answers.Lawful) (e : DesignationEvent) (identity : String) {w : World} (hw : J w.lin) :
    Act.Sat (restrict (Step g answers) C) P (designateLocked g e identity)
      (onOk (fun a w' => J w'.lin ∧
          (a.status = 200 → w.lin.Wf → e.poisonedNodeId ∈ w'.lin.ledger))
        fun _ w' => J w'.lin) w := by
  have hsolo := solo_step (g := g) hlaw C
  rw [designateLocked]
  refine hsolo.read_bind h.quiet (by simp [Store.Loud]) rfl fun w₁ hw₁ => ?_
  refine hsolo.read_bind h.quiet (by simp [Store.Loud]) rfl fun w₂ hw₂ => ?_
  have hl₁ : w₁.lin = w.lin := by rw [World.lin, hw₁]
  have hl₂ : w₂.lin = w.lin := by rw [World.lin, hw₂, hw₁]
  split
  · exact ⟨by rwa [hl₂], fun h200 => absurd h200 (by simp)⟩
  · split
    · rename_i hq
      refine ⟨by rwa [hl₂], fun _ _ => ?_⟩
      rw [hl₂, ← hl₁]
      simpa [Db.areQuarantined] using hq
    · rw [Act.sat_bind]
      refine (h.sat_containRoot hlaw e.poisonedNodeId identity e.reason none
        (by rwa [hl₂])).mono ?_
      rintro (exc | ⟨ids, event⟩) w₃ h₃
      · exact h₃
      · rw [hl₂] at h₃
        refine (h.sat_recover hlaw ids event e.poisonedNodeId
          (fun continuity => { reply := .designated event continuity }) h₃.1).mono ?_
        rintro (exc | a) w₄ ⟨hJ, hledger⟩
        · exact hJ
        · exact ⟨hJ, fun _ hwf => hledger ▸ h₃.2 hwf⟩

/-- `/designate`: a designation that answers 200 leaves the node in the ledger. -/
theorem sat_designatePoison (h : RequestCalls g (restrict (Step g answers) C) P J Φ A)
    (hlaw : answers.Lawful) (header : Option String) (e : DesignationEvent) {w : World}
    (hw : J w.lin) :
    Act.Sat (restrict (Step g answers) C) P (designatePoison g header e)
      (onOk (fun a w' => J w'.lin ∧
          (a.status = 200 → w.lin.Wf → e.poisonedNodeId ∈ w'.lin.ledger))
        fun _ w' => J w'.lin) w := by
  have hacts := acts_step (g := g) hlaw C
  refine hacts.quiet_bind h.quiet (uses_verifyRole g (Call.of_quiet rfl) _ _) (fun claims w₁ hw₁ => ?_)
    fun exc w' hw' => by rwa [hw']
  refine hacts.quiet_bind h.quiet (uses_limitDesignations g (Call.of_quiet rfl) _ _) (fun _ w₂ hw₂ => ?_)
    fun exc w' hw' => by rwa [hw', hw₁]
  have hl : w₂.lin = w.lin := hw₂.trans hw₁
  refine sat_withExclusive h.sync
    (sat_withTransaction h.sync (uses_designateLocked g (Call.of_noTx rfl) e _) ?_)
  have hJ₂ : J w₂.lin := by rwa [hl]
  refine (h.sat_designateLocked hlaw e _ (w := { w₂ with saved := some w₂.db }) hJ₂).mono ?_
  rintro (exc | a) w₃ h₃
  · exact hJ₂
  · refine ⟨h₃.1, fun h200 hwf => h₃.2 h200 ?_⟩
    rw [← hl] at hwf
    exact hwf

/-- `/detector/{source}`. -/
theorem sat_ingestDetectorEvent (h : RequestCalls g (restrict (Step g answers) C) P J Φ A)
    (hlaw : answers.Lawful) (header : Option String) (source : String) (raw : RawEvent) {w : World}
    (hw : J w.lin) :
    Act.Sat (restrict (Step g answers) C) P (ingestDetectorEvent g header source raw)
      (onOk (fun _ w' => J w'.lin) fun _ w' => J w'.lin) w := by
  have hacts := acts_step (g := g) hlaw C
  have hquiet : ∀ {β γ : Type} {x : Handler β} {f : β → Handler γ} {F : γ → World → Prop}
      {w : World}, QuietPart x → J w.lin →
      (∀ a w', J w'.lin → Act.Sat (restrict (Step g answers) C) P (f a)
        (onOk F fun _ w' => J w'.lin) w') →
      Act.Sat (restrict (Step g answers) C) P (x >>= f) (onOk F fun _ w' => J w'.lin) w := by
    intro β γ x f F w hx hJ hf
    exact hacts.quiet_bind h.quiet hx (fun a w' hw' => hf a w' (by rwa [hw']))
      fun _ w' hw' => by rwa [hw']
  refine hquiet (uses_verifyRole g (Call.of_quiet rfl) _ _) hw fun _ w₁ h₁ => ?_
  cases detectorRegistry source with
  | none => exact h₁
  | some src =>
    refine hquiet (uses_recordRawEvent (Call.of_quiet rfl) _ _) h₁ fun _ w₂ h₂ => ?_
    refine hquiet (Act.uses_raiseIf _ _) h₂ fun _ w₃ h₃ => ?_
    cases toDesignation g.env src raw with
    | error reason => exact h₃
    | ok e =>
      refine hquiet (uses_verifyRole g (Call.of_quiet rfl) _ _) h₃ fun claims w₄ h₄ => ?_
      refine hquiet (uses_limitDesignations g (Call.of_quiet rfl) _ _) h₄ fun _ w₅ h₅ => ?_
      rw [Act.sat_bind]
      refine sat_withExclusive h.sync ?_
      rw [detectorLocked]
      refine (hquiet (F := fun _ w' => J w'.lin) (quiet_store (by simp [Store.Loud])) h₅
        fun exists_ w₆ h₆ => hquiet (quiet_store (by simp [Store.Loud])) h₆
          fun quarantined w₇ h₇ => ?_).mono ?_
      · split
        · exact h₇
        · split
          · exact h₇
          · rw [Act.sat_bind]
            refine (h.sat_containRoot hlaw _ _ _ _ h₇).mono ?_
            rintro (exc | out) w₈ h₈
            · exact h₈
            · exact h₈.1
      · rintro (exc | out) w₆ h₆
        · exact h₆
        · cases out with
          | none => exact h₆
          | some out =>
            refine (h.sat_recover hlaw out.1 out.2 e.poisonedNodeId
              (fun continuity => { reply := .designated out.2 continuity }) h₆).mono ?_
            rintro (exc | a) w₇ h₇
            · exact h₇.1
            · exact h₇.1

/-! ## 6. All endpoints -/

/-- **Every request keeps the invariant**, however it ends. -/
theorem sat_handle (h : RequestCalls g (restrict (Step g answers) C) P J Φ A)
    (hlaw : answers.Lawful) (hmode : g.settings.enforcementMode = .enforce) (req : Request)
    {w : World} (hw : J w.lin) :
    Act.Sat (restrict (Step g answers) C) P (req.handle g) (fun _ w' => J w'.lin) w := by
  have hq : req.Quiet →
      Act.Sat (restrict (Step g answers) C) P (req.handle g) (fun _ w' => J w'.lin) w := by
    intro hq
    refine ((acts_step hlaw C).sat_quiet h.quiet (quiet_handle g req hq) w).mono ?_
    intro r w' hw'
    rwa [hw']
  cases req with
  | submitCandidate bytes body => exact h.sat_submitCandidate hlaw hmode bytes body hw
  | contextCompacted e => exact h.sat_contextCompacted hlaw e hw
  | seedRoot header rootId => exact h.sat_seedRoot hlaw header rootId hw
  | designate header e =>
    refine (h.sat_designatePoison hlaw header e hw).mono ?_
    rintro (exc | a) w' h'
    · exact h'
    · exact h'.1
  | detector header source raw =>
    refine (h.sat_ingestDetectorEvent hlaw header source raw hw).mono ?_
    rintro (exc | a) w' h'
    · exact h'
    · exact h'
  | observe header e => exact hq trivial
  | checkpoint header c => exact hq trivial
  | declareSubstitute header target source declaredAt => exact hq trivial
  | declareExternalEffect header key x type => exact hq trivial
  | continuityExpose header node status reason => exact hq trivial
  | renewTrust header x => exact hq trivial
  | calibrate header r => exact hq trivial

end RequestCalls

end GovernorGateway
