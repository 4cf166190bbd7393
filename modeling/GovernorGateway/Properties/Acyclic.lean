/-
# The parent relation

The policy lets a write through only when its parents are stored, so an admitted node comes strictly
after them.  A rejected payload is stored too, with whatever parents it declares: it may name nodes
that do not exist, and ITSELF (`parents_cyclic`).

So the parent relation is not acyclic, but a node that was not stored by a rejection
(`StoredByRejection`) has only parents that were not either, all of them stored before it, and no
cycle passes through it (`parents_before_of_run`).
-/
import GovernorGateway.Semantics.Stable
import GovernorGateway.Semantics.Scripted

namespace GovernorGateway

open Effects

/-! ## 1. Order of storage -/

namespace Lineage

/-- `p` is a parent of the stored node `c`. -/
def ParentOf (L : Lineage) (p c : NodeId) : Prop :=
  ∃ n ∈ L.nodes, n.nodeId = c ∧ p ∈ n.payload.parentIds

/-- `p` was stored strictly before `c`. -/
def Before (L : Lineage) (p c : NodeId) : Prop :=
  p ∈ L.nodeIds ∧ L.nodeIds.idxOf p < L.nodeIds.idxOf c

/-- `R` is a set of quarantined ids, and every node outside of it comes after its parents, which are
outside of it as well. -/
structure Ordered (L : Lineage) (R : NodeId → Prop) : Prop where
  quarantined : ∀ x, R x → x ∈ L.ledger
  parents : ∀ n ∈ L.nodes, ¬ R n.nodeId → ∀ x ∈ n.payload.parentIds, ¬ R x ∧ L.Before x n.nodeId

variable {L : Lineage} {sha256 : String → String} {p : Payload} {R R' : NodeId → Prop}

theorem nodeIds_commitNode (h : p.payloadId ∉ L.nodeIds) :
    (L.commitNode sha256 p).2.nodeIds = L.nodeIds ++ [p.payloadId] := by
  rw [commitNode, if_neg h, nodeIds, Keyed.insertOrIgnore_of_notMem h, List.map_append]
  rfl

/-- What is stored keeps its place. -/
theorem Before.commitNode {x y : NodeId} (h : L.Before x y) (hy : y ∈ L.nodeIds) :
    (L.commitNode sha256 p).2.Before x y := by
  by_cases hp : p.payloadId ∈ L.nodeIds
  · rwa [commitNode_of_mem hp]
  · refine ⟨mem_nodeIds_commitNode.mpr (Or.inl h.1), ?_⟩
    rw [nodeIds_commitNode hp, List.idxOf_append_of_mem h.1, List.idxOf_append_of_mem hy]
    exact h.2

/-- A new node comes last. -/
theorem before_commitNode {x : NodeId} (hp : p.payloadId ∉ L.nodeIds) (hx : x ∈ L.nodeIds) :
    (L.commitNode sha256 p).2.Before x p.payloadId := by
  refine ⟨mem_nodeIds_commitNode.mpr (Or.inl hx), ?_⟩
  have hlt : L.nodeIds.idxOf x < L.nodeIds.length := List.idxOf_lt_length_iff.mpr hx
  rw [nodeIds_commitNode hp, List.idxOf_append_of_mem hx, List.idxOf_append_of_notMem hp]
  omega

namespace Ordered

/-- A commit, with a ledger write after it: a new node has stored parents outside `R`, or it is a
new member of the set. -/
theorem write (h : L.Ordered R) (ids : List NodeId) (hsup : ∀ x, R x → R' x)
    (hsub : ∀ x, R' x → R x ∨ x = p.payloadId ∧ p.payloadId ∉ L.nodeIds ∧ x ∈ ids)
    (hp : p.payloadId ∈ L.nodeIds ∨ R' p.payloadId ∨ ∀ x ∈ p.parentIds, x ∈ L.nodeIds ∧ ¬ R x) :
    ((L.commitNode sha256 p).2.quarantine ids).Ordered R' := by
  have hout : ∀ x, x ∈ L.nodeIds → ¬ R x → ¬ R' x := by
    intro x hx hR hR'
    rcases hsub x hR' with hR'' | ⟨rfl, hnew, -⟩
    · exact hR hR''
    · exact hnew hx
  refine ⟨?_, ?_⟩
  · intro x hx
    rw [mem_ledger_quarantine, commitNode_ledger]
    exact (hsub x hx).imp (h.quarantined x) fun hnew => hnew.2.2
  · intro n hn hnR x hx
    rcases mem_nodes_commitNode.mp hn with hn | ⟨rfl, hnew⟩
    · obtain ⟨hxR, hbefore⟩ := h.parents n hn (fun hR => hnR (hsup _ hR)) x hx
      exact ⟨hout x hbefore.1 hxR, hbefore.commitNode (Lineage.mem_nodeIds.mpr ⟨n, hn, rfl⟩)⟩
    · rcases hp with hold | hR | hparents
      · exact absurd hold hnew
      · exact absurd hR hnR
      · obtain ⟨hxs, hxR⟩ := hparents x hx
        exact ⟨hout x hxs hxR, before_commitNode hnew hxs⟩

theorem congr (h : L.Ordered R) (hR : ∀ x, R' x ↔ R x) : L.Ordered R' := by
  obtain rfl : R' = R := funext fun x => propext (hR x)
  exact h

theorem commitNode (h : L.Ordered R)
    (hp : p.payloadId ∈ L.nodeIds ∨ ∀ x ∈ p.parentIds, x ∈ L.nodeIds ∧ ¬ R x) :
    (L.commitNode sha256 p).2.Ordered R :=
  h.write [] (fun _ hx => hx) (fun _ hx => Or.inl hx) (hp.imp_right Or.inr)

/-- A rejected payload joins the set, if its id was free. -/
theorem reject (h : L.Ordered R) : ((L.commitNode sha256 p).2.quarantine [p.payloadId]).Ordered
    fun x => R x ∨ x = p.payloadId ∧ p.payloadId ∉ L.nodeIds := by
  refine h.write _ (fun _ hx => Or.inl hx) ?_ ?_
  · rintro x (hx | ⟨rfl, hnew⟩)
    · exact Or.inl hx
    · exact Or.inr ⟨rfl, hnew, by simp⟩
  · by_cases hp : p.payloadId ∈ L.nodeIds
    · exact Or.inl hp
    · exact Or.inr (Or.inl (Or.inr ⟨rfl, hp⟩))

theorem quarantine (h : L.Ordered R) (ids : List NodeId) : (L.quarantine ids).Ordered R := by
  refine ⟨fun x hx => ?_, h.parents⟩
  rw [mem_ledger_quarantine]
  exact Or.inl (h.quarantined x hx)

/-- Going up from a node outside `R` one stays outside and comes to earlier nodes. -/
theorem ancestor (h : L.Ordered R) {x y : NodeId} (hxy : Relation.TransGen L.ParentOf x y)
    (hy : ¬ R y) : ¬ R x ∧ L.nodeIds.idxOf x < L.nodeIds.idxOf y := by
  induction hxy with
  | single hstep =>
    obtain ⟨n, hn, rfl, hx⟩ := hstep
    obtain ⟨hxR, hbefore⟩ := h.parents n hn hy _ hx
    exact ⟨hxR, hbefore.2⟩
  | tail _ hstep ih =>
    obtain ⟨n, hn, rfl, hz⟩ := hstep
    obtain ⟨hzR, hbefore⟩ := h.parents n hn hy _ hz
    obtain ⟨hxR, hlt⟩ := ih hzR
    exact ⟨hxR, hlt.trans hbefore.2⟩

/-- **No cycle passes through a node outside `R`.** -/
theorem acyclic (h : L.Ordered R) {x : NodeId} (hx : ¬ R x) :
    ¬ Relation.TransGen L.ParentOf x x :=
  fun hcycle => absurd (h.ancestor hcycle hx).2 (lt_irrefl _)

end Ordered

end Lineage

/-! ## 2. No checkpoints, no repairs -/

/-- Nothing to replay and nothing to rebuild. -/
structure Db.NoRepair (db : Db) : Prop where
  checkpoints : db.checkpoints = []
  pending : ∀ row ∈ db.repairCandidates, row.2.disposition ≠ .pendingReconstruction

variable {g : Setup} {answers : Answers}

/-- Only a checkpoint makes a candidate pending. -/
theorem Db.NoRepair.exec {c : Store} {db : Db} (hc : c.kind ≠ .checkpoint ∧ c.kind ≠ .reopen)
    (h : db.NoRepair) : (c.exec g db).2.NoRepair := by
  cases c with
  | addCheckpoint cp => exact absurd rfl hc.1
  | updateRepairCandidate x rc =>
    refine ⟨h.checkpoints, fun row hrow => ?_⟩
    rcases Keyed.mem_insertOrReplace.mp hrow with ⟨hrow, -⟩ | rfl
    · exact h.pending row hrow
    · intro hp
      exact hc.2 (if_pos hp)
  | computeBlastRadius root =>
    obtain ⟨rcs, hrcs⟩ := Db.computeBlastRadius_snd g.settings.maxTraversalDepth root db
    refine ⟨?_, fun row hrow hp => ?_⟩
    · change (db.computeBlastRadius g.settings.maxTraversalDepth root).2.checkpoints = []
      rw [hrcs]
      exact h.checkpoints
    · rcases Db.pending_computeBlastRadius hrow hp with hold | ⟨-, -, -, -, cp, hcp, -⟩
      · exact h.pending row hold hp
      · rw [h.checkpoints] at hcp
        exact absurd hcp List.not_mem_nil
  | recordShadowDecision d =>
    simp only [Store.exec, Db.recordShadowDecision]
    split
    · exact h
    · exact ⟨h.checkpoints, h.pending⟩
  | _ => exact ⟨h.checkpoints, h.pending⟩

/-! ## 3. Submissions and designations -/

/-- Every call finds nothing to replay and nothing to rebuild. -/
def FindsNoRepair : Trans Call Call.Res Exc World := fun _ w _ _ => w.db.NoRepair

section Requests

variable {R : NodeId → Prop}

/-- The submission of this id was rejected. -/
def Request.RejectsAs (req : Request) (r : Except Exc Response) (x : NodeId) : Prop :=
  ∃ bytes p a, req = .submitCandidate bytes (.payload p) ∧ p.payloadId = x ∧ r = .ok a ∧ a.Rejects

theorem Request.rejectsAs_submit {bytes : ℕ} {p : Payload} {a : Response} {x : NodeId} :
    (Request.submitCandidate bytes (.payload p)).RejectsAs (.ok a) x ↔ p.payloadId = x ∧ a.Rejects := by
  constructor
  · rintro ⟨bytes', p', a', hreq, hid, hr, ha⟩
    obtain ⟨-, hp⟩ := Request.submitCandidate.inj hreq
    obtain rfl := SubmitBody.payload.inj hp
    obtain rfl := Except.ok.inj hr
    exact ⟨hid, ha⟩
  · rintro ⟨hid, ha⟩
    exact ⟨bytes, p, a, rfl, hid, rfl, ha⟩

/-- Nothing is rejected, and nothing joins the set. -/
theorem ordered_same {L : Lineage} (h : L.Ordered R) {A B : NodeId → Prop} (hA : ∀ x, ¬ A x) :
    L.Ordered fun x => R x ∨ A x ∧ B x :=
  h.congr fun x => or_iff_left fun hx => hA x hx.1

/-- `/submit-candidate`: only a rejected payload joins the set, if its id was free. -/
theorem ordered_submit (hlaw : answers.Lawful) (hmode : g.settings.enforcementMode = .enforce)
    {bytes : ℕ} {body : SubmitBody} {w : World} (hw : w.lin.Ordered R) :
    Act.Sat (restrict (Step g answers) FindsNoRepair) Trans.any (submitCandidate g bytes body)
      (fun r w' => w'.lin.Ordered fun x => R x ∨
        (Request.submitCandidate bytes body).RejectsAs r x ∧ x ∉ w.lin.nodeIds) w := by
  have herror : ∀ (e : Exc) x, ¬ (Request.submitCandidate bytes body).RejectsAs (.error e) x := by
    rintro e x ⟨-, -, a, -, -, hr, -⟩
    exact absurd hr (by simp)
  have hsync : ∀ k w r w', (Trans.any : Trans Call Call.Res Exc World) (.sync k) w r w' :=
    fun _ _ _ _ => trivial
  rw [submitCandidate, Act.sat_bind]
  refine Act.Sat.mono (Prog.Sat.restrict (sat_submitChecks (fun _ _ _ _ ht => ht.2) bytes body w)
    fun _ _ _ _ ht => ht.1) ?_
  rintro (e | ⟨p, auth, decisionId⟩) w₁ h₁
  · obtain rfl := h₁
    exact ordered_same hw (herror e)
  · obtain ⟨rfl, hparse, -⟩ := h₁
    refine sat_withShared hsync
      (sat_withTransaction hsync (uses_submitLocked g (Call.of_noTx rfl) p auth _) ?_)
    refine (sat_submitLocked (P := Trans.any) (K := fun _ _ _ => True) (acts_step hlaw _) hmode p
      auth decisionId { w₁ with saved := some w₁.db }
      ⟨fun _ _ _ _ _ => trivial, fun _ _ _ _ _ _ => ⟨trivial, trivial⟩,
        fun _ _ _ _ _ _ => trivial, fun _ _ _ _ _ _ _ _ _ _ _ => ⟨trivial, trivial⟩⟩).mono ?_
    rintro (e | a) w₂ h₂
    · exact ordered_same hw (herror e)
    · change SubmitOutcome _ _ p w₁.lin a w₂.lin at h₂
      change w₂.lin.Ordered _
      generalize w₂.lin = L at h₂ ⊢
      obtain rfl := parseSubmission_body hparse
      cases h₂ with
      | refused ha _ =>
        exact ordered_same hw fun x hx => ha (Or.inr (Request.rejectsAs_submit.mp hx).2)
      | admitted gap hid hparents hcovers _ _ =>
        refine ordered_same (hw.commitNode (Or.inr fun x hx => ?_)) fun x hx => ?_
        · exact ⟨(hparents x hx).1, fun hR => (hparents x hx).2 (hw.quarantined x hR)⟩
        · obtain ⟨-, event, replacement, ha⟩ := Request.rejectsAs_submit.mp hx
          exact absurd ha (by simp)
      | rejected gap ha hid htainted hcovers _ =>
        refine hw.reject.congr fun x => or_congr_right ?_
        rw [Request.rejectsAs_submit]
        constructor
        · rintro ⟨⟨rfl, -⟩, hnew⟩
          exact ⟨rfl, hnew⟩
        · rintro ⟨rfl, hnew⟩
          exact ⟨⟨rfl, ha⟩, hnew⟩

/-- What follows a containment: continuity emits a node after the source it substitutes, and nothing
is rebuilt. -/
theorem ordered_recover (hlaw : answers.Lawful) (ids : List NodeId) (event : QuarantineEvent)
    (root : NodeId) (f : ContinuityResults → Response) {w : World} (hw : w.lin.Ordered R) :
    Act.Sat (restrict (Step g answers) FindsNoRepair) Trans.any
      (attemptSafeContinuity g ids event >>= fun continuity =>
        attemptReconstruction g root >>= fun _ => pure (f continuity))
      (onOk (fun _ w' => w'.lin.Ordered R) fun _ w' => w'.lin.Ordered R) w := by
  have hacts := acts_step (g := g) hlaw FindsNoRepair
  let J (L : Lineage) : Prop := L.Ordered R ∧ ∀ x ∈ w.lin.nodeIds, x ∈ L.nodeIds
  have hframe : Frame (restrict (Step g answers) FindsNoRepair) Trans.any fun w' => J w'.lin :=
    hacts.frame (fun _ _ _ _ _ => trivial) J
  have hcommit : ∀ w₁, restrict (Step g answers) FindsNoRepair (.store (.getCriticalDependents ids)) w
        (.ok (w.db.getCriticalDependents ids)) w₁ → ∀ site p,
      ContinuityNode (fun _ => True) w.db.snapshot event.detectedAtUtc
        (w.db.getCriticalDependents ids) site p →
      Keeps (restrict (Step g answers) FindsNoRepair) Trans.any (fun w' => J w'.lin)
        (commitShared site p) fun _ => True := by
    intro w₁ ht site p hnode
    refine keeps_commitShared (fun _ _ _ _ => trivial) fun w' r w'' hJ _ => ⟨trivial, ?_, ?_⟩
    · refine hJ.1.commitNode (Or.inr fun x hx => ?_)
      cases hnode with
      | replay _ hcp _ _ _ _ _ =>
        rw [show w.db.snapshot.checkpoints = [] from ht.2.checkpoints] at hcp
        exact absurd hcp List.not_mem_nil
      | substitute _ _ hsub _ hparents _ _ _ _ =>
        obtain ⟨-, hclean, hstored⟩ := Snapshot.substitutable_some hsub
        rw [Payload.parentIds, hparents, List.map_singleton, List.mem_singleton] at hx
        subst hx
        obtain ⟨n, hn, heq⟩ := List.mem_map.mp hstored
        have hid : n.nodeId = _ := congrArg Prod.fst heq
        exact ⟨hJ.2 _ (Lineage.mem_nodeIds.mpr ⟨n, hn, hid⟩),
          fun hR => hclean (hw.quarantined _ hR)⟩
    · intro x hx
      exact Lineage.mem_nodeIds_commitNode.mpr (Or.inl (hJ.2 x hx))
  have hrec : Keeps (restrict (Step g answers) FindsNoRepair) Trans.any (fun w' => J w'.lin)
      (attemptReconstruction g root) fun _ => True := by
    refine keeps_attemptReconstruction (U := fun _ => True) (V := fun _ => True)
      (A := fun _ _ => True) (Φ := fun _ => False)
      ⟨hframe, fun _ _ _ _ => trivial, fun _ _ _ _ _ => trivial, fun _ _ _ _ _ _ => trivial,
        fun _ _ hrc _ => hrc.elim⟩ root ?_
    rintro w' rcs w'' - ⟨⟨hr, -⟩, hok⟩ row hrow hp
    obtain rfl := Except.ok.inj hr
    exact hok.pending row hrow hp
  rw [Act.sat_bind]
  refine (sat_attemptSafeContinuity (U := fun _ => True) (solo_step hlaw _) ids event w hframe
    (fun w₁ ht => ⟨hframe, fun _ _ _ _ => trivial, ?_, hcommit w₁ ht⟩)
    ⟨hw, fun _ hx => hx⟩).mono ?_
  · intro xs w' ys w'' ht x hx
    obtain ⟨zs, hzs, hperm⟩ := (hacts.ext ht).1
    obtain rfl := Except.ok.inj hzs
    exact hperm.subset hx
  · rintro (e | continuity) w₁ h₁
    · exact h₁.1
    · rw [onOk_ok, Act.sat_bind]
      refine (hrec w₁ h₁).mono ?_
      rintro (e | u) w₂ h₂
      · exact h₂.1
      · exact h₂.1.1

/-- `/designate`: what continuity emits comes after the source it substitutes. -/
theorem ordered_designate (hlaw : answers.Lawful) (header : Option String) (e : DesignationEvent)
    {w : World} (hw : w.lin.Ordered R) :
    Act.Sat (restrict (Step g answers) FindsNoRepair) Trans.any (designatePoison g header e)
      (onOk (fun _ w' => w'.lin.Ordered R) fun _ w' => w'.lin.Ordered R) w := by
  have hsync : ∀ k w r w', (Trans.any : Trans Call Call.Res Exc World) (.sync k) w r w' :=
    fun _ _ _ _ => trivial
  have hP : ∀ c w r w', c.Quiet → (Trans.any : Trans Call Call.Res Exc World) c w r w' :=
    fun _ _ _ _ _ => trivial
  have hacts := acts_step (g := g) hlaw FindsNoRepair
  refine hacts.quiet_bind hP (uses_verifyRole g (Call.of_quiet rfl) _ _) (fun claims w₁ hw₁ => ?_)
    fun _ w' hw' => by rwa [hw']
  refine hacts.quiet_bind hP (uses_limitDesignations g (Call.of_quiet rfl) _ _)
    (fun _ w₂ hw₂ => ?_) fun _ w' hw' => by rwa [hw', hw₁]
  have h₂ : w₂.lin.Ordered R := by rwa [hw₂, hw₁]
  refine sat_withExclusive hsync
    (sat_withTransaction hsync (uses_designateLocked g (Call.of_noTx rfl) e _) ?_)
  have hlocked : Act.Sat (restrict (Step g answers) FindsNoRepair) Trans.any
      (designateLocked g e (claims.sub.getD "unknown"))
      (onOk (fun _ w' => w'.lin.Ordered R) fun _ w' => w'.lin.Ordered R)
      { w₂ with saved := some w₂.db } := by
    refine hacts.quiet_bind hP (quiet_store (by simp [Store.Loud])) (fun _ w₃ hw₃ => ?_)
      fun _ w' hw' => by rwa [hw']
    refine hacts.quiet_bind hP (quiet_store (by simp [Store.Loud])) (fun _ w₄ hw₄ => ?_)
      fun _ w' hw' => by rwa [hw', hw₃]
    have h₄ : w₄.lin.Ordered R := by rwa [hw₄, hw₃]
    split
    · exact h₄
    · split
      · exact h₄
      · rw [Act.sat_bind]
        refine (sat_contain (K := True) hacts hP e.poisonedNodeId _ _ _ w₄
          fun _ _ _ _ _ _ _ _ _ => ⟨trivial, trivial⟩).mono ?_
        rintro (exc | ⟨ids, event⟩) w₅ hw₅
        · change w₅.lin.Ordered R
          rwa [show w₅.lin = w₄.lin from hw₅]
        · have h₅ : w₅.lin.Ordered R := by
            rw [show w₅.lin = w₄.lin.quarantine ids from hw₅.2.2]
            exact h₄.quarantine ids
          exact ordered_recover hlaw ids event e.poisonedNodeId _ h₅
  refine hlocked.mono ?_
  rintro (exc | a) w₃ h₃
  · exact h₂
  · exact h₃

end Requests

/-! ## 4. The parent relation of a run -/

/-- A submission or a designation. -/
def Request.Admission : Request → Prop
  | .submitCandidate _ _ | .designate _ _ => True
  | _ => False

/-- The kinds of calls these two make. -/
def admissionKinds : List CallKind :=
  .shared :: .tx :: submitKinds ++ .signal :: .exclusive :: .tx :: recoverKinds

theorem Request.Admission.kinds {req : Request} (h : req.Admission) :
    ∀ kind ∈ req.kinds, kind ∈ admissionKinds := by
  cases req with
  | submitCandidate bytes body => exact fun _ hk => List.mem_append_left _ hk
  | designate header e => exact fun _ hk => List.mem_append_right _ hk
  | _ => exact absurd h id

/-- The ids under which a run from `w` stored what it rejected: each was free before that. -/
def StoredByRejection (w : World) : List Handled → NodeId → Prop
  | [], _ => False
  | k :: hs, x =>
    k.request.RejectsAs k.outcome x ∧ x ∉ w.lin.nodeIds ∨ StoredByRejection k.after hs x

theorem StoredByRejection.rejected {x : NodeId} {w : World} {hs : List Handled}
    (h : StoredByRejection w hs x) : ∃ k ∈ hs, k.request.RejectsAs k.outcome x := by
  induction hs generalizing w with
  | nil => exact h.elim
  | cons k hs ih =>
    rcases h with hnow | hlater
    · exact ⟨k, List.mem_cons_self, hnow.1⟩
    · obtain ⟨j, hj, hrejects⟩ := ih hlater
      exact ⟨j, List.mem_cons_of_mem _ hj, hrejects⟩

/-- One request of such a run. -/
theorem ordered_handle (hlaw : answers.Lawful) (hmode : g.settings.enforcementMode = .enforce)
    {req : Request} (hreq : req.Admission) {R : NodeId → Prop} {w : World} (hw : w.lin.Ordered R) :
    Act.Sat (restrict (Step g answers) FindsNoRepair) Trans.any (req.handle g)
      (fun r w' => w'.lin.Ordered fun x => R x ∨ req.RejectsAs r x ∧ x ∉ w.lin.nodeIds) w := by
  cases req with
  | submitCandidate bytes body => exact ordered_submit hlaw hmode hw
  | designate header e =>
    have hnever : ∀ r x, ¬ (Request.designate header e).RejectsAs r x := by
      rintro r x ⟨bytes, p, a, hreq, -⟩
      exact absurd hreq (by simp)
    refine (ordered_designate hlaw header e hw).mono ?_
    rintro (exc | a) w' h'
    · exact ordered_same h' (hnever _)
    · exact ordered_same h' (hnever _)
  | _ => exact absurd hreq id

/-- A run of such requests, with the ids under which it stored what it rejected. -/
theorem ordered_run (hlaw : answers.Lawful) (hmode : g.settings.enforcementMode = .enforce)
    {w w' : World} {hs : List Handled}
    (hrun : Run g (restrict (Step g answers) FindsNoRepair) w hs w')
    (hreq : ∀ k ∈ hs, k.request.Admission) {R : NodeId → Prop} (hw : w.lin.Ordered R) :
    w'.lin.Ordered fun x => R x ∨ StoredByRejection w hs x := by
  induction hrun generalizing R with
  | nil w => exact hw.congr fun x => or_iff_left id
  | @cons k w w' hs hexec _ ih =>
    have hstep : k.after.lin.Ordered fun x => R x ∨ k.request.RejectsAs k.outcome x ∧ x ∉ w.lin.nodeIds :=
      (Prog.Sat.sound (ordered_handle hlaw hmode (hreq k List.mem_cons_self) hw) hexec).2
    exact (ih (fun j hj => hreq j (List.mem_cons_of_mem _ hj)) hstep).congr fun x => or_assoc.symm

theorem World.ordered_initial (g : Setup) (db : Db) (adapterKey : Option String) :
    (World.initial g db adapterKey).lin.Ordered fun _ => False where
  quarantined := fun _ h => h.elim
  parents := by
    intro n hn _ x hx
    rw [List.mem_singleton.mp hn] at hx
    exact absurd hx List.not_mem_nil

/-- After a reset there is nothing to replay and nothing to rebuild. -/
theorem World.noRepair_initial (g : Setup) (db : Db) (adapterKey : Option String) :
    (World.initial g db adapterKey).db.NoRepair :=
  ⟨rfl, fun _ hrow => absurd hrow List.not_mem_nil⟩

/-- **The parent relation.**  After a run of submissions and designations, the nodes it stored by a
rejection aside, all of them quarantined: every parent a node names was stored strictly before it,
and no cycle passes through it. -/
theorem parents_before_of_run (hlaw : answers.Lawful)
    (hmode : g.settings.enforcementMode = .enforce) {db : Db} {adapterKey : Option String}
    {hs : List Handled} {w' : World}
    (hrun : Run g (Step g answers) (World.initial g db adapterKey) hs w')
    (hreq : ∀ k ∈ hs, k.request.Admission) :
    (∀ x, StoredByRejection (World.initial g db adapterKey) hs x →
      x ∈ w'.lin.ledger ∧ ∃ k ∈ hs, k.request.RejectsAs k.outcome x) ∧
    (∀ n ∈ w'.lin.nodes, ¬ StoredByRejection (World.initial g db adapterKey) hs n.nodeId →
      ∀ x ∈ n.payload.parentIds, w'.lin.Before x n.nodeId) ∧
    ∀ x, ¬ StoredByRejection (World.initial g db adapterKey) hs x →
      ¬ Relation.TransGen w'.lin.ParentOf x x := by
  have hcalls := (hrun.stable_kinds (K := Db.NoRepair)
    (fun c d (hc : c.kind ∈ admissionKinds) hd => hd.exec ⟨ne_of_mem_of_not_mem hc (by decide),
      ne_of_mem_of_not_mem hc (by decide)⟩)
    (fun k hk => (hreq k hk).kinds) rfl (World.noRepair_initial g db adapterKey)).2
  have hordered := (ordered_run hlaw hmode
    (hrun.restrict (C := FindsNoRepair) fun k hk e he => (hcalls k hk e he).1) hreq
    (World.ordered_initial g db adapterKey)).congr fun x => (or_iff_right id).symm
  refine ⟨fun x hx => ⟨hordered.quarantined x hx, hx.rejected⟩, fun n hn hnR x hx => ?_,
    fun x hx => hordered.acyclic hx⟩
  exact (hordered.parents n hn hnR x hx).2

/-- A child of the root is admitted, then a payload is rejected that names a quarantined node and
itself. -/
def selfParentRequests : List Request :=
  [openSubmission "child" ["clean-parent-1"], openSubmission "loop" ["loop", "quarantined-node-A"]]

/-- The admitted child comes after the root. -/
theorem parents_before_child : ∃ hs w, Run openSetup (Step openSetup Answers.lawful)
    (World.initial openSetup {} none) hs w ∧ w.lin.nodeIds = ["clean-parent-1", "child", "loop"] ∧
    w.lin.Before "clean-parent-1" "child" := by
  obtain ⟨hs, hrun, hreqs⟩ := exists_open_run selfParentRequests none
  have hadmission : ∀ k ∈ hs, k.request.Admission := by
    intro k hk
    have hmem : k.request ∈ selfParentRequests := hreqs ▸ List.mem_map_of_mem hk
    rcases List.mem_cons.mp hmem with h | h
    · rw [h]
      trivial
    · rw [List.mem_singleton.mp h]
      trivial
  obtain ⟨hrejected, hbefore, -⟩ := parents_before_of_run (fun _ _ h => h) rfl hrun hadmission
  have hids : (openWorld selfParentRequests none).lin.nodeIds =
      ["clean-parent-1", "child", "loop"] := by
    decide +kernel
  have hledger : "child" ∉ (openWorld selfParentRequests none).lin.ledger := by
    decide +kernel
  have hchild : ∃ n ∈ (openWorld selfParentRequests none).lin.nodes, n.nodeId = "child" ∧
      "clean-parent-1" ∈ n.payload.parentIds := by
    decide +kernel
  obtain ⟨n, hn, hid, hparent⟩ := hchild
  refine ⟨hs, _, hrun, hids, ?_⟩
  rw [← hid]
  refine hbefore n hn ?_ _ hparent
  rw [hid]
  exact fun h => hledger (hrejected _ h).1

/-- The rejected payload is stored as its own parent. -/
theorem parents_cyclic : ¬ ∀ hs w, Run openSetup (Step openSetup Answers.lawful)
    (World.initial openSetup {} none) hs w → (∀ k ∈ hs, k.request.Admission) →
    ∀ x, ¬ Relation.TransGen w.lin.ParentOf x x := by
  intro hall
  obtain ⟨hs, hrun, hreqs⟩ := exists_open_run selfParentRequests none
  refine hall hs _ hrun ?_ "loop" (.single ?_)
  · intro k hk
    have hmem : k.request ∈ selfParentRequests := hreqs ▸ List.mem_map_of_mem hk
    rcases List.mem_cons.mp hmem with h | h
    · rw [h]
      trivial
    · rw [List.mem_singleton.mp h]
      trivial
  · change ∃ n ∈ (openWorld selfParentRequests none).lin.nodes, n.nodeId = "loop" ∧
      "loop" ∈ n.payload.parentIds
    decide +kernel

end GovernorGateway
