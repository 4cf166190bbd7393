/-
# Submissions that race with designations

Any number of submissions, designations and detector events, in any order that the admission lock
and SQLite's write lock allow, without continuity, and on lineages without covers.  What is
committed is then closed in EVERY state that is reached (`admission_race_free`), not only where no
handler is in its section: each section publishes its work by one step, the commit of its
transaction or, for a detector, its one write of the ledger.

The invariant (`Db.Tidy`) says more than containment, for two reasons.  A rejected payload is
written to the ledger by its id alone: nothing may name that id, and nothing does, because it is
fresh and the parents of an unquarantined node are stored.  And a reconstruction must have nothing
to rebuild from: no record is pending, and none becomes so, since a compaction that covers nothing
has an empty frontier.
-/
import GovernorGateway.Concurrency.Local
import GovernorGateway.Concurrency.Scheduled
import GovernorGateway.Semantics.Requests

namespace GovernorGateway

open Effects

/-! ## 1. The invariant -/

/-- What is said of the lineage. -/
structure Lineage.Tidy (L : Lineage) : Prop where
  wf : L.Wf
  contained : L.Contained
  anchored : ∀ n ∈ L.nodes, n.nodeId ∉ L.ledger → ∀ x ∈ n.payload.parentIds, x ∈ L.nodeIds
  plain : ∀ n ∈ L.nodes, n.payload.covers = []

/-- No record waits to be reconstructed. -/
def Db.NonePending (d : Db) : Prop :=
  ∀ row ∈ d.repairCandidates, row.2.disposition ≠ .pendingReconstruction

structure Db.Tidy (d : Db) : Prop where
  lineage : d.toLineage.Tidy
  settled : d.NonePending

namespace Lineage

variable {L : Lineage} {sha256 : String → String} {p : Payload}

/-- An admitted payload: its parents are stored and clean, it covers nothing. -/
theorem Tidy.afterAdmission (h : L.Tidy) (hparents : ∀ x ∈ p.parentIds, x ∈ L.nodeIds ∧ x ∉ L.ledger)
    (hcovers : p.covers = []) : (L.commitNode sha256 p).2.Tidy where
  wf := h.wf.commitNode
  contained := by
    refine contained_commitNode h.contained (Or.inr (Or.inr fun x hx => ?_))
    rcases hx with hx | hx
    · exact (hparents x hx).2
    · rw [hcovers] at hx
      exact absurd hx List.not_mem_nil
  anchored := by
    intro n hn hclean x hx
    rw [mem_nodeIds_commitNode]
    rw [commitNode_ledger] at hclean
    rcases mem_nodes_commitNode.mp hn with hn | ⟨rfl, -⟩
    · exact Or.inl (h.anchored n hn hclean x hx)
    · exact Or.inl (hparents x hx).1
  plain := by
    intro n hn
    rcases mem_nodes_commitNode.mp hn with hn | ⟨rfl, -⟩
    · exact h.plain n hn
    · exact hcovers

/-- **A rejected payload** under a fresh id: no unquarantined node names it. -/
theorem Tidy.reject (h : L.Tidy) (hfresh : p.payloadId ∉ L.nodeIds) (hcovers : p.covers = []) :
    ((L.commitNode sha256 p).2.quarantine [p.payloadId]).Tidy where
  wf := h.wf.commitNode.quarantine _
  contained := by
    intro n hn x hx hnames
    rw [mem_ledger_quarantine, commitNode_ledger] at hx ⊢
    rcases mem_nodes_commitNode.mp hn with hn | ⟨rfl, -⟩
    · rcases hx with hx | hx
      · exact Or.inl (h.contained n hn x hx hnames)
      · obtain rfl := List.mem_singleton.mp hx
        by_contra hclean
        have hparent : p.payloadId ∈ n.payload.parentIds := by
          rcases hnames with hparent | hcovered
          · exact hparent
          · rw [h.plain n hn] at hcovered
            exact absurd hcovered List.not_mem_nil
        exact hfresh (h.anchored n hn (fun hl => hclean (Or.inl hl)) _ hparent)
    · exact Or.inr (List.mem_singleton_self _)
  anchored := by
    intro n hn hclean x hx
    change x ∈ (L.commitNode sha256 p).2.nodeIds
    rw [mem_ledger_quarantine, commitNode_ledger, not_or] at hclean
    rw [mem_nodeIds_commitNode]
    rcases mem_nodes_commitNode.mp hn with hn | ⟨rfl, -⟩
    · exact Or.inl (h.anchored n hn hclean.1 x hx)
    · exact absurd (List.mem_singleton_self _) hclean.2
  plain := by
    intro n hn
    rcases mem_nodes_commitNode.mp hn with hn | ⟨rfl, -⟩
    · exact h.plain n hn
    · exact hcovers

/-- A containment that the depth bound does not cut off. -/
theorem Tidy.contain (h : L.Tidy) {D : Int} (hD : L.Shallow D) (root : NodeId) :
    (L.quarantine (sortedSet (L.traverse D root))).Tidy where
  wf := h.wf.quarantine _
  contained := (contained_quarantine_traverse_iff h.wf h.contained fun _ => mem_sortedSet).mpr
    (hD.depthCovers root)
  anchored := by
    intro n hn hclean
    rw [mem_ledger_quarantine, not_or] at hclean
    exact h.anchored n hn hclean.1
  plain := h.plain

end Lineage

/-- A call that is no commit leaves the stored covers and the settled records as they are. -/
theorem Db.NonePending.exec {g : Setup} {d : Db} (hplain : ∀ n ∈ d.nodes, n.payload.covers = [])
    (h : d.NonePending) : ∀ c : Store, (∀ x rc, c = .updateRepairCandidate x rc →
      rc.disposition ≠ .pendingReconstruction) → (c.exec g d).2.NonePending
  | .updateRepairCandidate x rc, hrc => by
    intro row hrow
    rcases Keyed.mem_insertOrReplace.mp hrow with ⟨hrow, -⟩ | rfl
    · exact h row hrow
    · exact hrc x rc rfl
  | .computeBlastRadius root, _ => by
    intro row hrow hpending
    rcases Db.pending_computeBlastRadius hrow hpending with hold | ⟨p, hpay, hne, hfrontier, -⟩
    · exact h row hold hpending
    · obtain ⟨n, hn, rfl⟩ := Option.map_eq_some_iff.mp hpay
      rw [hplain n (Keyed.lookup_mem hn).1] at hfrontier
      exact hne hfrontier
  | .recordShadowDecision s, _ => by
    simp only [Store.exec, Db.recordShadowDecision]
    split
    · exact h
    · exact h
  | .getDag, _ | .getQuarantineLedger, _ | .getRepairCandidates, _ | .getCheckpoints, _
  | .getSubstituteDeclarations, _ | .nodesExist _, _ | .areQuarantined _, _
  | .getNodeContentHashes _, _ | .computeCoversIntervalGap _, _ | .computeQuarantineDigest _, _
  | .computeStateDigest, _ | .getCriticalDependents _, _ | .findContinuityReplacement _, _
  | .getActiveHorizonSet _, _ | .countRecentSignals _ _, _ | .countRecentSignalsGlobal _, _
  | .commitNode _ _, _ | .applyQuarantineTransaction _ _, _ | .applyWithdrawalTransaction _ _ _, _
  | .assignRepairCandidate _ _, _
  | .recordTaintedRejection _ _ _ _, _ | .recordTaintedOffer _ _ _, _ | .checkRetryCompletion _, _
  | .recordReintegration _ _ _ _, _ | .recordReintegrationEvidence _, _
  | .recordContinuityExposure _, _ | .recordSignalAttempt _ _ _ _ _, _ | .recordDetectorEvent _, _
  | .addCheckpoint _, _ | .addSubstituteDeclaration _, _ | .addExternalEffect _ _ _ _, _
  | .renewTrust _ _ _, _ | .recordCalibrationRun _, _ => h

theorem Store.not_pending_of_quiet {c : Store} (hc : ¬ c.Loud) :
    ∀ x rc, c = .updateRepairCandidate x rc → rc.disposition ≠ .pendingReconstruction := by
  rintro x rc rfl hpending
  exact hc hpending

/-- A quiet call keeps the invariant. -/
theorem Db.Tidy.quiet {g : Setup} {d : Db} (h : d.Tidy) {c : Store} (hc : ¬ c.Loud) :
    (c.exec g d).2.Tidy where
  lineage := by
    rw [Store.exec_toLineage g d c hc]
    exact h.lineage
  settled := h.settled.exec h.lineage.plain c (Store.not_pending_of_quiet hc)

/-! ## 2. The tasks -/

/-- The payload the request submits. -/
def Request.Submits (g : Setup) : Request → Payload → Prop
  | .submitCandidate bytes body, p => parseSubmission g bytes body = .ok p
  | _, _ => False

/-- The handlers that race. -/
def Request.Races : Request → Prop
  | .submitCandidate _ _ | .designate _ _ | .detector _ _ _ => True
  | _ => False

/-- What holds of the committed database, and of what every task sees of it. -/
def raceTerms (g : Setup) : Terms where
  invariant := Db.Tidy
  condition := fun _ v _ => v.db.toLineage.Shallow g.settings.maxTraversalDepth

/-- A submission that has not committed yet finds its id unused. -/
def Request.Unused (g : Setup) (req : Request) (fresh : Bool) (L : Lineage) : Prop :=
  fresh = true → ∀ p, req.Submits g p → p.payloadId ∉ L.nodeIds

/-- Of a task, only the node it submits is new. -/
def Request.Adds (g : Setup) (req : Request) (L L' : Lineage) : Prop :=
  ∀ x ∈ L'.nodeIds, x ∈ L.nodeIds ∨ ∃ p, req.Submits g p ∧ p.payloadId = x

variable {g : Setup} {answers : Answers}

theorem gentle_race (req : Request) : Gentle g (raceTerms g) (req.Adds g) where
  store := fun _ _ hc h => h.quiet hc
  refl := fun _ _ hx => Or.inl hx
  keys := fun _ _ _ _ => trivial

/-! ## 3. The sections of a transaction -/

/-- A call that stores no covers and makes no record pending. -/
def Call.Plain : Call → Prop
  | .store (.commitNode _ p) => p.covers = []
  | .store (.updateRepairCandidate _ rc) => rc.disposition ≠ .pendingReconstruction
  | _ => True

theorem Call.plain_of_quiet {c : Call} (hc : c.Quiet) : c.Plain := by
  cases c with
  | store c =>
    cases c with
    | commitNode site p => exact absurd trivial hc
    | updateRepairCandidate x rc => exact hc
    | _ => trivial
  | _ => trivial

/-- What a section keeps besides what it does to the lineage. -/
def Db.Plain (d : Db) : Prop := (∀ n ∈ d.nodes, n.payload.covers = []) ∧ d.NonePending

theorem Db.Plain.exec {d : Db} (h : d.Plain) {c : Store} (hc : (Call.store c).Plain) :
    (c.exec g d).2.Plain := by
  have hsettled : (c.exec g d).2.NonePending := by
    refine h.2.exec h.1 c ?_
    rintro x rc rfl
    exact hc
  refine ⟨?_, hsettled⟩
  by_cases hloud : c.Loud
  · cases c with
    | commitNode site p =>
      intro n hn
      rcases Lineage.mem_nodes_commitNode.mp hn with hn | ⟨rfl, -⟩
      · exact h.1 n hn
      · exact hc
    | applyQuarantineTransaction event ids => exact h.1
    | updateRepairCandidate x rc => exact absurd hloud hc
    | _ => exact absurd hloud id
  · rw [Store.exec_toLineage g d c hloud]
    exact h.1

/-- The obligation on the calls of a section. -/
def PlainDuty (g : Setup) : Trans Call Call.Res Exc Db :=
  fun c d r d' => TxDuty (raceTerms g) c d r d' ∧ c.Plain

theorem plainDuty_quiet : ∀ c d r d', c.Quiet → PlainDuty g c d r d' := by
  intro c d r d' hc
  exact ⟨txDuty_quiet (fun _ => trivial) c d r d' hc, Call.plain_of_quiet hc⟩

theorem Db.Plain.step {role : Role} {c : Call} {d d' : Db} {r : Except Exc c.Res} (h : d.Plain)
    (ht : TxStep g answers (raceTerms g) role c d r d') (hc : PlainDuty g c d r d') : d'.Plain := by
  cases c with
  | store c =>
    rw [ht.2.2]
    exact h.exec hc.2
  | ext e => rwa [ht.2.2]
  | getAdapterKey => rwa [show d' = d from ht.2]
  | setAdapterKey key => rwa [show d' = d from ht]
  | sync k => exact hc.1.elim

/-- The section of a submission. -/
theorem sat_submitLocked_tidy (hlaw : answers.Lawful) (hmode : g.settings.enforcementMode = .enforce)
    (role : Role) {p : Payload} (hcovers : p.covers = []) (auth : Claims) (decisionId : String) {d : Db}
    (hd : d.Tidy) (hfresh : p.payloadId ∉ d.nodeIds) :
    Act.Sat (TxStep g answers (raceTerms g) role) (PlainDuty g) (submitLocked g p auth decisionId)
      (onOk (fun _ d' => d'.Tidy ∧ ∀ x ∈ d'.nodeIds, x ∈ d.nodeIds ∨ p.payloadId = x)
        fun _ _ => True) d := by
  have hacts : Acts g (TxStep g answers (raceTerms g) role) Db.toLineage := (solo_txStep hlaw role).acts
  have hsection := sat_submitLocked (P := PlainDuty g) (K := fun _ _ _ => True) hacts hmode p auth
    decisionId d ⟨plainDuty_quiet, fun _ _ _ _ _ _ => ⟨⟨trivial, hcovers⟩, trivial⟩,
      fun _ _ _ _ _ _ => ⟨trivial, hcovers⟩, fun _ _ _ _ _ _ _ _ _ _ _ => ⟨⟨trivial, trivial⟩, trivial⟩⟩
  refine (Prog.Sat.invariant (I := Db.Plain) hsection (fun _ _ _ _ h ht hc => h.step ht hc)
    ⟨hd.lineage.plain, hd.settled⟩).mono ?_
  rintro (e | a) d' ⟨hout, hplain⟩
  · trivial
  · have hids : ∀ gap, ∀ x ∈ (d.toLineage.commitNode g.env.sha256
        { p with coversIntervalGap := gap }).2.nodeIds, x ∈ d.nodeIds ∨ p.payloadId = x := by
      intro gap x hx
      rcases Lineage.mem_nodeIds_commitNode.mp hx with hx | hx
      · exact Or.inl hx
      · exact Or.inr hx.symm
    change SubmitOutcome _ _ _ d.toLineage a d'.toLineage at hout
    have hlineage : d'.toLineage.Tidy ∧ ∀ x ∈ d'.nodeIds, x ∈ d.nodeIds ∨ p.payloadId = x := by
      generalize d'.toLineage = L' at hout ⊢
      cases hout with
      | refused _ _ => exact ⟨hd.lineage, fun x hx => Or.inl hx⟩
      | admitted gap hid hparents _ _ _ => exact ⟨hd.lineage.afterAdmission hparents hcovers, hids gap⟩
      | rejected gap ha hid _ _ _ =>
        exact ⟨hd.lineage.reject (p := { p with coversIntervalGap := gap }) hfresh hcovers, hids gap⟩
    exact ⟨⟨hlineage.1, hplain.2⟩, hlineage.2⟩

/-- With no record pending, reconstruction commits nothing. -/
theorem keeps_attemptReconstruction_settled {σ : Type} {T P : Trans Call Call.Res Exc σ} {I : σ → Prop}
    (hframe : Frame T P I)
    (hsettled : ∀ s rcs s', I s → T (.store .getRepairCandidates) s (.ok rcs) s' →
      ∀ row ∈ rcs, row.2.disposition ≠ .pendingReconstruction) (root : NodeId) :
    Keeps T P I (attemptReconstruction g root) fun _ => True :=
  keeps_attemptReconstruction (U := fun _ => True) (V := fun _ => True) (A := fun _ _ => True)
    (Φ := fun _ => False)
    ⟨hframe, fun _ _ _ _ => trivial, fun _ _ _ _ _ => trivial, fun _ _ _ _ _ _ => trivial,
      fun _ _ hfalse _ => hfalse.elim⟩ root hsettled

/-- The section of a designation. -/
theorem sat_designateLocked_tidy (hlaw : answers.Lawful)
    (hcontinuity : g.settings.continuityEnabled = false) (role : Role) (e : DesignationEvent)
    (identity : String) {d : Db} (hd : d.Tidy) :
    Act.Sat (TxStep g answers (raceTerms g) role) (PlainDuty g) (designateLocked g e identity)
      (onOk (fun _ d' => d'.Tidy ∧ d'.nodeIds = d.nodeIds) fun _ _ => True) d := by
  have hsolo : Solo g (TxStep g answers (raceTerms g) role) id := solo_txStep hlaw role
  have hacts : Acts g (TxStep g answers (raceTerms g) role) Db.toLineage := hsolo.acts
  unfold designateLocked
  refine hsolo.read_bind plainDuty_quiet (by simp [Store.Loud]) rfl fun d₁ hd₁ => ?_
  obtain rfl : d₁ = d := hd₁
  refine hsolo.read_bind plainDuty_quiet (by simp [Store.Loud]) rfl fun d₂ hd₂ => ?_
  obtain rfl : d₂ = d₁ := hd₂
  split
  · exact ⟨hd, rfl⟩
  · split
    · exact ⟨hd, rfl⟩
    · rw [Act.sat_bind]
      have hcontain := sat_contain (P := PlainDuty g) (K := d₂.toLineage.Shallow
        g.settings.maxTraversalDepth) hacts plainDuty_quiet e.poisonedNodeId identity e.reason none d₂
        (fun event d₃ r d' hev _ _ hlin ht => ⟨⟨trivial, trivial⟩, by rw [← hlin]; exact ht.1⟩)
      refine (Prog.Sat.invariant (I := Db.Plain) hcontain (fun _ _ _ _ h ht hc => h.step ht hc)
        ⟨hd.lineage.plain, hd.settled⟩).mono ?_
      rintro (exc | ⟨ids, event⟩) d₃ ⟨hout, hplain⟩
      · trivial
      · obtain ⟨hshallow, hids, hlin⟩ := hout
        have htidy : d₃.toLineage.Tidy := by
          rw [hlin, hids]
          exact hd.lineage.contain hshallow _
        have hnodes : d₃.toLineage.nodeIds = d₂.toLineage.nodeIds := by
          rw [hlin]
          rfl
        have hnothing : attemptSafeContinuity g ids event = pure { enabled := false } := by
          rw [attemptSafeContinuity, if_pos (by simp [hcontinuity])]
        simp only [onOk_ok, hnothing]
        change Act.Sat _ _ (attemptReconstruction g e.poisonedNodeId >>= _) _ d₃
        rw [Act.sat_bind]
        have hframe : Frame (TxStep g answers (raceTerms g) role) (PlainDuty g)
            fun d' => d'.toLineage = d₃.toLineage ∧ d'.Plain := by
          rintro c d' r d'' hc ⟨hlin', hplain'⟩ ht
          refine ⟨plainDuty_quiet c d' r d'' hc, (hacts.quiet hc ht).trans hlin', ?_⟩
          exact hplain'.step ht (plainDuty_quiet c d' r d'' hc)
        refine (keeps_attemptReconstruction_settled hframe ?_ e.poisonedNodeId d₃ ⟨rfl, hplain⟩).mono ?_
        · rintro d' rcs d'' ⟨-, hplain'⟩ ⟨-, hrcs, -⟩
          obtain rfl := Except.ok.inj hrcs
          exact hplain'.2
        · rintro (exc | u) d₄ h₄
          · trivial
          · obtain ⟨⟨hlin₄, hplain₄⟩, -⟩ := h₄
            refine ⟨⟨?_, hplain₄.2⟩, ?_⟩
            · rw [hlin₄]
              exact htidy
            · rw [hlin₄]
              exact hnodes

/-! ## 4. The section of a detector -/

/-- A detector works on what is committed: its one write of the ledger is fit to be seen. -/
theorem sat_detectorLocked_tidy (hlaw : answers.Lawful) (req : Request) (e : DesignationEvent)
    (identity : String) (source : DetectorSource) (L : Lineage) :
    Act.Sat (ExclusiveStep g answers (raceTerms g))
      (ExclusiveDuty g (raceTerms g) (req.Unused g) (req.Adds g)) (detectorLocked g e identity source)
      (fun _ _ => True) L := by
  have hacts : Acts g (ExclusiveStep g answers (raceTerms g)) id := acts_exclusiveStep hlaw
  have hquiet : ∀ c L r L', c.Quiet →
      ExclusiveDuty g (raceTerms g) (req.Unused g) (req.Adds g) c L r L' :=
    exclusiveDuty_quiet (gentle_race req) fun _ => trivial
  have hend : ∀ {α : Type} {r : Except Exc α} {L' : Lineage},
      onOk (fun _ _ => True) (fun _ _ => True) r L' → True := fun _ => trivial
  refine Act.Sat.mono (Q := onOk (fun _ _ => True) fun _ _ => True) ?_ fun _ _ => hend
  rw [detectorLocked]
  refine hacts.read_bind hquiet (by simp [Store.Loud]) (fun db₁ exists_ L₁ _ _ _ => ?_)
    fun _ _ _ => trivial
  refine hacts.read_bind hquiet (by simp [Store.Loud]) (fun db₂ quarantined L₂ _ _ _ => ?_)
    fun _ _ _ => trivial
  split
  · trivial
  · split
    · trivial
    · rw [Act.sat_bind]
      refine (sat_contain (K := True) hacts hquiet e.poisonedNodeId identity e.reason
        (some source.name) L₂ fun event L₃ r L' hev hroot _ hlin _ => ⟨⟨rfl, ?_⟩, trivial⟩).mono ?_
      · rintro d htidy rfl hshallow
        have hradius : event.computedBlastRadius =
            sortedSet (d.toLineage.traverse g.settings.maxTraversalDepth event.poisonedRootId) :=
          hev.radius
        refine ⟨⟨?_, htidy.settled⟩, fun _ hunused => hunused, fun x hx => Or.inl hx⟩
        rw [hradius]
        exact htidy.lineage.contain hshallow event.poisonedRootId
      · rintro (exc | out) L₃ _
        · trivial
        · trivial

/-! ## 5. The handlers, alone -/

/-- The handler does its duty, whatever the others do in between. -/
abbrev Request.Dutiful (g : Setup) (answers : Answers) (req : Request) : Prop :=
  Act.Sat (LocalStep g answers (raceTerms g) (req.Unused g))
    (Duty g (raceTerms g) (req.Unused g) (req.Adds g)) (req.handle g) (fun _ _ => True) {}

/-- A request that has committed does not need its id any more. -/
theorem Request.unused_false (req : Request) : req.Unused g false = fun _ => True := by
  funext L
  simp [Request.Unused]

theorem dutiful_submitCandidate (hlaw : answers.Lawful) (hmode : g.settings.enforcementMode = .enforce)
    (bytes : ℕ) (body : SubmitBody)
    (hplain : ∀ p, (Request.submitCandidate bytes body).Submits g p → p.covers = []) :
    (Request.submitCandidate bytes body).Dutiful g answers := by
  change Act.Sat _ _ (submitCandidate g bytes body) _ _
  rw [submitCandidate, Act.sat_bind]
  have hasks : ∀ (e : Ext) (l : Loc) r l', LocalStep g answers (raceTerms g)
      (Request.Unused g (.submitCandidate bytes body)) (.ext e) l r l' → l' = l := by
    rintro e l r l' ⟨v, -, -, heffect⟩
    exact heffect.2
  refine (sat_submitChecks_asking hasks (fun _ _ _ _ => trivial) bytes body {}).mono ?_
  rintro (e | ⟨p, auth, decisionId⟩) l hl
  · trivial
  · obtain ⟨rfl, hparse⟩ := hl
    refine local_withShared (local_withTransaction (Or.inl rfl) (fun d hd hunused _ => ?_)
      fun e => ⟨true, rfl, trivial⟩)
    refine ((sat_submitLocked_tidy hlaw hmode _ (hplain p hparse) auth decisionId hd
      (hunused rfl p hparse)).weaken fun _ _ _ _ h => h.1).mono ?_
    rintro (e | a) d' hout
    · trivial
    · refine ⟨hout.1, Request.unused_false _ ▸ trivial, fun x hx => ?_, ?_⟩
      · rcases hout.2 x hx with hx | hx
        · exact Or.inl hx
        · exact Or.inr ⟨p, hparse, hx⟩
      · rintro (_ | _ | _ | L) hrole
        · exact absurd hrole (by decide)
        · exact ⟨false, rfl, trivial⟩
        · exact absurd hrole (by decide)
        · exact absurd hrole (by simp [Side.role])

theorem dutiful_designate (hlaw : answers.Lawful) (hcontinuity : g.settings.continuityEnabled = false)
    (header : Option String) (e : DesignationEvent) :
    (Request.designate header e).Dutiful g answers := by
  have hgentle := gentle_race (g := g) (.designate header e)
  change Act.Sat _ _ (designatePoison g header e) _ _
  refine local_quiet_bind hgentle rfl (uses_verifyRole g (Call.of_quiet rfl) _ _) (fun claims => ?_)
    fun _ => trivial
  refine local_quiet_bind hgentle rfl (uses_limitDesignations g (Call.of_quiet rfl) _ _)
    (fun _ => ?_) fun _ => trivial
  refine local_withExclusive fun d _ _ _ => ?_
  refine local_withTransaction (Or.inr ⟨_, rfl⟩) (fun d' hd' _ _ => ?_)
    fun e => ⟨_, true, rfl, trivial⟩
  refine ((sat_designateLocked_tidy hlaw hcontinuity _ e _ hd').weaken fun _ _ _ _ h => h.1).mono ?_
  rintro (exc | a) d'' hout
  · trivial
  · refine ⟨hout.1, Request.unused_false _ ▸ trivial, fun x hx => Or.inl ?_, ?_⟩
    · rwa [hout.2] at hx
    · rintro (_ | _ | _ | L) hrole
      · exact absurd hrole (by simp [Side.role])
      · exact absurd hrole (by simp [Side.role])
      · exact absurd hrole (by simp [Side.role])
      · exact ⟨L, false, rfl, trivial⟩

/-- Outside the lock again, nothing is pending in whatever a recovery reads. -/
theorem local_attemptReconstruction_settled (req : Request) (root : NodeId) :
    Act.Sat (LocalStep g answers (raceTerms g) (req.Unused g))
      (Duty g (raceTerms g) (req.Unused g) (req.Adds g)) (attemptReconstruction g root)
      (fun _ _ => True) ⟨.outside, none, true⟩ := by
  have hframe : Frame (LocalStep g answers (raceTerms g) (req.Unused g))
      (Duty g (raceTerms g) (req.Unused g) (req.Adds g)) fun l => l = ⟨.outside, none, true⟩ :=
    frame_local (gentle_race req) rfl
  refine (keeps_attemptReconstruction_settled hframe ?_ root _ rfl).mono fun _ _ _ => trivial
  rintro l rcs l' rfl ⟨v, ⟨-, hd, -⟩, -, heffect⟩
  rcases heffect with ⟨hrcs, -⟩ | ⟨-, ⟨e, he⟩, -⟩
  · obtain rfl := Except.ok.inj hrcs
    exact hd.settled
  · exact absurd he (by simp)

theorem dutiful_detector (hlaw : answers.Lawful) (hcontinuity : g.settings.continuityEnabled = false)
    (header : Option String) (source : String) (raw : RawEvent) :
    (Request.detector header source raw).Dutiful g answers := by
  have hgentle := gentle_race (g := g) (.detector header source raw)
  change Act.Sat _ _ (ingestDetectorEvent g header source raw) _ _
  refine local_quiet_bind hgentle rfl (uses_verifyRole g (Call.of_quiet rfl) _ _) (fun _ => ?_)
    fun _ => trivial
  cases detectorRegistry source with
  | none => trivial
  | some src =>
    refine local_quiet_bind hgentle rfl (uses_recordRawEvent (Call.of_quiet rfl) _ _) (fun _ => ?_)
      fun _ => trivial
    refine local_quiet_bind hgentle rfl (Act.uses_raiseIf _ _) (fun _ => ?_) fun _ => trivial
    cases toDesignation g.env src raw with
    | error reason => trivial
    | ok e =>
      refine local_quiet_bind hgentle rfl (uses_verifyRole g (Call.of_quiet rfl) _ _)
        (fun claims => ?_) fun _ => trivial
      refine local_quiet_bind hgentle rfl (uses_limitDesignations g (Call.of_quiet rfl) _ _)
        (fun _ => ?_) fun _ => trivial
      rw [Act.sat_bind]
      refine local_withExclusive fun d _ _ _ => ?_
      refine Act.Sat.mono (local_inExclusive (sat_detectorLocked_tidy hlaw _ e _ src d.toLineage)) ?_
      rintro (exc | out) l ⟨L, rfl, -⟩
      · exact ⟨L, true, rfl, trivial⟩
      · refine ⟨L, true, rfl, ?_⟩
        cases out with
        | none => trivial
        | some out =>
          have hnothing : attemptSafeContinuity g out.1 out.2 = pure { enabled := false } := by
            rw [attemptSafeContinuity, if_pos (by simp [hcontinuity])]
          simp only [onOk_ok, hnothing]
          change Act.Sat _ _ (attemptReconstruction g e.poisonedNodeId >>= _) _ _
          rw [Act.sat_bind]
          refine (local_attemptReconstruction_settled (.detector header source raw)
            e.poisonedNodeId).mono ?_
          rintro (exc | u) l' -
          · trivial
          · trivial

/-- **Each handler does its duty**, whatever the others do in between. -/
theorem sat_handle_race (hlaw : answers.Lawful) (hmode : g.settings.enforcementMode = .enforce)
    (hcontinuity : g.settings.continuityEnabled = false) (req : Request) (hreq : req.Races)
    (hplain : ∀ p, req.Submits g p → p.covers = []) : req.Dutiful g answers := by
  cases req with
  | submitCandidate bytes body => exact dutiful_submitCandidate hlaw hmode bytes body hplain
  | designate header e => exact dutiful_designate hlaw hcontinuity header e
  | detector header source raw => exact dutiful_detector hlaw hcontinuity header source raw
  | _ => exact absurd hreq id

/-! ## 6. Together -/

variable {ι : Type} [DecidableEq ι]

/-- **Admission and designation do not race.**  Any number of submissions, designations and detector
events, in any interleaving that the two locks allow: in every state that is reached, every node
with a quarantined parent is quarantined. -/
theorem admission_race_free (hlaw : answers.Lawful) (hmode : g.settings.enforcementMode = .enforce)
    (hcontinuity : g.settings.continuityEnabled = false) {req : ι → Request}
    (hreq : ∀ i, (req i).Races) (hplain : ∀ i p, (req i).Submits g p → p.covers = [])
    (hdistinct : ∀ i j p q, i ≠ j → (req i).Submits g p → (req j).Submits g q →
      p.payloadId ≠ q.payloadId)
    {s : Gateway ι} (hlock : s.lock = {}) (htx : s.tx = none) (hwf : s.db.toLineage.Wf)
    (hnew : ∀ i p, (req i).Submits g p → p.payloadId ∉ s.db.nodeIds)
    (hstored : ∀ n ∈ s.db.nodes, n.payload.covers = []) (hsettled : s.db.NonePending)
    (hcontained : ∀ n ∈ s.db.nodes, ∀ x ∈ n.payload.parentIds, x ∈ s.db.ledger →
      n.nodeId ∈ s.db.ledger)
    (hanchored : ∀ n ∈ s.db.nodes, n.nodeId ∉ s.db.ledger → ∀ x ∈ n.payload.parentIds,
      x ∈ s.db.nodeIds)
    {p : Pool ι Call Call.Res Exc (Gateway ι) (Except Exc Response)}
    (hrun : Relation.ReflTransGen (Pool.Step (TaskStepOn g answers fun _ v _ =>
      v.db.toLineage.Shallow g.settings.maxTraversalDepth)) (s.serve g req) p) :
    ∀ n ∈ p.state.db.nodes, ∀ x ∈ n.payload.parentIds, x ∈ p.state.db.ledger →
      n.nodeId ∈ p.state.db.ledger := by
  have htidy : s.db.Tidy := by
    refine ⟨⟨hwf, ?_, hanchored, hstored⟩, hsettled⟩
    rintro n hn x hx (hparent | hcovered)
    · exact hcontained n hn x hparent hx
    · rw [hstored n hn] at hcovered
      exact absurd hcovered List.not_mem_nil
  have hstable : ∀ i j, j ≠ i → ∀ b L L', (req i).Adds g L L' → (req j).Unused g b L →
      (req j).Unused g b L' := by
    intro i j hji b L L' hadds hunused hb q hq hmem
    rcases hadds _ hmem with hold | ⟨p, hp, hid⟩
    · exact hunused hb q hq hold
    · exact hdistinct i j p q (Ne.symm hji) hp hq hid
  obtain ⟨l, hcoherent, -⟩ := tasks_invariant (t := raceTerms g) (F := fun i => (req i).Unused g)
    (G := fun i => (req i).Adds g) (Q := fun _ _ _ => True) hstable hrun
    (Coherent.initial s htidy trivial hlock htx fun i _ => hnew i)
    fun i => sat_handle_race hlaw hmode hcontinuity (req i) (hreq i) (hplain i)
  intro n hn x hparent hx
  exact hcoherent.db.lineage.contained n hn x hx (Or.inl hparent)

/-! ## 7. Four handlers -/

/-- A child of the root, a child of a quarantined node, a designation of the root, and a report of
it. -/
def raceRequests (i : Fin 4) : Request :=
  match i with
  | 0 => openSubmission "node-1" ["clean-parent-1"]
  | 1 => openSubmission "node-2" ["quarantined-node-A"]
  | 2 => .designate (some "Bearer designator") ⟨"clean-parent-1", "poisoned"⟩
  | 3 => openReport "clean-parent-1"

/-- The designation comes as far as the lock; the first submission stops inside its transaction, and
the designation waits for it; then each of them runs on. -/
def raceTurns : List (Fin 4 × (Call → Bool)) :=
  [(2, fun c => c.kind = .exclusive), (0, fun c => c.kind = .commit .admission), (2, fun _ => false),
    (0, fun _ => false), (2, fun _ => false), (1, fun _ => false), (3, fun _ => false)]

def raceStart : Gateway (Fin 4) := { db := ({} : Db).reset plainSetup.env.sha256 }

/-- The child is admitted first and contained with the root. -/
theorem admission_race_free_child : ∃ p : Pool (Fin 4) Call Call.Res Exc (Gateway (Fin 4))
      (Except Exc Response),
    Relation.ReflTransGen (Pool.Step (TaskStepOn plainSetup Answers.lawful fun _ v _ =>
      v.db.toLineage.Shallow plainSetup.settings.maxTraversalDepth))
      (raceStart.serve plainSetup raceRequests) p ∧
    ["node-1", "node-2", "clean-parent-1"].all (· ∈ p.state.db.ledger) = true ∧
    ∀ n ∈ p.state.db.nodes, ∀ x ∈ n.payload.parentIds, x ∈ p.state.db.ledger →
      n.nodeId ∈ p.state.db.ledger := by
  have hrun := Script.schedule_run_on (fun i : Fin 4 => openScript (toString i.val)) plainSetup
    (fun _ v => v.db.toLineage.flat)
    (fun _ v _ => v.db.toLineage.Shallow plainSetup.settings.maxTraversalDepth)
    (fun _ _ _ hflat => Lineage.shallow_of_flat (by decide) hflat) raceTurns
    (raceStart.serve plainSetup raceRequests)
  have hsubmits : ∀ i p, (raceRequests i).Submits plainSetup p →
      (i = 0 ∧ p = openPayload "agent" "node-1" ["clean-parent-1"]) ∨
        (i = 1 ∧ p = openPayload "agent" "node-2" ["quarantined-node-A"]) := by
    intro i p hp
    have hparsed : ∀ q, parseSubmission plainSetup 512 (.payload q) = .ok p → p = q := by
      intro q hq
      rw [parseSubmission, if_neg (by decide)] at hq
      split at hq
      · exact (Except.ok.inj hq).symm
      · exact absurd hq (by simp)
    rcases i with ⟨_ | _ | _ | _ | n, hi⟩
    · exact Or.inl ⟨rfl, hparsed _ hp⟩
    · exact Or.inr ⟨rfl, hparsed _ hp⟩
    · exact absurd hp id
    · exact absurd hp id
    · omega
  refine ⟨_, hrun, by decide +kernel, ?_⟩
  refine admission_race_free (fun _ _ h => h) rfl rfl (fun i => ?_) (fun i p hp => ?_)
    (fun i j p q hij hp hq => ?_) rfl rfl (Lineage.wf_reset _ _).1 (fun i p hp => ?_) ?_ ?_ ?_ ?_ hrun
  · rcases i with ⟨_ | _ | _ | _ | n, hi⟩
    · trivial
    · trivial
    · trivial
    · trivial
    · omega
  · rcases hsubmits i p hp with ⟨-, rfl⟩ | ⟨-, rfl⟩
    · rfl
    · rfl
  · rcases hsubmits i p hp with ⟨rfl, rfl⟩ | ⟨rfl, rfl⟩
    · rcases hsubmits j q hq with ⟨rfl, -⟩ | ⟨rfl, rfl⟩
      · exact absurd rfl hij
      · decide
    · rcases hsubmits j q hq with ⟨rfl, rfl⟩ | ⟨rfl, -⟩
      · decide
      · exact absurd rfl hij
  · rcases hsubmits i p hp with ⟨-, rfl⟩ | ⟨-, rfl⟩
    · decide
    · decide
  · decide
  · intro row hrow
    exact absurd hrow List.not_mem_nil
  · decide
  · decide

end GovernorGateway
