/-
# Declared substitutes

A substitute for a node is to be declared BEFORE the incident; one that is declared when the node is
already in the ledger may have been chosen by whoever caused it.  The endpoint says that the
continuity mechanism filters by the time of the declaration.  It does so in one of the two places
that use a declaration, and there with a time the client has written and against the incident at
hand, which need not be the one that brought the node into the ledger.

* `find_continuity_replacement` asks only whether the source is stored and clean.
* M3 compares the declared time with the time of the current containment.

`late_substitutes_unused`: in a run in which neither place meets a late declaration it would take,
no late declaration is used.
-/
import GovernorGateway.Semantics.Stable
import GovernorGateway.Semantics.Scripted

namespace GovernorGateway

open Effects

/-! ## 1. What a rejection offers -/

namespace Db

variable {db : Db} {x t : NodeId} {r : Replacement}

/-- A continuity node for the target has been exposed. -/
def Exposed (db : Db) (t : NodeId) : Prop :=
  ∃ e ∈ db.continuityExposures, ∃ p, db.payload? e.nodeId = some p ∧
    Json.find? p.stateContent "original_target" = some (.str t)

/-- A source is declared for the target that is stored and not in the ledger. -/
def SourceClean (db : Db) (t : NodeId) : Prop :=
  ∃ d, Keyed.lookup SubstituteDeclaration.targetNodeId db.substituteDeclarations t = some d ∧
    d.substituteSourceId ≠ "" ∧ d.substituteSourceId ∈ db.nodeIds ∧ d.substituteSourceId ∉ db.ledger

theorem replacementByExposure_eq_some (h : db.replacementByExposure t = some r) :
    db.Exposed t ∧ r.exposureId.isSome := by
  obtain ⟨e, he, hr⟩ := List.exists_of_findSome?_eq_some h
  split at hr
  · exact absurd hr (by simp)
  · rename_i p hp
    split at hr
    · rename_i target htarget
      split at hr
      · rename_i heq
        subst heq
        obtain rfl := Option.some.inj hr
        exact ⟨⟨e, he, p, hp, htarget⟩, rfl⟩
      · exact absurd hr (by simp)
    · exact absurd hr (by simp)

theorem replacementByExposure_eq_none : db.replacementByExposure t = none ↔ ¬ db.Exposed t := by
  constructor
  · rintro hnone ⟨e, he, p, hp, htarget⟩
    have hrow := List.findSome?_eq_none_iff.mp hnone e he
    simp [hp, htarget] at hrow
  · intro hnot
    by_contra hsome
    obtain ⟨r, hr⟩ := Option.ne_none_iff_exists'.mp hsome
    exact hnot (replacementByExposure_eq_some hr).1

theorem replacementByDeclaration_eq_some (h : db.replacementByDeclaration t = some r) :
    db.SourceClean t ∧ r.exposureId = none ∧ r.replacementFor = t := by
  unfold replacementByDeclaration at h
  split at h
  · exact absurd h (by simp)
  · rename_i d hd
    split at h
    · rename_i hclean
      obtain rfl := Option.some.inj h
      exact ⟨⟨d, hd, hclean⟩, rfl, rfl⟩
    · exact absurd h (by simp)

theorem replacementByDeclaration_eq_none :
    db.replacementByDeclaration t = none ↔ ¬ db.SourceClean t := by
  constructor
  · rintro hnone ⟨d, hd, hclean⟩
    simp only [replacementByDeclaration, hd] at hnone
    rw [if_pos hclean] at hnone
    exact absurd hnone (by simp)
  · intro hnot
    by_contra hsome
    obtain ⟨r, hr⟩ := Option.ne_none_iff_exists'.mp hsome
    exact hnot (replacementByDeclaration_eq_some hr).1

/-- The quarantined ancestors a replacement is looked for, the nearest first. -/
abbrev candidates (db : Db) (x : NodeId) : List NodeId :=
  db.quarantinedAncestors (db.edges.length + 1) [x] [] []

/-- **What is asked of a rejection.**  The first quarantined ancestor that has a replacement is no
late target, or has one that continuity has exposed. -/
def OfferSpares (db : Db) (late : List NodeId) (x : NodeId) : Prop :=
  ∀ nearer t further, db.candidates x = nearer ++ t :: further → t ∈ late →
    (∀ c ∈ nearer, ¬ db.Exposed c ∧ ¬ db.SourceClean c) → db.Exposed t ∨ ¬ db.SourceClean t

/-- The replacement is not a late declaration. -/
def Replacement.Timely (late : List NodeId) (r : Replacement) : Prop :=
  r.exposureId = none → r.replacementFor ∉ late

/-- **A rejection offers no late declaration if and only if it meets none it would take.** -/
theorem offer_timely_iff {late : List NodeId} :
    (∀ r, db.findContinuityReplacement x = some r → r.Timely late) ↔ db.OfferSpares late x := by
  have hor : ∀ c, (db.replacementByExposure c).or (db.replacementByDeclaration c) = none ↔
      ¬ db.Exposed c ∧ ¬ db.SourceClean c := by
    intro c
    rw [Option.or_eq_none_iff, replacementByExposure_eq_none, replacementByDeclaration_eq_none]
  constructor
  · intro htimely nearer t further hsplit hlate hnearer
    by_contra hnot
    rw [not_or, not_not] at hnot
    obtain ⟨hunexposed, hclean⟩ := hnot
    obtain ⟨r, hr⟩ : ∃ r, db.replacementByDeclaration t = some r := by
      rw [← Option.ne_none_iff_exists', ne_eq, replacementByDeclaration_eq_none, not_not]
      exact hclean
    obtain ⟨-, hexposure, hfor⟩ := replacementByDeclaration_eq_some hr
    refine htimely r (List.findSome?_eq_some_iff.mpr ⟨nearer, t, further, hsplit, ?_, ?_⟩) hexposure ?_
    · rw [replacementByExposure_eq_none.mpr hunexposed, Option.none_or]
      exact hr
    · exact fun c hc => (hor c).mpr (hnearer c hc)
    · rw [hfor]
      exact hlate
  · intro hspares r hfound hexposure hlate
    obtain ⟨nearer, t, further, hsplit, hr, hnearer⟩ := List.findSome?_eq_some_iff.mp hfound
    rcases Option.or_eq_some_iff.mp hr with hr | ⟨hnone, hr⟩
    · have hsome := (replacementByExposure_eq_some hr).2
      rw [hexposure] at hsome
      exact absurd hsome (by simp)
    · obtain ⟨hclean, -, hfor⟩ := replacementByDeclaration_eq_some hr
      rw [hfor] at hlate
      rcases hspares nearer t further hsplit hlate fun c hc => (hor c).mp (hnearer c hc) with h | h
      · exact replacementByExposure_eq_none.mp hnone h
      · exact h hclean

/-! ## 2. What a containment substitutes -/

/-- **What is asked of a containment.**  For a critical node that no checkpoint serves, no tainted
ancestor is a late target whose declaration passes the tests of M3. -/
def SubstitutionSpares (db : Db) (late : List NodeId) (containment : String)
    (ids : List NodeId) : Prop :=
  ∀ dep ∈ db.getCriticalDependents ids,
    db.snapshot.checkpoints.find? (db.snapshot.replayable dep containment) = none →
      ∀ t ∈ db.snapshot.relevantTainted dep, t ∈ late → db.snapshot.usable containment t = false

end Db

/-- No late declaration is used: neither found as a replacement, nor substituted. -/
def LateUnused (late : List NodeId) : Trans Call Call.Res Exc World
  | .store (.findContinuityReplacement _), _, r, _ => ∀ found, r = .ok (some found) → found.Timely late
  | .store (.commitNode .substitution p), _, _, _ => ∀ t,
      Json.find? p.stateContent "original_target" = some (.str t) → t ∉ late
  | _, _, _, _ => True

/-- Neither a rejection nor a containment meets a late declaration it would take. -/
def AvoidsLate (g : Setup) (late : List NodeId) : Trans Call Call.Res Exc World
  | .store (.findContinuityReplacement x), w, _, _ => w.db.OfferSpares late x
  | .store (.applyQuarantineTransaction event ids), w, _, _ =>
      event.designatorIdentity.isSome → g.settings.continuityEnabled = true →
        (w.db.applyQuarantineTransaction g.settings.maxTraversalDepth event ids).2.SubstitutionSpares
          late event.detectedAtUtc ids
  | _, _, _, _ => True

variable {g : Setup} {answers : Answers} {late : List NodeId} {α : Type}

/-- The calls but the commit of a substitution. -/
def Call.Direct (c : Call) : Prop := c.kind ≠ .commit .substitution

theorem Call.of_direct {ks : List CallKind} (h : ks.contains (.commit .substitution) = false) :
    Call.Of Call.Direct ks := by
  intro c hc hk
  rw [hk, ← List.contains_iff_mem, h] at hc
  exact absurd hc (by simp)

theorem lateUnused_of_direct {c : Call} {w w' : World} {r : Except Exc c.Res} (hc : c.Direct)
    (ht : restrict (Step g answers) (AvoidsLate g late) c w r w') : LateUnused late c w r w' := by
  cases c with
  | store c =>
    cases c with
    | findContinuityReplacement x =>
      obtain ⟨⟨rfl, -⟩, hspares⟩ := ht
      intro found hfound
      exact Db.offer_timely_iff.mpr hspares found (Except.ok.inj hfound)
    | commitNode site p =>
      cases site with
      | substitution => exact absurd rfl hc
      | _ => trivial
    | _ => trivial
  | _ => trivial

/-- A part that commits no substitution uses no late declaration. -/
theorem sat_direct {x : Handler α} (hx : x.Uses Call.Direct) (w : World) :
    Act.Sat (restrict (Step g answers) (AvoidsLate g late)) (LateUnused late) x
      (fun _ _ => True) w := by
  refine Prog.Uses.sat (I := fun _ => True) hx ?_ trivial
  intro c hc w₁ r w₂ ht _
  exact ⟨lateUnused_of_direct hc ht, trivial⟩

/-- Such a part in front of the rest of a handler. -/
theorem direct_bind {β : Type} {x : Handler α} {f : α → Handler β} {F : β → World → Prop} {w : World}
    (hx : x.Uses Call.Direct)
    (hf : ∀ a w', Act.Sat (restrict (Step g answers) (AvoidsLate g late)) (LateUnused late) (f a)
      (onOk F fun _ _ => True) w') :
    Act.Sat (restrict (Step g answers) (AvoidsLate g late)) (LateUnused late) (x >>= f)
      (onOk F fun _ _ => True) w := by
  rw [Act.sat_bind]
  refine (sat_direct hx w).mono ?_
  rintro (e | a) w' -
  · trivial
  · exact hf a w'

/-- A containment leaves a state in which continuity takes no late declaration. -/
theorem sat_contain_spares (x : NodeId) (identity reason : String) (source : Option String)
    (w : World) :
    Act.Sat (restrict (Step g answers) (AvoidsLate g late)) (LateUnused late)
      (contain g x identity reason source)
      (onOk (fun out w' => g.settings.continuityEnabled = true →
        w'.db.SubstitutionSpares late out.2.detectedAtUtc out.1) fun _ _ => True) w := by
  have hA : Call.Of Call.Direct [.repair, .ext] := Call.of_direct rfl
  unfold contain
  refine direct_bind (uses_store hA rfl) fun ids w₁ => ?_
  refine direct_bind (uses_recurrenceHook g (Call.of_direct rfl) _ _) fun _ w₂ => ?_
  refine direct_bind (uses_read (Call.of_direct rfl) rfl) fun digest w₃ => ?_
  refine direct_bind (uses_ext hA _ rfl) fun eventId w₄ => ?_
  refine direct_bind (uses_stampNow (Call.of_direct rfl)) fun detected w₅ => ?_
  rw [Act.sat_bind]
  rintro r w₆ ⟨⟨rfl, rfl⟩, hspares⟩
  exact ⟨trivial, hspares rfl⟩

/-- Continuity commits no substitution for a late target. -/
theorem sat_continuity_spares (hlaw : answers.Lawful) (ids : List NodeId) (event : QuarantineEvent)
    (w : World) (hspares : w.db.SubstitutionSpares late event.detectedAtUtc ids) :
    Act.Sat (restrict (Step g answers) (AvoidsLate g late)) (LateUnused late)
      (attemptSafeContinuity g ids event) (fun _ _ => True) w := by
  have hsolo := solo_step (g := g) hlaw (AvoidsLate g late)
  have hframe : Frame (restrict (Step g answers) (AvoidsLate g late)) (LateUnused late)
      fun _ => True := by
    intro c w₁ r w₂ hc _ ht
    refine ⟨lateUnused_of_direct (fun hk => ?_) ht, trivial⟩
    cases c with
    | store c =>
      cases c with
      | commitNode site p => exact hc trivial
      | updateRepairCandidate x rc =>
        rw [Call.kind, Store.kind] at hk
        split at hk <;> exact absurd hk (by simp)
      | _ => exact absurd hk (by simp [Call.kind, Store.kind])
    | sync k => exact hc
    | ext e => cases e <;> exact absurd hk (by simp [Call.kind, Ext.kind])
    | _ => exact absurd hk (by simp [Call.kind])
  refine (sat_attemptSafeContinuity (U := fun _ => True) hsolo ids event w hframe
    (fun _ _ => ⟨hframe, fun _ _ _ _ => trivial, ?_, ?_⟩) trivial).mono fun _ _ _ => trivial
  · intro xs w₁ ys w₂ ht x hx
    obtain ⟨zs, hzs, hperm⟩ := hsolo.acts.ext ht |>.1
    obtain rfl := Except.ok.inj hzs
    exact hperm.subset hx
  · intro site p hnode
    refine keeps_commitShared (J := fun _ => True) (fun k w₁ r w₂ => by cases k <;> trivial) ?_
    intro w₁ r w₂ _ ht
    refine ⟨?_, trivial⟩
    cases hnode with
    | replay => trivial
    | @substitute _ dep d u tainted source hdep htainted hsub hcovers hparents hid hu hnone htarget =>
      intro t ht hlate
      rw [htarget] at ht
      obtain rfl := Json.str.inj (Option.some.inj ht)
      have husable := Snapshot.usable_iff.mpr ⟨_, hsub⟩
      rw [hspares dep hdep hnone tainted htainted hlate] at husable
      exact absurd husable (by simp)

/-! ## 3. Requests and runs -/

/-- What follows a containment. -/
theorem sat_recover_spares (hlaw : answers.Lawful) (ids : List NodeId) (event : QuarantineEvent)
    (root : NodeId) (f : ContinuityResults → Response) (w : World)
    (hspares : g.settings.continuityEnabled = true →
      w.db.SubstitutionSpares late event.detectedAtUtc ids) :
    Act.Sat (restrict (Step g answers) (AvoidsLate g late)) (LateUnused late)
      (attemptSafeContinuity g ids event >>= fun continuity =>
        attemptReconstruction g root >>= fun _ => pure (f continuity))
      (onOk (fun _ _ => True) fun _ _ => True) w := by
  have hcontinuity : Act.Sat (restrict (Step g answers) (AvoidsLate g late)) (LateUnused late)
      (attemptSafeContinuity g ids event) (fun _ _ => True) w := by
    cases hon : g.settings.continuityEnabled with
    | true => exact sat_continuity_spares hlaw ids event w (hspares hon)
    | false =>
      rw [attemptSafeContinuity, hon]
      exact trivial
  rw [Act.sat_bind]
  refine hcontinuity.mono ?_
  rintro (e | continuity) w₁ -
  · trivial
  · refine direct_bind (uses_attemptReconstruction g (Call.of_direct rfl)
      (fun _ => Call.of_direct rfl) root) fun _ w₂ => ?_
    trivial

/-- `/designate`. -/
theorem sat_designate_spares (hlaw : answers.Lawful) (header : Option String) (e : DesignationEvent)
    (w : World) :
    Act.Sat (restrict (Step g answers) (AvoidsLate g late)) (LateUnused late)
      (designatePoison g header e) (onOk (fun _ _ => True) fun _ _ => True) w := by
  have hsync : ∀ k w r w', LateUnused late (.sync k) w r w' := fun _ _ _ _ => trivial
  refine direct_bind (uses_verifyRole g (Call.of_direct rfl) _ _) fun claims w₁ => ?_
  refine direct_bind (uses_limitDesignations g (Call.of_direct rfl) _ _) fun _ w₂ => ?_
  refine sat_withExclusive hsync
    (sat_withTransaction hsync (uses_designateLocked g (Call.of_noTx rfl) e _) ?_)
  refine direct_bind (uses_read (Call.of_direct rfl) rfl) fun exists_ w₃ => ?_
  refine direct_bind (uses_read (Call.of_direct rfl) rfl) fun quarantined w₄ => ?_
  split
  · trivial
  · split
    · trivial
    · rw [Act.sat_bind]
      refine (sat_contain_spares _ _ _ _ w₄).mono ?_
      rintro (exc | ⟨ids, event⟩) w₅ h₅
      · trivial
      · exact sat_recover_spares hlaw ids event e.poisonedNodeId
          (fun continuity => { reply := .designated event continuity }) w₅ h₅

/-- `/detector/{source}`. -/
theorem sat_detector_spares (hlaw : answers.Lawful) (header : Option String) (source : String)
    (raw : RawEvent) (w : World) :
    Act.Sat (restrict (Step g answers) (AvoidsLate g late)) (LateUnused late)
      (ingestDetectorEvent g header source raw) (onOk (fun _ _ => True) fun _ _ => True) w := by
  have hsync : ∀ k w r w', LateUnused late (.sync k) w r w' := fun _ _ _ _ => trivial
  refine direct_bind (uses_verifyRole g (Call.of_direct rfl) _ _) fun _ w₁ => ?_
  split
  · trivial
  · rename_i src _
    refine direct_bind (uses_recordRawEvent (Call.of_direct rfl) _ _) fun _ w₂ => ?_
    refine direct_bind (Act.uses_raiseIf _ _) fun _ w₃ => ?_
    split
    · trivial
    · rename_i e _
      refine direct_bind (uses_verifyRole g (Call.of_direct rfl) _ _) fun claims w₄ => ?_
      refine direct_bind (uses_limitDesignations g (Call.of_direct rfl) _ _) fun _ w₅ => ?_
      rw [Act.sat_bind]
      refine (sat_withExclusive hsync (Q := onOk (fun out w' => ∀ ids event, out = some (ids, event) →
        g.settings.continuityEnabled = true →
          w'.db.SubstitutionSpares late event.detectedAtUtc ids) fun _ _ => True) ?_).mono ?_
      · refine direct_bind (uses_read (Call.of_direct rfl) rfl) fun exists_ w₆ => ?_
        refine direct_bind (uses_read (Call.of_direct rfl) rfl) fun quarantined w₇ => ?_
        split
        · trivial
        · split
          · exact fun _ _ h => absurd h (by simp)
          · rw [Act.sat_bind]
            refine (sat_contain_spares _ _ _ _ w₇).mono ?_
            rintro (exc | out) w₈ h₈
            · trivial
            · rintro ids event hout
              obtain rfl := Option.some.inj hout
              exact h₈
      · rintro (exc | out) w₆ h₆
        · trivial
        · cases out with
          | none => trivial
          | some out =>
            exact sat_recover_spares hlaw out.1 out.2 e.poisonedNodeId
              (fun continuity => { reply := .designated out.2 continuity }) w₆ (h₆ _ _ rfl)

/-- **No request uses a late declaration** that it avoids. -/
theorem sat_handle_spares (hlaw : answers.Lawful) (req : Request) (w : World) :
    Act.Sat (restrict (Step g answers) (AvoidsLate g late)) (LateUnused late) (req.handle g)
      (onOk (fun _ _ => True) fun _ _ => True) w := by
  have hdirect : (req.handle g).Uses Call.Direct →
      Act.Sat (restrict (Step g answers) (AvoidsLate g late)) (LateUnused late) (req.handle g)
        (onOk (fun _ _ => True) fun _ _ => True) w := by
    intro hx
    refine (sat_direct hx w).mono ?_
    rintro (e | a) w' -
    · trivial
    · trivial
  cases req with
  | designate header e => exact sat_designate_spares hlaw header e w
  | detector header source raw => exact sat_detector_spares hlaw header source raw w
  | _ => exact hdirect (uses_handle g _ (Call.of_direct rfl))

/-- The targets whose declaration came too late, after a request.  A later declaration takes the
place of an earlier one for the same target, so the last one counts. -/
def lateTargets (late : List NodeId) (w : World) (request : Request)
    (outcome : Except Exc Response) : List NodeId :=
  match request, outcome with
  | .declareSubstitute _ target _ _, .ok _ =>
    if target.getD "" ∈ w.db.ledger then target.getD "" :: late
    else late.filter (· ≠ target.getD "")
  | _, _ => late

/-- A property of every call of a run and of the targets declared too late before its request. -/
def EachLate (P : List NodeId → Trans Call Call.Res Exc World) :
    List NodeId → World → List Handled → Prop
  | _, _, [] => True
  | late, w, k :: hs => (∀ e ∈ k.trace, P late e.call e.before e.answer e.after) ∧
    EachLate P (lateTargets late w k.request k.outcome) k.after hs

/-- **Late substitutes are never used**, in a run in which no rejection and no containment meets one
it would take. -/
theorem late_substitutes_unused (hlaw : answers.Lawful) {w w' : World} {hs : List Handled}
    (hrun : Run g (Step g answers) w hs w') :
    ∀ late, EachLate (AvoidsLate g) late w hs → EachLate LateUnused late w hs := by
  induction hrun with
  | nil w => exact fun _ _ => trivial
  | @cons k w w' hs hexec _ ih =>
    rintro late ⟨havoids, hrest⟩
    have hunused := (Prog.Sat.sound (sat_handle_spares hlaw k.request w)
      (hexec.restrict havoids)).1
    exact ⟨hunused, ih _ hrest⟩

/-- The targets declared too late after the requests of a log. -/
def lateAfter : List NodeId → World → List (Request × Except Exc Response × World) → List NodeId
  | late, _, [] => late
  | late, w, (request, outcome, after) :: rest =>
    lateAfter (lateTargets late w request outcome) after rest

theorem EachLate.last {P : List NodeId → Trans Call Call.Res Exc World} {k : Handled} :
    ∀ {hs : List Handled} {late : List NodeId} {w : World}, EachLate P late w (hs ++ [k]) →
      ∀ e ∈ k.trace, P (lateAfter late w (hs.map Handled.entry)) e.call e.before e.answer e.after
  | [], _, _, h => h.1
  | _ :: hs, _, _, h =>
    have hrest : EachLate P _ _ (hs ++ [k]) := h.2
    hrest.last

/-- What holds of every call whatever was declared too late. -/
theorem EachLate.of_forall {P : List NodeId → Trans Call Call.Res Exc World} :
    ∀ {hs : List Handled}, (∀ k ∈ hs, ∀ e ∈ k.trace, ∀ late, P late e.call e.before e.answer e.after) →
      ∀ (late : List NodeId) (w : World), EachLate P late w hs
  | [], _, _, _ => trivial
  | k :: _, h, late, _ => ⟨fun e he => h k List.mem_cons_self e he late,
      EachLate.of_forall (fun j hj => h j (List.mem_cons_of_mem _ hj)) _ _⟩

/-! ## 4. Late substitutes -/

def openSubstitute (target source : NodeId) : Request :=
  .declareSubstitute (some "Bearer admin") (some target) (some source) (.str "2025-10-27")

/-- A node, its report, and then a substitute for it. -/
def substituteRequests : List Request :=
  [openSubmission "node-1" ["clean-parent-1"], openSubmission "source-1" ["clean-parent-1"],
    openReport "node-1", openSubstitute "node-1" "source-1"]

/-- Whether a rejection finds no declared source that is clean, and a containment no critical
node. -/
def meetsNothing : Call → World → Bool
  | .store (.findContinuityReplacement x), w =>
    (w.db.candidates x).all fun c => (w.db.replacementByDeclaration c).isNone
  | .store (.applyQuarantineTransaction event ids), w =>
    (w.db.applyQuarantineTransaction openSetup.settings.maxTraversalDepth event
      ids).2.getCriticalDependents ids |>.isEmpty
  | _, _ => true

theorem avoidsLate_of_check {c : Call} {w w' : World} {r : Except Exc c.Res}
    (h : meetsNothing c w = true) (late : List NodeId) : AvoidsLate openSetup late c w r w' := by
  cases c with
  | store c =>
    cases c with
    | findContinuityReplacement x =>
      intro nearer t further hsplit _ _
      have hnone := List.all_eq_true.mp h t (by rw [hsplit]; simp)
      exact Or.inr (Db.replacementByDeclaration_eq_none.mp (Option.isNone_iff_eq_none.mp hnone))
    | applyQuarantineTransaction event ids =>
      intro _ _ dep hdep
      rw [List.isEmpty_iff.mp h] at hdep
      exact absurd hdep (by simp)
    | _ => trivial
  | _ => trivial

/-- The source of the late declaration is quarantined before anybody asks for it. -/
theorem late_substitutes_quarantined : ∃ hs w,
    Run openSetup (Step openSetup Answers.lawful) (World.initial openSetup {} none) hs w ∧
      hs.map Handled.request = substituteRequests ++
        [openReport "source-1", openSubmission "node-2" ["node-1"]] ∧
      EachLate LateUnused [] (World.initial openSetup {} none) hs ∧
      w.db.taintedRejections.map (fun r => (r.nodeId, r.offered)) = [("node-2", false)] := by
  obtain ⟨hs, hrun, hreqs, hmeets⟩ := Script.exists_checked_run openSetup meetsNothing
    (P := fun c w r w' => ∀ late, AvoidsLate openSetup late c w r w')
    (fun _ _ _ _ h _ => avoidsLate_of_check h)
    (openRun (substituteRequests ++ [openReport "source-1", openSubmission "node-2" ["node-1"]]))
    (World.initial openSetup {} none) (by decide +kernel)
  refine ⟨hs, _, hrun, ?_, ?_, by decide +kernel⟩
  · rw [hreqs]
    rfl
  · exact late_substitutes_unused (fun _ _ h => h) hrun [] (EachLate.of_forall hmeets [] _)

/-- Whether the call finds no declaration for the node. -/
def findsNoDeclaration : Call → World → Bool
  | .store (.findContinuityReplacement x), w =>
    match w.db.findContinuityReplacement x with
    | some found => found.exposureId.isSome || found.replacementFor ≠ "node-1"
    | none => true
  | _, _ => true

/-- **A late substitute that is offered.**  The node is in the ledger when its substitute is
declared; the next submission with the node as a parent is rejected and offered the substitute. -/
theorem late_substitutes_offered : ¬ ∀ hs w,
    Run openSetup (Step openSetup Answers.lawful) (World.initial openSetup {} none) hs w →
      EachLate LateUnused [] (World.initial openSetup {} none) hs := by
  intro hall
  obtain ⟨hs, k, hrun, hlog, -, e, he, hfail, hanswer, -⟩ :=
    Script.exists_failing_run openSetup findsNoDeclaration
      (openRun substituteRequests) (openScript "4") (openSubmission "node-2" ["node-1"])
      (World.initial openSetup {} none) (by decide +kernel)
  have hunused := (hall _ _ hrun).last e he
  have hlate : lateAfter [] (World.initial openSetup {} none) (Script.log openSetup
      (openRun substituteRequests) (World.initial openSetup {} none)) = ["node-1"] := by
    decide +kernel
  rw [hlog, hlate] at hunused
  obtain ⟨c, w₁, r, w₂⟩ := e
  dsimp only at hfail hanswer hunused
  cases c with
  | store c =>
    cases c with
    | findContinuityReplacement x =>
      subst hanswer
      simp only [findsNoDeclaration] at hfail
      split at hfail
      · rename_i found hfound
        simp only [Bool.or_eq_false_iff, Option.isSome_eq_false_iff, Option.isNone_iff_eq_none,
          decide_eq_false_iff_not, not_not] at hfail
        refine hunused found (congrArg Except.ok hfound) hfail.1 ?_
        rw [hfail.2]
        exact List.mem_singleton_self _
      · exact absurd hfail (by simp)
    | _ => exact absurd hfail (by simp [findsNoDeclaration])
  | _ => exact absurd hfail (by simp [findsNoDeclaration])

end GovernorGateway
