/-
# What is stored stays

`Db.Grows db db'` says what a database can have become, table by table.

* The rows of eight tables are there FOR GOOD: `db'` has them, in the same places, and new ones
  behind them.
* The row of a rejection moves forward only: an offer that was made is not made again, and a
  completion is not taken back.
* In the other tables a row can be replaced, but its key stays.

`tables_only_grow` has this between any two moments of any interleaving.  An open transaction works
on a copy; nobody else writes while it is open, so its `COMMIT` puts a database in the place of one
it has grown from: no write of another task is lost.
-/
import GovernorGateway.Effects.Heard
import GovernorGateway.Properties.Serializable

namespace GovernorGateway

open Effects

/-! ## 1. Rejections -/

namespace TaintedRejection

/-- What the row of a rejection can become. -/
structure Later (r r' : TaintedRejection) : Prop where
  nodeId : r'.nodeId = r.nodeId
  taintedParentId : r'.taintedParentId = r.taintedParentId
  rejectedAtUtc : r'.rejectedAtUtc = r.rejectedAtUtc
  authorIdentity : r'.authorIdentity = r.authorIdentity
  offered : r.offered = true → r'.offered = true ∧ r'.offeredReplacement = r.offeredReplacement ∧
    r'.replacementType = r.replacementType
  completed : r.completed = true → r'.completed = true ∧ r'.completedBy = r.completedBy

theorem Later.refl (r : TaintedRejection) : r.Later r :=
  ⟨rfl, rfl, rfl, rfl, fun h => ⟨h, rfl, rfl⟩, fun h => ⟨h, rfl⟩⟩

theorem Later.trans {r r' r'' : TaintedRejection} (h : r.Later r') (h' : r'.Later r'') :
    r.Later r'' where
  nodeId := h'.nodeId.trans h.nodeId
  taintedParentId := h'.taintedParentId.trans h.taintedParentId
  rejectedAtUtc := h'.rejectedAtUtc.trans h.rejectedAtUtc
  authorIdentity := h'.authorIdentity.trans h.authorIdentity
  offered := by
    intro hr
    obtain ⟨h₁, h₂, h₃⟩ := h.offered hr
    obtain ⟨h₁', h₂', h₃'⟩ := h'.offered h₁
    exact ⟨h₁', h₂'.trans h₂, h₃'.trans h₃⟩
  completed := by
    intro hr
    obtain ⟨h₁, h₂⟩ := h.completed hr
    obtain ⟨h₁', h₂'⟩ := h'.completed h₁
    exact ⟨h₁', h₂'.trans h₂⟩

/-- Each row has gone forward in its place; new ones may have come behind them. -/
def Forward (rows rows' : List TaintedRejection) : Prop :=
  ∀ (i : ℕ) (r : TaintedRejection), rows[i]? = some r → ∃ r', rows'[i]? = some r' ∧ r.Later r'

theorem Forward.refl (rows : List TaintedRejection) : Forward rows rows :=
  fun _ r hr => ⟨r, hr, Later.refl r⟩

theorem Forward.trans {rows rows' rows'' : List TaintedRejection} (h : Forward rows rows')
    (h' : Forward rows' rows'') : Forward rows rows'' := by
  intro i r hr
  obtain ⟨r', hr', hlater⟩ := h i r hr
  obtain ⟨r'', hr'', hlater'⟩ := h' i r' hr'
  exact ⟨r'', hr'', hlater.trans hlater'⟩

theorem Forward.append (rows rest : List TaintedRejection) : Forward rows (rows ++ rest) := by
  intro i r hr
  obtain ⟨hi, -⟩ := List.getElem?_eq_some_iff.mp hr
  exact ⟨r, by rw [List.getElem?_append_left hi, hr], Later.refl r⟩

theorem Forward.map {f : TaintedRejection → TaintedRejection}
    (hf : ∀ r : TaintedRejection, r.Later (f r))
    (rows : List TaintedRejection) : Forward rows (rows.map f) := by
  intro i r hr
  exact ⟨f r, by rw [List.getElem?_map, hr]; rfl, hf r⟩

theorem Forward.foldl {β : Type} {f : List TaintedRejection → β → List TaintedRejection}
    (hf : ∀ rows b, Forward rows (f rows b)) (bs : List β) (rows : List TaintedRejection) :
    Forward rows (bs.foldl f rows) := by
  induction bs generalizing rows with
  | nil => exact Forward.refl rows
  | cons b bs ih => exact (hf rows b).trans (ih (f rows b))

/-- An offer is recorded where there is none. -/
theorem forward_offer (db : Db) (x replacement : NodeId) (type : ReplacementType) :
    Forward db.taintedRejections (db.recordTaintedOffer x replacement type).taintedRejections := by
  refine Forward.map (fun r => ?_) _
  split
  · rename_i h
    have hno : ¬ r.offered = true := by simpa using h.2
    exact ⟨rfl, rfl, rfl, rfl, fun hr => absurd hr hno, fun hr => ⟨hr, rfl⟩⟩
  · exact Later.refl r

/-- A completion is recorded where there is none. -/
theorem forward_completion (db : Db) (p : Payload) :
    Forward db.taintedRejections (db.checkRetryCompletion p).taintedRejections := by
  refine Forward.foldl (fun rows done => Forward.map (fun r => ?_) rows) _ _
  split
  · rename_i h
    have hno : ¬ r.completed = true := by simpa using h.2
    exact ⟨rfl, rfl, rfl, rfl, fun hr => ⟨hr, rfl, rfl⟩, fun hr => absurd hr hno⟩
  · exact Later.refl r

end TaintedRejection

/-! ## 2. Databases -/

/-- What a database can have become. -/
structure Db.Grows (db db' : Db) : Prop where
  nodes : db.nodes <+: db'.nodes
  edges : db.edges <+: db'.edges
  ledger : db.ledger <+: db'.ledger
  signalAttempts : db.signalAttempts <+: db'.signalAttempts
  detectorEvents : db.detectorEvents <+: db'.detectorEvents
  withdrawalLedger : db.withdrawalLedger <+: db'.withdrawalLedger
  shadowDecisions : db.shadowDecisions <+: db'.shadowDecisions
  continuityExposures : db.continuityExposures <+: db'.continuityExposures
  taintedRejections : TaintedRejection.Forward db.taintedRejections db'.taintedRejections
  quarantineEvents :
    Keyed.Keeps QuarantineEvent.quarantineEventId db.quarantineEvents db'.quarantineEvents
  repairCandidates : Keyed.Keeps Prod.fst db.repairCandidates db'.repairCandidates
  checkpoints : Keyed.Keeps Checkpoint.checkpointId db.checkpoints db'.checkpoints
  externalEffects :
    Keyed.Keeps ExternalEffect.idempotencyKey db.externalEffects db'.externalEffects
  reintegrationHorizon : Keyed.Keeps Horizon.nodeId db.reintegrationHorizon db'.reintegrationHorizon
  recurrenceEvents : Keyed.Keeps RecurrenceEvent.eventId db.recurrenceEvents db'.recurrenceEvents
  calibrationRuns : Keyed.Keeps CalibrationRun.runId db.calibrationRuns db'.calibrationRuns
  reintegrationEvidence : Keyed.Keeps ReintegrationEvidence.nodeId db.reintegrationEvidence
    db'.reintegrationEvidence
  substituteDeclarations : Keyed.Keeps SubstituteDeclaration.targetNodeId db.substituteDeclarations
    db'.substituteDeclarations

namespace Db.Grows

variable {db db' db'' : Db}

theorem refl (db : Db) : db.Grows db where
  nodes := List.prefix_refl _
  edges := List.prefix_refl _
  ledger := List.prefix_refl _
  signalAttempts := List.prefix_refl _
  detectorEvents := List.prefix_refl _
  withdrawalLedger := List.prefix_refl _
  shadowDecisions := List.prefix_refl _
  continuityExposures := List.prefix_refl _
  taintedRejections := TaintedRejection.Forward.refl _
  quarantineEvents := Keyed.Keeps.refl _
  repairCandidates := Keyed.Keeps.refl _
  checkpoints := Keyed.Keeps.refl _
  externalEffects := Keyed.Keeps.refl _
  reintegrationHorizon := Keyed.Keeps.refl _
  recurrenceEvents := Keyed.Keeps.refl _
  calibrationRuns := Keyed.Keeps.refl _
  reintegrationEvidence := Keyed.Keeps.refl _
  substituteDeclarations := Keyed.Keeps.refl _

theorem trans (h : db.Grows db') (h' : db'.Grows db'') : db.Grows db'' where
  nodes := h.nodes.trans h'.nodes
  edges := h.edges.trans h'.edges
  ledger := h.ledger.trans h'.ledger
  signalAttempts := h.signalAttempts.trans h'.signalAttempts
  detectorEvents := h.detectorEvents.trans h'.detectorEvents
  withdrawalLedger := h.withdrawalLedger.trans h'.withdrawalLedger
  shadowDecisions := h.shadowDecisions.trans h'.shadowDecisions
  continuityExposures := h.continuityExposures.trans h'.continuityExposures
  taintedRejections := h.taintedRejections.trans h'.taintedRejections
  quarantineEvents := h.quarantineEvents.trans h'.quarantineEvents
  repairCandidates := h.repairCandidates.trans h'.repairCandidates
  checkpoints := h.checkpoints.trans h'.checkpoints
  externalEffects := h.externalEffects.trans h'.externalEffects
  reintegrationHorizon := h.reintegrationHorizon.trans h'.reintegrationHorizon
  recurrenceEvents := h.recurrenceEvents.trans h'.recurrenceEvents
  calibrationRuns := h.calibrationRuns.trans h'.calibrationRuns
  reintegrationEvidence := h.reintegrationEvidence.trans h'.reintegrationEvidence
  substituteDeclarations := h.substituteDeclarations.trans h'.substituteDeclarations

end Db.Grows

theorem Lineage.prefix_commitNode (sha256 : String → String) (p : Payload) (L : Lineage) :
    L.nodes <+: (L.commitNode sha256 p).2.nodes ∧ L.edges <+: (L.commitNode sha256 p).2.edges := by
  unfold Lineage.commitNode
  split
  · exact ⟨List.prefix_refl _, List.prefix_refl _⟩
  · exact ⟨Keyed.prefix_foldl_insertOrIgnore [_] _, Keyed.prefix_foldl_insertOrIgnore _ _⟩

theorem Db.keeps_classifyAll (visited : List NodeId) (rollback : Bool) : ∀ (xs : List NodeId) (db : Db),
    Keyed.Keeps Prod.fst db.repairCandidates (classifyAll visited rollback xs db).repairCandidates
  | [], db => Keyed.Keeps.refl _
  | x :: xs, db => by
    rw [classifyAll]
    cases db.classify visited rollback x with
    | none => exact Db.keeps_classifyAll visited rollback xs db
    | some rc =>
      exact (Keyed.keeps_insertOrReplace db.repairCandidates (x, rc)).trans
        (Db.keeps_classifyAll visited rollback xs (db.setRepairCandidate x rc))

/-- **One call of the store.** -/
theorem Store.grows_exec (g : Setup) (c : Store) (db : Db) : db.Grows (c.exec g db).2 := by
  have h := Db.Grows.refl db
  cases c with
  | commitNode site p =>
    obtain ⟨hnodes, hedges⟩ := Lineage.prefix_commitNode g.env.sha256 p db.toLineage
    refine { h with nodes := hnodes, edges := hedges, ledger := ?_ }
    change db.ledger <+: (db.toLineage.commitNode g.env.sha256 p).2.ledger
    rw [Lineage.commitNode_ledger]
  | computeBlastRadius root =>
    obtain ⟨rcs, hrcs⟩ := Db.computeBlastRadius_snd g.settings.maxTraversalDepth root db
    have hkeeps := Db.keeps_classifyAll (db.toLineage.traverse g.settings.maxTraversalDepth root)
      (db.hasExternalEffects (sortedSet (db.toLineage.traverse g.settings.maxTraversalDepth root)))
      (db.affectedCompactions (sortedSet (db.toLineage.traverse g.settings.maxTraversalDepth root))) db
    change Keyed.Keeps Prod.fst db.repairCandidates
      (db.computeBlastRadius g.settings.maxTraversalDepth root).2.repairCandidates at hkeeps
    simp only [Store.exec]
    rw [hrcs] at hkeeps ⊢
    exact { h with repairCandidates := hkeeps }
  | applyQuarantineTransaction event ids =>
    exact { h with
      ledger := Keyed.prefix_foldl_insertOrIgnore ids db.ledger
      quarantineEvents := Keyed.keeps_insertOrReplace _ _ }
  | applyWithdrawalTransaction event ids now =>
    exact { h with
      withdrawalLedger := Keyed.prefix_foldl_insertOrIgnore _ _
      recurrenceEvents := Keyed.keeps_insertOrReplace _ _ }
  | updateRepairCandidate x rc =>
    exact { h with repairCandidates := Keyed.keeps_insertOrReplace _ _ }
  | recordTaintedRejection x parent at_ author =>
    exact { h with taintedRejections := TaintedRejection.Forward.append _ _ }
  | recordTaintedOffer x replacement type =>
    exact { h with taintedRejections := TaintedRejection.forward_offer db x replacement type }
  | checkRetryCompletion p =>
    exact { h with taintedRejections := TaintedRejection.forward_completion db p }
  | recordShadowDecision d =>
    simp only [Store.exec, Db.recordShadowDecision]
    split
    · exact h
    · exact { h with shadowDecisions := List.prefix_append _ _ }
  | recordReintegration x predecessor horizon now =>
    exact { h with reintegrationHorizon := Keyed.keeps_insertOrReplace _ _ }
  | recordReintegrationEvidence e =>
    exact { h with reintegrationEvidence := Keyed.keeps_insertOrReplace _ _ }
  | recordContinuityExposure e =>
    exact { h with continuityExposures := Keyed.prefix_foldl_insertOrIgnore [e] _ }
  | recordSignalAttempt source x kind outcome now =>
    exact { h with signalAttempts := List.prefix_append _ _ }
  | recordDetectorEvent e =>
    exact { h with detectorEvents := Keyed.prefix_foldl_insertOrIgnore [e] _ }
  | addCheckpoint c => exact { h with checkpoints := Keyed.keeps_insertOrReplace _ _ }
  | addSubstituteDeclaration d =>
    exact { h with substituteDeclarations := Keyed.keeps_insertOrReplace _ _ }
  | addExternalEffect key x type now =>
    exact { h with externalEffects := Keyed.keeps_insertOrReplace _ _ }
  | renewTrust x horizon now =>
    refine { h with reintegrationHorizon := Keyed.keeps_map (fun r => ?_) _ }
    split
    · rfl
    · rfl
  | recordCalibrationRun r => exact { h with calibrationRuns := Keyed.keeps_insertOrReplace _ _ }
  | _ => exact h

/-! ## 3. Any interleaving -/

section Interleavings

variable {ι : Type} [DecidableEq ι] {g : Setup} {answers : Answers}

/-- What is committed has grown from `db₀`, and the copy of an open transaction from what is
committed. -/
def Gateway.GrownFrom (db₀ : Db) (s : Gateway ι) : Prop :=
  db₀.Grows s.db ∧ ∀ i d, s.tx = some (i, d) → s.db.Grows d

/-- **One step of one task.**  While a transaction is open nobody else writes, so that what its copy
has grown from is still what is committed. -/
theorem Gateway.GrownFrom.step {db₀ : Db} {s s' : Gateway ι} {i : ι} {c : Call} {r : Except Exc c.Res}
    (ht : TaskStep g answers i c s r s') (h : s.GrownFrom db₀) : s'.GrownFrom db₀ := by
  obtain ⟨hdb, htx⟩ := h
  cases c with
  | ext e =>
    rw [ht.2]
    exact ⟨hdb, htx⟩
  | getAdapterKey =>
    rw [ht.2]
    exact ⟨hdb, htx⟩
  | setAdapterKey key =>
    rw [ht.2]
    exact ⟨hdb, htx⟩
  | store c =>
    simp only [TaskStep] at ht
    split at ht
    · rename_i hs
      rw [ht.2]
      refine ⟨hdb.trans (c.grows_exec g s.db), fun j d hd => ?_⟩
      rw [hs] at hd
      exact absurd hd (by simp)
    · rename_i j d hs
      split at ht
      · rw [ht.2]
        refine ⟨hdb, fun k d' hd => ?_⟩
        rw [← (Prod.mk.inj (Option.some.inj hd)).2]
        exact (htx j d hs).trans (c.grows_exec g d)
      · rw [ht.1]
        exact ⟨hdb, htx⟩
  | sync k =>
    cases k with
    | begin =>
      rcases ht with ⟨-, -, rfl⟩ | ⟨-, -, rfl⟩
      · refine ⟨hdb, fun j d hd => ?_⟩
        rw [← (Prod.mk.inj (Option.some.inj hd)).2]
        exact Db.Grows.refl s.db
      · exact ⟨hdb, htx⟩
    | commit =>
      obtain ⟨d, hs, -, rfl⟩ := ht
      exact ⟨hdb.trans (htx i d hs), by simp⟩
    | rollback =>
      obtain ⟨d, -, -, rfl⟩ := ht
      exact ⟨hdb, by simp⟩
    | _ =>
      obtain ⟨l, -, -, rfl⟩ := ht
      exact ⟨hdb, htx⟩

theorem Gateway.GrownFrom.run {db₀ : Db}
    {p p' : Pool ι Call Call.Res Exc (Gateway ι) (Except Exc Response)}
    (hrun : Relation.ReflTransGen (Pool.Step (TaskStep g answers)) p p')
    (h : p.state.GrownFrom db₀) : p'.state.GrownFrom db₀ := by
  induction hrun with
  | refl => exact h
  | tail _ hstep ih =>
    cases hstep with
    | call i hp ht => exact ih.step ht

/-- **What is stored stays.**  Between any two moments of any interleaving what is committed only
grows; and so does, from what is committed, the copy of a transaction that is open. -/
theorem tables_only_grow {req : ι → Request} {s : Gateway ι} (hs : s.tx = none)
    {p p' : Pool ι Call Call.Res Exc (Gateway ι) (Except Exc Response)}
    (hrun : Relation.ReflTransGen (Pool.Step (TaskStep g answers)) (s.serve g req) p)
    (hrun' : Relation.ReflTransGen (Pool.Step (TaskStep g answers)) p p') :
    p.state.db.Grows p'.state.db ∧ ∀ i d, p'.state.tx = some (i, d) → p'.state.db.Grows d := by
  have hstart : s.GrownFrom s.db := by
    refine ⟨Db.Grows.refl s.db, fun i d hd => ?_⟩
    rw [hs] at hd
    exact absurd hd (by simp)
  have hmid : p.state.GrownFrom p.state.db :=
    ⟨Db.Grows.refl p.state.db, (Gateway.GrownFrom.run hrun hstart).2⟩
  exact Gateway.GrownFrom.run hrun' hmid

end Interleavings

/-! ## 4. Two submissions of one id, from the moment the first has its transaction -/

def duelMiddle : Pool (Fin 3) Call Call.Res Exc (Gateway (Fin 3)) (Except Exc Response) :=
  Pool.schedule (fun i => (openScript (toString i.val)).taskStep openSetup i) (duelTurns.take 1)
    (duelStart.serve openSetup duelRequests)

theorem tables_only_grow_duel : duelMiddle.state.tx.isSome = true ∧ ∃ p',
    Relation.ReflTransGen (Pool.Step (TaskStep openSetup Answers.lawful)) duelMiddle p' ∧
    p'.state.db.nodeIds = ["clean-parent-1", "node-1"] ∧ duelMiddle.state.db.Grows p'.state.db := by
  have hrun : Relation.ReflTransGen (Pool.Step (TaskStep openSetup Answers.lawful))
      (duelStart.serve openSetup duelRequests) duelMiddle := by
    unfold duelMiddle
    exact Script.schedule_run _ openSetup _ (duelStart.serve openSetup duelRequests)
  have hrun' := Script.schedule_run (fun i => openScript (toString i.val)) openSetup (duelTurns.drop 1)
    duelMiddle
  exact ⟨by decide +kernel, _, hrun', by decide +kernel, (tables_only_grow rfl hrun hrun').1⟩

end GovernorGateway
