/-
# A compaction that races with designations

`/context-compacted` reads the graph and the ledger BEFORE it takes the shared side of the lock, and
does not look again when it has it.  A designation that runs in between contains the compacted nodes
without the compaction, which is not there yet, and the compaction is committed all the same
(`compaction_escapes_designation`).

A compaction whose commit finds the compacted nodes clean stays with them: from then on the edges
from them to it are stored, every designation follows edges (`Lineage.Follows`), and in every state
in which the request has answered the compaction is in the ledger if one of them is
(`compaction_contained_of_run`).
-/
import GovernorGateway.Concurrency.Local
import GovernorGateway.Concurrency.Scheduled
import GovernorGateway.Semantics.Requests

namespace GovernorGateway

open Effects

/-! ## 1. Edges that stay closed -/

namespace Lineage

/-- From `L` to `L'` edges stay, and an edge that is closed in `L` is closed in `L'`. -/
structure Follows (L L' : Lineage) : Prop where
  wf : L.Wf → L'.Wf
  edges : ∀ x y, L.Edge x y → L'.Edge x y
  closed : L.Wf → ∀ x y, L.Edge x y → (x ∈ L.ledger → y ∈ L.ledger) → x ∈ L'.ledger → y ∈ L'.ledger

variable {L L' : Lineage}

theorem Follows.refl (L : Lineage) : L.Follows L :=
  ⟨fun h => h, fun _ _ h => h, fun _ _ _ _ h => h⟩

theorem Follows.commitNode (sha256 : String → String) (p : Payload) :
    L.Follows (L.commitNode sha256 p).2 where
  wf := fun h => h.commitNode
  edges := fun _ _ h => h.commitNode
  closed := by
    intro _ x y _ hclosed hx
    rw [commitNode_ledger] at hx ⊢
    exact hclosed hx

/-- A designation that the depth bound does not cut off: it goes on from a node to what names it. -/
theorem Follows.contain {D : Int} {root : NodeId} (hD : L.DepthCovers D root) :
    L.Follows (L.quarantine (sortedSet (L.traverse D root))) where
  wf := fun h => h.quarantine _
  edges := fun _ _ h => h
  closed := by
    intro hwf x y hedge hclosed hx
    rw [mem_ledger_quarantine, mem_sortedSet, mem_traverse hwf] at hx ⊢
    rcases hx with hx | hx
    · exact Or.inl (hclosed hx)
    · exact hD y (hx.reachable.tail hedge)

end Lineage

/-! ## 2. The condition -/

/-- What a commit of a compaction finds: its id is new, and what it covers is clean.  And a
designation is not cut off by the depth bound. -/
def CompactionOk (g : Setup) : Condition
  | .store (.commitNode .compaction p), v, _ =>
    p.payloadId ∉ v.db.nodeIds ∧ ∀ x ∈ p.covers, x ∉ v.db.ledger
  | .store (.applyQuarantineTransaction event _), v, _ =>
    v.db.toLineage.DepthCovers g.settings.maxTraversalDepth event.poisonedRootId
  | _, _, _ => True

def compactionTerms (g : Setup) : Terms where
  invariant := fun _ => True
  condition := CompactionOk g

/-- The handlers that run together. -/
def Request.Compacts : Request → Prop
  | .contextCompacted _ | .designate _ _ => True
  | _ => False

/-- What a task knows of the lineage: a compaction that has been committed hangs on what it covers,
and is in the ledger with it. -/
def Request.Hangs : Request → Bool → Lineage → Prop
  | .contextCompacted e, fresh, L => L.Wf ∧ (fresh = false → ∀ x ∈ e.compactedNodeIds,
      L.Edge x e.compactionNodeId ∧ (x ∈ L.ledger → e.compactionNodeId ∈ L.ledger))
  | _, _, L => L.Wf

theorem Request.Hangs.wf {req : Request} {fresh : Bool} {L : Lineage} (h : req.Hangs fresh L) :
    L.Wf := by
  cases req with
  | contextCompacted e => exact h.1
  | _ => exact h

/-- What the others do does not tear it off. -/
theorem Request.Hangs.follows {req : Request} {fresh : Bool} {L L' : Lineage} (h : req.Hangs fresh L)
    (hL : L.Follows L') : req.Hangs fresh L' := by
  cases req with
  | contextCompacted e =>
    refine ⟨hL.wf h.1, fun hfresh x hx => ?_⟩
    obtain ⟨hedge, hclosed⟩ := h.2 hfresh x hx
    exact ⟨hL.edges _ _ hedge, hL.closed h.1 _ _ hedge hclosed⟩
  | _ => exact hL.wf h

variable {g : Setup} {answers : Answers}

theorem gentle_compaction : Gentle g (compactionTerms g) Lineage.Follows where
  store := fun _ _ _ _ => trivial
  refl := Lineage.Follows.refl
  keys := fun _ _ _ _ => trivial

/-! ## 3. The section of a designation -/

/-- **A designation follows edges.**  Under the exclusive side its recovery commits nothing: it
never gets the shared side. -/
theorem sat_designateLocked_follows (hlaw : answers.Lawful) (e : DesignationEvent) (identity : String)
    (d : Db) :
    Act.Sat (TxStep g answers (compactionTerms g) .writer) (TxDuty (compactionTerms g))
      (designateLocked g e identity)
      (onOk (fun _ d' => d.toLineage.Follows d'.toLineage) fun _ _ => True) d := by
  have hsolo : Solo g (TxStep g answers (compactionTerms g) .writer) id := solo_txStep hlaw .writer
  have hacts : Acts g (TxStep g answers (compactionTerms g) .writer) Db.toLineage := hsolo.acts
  have hquiet : ∀ c d r d', c.Quiet → TxDuty (compactionTerms g) c d r d' :=
    txDuty_quiet fun _ => trivial
  unfold designateLocked
  refine hsolo.read_bind hquiet (by simp [Store.Loud]) rfl fun d₁ hd₁ => ?_
  obtain rfl : d₁ = d := hd₁
  refine hsolo.read_bind hquiet (by simp [Store.Loud]) rfl fun d₂ hd₂ => ?_
  obtain rfl : d₂ = d₁ := hd₂
  split
  · exact .refl _
  · split
    · exact .refl _
    · rw [Act.sat_bind]
      refine (sat_contain (P := TxDuty (compactionTerms g))
        (K := d₂.toLineage.DepthCovers g.settings.maxTraversalDepth e.poisonedNodeId) hacts hquiet
        e.poisonedNodeId identity e.reason none d₂ fun event d₃ r d' _ hroot _ hlin ht => ?_).mono ?_
      · refine ⟨trivial, ?_⟩
        rw [← hroot, ← hlin]
        exact ht.1
      · rintro (exc | ⟨ids, event⟩) d₃ hout
        · trivial
        · obtain ⟨hdepth, hids, hlin⟩ := hout
          have hfollows : d₂.toLineage.Follows d₃.toLineage := by
            rw [hlin, hids]
            exact .contain hdepth
          have hframe : Frame (TxStep g answers (compactionTerms g) .writer)
              (TxDuty (compactionTerms g)) fun d' => d'.toLineage = d₃.toLineage :=
            hacts.frame hquiet fun L => L = d₃.toLineage
          have hcommit : ∀ site p, Keeps (TxStep g answers (compactionTerms g) .writer)
              (TxDuty (compactionTerms g)) (fun d' => d'.toLineage = d₃.toLineage)
              (commitShared site p) fun _ => True := keeps_commitShared_nested id
          change Act.Sat _ _ (attemptSafeContinuity g ids event >>= _) _ d₃
          rw [Act.sat_bind]
          refine (sat_attemptSafeContinuity (U := fun _ => True) hsolo ids event d₃ hframe
            (fun _ _ => ⟨hframe, fun _ _ _ _ => trivial, ?_, fun site p _ => hcommit site p⟩) rfl).mono ?_
          · intro xs d' ys d'' ht x hx
            obtain ⟨zs, hzs, hperm⟩ := (hacts.ext ht).1
            obtain rfl := Except.ok.inj hzs
            exact hperm.subset hx
          · rintro (exc | continuity) d₄ h₄
            · trivial
            · rw [onOk_ok, Act.sat_bind]
              refine (keeps_attemptReconstruction (U := fun _ => True) (V := fun _ => True)
                (A := fun _ _ => True) (Φ := fun _ => True) ⟨hframe, fun _ _ _ _ => trivial,
                  fun _ _ _ _ _ => trivial, fun _ _ _ _ _ _ => trivial, fun _ p _ _ => hcommit _ p⟩
                e.poisonedNodeId (fun _ _ _ _ _ _ _ _ => trivial) d₄ h₄).mono ?_
              rintro (exc | u) d₅ h₅
              · trivial
              · have hlin₅ : d₅.toLineage = d₃.toLineage := h₅.1
                change d₂.toLineage.Follows d₅.toLineage
                rw [hlin₅]
                exact hfollows

/-! ## 4. The compaction -/

/-- The checks make the payload of the event. -/
theorem keeps_compactionChecks {σ : Type} {T P : Trans Call Call.Res Exc σ} {I : σ → Prop}
    (h : Frame T P I) (e : ContextCompactedEvent) :
    Keeps T P I (compactionChecks g e) fun p => ∃ ps, p = compactionPayload g e ps := by
  refine Keeps.seq (Keeps.quiet h (quiet_store (by simp [Store.Loud]))) fun dag => ?_
  refine Keeps.seq (Keeps.quiet h (uses_check _)) fun ps => ?_
  refine Keeps.seq (Keeps.quiet h (uses_verifyNhi g (Call.of_quiet rfl) _ _)) fun claims => ?_
  refine Keeps.seq (Keeps.quiet h (Act.uses_raiseIf _ _)) fun _ => ?_
  refine Keeps.seq (Keeps.quiet h (quiet_store (by simp [Store.Loud]))) fun quarantined => ?_
  split
  · exact Keeps.pure ⟨ps, rfl⟩
  · exact Keeps.raise _

/-- A compaction whose commit finds what it covers clean hangs on it. -/
theorem hangs_commitNode (e : ContextCompactedEvent) (ps : List ParentCommitment) {L : Lineage}
    (hwf : L.Wf) (hnew : e.compactionNodeId ∉ L.nodeIds)
    (hclean : ∀ x ∈ e.compactedNodeIds, x ∉ L.ledger) :
    Request.Hangs (.contextCompacted e) false
      (L.commitNode g.env.sha256 (compactionPayload g e ps)).2 := by
  refine ⟨hwf.commitNode, fun _ x hx => ⟨?_, fun hledger => ?_⟩⟩
  · have hnames : (compactionPayload g e ps).Names x := Or.inr hx
    exact (Lineage.edge_commitNode hnew).mpr (Or.inr ⟨rfl, hnames⟩)
  · rw [Lineage.commitNode_ledger] at hledger
    exact absurd hledger (hclean x hx)

/-- **Each handler does its duty**; one that has answered has written. -/
theorem sat_handle_compaction (hlaw : answers.Lawful) (req : Request) (hreq : req.Compacts) :
    Act.Sat (LocalStep g answers (compactionTerms g) req.Hangs)
      (Duty g (compactionTerms g) req.Hangs Lineage.Follows) (req.handle g)
      (onOk (fun _ l => l.fresh = false) fun _ _ => True) {} := by
  cases req with
  | contextCompacted e =>
    change Act.Sat _ _ (declareContextCompacted g e) _ _
    rw [declareContextCompacted, Act.sat_bind]
    have hframe : Frame (LocalStep g answers (compactionTerms g) (Request.Hangs (.contextCompacted e)))
        (Duty g (compactionTerms g) (Request.Hangs (.contextCompacted e)) Lineage.Follows)
        fun l => l = {} := frame_local gentle_compaction rfl
    refine (keeps_compactionChecks hframe e {} rfl).mono ?_
    rintro (exc | p) l hl
    · trivial
    · obtain ⟨rfl, ps, rfl⟩ := hl
      change Act.Sat _ _ (commitShared _ _ >>= _) _ _
      rw [Act.sat_bind, commitShared]
      refine local_withShared ?_
      rw [Act.sat_bind]
      rintro r l ⟨⟨inTx, d⟩, hsees, hok, heffect⟩
      refine ⟨fun _ v' hsees' hok' => ?_, ?_⟩
      · obtain ⟨-, -, hhangs, -⟩ := hsees'
        exact ⟨trivial, hangs_commitNode e ps hhangs.wf hok'.1 hok'.2, .commitNode _ _⟩
      · rcases heffect with ⟨rfl, rfl⟩ | ⟨-, ⟨exc, rfl⟩, rfl⟩
        · exact ⟨false, rfl, rfl⟩
        · exact ⟨true, rfl, trivial⟩
  | designate header e =>
    change Act.Sat _ _ (designatePoison g header e) _ _
    refine local_quiet_bind gentle_compaction rfl (uses_verifyRole g (Call.of_quiet rfl) _ _)
      (fun claims => ?_) fun _ => trivial
    refine local_quiet_bind gentle_compaction rfl (uses_limitDesignations g (Call.of_quiet rfl) _ _)
      (fun _ => ?_) fun _ => trivial
    refine local_withExclusive fun d _ _ _ => ?_
    refine local_withTransaction (Or.inr ⟨_, rfl⟩) (fun d' _ hwf _ => ?_)
      fun e => ⟨_, true, rfl, trivial⟩
    refine (sat_designateLocked_follows hlaw e _ d').mono ?_
    rintro (exc | a) d'' hfollows
    · trivial
    · refine ⟨trivial, hfollows.wf hwf, hfollows, ?_⟩
      rintro (_ | _ | _ | L) hrole
      · exact absurd hrole (by simp [Side.role])
      · exact absurd hrole (by simp [Side.role])
      · exact absurd hrole (by simp [Side.role])
      · exact ⟨L, false, rfl, rfl⟩
  | _ => exact absurd hreq id

/-! ## 5. Together -/

/-- **A compaction whose commit finds what it covers clean is contained with it.**  Any number of
compactions and designations, in any interleaving the locks allow: in every state in which a
compaction has answered, it is in the ledger if one of the nodes it compacted is. -/
theorem compaction_contained_of_run {ι : Type} [DecidableEq ι] (hlaw : answers.Lawful)
    {req : ι → Request} (hreq : ∀ i, (req i).Compacts) {s : Gateway ι} (hlock : s.lock = {})
    (htx : s.tx = none) (hwf : s.db.toLineage.Wf)
    {p : Pool ι Call Call.Res Exc (Gateway ι) (Except Exc Response)}
    (hrun : Relation.ReflTransGen (Pool.Step (TaskStepOn g answers (CompactionOk g)))
      (s.serve g req) p) {i : ι} {e : ContextCompactedEvent} (hi : req i = .contextCompacted e)
    {a : Response} (hanswer : p.Finished i (.ok a)) :
    (∃ x ∈ e.compactedNodeIds, x ∈ p.state.db.ledger) → e.compactionNodeId ∈ p.state.db.ledger := by
  have hstart : ∀ i, (req i).Hangs true s.db.toLineage := by
    intro i
    cases req i with
    | contextCompacted e => exact ⟨hwf, fun hfresh => absurd hfresh (by decide)⟩
    | _ => exact hwf
  obtain ⟨l, hcoherent, hverified⟩ := tasks_invariant (t := compactionTerms g)
    (F := fun i => (req i).Hangs) (G := fun _ => Lineage.Follows)
    (fun i j _ b L L' hfollows hhangs => hhangs.follows hfollows) hrun
    (Coherent.initial s trivial trivial hlock htx hstart)
    fun i => sat_handle_compaction hlaw (req i) (hreq i)
  have hfresh : (l i).fresh = false := by
    have hdone := hverified i
    rw [show p.prog i = .ret (.ok a) from hanswer] at hdone
    exact hdone
  have hhangs := hcoherent.knows i
  rw [hi, hfresh] at hhangs
  rintro ⟨x, hx, hledger⟩
  exact (hhangs.2 rfl x hx).2 hledger

/-! ## 6. Two schedules -/

/-- A summary of the root, and a designation of the root. -/
def summaryRequests (i : Fin 2) : Request :=
  match i with
  | 0 => openSummary "summary-1" ["clean-parent-1"]
  | 1 => .designate (some "Bearer designator") ⟨"clean-parent-1", "poisoned"⟩

def summaryStart : Gateway (Fin 2) := { db := ({} : Db).reset openSetup.env.sha256 }

def summaryScript (i : Fin 2) : Script := openScript (toString i.val)

/-- The task has answered 200. -/
def Pool.answered {ι : Type} (p : Pool ι Call Call.Res Exc (Gateway ι) (Except Exc Response)) (i : ι) :
    Bool :=
  match p.prog i with
  | .ret (.ok a) => a.status = 200
  | _ => false

theorem Pool.finished_of_answered {ι : Type}
    {p : Pool ι Call Call.Res Exc (Gateway ι) (Except Exc Response)} {i : ι}
    (h : Pool.answered p i = true) : ∃ a, p.Finished i (.ok a) := by
  unfold Pool.answered at h
  split at h
  · rename_i a hprog
    exact ⟨a, hprog⟩
  · exact absurd h (by simp)

/-- Whether the call meets the condition. -/
def compactionCheck : Call → View → Bool
  | .store (.commitNode .compaction p), v =>
    p.payloadId ∉ v.db.nodeIds && p.covers.all fun x => x ∉ v.db.ledger
  | .store (.applyQuarantineTransaction _ _), v => v.db.toLineage.flat
  | _, _ => true

theorem compactionOk_of_check {c : Call} {v : View} {r : Except Exc c.Res}
    (h : compactionCheck c v = true) : CompactionOk openSetup c v r := by
  cases c with
  | store c =>
    cases c with
    | commitNode site p =>
      cases site with
      | compaction =>
        simp only [compactionCheck, Bool.and_eq_true, decide_eq_true_eq, List.all_eq_true] at h
        exact h
      | _ => trivial
    | applyQuarantineTransaction event ids =>
      exact (Lineage.shallow_of_flat (by decide) h).depthCovers event.poisonedRootId
    | _ => trivial
  | _ => trivial

/-- A summary that is committed before the root is designated is contained with the root. -/
theorem compaction_contained_before_designation : ∃ p : Pool (Fin 2) Call Call.Res Exc
      (Gateway (Fin 2)) (Except Exc Response),
    Relation.ReflTransGen (Pool.Step (TaskStepOn openSetup Answers.lawful (CompactionOk openSetup)))
      (summaryStart.serve openSetup summaryRequests) p ∧
    (∃ a, p.Finished 0 (.ok a)) ∧ (∃ a, p.Finished 1 (.ok a)) ∧
    (∃ x ∈ ["clean-parent-1"], x ∈ p.state.db.ledger) ∧ "summary-1" ∈ p.state.db.ledger := by
  let turns : List (Fin 2 × (Call → Bool)) := [(0, fun _ => false), (1, fun _ => false)]
  have hrun := Script.schedule_run_on summaryScript openSetup compactionCheck (CompactionOk openSetup)
    (fun _ _ _ => compactionOk_of_check) turns (summaryStart.serve openSetup summaryRequests)
  have hend :
      let p := Pool.schedule (fun i => (summaryScript i).checkedStep openSetup compactionCheck i) turns
        (summaryStart.serve openSetup summaryRequests)
      Pool.answered p 0 = true ∧ Pool.answered p 1 = true ∧
        ∃ x ∈ ["clean-parent-1"], x ∈ p.state.db.ledger := by decide +kernel
  obtain ⟨h₀, h₁, hledger⟩ := hend
  obtain ⟨a, ha⟩ := Pool.finished_of_answered h₀
  refine ⟨_, hrun, ⟨a, ha⟩, Pool.finished_of_answered h₁, hledger, ?_⟩
  refine compaction_contained_of_run (fun _ _ h => h) ?_ rfl
    rfl (Lineage.wf_reset _ _).1 hrun (i := 0) rfl ha hledger
  exact Fin.forall_fin_two.mpr ⟨trivial, trivial⟩

/-- The compaction has made its checks and stands before the lock when the root is designated. -/
theorem compaction_escapes_designation : ∃ p : Pool (Fin 2) Call Call.Res Exc (Gateway (Fin 2))
      (Except Exc Response),
    Relation.ReflTransGen (Pool.Step (TaskStep openSetup Answers.lawful))
      (summaryStart.serve openSetup summaryRequests) p ∧
    (∃ a, p.Finished 0 (.ok a)) ∧ (∃ a, p.Finished 1 (.ok a)) ∧
    "summary-1" ∈ p.state.db.nodeIds ∧ "clean-parent-1" ∈ p.state.db.ledger ∧
    "summary-1" ∉ p.state.db.ledger := by
  let turns : List (Fin 2 × (Call → Bool)) :=
    [(0, fun c => c.kind = .shared), (1, fun _ => false), (0, fun _ => false)]
  have hend :
      let p := Pool.schedule (fun i => (summaryScript i).taskStep openSetup i) turns
        (summaryStart.serve openSetup summaryRequests)
      Pool.answered p 0 = true ∧ Pool.answered p 1 = true ∧ "summary-1" ∈ p.state.db.nodeIds ∧
        "clean-parent-1" ∈ p.state.db.ledger ∧ "summary-1" ∉ p.state.db.ledger := by decide +kernel
  obtain ⟨h₀, h₁, hrest⟩ := hend
  exact ⟨_, Script.schedule_run summaryScript openSetup turns _, Pool.finished_of_answered h₀,
    Pool.finished_of_answered h₁, hrest⟩

end GovernorGateway
