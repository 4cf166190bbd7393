/-
# At most one reconstruction

Detectors that run together recover after they have released the lock, and every recovery goes
through ALL pending candidates.  Two that have read the same candidate as pending both reconstruct
it (`rebuilt_twice`).

`rebuilt_once`: in every interleaving in which no detector reads as pending what another one holds,
each compaction has at most one reconstruction in the graph.  The start is the state after any
requests that were handled one after the other (`Run.held`).
-/
import GovernorGateway.Concurrency.Scheduled
import GovernorGateway.Properties.Holding

namespace GovernorGateway

open Effects

variable {g : Setup} {answers : Answers}

/-- The node is a stored reconstruction of the compaction `x`, and recorded as one. -/
def Db.Rebuilt (db : Db) (x n : NodeId) : Prop :=
  n ∈ db.nodeIds ∧ ∃ h ∈ db.reintegrationHorizon, h.nodeId = n ∧ h.predecessorId = x

instance (db : Db) (x n : NodeId) : Decidable (db.Rebuilt x n) :=
  inferInstanceAs (Decidable (_ ∧ ∃ h ∈ _, _))

/-- Each compaction has at most one. -/
def Db.RebuiltOnce (db : Db) : Prop := ∀ x m n, db.Rebuilt x m → db.Rebuilt x n → m = n

theorem Held.rebuiltOnce {ι : Type} {db : Db} {l : ι → Holding} (h : Held db l) :
    db.RebuiltOnce := by
  rintro x m n ⟨-, r, hr, rfl, hpred⟩ ⟨-, r', hr', rfl, hpred'⟩
  exact h.one r hr r' hr' (hpred.trans hpred'.symm)

/-! ## 1. One request after the other -/

/-- Every request, as far as its recovery goes. -/
theorem keeps_handle_holding (hlaw : answers.Lawful) (req : Request) :
    Keeps (HoldingStep g answers) HoldingDuty Holding.Clear (req.handle g) fun _ => True :=
  Recovers.handle
    { out := keeps_outside
      reconstruction := keeps_attemptReconstruction_holding hlaw } req

/-- The tables of the database, and of the copy a rollback would go back to. -/
structure World.Held (l : Holding) (w : World) : Prop where
  db : GovernorGateway.Held w.db fun _ : Unit => l
  saved : ∀ d, w.saved = some d → GovernorGateway.Held d fun _ : Unit => ({} : Holding)

theorem World.Held.step {l : Holding} {w w' : World} {c : Call} {r : Except Exc c.Res}
    (h : World.Held l w) (ht : Step g answers c w r w') :
    ∃ l', HoldingStep g answers c l r l' ∧ (HoldingDuty c l r l' → World.Held l' w') := by
  have hsame : w' = w → HoldingDuty c l r l → World.Held l w' := by
    rintro rfl -
    exact h
  cases c with
  | store c =>
    obtain ⟨rfl, rfl⟩ := ht
    refine ⟨l.after w.db c, ⟨w.db, h.db.keys, rfl, rfl⟩, fun hduty => ⟨?_, h.saved⟩⟩
    have hexec := h.db.exec g (i := ()) hduty fun _ j hj => absurd (Subsingleton.elim j ()) hj
    have hunit : Function.update (fun _ : Unit => l) () (l.after w.db c) =
        fun _ => l.after w.db c := by
      funext j
      exact Function.update_self ..
    rwa [hunit] at hexec
  | ext e => exact ⟨l, ⟨ht.1, rfl⟩, hsame ht.2⟩
  | getAdapterKey => exact ⟨l, rfl, hsame ht.2⟩
  | setAdapterKey key =>
    obtain ⟨-, rfl⟩ := ht
    exact ⟨l, rfl, fun _ => ⟨h.db, h.saved⟩⟩
  | sync k =>
    obtain ⟨-, rfl⟩ := ht
    have hrest : l.recorded = none → GovernorGateway.Held w.db fun _ : Unit => ({} : Holding) :=
      fun hclear => h.db.rest fun _ => hclear
    cases k with
    | begin =>
      refine ⟨l, rfl, fun hclear => ⟨h.db, fun d hd => ?_⟩⟩
      obtain rfl := Option.some.inj hd
      exact hrest hclear
    | commit => exact ⟨l, rfl, fun _ => ⟨h.db, fun d hd => absurd hd (by simp [World.sync])⟩⟩
    | rollback =>
      refine ⟨{}, rfl, fun hclear => ⟨?_, fun d hd => absurd hd (by simp [World.sync])⟩⟩
      change GovernorGateway.Held (w.saved.getD w.db) _
      cases hs : w.saved with
      | none => exact hrest hclear
      | some d => exact h.saved d hs
    | enterShared => exact ⟨l, rfl, hsame rfl⟩
    | leaveShared => exact ⟨l, rfl, hsame rfl⟩
    | requestExclusive => exact ⟨l, rfl, hsame rfl⟩
    | enterExclusive => exact ⟨l, rfl, hsame rfl⟩
    | leaveExclusive => exact ⟨l, rfl, hsame rfl⟩

/-- **Handled one after the other**, requests rebuild a compaction at most once. -/
theorem Run.held (hlaw : answers.Lawful) {db : Db} {adapterKey : Option String} {w : World}
    {hs : List Handled} (hrun : Run g (Step g answers) (World.initial g db adapterKey) hs w) :
    Held w.db fun _ : Unit => ({} : Holding) := by
  have hhandle : ∀ (req : Request) w₁, World.Held {} w₁ →
      Act.Sat (Step g answers) Trans.any (req.handle g) (fun _ w₂ => World.Held {} w₂) w₁ := by
    intro req w₁ h₁
    have hsat := keeps_handle_holding (g := g) hlaw req {} rfl
    have hstep : ∀ c l w r w', World.Held l w → Step g answers c w r w' →
        ∃ l', HoldingStep g answers c l r l' ∧ (HoldingDuty c l r l' → World.Held l' w') :=
      fun _ _ _ _ _ h ht => h.step ht
    refine Prog.Sat.mono (Prog.Sat.simulate hstep hsat h₁) ?_
    rintro (e | a) w₂ ⟨l, h₂, hl⟩
    · exact ⟨h₂.db.rest fun _ => hl, h₂.saved⟩
    · exact ⟨h₂.db.rest fun _ => hl.1, h₂.saved⟩
  have hstart : World.Held {} (World.initial g db adapterKey) := by
    refine ⟨⟨List.nodup_nil, by simp, by simp, ?_, by simp, ?_⟩, by simp [World.initial]⟩
    · exact fun r hr => absurd hr List.not_mem_nil
    · exact fun r hr => absurd hr List.not_mem_nil
  exact (hrun.invariant hhandle hstart).1.db

/-! ## 2. Detectors that run together -/

variable {ι : Type} [DecidableEq ι]

/-- The shared state, and the candidates every task holds. -/
structure Recovering (ι : Type) where
  gateway : Gateway ι
  held : ι → List NodeId := fun _ => []

/-- What a task holds after a call: what it reads as pending, until it stores an outcome or gives
up. -/
def Call.heldAfter (held : List NodeId) (db : Db) : Call → List NodeId
  | .store .getRepairCandidates => db.pendingIds
  | .store (.updateRepairCandidate x _) | .store (.assignRepairCandidate x _) =>
    held.filter (· ≠ x)
  | _ => held

/-- One call of task `i`. -/
def RecoveringStep (g : Setup) (answers : Answers) (i : ι) :
    Trans Call Call.Res Exc (Recovering ι) := fun c m r m' =>
  TaskStep g answers i c m.gateway r m'.gateway ∧
    m'.held = Function.update m.held i (c.heldAfter (m.held i) (m.gateway.view i).db)

/-- **The condition.**  No task reads as pending a candidate that another one holds. -/
def Apart (i : ι) (c : Call) (m : Recovering ι) : Prop :=
  c = .store .getRepairCandidates →
    ∀ j, j ≠ i → ∀ x ∈ m.held j, x ∉ (m.gateway.view i).db.pendingIds

/-- The condition, for two tasks. -/
def Call.isApart (i : Bool) (m : Recovering Bool) : Call → Bool
  | .store .getRepairCandidates =>
    (m.held !i).all fun x => decide (x ∉ (m.gateway.view i).db.pendingIds)
  | _ => true

theorem Call.isApart_spec {i : Bool} {m : Recovering Bool} {c : Call} (h : c.isApart i m = true) :
    Apart i c m := by
  rintro rfl j hj x hx
  obtain rfl : j = !i := by
    cases i <;> cases j <;> simp_all
  exact of_decide_eq_true (List.all_eq_true.mp h x hx)

/-- The steps that meet it. -/
def ApartStep (g : Setup) (answers : Answers) (i : ι) : Trans Call Call.Res Exc (Recovering ι) :=
  fun c m r m' => RecoveringStep g answers i c m r m' ∧ Apart i c m

/-- The handlers of some requests, none of which has started. -/
def Recovering.serve (g : Setup) (req : ι → Request) (m : Recovering ι) :
    Pool ι Call Call.Res Exc (Recovering ι) (Except Exc Response) :=
  ⟨m, fun i => ((req i).handle g).tree⟩

/-- What every task knows is true; there is no transaction. -/
structure Recovering.Coherent (m : Recovering ι) (l : ι → Holding) : Prop where
  tx : m.gateway.tx = none
  db : Held m.gateway.db l
  held : ∀ i, (l i).held = m.held i

theorem Recovering.Coherent.step {m m' : Recovering ι} {l : ι → Holding} (h : m.Coherent l) {i : ι}
    {c : Call} {r : Except Exc c.Res} (ht : ApartStep g answers i c m r m') :
    ∃ l', HoldingStep g answers c (l i) r l' ∧
      (HoldingDuty c (l i) r l' ∧ c.NoTx → m'.Coherent (Function.update l i l')) := by
  obtain ⟨⟨htask, hheld⟩, hapart⟩ := ht
  have hheld' : ∀ l', l'.held = c.heldAfter (m.held i) (m.gateway.view i).db →
      ∀ j, (Function.update l i l' j).held = m'.held j := by
    intro l' hl' j
    rw [hheld]
    by_cases hj : j = i
    · subst hj
      rw [Function.update_self, Function.update_self, hl']
    · rw [Function.update_of_ne hj, Function.update_of_ne hj, h.held j]
  have hsame : c.heldAfter (m.held i) (m.gateway.view i).db = m.held i →
      m'.gateway.tx = none → m'.gateway.db = m.gateway.db →
      m'.Coherent (Function.update l i (l i)) := by
    intro hc htx hdb
    refine ⟨htx, ?_, hheld' (l i) (by rw [hc, h.held i])⟩
    rw [hdb, Function.update_eq_self]
    exact h.db
  cases c with
  | store c =>
    have hview : m.gateway.view i = ⟨false, m.gateway.db⟩ := Coherent.view_of_none h.tx i
    rw [Apart, hview] at hapart
    rw [hview] at hheld'
    simp only [TaskStep, h.tx] at htask
    obtain ⟨rfl, hgateway⟩ := htask
    refine ⟨(l i).after m.gateway.db c, ⟨_, h.db.keys, rfl, rfl⟩, fun hduty => ⟨?_, ?_, ?_⟩⟩
    · rw [hgateway]
    · rw [hgateway]
      refine h.db.exec g hduty.1 ?_
      rintro rfl j hj x hx
      exact hapart rfl j hj x (by rwa [← h.held j])
    · refine hheld' _ ?_
      rw [← h.held i]
      cases c with
      | _ => rfl
  | ext e =>
    obtain ⟨hr, hgateway⟩ := htask
    exact ⟨l i, ⟨hr, rfl⟩, fun _ => hsame rfl (by rw [hgateway, h.tx]) (by rw [hgateway])⟩
  | getAdapterKey =>
    obtain ⟨-, hgateway⟩ := htask
    exact ⟨l i, rfl, fun _ => hsame rfl (by rw [hgateway, h.tx]) (by rw [hgateway])⟩
  | setAdapterKey key =>
    obtain ⟨-, hgateway⟩ := htask
    refine ⟨l i, rfl, fun _ => hsame rfl ?_ ?_⟩
    · rw [hgateway]
      exact h.tx
    · rw [hgateway]
  | sync k =>
    cases k with
    | begin => exact ⟨l i, rfl, fun hduty => hduty.2.elim⟩
    | commit => exact ⟨l i, rfl, fun hduty => hduty.2.elim⟩
    | rollback => exact ⟨{}, rfl, fun hduty => hduty.2.elim⟩
    | _ =>
      obtain ⟨lock, -, -, hgateway⟩ := htask
      refine ⟨l i, rfl, fun _ => hsame rfl ?_ ?_⟩
      · rw [hgateway]
        exact h.tx
      · rw [hgateway]

/-- **Detectors that hold different candidates rebuild each at most once.** -/
theorem rebuilt_once (hlaw : answers.Lawful) {db : Db} {adapterKey : Option String} {w : World}
    {hs : List Handled} (hrun : Run g (Step g answers) (World.initial g db adapterKey) hs w)
    {req : ι → Request} (hreq : ∀ i, ∃ header source raw, req i = .detector header source raw)
    {p : Pool ι Call Call.Res Exc (Recovering ι) (Except Exc Response)}
    (hpool : Relation.ReflTransGen (Pool.Step (ApartStep g answers))
      (Recovering.serve g req { gateway := { db := w.db, adapterKey := w.adapterKey } }) p) :
    p.state.gateway.db.RebuiltOnce := by
  have hstart : ({ gateway := { db := w.db, adapterKey := w.adapterKey } } :
      Recovering ι).Coherent fun _ => {} :=
    ⟨rfl, (hrun.held hlaw).rest fun _ => rfl, fun _ => rfl⟩
  have hsat : ∀ i, Act.Sat (HoldingStep g answers) (fun c l r l' => HoldingDuty c l r l' ∧ c.NoTx)
      ((req i).handle g) (fun _ _ => True) {} := by
    intro i
    obtain ⟨header, source, raw, hi⟩ := hreq i
    rw [hi]
    have hduty := keeps_handle_holding (g := g) hlaw (.detector header source raw) {} rfl
    have htx : TxFree ((Request.detector header source raw).handle g) :=
      uses_handle g (.detector header source raw) (Call.of_noTx rfl)
    have hnoTx : Act.Sat (HoldingStep g answers) (fun c _ _ _ => c.NoTx)
        ((Request.detector header source raw).handle g) (fun _ _ => True) {} :=
      Prog.Uses.sat (I := fun _ => True) htx (fun _ hc _ _ _ _ _ => ⟨hc, trivial⟩) trivial
    exact (Prog.Sat.and hduty hnoTx).mono fun _ _ _ => trivial
  obtain ⟨l, hl, -⟩ := Pool.invariant (I := fun m l => m.Coherent l)
    (L := fun _ => HoldingStep g answers) (P := fun _ c l r l' => HoldingDuty c l r l' ∧ c.NoTx)
    (Q := fun _ _ _ => True) (fun i c m r m' l hm ht => hm.step ht) hpool hstart hsat
  exact hl.db.rebuiltOnce

/-! ## 3. Two reports -/

/-- A summary of the root, a summary of both, another summary of the root, and a checkpoint. -/
def reportedRequests : List Request :=
  [openSummary "summary-0" ["clean-parent-1"],
    openSummary "summary-1" ["clean-parent-1", "summary-0"],
    openSummary "summary-2" ["clean-parent-1"], openCheckpoint "clean-parent-1"]

/-- The state after them. -/
def reportedGateway : Gateway Bool :=
  { db := (openWorld reportedRequests none).db,
    adapterKey := (openWorld reportedRequests none).adapterKey }

/-- The first and the third summary are reported; the report of the first affects the second. -/
def reportOf : Bool → Request
  | true => openReport "summary-0"
  | false => openReport "summary-2"

/-- Each task draws its own uuids and keys. -/
def reportScript : Bool → Script
  | true => { openScript "4" with key := "key-4" }
  | false => { openScript "5" with key := "key-5" }

/-- A call under the script, if it meets the condition. -/
def Script.apartStep (o : Script) (g : Setup) (i : Bool) (c : Call) (m : Recovering Bool) :
    Option (Except Exc c.Res × Recovering Bool) :=
  if c.isApart i m then
    (o.taskStep g i c m.gateway).map fun q =>
      (q.1, ⟨q.2, Function.update m.held i (c.heldAfter (m.held i) (m.gateway.view i).db)⟩)
  else none

theorem Script.apartStep_spec (o : Script) {i : Bool} {c : Call} {m m' : Recovering Bool}
    {r : Except Exc c.Res} (h : o.apartStep g i c m = some (r, m')) :
    ApartStep g Answers.lawful i c m r m' := by
  unfold apartStep at h
  split at h
  · rename_i hapart
    obtain ⟨q, hq, heq⟩ := Option.map_eq_some_iff.mp h
    obtain ⟨rfl, rfl⟩ := Prod.mk.inj heq
    exact ⟨⟨o.taskStep_spec hq, rfl⟩, Call.isApart_spec hapart⟩
  · exact absurd h (by simp)

/-- One report after the other: the second finds nothing pending. -/
theorem rebuilt_once_reports : ∃ p, Relation.ReflTransGen
    (Pool.Step (ApartStep openSetup Answers.lawful))
    (Recovering.serve openSetup reportOf { gateway := reportedGateway }) p ∧
    p.state.gateway.db.RebuiltOnce ∧ p.state.gateway.db.Rebuilt "summary-1" "reconstructed-4" := by
  obtain ⟨hs, hrun, -⟩ := exists_open_run reportedRequests none
  have hpool := Pool.schedule_run (T := ApartStep openSetup Answers.lawful)
    (fun i _ _ _ _ h => (reportScript i).apartStep_spec h)
    [(true, fun _ => false), (false, fun _ => false)]
    (Recovering.serve openSetup reportOf { gateway := reportedGateway })
  refine ⟨_, hpool, rebuilt_once (fun _ _ h => h) hrun (fun i => ?_) hpool, ?_⟩
  · cases i with
    | true => exact ⟨_, _, _, rfl⟩
    | false => exact ⟨_, _, _, rfl⟩
  · decide +kernel

/-- The next call of the task asks for the shared side: it is about to commit. -/
def Call.entersShared : Call → Bool
  | .sync .enterShared => true
  | _ => false

/-- **The second summary is rebuilt twice.**  One report has read it as pending, and stops before it
commits; the other one reads it as pending as well. -/
theorem rebuilt_twice : ¬ ∀ p, Relation.ReflTransGen
    (Pool.Step (TaskStep openSetup Answers.lawful)) (reportedGateway.serve openSetup reportOf) p →
    p.state.db.RebuiltOnce := by
  intro hall
  have hrun := Script.schedule_run reportScript openSetup
    [(true, Call.entersShared), (false, fun _ => false), (true, fun _ => false)]
    (reportedGateway.serve openSetup reportOf)
  have htwice : ∀ n ∈ ["reconstructed-4", "reconstructed-5"], ((reportedGateway.serve openSetup
      reportOf).schedule (fun i => (reportScript i).taskStep openSetup i)
        [(true, Call.entersShared), (false, fun _ => false),
          (true, fun _ => false)]).state.db.Rebuilt "summary-1" n := by
    decide +kernel
  have hone := hall _ hrun "summary-1" "reconstructed-4" "reconstructed-5"
    (htwice _ (by simp)) (htwice _ (by simp))
  exact absurd hone (by decide)

end GovernorGateway
