/-
# What a recurrence signal withdraws

`process_recurrence` (`src/r6_utils.py`) traverses from the node that has recurred and hands the
SORTED radius to `apply_withdrawal_transaction`; or, when the radius is larger than
`MAX_WITHDRAWAL_AMPLIFICATION`, an empty one with an event marked as escalated.

* `withdrawn_all_or_nothing`: the whole radius is withdrawn, or nothing is and the event says so;
  and the hook of `/designate` leaves no reintegrated node of a blast radius without one or the
  other.
* `reasons_right_iff`: `apply_withdrawal_transaction` calls the FIRST id it is given the implicated
  one.  What comes first is the smallest id, so the reasons are right exactly when nothing below the
  node sorts before it.
-/
import GovernorGateway.Memory.World
import GovernorGateway.Memory.Repair
import GovernorGateway.Semantics.Stable

namespace GovernorGateway

open Effects

/-! ## 1. The rows of a withdrawal -/

namespace Db

theorem withdrawals_ids (event : RecurrenceEvent) (now : Time) : ∀ ids : List NodeId,
    (withdrawals event now ids).map Withdrawal.nodeId = ids
  | [] => rfl
  | x :: xs => by simp [withdrawals, Function.comp_def]

/-- The reason of a row is decided by its place. -/
theorem reason_of_mem_withdrawals {event : RecurrenceEvent} {now : Time} {x : NodeId}
    {xs : List NodeId} {row : Withdrawal} (hnodup : (x :: xs).Nodup)
    (h : row ∈ withdrawals event now (x :: xs)) :
    row.withdrawalReason = if row.nodeId = x then .directlyImplicated else .unexaminedDependent := by
  rw [withdrawals, List.mem_cons, List.mem_map] at h
  rcases h with rfl | ⟨y, hy, rfl⟩
  · rw [if_pos rfl]
  · have hne : y ≠ x := fun heq => (List.nodup_cons.mp hnodup).1 (heq ▸ hy)
    rw [if_neg hne]

/-- The ids withdrawn so far. -/
def withdrawn (db : Db) : List NodeId := db.withdrawalLedger.map Withdrawal.nodeId

/-- The withdrawal ledger after a transaction has the ids of before and the new ones. -/
theorem mem_withdrawn_apply {db : Db} {event : RecurrenceEvent} {ids : List NodeId} {now : Time}
    {y : NodeId} :
    y ∈ (db.applyWithdrawalTransaction event ids now).withdrawn ↔ y ∈ db.withdrawn ∨ y ∈ ids := by
  rw [withdrawn, applyWithdrawalTransaction, Keyed.mem_keys_foldl_insertOrIgnore, withdrawals_ids]
  rfl

/-- The blast radius depends on the lineage alone. -/
theorem computeBlastRadius_congr {db db' : Db} (h : db.toLineage = db'.toLineage) (D : Int)
    (root : NodeId) : (db.computeBlastRadius D root).1 = (db'.computeBlastRadius D root).1 := by
  rw [computeBlastRadius, computeBlastRadius, h]

end Db

/-- What `process_recurrence` is asked to write: `x` is implicated, and nothing else is. -/
def ReasonsRight (x : NodeId) (before after : List Withdrawal) : Prop :=
  (∃ row ∈ after, row.nodeId = x) ∧ ∀ row ∈ after, row.nodeId ∉ before.map Withdrawal.nodeId →
    row.withdrawalReason = if row.nodeId = x then .directlyImplicated else .unexaminedDependent

/-- **Reasons by place.**  Over a sorted list they are right exactly when the node is the least. -/
theorem reasonsRight_iff {x : NodeId} {ids : List NodeId} {before : List Withdrawal}
    (event : RecurrenceEvent) (now : Time) (hsorted : ids.Pairwise (· < ·)) (hx : x ∈ ids)
    (hnew : x ∉ before.map Withdrawal.nodeId) :
    ReasonsRight x before ((Db.withdrawals event now ids).foldl
      (Keyed.insertOrIgnore Withdrawal.nodeId) before) ↔ ∀ y ∈ ids, x ≤ y := by
  obtain ⟨z, zs, rfl⟩ := List.exists_cons_of_ne_nil (List.ne_nil_of_mem hx)
  have hnodup : (z :: zs).Nodup := hsorted.imp fun hlt => ne_of_lt hlt
  have hrows : ((Db.withdrawals event now (z :: zs)).map Withdrawal.nodeId).Nodup := by
    rw [Db.withdrawals_ids]
    exact hnodup
  have hzx : z ≤ x := by
    rcases List.mem_cons.mp hx with rfl | hx
    · exact le_rfl
    · exact ((List.pairwise_cons.mp hsorted).1 x hx).le
  constructor
  · rintro ⟨-, hreasons⟩
    -- the row of `x` is new, and implicated, so it is the first
    obtain ⟨row, hrow, hid⟩ : ∃ row ∈ Db.withdrawals event now (z :: zs), row.nodeId = x := by
      have hmem : x ∈ (Db.withdrawals event now (z :: zs)).map Withdrawal.nodeId := by
        rw [Db.withdrawals_ids]
        exact hx
      exact List.mem_map.mp hmem
    have hfree : row.nodeId ∉ before.map Withdrawal.nodeId := by
      rw [hid]
      exact hnew
    have hstored := (Keyed.mem_foldl_insertOrIgnore _ before).mpr
      (Or.inr ⟨hfree, Keyed.lookup_of_mem hrows hrow⟩)
    have hreason := hreasons row hstored hfree
    rw [if_pos hid, Db.reason_of_mem_withdrawals hnodup hrow] at hreason
    have hfirst : row.nodeId = z := by
      by_contra hne
      rw [if_neg hne] at hreason
      exact absurd hreason (by simp)
    obtain rfl : x = z := hid.symm.trans hfirst
    intro y hy
    rcases List.mem_cons.mp hy with rfl | hy
    · exact le_rfl
    · exact ((List.pairwise_cons.mp hsorted).1 y hy).le
  · intro hleast
    obtain rfl : x = z := le_antisymm (hleast z List.mem_cons_self) hzx
    refine ⟨?_, ?_⟩
    · have hmem : x ∈ ((Db.withdrawals event now (x :: zs)).foldl
          (Keyed.insertOrIgnore Withdrawal.nodeId) before).map Withdrawal.nodeId := by
        rw [Keyed.mem_keys_foldl_insertOrIgnore, Db.withdrawals_ids]
        exact Or.inr List.mem_cons_self
      exact List.mem_map.mp hmem
    · intro row hrow hfree
      rcases (Keyed.mem_foldl_insertOrIgnore _ before).mp hrow with hold | ⟨-, hfound⟩
      · exact absurd (List.mem_map_of_mem hold) hfree
      · exact Db.reason_of_mem_withdrawals hnodup (Keyed.lookup_mem hfound).1

/-! ## 2. One signal -/

section Signal

variable {σ : Type} {g : Setup} {T : Trans Call Call.Res Exc σ} {answers : Answers}

/-- The event a signal records, as far as it is the caller's. -/
structure SignalEvent (g : Setup) (x : NodeId) (cls source : String) (ids : List NodeId)
    (event : RecurrenceEvent) : Prop where
  node : event.nodeId = x
  recurrence : event.recurrenceClass = cls
  signal : event.signalSource = source
  escalated : event.escalated = true ↔ g.settings.maxWithdrawalAmplification < (ids.length : Int)

/-- What is withdrawn for an event. -/
def RecurrenceEvent.withdraws (event : RecurrenceEvent) (ids : List NodeId) : List NodeId :=
  if event.escalated then [] else ids

/-- `process_recurrence` is one traversal and one transaction, on any backend. -/
theorem sat_processRecurrence {x : NodeId} {cls source : String} {evidence : List (String × Json)}
    {ids : List NodeId} {s s₁ : σ} {Q : Except Exc Unit → σ → Prop}
    (hradius : ∀ r s', T (.store (.computeBlastRadius x)) s r s' → r = .ok ids ∧ s' = s₁)
    (hask : ∀ (e : Ext) r s', T (.ext e) s₁ r s' → e.Lawful r ∧ s' = s₁)
    (happly : ∀ event now, SignalEvent g x cls source ids event →
      T (.ext .uuid) s₁ (.ok event.eventId) s₁ → ∀ r s',
        T (.store (.applyWithdrawalTransaction event (event.withdraws ids) now)) s₁ r s' → Q r s') :
    Act.Sat T Trans.any (processRecurrence g x cls source evidence) Q s := by
  rw [processRecurrence, Act.sat_bind]
  intro r s' ht
  obtain ⟨rfl, rfl⟩ := hradius r s' ht
  refine ⟨trivial, ?_⟩
  change Act.Sat T _ (ext .uuid >>= _) Q s'
  rw [Act.sat_bind]
  intro r s₂ huuid
  obtain ⟨⟨u, rfl⟩, rfl⟩ := hask _ _ _ huuid
  refine ⟨trivial, ?_⟩
  change Act.Sat T _ (stampNow >>= _) Q s₂
  rw [stampNow, Act.sat_bind, Act.sat_bind]
  intro r s₃ hdetected
  obtain ⟨⟨t, rfl⟩, rfl⟩ := hask _ _ _ hdetected
  refine ⟨trivial, ?_⟩
  change Act.Sat T _ (ext (.now .record) >>= _) Q s₃
  rw [Act.sat_bind]
  intro r s₄ hnow
  obtain ⟨⟨now, rfl⟩, rfl⟩ := hask _ _ _ hnow
  refine ⟨trivial, ?_⟩
  change Act.Sat T _ (if g.settings.maxWithdrawalAmplification < (ids.length : Int) then _ else _) Q s₄
  split
  · rename_i hlarge
    exact fun r s' ht => ⟨trivial, happly _ now ⟨rfl, rfl, rfl, by simp [hlarge]⟩ huuid r s' ht⟩
  · rename_i hsmall
    exact fun r s' ht => ⟨trivial, happly _ now ⟨rfl, rfl, rfl, by simp [hsmall]⟩ huuid r s' ht⟩

/-- What a signal leaves behind in the database: the traversal, and the transaction for its
event. -/
def Db.Signalled (g : Setup) (x : NodeId) (cls source : String) (event : RecurrenceEvent)
    (db db' : Db) : Prop :=
  ∃ now, SignalEvent g x cls source (db.computeBlastRadius g.settings.maxTraversalDepth x).1 event ∧
    db' = (db.computeBlastRadius g.settings.maxTraversalDepth x).2.applyWithdrawalTransaction event
      (event.withdraws (db.computeBlastRadius g.settings.maxTraversalDepth x).1) now

/-- `process_recurrence` on the SQLite backend; `C` tells more about the transaction. -/
theorem signalled_of_step (hlaw : answers.Lawful) {C : Trans Call Call.Res Exc World} (x : NodeId)
    (cls source : String) (evidence : List (String × Json)) (w : World) :
    Act.Sat (restrict (Step g answers) C) Trans.any (processRecurrence g x cls source evidence)
      (fun r w' => r = .ok () ∧ ∃ event, Db.Signalled g x cls source event w.db w'.db ∧
        ∃ ids now db₁, db₁.recurrenceEvents = w.db.recurrenceEvents ∧
          C (.store (.applyWithdrawalTransaction event ids now)) { w with db := db₁ } r w') w := by
  obtain ⟨rcs, hrcs⟩ := Db.computeBlastRadius_snd g.settings.maxTraversalDepth x w.db
  refine @sat_processRecurrence _ g _ x cls source evidence
    (w.db.computeBlastRadius g.settings.maxTraversalDepth x).1 _
    { w with db := (w.db.computeBlastRadius g.settings.maxTraversalDepth x).2 } _ ?_ ?_ ?_
  · rintro r s' ⟨⟨rfl, rfl⟩, -⟩
    exact ⟨rfl, rfl⟩
  · rintro e r s' ⟨⟨hr, rfl⟩, -⟩
    exact ⟨hlaw e r hr, rfl⟩
  · rintro event now hevent - r w' ⟨⟨rfl, rfl⟩, hC⟩
    refine ⟨rfl, event, ⟨now, hevent, rfl⟩, _, now, _, ?_, hC⟩
    rw [hrcs]
    rfl

/-- The same on the in-memory backend. -/
theorem signalled_of_memoryStep (hlaw : answers.Lawful) (dumps : Payload → String) (x : NodeId)
    (cls source : String) (evidence : List (String × Json)) (w : MemoryWorld) :
    Act.Sat (MemoryStep g dumps answers) Trans.any (processRecurrence g x cls source evidence)
      (fun _ w' => ∃ event now, SignalEvent g x cls source (w.memory.computeBlastRadius x).1 event ∧
        w'.memory = (w.memory.computeBlastRadius x).2.applyWithdrawalTransaction event
          (event.withdraws (w.memory.computeBlastRadius x).1) now) w := by
  refine @sat_processRecurrence _ g _ x cls source evidence (w.memory.computeBlastRadius x).1 _
    { w with memory := (w.memory.computeBlastRadius x).2 } _ ?_ ?_ ?_
  · rintro r s' ⟨rfl, rfl⟩
    exact ⟨rfl, rfl⟩
  · rintro e r s' ⟨hr, rfl⟩
    exact ⟨hlaw e r hr, rfl⟩
  · rintro event now hevent - r w' ⟨rfl, rfl⟩
    exact ⟨event, now, hevent, rfl⟩

/-- An event that is not escalated withdraws the whole radius. -/
theorem SignalEvent.withdraws_all {x : NodeId} {cls source : String} {ids : List NodeId}
    {event : RecurrenceEvent} (h : SignalEvent g x cls source ids event)
    (hsmall : (ids.length : Int) ≤ g.settings.maxWithdrawalAmplification) :
    event.withdraws ids = ids := by
  have hnot : ¬ event.escalated = true := by
    rw [h.escalated]
    omega
  rw [RecurrenceEvent.withdraws, if_neg hnot]

/-! ## 3. The reasons -/

/-- **Whether the reasons are right is a matter of the alphabet.**  On either backend, for a node
that is not withdrawn and a radius within the bound: the new rows name the node that recurred as the
implicated one, and no other, exactly when no id of the radius sorts before its own. -/
theorem reasons_right_iff (hlaw : answers.Lawful) (dumps : Payload → String) (x : NodeId)
    (cls source : String) (evidence : List (String × Json)) :
    (∀ w tr r w', Exec (Step g answers) (processRecurrence g x cls source evidence).tree w tr r w' →
      x ∉ w.db.withdrawalLedger.map Withdrawal.nodeId →
      ((w.db.computeBlastRadius g.settings.maxTraversalDepth x).1.length : Int) ≤
        g.settings.maxWithdrawalAmplification →
      (ReasonsRight x w.db.withdrawalLedger w'.db.withdrawalLedger ↔
        ∀ y ∈ (w.db.computeBlastRadius g.settings.maxTraversalDepth x).1, x ≤ y)) ∧
    ∀ w tr r w',
      Exec (MemoryStep g dumps answers) (processRecurrence g x cls source evidence).tree w tr r w' →
      x ∉ w.memory.withdrawalLedger.map Withdrawal.nodeId →
      ((w.memory.computeBlastRadius x).1.length : Int) ≤ g.settings.maxWithdrawalAmplification →
      (ReasonsRight x w.memory.withdrawalLedger w'.memory.withdrawalLedger ↔
        ∀ y ∈ (w.memory.computeBlastRadius x).1, x ≤ y) := by
  constructor
  · intro w tr r w' hexec hnew hsmall
    have hrestricted := hexec.restrict (P := Trans.any) fun _ _ => trivial
    have hsat := signalled_of_step (g := g) hlaw (C := Trans.any) x cls source evidence w
    obtain ⟨-, event, ⟨now, hevent, hdb⟩, -⟩ := (Prog.Sat.sound hsat hrestricted).2
    obtain ⟨rcs, hrcs⟩ := Db.computeBlastRadius_snd g.settings.maxTraversalDepth x w.db
    rw [hdb, hevent.withdraws_all hsmall, hrcs]
    have hroot : x ∈ (w.db.computeBlastRadius g.settings.maxTraversalDepth x).1 :=
      mem_sortedSet.mpr (Lineage.root_mem_traverse _ _ _)
    exact reasonsRight_iff event now (pairwise_sortedSet _) hroot hnew
  · intro w tr r w' hexec hnew hsmall
    have hsat := signalled_of_memoryStep (g := g) hlaw dumps x cls source evidence w
    obtain ⟨event, now, hevent, hmemory⟩ := (Prog.Sat.sound hsat hexec).2
    obtain ⟨rcs, hrcs⟩ := Memory.computeBlastRadius_snd w.memory x
    rw [hmemory, hevent.withdraws_all hsmall, hrcs]
    have hsorted : (w.memory.computeBlastRadius x).1.Pairwise (· < ·) := by
      rw [Memory.computeBlastRadius_fst]
      exact pairwise_sortedSet _
    have hroot : x ∈ (w.memory.computeBlastRadius x).1 := by
      rw [Memory.computeBlastRadius_fst, mem_sortedSet, Memory.mem_breadthFirst]
    exact reasonsRight_iff event now hsorted hroot hnew

end Signal

instance (x : NodeId) (before after : List Withdrawal) : Decidable (ReasonsRight x before after) :=
  inferInstanceAs (Decidable (_ ∧ _))

/-- A report that a node has failed in use. -/
def openFailure (x : NodeId) : Request :=
  .observe (some "Bearer designator") { nodeId := x, recurrenceClass := "FUNCTIONAL_FAILURE" }

/-- A child whose id sorts after the root's: the root is the one implicated, on both backends. -/
theorem reasons_right_later_child :
    let w := openWorld [openSubmission "draft" ["clean-parent-1"]] none
    let m := MemoryWorld.initial { dag := [], quarantineLedger := [] } none
    let p := processRecurrence openSetup "clean-parent-1" "FUNCTIONAL_FAILURE" "designator" []
    (∃ tr r w', Exec (Step openSetup Answers.lawful) p.tree w tr r w' ∧
      w'.db.withdrawn = ["clean-parent-1", "draft"] ∧
      ReasonsRight "clean-parent-1" w.db.withdrawalLedger w'.db.withdrawalLedger) ∧
    ∃ tr r m', Exec (MemoryStep openSetup (fun _ => "") Answers.lawful) p.tree m tr r m' ∧
      ReasonsRight "clean-parent-1" m.memory.withdrawalLedger m'.memory.withdrawalLedger := by
  intro w m p
  have hlaw : Answers.lawful.Lawful := fun _ _ h => h
  have hiff := reasons_right_iff (g := openSetup) hlaw (fun _ => "") "clean-parent-1"
    "FUNCTIONAL_FAILURE" "designator" []
  constructor
  · obtain ⟨tr, hexec⟩ := Prog.exists_exec (T := Step openSetup Answers.lawful)
      (fun c w => Script.step_spec (g := openSetup) (o := openScript "1") c w) p.tree w
    refine ⟨tr, _, _, hexec, by decide +kernel, ?_⟩
    exact (hiff.1 w tr _ _ hexec (by decide +kernel) (by decide +kernel)).mpr (by decide +kernel)
  · obtain ⟨tr, hexec⟩ := Prog.exists_exec
      (T := MemoryStep openSetup (fun _ => "") Answers.lawful)
      (fun c m => (openScript "1").memoryStep_spec (g := openSetup) c m) p.tree m
    refine ⟨tr, _, _, hexec, ?_⟩
    exact (hiff.2 m tr _ _ hexec (by decide +kernel) (by decide +kernel)).mpr (by decide +kernel)

/-- **An earlier child.**  The child of the root sorts before it; a failure of the root is recorded
as one of the child, and the root as its dependent. -/
theorem reasons_wrong_earlier_child : ¬ ∀ hs w tr r w', Run openSetup (Step openSetup Answers.lawful)
    (World.initial openSetup {} none) hs w →
      Exec (Step openSetup Answers.lawful) ((openFailure "clean-parent-1").handle openSetup).tree w
        tr r w' →
      "clean-parent-1" ∉ w.db.withdrawn → "clean-parent-1" ∈ w'.db.withdrawn →
      (∀ event ∈ w'.db.recurrenceEvents, event.escalated = false) →
        ReasonsRight "clean-parent-1" w.db.withdrawalLedger w'.db.withdrawalLedger := by
  intro hall
  obtain ⟨hs, hrun, -⟩ := exists_open_run [openSubmission "a-draft" ["clean-parent-1"]] none
  obtain ⟨tr, hexec⟩ := Prog.exists_exec (T := Step openSetup Answers.lawful)
    (fun c w => Script.step_spec (g := openSetup) (o := openScript "1") c w)
    ((openFailure "clean-parent-1").handle openSetup).tree
    (openWorld [openSubmission "a-draft" ["clean-parent-1"]] none)
  have hright := hall hs _ tr _ _ hrun hexec (by decide +kernel) (by decide +kernel) (by decide +kernel)
  exact absurd hright (by decide +kernel)

/-! ## 4. All or nothing -/

section Bound

variable {g : Setup} {answers : Answers} {x n : NodeId} {cls source : String}
  {event : RecurrenceEvent} {db db' : Db}

/-- **All or nothing.**  One event is recorded.  Within the bound the whole radius is withdrawn and
nothing that was is touched; beyond it nothing is, and the event is escalated. -/
def AllOrNothing (g : Setup) (x : NodeId) (cls source : String) (event : RecurrenceEvent)
    (db db' : Db) : Prop :=
  event.nodeId = x ∧ event.recurrenceClass = cls ∧ event.signalSource = source ∧
    db'.recurrenceEvents =
      Keyed.insertOrReplace RecurrenceEvent.eventId db.recurrenceEvents event ∧
    (((db.computeBlastRadius g.settings.maxTraversalDepth x).1.length : Int) ≤
          g.settings.maxWithdrawalAmplification ∧ event.escalated = false ∧
        db.withdrawalLedger <+: db'.withdrawalLedger ∧
        (∀ y, y ∈ db'.withdrawn ↔ y ∈ db.withdrawn ∨
          y ∈ (db.computeBlastRadius g.settings.maxTraversalDepth x).1) ∨
      g.settings.maxWithdrawalAmplification <
          ((db.computeBlastRadius g.settings.maxTraversalDepth x).1.length : Int) ∧
        event.escalated = true ∧ db'.withdrawalLedger = db.withdrawalLedger)

theorem Db.Signalled.allOrNothing (h : Db.Signalled g x cls source event db db') :
    AllOrNothing g x cls source event db db' := by
  obtain ⟨now, hevent, rfl⟩ := h
  obtain ⟨rcs, hrcs⟩ := Db.computeBlastRadius_snd g.settings.maxTraversalDepth x db
  refine ⟨hevent.node, hevent.recurrence, hevent.signal, by rw [hrcs]; rfl, ?_⟩
  cases hescalated : event.escalated with
  | false =>
    have hsmall : ((db.computeBlastRadius g.settings.maxTraversalDepth x).1.length : Int) ≤
        g.settings.maxWithdrawalAmplification := by
      have hnot := mt hevent.escalated.mpr (by rw [hescalated]; simp)
      omega
    refine Or.inl ⟨hsmall, rfl, ?_, ?_⟩
    · rw [hrcs]
      exact Keyed.prefix_foldl_insertOrIgnore _ _
    · intro y
      rw [Db.mem_withdrawn_apply, hevent.withdraws_all hsmall, hrcs]
      rfl
  | true =>
    refine Or.inr ⟨hevent.escalated.mp hescalated, rfl, ?_⟩
    rw [RecurrenceEvent.withdraws, if_pos hescalated, hrcs]
    rfl

/-! ## 5. The hook of a designation -/

/-- The node's radius is withdrawn, or an escalated event about it asks for a decision. -/
def Db.Answered (n : NodeId) (ids : List NodeId) (db : Db) : Prop :=
  (∀ y ∈ ids, y ∈ db.withdrawn) ∨ ∃ event ∈ db.recurrenceEvents, event.nodeId = n ∧
    event.recurrenceClass = "RENEWED_DESIGNATION" ∧ event.escalated = true

/-- A signal about the node answers for it. -/
theorem AllOrNothing.answered (h : AllOrNothing g n "RENEWED_DESIGNATION" source event db db') :
    db'.Answered n (db.computeBlastRadius g.settings.maxTraversalDepth n).1 := by
  obtain ⟨hnode, hclass, -, hevents, ⟨-, -, -, hmem⟩ | ⟨-, hescalated, -⟩⟩ := h
  · exact Or.inl fun y hy => (hmem y).mpr (Or.inr hy)
  · refine Or.inr ⟨event, ?_, hnode, hclass, hescalated⟩
    rw [hevents, Keyed.mem_insertOrReplace]
    exact Or.inr rfl

/-- A signal about any node takes no answer away, when its event has an id of its own. -/
theorem AllOrNothing.keeps_answer {ids : List NodeId} (h : AllOrNothing g x cls source event db db')
    (hfresh : event.eventId ∉ db.recurrenceEvents.map RecurrenceEvent.eventId)
    (hanswered : db.Answered n ids) : db'.Answered n ids := by
  obtain ⟨-, -, -, hevents, hledger⟩ := h
  rcases hanswered with hall | ⟨old, hold, hrest⟩
  · refine Or.inl fun y hy => ?_
    rcases hledger with ⟨-, -, -, hmem⟩ | ⟨-, -, hsame⟩
    · exact (hmem y).mpr (Or.inl (hall y hy))
    · rw [Db.withdrawn, hsame]
      exact hall y hy
  · refine Or.inr ⟨old, ?_, hrest⟩
    rw [hevents, Keyed.insertOrReplace_of_notMem hfresh]
    exact List.mem_append_left _ hold

/-- The moment at which a hook looks at the horizons. -/
def Call.LooksAt (t : Time) : Call → Prop
  | .store (.getActiveHorizonSet now) => now = t
  | _ => True

/-- A recurrence event is recorded under an id that no other event has. -/
def FreshSignals : Trans Call Call.Res Exc World
  | .store (.applyWithdrawalTransaction event _ _), w, _, _ =>
    event.eventId ∉ w.db.recurrenceEvents.map RecurrenceEvent.eventId
  | _, _, _, _ => True

/-- What is said of the calls of a designation: when its hook looks, and that ids are fresh. -/
def HookAt (t : Time) : Trans Call Call.Res Exc World :=
  fun c w r w' => c.LooksAt t ∧ FreshSignals c w r w'

/-- **The hook answers for every node with an active horizon.** -/
theorem answered_recurrenceHook (hlaw : answers.Lawful) (ids : List NodeId) (t : Time) (w : World) :
    Act.Sat (restrict (Step g answers) (HookAt t)) Trans.any
      (recurrenceHook g ids "RENEWED_DESIGNATION")
      (onOk (fun _ w' => w'.db.toLineage = w.db.toLineage ∧ ∀ n ∈ ids,
          n ∈ w.db.getActiveHorizonSet t →
            w'.db.Answered n (w.db.computeBlastRadius g.settings.maxTraversalDepth n).1)
        fun _ _ => True) w := by
  rw [recurrenceHook, Act.sat_bind]
  intro r w₁ hclock
  obtain ⟨⟨hr, hw₁⟩, -⟩ := hclock
  subst w₁
  obtain ⟨now, rfl⟩ := hlaw _ _ hr
  refine ⟨trivial, ?_⟩
  change Act.Sat _ _ (store (.getActiveHorizonSet now) >>= _) _ w
  rw [Act.sat_bind]
  rintro r w₁ ⟨⟨rfl, rfl⟩, rfl, -⟩
  refine ⟨trivial, ?_⟩
  -- every round of the loop answers for its node, and takes no answer away
  refine (Act.sat_forEach_each (I := fun w' : World => w'.db.toLineage = w.db.toLineage)
    (D := fun n w' => n ∈ w.db.getActiveHorizonSet now →
      w'.db.Answered n (w.db.computeBlastRadius g.settings.maxTraversalDepth n).1)
    (X := fun _ _ => True) ids ?_ rfl).mono ?_
  · intro n hn w₁ hlin
    split
    · refine (signalled_of_step hlaw n "RENEWED_DESIGNATION" "internal_hook" [] w₁).mono ?_
      rintro r w₂ ⟨rfl, event, hsignalled, ids, now', db₁, hevents, hhook⟩
      have hall := hsignalled.allOrNothing
      have hfresh : event.eventId ∉ w₁.db.recurrenceEvents.map RecurrenceEvent.eventId := by
        rw [← hevents]
        exact hhook.2
      refine ⟨?_, ?_, ?_⟩
      · obtain ⟨_, _, hdb⟩ := hsignalled
        rw [hdb]
        exact (Db.computeBlastRadius_toLineage _ _ _).trans hlin
      · intro _
        rw [← Db.computeBlastRadius_congr hlin]
        exact hall.answered
      · exact fun y hy hactive => hall.keeps_answer hfresh (hy hactive)
    · rename_i hinactive
      exact ⟨hlin, fun hactive => absurd hactive hinactive, fun _ hy => hy⟩
  · rintro (e | _) w' h'
    · trivial
    · exact ⟨h'.1, h'.2.1⟩

/-! ## 6. The rest of the designation -/

/-- Only a withdrawal writes the two tables a recurrence is recorded in. -/
theorem Store.exec_withdrawals (g : Setup) (db : Db) : ∀ c : Store, c.kind ≠ .withdrawal →
    (c.exec g db).2.withdrawalLedger = db.withdrawalLedger ∧
      (c.exec g db).2.recurrenceEvents = db.recurrenceEvents
  | .applyWithdrawalTransaction _ _ _, h => absurd rfl h
  | .computeBlastRadius root, _ => by
    obtain ⟨rcs, hrcs⟩ := Db.computeBlastRadius_snd g.settings.maxTraversalDepth root db
    rw [Store.exec, hrcs]
    exact ⟨rfl, rfl⟩
  | .recordShadowDecision d, _ => by
    simp only [Store.exec, Db.recordShadowDecision]
    split
    · exact ⟨rfl, rfl⟩
    · exact ⟨rfl, rfl⟩
  | .getDag, _ | .getQuarantineLedger, _ | .getRepairCandidates, _ | .getCheckpoints, _
  | .getSubstituteDeclarations, _ | .nodesExist _, _ | .areQuarantined _, _
  | .getNodeContentHashes _, _ | .computeCoversIntervalGap _, _ | .computeQuarantineDigest _, _
  | .computeStateDigest, _ | .getCriticalDependents _, _ | .findContinuityReplacement _, _
  | .getActiveHorizonSet _, _ | .countRecentSignals _ _, _ | .countRecentSignalsGlobal _, _
  | .commitNode _ _, _ | .applyQuarantineTransaction _ _, _ | .updateRepairCandidate _ _, _
  | .assignRepairCandidate _ _, _
  | .recordTaintedRejection _ _ _ _, _ | .recordTaintedOffer _ _ _, _ | .checkRetryCompletion _, _
  | .recordReintegration _ _ _ _, _ | .recordReintegrationEvidence _, _
  | .recordContinuityExposure _, _ | .recordSignalAttempt _ _ _ _ _, _ | .recordDetectorEvent _, _
  | .addCheckpoint _, _ | .addSubstituteDeclaration _, _ | .addExternalEffect _ _ _ _, _
  | .renewTrust _ _ _, _ | .recordCalibrationRun _, _ => ⟨rfl, rfl⟩

/-- A call that is no withdrawal and belongs to no transaction. -/
def Call.Bystander (c : Call) : Prop := c.kind ≠ .withdrawal ∧ c.kind ≠ .tx

theorem Call.of_bystander {ks : List CallKind} (h : ks.contains .withdrawal = false)
    (htx : ks.contains .tx = false) : Call.Of Call.Bystander ks := by
  intro c hc
  refine ⟨?_, ?_⟩
  · intro hk
    rw [hk] at hc
    rw [List.contains_iff_mem.mpr hc] at h
    exact absurd h (by simp)
  · intro hk
    rw [hk] at hc
    rw [List.contains_iff_mem.mpr hc] at htx
    exact absurd htx (by simp)

/-- Answers stand while nothing is withdrawn. -/
theorem answered_bystander {C : Trans Call Call.Res Exc World} {c : Call} {w w' : World}
    {r : Except Exc c.Res} {ids : List NodeId} (hc : c.Bystander)
    (ht : restrict (Step g answers) C c w r w') (h : w.db.Answered n ids) :
    w'.db.Answered n ids := by
  cases c with
  | store c =>
    obtain ⟨hledger, hevents⟩ := Store.exec_withdrawals g w.db c hc.1
    rw [ht.1.2]
    unfold Db.Answered Db.withdrawn
    rw [hledger, hevents]
    exact h
  | ext e => rwa [ht.1.2]
  | getAdapterKey => rwa [ht.1.2]
  | setAdapterKey key => rwa [ht.1.2]
  | sync k =>
    rw [ht.1.2]
    cases k with
    | begin => exact absurd rfl hc.2
    | commit => exact absurd rfl hc.2
    | rollback => exact absurd rfl hc.2
    | enterShared => exact h
    | leaveShared => exact h
    | requestExclusive => exact h
    | enterExclusive => exact h
    | leaveExclusive => exact h

/-- The database with more signal attempts. -/
def Db.Attempted (db db' : Db) : Prop :=
  ∃ rows, db' = { db with signalAttempts := db.signalAttempts ++ rows }

theorem Db.Attempted.refl (db : Db) : db.Attempted db := ⟨[], by rw [List.append_nil]⟩

theorem Db.Attempted.trans {db₁ db₂ db₃ : Db} (h : db₁.Attempted db₂) (h' : db₂.Attempted db₃) :
    db₁.Attempted db₃ := by
  obtain ⟨rows, rfl⟩ := h
  obtain ⟨rows', rfl⟩ := h'
  exact ⟨rows ++ rows', by rw [← List.append_assoc]⟩

/-- What a request does before it is let through: it asks, it reads, and it records its attempt. -/
def Call.Preliminary (c : Call) : Prop := c.kind ∈ [CallKind.ext, .read, .signal, .getKey]

theorem attempted_preliminary {C : Trans Call Call.Res Exc World} {c : Call} {w w' : World}
    {r : Except Exc c.Res} (hc : c.Preliminary) (ht : restrict (Step g answers) C c w r w') :
    w.db.Attempted w'.db ∧ w'.adapterKey = w.adapterKey := by
  cases c with
  | store c =>
    rw [ht.1.2]
    refine ⟨?_, rfl⟩
    cases c with
    | recordSignalAttempt source x kind outcome now => exact ⟨_, rfl⟩
    | updateRepairCandidate x rc => exact absurd hc (Store.kind_updateRepairCandidate x rc rfl rfl)
    | getDag | getQuarantineLedger | getRepairCandidates | getCheckpoints | getSubstituteDeclarations
    | nodesExist | areQuarantined | getNodeContentHashes | computeCoversIntervalGap
    | computeQuarantineDigest | computeStateDigest | getCriticalDependents
    | findContinuityReplacement | getActiveHorizonSet | countRecentSignals
    | countRecentSignalsGlobal => exact Db.Attempted.refl _
    | _ => exact absurd hc (by simp [Call.Preliminary, Call.kind, Store.kind])
  | ext e =>
    rw [ht.1.2]
    exact ⟨Db.Attempted.refl _, rfl⟩
  | getAdapterKey =>
    rw [ht.1.2]
    exact ⟨Db.Attempted.refl _, rfl⟩
  | setAdapterKey key => exact absurd hc (by simp [Call.Preliminary, Call.kind])
  | sync k => cases k <;> exact absurd hc (by simp [Call.Preliminary, Call.kind, Sync.kind])

/-- Every node of the radius with an active horizon is answered for. -/
def Db.AllAnswered (g : Setup) (x : NodeId) (t : Time) (db db' : Db) : Prop :=
  ∀ n ∈ (db.computeBlastRadius g.settings.maxTraversalDepth x).1, n ∈ db.getActiveHorizonSet t →
    db'.Answered n (db.computeBlastRadius g.settings.maxTraversalDepth n).1

/-- The exclusive section: nothing was contained, or everybody is answered for. -/
theorem answered_designateLocked (hlaw : answers.Lawful) (e : DesignationEvent) (identity : String)
    (t : Time) (w : World) :
    Act.Sat (restrict (Step g answers) (HookAt t)) Trans.any (designateLocked g e identity)
      (onOk (fun _ w' => w'.db.ledger = w.db.ledger ∨
          w.db.AllAnswered g e.poisonedNodeId t w'.db) fun _ _ => True) w := by
  rw [designateLocked, Act.sat_bind]
  rintro r w₁ ⟨⟨rfl, rfl⟩, -⟩
  refine ⟨trivial, ?_⟩
  change Act.Sat _ _ (store (.areQuarantined [e.poisonedNodeId]) >>= _) _ w
  rw [Act.sat_bind]
  rintro r w₁ ⟨⟨rfl, rfl⟩, -⟩
  refine ⟨trivial, ?_⟩
  change Act.Sat _ _ (if _ then _ else _) _ w
  split
  · exact Or.inl rfl
  · split
    · exact Or.inl rfl
    · -- once the hook has run, no call of the rest withdraws anything
      have hframe : ∀ c : Call, c.Bystander → ∀ w₁ r w₂,
          restrict (Step g answers) (HookAt t) c w₁ r w₂ →
          w.db.AllAnswered g e.poisonedNodeId t w₁.db →
            Trans.any c w₁ r w₂ ∧ w.db.AllAnswered g e.poisonedNodeId t w₂.db :=
        fun c hc w₁ r w₂ ht h₁ =>
          ⟨trivial, fun n hn hactive => answered_bystander hc ht (h₁ n hn hactive)⟩
      rw [contain, Act.sat_bind, Act.sat_bind]
      rintro r w₁ ⟨⟨rfl, rfl⟩, -⟩
      refine ⟨trivial, ?_⟩
      change Act.Sat _ _ (recurrenceHook g _ _ >>= _) _ _
      rw [Act.sat_bind]
      obtain ⟨rcs, hrcs⟩ :=
        Db.computeBlastRadius_snd g.settings.maxTraversalDepth e.poisonedNodeId w.db
      refine (answered_recurrenceHook hlaw _ t _).mono ?_
      rintro (exc | _) w₂ h₂
      · trivial
      · have hall : w.db.AllAnswered g e.poisonedNodeId t w₂.db := by
          intro n hn hactive
          have hanswered := h₂.2 n hn
          rw [Store.exec, hrcs] at hanswered
          exact hanswered hactive
        refine (uses_read (Call.of_bystander rfl rfl) rfl).sat_bind hframe hall
          (fun digest w₃ h₃ => ?_) fun _ _ _ => trivial
        refine (uses_ext (Call.of_bystander rfl rfl : Call.Of _ [.ext]) _ rfl).sat_bind hframe h₃
          (fun eventId w₄ h₄ => ?_) fun _ _ _ => trivial
        refine (uses_stampNow (Call.of_bystander rfl rfl)).sat_bind hframe h₄
          (fun detected w₅ h₅ => ?_) fun _ _ _ => trivial
        refine (uses_store (Call.of_bystander rfl rfl : Call.Of _ [.ledger]) rfl).sat_bind hframe h₅
          (fun event w₆ h₆ => ?_) fun _ _ _ => trivial
        change Act.Sat _ _ (attemptSafeContinuity g _ _ >>= _) _ w₆
        refine (uses_attemptSafeContinuity g (Call.of_bystander rfl rfl) _ _).sat_bind hframe h₆
          (fun results w₇ h₇ => ?_) fun _ _ _ => trivial
        refine (uses_attemptReconstruction g (Call.of_bystander rfl rfl)
          (fun _ => Call.of_bystander rfl rfl) _).sat_bind hframe h₇
          (fun _ w₈ h₈ => ?_) fun _ _ _ => trivial
        exact Or.inr h₈

/-- `/designate`: a designation that adds to the ledger answers for every node of the radius that
was reintegrated and whose horizon has not run out. -/
theorem answered_designatePoison (hlaw : answers.Lawful) (header : Option String)
    (e : DesignationEvent) (t : Time) (w : World) :
    Act.Sat (restrict (Step g answers) (HookAt t)) Trans.any (designatePoison g header e)
      (fun _ w' => w'.db.ledger = w.db.ledger ∨ w.db.AllAnswered g e.poisonedNodeId t w'.db) w := by
  have hframe : ∀ c : Call, c.Preliminary → ∀ w₁ r w₂,
      restrict (Step g answers) (HookAt t) c w₁ r w₂ → w.db.Attempted w₁.db →
        Trans.any c w₁ r w₂ ∧ w.db.Attempted w₂.db :=
    fun c hc w₁ r w₂ ht h₁ => ⟨trivial, h₁.trans (attempted_preliminary hc ht).1⟩
  have hpreliminary : ∀ {ks : List CallKind},
      ks.all [CallKind.ext, .read, .signal, .getKey].contains = true →
        Call.Of Call.Preliminary ks :=
    fun hk => Call.Of.sub (fun _ hc => hc) hk
  have hsame : ∀ w' : World, w.db.Attempted w'.db → w'.db.ledger = w.db.ledger := by
    rintro w' ⟨rows, hdb⟩
    rw [hdb]
  refine (uses_verifyRole g (hpreliminary rfl) _ _).sat_bind hframe (Db.Attempted.refl _)
    (fun claims w₁ h₁ => ?_) fun _ w' h' => Or.inl (hsame w' h')
  refine (uses_limitDesignations g (hpreliminary rfl) _ _).sat_bind hframe h₁
    (fun _ w₂ h₂ => ?_) fun _ w' h' => Or.inl (hsame w' h')
  refine sat_withExclusive (fun _ _ _ _ => trivial)
    (sat_withTransaction (fun _ _ _ _ => trivial)
      (uses_designateLocked g (Call.of_noTx rfl) e _) ?_)
  refine (answered_designateLocked hlaw e _ t { w₂ with saved := some w₂.db }).mono ?_
  rintro (exc | response) w₃ h₃
  · exact Or.inl (hsame w₂ h₂)
  · rcases h₃ with hledger | hall
    · exact Or.inl (hledger.trans (hsame w₂ h₂))
    · obtain ⟨rows, hdb⟩ := h₂
      rw [hdb] at hall
      exact Or.inr hall

end Bound

/-! ## 7. The bound -/

/-- **Withdrawal is all or nothing.**  `process_recurrence` always records one event, and withdraws
the whole radius or, beyond the bound, nothing.  After a designation that has added to the ledger,
every reintegrated node of its radius with an unexpired horizon has its own radius withdrawn or an
escalated event. -/
theorem withdrawal_bounded (g : Setup) {answers : Answers} (hlaw : answers.Lawful) :
    (∀ x cls source evidence w tr r w',
      Exec (Step g answers) (processRecurrence g x cls source evidence).tree w tr r w' →
        r = .ok () ∧ ∃ event, AllOrNothing g x cls source event w.db w'.db) ∧
    ∀ header e t w tr r w',
      Exec (Step g answers) ((Request.designate header e).handle g).tree w tr r w' →
      (∀ k ∈ tr, k.call.LooksAt t) →
      (∀ k ∈ tr, FreshSignals k.call k.before k.answer k.after) →
      w'.db.ledger ≠ w.db.ledger →
        ∀ n ∈ (w.db.computeBlastRadius g.settings.maxTraversalDepth e.poisonedNodeId).1,
          n ∈ w.db.getActiveHorizonSet t →
            (∀ y ∈ (w.db.computeBlastRadius g.settings.maxTraversalDepth n).1, y ∈ w'.db.withdrawn) ∨
              ∃ event ∈ w'.db.recurrenceEvents, event.nodeId = n ∧
                event.recurrenceClass = "RENEWED_DESIGNATION" ∧ event.escalated = true := by
  constructor
  · intro x cls source evidence w tr r w' hexec
    have hrestricted := hexec.restrict (P := Trans.any) fun _ _ => trivial
    have hsat := signalled_of_step (g := g) hlaw (C := Trans.any) x cls source evidence w
    obtain ⟨hr, event, hsignalled, -⟩ := (Prog.Sat.sound hsat hrestricted).2
    exact ⟨hr, event, hsignalled.allOrNothing⟩
  · intro header e t w tr r w' hexec hlooks hfresh hnew
    have hrestricted := hexec.restrict (P := HookAt t) fun k hk => ⟨hlooks k hk, hfresh k hk⟩
    have hsat := answered_designatePoison (g := g) hlaw header e t w
    rcases (Prog.Sat.sound hsat hrestricted).2 with hsame | hall
    · exact absurd hsame hnew
    · exact hall

/-- Whether the call is what `HookAt 0` says of it. -/
def hookCheck : Call → World → Bool
  | .store (.getActiveHorizonSet now), _ => now = 0
  | .store (.applyWithdrawalTransaction event _ _), w =>
    event.eventId ∉ w.db.recurrenceEvents.map RecurrenceEvent.eventId
  | _, _ => true

theorem hookAt_of_check {c : Call} {w w' : World} {r : Except Exc c.Res}
    (h : hookCheck c w = true) : HookAt 0 c w r w' := by
  cases c with
  | store c =>
    cases c with
    | getActiveHorizonSet now =>
      have hnow : now = 0 := of_decide_eq_true h
      exact ⟨hnow, trivial⟩
    | applyWithdrawalTransaction event ids now =>
      have hfresh : event.eventId ∉ w.db.recurrenceEvents.map RecurrenceEvent.eventId :=
        of_decide_eq_true h
      exact ⟨trivial, hfresh⟩
    | _ => exact ⟨trivial, trivial⟩
  | _ => exact ⟨trivial, trivial⟩

/-- A summary has been rebuilt from the root, which is then designated: the rebuilt node, whose
horizon has just begun, is withdrawn with its radius. -/
theorem withdrawal_bounded_rebuilt :
    let w := openWorld rebuildRequests none
    let p := processRecurrence openSetup "reconstructed-3" "FUNCTIONAL_FAILURE" "designator" []
    let req := Request.designate (some "Bearer designator") ⟨"clean-parent-1", "poisoned"⟩
    (∃ tr r w', Exec (Step openSetup Answers.lawful) p.tree w tr r w' ∧ r = .ok () ∧
      ∃ event, AllOrNothing openSetup "reconstructed-3" "FUNCTIONAL_FAILURE" "designator" event
        w.db w'.db) ∧
    ∃ tr r w', Exec (Step openSetup Answers.lawful) (req.handle openSetup).tree w tr r w' ∧
      w'.db.Answered "reconstructed-3" ["reconstructed-3"] := by
  intro w p req
  have hlaw : Answers.lawful.Lawful := fun _ _ h => h
  have hbounded := withdrawal_bounded openSetup hlaw
  constructor
  · obtain ⟨tr, hexec⟩ := Prog.exists_exec (T := Step openSetup Answers.lawful)
      (fun c w => Script.step_spec (g := openSetup) (o := openScript "5") c w) p.tree w
    exact ⟨tr, _, _, hexec, hbounded.1 _ _ _ _ _ _ _ _ hexec⟩
  · obtain ⟨tr, hexec, hhook⟩ := Prog.run_exec (T := Step openSetup Answers.lawful) (P := HookAt 0)
      (fun c w => Script.step_spec (g := openSetup) (o := openScript "4") c w)
      (fun c w h => hookAt_of_check (c := c) (w := w) h) (req.handle openSetup).tree w
      (by decide +kernel)
    have hradius : (w.db.computeBlastRadius openSetup.settings.maxTraversalDepth
        "reconstructed-3").1 = ["reconstructed-3"] := by decide +kernel
    have hanswered := hbounded.2 _ ⟨"clean-parent-1", "poisoned"⟩ 0 w tr _ _ hexec
      (fun k hk => (hhook k hk).1) (fun k hk => (hhook k hk).2) (by decide +kernel)
      "reconstructed-3" (by decide +kernel) (by decide +kernel)
    rw [hradius] at hanswered
    exact ⟨tr, _, _, hexec, hanswered⟩

end GovernorGateway
