/-
# What the measured cost says of containment and of availability

* **Breaches.**  The report checks one step at a time, and that decides the whole question: it names
  the clean nodes with a quarantined parent or covered id, each once, and it names none exactly when
  no clean node is reachable from the ledger along edges of any length (`breaches_exact`).  The
  ledger may hold ids that are not stored, and the graph may have cycles and dangling references.
* **Availability.**  The report counts two ledgers and subtracts both counts from the number of
  nodes.  A ledger may hold ids that are no nodes (`reset` itself puts one into the quarantine), and
  a node may be in both.  The fraction is right exactly when neither is so
  (`availability_exact_iff`).
-/
import GovernorGateway.Graph.Closed
import GovernorGateway.Properties.Withdrawals
import GovernorGateway.Semantics.Stable
import GovernorGateway.Sqlite.Report
import Mathlib.Algebra.Order.Field.Basic
import Mathlib.Algebra.Order.Ring.Rat
import Mathlib.Data.Finset.Card
import Mathlib.Tactic.Linarith
import Mathlib.Tactic.Positivity

namespace GovernorGateway

open Effects

/-! ## 1. Breaches -/

/-- An edge of the graph: the payload stored under `y` names `x` as a parent or covers it. -/
def DagEdge (dag : List (NodeId × Payload)) (x y : NodeId) : Prop := ∃ p, (y, p) ∈ dag ∧ p.Names x

/-- A clean node with a quarantined parent or covered id. -/
def Breached (dag : List (NodeId × Payload)) (ledger : List NodeId) (x : NodeId) : Prop :=
  x ∉ ledger ∧ ∃ q ∈ ledger, DagEdge dag q x

theorem meetsQuarantine_iff {ledger xs : List NodeId} :
    meetsQuarantine ledger xs = true ↔ ∃ q ∈ ledger, q ∈ xs := by
  induction xs with
  | nil => simp [meetsQuarantine]
  | cons x xs ih =>
    rw [meetsQuarantine]
    split
    · rename_i hx
      exact ⟨fun _ => ⟨x, hx, List.mem_cons_self⟩, fun _ => rfl⟩
    · rename_i hx
      rw [ih]
      constructor
      · rintro ⟨q, hq, hmem⟩
        exact ⟨q, hq, List.mem_cons_of_mem x hmem⟩
      · rintro ⟨q, hq, hmem⟩
        rcases List.mem_cons.mp hmem with rfl | hmem
        · exact absurd hq hx
        · exact ⟨q, hq, hmem⟩

/-- One round names the node, or nobody. -/
theorem breachesOf_eq (ledger : List NodeId) (n : NodeId × Payload)
    [Decidable (n.1 ∉ ledger ∧ ∃ q ∈ ledger, n.2.Names q)] :
    breachesOf ledger n = if n.1 ∉ ledger ∧ ∃ q ∈ ledger, n.2.Names q then [n.1] else [] := by
  have hnames : (∃ q ∈ ledger, n.2.Names q) ↔ meetsQuarantine ledger n.2.parentIds = true ∨
      meetsQuarantine ledger n.2.covers = true := by
    rw [meetsQuarantine_iff, meetsQuarantine_iff]
    constructor
    · rintro ⟨q, hq, hparent | hcover⟩
      · exact Or.inl ⟨q, hq, hparent⟩
      · exact Or.inr ⟨q, hq, hcover⟩
    · rintro (⟨q, hq, hparent⟩ | ⟨q, hq, hcover⟩)
      · exact ⟨q, hq, Or.inl hparent⟩
      · exact ⟨q, hq, Or.inr hcover⟩
  unfold breachesOf
  by_cases hclean : n.1 ∈ ledger
  · simp [hclean]
  · by_cases hparents : meetsQuarantine ledger n.2.parentIds = true
    · simp [hclean, hnames, hparents]
    · by_cases hcovers : meetsQuarantine ledger n.2.covers = true
      · simp [hclean, hnames, hparents, hcovers]
      · simp [hclean, hnames, hparents, hcovers]

theorem mem_breaches {dag : List (NodeId × Payload)} {ledger : List NodeId} {x : NodeId} :
    x ∈ breaches dag ledger ↔ Breached dag ledger x := by
  classical
  rw [breaches, List.mem_flatMap]
  constructor
  · rintro ⟨n, hn, hx⟩
    rw [breachesOf_eq] at hx
    split at hx
    · rename_i hbreach
      obtain rfl := List.mem_singleton.mp hx
      obtain ⟨q, hq, hnames⟩ := hbreach.2
      exact ⟨hbreach.1, q, hq, n.2, hn, hnames⟩
    · exact absurd hx (by simp)
  · rintro ⟨hclean, q, hq, p, hp, hnames⟩
    refine ⟨(x, p), hp, ?_⟩
    rw [breachesOf_eq, if_pos ⟨hclean, q, hq, hnames⟩]
    exact List.mem_singleton_self x

/-- Each node is looked at once. -/
theorem nodup_breaches {ledger : List NodeId} : ∀ {dag : List (NodeId × Payload)},
    (dag.map Prod.fst).Nodup → (breaches dag ledger).Nodup
  | [], _ => List.nodup_nil
  | n :: dag, h => by
    classical
    rw [List.map_cons, List.nodup_cons] at h
    have hrest : (breaches dag ledger).Nodup := nodup_breaches h.2
    rw [breaches, List.flatMap_cons, breachesOf_eq]
    split
    · refine List.nodup_cons.mpr ⟨fun hn => h.1 ?_, hrest⟩
      obtain ⟨-, q, -, p, hp, -⟩ := mem_breaches.mp hn
      exact List.mem_map.mpr ⟨(n.1, p), hp, rfl⟩
    · exact hrest

/-- **One step decides all**: no clean node is one step from the ledger exactly when none is any
number of steps from it. -/
theorem no_breach_iff {dag : List (NodeId × Payload)} {ledger : List NodeId} :
    (∀ x, ¬ Breached dag ledger x) ↔
      ∀ q ∈ ledger, ∀ x, Relation.ReflTransGen (DagEdge dag) q x → x ∈ ledger := by
  constructor
  · intro hnone q hq x hpath
    refine Reach.Closed.reachable (Q := {x | x ∈ ledger}) ?_ hq hpath
    intro y z hedge hy
    by_contra hz
    exact hnone z ⟨hz, y, hy, hedge⟩
  · rintro hall x ⟨hclean, q, hq, hedge⟩
    exact hclean (hall q hq x (.single hedge))

/-- **The breach report is sound and complete.**  In any graph and with any ledger: the escape set
has every clean node with a quarantined parent or covered id, each once, and nothing else; and it is
empty exactly when no clean node of the graph can be reached from a quarantined id. -/
theorem breaches_exact (c : CostData) (hdag : (c.dag.map Prod.fst).Nodup) (now : Time) :
    (∀ x, x ∈ (c.report now).safety.escapeSet ↔ Breached c.dag c.quarantineLedger x) ∧
    (∀ x, Breached c.dag c.quarantineLedger x →
      (c.report now).safety.escapeSet.count x = 1) ∧
    ((c.report now).safety.escapeSet = [] ↔ ∀ x ∈ c.dag.map Prod.fst, x ∉ c.quarantineLedger →
      ∀ q ∈ c.quarantineLedger, ¬ Relation.ReflTransGen (DagEdge c.dag) q x) := by
  have hset : (c.report now).safety.escapeSet = breaches c.dag c.quarantineLedger := rfl
  rw [hset]
  refine ⟨fun x => mem_breaches, fun x hx => ?_, ?_⟩
  · exact List.count_eq_one_of_mem (nodup_breaches hdag) (mem_breaches.mpr hx)
  · have hempty : breaches c.dag c.quarantineLedger = [] ↔
        ∀ x, ¬ Breached c.dag c.quarantineLedger x := by
      rw [List.eq_nil_iff_forall_not_mem]
      exact forall_congr' fun x => not_congr mem_breaches
    rw [hempty, no_breach_iff]
    constructor
    · intro hall x _ hclean q hq hpath
      exact hclean (hall q hq x hpath)
    · intro hall q hq x hpath
      by_contra hclean
      -- what is reached in a step is a node of the graph
      have hstored : x ∈ c.dag.map Prod.fst := by
        rcases Relation.ReflTransGen.cases_tail hpath with rfl | ⟨y, -, p, hp, -⟩
        · exact absurd hq hclean
        · exact List.mem_map.mpr ⟨(x, p), hp, rfl⟩
      exact hall x hstored hclean q hq hpath

/-- A child of a child of a quarantined id that is not stored: the child is a breach. -/
theorem breaches_exact_ghost :
    let c : CostData :=
      { repairCandidates := [], activeHorizons := [], expiredHorizons := [], withdrawalLedger := [],
        quarantineLedger := ["ghost"], signalCounts := [], calibrationRuns := []
        dag := [("child", { payloadId := "child", parents := [{ parentNodeId := "ghost" }] }),
          ("grandchild", { payloadId := "grandchild", covers := ["child"] })] }
    (c.dag.map Prod.fst).Nodup ∧ (c.report 0).safety.escapeSet = ["child"] ∧
      ¬ ∀ x ∈ c.dag.map Prod.fst, x ∉ c.quarantineLedger →
        ∀ q ∈ c.quarantineLedger, ¬ Relation.ReflTransGen (DagEdge c.dag) q x := by
  intro c
  have hnodup : (c.dag.map Prod.fst).Nodup := by decide
  have hset : (c.report 0).safety.escapeSet = ["child"] := by decide
  refine ⟨hnodup, hset, fun hnone => ?_⟩
  have hempty := (breaches_exact c hnodup 0).2.2.mpr hnone
  rw [hset] at hempty
  exact absurd hempty (by simp)

/-! ## 2. Availability -/

/-- The nodes of the graph that are neither quarantined nor withdrawn. -/
def CostData.available (c : CostData) : List NodeId :=
  (c.dag.map Prod.fst).filter fun x => x ∉ c.quarantineLedger ∧ x ∉ c.withdrawalLedger

/-- What the report should say of the availability of a graph that is not empty. -/
def CostData.AvailabilityRight (c : CostData) : Prop :=
  c.availability.availabilityFraction = (c.available.length : ℚ) / c.dag.length ∧
    0 ≤ c.availability.availabilityFraction ∧ c.availability.availabilityFraction ≤ 1

/-- The ledgers are about nodes of the graph, and no node is in both. -/
structure CostData.Apart (c : CostData) : Prop where
  quarantined : ∀ x ∈ c.quarantineLedger, x ∈ c.dag.map Prod.fst
  withdrawn : ∀ x ∈ c.withdrawalLedger, x ∈ c.dag.map Prod.fst ∧ x ∉ c.quarantineLedger

/-- The three tables have keys. -/
structure CostData.Keys (c : CostData) : Prop where
  dag : (c.dag.map Prod.fst).Nodup
  quarantined : c.quarantineLedger.Nodup
  withdrawn : c.withdrawalLedger.Nodup

/-- **Two counts and a difference**: without duplicates, taking the lengths of two lists from that
of a third counts what is in neither exactly when both are part of it and have nothing in common. -/
theorem length_filter_notMem_iff {α : Type} [DecidableEq α] {N Q W : List α} (hN : N.Nodup)
    (hQ : Q.Nodup) (hW : W.Nodup) :
    (N.filter fun x => x ∉ Q ∧ x ∉ W).length + (Q.length + W.length) = N.length ↔
      (∀ x ∈ Q, x ∈ N) ∧ ∀ x ∈ W, x ∈ N ∧ x ∉ Q := by
  have hsplit : (N.filter fun x => x ∉ Q ∧ x ∉ W).length + (N.filter fun x => x ∈ Q ∨ x ∈ W).length =
      N.length := by
    have h := List.length_eq_length_filter_add (l := N) fun x => decide (x ∉ Q ∧ x ∉ W)
    have hneg : (N.filter fun x => !decide (x ∉ Q ∧ x ∉ W)) = N.filter fun x => x ∈ Q ∨ x ∈ W := by
      refine List.filter_congr fun x _ => ?_
      by_cases hq : x ∈ Q <;> by_cases hw : x ∈ W <;> simp [hq, hw]
    rw [hneg] at h
    exact h.symm
  -- what is taken away, as a set
  have hcard : (N.filter fun x => x ∈ Q ∨ x ∈ W).length =
      (N.toFinset ∩ (Q.toFinset ∪ W.toFinset)).card := by
    rw [← List.toFinset_card_of_nodup (hN.filter _)]
    congr 1
    ext x
    simp
  have hQcard : Q.length = Q.toFinset.card := (List.toFinset_card_of_nodup hQ).symm
  have hWcard : W.length = W.toFinset.card := (List.toFinset_card_of_nodup hW).symm
  have hle : (N.toFinset ∩ (Q.toFinset ∪ W.toFinset)).card ≤ (Q.toFinset ∪ W.toFinset).card :=
    Finset.card_le_card Finset.inter_subset_right
  have hunion := Finset.card_union_add_card_inter Q.toFinset W.toFinset
  constructor
  · intro h
    have hsub : Q.toFinset ∪ W.toFinset ⊆ N.toFinset := by
      have heq : N.toFinset ∩ (Q.toFinset ∪ W.toFinset) = Q.toFinset ∪ W.toFinset :=
        Finset.eq_of_subset_of_card_le Finset.inter_subset_right (by omega)
      rw [← heq]
      exact Finset.inter_subset_left
    have hdisjoint : Q.toFinset ∩ W.toFinset = ∅ := Finset.card_eq_zero.mp (by omega)
    refine ⟨fun x hx => List.mem_toFinset.mp (hsub (by simp [hx])), fun x hx =>
      ⟨List.mem_toFinset.mp (hsub (by simp [hx])), fun hq => ?_⟩⟩
    have hboth : x ∈ Q.toFinset ∩ W.toFinset := by simp [hx, hq]
    rw [hdisjoint] at hboth
    exact absurd hboth (by simp)
  · rintro ⟨hq, hw⟩
    have hsub : Q.toFinset ∪ W.toFinset ⊆ N.toFinset := by
      intro x hx
      rcases Finset.mem_union.mp hx with hx | hx
      · exact List.mem_toFinset.mpr (hq x (List.mem_toFinset.mp hx))
      · exact List.mem_toFinset.mpr (hw x (List.mem_toFinset.mp hx)).1
    have hdisjoint : Q.toFinset ∩ W.toFinset = ∅ := by
      refine Finset.eq_empty_of_forall_notMem fun x hx => ?_
      obtain ⟨hxq, hxw⟩ := Finset.mem_inter.mp hx
      exact (hw x (List.mem_toFinset.mp hxw)).2 (List.mem_toFinset.mp hxq)
    rw [Finset.inter_eq_right.mpr hsub] at hcard
    rw [hdisjoint, Finset.card_empty] at hunion
    omega

/-- The report is right exactly when the ledgers are about nodes of the graph and have none in
common. -/
theorem availabilityRight_iff (c : CostData) (hkeys : c.Keys) (hpos : 0 < c.dag.length) :
    c.AvailabilityRight ↔ c.Apart := by
  have hfraction : c.availability.availabilityFraction =
      ((c.dag.length : ℚ) - (c.quarantineLedger.length + c.withdrawalLedger.length)) /
        c.dag.length := by
    rw [CostData.availability, fraction, if_pos hpos]
    push_cast
    rfl
  have hposQ : (0 : ℚ) < c.dag.length := by exact_mod_cast hpos
  have hcount := length_filter_notMem_iff hkeys.dag hkeys.quarantined hkeys.withdrawn
  rw [List.length_map] at hcount
  constructor
  · rintro ⟨heq, -, -⟩
    rw [hfraction, div_left_inj' hposQ.ne'] at heq
    have hnat : c.available.length + (c.quarantineLedger.length + c.withdrawalLedger.length) =
        c.dag.length := by
      have hrat : ((c.available.length : ℚ) +
          (c.quarantineLedger.length + c.withdrawalLedger.length)) = c.dag.length := by linarith
      exact_mod_cast hrat
    obtain ⟨hq, hw⟩ := hcount.mp hnat
    exact ⟨hq, hw⟩
  · rintro ⟨hq, hw⟩
    have hnat : c.available.length + (c.quarantineLedger.length + c.withdrawalLedger.length) =
        c.dag.length := hcount.mpr ⟨hq, hw⟩
    have hrat : ((c.available.length : ℚ) +
        (c.quarantineLedger.length + c.withdrawalLedger.length)) = c.dag.length := by exact_mod_cast hnat
    have heq : c.availability.availabilityFraction = (c.available.length : ℚ) / c.dag.length := by
      rw [hfraction]
      congr 1
      linarith
    refine ⟨heq, ?_, ?_⟩
    · rw [heq]
      positivity
    · rw [heq, div_le_one hposQ]
      have hle : c.available.length ≤ c.dag.length := by omega
      exact_mod_cast hle

variable {g : Setup} {answers : Answers}

/-- A withdrawal is recorded once for each node. -/
theorem nodup_withdrawals_exec (c : Store) (db : Db) (h : db.getWithdrawalLedger.Nodup) :
    (c.exec g db).2.getWithdrawalLedger.Nodup := by
  by_cases hc : c.kind = .withdrawal
  · cases c with
    | applyWithdrawalTransaction event ids now => exact Keyed.nodup_foldl_insertOrIgnore _ _ h
    | updateRepairCandidate x rc =>
      rw [Store.kind] at hc
      split at hc
      · exact absurd hc (by decide)
      · exact absurd hc (by decide)
    | _ => exact absurd hc (by simp [Store.kind])
  · rw [Db.getWithdrawalLedger, (Store.exec_withdrawals g db c hc).1]
    exact h

/-- In every reachable state the three tables have keys. -/
theorem keys_of_run {db : Db} {key : Option String} {hs : List Handled} {w : World}
    (hrun : Run g (Step g answers) (World.initial g db key) hs w) (active expired : Time) :
    (w.db.costData active expired).Keys := by
  have hwf : w.db.toLineage.Wf :=
    hrun.stable (K := fun db => db.toLineage.Wf)
      (fun c db => Store.exec_lineage (K := Lineage.Wf) (fun _ _ hL => hL.commitNode)
        (fun ids _ hL => hL.quarantine ids) c db) rfl (Lineage.wf_reset _ _).1
  have hwithdrawn : w.db.getWithdrawalLedger.Nodup :=
    hrun.stable (K := fun db => db.getWithdrawalLedger.Nodup) nodup_withdrawals_exec rfl
      List.nodup_nil
  refine ⟨?_, hwf.ledger_nodup, hwithdrawn⟩
  change (w.db.getDag.map Prod.fst).Nodup
  rw [Db.getDag, List.map_map]
  exact hwf.nodup

/-- **When availability is a fraction of the graph.**  After any requests from a reset: the report
gives the number of nodes that are neither quarantined nor withdrawn, divided by the number of
nodes, exactly when every quarantined and every withdrawn id is a node and none is both. -/
theorem availability_exact_iff {db : Db} {key : Option String} {hs : List Handled} {w : World}
    (hrun : Run g (Step g answers) (World.initial g db key) hs w) (active expired : Time)
    (hpos : 0 < (w.db.costData active expired).dag.length) :
    (w.db.costData active expired).AvailabilityRight ↔ (w.db.costData active expired).Apart :=
  availabilityRight_iff _ (keys_of_run hrun active expired) hpos

/-- A compaction has taken the id that `reset` quarantines: one of two nodes is available, and the
report says so. -/
theorem availability_exact_seeded : ∃ hs w, Run openSetup (Step openSetup Answers.lawful)
      (World.initial openSetup {} none) hs w ∧
    0 < (w.db.costData 0 0).dag.length ∧
    (w.db.costData 0 0).AvailabilityRight := by
  obtain ⟨hs, hrun, -⟩ := exists_open_run [openSummary "quarantined-node-A" ["clean-parent-1"]] none
  have hpos : 0 < ((openWorld [openSummary "quarantined-node-A" ["clean-parent-1"]] none).db.costData
      0 0).dag.length := by decide +kernel
  refine ⟨hs, _, hrun, hpos, (availability_exact_iff hrun 0 0 hpos).mpr ⟨?_, ?_⟩⟩
  · decide +kernel
  · decide +kernel

/-- **Right after a reset** the one node there is is neither quarantined nor withdrawn, and the
report says that nothing is available: the id `reset` quarantines is no node. -/
theorem availability_zero_after_reset : ¬ ∀ hs w,
    Run openSetup (Step openSetup Answers.lawful) (World.initial openSetup {} none) hs w →
    0 < (w.db.costData 0 0).dag.length → (w.db.costData 0 0).AvailabilityRight := by
  intro hall
  have hright := (hall [] _ (.nil _) (by decide)).1
  have hzero : ((World.initial openSetup {} none).db.costData 0 0).availability.availabilityFraction =
      0 := by decide +kernel
  have hone : (((World.initial openSetup {} none).db.costData 0 0).available.length : ℚ) /
      ((World.initial openSetup {} none).db.costData 0 0).dag.length = 1 := by decide +kernel
  rw [hzero, hone] at hright
  exact absurd hright (by decide)

end GovernorGateway
