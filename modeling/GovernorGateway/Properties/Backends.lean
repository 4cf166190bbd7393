/-
# Two backends, one repair

`MemoryStateBackend` and `SqliteStateBackend` implement one interface.  The same calls are applied
to both, from `reset`: their tables stay the same, and every traversal answers the same list.  What
they write about the compactions that are affected is NOT always the same:

* SQLite classifies a compaction that has a `CARRIED` edge FROM ANY NODE of the radius, and of
  several entries for one parent its edge table has the first;
* the in-memory backend classifies it when the node that discovers it is the parent of a `CARRIED`
  entry, any of them; a node is looked at once, so what a later node of the radius is to it does not
  count.

`repairs_agree_iff`: the records say the same all the way exactly when at each traversal these two
notions agree on every stored compaction that has not got the verdict of this traversal already.
-/
import GovernorGateway.Memory.Repair
import GovernorGateway.Sqlite.Index
import GovernorGateway.Semantics.Scripted

namespace GovernorGateway

/-! ## 1. Calls -/

/-- Where a call runs. -/
inductive BackendKind where
  | memory
  | sqlite

/-- The calls that build the graph, and the traversal.  Each backend reads its own clock. -/
inductive RepairCall where
  | commitNode (site : CommitSite) (p : Payload)
  | addCheckpoint (c : Checkpoint)
  | addExternalEffect (key : String) (x : NodeId) (type : String) (now : BackendKind → Time)
  | computeBlastRadius (root : NodeId)

def RepairCall.store (kind : BackendKind) : RepairCall → Store
  | .commitNode site p => .commitNode site p
  | .addCheckpoint c => .addCheckpoint c
  | .addExternalEffect key x type now => .addExternalEffect key x type (now kind)
  | .computeBlastRadius root => .computeBlastRadius root

/-- The backends, next to each other. -/
structure Backends where
  memory : Memory
  sqlite : Db

namespace Backends

/-- `reset` on both. -/
def reset (g : Setup) (b : Backends) : Backends := ⟨b.memory.reset, b.sqlite.reset g.env.sha256⟩

section Run

variable (g : Setup) (dumps : Payload → String)

/-- A call to both. -/
def call (b : Backends) (c : RepairCall) : Backends where
  memory := (Memory.exec g dumps (c.store .memory) b.memory).2
  sqlite := ((c.store .sqlite).exec g b.sqlite).2

/-- Calls to both, one after the other. -/
def after (b : Backends) (calls : List RepairCall) : Backends := calls.foldl (call g dumps) b

/-- `P` holds before the first of the calls and after each of them. -/
def Throughout (P : Backends → Prop) (b : Backends) (calls : List RepairCall) : Prop :=
  ∀ pre, pre <+: calls → P (b.after g dumps pre)

/-- `P` holds at each traversal, of the state it is made in and its root. -/
def EachTraversal (P : Backends → NodeId → Prop) (b : Backends) (calls : List RepairCall) : Prop :=
  ∀ pre root, pre ++ [.computeBlastRadius root] <+: calls → P (b.after g dumps pre) root

end Run

/-- The traversal answers the same list. -/
def SameAnswer (g : Setup) (b : Backends) (root : NodeId) : Prop :=
  (b.memory.computeBlastRadius root).1 =
    (b.sqlite.computeBlastRadius g.settings.maxTraversalDepth root).1

/-- The records are for the same nodes, and each says the same. -/
def SameFindings (b : Backends) : Prop :=
  ∀ x, findingOf b.memory.repairCandidates x = findingOf b.sqlite.repairCandidates x

/-! ## 2. The tables are the same -/

/-- **What the backends have in common**: the payloads, and which checkpoints and effects there
are. -/
structure SameTables (b : Backends) : Prop where
  dag : b.sqlite.nodes.map NodeRow.payload = b.memory.dag
  keyed : ∀ n ∈ b.sqlite.nodes, n.nodeId = n.payload.payloadId
  indexed : b.sqlite.toLineage.Indexed
  wf : b.sqlite.toLineage.Wf
  checkpoints : ∀ cp, cp ∈ b.memory.checkpoints ↔ cp ∈ b.sqlite.checkpoints
  effects : ∀ key x, (∃ e ∈ b.memory.externalEffects, e.idempotencyKey = key ∧ e.nodeId = x) ↔
    ∃ e ∈ b.sqlite.externalEffects, e.idempotencyKey = key ∧ e.nodeId = x

variable {g : Setup} {dumps : Payload → String} {b : Backends} {root : NodeId}

theorem sameTables_reset (b : Backends) : (b.reset g).SameTables where
  dag := rfl
  keyed := by
    intro n hn
    obtain rfl := List.mem_singleton.mp hn
    rfl
  indexed := Lineage.indexed_reset _ _
  wf := (Lineage.wf_reset _ _).1
  checkpoints := fun _ => Iff.rfl
  effects := fun _ _ => Iff.rfl

theorem SameTables.nodeIds (h : b.SameTables) : b.memory.nodeIds = b.sqlite.nodeIds := by
  rw [Memory.nodeIds, ← h.dag, List.map_map, Lineage.nodeIds]
  exact List.map_congr_left fun n hn => (h.keyed n hn).symm

theorem SameTables.nodup (h : b.SameTables) : b.memory.nodeIds.Nodup := by
  rw [h.nodeIds]
  exact h.indexed.nodup

theorem SameTables.mem_dag (h : b.SameTables) {p : Payload} :
    p ∈ b.memory.dag ↔ ∃ n ∈ b.sqlite.nodes, n.nodeId = p.payloadId ∧ n.payload = p := by
  rw [← h.dag, List.mem_map]
  constructor
  · rintro ⟨n, hn, rfl⟩
    exact ⟨n, hn, h.keyed n hn, rfl⟩
  · rintro ⟨n, hn, -, hp⟩
    exact ⟨n, hn, hp⟩

/-- A stored payload is found under its id, in both. -/
theorem SameTables.node?_of_mem (h : b.SameTables) {p : Payload} (hp : p ∈ b.memory.dag) :
    b.memory.node? p.payloadId = some p := Keyed.lookup_of_mem h.nodup hp

theorem SameTables.payload?_of_mem (h : b.SameTables) {p : Payload} (hp : p ∈ b.memory.dag) :
    b.sqlite.payload? p.payloadId = some p := by
  obtain ⟨n, hn, hid, rfl⟩ := h.mem_dag.mp hp
  rw [Lineage.payload?, ← hid, Keyed.lookup_of_mem h.indexed.nodup hn]
  rfl

/-- The dictionary names what the edge table indexes. -/
theorem SameTables.refers_eq (h : b.SameTables) : b.memory.Refers = b.sqlite.Edge := by
  funext x y
  rw [eq_iff_iff, h.indexed.edge_iff, Memory.Refers]
  constructor
  · rintro ⟨p, hp, rfl, hnames⟩
    obtain ⟨n, hn, hid, rfl⟩ := h.mem_dag.mp hp
    exact ⟨n, hn, hid, hnames⟩
  · rintro ⟨n, hn, rfl, hnames⟩
    exact ⟨n.payload, h.mem_dag.mpr ⟨n, hn, h.keyed n hn, rfl⟩, (h.keyed n hn).symm, hnames⟩

/-- An effect on one of the ids is in both or in neither. -/
theorem SameTables.any_effect (h : b.SameTables) {ids ids' : List NodeId}
    (hids : ∀ x, x ∈ ids ↔ x ∈ ids') :
    (b.memory.externalEffects.any fun e => e.nodeId ∈ ids) = b.sqlite.hasExternalEffects ids' := by
  rw [Db.hasExternalEffects, Bool.eq_iff_iff, List.any_eq_true, List.any_eq_true]
  simp only [decide_eq_true_eq]
  constructor
  · rintro ⟨e, he, hx⟩
    obtain ⟨e', he', -, hid⟩ := (h.effects e.idempotencyKey e.nodeId).mp ⟨e, he, rfl, rfl⟩
    exact ⟨e', he', hid ▸ (hids _).mp hx⟩
  · rintro ⟨e, he, hx⟩
    obtain ⟨e', he', -, hid⟩ := (h.effects e.idempotencyKey e.nodeId).mpr ⟨e, he, rfl, rfl⟩
    exact ⟨e', he', hid ▸ (hids _).mpr hx⟩

/-- `INSERT OR REPLACE` and an assignment to a dictionary leave the same keys and values. -/
theorem sameEffects_insert {es es' : List ExternalEffect} {key : String} {x : NodeId} {type : String}
    {now now' : String}
    (h : ∀ k y, (∃ e ∈ es, e.idempotencyKey = k ∧ e.nodeId = y) ↔
      ∃ e ∈ es', e.idempotencyKey = k ∧ e.nodeId = y) (k : String) (y : NodeId) :
    (∃ e ∈ Keyed.assign ExternalEffect.idempotencyKey es ⟨key, x, type, now⟩,
        e.idempotencyKey = k ∧ e.nodeId = y) ↔
      ∃ e ∈ Keyed.insertOrReplace ExternalEffect.idempotencyKey es' ⟨key, x, type, now'⟩,
        e.idempotencyKey = k ∧ e.nodeId = y := by
  simp only [Keyed.mem_assign, Keyed.mem_insertOrReplace]
  constructor
  · rintro ⟨e, ⟨he, hne⟩ | rfl, rfl, rfl⟩
    · obtain ⟨e', he', hkey, hid⟩ := (h e.idempotencyKey e.nodeId).mp ⟨e, he, rfl, rfl⟩
      exact ⟨e', Or.inl ⟨he', hkey ▸ hne⟩, hkey, hid⟩
    · exact ⟨_, Or.inr rfl, rfl, rfl⟩
  · rintro ⟨e, ⟨he, hne⟩ | rfl, rfl, rfl⟩
    · obtain ⟨e', he', hkey, hid⟩ := (h e.idempotencyKey e.nodeId).mpr ⟨e, he, rfl, rfl⟩
      exact ⟨e', Or.inl ⟨he', hkey ▸ hne⟩, hkey, hid⟩
    · exact ⟨_, Or.inr rfl, rfl, rfl⟩

/-- A commit is refused by both or by neither. -/
theorem SameTables.commitNode (h : b.SameTables) (site : CommitSite) (p : Payload) :
    (b.call g dumps (.commitNode site p)).SameTables := by
  have hindexed : (b.sqlite.toLineage.commitNode g.env.sha256 p).2.Indexed := h.indexed.commitNode
  have hwf : (b.sqlite.toLineage.commitNode g.env.sha256 p).2.Wf := h.wf.commitNode
  refine ⟨?_, ?_, hindexed, hwf, ?_, ?_⟩
  · change (b.sqlite.toLineage.commitNode g.env.sha256 p).2.nodes.map NodeRow.payload =
      (b.memory.commitNode p).2.dag
    by_cases hp : p.payloadId ∈ b.sqlite.nodeIds
    · rw [Lineage.commitNode_of_mem hp, Memory.commitNode, if_pos (by rw [h.nodeIds]; exact hp)]
      exact h.dag
    · rw [Lineage.commitNode, if_neg hp, Memory.commitNode, if_neg (by rw [h.nodeIds]; exact hp)]
      change (Keyed.insertOrIgnore NodeRow.nodeId b.sqlite.nodes _).map NodeRow.payload = _
      rw [Keyed.insertOrIgnore_of_notMem hp, List.map_append, h.dag]
      rfl
  · intro n hn
    rcases Lineage.mem_nodes_commitNode.mp hn with hn | ⟨rfl, -⟩
    · exact h.keyed n hn
    · rfl
  · have hsame : (b.memory.commitNode p).2.checkpoints = b.memory.checkpoints := by
      rw [Memory.commitNode]
      split
      · rfl
      · rfl
    intro cp
    change cp ∈ (b.memory.commitNode p).2.checkpoints ↔ _
    rw [hsame]
    exact h.checkpoints cp
  · have hsame : (b.memory.commitNode p).2.externalEffects = b.memory.externalEffects := by
      rw [Memory.commitNode]
      split
      · rfl
      · rfl
    intro key x
    change (∃ e ∈ (b.memory.commitNode p).2.externalEffects, _) ↔ _
    rw [hsame]
    exact h.effects key x

/-- **The invariant of the tables.** -/
theorem SameTables.call (h : b.SameTables) (c : RepairCall) : (b.call g dumps c).SameTables := by
  cases c with
  | commitNode site p => exact h.commitNode site p
  | addCheckpoint c =>
    refine { h with checkpoints := fun cp => ?_ }
    change cp ∈ Keyed.assign _ _ _ ↔ cp ∈ Keyed.insertOrReplace _ _ _
    rw [Keyed.mem_assign, Keyed.mem_insertOrReplace, h.checkpoints]
  | addExternalEffect key x type now => exact { h with effects := sameEffects_insert h.effects }
  | computeBlastRadius root =>
    obtain ⟨rcs, hmemory⟩ := Memory.computeBlastRadius_snd b.memory root
    obtain ⟨rcs', hsqlite⟩ :=
      Db.computeBlastRadius_snd g.settings.maxTraversalDepth root b.sqlite
    have hcall : b.call g dumps (.computeBlastRadius root) =
        ⟨{ b.memory with repairCandidates := rcs }, b.sqlite.withRepair rcs'⟩ :=
      congrArg₂ Backends.mk hmemory hsqlite
    rw [hcall]
    exact { h with }

/-! ## 3. The condition -/

end Backends

namespace Memory

variable {m : Memory} {root : NodeId} {p : Payload}

/-- Whatever descends from a node is at most `D` references below it. -/
def Shallow (m : Memory) (D : Int) : Prop :=
  ∀ x y, Relation.ReflTransGen m.Refers x y → Reach.Within m.Refers D.toNat x y

theorem Shallow.of_rank (rank : NodeId → ℕ) {D : Int}
    (h : ∀ p ∈ m.dag, ∀ x ∈ p.parentIds ++ p.covers,
      rank x < rank p.payloadId ∧ rank p.payloadId ≤ D.toNat) : m.Shallow D := by
  refine fun x y hxy => Reach.Within.of_rank rank ?_ hxy
  rintro x y ⟨p, hp, rfl, hnames⟩
  exact h p hp x (List.mem_append.mpr hnames)

/-- Some node of the radius is a parent whose FIRST entry says `CARRIED`. -/
def CarriedInside (m : Memory) (root : NodeId) (p : Payload) : Prop :=
  ∃ x ∈ m.breadthFirst root, p.edgeClass? x = some .carried

/-- The compaction has a record that this traversal would not change: a final one, or a pending one
with the frontier there is now. -/
def Standing (m : Memory) (root : NodeId) (p : Payload) : Prop :=
  ∃ f ∈ findingOf m.repairCandidates p.payloadId,
    f.1 ≠ .pendingReconstruction ∨
      f.2.1 = none ∧ (∀ e ∈ m.externalEffects, e.nodeId ∉ m.breadthFirst root) ∧
        f.2.2 = p.covers.filter (· ∉ m.breadthFirst root) ∧ f.2.2 ≠ [] ∧
        p.methodId = some "llm-v1" ∧ ∃ cp ∈ m.checkpoints, cp.targetNodeId ∈ f.2.2

instance (m : Memory) (root : NodeId) (p : Payload) : Decidable (m.DiscoveredCarried root p) :=
  inferInstanceAs (Decidable (_ ∧ ∃ x ∈ m.discoverer root p, _))

instance (m : Memory) (root : NodeId) (p : Payload) : Decidable (m.CarriedInside root p) :=
  inferInstanceAs (Decidable (∃ x ∈ _, _))

instance (m : Memory) (root : NodeId) (p : Payload) : Decidable (m.Standing root p) :=
  inferInstanceAs (Decidable (∃ f ∈ findingOf _ _, _))

/-- **Where the two notions of "affected" agree**: every stored payload is discovered by a `CARRIED`
entry if and only if it has one from inside the radius, or its record stands. -/
def ClassifiesAlike (m : Memory) (root : NodeId) : Prop :=
  ∀ p ∈ m.dag, (m.DiscoveredCarried root p ↔ m.CarriedInside root p) ∨ m.Standing root p

instance (m : Memory) (root : NodeId) : Decidable (m.ClassifiesAlike root) :=
  inferInstanceAs (Decidable (∀ p ∈ _, _))

/-- A record stands when it is final, or says what the traversal would store. -/
theorem standing_iff : m.Standing root p ↔
    finalIn m.repairCandidates p.payloadId = true ∨
      (verdict m.checkpoints (m.breadthFirst root)
        (m.externalEffects.any fun e => e.nodeId ∈ m.breadthFirst root) (some p)).map
          RepairCandidate.finding = findingOf m.repairCandidates p.payloadId := by
  have heffects : (m.externalEffects.any fun e => e.nodeId ∈ m.breadthFirst root) = false ↔
      ∀ e ∈ m.externalEffects, e.nodeId ∉ m.breadthFirst root := by
    simp only [List.any_eq_false, decide_eq_true_eq]
  rw [Standing, finalIn, ← heffects]
  cases hfound : findingOf m.repairCandidates p.payloadId with
  | none =>
    have hsome : ((verdict m.checkpoints (m.breadthFirst root)
        (m.externalEffects.any fun e => e.nodeId ∈ m.breadthFirst root) (some p)).map
          RepairCandidate.finding).isSome = true := by
      rw [Option.isSome_map]
      exact verdict_isSome
    constructor
    · rintro ⟨f, hf, -⟩
      exact absurd hf (by simp)
    · rintro (hfalse | hnone)
      · exact absurd hfalse (by simp)
      · rw [hnone] at hsome
        exact absurd hsome (by simp)
  | some f =>
    obtain ⟨disposition, reason, frontier⟩ := f
    simp only [Option.mem_def, Option.some.injEq, exists_eq_left', decide_eq_true_eq]
    by_cases hpending : disposition = .pendingReconstruction
    · subst hpending
      rw [verdict_pending_iff]
    · simp only [ne_eq, hpending, not_false_iff, true_or]

end Memory

namespace Backends

variable {g : Setup} {dumps : Payload → String} {b : Backends} {root : NodeId}

/-! ## 4. One traversal -/

/-- The two traversals find the same nodes. -/
theorem SameTables.mem_traverse (h : b.SameTables)
    (hshallow : b.memory.Shallow g.settings.maxTraversalDepth) (x : NodeId) :
    x ∈ b.memory.breadthFirst root ↔
      x ∈ b.sqlite.toLineage.traverse g.settings.maxTraversalDepth root := by
  rw [Memory.mem_breadthFirst, Lineage.mem_traverse h.wf, ← h.refers_eq]
  exact ⟨hshallow root x, Reach.Within.reachable⟩

/-- **The answers.** -/
theorem SameTables.sameAnswer (h : b.SameTables)
    (hshallow : b.memory.Shallow g.settings.maxTraversalDepth) : b.SameAnswer g root := by
  rw [SameAnswer, Memory.computeBlastRadius_fst, Db.computeBlastRadius]
  exact sortedSet_congr (h.mem_traverse hshallow)

/-- What the join over the edge table finds. -/
theorem SameTables.mem_affectedCompactions (h : b.SameTables) {ids : List NodeId} {p : Payload}
    (hp : p ∈ b.memory.dag) :
    p.payloadId ∈ b.sqlite.affectedCompactions ids ↔
      ∃ x ∈ ids, p.edgeClass? x = some .carried := by
  simp only [Db.affectedCompactions, List.mem_dedup, List.mem_map, List.mem_filter,
    decide_eq_true_eq]
  constructor
  · rintro ⟨e, ⟨he, hx, hcarried⟩, hid⟩
    obtain ⟨n, hn, hchild, hclass⟩ := (h.indexed.mem_edges e).mp he
    have hpayload : n.payload = p := by
      have hfound := h.payload?_of_mem hp
      rw [Lineage.payload?, ← hid, ← hchild, Keyed.lookup_of_mem h.indexed.nodup hn] at hfound
      exact Option.some.inj hfound
    rw [hpayload, hcarried] at hclass
    exact ⟨e.parentId, hx, hclass⟩
  · rintro ⟨x, hx, hclass⟩
    obtain ⟨n, hn, hid, rfl⟩ := h.mem_dag.mp hp
    exact ⟨⟨n.nodeId, x, .carried⟩, ⟨(h.indexed.mem_edges _).mpr ⟨n, hn, rfl, hclass⟩, hx, rfl⟩, hid⟩

/-- What either backend classifies is stored. -/
theorem SameTables.stored_of_affected (h : b.SameTables) {ids : List NodeId} {x : NodeId}
    (hx : x ∈ (b.memory.search root).affected ∨ x ∈ b.sqlite.affectedCompactions ids) :
    ∃ p ∈ b.memory.dag, p.payloadId = x := by
  rcases hx with hx | hx
  · obtain ⟨p, hp, hid, -⟩ := (Memory.mem_search_affected h.nodup).mp hx
    exact ⟨p, hp, hid⟩
  · simp only [Db.affectedCompactions, List.mem_dedup, List.mem_map, List.mem_filter] at hx
    obtain ⟨e, ⟨he, -⟩, rfl⟩ := hx
    obtain ⟨n, hn, hid, -⟩ := (h.indexed.mem_edges e).mp he
    exact ⟨n.payload, h.mem_dag.mpr ⟨n, hn, h.keyed n hn, rfl⟩, (h.keyed n hn).symm.trans hid⟩

/-- What the search of the in-memory backend marks. -/
theorem SameTables.mem_affected (h : b.SameTables) {p : Payload} (hp : p ∈ b.memory.dag) :
    p.payloadId ∈ (b.memory.search root).affected ↔ b.memory.DiscoveredCarried root p := by
  rw [Memory.mem_search_affected h.nodup]
  constructor
  · rintro ⟨p', hp', hid, hcarried⟩
    have hsame := h.node?_of_mem hp'
    rw [hid, h.node?_of_mem hp] at hsame
    rwa [Option.some.inj hsame]
  · intro hcarried
    exact ⟨p, hp, rfl, hcarried⟩

/-- Two loops that give the same verdict and start from the same findings end with the same ones for
a node exactly when both run over it, or neither does, or it makes no difference. -/
theorem ite_classified_eq_iff {A B F : Prop} [Decidable A] [Decidable B] [Decidable F]
    {v f : Option Finding} :
    (if A ∧ F then v.or f else f) = (if B ∧ F then v.or f else f) ↔
      (A ↔ B) ∨ ¬ F ∨ v.or f = f := by
  by_cases hF : F
  · by_cases hA : A
    · by_cases hB : B
      · simp [hA, hB]
      · simp [hA, hB, hF]
    · by_cases hB : B
      · simp [hA, hB, hF, eq_comm]
      · simp [hA, hB]
  · simp [hF]

/-- **One traversal**: the findings are the same after it exactly when the condition is met
before. -/
theorem SameTables.sameFindings_iff (h : b.SameTables) (hsame : b.SameFindings)
    (hshallow : b.memory.Shallow g.settings.maxTraversalDepth) :
    (b.call g dumps (.computeBlastRadius root)).SameFindings ↔ b.memory.ClassifiesAlike root := by
  have hradius : ∀ x, x ∈ b.memory.breadthFirst root ↔
      x ∈ b.sqlite.toLineage.traverse g.settings.maxTraversalDepth root := h.mem_traverse hshallow
  have hids : ∀ x, x ∈ b.memory.breadthFirst root ↔
      x ∈ sortedSet (b.sqlite.toLineage.traverse g.settings.maxTraversalDepth root) := by
    intro x
    rw [mem_sortedSet, hradius]
  have hverdict : ∀ node,
      (verdict b.sqlite.checkpoints (b.sqlite.toLineage.traverse g.settings.maxTraversalDepth root)
        (b.sqlite.hasExternalEffects
          (sortedSet (b.sqlite.toLineage.traverse g.settings.maxTraversalDepth root))) node).map
          RepairCandidate.finding =
        (verdict b.memory.checkpoints (b.memory.breadthFirst root)
          (b.memory.externalEffects.any fun e => e.nodeId ∈ b.memory.breadthFirst root) node).map
          RepairCandidate.finding := by
    intro node
    rw [← h.any_effect hids]
    exact (verdict_congr hradius h.checkpoints node).symm
  -- the two loops, at a node
  have hmemory := Memory.classified b.memory root
  have hsqlite := Db.classified (b.sqlite.toLineage.traverse g.settings.maxTraversalDepth root)
    (b.sqlite.hasExternalEffects
      (sortedSet (b.sqlite.toLineage.traverse g.settings.maxTraversalDepth root)))
    (b.sqlite.affectedCompactions
      (sortedSet (b.sqlite.toLineage.traverse g.settings.maxTraversalDepth root))) b.sqlite
  have hnode : ∀ p ∈ b.memory.dag,
      (findingOf (b.call g dumps (.computeBlastRadius root)).memory.repairCandidates p.payloadId =
        findingOf (b.call g dumps (.computeBlastRadius root)).sqlite.repairCandidates p.payloadId ↔
      (b.memory.DiscoveredCarried root p ↔ b.memory.CarriedInside root p) ∨
        b.memory.Standing root p) := by
    intro p hp
    have hinside : p.payloadId ∈ b.sqlite.affectedCompactions
        (sortedSet (b.sqlite.toLineage.traverse g.settings.maxTraversalDepth root)) ↔
        b.memory.CarriedInside root p := by
      rw [h.mem_affectedCompactions hp, Memory.CarriedInside]
      simp only [hids]
    have hsome : ((verdict b.memory.checkpoints (b.memory.breadthFirst root)
        (b.memory.externalEffects.any fun e => e.nodeId ∈ b.memory.breadthFirst root) (some p)).map
          RepairCandidate.finding).isSome = true := by
      rw [Option.isSome_map]
      exact verdict_isSome
    obtain ⟨v, hv⟩ := Option.isSome_iff_exists.mp hsome
    have hleft := hmemory p.payloadId
    have hright := hsqlite p.payloadId
    simp only [h.node?_of_mem hp] at hleft
    simp only [h.payload?_of_mem hp, hverdict, ← hsame p.payloadId, ← finalIn_congr (hsame _)] at hright
    change findingOf (b.memory.computeBlastRadius root).2.repairCandidates p.payloadId =
      findingOf (Db.classifyAll _ _ _ b.sqlite).repairCandidates p.payloadId ↔ _
    rw [hleft, hright, ite_classified_eq_iff, h.mem_affected hp, hinside, Memory.standing_iff, hv,
      Bool.not_eq_false, Option.some_or]
  constructor
  · intro hafter p hp
    exact (hnode p hp).mp (hafter p.payloadId)
  · intro halike x
    by_cases hx : ∃ p ∈ b.memory.dag, p.payloadId = x
    · obtain ⟨p, hp, rfl⟩ := hx
      exact (hnode p hp).mpr (halike p hp)
    · -- neither loop runs over a node that is not stored
      have hnot : x ∉ (b.memory.search root).affected := fun hm =>
        hx (h.stored_of_affected (Or.inl (b := x ∈ b.sqlite.affectedCompactions []) hm))
      have hnot' : x ∉ b.sqlite.affectedCompactions
          (sortedSet (b.sqlite.toLineage.traverse g.settings.maxTraversalDepth root)) := fun hm =>
        hx (h.stored_of_affected (Or.inr (a := x ∈ (b.memory.search root).affected) hm))
      have hleft := hmemory x
      have hright := hsqlite x
      rw [if_neg fun hm => hnot hm.1] at hleft
      rw [if_neg fun hm => hnot' hm.1] at hright
      exact hleft.trans ((hsame x).trans hright.symm)

/-- The other calls leave the records alone. -/
theorem SameFindings.call (h : b.SameFindings) {c : RepairCall}
    (hc : ∀ root, c ≠ .computeBlastRadius root) : (b.call g dumps c).SameFindings := by
  cases c with
  | commitNode site p =>
    have hsame : (b.memory.commitNode p).2.repairCandidates = b.memory.repairCandidates := by
      rw [Memory.commitNode]
      split
      · rfl
      · rfl
    intro x
    change findingOf (b.memory.commitNode p).2.repairCandidates x = _
    rw [hsame]
    exact h x
  | addCheckpoint c => exact h
  | addExternalEffect key x type now => exact h
  | computeBlastRadius root => exact absurd rfl (hc root)

/-! ## 5. A sequence of calls -/

theorem throughout_cons {P : Backends → Prop} {c : RepairCall} {calls : List RepairCall} :
    Throughout g dumps P b (c :: calls) ↔ P b ∧ Throughout g dumps P (b.call g dumps c) calls := by
  constructor
  · intro h
    refine ⟨h [] (List.nil_prefix), fun pre hpre => ?_⟩
    exact h (c :: pre) ((List.prefix_cons_inj c).mpr hpre)
  · rintro ⟨hb, hrest⟩ pre hpre
    cases pre with
    | nil => exact hb
    | cons c' pre =>
      obtain ⟨rfl, htail⟩ := List.cons_prefix_cons.mp hpre
      exact hrest pre htail

theorem eachTraversal_cons {P : Backends → NodeId → Prop} {c : RepairCall} {calls : List RepairCall} :
    EachTraversal g dumps P b (c :: calls) ↔
      (∀ root, c = .computeBlastRadius root → P b root) ∧
        EachTraversal g dumps P (b.call g dumps c) calls := by
  constructor
  · intro h
    refine ⟨?_, fun pre root hpre => ?_⟩
    · rintro root rfl
      exact h [] root (List.prefix_append [_] calls)
    · exact h (c :: pre) root ((List.prefix_cons_inj c).mpr hpre)
  · rintro ⟨hb, hrest⟩ pre root hpre
    cases pre with
    | nil => exact hb root (List.cons_prefix_cons.mp hpre).1.symm
    | cons c' pre =>
      obtain ⟨rfl, htail⟩ := List.cons_prefix_cons.mp hpre
      exact hrest pre root htail

/-- **Every answer**, by induction on the calls: the tables stay the same. -/
theorem SameTables.sameAnswers : ∀ (calls : List RepairCall) {b : Backends}, b.SameTables →
    EachTraversal g dumps (fun b _ => b.memory.Shallow g.settings.maxTraversalDepth) b calls →
    EachTraversal g dumps (SameAnswer g) b calls
  | [], _, _, _ => fun pre root hpre => absurd (List.prefix_nil.mp hpre) (by simp)
  | c :: calls, b, htables, hshallow => by
    obtain ⟨hnow, hlater⟩ := eachTraversal_cons.mp hshallow
    refine eachTraversal_cons.mpr ⟨fun root hroot => ?_, ?_⟩
    · exact htables.sameAnswer (hnow root hroot)
    · exact SameTables.sameAnswers calls (htables.call c) hlater

/-- **The records**, by induction on the calls: once they differ, they have differed. -/
theorem SameTables.sameFindings_throughout : ∀ (calls : List RepairCall) {b : Backends}, b.SameTables →
    b.SameFindings →
    EachTraversal g dumps (fun b _ => b.memory.Shallow g.settings.maxTraversalDepth) b calls →
    (Throughout g dumps SameFindings b calls ↔
      EachTraversal g dumps (fun b root => b.memory.ClassifiesAlike root) b calls)
  | [], b, _, hsame, _ => by
    constructor
    · intro _ pre root hpre
      exact absurd (List.prefix_nil.mp hpre) (by simp)
    · intro _ pre hpre
      obtain rfl := List.prefix_nil.mp hpre
      exact hsame
  | c :: calls, b, htables, hsame, hshallow => by
    obtain ⟨hnow, hlater⟩ := eachTraversal_cons.mp hshallow
    have hstep : (b.call g dumps c).SameFindings ↔
        ∀ root, c = .computeBlastRadius root → b.memory.ClassifiesAlike root := by
      by_cases hc : ∃ root, c = .computeBlastRadius root
      · obtain ⟨root, rfl⟩ := hc
        rw [htables.sameFindings_iff hsame (hnow root rfl)]
        constructor
        · rintro halike root' heq
          obtain rfl := RepairCall.computeBlastRadius.inj heq
          exact halike
        · exact fun h => h root rfl
      · have hc' : ∀ root, c ≠ .computeBlastRadius root := fun root hroot => hc ⟨root, hroot⟩
        exact ⟨fun _ root hroot => absurd hroot (hc' root), fun _ => hsame.call hc'⟩
    rw [throughout_cons, eachTraversal_cons, ← hstep]
    constructor
    · rintro ⟨-, hrest⟩
      have hafter : (b.call g dumps c).SameFindings := hrest [] List.nil_prefix
      exact ⟨hafter, (sameFindings_throughout calls (htables.call c) hafter hlater).mp hrest⟩
    · rintro ⟨hafter, hrest⟩
      exact ⟨hsame, (sameFindings_throughout calls (htables.call c) hafter hlater).mpr hrest⟩

/-- **Where the backends agree on repair.**  From `reset`, in graphs where nothing is deeper than
the depth bound: every traversal answers the same list, and the records are for the same nodes and
say the same, before and after every call, exactly when at each traversal every stored payload is
discovered by a `CARRIED` entry if and only if it has one from inside the radius, or has its verdict
already. -/
theorem repairs_agree_iff (b : Backends) (calls : List RepairCall)
    (hshallow : EachTraversal g dumps (fun b _ => b.memory.Shallow g.settings.maxTraversalDepth)
      (b.reset g) calls) :
    EachTraversal g dumps (SameAnswer g) (b.reset g) calls ∧
      (Throughout g dumps SameFindings (b.reset g) calls ↔
        EachTraversal g dumps (fun b root => b.memory.ClassifiesAlike root) (b.reset g) calls) :=
  ⟨SameTables.sameAnswers calls (sameTables_reset b) hshallow,
    SameTables.sameFindings_throughout calls (sameTables_reset b) (fun _ => rfl) hshallow⟩

/-! ## 6. A summary with two parents -/

/-- A summary of the root that names its parents as it likes. -/
def summaryOf (parents : List ParentCommitment) : Payload :=
  { openPayload "agent" "summary-1" [] with
    nodeType := some .compaction, covers := ["clean-parent-1"]
    summarizer := some { methodId := some "llm-v1" }, parents := parents }

/-- A node below the root and a summary below both, which carries the node; what the root is to the
summary is left open. -/
def summaryCommits (cls : EdgeClass) : List RepairCall :=
  [.commitNode .admission (openPayload "agent" "node-1" ["clean-parent-1"]),
   .commitNode .admission (summaryOf
     [⟨"clean-parent-1", some zeros64, some cls⟩, ⟨"node-1", some zeros64, some .carried⟩])]

def summaryCalls (cls : EdgeClass) : List RepairCall :=
  summaryCommits cls ++ [.computeBlastRadius "clean-parent-1"]

/-- Both backends, just created. -/
def created : Backends := ⟨{ dag := [], quarantineLedger := [] }, {}⟩

/-- The calls end with their only traversal. -/
theorem eachTraversal_summaryCalls {P : Backends → NodeId → Prop} {cls : EdgeClass}
    (h : P (b.after g dumps (summaryCommits cls)) "clean-parent-1") :
    EachTraversal g dumps P b (summaryCalls cls) := by
  rw [summaryCalls, summaryCommits, List.cons_append, List.cons_append, List.nil_append,
    eachTraversal_cons, eachTraversal_cons, eachTraversal_cons]
  refine ⟨?_, ?_, ?_, ?_⟩
  · intro root hroot
    cases hroot
  · intro root hroot
    cases hroot
  · intro root hroot
    obtain rfl := RepairCall.computeBlastRadius.inj hroot
    exact h
  · exact fun pre root hpre => absurd (List.prefix_nil.mp hpre) (by simp)

theorem shallow_summaryCommits (cls : EdgeClass) :
    ((created.reset openSetup).after openSetup (fun _ => "") (summaryCommits cls)).memory.Shallow 8 := by
  refine Memory.Shallow.of_rank
    (fun x => if x = "node-1" then 1 else if x = "summary-1" then 2 else 0) ?_
  change ∀ p ∈ [({ payloadId := "clean-parent-1" } : Payload), _, _], _
  intro p hp x hx
  simp only [List.mem_cons, List.not_mem_nil, or_false] at hp
  rcases hp with rfl | rfl | rfl
  · exact absurd hx (by simp [Payload.parentIds])
  · obtain rfl : x = "clean-parent-1" := by simpa [openPayload, Payload.parentIds] using hx
    decide
  · have hparent : x = "clean-parent-1" ∨ x = "node-1" := by
      simp only [summaryOf, openPayload, Payload.parentIds, List.map_cons, List.map_nil,
        List.mem_append, List.mem_cons, List.not_mem_nil, or_false] at hx
      tauto
    rcases hparent with rfl | rfl
    · simp [summaryOf, openPayload]
    · simp [summaryOf, openPayload]

/-- A summary that carries both of its parents: the backends agree that there is nothing to rebuild
it from. -/
theorem repairs_agree_carried :
    Throughout openSetup (fun _ => "") SameFindings (created.reset openSetup) (summaryCalls .carried) ∧
      findingOf ((created.reset openSetup).after openSetup (fun _ => "")
        (summaryCalls .carried)).memory.repairCandidates "summary-1" =
          some (.irreducible, some "empty_frontier", []) := by
  constructor
  · have hagree := @repairs_agree_iff openSetup (fun _ => "") created
      (summaryCalls .carried) (eachTraversal_summaryCalls (shallow_summaryCommits .carried))
    exact hagree.2.mpr (eachTraversal_summaryCalls (by decide +kernel))
  · decide +kernel

/-- A summary that reads its first parent and carries its second: SQLite classifies it and the
in-memory backend, which meets it from the first, does not. -/
theorem repairs_differ : ¬ ∀ calls : List RepairCall,
    EachTraversal openSetup (fun _ => "")
        (fun b _ => b.memory.Shallow openSetup.settings.maxTraversalDepth)
        (created.reset openSetup) calls →
      ((created.reset openSetup).after openSetup (fun _ => "") calls).SameFindings := by
  intro h
  have hsame := h (summaryCalls .material)
    (eachTraversal_summaryCalls (shallow_summaryCommits .material)) "summary-1"
  have hmemory : findingOf ((created.reset openSetup).after openSetup (fun _ => "")
      (summaryCalls .material)).memory.repairCandidates "summary-1" = none := by
    decide +kernel
  have hsqlite : findingOf ((created.reset openSetup).after openSetup (fun _ => "")
      (summaryCalls .material)).sqlite.repairCandidates "summary-1" =
        some (.irreducible, some "empty_frontier", []) := by
    decide +kernel
  rw [hmemory, hsqlite] at hsame
  exact absurd hsame (by simp)

end Backends

end GovernorGateway
