/-
# A node without its edges

`commit_node` writes the row of the node, one row for every id its payload names, and commits.
Called outside `transaction()` it works on the shared connection, WHICH NOBODY ROLLS BACK: when a
statement raises, the rows written so far stay in the open transaction, and the next function that
commits, whoever calls it, commits them.  What is stored then is a node without some of its edges,
which no blast radius reaches.

`half_commits_iff` says exactly when that happens in a run of the shared connection: a new node has
been written without all of its rows, and something commits before a `reset` has deleted the nodes.
-/
import GovernorGateway.Sqlite.Statements
import GovernorGateway.Semantics.Scripted

namespace GovernorGateway

open Effects

/-- **Half a node**: the node stored under `x` has no edge from some id that its payload names. -/
def Lineage.Half (L : Lineage) (x : NodeId) : Prop :=
  ∃ n ∈ L.nodes, n.nodeId = x ∧ ∃ y, n.payload.Names y ∧ ¬ L.Edge y x

/-- `commit_node` of a new node `x` stops after it has written the row of the node, and a row that
is not in the edge table is not among those it has written. -/
def StopsHalfWay (x : NodeId) (op : Cut Shared) (db : Db) : Prop :=
  ∃ site p, op.op = .store (.commitNode site p) ∧ p.payloadId = x ∧ x ∉ db.nodeIds ∧ 1 ≤ op.done ∧
    ∃ y, p.Names y ∧ ¬ db.Edge y x ∧
      y ∉ ((Lineage.edgeRows p).take (op.done - 1)).map EdgeRow.parentId

/-- `reset` gets as far as deleting the nodes. -/
def DeletesNodes (op : Cut Shared) : Prop := op.op = .reset ∧ 1 ≤ op.done

/-- The operation gets as far as a commit. -/
def ReachesCommit (g : Setup) (op : Cut Shared) (db : Db) : Prop :=
  Statement.commit ∈ op.executed (Shared.statements g) db

variable {g : Setup} {x : NodeId} {op : Cut Shared} {c : Connection Db}

/-! ## 1. Operations that make no difference -/

theorem Lineage.half_congr {L M : Lineage} (hnodes : L.nodes = M.nodes) (hedges : L.edges = M.edges) :
    L.Half x ↔ M.Half x := by
  rw [Lineage.Half, Lineage.Half, hnodes]
  simp only [Lineage.Edge, hedges]

/-- What one operation means for the node. -/
def HalfTracked (g : Setup) (x : NodeId) (op : Cut Shared) (c : Connection Db) : Prop :=
  ((c.step (Shared.statements g) op).view.Half x ↔
      StopsHalfWay x op c.view ∨ (c.view.Half x ∧ ¬ DeletesNodes op)) ∧
    ((∃ d ∈ c.commits (op.executed (Shared.statements g) c.view), d.Half x) ↔
      c.view.Half x ∧ ¬ DeletesNodes op ∧ ReachesCommit g op c.view)

/-- An operation whose writes keep a property of the view that decides whether the node is whole. -/
theorem halfTracked_of_kept (hstop : ¬ StopsHalfWay x op c.view) (hreset : ¬ DeletesNodes op)
    {P : Db → Prop}
    (hview : P c.view) (hP : ∀ d, P d → (d.Half x ↔ c.view.Half x))
    (hkeep : ∀ f, Statement.write f ∈ op.op.statements g c.view → ∀ d, P d → P (f d)) :
    HalfTracked g x op c := by
  have hexec := Connection.invariant (op.executed (Shared.statements g) c.view) hview
    fun f hf => hkeep f (List.mem_of_mem_take hf)
  constructor
  · refine (hP _ hexec.1).trans ⟨fun h => Or.inr ⟨h, hreset⟩, ?_⟩
    rintro (h | h)
    · exact absurd h hstop
    · exact h.1
  · constructor
    · rintro ⟨d, hd, hhalf⟩
      refine ⟨(hP d (hexec.2 d hd)).mp hhalf, hreset, ?_⟩
      by_contra hnone
      rw [Connection.commits_of_notMem _ hnone] at hd
      exact absurd hd (by simp)
    · rintro ⟨hhalf, -, hcommit⟩
      obtain ⟨d, hd⟩ := Connection.exists_commit (c := c) _ hcommit
      exact ⟨d, hd, (hP d (hexec.2 d hd)).mpr hhalf⟩

/-- A write that leaves nodes and edges alone. -/
def SparesLineage (f : Db → Db) : Prop := ∀ d, (f d).nodes = d.nodes ∧ (f d).edges = d.edges

theorem halfTracked_of_spares (hstop : ¬ StopsHalfWay x op c.view) (hreset : ¬ DeletesNodes op)
    (hwrites : ∀ f, Statement.write f ∈ op.op.statements g c.view → SparesLineage f) :
    HalfTracked g x op c := by
  refine halfTracked_of_kept hstop hreset (P := fun d => d.nodes = c.view.nodes ∧ d.edges = c.view.edges)
    ⟨rfl, rfl⟩ (fun d hd => Lineage.half_congr hd.1 hd.2) ?_
  intro f hf d hd
  exact ⟨(hwrites f hf d).1.trans hd.1, (hwrites f hf d).2.trans hd.2⟩

theorem sparesLineage_once {f f' : Db → Db} (h : Statement.write f' ∈ Db.once f) (hf : SparesLineage f) :
    SparesLineage f' := by
  have heq : f' = f := by simpa [Db.once] using h
  rw [heq]
  exact hf

theorem sparesLineage_repair {visited : List NodeId} {rollback : Bool} {f : Db → Db} :
    ∀ (xs : List NodeId) (db : Db), Statement.write f ∈ Db.repairStatements visited rollback xs db →
      SparesLineage f
  | [], _, h => absurd h (by simp [Db.repairStatements])
  | x :: xs, db, h => by
    rw [Db.repairStatements] at h
    cases hclassify : db.classify visited rollback x with
    | none =>
      rw [hclassify] at h
      exact sparesLineage_repair xs db h
    | some rc =>
      rw [hclassify] at h
      rcases List.mem_append.mp h with h | h
      · exact sparesLineage_once h fun _ => ⟨rfl, rfl⟩
      · exact sparesLineage_repair xs _ h

/-- **Only `commit_node` and `reset` write nodes and edges.** -/
theorem sparesLineage_statements {s : Store} (hs : ∀ site p, s ≠ .commitNode site p) {db : Db} {f : Db → Db}
    (hf : Statement.write f ∈ s.statements g db) : SparesLineage f := by
  cases s with
  | commitNode site p => exact absurd rfl (hs site p)
  | computeBlastRadius root => exact sparesLineage_repair _ _ hf
  | applyQuarantineTransaction event ids =>
    have hf' : f = Db.insertQuarantineEvent g.settings.maxTraversalDepth event ∨
        ∃ x ∈ ids, Db.insertLedger x = f := by
      simpa [Store.statements] using hf
    rcases hf' with rfl | ⟨x, -, rfl⟩
    · exact fun _ => ⟨rfl, rfl⟩
    · exact fun _ => ⟨rfl, rfl⟩
  | applyWithdrawalTransaction event ids now =>
    have hf' : f = Db.insertRecurrence event ∨
        ∃ r ∈ Db.withdrawals event now ids, Db.insertWithdrawal r = f := by
      simpa [Store.statements] using hf
    rcases hf' with rfl | ⟨r, -, rfl⟩
    · exact fun _ => ⟨rfl, rfl⟩
    · exact fun _ => ⟨rfl, rfl⟩
  | checkRetryCompletion p =>
    rw [Store.statements] at hf
    rcases List.mem_append.mp hf with hf | hf
    · obtain ⟨r, -, heq⟩ := List.mem_map.mp hf
      obtain rfl := Statement.write.inj heq
      exact fun _ => ⟨rfl, rfl⟩
    · split at hf
      · exact absurd hf (by simp)
      · exact absurd hf (by simp)
  | recordShadowDecision d =>
    rw [Store.statements] at hf
    split at hf
    · exact absurd hf (by simp)
    · exact sparesLineage_once hf fun _ => ⟨rfl, rfl⟩
  | _ => first
    | exact sparesLineage_once hf fun _ => ⟨rfl, rfl⟩
    | exact absurd hf (by simp [Store.statements])

/-! ## 2. Committing a node -/

theorem childId_of_mem_edgeRows {p : Payload} {e : EdgeRow} (he : e ∈ Lineage.edgeRows p) :
    e.childId = p.payloadId := by
  have hkey := List.mem_map_of_mem (f := EdgeRow.key) he
  exact (Lineage.mem_keys_edgeRows.mp hkey).1

variable {sha256 : String → String} {p : Payload}

/-- The row of another node makes no difference. -/
theorem half_insertNode {db : Db} (hne : p.payloadId ≠ x) :
    (db.insertNode sha256 p).Half x ↔ db.Half x := by
  have hmem : ∀ n, n ∈ (db.insertNode sha256 p).nodes ↔ n ∈ db.nodes ∨
      (n = Lineage.nodeRow sha256 p ∧ p.payloadId ∉ db.nodeIds) := fun n => Keyed.mem_insertOrIgnore
  constructor
  · rintro ⟨n, hn, hid, hy⟩
    rcases (hmem n).mp hn with hn | ⟨rfl, -⟩
    · exact ⟨n, hn, hid, hy⟩
    · exact absurd hid hne
  · rintro ⟨n, hn, hid, hy⟩
    exact ⟨n, (hmem n).mpr (Or.inl hn), hid, hy⟩

/-- Nor does an edge into another node. -/
theorem half_insertEdge {db : Db} {e : EdgeRow} (hne : e.childId ≠ x) :
    (db.insertEdge e).Half x ↔ db.Half x := by
  have hedge : ∀ y, (db.insertEdge e).Edge y x ↔ db.Edge y x := by
    intro y
    constructor
    · rintro ⟨r, hr, hparent, hchild⟩
      rcases Keyed.mem_insertOrIgnore.mp hr with hr | ⟨rfl, -⟩
      · exact ⟨r, hr, hparent, hchild⟩
      · exact absurd hchild hne
    · rintro ⟨r, hr, hparent, hchild⟩
      exact ⟨r, Keyed.mem_insertOrIgnore.mpr (Or.inl hr), hparent, hchild⟩
  rw [Lineage.Half, Lineage.Half]
  simp only [hedge]
  exact Iff.rfl

/-- The view after the row of a new node and some of its edge rows. -/
theorem half_written {db d : Db} (hfresh : p.payloadId ∉ db.nodeIds) {rows : List EdgeRow}
    (hrows : ∀ e ∈ rows, e ∈ Lineage.edgeRows p)
    (hd : d = (rows.map Db.insertEdge).foldl (fun d f => f d) (db.insertNode sha256 p)) :
    d.Half p.payloadId ↔
      ∃ y, p.Names y ∧ ¬ db.Edge y p.payloadId ∧ y ∉ rows.map EdgeRow.parentId := by
  rw [Db.foldl_insertEdge] at hd
  have hnodes : d.nodes = db.nodes ++ [Lineage.nodeRow sha256 p] := by
    rw [hd]
    exact Keyed.insertOrIgnore_of_notMem hfresh
  have hedge : ∀ y, d.Edge y p.payloadId ↔
      db.Edge y p.payloadId ∨ y ∈ rows.map EdgeRow.parentId := by
    intro y
    have hkeys : (p.payloadId, y) ∈ rows.map EdgeRow.key ↔ y ∈ rows.map EdgeRow.parentId := by
      constructor
      · intro hy
        obtain ⟨e, he, hkey⟩ := List.mem_map.mp hy
        exact List.mem_map.mpr ⟨e, he, congrArg Prod.snd hkey⟩
      · intro hy
        obtain ⟨e, he, rfl⟩ := List.mem_map.mp hy
        exact List.mem_map.mpr ⟨e, he, Prod.ext (childId_of_mem_edgeRows (hrows e he)) rfl⟩
    rw [hd, Lineage.edge_iff_mem_keys, ← hkeys, Lineage.edge_iff_mem_keys]
    exact Lineage.exists_key_foldl rows db.edges
  constructor
  · rintro ⟨n, hn, hid, y, hy, hnot⟩
    rw [hnodes, List.mem_append, List.mem_singleton] at hn
    rcases hn with hn | rfl
    · exact absurd (Lineage.mem_nodeIds.mpr ⟨n, hn, hid⟩) hfresh
    · rw [hedge, not_or] at hnot
      exact ⟨y, hy, hnot.1, hnot.2⟩
  · rintro ⟨y, hy, hold, hnew⟩
    refine ⟨Lineage.nodeRow sha256 p, ?_, rfl, y, hy, ?_⟩
    · rw [hnodes]
      exact List.mem_append_right _ (List.mem_singleton_self _)
    · rw [hedge, not_or]
      exact ⟨hold, hnew⟩

/-- With all of its rows a node is whole. -/
theorem parentId_mem_edgeRows {y : NodeId} (hy : p.Names y) :
    y ∈ (Lineage.edgeRows p).map EdgeRow.parentId := by
  have hkey : (p.payloadId, y) ∈ (Lineage.edgeRows p).map EdgeRow.key :=
    Lineage.mem_keys_edgeRows.mpr ⟨rfl, hy⟩
  obtain ⟨e, he, heq⟩ := List.mem_map.mp hkey
  exact List.mem_map.mpr ⟨e, he, congrArg Prod.snd heq⟩

/-- `commit_node` of the node itself, when it is new. -/
theorem halfTracked_commit_self {site : CommitSite} {done : ℕ}
    (hfresh : p.payloadId ∉ c.view.nodeIds) :
    HalfTracked g p.payloadId ⟨.store (.commitNode site p), done⟩ c := by
  have hnew : ¬ c.view.Half p.payloadId := by
    rintro ⟨n, hn, hid, -⟩
    exact hfresh (Lineage.mem_nodeIds.mpr ⟨n, hn, hid⟩)
  have hstatements : Shared.statements g (.store (.commitNode site p)) c.view =
      .write (Db.insertNode g.env.sha256 p) ::
        ((Lineage.edgeRows p).map (fun e => .write (Db.insertEdge e)) ++ [.commit]) := by
    change Db.commitStatements _ _ _ = _
    rw [Db.commitStatements, if_neg hfresh]
  have hstop : ∀ done, StopsHalfWay p.payloadId ⟨.store (.commitNode site p), done⟩ c.view ↔
      1 ≤ done ∧ ∃ y, p.Names y ∧ ¬ c.view.Edge y p.payloadId ∧
        y ∉ ((Lineage.edgeRows p).take (done - 1)).map EdgeRow.parentId := by
    intro done
    constructor
    · rintro ⟨site', p', hop, -, -, hdone, hy⟩
      obtain ⟨-, rfl⟩ := Store.commitNode.inj (Shared.store.inj hop)
      exact ⟨hdone, hy⟩
    · rintro ⟨hdone, hy⟩
      exact ⟨site, p, rfl, rfl, hfresh, hdone, hy⟩
  cases done with
  | zero =>
    constructor
    · change c.view.Half _ ↔ _
      rw [hstop]
      simp [hnew]
    · simp [Cut.executed, Connection.commits, hnew]
  | succ j =>
    -- the writes that are executed, and the commit if it is reached
    have hexec : Cut.executed (Shared.statements g) ⟨.store (.commitNode site p), j + 1⟩ c.view =
        (Db.insertNode g.env.sha256 p :: ((Lineage.edgeRows p).take j).map Db.insertEdge).map .write ++
          List.take (j - (Lineage.edgeRows p).length) [.commit] := by
      rw [Cut.executed, hstatements, List.take_succ_cons, List.take_append, List.length_map,
        ← List.map_take, List.map_cons, List.map_map]
      rfl
    have hview := Connection.run_writes
      (Db.insertNode g.env.sha256 p :: ((Lineage.edgeRows p).take j).map Db.insertEdge) c
    have hhalf := half_written hfresh (fun e he => List.mem_of_mem_take he) hview
    have hnone : c.commits ((Db.insertNode g.env.sha256 p ::
        ((Lineage.edgeRows p).take j).map Db.insertEdge).map .write) = [] :=
      Connection.commits_writes _
    have hsame : (c.step (Shared.statements g) ⟨.store (.commitNode site p), j + 1⟩).view =
        (c.run ((Db.insertNode g.env.sha256 p ::
          ((Lineage.edgeRows p).take j).map Db.insertEdge).map .write)).view := by
      rw [Connection.step, hexec, Connection.run_append]
      cases j - (Lineage.edgeRows p).length with
      | zero => rfl
      | succ k =>
        rw [List.take_succ_cons, List.take_nil]
        rfl
    constructor
    · rw [hsame, hhalf, hstop, Nat.add_sub_cancel]
      simp [hnew]
    · rw [hexec, Connection.commits_append, hnone, List.nil_append]
      constructor
      · rintro ⟨d, hd, hd'⟩
        cases hk : j - (Lineage.edgeRows p).length with
        | zero =>
          rw [hk] at hd
          exact absurd hd (by simp [Connection.commits])
        | succ k =>
          -- the commit is reached: all rows have been written
          rw [hk, List.take_succ_cons, List.take_nil] at hd
          obtain rfl := List.mem_singleton.mp hd
          obtain ⟨y, hy, -, hnot⟩ := hhalf.mp hd'
          rw [List.take_of_length_le (by omega)] at hnot
          exact absurd (parentId_mem_edgeRows hy) hnot
      · rintro ⟨hold, -⟩
        exact absurd hold hnew

/-- `commit_node`. -/
theorem halfTracked_commit {site : CommitSite} {done : ℕ} :
    HalfTracked g x ⟨.store (.commitNode site p), done⟩ c := by
  have hreset : ¬ DeletesNodes ⟨.store (.commitNode site p), done⟩ := fun h => absurd h.1 (by simp)
  by_cases hp : p.payloadId ∈ c.view.nodeIds
  · -- the id is taken: the `INSERT` is ignored
    have hstop : ¬ StopsHalfWay x ⟨.store (.commitNode site p), done⟩ c.view := by
      rintro ⟨site', p', hop, rfl, hnot, -⟩
      obtain ⟨-, rfl⟩ := Store.commitNode.inj (Shared.store.inj hop)
      exact hnot hp
    refine halfTracked_of_kept hstop hreset (P := fun d => d.nodes = c.view.nodes ∧ d.edges = c.view.edges)
      ⟨rfl, rfl⟩ (fun d hd => Lineage.half_congr hd.1 hd.2) ?_
    intro f hf d hd
    have hf' : f = Db.insertNode g.env.sha256 p := by
      change Statement.write f ∈ Db.commitStatements _ _ _ at hf
      rw [Db.commitStatements, if_pos hp] at hf
      simpa using hf
    subst hf'
    refine ⟨?_, hd.2⟩
    change Keyed.insertOrIgnore NodeRow.nodeId d.nodes (Lineage.nodeRow g.env.sha256 p) = _
    rw [hd.1]
    exact Keyed.insertOrIgnore_of_mem hp
  · by_cases hx : p.payloadId = x
    · subst hx
      exact halfTracked_commit_self hp
    · have hstop : ¬ StopsHalfWay x ⟨.store (.commitNode site p), done⟩ c.view := by
        rintro ⟨site', p', hop, hid, -⟩
        obtain ⟨-, rfl⟩ := Store.commitNode.inj (Shared.store.inj hop)
        exact hx hid
      refine halfTracked_of_kept hstop hreset (P := fun d => d.Half x ↔ c.view.Half x) Iff.rfl
        (fun d hd => hd) ?_
      intro f hf d hd
      have hf' : f = Db.insertNode g.env.sha256 p ∨ ∃ e ∈ Lineage.edgeRows p, Db.insertEdge e = f := by
        change Statement.write f ∈ Db.commitStatements _ _ _ at hf
        rw [Db.commitStatements, if_neg hp] at hf
        simpa using hf
      rcases hf' with rfl | ⟨e, he, rfl⟩
      · exact (half_insertNode hx).trans hd
      · refine (half_insertEdge ?_).trans hd
        rw [childId_of_mem_edgeRows he]
        exact hx

/-! ## 3. Resetting -/

/-- Nothing that is stored names anything. -/
def Bare (d : Db) : Prop := ∀ n ∈ d.nodes, ∀ y, ¬ n.payload.Names y

theorem Bare.not_half {d : Db} (h : Bare d) : ¬ d.Half x := by
  rintro ⟨n, hn, -, y, hy, -⟩
  exact h n hn y hy

/-- The `DELETE`s after the first leave the nodes alone. -/
theorem nodes_deletes {f : Db → Db} (hf : f ∈ Db.deletes.tail) (d : Db) : (f d).nodes = d.nodes := by
  simp only [Db.deletes, List.tail_cons, List.mem_cons, List.not_mem_nil, or_false] at hf
  rcases hf with rfl | rfl | rfl | rfl | rfl | rfl | rfl | rfl | rfl | rfl | rfl | rfl <;> rfl

/-- After the first `DELETE` every statement of `reset` keeps it so. -/
theorem bare_reset {sha256 : String → String} {f : Db → Db}
    (hf : Statement.write f ∈ (Db.resetStatements sha256).tail) {d : Db} (hd : Bare d) : Bare (f d) := by
  have hsame : ∀ d', d'.nodes = d.nodes → Bare d' := by
    intro d' hnodes n hn
    rw [hnodes] at hn
    exact hd n hn
  have hf' : f = Db.insertNode sha256 { payloadId := "clean-parent-1" } ∨ (f d).nodes = d.nodes := by
    have hstatements : (Db.resetStatements sha256).tail = Db.deletes.tail.map .write ++
        [.commit, .write (Db.insertNode sha256 { payloadId := "clean-parent-1" }), .commit,
          .write (Db.insertLedger "quarantined-node-A"), .commit] := rfl
    rw [hstatements] at hf
    rcases List.mem_append.mp hf with hf | hf
    · obtain ⟨f', hf', heq⟩ := List.mem_map.mp hf
      obtain rfl := Statement.write.inj heq
      exact Or.inr (nodes_deletes hf' d)
    · simp only [List.mem_cons, reduceCtorEq, Statement.write.injEq, List.not_mem_nil, or_false,
        false_or] at hf
      rcases hf with rfl | rfl
      · exact Or.inl rfl
      · exact Or.inr rfl
  rcases hf' with rfl | hnodes
  · intro n hn y hy
    rcases Keyed.mem_insertOrIgnore.mp hn with hn | ⟨rfl, -⟩
    · exact hd n hn y hy
    · exact absurd hy (by simp [Lineage.nodeRow, Payload.Names, Payload.parentIds])
  · exact hsame _ hnodes

/-- `reset`: once the nodes are deleted nothing is half a node, and nothing becomes one. -/
theorem halfTracked_reset {done : ℕ} : HalfTracked g x ⟨.reset, done⟩ c := by
  have hstop : ∀ done, ¬ StopsHalfWay x ⟨.reset, done⟩ c.view := by
    rintro done ⟨site, p, hop, -⟩
    exact absurd hop (by simp)
  cases done with
  | zero =>
    have hreset : ¬ DeletesNodes ⟨.reset, 0⟩ := fun h => absurd h.2 (by simp)
    constructor
    · change c.view.Half x ↔ _
      simp [hstop, hreset]
    · simp [Cut.executed, Connection.commits, ReachesCommit]
  | succ j =>
    have hreset : DeletesNodes ⟨.reset, j + 1⟩ := ⟨rfl, by simp⟩
    have hexec : Cut.executed (Shared.statements g) ⟨.reset, j + 1⟩ c.view =
        .write (fun db => { db with nodes := [] }) ::
          (Db.resetStatements g.env.sha256).tail.take j := rfl
    have hbare := Connection.invariant (P := Bare) (c := c.exec (.write fun db => { db with nodes := [] }))
      ((Db.resetStatements g.env.sha256).tail.take j) (fun n hn => absurd hn (by simp [Connection.exec]))
      (fun f hf d hd => bare_reset (List.mem_of_mem_take hf) hd)
    constructor
    · have hnot : ¬ (c.step (Shared.statements g) ⟨.reset, j + 1⟩).view.Half x := hbare.1.not_half
      simp [hnot, hstop, hreset]
    · constructor
      · rintro ⟨d, hd, hhalf⟩
        rw [hexec] at hd
        exact absurd hhalf (hbare.2 d hd).not_half
      · rintro ⟨-, hnot, -⟩
        exact absurd hreset hnot

/-! ## 4. A run of the connection -/

/-- **One operation.** -/
theorem halfTracked (g : Setup) (x : NodeId) (op : Cut Shared) (c : Connection Db) :
    HalfTracked g x op c := by
  obtain ⟨call, done⟩ := op
  cases call with
  | reset => exact halfTracked_reset
  | initDb =>
    refine halfTracked_of_spares ?_ (fun h => absurd h.1 (by simp)) fun f hf => absurd hf ?_
    · rintro ⟨site, p, hop, -⟩
      exact absurd hop (by simp)
    · simp [Shared.statements]
  | store s =>
    by_cases hs : ∃ site p, s = .commitNode site p
    · obtain ⟨site, p, rfl⟩ := hs
      exact halfTracked_commit
    · refine halfTracked_of_spares ?_ (fun h => absurd h.1 (by simp)) fun f hf => ?_
      · rintro ⟨site, p, hop, -⟩
        exact hs ⟨site, p, Shared.store.inj hop⟩
      · exact sparesLineage_statements (fun site p heq => hs ⟨site, p, heq⟩) hf

/-- **When half a node is committed.**  On the shared connection, from a view in which `x` is not
half a node: no operation commits half of it exactly when, whenever `commit_node` has stopped half
way with it, whatever commits next is a `reset` or comes after one. -/
theorem half_commits_iff (g : Setup) (c : Connection Db) (ops : List (Cut Shared)) (x : NodeId)
    (hx : ¬ c.view.Half x) :
    (∀ d ∈ c.committedBy (Shared.statements g) ops, ¬ d.Half x) ↔
      ∀ pre op mid op' post, ops = pre ++ op :: mid ++ op' :: post →
        StopsHalfWay x op (c.after (Shared.statements g) pre).view → (∀ o ∈ mid, ¬ DeletesNodes o) →
          DeletesNodes op' ∨
            ¬ ReachesCommit g op' (c.after (Shared.statements g) (pre ++ op :: mid)).view := by
  have hlasts : ∀ xs, (c.after (Shared.statements g) xs).view.Half x ↔ ∃ pre op mid, xs = pre ++ op :: mid ∧
      StopsHalfWay x op (c.after (Shared.statements g) pre).view ∧ ∀ o ∈ mid, ¬ DeletesNodes o :=
    Connection.lasts_iff (P := fun d => d.Half x) (fun c op => (halfTracked g x op c).1) hx
  constructor
  · intro hall pre op mid op' post hops hstop hmid
    by_contra hnot
    rw [not_or, not_not] at hnot
    have hhalf := (hlasts (pre ++ op :: mid)).mpr ⟨pre, op, mid, rfl, hstop, hmid⟩
    obtain ⟨d, hd, hd'⟩ := (halfTracked g x op' _).2.mpr ⟨hhalf, hnot⟩
    exact hall d (Connection.mem_committedBy_iff ops |>.mpr ⟨_, op', post, hops, hd⟩) hd'
  · intro hcond d hd hd'
    obtain ⟨before, op', post, rfl, hmem⟩ := (Connection.mem_committedBy_iff ops).mp hd
    obtain ⟨hhalf, hreset, hcommit⟩ := (halfTracked g x op' _).2.mp ⟨d, hmem, hd'⟩
    obtain ⟨pre, op, mid, rfl, hstop, hmid⟩ := (hlasts before).mp hhalf
    rcases hcond pre op mid op' post rfl hstop hmid with h | h
    · exact hreset h
    · exact h hcommit

/-! ## 5. A rebuilt node and a signal -/

/-- The shared connection after `reset`, with nothing open. -/
def freshConnection : Connection Db :=
  ⟨(World.initial openSetup {} none).db, (World.initial openSetup {} none).db⟩

/-- A node with one parent. -/
def rebuiltNode : Payload := openPayload "agent" "node-1" ["clean-parent-1"]

/-- `commit_node`, as far as it gets, and then a signal attempt is recorded. -/
def commitThenSignal (done : ℕ) : List (Cut Shared) :=
  [⟨.store (.commitNode .reconstruction rebuiltNode), done⟩,
    ⟨.store (.recordSignalAttempt "agent" "node-1" "designation" "PENDING" 0), 2⟩]

theorem fresh_not_half : ¬ freshConnection.view.Half "node-1" := by
  rintro ⟨n, hn, hid, -⟩
  obtain rfl := List.mem_singleton.mp hn
  exact absurd hid (by decide)

/-- A commit that runs to its end leaves nothing behind that a signal could commit. -/
theorem half_commits_none :
    ¬ ∃ d ∈ freshConnection.committedBy (Shared.statements openSetup) (commitThenSignal 3),
      d.Half "node-1" := by
  rintro ⟨d, hd, hhalf⟩
  refine (half_commits_iff openSetup freshConnection (commitThenSignal 3) "node-1" fresh_not_half).mpr ?_
    d hd hhalf
  intro pre op mid op' post hops hstop _
  obtain ⟨site, p, hop, -, -, -, y, hy, -, hnot⟩ := hstop
  have hmem : op ∈ commitThenSignal 3 := by
    rw [hops]
    simp
  simp only [commitThenSignal, List.mem_cons, List.not_mem_nil, or_false] at hmem
  rcases hmem with rfl | rfl
  · obtain ⟨-, rfl⟩ := Store.commitNode.inj (Shared.store.inj hop)
    exact absurd (parentId_mem_edgeRows hy) hnot
  · exact absurd (Shared.store.inj hop) (by simp)

/-- `commit_node` raises at its first edge; the signal that is recorded next commits the node
without it. -/
theorem half_commits_signal : ¬ ∀ d ∈ freshConnection.committedBy (Shared.statements openSetup)
    (commitThenSignal 1), ¬ d.Half "node-1" := by
  intro hall
  have hstop : StopsHalfWay "node-1" ⟨.store (.commitNode .reconstruction rebuiltNode), 1⟩
      freshConnection.view := by
    refine ⟨.reconstruction, rebuiltNode, rfl, rfl, by decide, le_refl 1, "clean-parent-1", ?_, ?_, by simp⟩
    · exact Or.inl (by decide)
    · rintro ⟨e, he, -⟩
      exact absurd he (by simp [freshConnection, World.initial, Db.reset_toLineage])
  have hhalf := (halfTracked openSetup "node-1" _ freshConnection).1.mpr (Or.inl hstop)
  obtain ⟨d, hd, hd'⟩ := (halfTracked openSetup "node-1"
    ⟨.store (.recordSignalAttempt "agent" "node-1" "designation" "PENDING" 0), 2⟩ _).2.mpr
      ⟨hhalf, fun h => absurd h.1 (by simp), by
        rw [ReachesCommit]
        exact List.mem_cons_of_mem _ List.mem_cons_self⟩
  refine hall d ?_ hd'
  rw [Connection.mem_committedBy_iff]
  exact ⟨[_], _, [], rfl, hd⟩

end GovernorGateway
