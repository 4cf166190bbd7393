/-
# Reconstruction decides, unless something raises

`_attempt_reconstruction` runs over the stored repair candidates and has ten ways to end a round for
one that is pending.  Eight of them store a final record with `update_repair_candidate`.  The two
`except` clauses only assign to `rc_data`, which on SQLite is what `json.loads` made of a row:
NOTHING IS STORED and the candidate stays pending.

`reconstruction_decides_iff`: the candidates that were pending are all decided after a run exactly
when each of them has its node in the graph (else the look-up in the cache raises) and no call of
the run has raised.

A call to the backend may raise too.  What the adapter sends is bound to the statements of
`commit_node`, so a commit can stop half way (`Store.Interrupted`); the other functions raise before
they have written.
-/
import GovernorGateway.Effects.Watched
import GovernorGateway.Semantics.Scripted

namespace GovernorGateway

open Effects

/-! ## 1. Calls that raise -/

/-- What a store function that raises has done before. -/
def Store.Interrupted : Store → Db → Db → Prop
  | .commitNode _ _, db, db' =>
    db'.repairCandidates = db.repairCandidates ∧ ∀ x ∈ db.nodeIds, x ∈ db'.nodeIds
  | _, db, db' => db' = db

/-- A call when nothing else runs, with store functions that may raise. -/
def FaultyStep (g : Setup) (answers : Answers) : Trans Call Call.Res Exc World := fun c w r w' =>
  Step g answers c w r w' ∨ ∃ s db', c = .store s ∧ (∃ e, r = .error e) ∧ s.Interrupted w.db db' ∧
    w' = { w with db := db' }

/-- A record that says what became of the compaction. -/
def RepairCandidate.Concludes (rc : RepairCandidate) (db : Db) : Prop :=
  (rc.disposition = .reducible ∧ ∃ y ∈ db.nodeIds, rc.reconstructedNodeId = some y) ∨
    (rc.disposition = .irreducible ∧ ∃ reason, rc.reason = some reason)

theorem RepairCandidate.Concludes.not_pending {rc : RepairCandidate} {db : Db} (h : rc.Concludes db) :
    rc.disposition ≠ .pendingReconstruction := by
  rcases h with ⟨hrc, -⟩ | ⟨hrc, -⟩
  · rw [hrc]
    decide
  · rw [hrc]
    decide

theorem RepairCandidate.Concludes.mono {rc : RepairCandidate} {db db' : Db} (h : rc.Concludes db)
    (hkept : ∀ x ∈ db.nodeIds, x ∈ db'.nodeIds) : rc.Concludes db' := by
  rcases h with ⟨hrc, y, hy, hid⟩ | hrc
  · exact Or.inl ⟨hrc, y, hkept y hy, hid⟩
  · exact Or.inr hrc

/-- The candidate was pending. -/
def Pending (row : NodeId × RepairCandidate) : Prop := row.2.disposition = .pendingReconstruction

/-- **Reconstruction has decided**: no candidate is pending, and each that was has a decided
record. -/
structure AllDecided (before after : Db) : Prop where
  settled : ∀ row ∈ after.repairCandidates, ¬ Pending row
  decided : ∀ row ∈ before.repairCandidates, Pending row →
    ∃ rc, (row.1, rc) ∈ after.repairCandidates ∧ rc.Concludes after

variable {g : Setup} {answers : Answers} {α β : Type}

/-! ## 2. Parts of a round that store no record -/

/-- The calls of a round before it stores its record. -/
def Call.Spares : Call → Prop
  | .store .getDag | .store .getQuarantineLedger | .store .computeStateDigest
  | .store (.commitNode _ _) | .store (.recordReintegration _ _ _ _)
  | .store (.recordReintegrationEvidence _) | .ext _ | .getAdapterKey | .setAdapterKey _
  | .sync .enterShared | .sync .leaveShared => True
  | _ => False

/-- They leave the records alone, and no node is lost. -/
theorem spares_step {c : Call} (hc : c.Spares) {w w' : World} {r : Except Exc c.Res}
    (ht : FaultyStep g answers c w r w') :
    w'.db.repairCandidates = w.db.repairCandidates ∧ ∀ x ∈ w.db.nodeIds, x ∈ w'.db.nodeIds := by
  rcases ht with ht | ⟨s, db', rfl, -, hdb, rfl⟩
  · cases c with
    | ext e => rw [ht.2]; exact ⟨rfl, fun _ hx => hx⟩
    | getAdapterKey => rw [ht.2]; exact ⟨rfl, fun _ hx => hx⟩
    | setAdapterKey key => rw [ht.2]; exact ⟨rfl, fun _ hx => hx⟩
    | sync k =>
      rw [ht.2]
      cases k with
      | enterShared => exact ⟨rfl, fun _ hx => hx⟩
      | leaveShared => exact ⟨rfl, fun _ hx => hx⟩
      | _ => exact absurd hc id
    | store s =>
      rw [ht.2]
      cases s with
      | commitNode site p =>
        exact ⟨rfl, fun x hx => Lineage.mem_nodeIds_commitNode.mpr (Or.inl hx)⟩
      | getDag => exact ⟨rfl, fun _ hx => hx⟩
      | getQuarantineLedger => exact ⟨rfl, fun _ hx => hx⟩
      | computeStateDigest => exact ⟨rfl, fun _ hx => hx⟩
      | recordReintegration x p h t => exact ⟨rfl, fun _ hx => hx⟩
      | recordReintegrationEvidence e => exact ⟨rfl, fun _ hx => hx⟩
      | _ => exact absurd hc id
  · cases s with
    | commitNode site p => exact hdb
    | _ =>
      obtain rfl : db' = w.db := hdb
      exact ⟨rfl, fun _ hx => hx⟩

/-- A state of the round: the records, nodes that are stored, and whether a call has raised. -/
structure Round (rcs : List (NodeId × RepairCandidate)) (ids : List NodeId) (flag : Prop)
    (s : World × Prop) : Prop where
  rows : s.1.db.repairCandidates = rcs
  kept : ∀ x ∈ ids, x ∈ s.1.db.nodeIds
  raised : s.2 ↔ flag

variable {rcs : List (NodeId × RepairCandidate)} {ids : List NodeId} {flag : Prop} {s : World × Prop}

/-- The part of a round keeps its state while it returns, and raises only because a call has. -/
def Steady (g : Setup) (answers : Answers) (x : Handler α) : Prop :=
  ∀ rcs ids flag s, Round rcs ids flag s →
    Act.Sat (watched (FaultyStep g answers)) Trans.any x
      (onOk (fun _ => Round rcs ids flag) fun _ => Round rcs ids True) s

theorem Round.step {c : Call} (h : Round rcs ids flag s) (hc : c.Spares) {r : Except Exc c.Res}
    {s' : World × Prop} (ht : watched (FaultyStep g answers) c s r s') :
    onOk (fun _ => Round rcs ids flag) (fun _ => Round rcs ids True) r s' := by
  obtain ⟨hrows, hkept⟩ := spares_step hc ht.1
  have hids : ∀ x ∈ ids, x ∈ s'.1.db.nodeIds := fun x hx => hkept x (h.kept x hx)
  cases r with
  | error e => exact ⟨hrows.trans h.rows, hids, iff_of_true (ht.2.mpr (Or.inr ⟨e, rfl⟩)) trivial⟩
  | ok a =>
    refine ⟨hrows.trans h.rows, hids, ht.2.trans ?_⟩
    rw [h.raised]
    simp

theorem steady_call {c : Call} (hc : c.Spares) : Steady g answers (Act.perform c : Handler c.Res) :=
  fun _ _ _ _ h _ _ ht => ⟨trivial, h.step hc ht⟩

theorem steady_pure (a : α) : Steady g answers (pure a : Handler α) := fun _ _ _ _ h => h

theorem Steady.bind {x : Handler α} {f : α → Handler β} (hx : Steady g answers x)
    (hf : ∀ a, Steady g answers (f a)) : Steady g answers (x >>= f) := fun rcs ids flag s h =>
  Act.sat_seq (hx rcs ids flag s h) (fun a s' h' => hf a rcs ids flag s' h') fun _ _ h' => h'

theorem steady_store {c : Store} (hc : (Call.store c).Spares) : Steady g answers (store c) := steady_call hc

theorem steady_ext (e : Ext) : Steady g answers (ext e) := steady_call (c := .ext e) trivial

theorem steady_stampNow : Steady g answers stampNow := (steady_ext _).bind fun _ => steady_pure _

theorem steady_gateEvidence : Steady g answers gateEvidence :=
  steady_stampNow.bind fun _ => steady_stampNow.bind fun _ => steady_stampNow.bind fun _ =>
    steady_stampNow.bind fun _ => steady_pure _

/-- The candidate, from the adapter or made inline. -/
theorem steady_reconstructionCandidate (root : NodeId) (rc : RepairCandidate)
    (dag : List (NodeId × Payload)) (ledger covers : List NodeId) :
    Steady g answers (reconstructionCandidate g root rc dag ledger covers) := by
  rw [reconstructionCandidate]
  split
  · exact steady_ext _
  · refine Steady.bind ?_ fun _ => steady_pure _
    rw [inlineCandidate]
    exact (steady_ext _).bind fun _ => (steady_ext _).bind fun _ => (steady_ext _).bind fun _ =>
      (steady_call (c := .setAdapterKey _) trivial).bind fun _ => steady_pure _

/-- After a commit under the shared lock the node is stored. -/
theorem sat_commitShared_round {p : Payload} (site : CommitSite) (h : Round rcs ids flag s) :
    Act.Sat (watched (FaultyStep g answers)) Trans.any (commitShared site p)
      (onOk (fun _ => Round rcs (p.payloadId :: ids) flag) fun _ => Round rcs ids True) s := by
  rw [commitShared, withShared]
  refine Act.sat_seq (steady_call (c := .sync .enterShared) trivial rcs ids flag s h)
    (fun _ s₁ h₁ => ?_) fun _ _ h' => h'
  rw [Act.sat_always, Act.sat_bind]
  intro r s₂ ht
  refine ⟨trivial, ?_⟩
  cases r with
  | error e =>
    intro r s₃ ht'
    refine ⟨trivial, ?_⟩
    have h₃ := Round.step (h₁.step (c := .store (.commitNode site p)) trivial ht) (c := .sync .leaveShared)
      trivial ht'
    cases r with
    | error e => exact h₃
    | ok _ => exact h₃
  | ok stored =>
    have h₂ : Round rcs (p.payloadId :: ids) flag s₂ := by
      obtain ⟨hrows, hkept, hraised⟩ := h₁.step (c := .store (.commitNode site p)) trivial ht
      refine ⟨hrows, fun x hx => ?_, hraised⟩
      rcases List.mem_cons.mp hx with rfl | hx
      · rcases ht.1 with ⟨-, hw⟩ | ⟨c, db', -, ⟨e, he⟩, -⟩
        · rw [hw]
          exact Lineage.mem_nodeIds_commitNode.mpr (Or.inr rfl)
        · exact absurd he (by simp)
      · exact hkept x hx
    intro r s₃ ht'
    refine ⟨trivial, ?_⟩
    have h₃ := h₂.step (c := .sync .leaveShared) trivial ht'
    cases r with
    | error e => exact ⟨h₃.rows, fun x hx => h₃.kept x (List.mem_cons_of_mem _ hx), h₃.raised⟩
    | ok _ => exact h₃

/-! ## 3. The round of one pending candidate -/

/-- The record of `x` has been stored, and says what became of the compaction. -/
def Stored (rcs : List (NodeId × RepairCandidate)) (ids : List NodeId) (flag : Prop) (x : NodeId)
    (s : World × Prop) : Prop :=
  ∃ rc, rc.Concludes s.1.db ∧ Round (Keyed.insertOrReplace Prod.fst rcs (x, rc)) ids flag s

/-- The call that stores a record. -/
theorem sat_update {x : NodeId} {rc : RepairCandidate} (h : Round rcs ids flag s)
    (hrc : rc.Concludes s.1.db) :
    Act.Sat (watched (FaultyStep g answers)) Trans.any (store (.updateRepairCandidate x rc))
      (onOk (fun _ => Stored rcs ids flag x) fun _ => Round rcs ids True) s := by
  intro r s' ht
  refine ⟨trivial, ?_⟩
  obtain ⟨hrows, hkept, hraised⟩ := h
  obtain ⟨hstep, hflag⟩ := ht
  rcases hstep with ⟨rfl, hw⟩ | ⟨c, db', hc, ⟨e, rfl⟩, hdb, hw⟩
  · refine ⟨rc, ?_, ?_, ?_, ?_⟩
    · rw [hw]
      exact hrc
    · rw [hw, ← hrows]
      rfl
    · rw [hw]
      exact hkept
    · refine hflag.trans ?_
      rw [hraised]
      simp [Store.exec]
  · obtain rfl := Call.store.inj hc
    obtain rfl : db' = s.1.db := hdb
    have hsame : s'.1.db = s.1.db := by rw [hw]
    refine ⟨?_, ?_, iff_of_true (hflag.mpr (Or.inr ⟨e, rfl⟩)) trivial⟩
    · rw [hsame, hrows]
    · rw [hsame]
      exact hkept

theorem sat_giveUp_round {x : NodeId} {rc : RepairCandidate} {reason : String} (h : Round rcs ids flag s) :
    Act.Sat (watched (FaultyStep g answers)) Trans.any (giveUp x rc reason)
      (onOk (fun _ => Stored rcs ids flag x) fun _ => Round rcs ids True) s :=
  sat_update h (Or.inr ⟨rfl, reason, rfl⟩)

theorem sat_reintegrate_round {x : NodeId} {rc : RepairCandidate} {c : Payload} (h : Round rcs ids flag s) :
    Act.Sat (watched (FaultyStep g answers)) Trans.any (reintegrate g x rc c)
      (onOk (fun _ => Stored rcs ids flag x) fun _ => Round rcs ids True) s := by
  have hforget : ∀ s', Round rcs (c.payloadId :: ids) True s' → Round rcs ids True s' := fun s' h' =>
    ⟨h'.rows, fun y hy => h'.kept y (List.mem_cons_of_mem _ hy), h'.raised⟩
  rw [reintegrate]
  refine Act.sat_seq (steady_gateEvidence rcs ids flag s h) (fun evidence s₁ h₁ => ?_) fun _ _ h' => h'
  refine Act.sat_seq (steady_store (by trivial) rcs ids flag s₁ h₁) (fun pre s₂ h₂ => ?_) fun _ _ h' => h'
  refine Act.sat_seq (sat_commitShared_round .reconstruction h₂) (fun _ s₃ h₃ => ?_) fun _ _ h' => h'
  -- from here on the node is stored
  refine Act.sat_seq (steady_store (by trivial) rcs _ flag s₃ h₃) (fun post s₄ h₄ => ?_)
    fun _ s' h' => hforget s' h'
  refine Act.sat_seq (steady_ext _ rcs _ flag s₄ h₄) (fun t s₅ h₅ => ?_) fun _ s' h' => hforget s' h'
  refine Act.sat_seq (steady_store (by trivial) rcs _ flag s₅ h₅) (fun _ s₆ h₆ => ?_)
    fun _ s' h' => hforget s' h'
  refine Act.sat_seq (steady_stampNow rcs _ flag s₆ h₆) (fun recorded s₇ h₇ => ?_)
    fun _ s' h' => hforget s' h'
  refine Act.sat_seq (steady_store (by trivial) rcs _ flag s₇ h₇) (fun _ s₈ h₈ => ?_)
    fun _ s' h' => hforget s' h'
  refine Act.Sat.mono (sat_update h₈
    (Or.inl ⟨rfl, c.payloadId, h₈.kept _ List.mem_cons_self, rfl⟩)) ?_
  rintro (e | _) s' h'
  · exact hforget s' h'
  · obtain ⟨rc', hrc', hrows, hkept, hraised⟩ := h'
    exact ⟨rc', hrc', hrows, fun y hy => hkept y (List.mem_cons_of_mem _ hy), hraised⟩

/-- **The checks**: whichever way they end, a record is stored, unless a call raises. -/
theorem sat_gate_round {x : NodeId} {rc : RepairCandidate} {candidate : Option Payload}
    (h : Round rcs ids flag s) :
    Act.Sat (watched (FaultyStep g answers)) Trans.any (gate g x rc candidate)
      (onOk (fun _ => Stored rcs ids flag x) fun _ => Round rcs ids True) s := by
  cases candidate with
  | none => exact sat_giveUp_round h
  | some c =>
    rw [gate]
    split
    · exact sat_giveUp_round h
    · refine Act.sat_seq (steady_call (c := .getAdapterKey) trivial rcs ids flag s h)
        (fun key s₁ h₁ => ?_) fun _ _ h' => h'
      split
      · exact sat_giveUp_round h₁
      · split
        · exact sat_giveUp_round h₁
        · exact sat_reintegrate_round h₁

/-- **The body of the `try`**: it stores a record, or raises because a call has or because the
compaction is not in the graph. -/
theorem sat_reconstructPending_round {root x : NodeId} {rc : RepairCandidate}
    {cache : List (NodeId × Payload) × List NodeId} (h : Round rcs ids flag s) :
    Act.Sat (watched (FaultyStep g answers)) Trans.any (reconstructPending g root x rc cache)
      (onOk (fun _ s' => Stored rcs ids flag x s' ∧ x ∈ cache.1.map Prod.fst)
        fun _ s' => Round rcs ids True s' ∨ Round rcs ids flag s' ∧ x ∉ cache.1.map Prod.fst) s := by
  rw [reconstructPending]
  cases hlookup : Keyed.lookup Prod.fst cache.1 x with
  | none => exact Or.inr ⟨h, Keyed.lookup_eq_none.mp hlookup⟩
  | some node =>
    obtain ⟨hnode, rfl⟩ := Keyed.lookup_mem hlookup
    have hx : node.1 ∈ cache.1.map Prod.fst := List.mem_map.mpr ⟨node, hnode, rfl⟩
    refine Act.sat_seq (steady_reconstructionCandidate root rc cache.1 cache.2 node.2.covers rcs ids
      flag s h)
      (fun candidate s₁ h₁ => ?_) fun _ _ h' => Or.inl h'
    refine Act.Sat.mono (sat_gate_round h₁) ?_
    rintro (e | _) s' h'
    · exact Or.inl h'
    · exact ⟨h', hx⟩

/-! ## 4. The loop -/

/-- What goes wrong in the rounds that are done: a call has raised, or a pending candidate has no
node. -/
def Bad (db₀ : Db) (pre : List (NodeId × RepairCandidate)) (flag : Prop) : Prop :=
  flag ∨ ∃ row ∈ pre, Pending row ∧ row.1 ∉ db₀.nodeIds

/-- The cache is what the graph was before the loop, or has not been read and the graph is that. -/
def CacheOf (db₀ : Db) (db : Db) : Option (List (NodeId × Payload) × List NodeId) → Prop
  | none => db.nodes = db₀.nodes
  | some c => c.1 = db₀.getDag

/-- **The invariant of the loop**, after the rounds of `pre`. -/
structure Loop (db₀ : Db) (pre : List (NodeId × RepairCandidate))
    (cache : Option (List (NodeId × Payload) × List NodeId)) (s : World × Prop) : Prop where
  kept : ∀ x ∈ db₀.nodeIds, x ∈ s.1.db.nodeIds
  cache : CacheOf db₀ s.1.db cache
  /-- The candidates ahead are as they were. -/
  ahead : ∀ row ∈ db₀.repairCandidates, row ∉ pre → row ∈ s.1.db.repairCandidates
  /-- No candidate becomes pending. -/
  known : ∀ row ∈ s.1.db.repairCandidates, Pending row → row ∈ db₀.repairCandidates
  /-- While nothing has gone wrong, what was pending is decided. -/
  decided : ¬ Bad db₀ pre s.2 → ∀ row ∈ pre, Pending row → row ∉ s.1.db.repairCandidates ∧
    ∃ rc, (row.1, rc) ∈ s.1.db.repairCandidates ∧ rc.Concludes s.1.db
  /-- Once something has, a candidate is left pending. -/
  left : Bad db₀ pre s.2 → ∃ row ∈ pre, Pending row ∧ row ∈ s.1.db.repairCandidates

variable {db₀ : Db} {pre post : List (NodeId × RepairCandidate)} {row : NodeId × RepairCandidate}
  {cache cache' : Option (List (NodeId × Payload) × List NodeId)} {s' : World × Prop}

theorem Bad.snoc (h : Bad db₀ pre flag) : Bad db₀ (pre ++ [row]) flag := by
  rcases h with h | ⟨r, hr, hbad⟩
  · exact Or.inl h
  · exact Or.inr ⟨r, List.mem_append_left _ hr, hbad⟩

/-- A round over a candidate that is stored changes nothing about what has gone wrong. -/
theorem bad_snoc_iff (h : ¬ Pending row ∨ row.1 ∈ db₀.nodeIds) :
    Bad db₀ (pre ++ [row]) flag ↔ Bad db₀ pre flag := by
  constructor
  · rintro (hflag | ⟨r, hr, hp, hnot⟩)
    · exact Or.inl hflag
    · rcases List.mem_append.mp hr with hr | hr
      · exact Or.inr ⟨r, hr, hp, hnot⟩
      · obtain rfl := List.mem_singleton.mp hr
        rcases h with h | h
        · exact absurd hp h
        · exact absurd h hnot
  · exact Bad.snoc

/-- A round that has nothing to do. -/
theorem Loop.skip (h : Loop db₀ pre cache s) (hp : ¬ Pending row) : Loop db₀ (pre ++ [row]) cache s where
  kept := h.kept
  cache := h.cache
  ahead := fun r hr hnot => h.ahead r hr fun hm => hnot (List.mem_append_left _ hm)
  known := h.known
  decided := by
    intro hbad r hr hpr
    rw [bad_snoc_iff (Or.inl hp)] at hbad
    rcases List.mem_append.mp hr with hr | hr
    · exact h.decided hbad r hr hpr
    · obtain rfl := List.mem_singleton.mp hr
      exact absurd hpr hp
  left := by
    intro hbad
    rw [bad_snoc_iff (Or.inl hp)] at hbad
    obtain ⟨r, hr, hleft⟩ := h.left hbad
    exact ⟨r, List.mem_append_left _ hr, hleft⟩

/-- A round that stores a record. -/
theorem Loop.stored (h : Loop db₀ pre cache s) (hkeys : (db₀.repairCandidates.map Prod.fst).Nodup)
    (hsplit : pre ++ row :: post = db₀.repairCandidates) (hrow : row.1 ∈ db₀.nodeIds)
    {c : List (NodeId × Payload) × List NodeId} (hc : c.1 = db₀.getDag)
    (hs' : Stored s.1.db.repairCandidates s.1.db.nodeIds s.2 row.1 s') :
    Loop db₀ (pre ++ [row]) (some c) s' := by
  obtain ⟨rc, hrc, hrows, hkept, hraised⟩ := hs'
  have hmem : ∀ r, r ∈ s'.1.db.repairCandidates ↔
      (r ∈ s.1.db.repairCandidates ∧ r.1 ≠ row.1) ∨ r = (row.1, rc) := by
    intro r
    rw [hrows, Keyed.mem_insertOrReplace]
  have hpre : ∀ r ∈ pre, r.1 ≠ row.1 := by
    intro r hr heq
    rw [← hsplit, List.map_append, List.map_cons, List.nodup_append] at hkeys
    exact hkeys.2.2 r.1 (List.mem_map_of_mem hr) row.1 List.mem_cons_self heq
  have hbad : Bad db₀ (pre ++ [row]) s'.2 ↔ Bad db₀ pre s.2 := by
    rw [bad_snoc_iff (Or.inr hrow), Bad, Bad, hraised]
  refine ⟨fun x hx => hkept x (h.kept x hx), hc, ?_, ?_, ?_, ?_⟩
  · intro r hr hnot
    rw [List.mem_append, not_or, List.mem_singleton] at hnot
    refine (hmem r).mpr (Or.inl ⟨h.ahead r hr hnot.1, fun heq => hnot.2 ?_⟩)
    have hrow' : row ∈ db₀.repairCandidates := by
      rw [← hsplit]
      exact List.mem_append_right _ List.mem_cons_self
    exact List.inj_on_of_nodup_map hkeys hr hrow' heq
  · intro r hr hp
    rcases (hmem r).mp hr with ⟨hr, -⟩ | rfl
    · exact h.known r hr hp
    · exact absurd hp hrc.not_pending
  · intro hgood r hr hp
    rw [hbad] at hgood
    rcases List.mem_append.mp hr with hr | hr
    · obtain ⟨hnot, rc', hrc', hdec⟩ := h.decided hgood r hr hp
      refine ⟨fun hm => ?_, rc', (hmem _).mpr (Or.inl ⟨hrc', hpre r hr⟩), hdec.mono hkept⟩
      rcases (hmem r).mp hm with ⟨hm, -⟩ | rfl
      · exact hnot hm
      · exact hpre _ hr rfl
    · obtain rfl := List.mem_singleton.mp hr
      refine ⟨fun hm => ?_, rc, (hmem _).mpr (Or.inr rfl), hrc⟩
      rcases (hmem r).mp hm with ⟨-, hne⟩ | heq
      · exact hne rfl
      · rw [heq] at hp
        exact hrc.not_pending hp
  · intro hb
    rw [hbad] at hb
    obtain ⟨r, hr, hp, hleft⟩ := h.left hb
    exact ⟨r, List.mem_append_left _ hr, hp, (hmem r).mpr (Or.inl ⟨hleft, hpre r hr⟩)⟩

/-- A round that fails leaves its candidate pending. -/
theorem Loop.failed (h : Loop db₀ pre cache s) (hsplit : pre ++ row :: post = db₀.repairCandidates)
    (hkeys : (db₀.repairCandidates.map Prod.fst).Nodup) (hp : Pending row)
    (hs' : Round s.1.db.repairCandidates s.1.db.nodeIds flag s') (hbad : flag ∨ row.1 ∉ db₀.nodeIds)
    (hcache : CacheOf db₀ s'.1.db cache') : Loop db₀ (pre ++ [row]) cache' s' := by
  have hrow : row ∈ db₀.repairCandidates := by
    rw [← hsplit]
    exact List.mem_append_right _ List.mem_cons_self
  have hnot : row ∉ pre := by
    intro hm
    rw [← hsplit, List.map_append, List.map_cons, List.nodup_append] at hkeys
    exact hkeys.2.2 row.1 (List.mem_map_of_mem hm) row.1 List.mem_cons_self rfl
  have hrow' : row ∈ s'.1.db.repairCandidates := by
    rw [hs'.rows]
    exact h.ahead row hrow hnot
  have hb : Bad db₀ (pre ++ [row]) s'.2 := by
    rcases hbad with hflag | hmissing
    · exact Or.inl (hs'.raised.mpr hflag)
    · exact Or.inr ⟨row, List.mem_append_right _ (List.mem_singleton_self row), hp, hmissing⟩
  refine ⟨fun x hx => hs'.kept x (h.kept x hx), hcache, ?_, ?_, fun hgood => absurd hb hgood, fun _ => ?_⟩
  · intro r hr hnot
    rw [hs'.rows]
    exact h.ahead r hr fun hm => hnot (List.mem_append_left _ hm)
  · intro r hr hpr
    rw [hs'.rows] at hr
    exact h.known r hr hpr
  · exact ⟨row, List.mem_append_right _ (List.mem_singleton_self row), hp, hrow'⟩

/-! ## 5. One round -/

/-- A state of the round with the world it started in. -/
theorem Round.same (hworld : s'.1 = s.1) (hflag : s'.2 ↔ flag) :
    Round s.1.db.repairCandidates s.1.db.nodeIds flag s' := by
  refine ⟨?_, ?_, hflag⟩
  · rw [hworld]
  · rw [hworld]
    exact fun _ hx => hx

theorem Round.congr (h : Round rcs ids flag s) (hworld : s'.1 = s.1) (hflag : s'.2 ↔ s.2) :
    Round rcs ids flag s' := by
  refine ⟨?_, ?_, hflag.trans h.raised⟩
  · rw [hworld]
    exact h.rows
  · rw [hworld]
    exact h.kept

/-- Reading the cache changes nothing, and gives what the graph was. -/
theorem sat_cached (h : CacheOf db₀ s.1.db cache) :
    Act.Sat (watched (FaultyStep g answers)) Trans.any (cached cache)
      (onOk (fun read s' => s'.1 = s.1 ∧ match read with
          | .ok c => c.1 = db₀.getDag ∧ (s'.2 ↔ s.2)
          | .error _ => cache = none ∧ s'.2)
        fun _ _ => True) s := by
  cases cache with
  | some c => exact ⟨rfl, h, Iff.rfl⟩
  | none =>
    rw [cached, Act.sat_attempt, readCache]
    rintro r s₁ ⟨hstep, hflag⟩
    refine ⟨trivial, ?_⟩
    rcases hstep with ⟨rfl, hw⟩ | ⟨c, db', hc, ⟨e, rfl⟩, hdb, hw⟩
    · have hworld : s₁.1 = s.1 := hw
      rintro r s₂ ⟨hstep, hflag'⟩
      refine ⟨trivial, ?_⟩
      rcases hstep with ⟨rfl, hw'⟩ | ⟨c, db', hc, ⟨e, rfl⟩, hdb, hw'⟩
      · refine ⟨hw'.trans hworld, ?_, ?_⟩
        · change s.1.db.getDag = db₀.getDag
          rw [Db.getDag, Db.getDag, show s.1.db.nodes = db₀.nodes from h]
        · rw [hflag', hflag]
          simp [Store.exec]
      · obtain rfl := Call.store.inj hc
        obtain rfl : db' = s₁.1.db := hdb
        exact ⟨hw'.trans hworld, rfl, hflag'.mpr (Or.inr ⟨e, rfl⟩)⟩
    · obtain rfl := Call.store.inj hc
      obtain rfl : db' = s.1.db := hdb
      exact ⟨hw, rfl, hflag.mpr (Or.inr ⟨e, rfl⟩)⟩

/-- The `except` clauses change nothing that is stored. -/
theorem sat_assignFailure {x : NodeId} {rc : RepairCandidate} {e : Exc} :
    Act.Sat (watched (FaultyStep g answers)) Trans.any (assignFailure x rc e)
      (onOk (fun _ s' => s'.1 = s.1 ∧ (s'.2 ↔ s.2)) fun _ _ => True) s := by
  rintro r s' ⟨hstep, hflag⟩
  refine ⟨trivial, ?_⟩
  rcases hstep with ⟨rfl, hw⟩ | ⟨c, db', hc, ⟨e, rfl⟩, hdb, hw⟩
  · refine ⟨hw, hflag.trans ?_⟩
    simp [Store.exec]
  · trivial

theorem Db.keys_getDag (db : Db) : db.getDag.map Prod.fst = db.nodeIds := by
  rw [Db.getDag, List.map_map]
  rfl

/-- **One round keeps the invariant.** -/
theorem sat_reconstructOne_loop {root : NodeId} (hkeys : (db₀.repairCandidates.map Prod.fst).Nodup)
    (hsplit : pre ++ row :: post = db₀.repairCandidates) (h : Loop db₀ pre cache s) :
    Act.Sat (watched (FaultyStep g answers)) Trans.any (reconstructOne g root cache row)
      (onOk (fun cache' s' => Loop db₀ (pre ++ [row]) cache' s') fun _ _ => True) s := by
  rw [reconstructOne]
  split
  · rename_i hp
    exact h.skip hp
  rename_i hnot
  have hp : Pending row := not_not.mp hnot
  refine Act.sat_bind.mpr (Act.Sat.mono (sat_cached h.cache) ?_)
  rintro (e | read) s₁ h₁
  · trivial
  obtain ⟨hworld, hread⟩ := h₁
  cases read with
  | error e =>
    -- the cache could not be read
    obtain ⟨rfl, hflag⟩ := hread
    refine Act.sat_bind.mpr (Act.Sat.mono sat_assignFailure ?_)
    rintro (e | _) s₂ h₂
    · trivial
    obtain ⟨hworld₂, hflag₂⟩ := h₂
    refine h.failed hsplit hkeys hp (Round.same (hworld₂.trans hworld)
      (hflag₂.trans (iff_true_intro hflag)))
      (Or.inl trivial) ?_
    rw [hworld₂, hworld]
    exact h.cache
  | ok c =>
    obtain ⟨hc, hflag⟩ := hread
    have hids : c.1.map Prod.fst = db₀.nodeIds := by rw [hc, Db.keys_getDag]
    refine Act.sat_bind.mpr (Act.sat_attempt.mpr
      (Act.Sat.mono (sat_reconstructPending_round (Round.same hworld hflag)) ?_))
    rintro (e | _) s₂ h₂
    · -- the body of the `try` has raised
      refine Act.sat_bind.mpr (Act.Sat.mono sat_assignFailure ?_)
      rintro (e | _) s₃ h₃
      · trivial
      obtain ⟨hworld₃, hflag₃⟩ := h₃
      rcases h₂ with h₂ | ⟨h₂, hmissing⟩
      · exact h.failed hsplit hkeys hp (h₂.congr hworld₃ hflag₃) (Or.inl trivial) hc
      · rw [hids] at hmissing
        exact h.failed hsplit hkeys hp (h₂.congr hworld₃ hflag₃) (Or.inr hmissing) hc
    · obtain ⟨hstored, hin⟩ := h₂
      rw [hids] at hin
      exact h.stored hkeys hsplit hin hc hstored

/-! ## 6. The run -/

/-- The loop starts with nothing done. -/
theorem Loop.start (w : World) : Loop w.db [] none (w, False) where
  kept := fun _ hx => hx
  cache := rfl
  ahead := fun _ hr _ => hr
  known := fun _ hr _ => hr
  decided := fun _ _ hr => absurd hr (by simp)
  left := by
    rintro (hfalse | ⟨r, hr, -⟩)
    · exact absurd hfalse id
    · exact absurd hr (by simp)

/-- **The whole run**, by induction on the candidates. -/
theorem sat_attemptReconstruction_loop {root : NodeId} {w : World}
    (hkeys : (w.db.repairCandidates.map Prod.fst).Nodup) :
    Act.Sat (watched (FaultyStep g answers)) Trans.any (attemptReconstruction g root)
      (onOk (fun _ s' => ∃ cache, Loop w.db w.db.repairCandidates cache s') fun _ _ => True)
        (w, False) := by
  rw [attemptReconstruction, Act.sat_bind]
  rintro r s₁ ⟨hstep, hflag⟩
  refine ⟨trivial, ?_⟩
  rcases hstep with ⟨rfl, hw⟩ | ⟨c, db', hc, ⟨e, rfl⟩, hdb, hw⟩
  · have hs₁ : s₁ = (w, False) := by
      refine Prod.ext hw (propext (hflag.trans ?_))
      simp [Store.exec]
    rw [hs₁]
    refine Act.sat_bind.mpr (Act.Sat.mono (Act.sat_fold_split
      (I := fun pre cache s => Loop w.db pre cache s) [] w.db.repairCandidates
      (fun pre row post hsplit cache s h => sat_reconstructOne_loop hkeys hsplit h) (Loop.start w)) ?_)
    rintro (e | cache) s₂ h₂
    · trivial
    · exact ⟨cache, h₂⟩
  · trivial

/-- **When reconstruction decides.**  After a run that returns, from any database and with any
answers, no candidate is pending and each that was has a decided record, exactly when every
candidate that was pending has its node in the graph and no call of the run has raised. -/
theorem reconstruction_decides_iff (g : Setup) (answers : Answers) (root : NodeId) {w w' : World}
    (hkeys : (w.db.repairCandidates.map Prod.fst).Nodup) {tr : List (Event Call Call.Res Exc World)}
    (hrun : Exec (FaultyStep g answers) (attemptReconstruction g root).tree w tr (.ok ()) w') :
    AllDecided w.db w'.db ↔
      (∀ row ∈ w.db.repairCandidates, Pending row → row.1 ∈ w.db.nodeIds) ∧
        ∀ e ∈ tr, ∃ v, e.answer = .ok v := by
  obtain ⟨cache, h⟩ := (sat_attemptReconstruction_loop hkeys).flagged hrun
  have hbad : ((∀ row ∈ w.db.repairCandidates, Pending row → row.1 ∈ w.db.nodeIds) ∧
      ∀ e ∈ tr, ∃ v, e.answer = .ok v) ↔ ¬ Bad w.db w.db.repairCandidates (Raised tr) := by
    rw [not_raised_iff, Bad, not_or, and_comm]
    refine and_congr Iff.rfl ⟨?_, ?_⟩
    · rintro hstored ⟨row, hrow, hp, hmissing⟩
      exact hmissing (hstored row hrow hp)
    · intro hnone row hrow hp
      by_contra hmissing
      exact hnone ⟨row, hrow, hp, hmissing⟩
  rw [hbad]
  constructor
  · intro hall hb
    obtain ⟨row, -, hp, hrow⟩ := h.left hb
    exact hall.settled row hrow hp
  · intro hgood
    constructor
    · intro row hrow hp
      exact (h.decided hgood row (h.known row hrow hp) hp).1 hrow
    · intro row hrow hp
      exact (h.decided hgood row hrow hp).2

/-! ## 7. A summary that is pending -/

def rootCheckpoint : Checkpoint where
  checkpointId := "checkpoint-1"
  targetNodeId := "clean-parent-1"
  declaredAtUtc := "2025-10-27T10:00:00Z"
  snapshotData := []

/-- What a traversal from `summary-0` has decided about `summary-1`. -/
def pendingSummary : RepairCandidate where
  disposition := .pendingReconstruction
  frontier := ["clean-parent-1"]
  method := some "verified_checkpoint_reconstruction"
  checkpoint := some rootCheckpoint

/-- The root and a summary of it, which is to be rebuilt from the root. -/
def pendingWorld : World where
  db :=
    { nodes := [Lineage.nodeRow openSetup.env.sha256 { payloadId := "clean-parent-1" },
        Lineage.nodeRow openSetup.env.sha256 { openPayload "agent" "summary-1" ["clean-parent-1"] with
          covers := ["clean-parent-1"] }]
      repairCandidates := [("summary-1", pendingSummary)] }

/-- The answer to a call is not an exception. -/
def answersWith (step : (c : Call) → World → Except Exc c.Res × World) (c : Call) (w : World) : Bool :=
  match (step c w).1 with
  | .ok _ => true
  | .error _ => false

/-- Without an adapter the summary is rebuilt inline. -/
theorem reconstruction_decides_inline : ∃ tr w',
    Exec (FaultyStep openSetup Answers.lawful) (attemptReconstruction openSetup "summary-0").tree
      pendingWorld
      tr (.ok ()) w' ∧ AllDecided pendingWorld.db w'.db := by
  let x := (attemptReconstruction openSetup "summary-0").tree
  let step := (openScript "7").step openSetup
  have hstep : ∀ c w, FaultyStep openSetup Answers.lawful c w (step c w).1 (step c w).2 := fun c w =>
    Or.inl (Script.step_spec (g := openSetup) (o := openScript "7") c w)
  have hcheck : ∀ (c : Call) (w : World), answersWith step c w = true → ∃ v, (step c w).1 = .ok v := by
    intro c w h
    rw [answersWith] at h
    split at h
    · rename_i v hv
      exact ⟨v, hv⟩
    · exact absurd h (by simp)
  obtain ⟨tr, hexec, hanswers⟩ := Prog.run_exec
    (P := fun (_ : Call) (_ : World) r (_ : World) => ∃ v, r = .ok v) hstep hcheck x pendingWorld
    (by decide +kernel)
  have hout : (x.run step pendingWorld).1 = .ok () := by decide +kernel
  rw [hout] at hexec
  refine ⟨tr, _, hexec, (reconstruction_decides_iff openSetup _ "summary-0" (by decide) hexec).mpr
    ⟨?_, hanswers⟩⟩
  intro row hrow _
  obtain rfl := List.mem_singleton.mp hrow
  decide

/-- The deployment with a recovery adapter. -/
def timeoutSetup : Setup :=
  { openSetup with settings := { openSetup.settings with recoveryAdapterUrl := some "http://adapter" } }

/-- The calls under a script, except that the adapter takes too long. -/
def timeoutStep : (c : Call) → World → Except Exc c.Res × World
  | .ext (.reconstruct _), w => (.error .readTimeout, w)
  | c, w => (openScript "7").step timeoutSetup c w

theorem timeoutStep_spec (c : Call) (w : World) :
    Step timeoutSetup Answers.lawful c w (timeoutStep c w).1 (timeoutStep c w).2 := by
  have hspec := Script.step_spec (g := timeoutSetup) (o := openScript "7") c w
  cases c with
  | ext e =>
    cases e with
    | reconstruct req => exact ⟨trivial, rfl⟩
    | _ => exact hspec
  | store c => exact hspec
  | sync k => exact hspec
  | getAdapterKey => exact hspec
  | setAdapterKey key => exact hspec

/-- The adapter takes too long: reconstruction returns and the summary is still pending. -/
theorem reconstruction_leaves_pending : ∃ tr w',
    Exec (Step timeoutSetup Answers.lawful) (attemptReconstruction timeoutSetup "summary-0").tree
      pendingWorld
      tr (.ok ()) w' ∧ ¬ AllDecided pendingWorld.db w'.db := by
  let x := (attemptReconstruction timeoutSetup "summary-0").tree
  obtain ⟨tr, hexec⟩ := Prog.exists_exec (T := Step timeoutSetup Answers.lawful) timeoutStep_spec x
    pendingWorld
  have hout : (x.run timeoutStep pendingWorld).1 = .ok () := by decide +kernel
  have hrows : (x.run timeoutStep pendingWorld).2.db.repairCandidates.map
      (fun row => decide (row.2.disposition = .pendingReconstruction)) = [true] := by
    decide +kernel
  rw [hout] at hexec
  refine ⟨tr, _, hexec, fun hall => ?_⟩
  have hmem : true ∈ (x.run timeoutStep pendingWorld).2.db.repairCandidates.map
      (fun row => decide (row.2.disposition = .pendingReconstruction)) := by
    rw [hrows]
    exact List.mem_singleton_self true
  obtain ⟨row, hrow, hp⟩ := List.mem_map.mp hmem
  have hpending : row.2.disposition = .pendingReconstruction := of_decide_eq_true hp
  exact hall.settled row hrow hpending

end GovernorGateway
