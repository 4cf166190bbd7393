/-
# The frontier of the gateway and the frontier of the adapter

A pending compaction is sent to the recovery adapter with its frontier, what it covers outside the
blast radius, and the adapter derives the frontier again from the graph it is sent.  The two
derivations do not look at the same thing:

* the gateway's traversal follows parent AND covers edges, up to a depth; the adapter's follows
  declared parents only, at any depth;
* the gateway's was made for the root of the incident, or of the observation or rejection, that made
  the candidate pending, in the graph of that moment; the adapter's is made for the root of the
  incident at hand, in the graph of today.

`frontiers_agree_iff`: the sorted frontiers are equal exactly when these two notions of what is
reached agree on the ids the compaction covers.
-/
import GovernorGateway.Adapter
import GovernorGateway.Semantics.Stable
import GovernorGateway.Semantics.Scripted
import GovernorGateway.Semantics.Decisions

namespace GovernorGateway

open Effects

/-! ## 1. Where a pending frontier comes from -/

variable {g : Setup} {answers : Answers} {M : NodeId → Lineage → Prop}

/-- The frontier is what is covered outside the traversal from `root` of the lineage `L`. -/
def FrontierFrom (D : Int) (root : NodeId) (L : Lineage) (covers frontier : List NodeId) : Prop :=
  L.Wf ∧ frontier = covers.filter (· ∉ L.traverse D root)

/-- The lineage has the compaction a pending record is for, and the frontier of the record comes
from one of the traversals `M`. -/
def Lineage.Explains (D : Int) (M : NodeId → Lineage → Prop) (L : Lineage)
    (row : NodeId × RepairCandidate) : Prop :=
  row.2.disposition = .pendingReconstruction → ∃ n ∈ L.nodes, n.nodeId = row.1 ∧
    ∃ root L', M root L' ∧ FrontierFrom D root L' n.payload.covers row.2.frontier

/-- Every record is explained. -/
def Db.Derived (D : Int) (M : NodeId → Lineage → Prop) (db : Db) : Prop :=
  db.toLineage.Wf ∧ ∀ row ∈ db.repairCandidates, db.toLineage.Explains D M row

theorem Db.Derived.of_extends {D : Int} {db db' : Db} (h : db.Derived D M) (hwf : db'.toLineage.Wf)
    (hnodes : ∀ n ∈ db.nodes, n ∈ db'.nodes)
    (hrows : ∀ row ∈ db'.repairCandidates, row.2.disposition = .pendingReconstruction →
      row ∈ db.repairCandidates) : db'.Derived D M := by
  refine ⟨hwf, fun row hrow hp => ?_⟩
  obtain ⟨n, hn, hid, hfrom⟩ := h.2 row (hrows row hrow hp) hp
  exact ⟨n, hnodes n hn, hid, hfrom⟩

/-- The traversals of the run are among `M`. -/
def Recorded (M : NodeId → Lineage → Prop) : Trans Call Call.Res Exc World
  | .store (.computeBlastRadius root), w, _, _ => M root w.lin
  | _, _, _, _ => True

/-- **The invariant of the records**: only the traversal makes one pending. -/
theorem Store.derived_exec {c : Store} {w w' : World} {r : Except Exc c.Res} {db : Db}
    (hc : c.kind ≠ .reopen) (hrec : Recorded M (.store c) w r w') (hw : w.db = db)
    (h : db.Derived g.settings.maxTraversalDepth M) :
    (c.exec g db).2.Derived g.settings.maxTraversalDepth M := by
  subst hw
  have hwf : (c.exec g w.db).2.toLineage.Wf :=
    Store.exec_lineage (K := Lineage.Wf) (fun p L hL => hL.commitNode) (fun ids L hL => hL.quarantine ids)
      c w.db h.1
  cases c with
  | commitNode site p =>
    exact h.of_extends hwf (fun n hn => Lineage.mem_nodes_commitNode.mpr (Or.inl hn))
      fun row hrow _ => hrow
  | updateRepairCandidate x rc =>
    refine h.of_extends hwf (fun n hn => hn) fun row hrow hp => ?_
    rcases Keyed.mem_insertOrReplace.mp hrow with ⟨hrow, -⟩ | rfl
    · exact hrow
    · exact absurd (if_pos hp) hc
  | applyQuarantineTransaction event ids =>
    exact h.of_extends hwf (fun n hn => hn) fun row hrow _ => hrow
  | recordShadowDecision d =>
    simp only [Store.exec, Db.recordShadowDecision] at hwf ⊢
    split
    · exact h
    · exact h
  | computeBlastRadius root =>
    obtain ⟨rcs, hrcs⟩ := Db.computeBlastRadius_snd g.settings.maxTraversalDepth root w.db
    refine ⟨hwf, fun row hrow hp => ?_⟩
    have hnodes : ((Store.computeBlastRadius root).exec g w.db).2.nodes = w.db.nodes := by
      rw [Store.exec, hrcs]
      rfl
    rw [hnodes]
    rcases Db.pending_computeBlastRadius hrow hp with hold | ⟨p, hp, -, hfrontier, -⟩
    · exact h.2 row hold ‹_›
    · obtain ⟨n, hn, rfl⟩ := Option.map_eq_some_iff.mp hp
      obtain ⟨hmem, hid⟩ := Keyed.lookup_mem hn
      exact ⟨n, hmem, hid, root, w.lin, hrec, h.1, hfrontier⟩
  | _ => exact h

/-! ## 2. What is sent to the adapter -/

/-- A request carries a frontier that comes from one of the traversals. -/
def SendsFrontier (D : Int) (M : NodeId → Lineage → Prop) : Trans Call Call.Res Exc World
  | .ext (.reconstruct req), _, _, _ =>
    ∃ root L, M root L ∧ FrontierFrom D root L req.compactionCovers req.requestedFrontier
  | _, _, _, _ => True

/-- A call that neither opens a candidate again nor asks the adapter. -/
def Call.Silent (c : Call) : Prop := c.kind ∉ [CallKind.reopen, .adapter]

instance (c : Call) : Decidable c.Silent := inferInstanceAs (Decidable (_ ∉ _))

/-- A silent call inside a recovery, which opens and closes no transaction. -/
def Call.Inner (c : Call) : Prop := c.Silent ∧ c.NoTx

theorem Call.of_inner {ks : List CallKind}
    (h : (ks.all fun k => decide (k ∉ [CallKind.reopen, .adapter])) = true)
    (htx : ks.contains .tx = false) : Call.Of Call.Inner ks :=
  fun c hc => ⟨of_decide_eq_true (List.all_eq_true.mp h c.kind hc), Call.of_noTx htx c hc⟩

theorem Call.Outside.silent {c : Call} (h : c.Outside) : c.Silent := by
  simp only [Call.Outside, Call.Silent, List.mem_cons, List.not_mem_nil, or_false, not_or] at h ⊢
  exact ⟨h.2.1, h.1⟩

/-- The world has the invariant. -/
abbrev World.Derived (g : Setup) (M : NodeId → Lineage → Prop) (w : World) : Prop :=
  w.Both (Db.Derived g.settings.maxTraversalDepth M)

/-- Any call but one that opens a candidate again keeps the invariant. -/
theorem World.Derived.step {c : Call} {w w' : World} {r : Except Exc c.Res} (hc : c.kind ≠ .reopen)
    (ht : restrict (Step g answers) (Recorded M) c w r w') (h : w.Derived g M) : w'.Derived g M := by
  refine World.Both.step (g := g) (fun k hk hdb => ?_) h ht.1
  subst hk
  exact Store.derived_exec hc ht.2 rfl hdb

theorem derived_of_silent {c : Call} {w w' : World} {r : Except Exc c.Res} (hc : c.Silent)
    (ht : restrict (Step g answers) (Recorded M) c w r w') (h : w.Derived g M) :
    SendsFrontier g.settings.maxTraversalDepth M c w r w' ∧ w'.Derived g M := by
  have hkind : c.kind ≠ .reopen ∧ c.kind ≠ .adapter := by
    simpa [Call.Silent, not_or] using hc
  refine ⟨?_, h.step hkind.1 ht⟩
  cases c with
  | ext e =>
    cases e with
    | reconstruct req => exact absurd rfl hkind.2
    | _ => trivial
  | _ => trivial

/-! ## 3. One recovery -/

/-- While a recovery runs, what was stored when it began stays stored. -/
def World.Recovering (g : Setup) (M : NodeId → Lineage → Prop) (L : Lineage) (w : World) : Prop :=
  w.Derived g M ∧ L.Extends w.lin

/-- A graph that was read while the recovery runs. -/
def Lineage.Caches (L : Lineage) (c : List (NodeId × Payload) × List NodeId) : Prop :=
  ∃ L' : Lineage, L.Extends L' ∧ L'.Wf ∧ c.1 = L'.nodes.map fun n => (n.nodeId, n.payload)

section Recovery

variable {L : Lineage} {w w' : World}

theorem World.Recovering.step {c : Call} {r : Except Exc c.Res} (hkind : c.kind ≠ .reopen)
    (hc : c.NoTx) (ht : restrict (Step g answers) (Recorded M) c w r w') (h : w.Recovering g M L) :
    w'.Recovering g M L := by
  refine ⟨h.1.step hkind ht, ?_⟩
  cases c with
  | store k =>
    obtain ⟨⟨-, rfl⟩, -⟩ := ht
    exact Store.exec_lineage (K := fun L' => L.Extends L') (fun p L' hL => hL.commitNode)
      (fun ids L' hL => ⟨hL.nodes, hL.edges⟩) k w.db h.2
  | ext e =>
    obtain ⟨⟨-, rfl⟩, -⟩ := ht
    exact h.2
  | getAdapterKey =>
    obtain ⟨⟨-, rfl⟩, -⟩ := ht
    exact h.2
  | setAdapterKey key =>
    obtain ⟨⟨-, rfl⟩, -⟩ := ht
    exact h.2
  | sync k =>
    obtain ⟨⟨-, rfl⟩, -⟩ := ht
    cases k with
    | begin => exact absurd hc id
    | commit => exact absurd hc id
    | rollback => exact absurd hc id
    | _ => exact h.2

/-- A part of the recovery that asks the adapter nothing. -/
theorem keeps_inner {α : Type} {x : Handler α} (hx : x.Uses Call.Inner) :
    Keeps (restrict (Step g answers) (Recorded M)) (SendsFrontier g.settings.maxTraversalDepth M)
      (World.Recovering g M L) x fun _ => True := by
  intro w hw
  refine (Prog.Uses.sat (I := World.Recovering g M L) hx ?_ hw).mono ?_
  · rintro c ⟨hsilent, htx⟩ w₁ r w₂ ht h₁
    have hkind : c.kind ≠ .reopen := fun hk => hsilent (by simp [hk])
    exact ⟨(derived_of_silent hsilent ht h₁.1).1, h₁.step hkind htx ht⟩
  · rintro (e | a) w' h'
    · exact h'
    · exact ⟨h', trivial⟩

/-- **What the cached graph says of a record.**  The compaction is the one the record was made for,
so the covers that are sent are the covers the frontier comes from. -/
theorem frontierFrom_of_cached {D : Int} {row : NodeId × RepairCandidate}
    (hrow : L.Explains D M row) (hp : row.2.disposition = .pendingReconstruction)
    {c : List (NodeId × Payload) × List NodeId} (hc : L.Caches c) {node : NodeId × Payload}
    (hnode : Keyed.lookup Prod.fst c.1 row.1 = some node) :
    ∃ root L', M root L' ∧ FrontierFrom D root L' node.2.covers row.2.frontier := by
  obtain ⟨n, hn, hid, hfrom⟩ := hrow hp
  obtain ⟨L', hext, hwf, hdag⟩ := hc
  obtain ⟨hmem, hkey⟩ := Keyed.lookup_mem hnode
  rw [hdag, List.mem_map] at hmem
  obtain ⟨m, hm, rfl⟩ := hmem
  have hmn : m = n := hext.unique hwf.nodup hn hm (hkey.trans hid.symm)
  rw [hmn]
  exact hfrom

/-- The graph is read, or it was. -/
theorem keeps_cached {cache : Option (List (NodeId × Payload) × List NodeId)}
    (hcache : ∀ c, cache = some c → L.Caches c) :
    Keeps (restrict (Step g answers) (Recorded M)) (SendsFrontier g.settings.maxTraversalDepth M)
      (World.Recovering g M L) (cached cache) fun r => ∀ c, r = .ok c → L.Caches c := by
  have hA : Call.Of Call.Inner [.read] := Call.of_inner rfl rfl
  cases cache with
  | some c => exact Keeps.pure fun c' hc' => Except.ok.inj hc' ▸ hcache c rfl
  | none =>
    refine Keeps.attempt (Keeps.bind (R := fun dag => ∀ ledger, L.Caches (dag, ledger)) ?_
      fun dag hdag => ?_)
    · refine Keeps.call fun w₁ r w₂ h₁ ht => ?_
      have hkind : Call.kind (.store .getDag) ≠ .reopen := by decide
      refine ⟨trivial, h₁.step hkind trivial ht, ?_⟩
      obtain ⟨⟨rfl, rfl⟩, -⟩ := ht
      intro dag hread ledger
      obtain rfl := Except.ok.inj hread
      exact ⟨w₁.lin, h₁.2, h₁.1.1.1, rfl⟩
    · exact Keeps.seq (keeps_inner (uses_store hA rfl)) fun ledger => Keeps.pure (hdag ledger)

/-- The candidate of a pending record: what is sent for it comes from one of the traversals. -/
theorem keeps_reconstructPending_sends (root : NodeId) {row : NodeId × RepairCandidate}
    (hrow : L.Explains g.settings.maxTraversalDepth M row)
    (hp : row.2.disposition = .pendingReconstruction)
    {c : List (NodeId × Payload) × List NodeId} (hc : L.Caches c) :
    Keeps (restrict (Step g answers) (Recorded M)) (SendsFrontier g.settings.maxTraversalDepth M)
      (World.Recovering g M L) (reconstructPending g root row.1 row.2 c) fun _ => True := by
  unfold reconstructPending
  split
  · exact Keeps.raise _
  · rename_i node hnode
    have hA : Call.Of Call.Inner [.ext, .setKey] := Call.of_inner rfl rfl
    refine Keeps.seq ?_ fun candidate =>
      keeps_inner (uses_gate g (Call.of_inner rfl rfl) row.1 row.2 candidate)
    unfold reconstructionCandidate
    split
    · refine Keeps.call fun w₁ r w₂ h₁ ht => ⟨frontierFrom_of_cached hrow hp hc hnode, ?_⟩
      obtain ⟨⟨-, rfl⟩, -⟩ := ht
      exact ⟨h₁, fun _ _ => trivial⟩
    · refine Keeps.seq (keeps_inner ?_) fun _ => Keeps.pure trivial
      exact Act.uses_bind (uses_ext hA _ rfl) fun key => Act.uses_bind (uses_ext hA _ rfl) fun _ =>
        Act.uses_bind (uses_ext hA _ rfl) fun _ =>
          Act.uses_bind (uses_setAdapterKey (hA.sub rfl) key) fun _ => Act.uses_pure _

/-- One round of the loop. -/
theorem keeps_reconstructOne_sends (root : NodeId) {row : NodeId × RepairCandidate}
    (hrow : L.Explains g.settings.maxTraversalDepth M row)
    {cache : Option (List (NodeId × Payload) × List NodeId)}
    (hcache : ∀ c, cache = some c → L.Caches c) :
    Keeps (restrict (Step g answers) (Recorded M)) (SendsFrontier g.settings.maxTraversalDepth M)
      (World.Recovering g M L) (reconstructOne g root cache row)
      fun cache' => ∀ c, cache' = some c → L.Caches c := by
  have hassign : Call.Of Call.Inner [.assign] := Call.of_inner rfl rfl
  have hfailure : ∀ e, Keeps (restrict (Step g answers) (Recorded M))
      (SendsFrontier g.settings.maxTraversalDepth M) (World.Recovering g M L)
      (assignFailure row.1 row.2 e) fun _ => True :=
    fun e => keeps_inner (uses_store hassign rfl)
  refine Keeps.ite (fun _ => Keeps.pure hcache) fun hp => ?_
  rw [ne_eq, not_not] at hp
  refine Keeps.bind (keeps_cached hcache) fun read hread => ?_
  cases read with
  | error e => exact Keeps.seq (hfailure e) fun _ => Keeps.pure fun c hc => absurd hc (by simp)
  | ok c =>
    have hc : L.Caches c := hread c rfl
    have hcached : ∀ c', some c = some c' → L.Caches c' := fun c' hc' => Option.some.inj hc' ▸ hc
    refine Keeps.seq ((keeps_reconstructPending_sends root hrow hp hc).attempt.mono
      fun _ _ => trivial) fun r => ?_
    cases r with
    | error e => exact Keeps.seq (hfailure e) fun _ => Keeps.pure hcached
    | ok u => exact Keeps.pure hcached

end Recovery

/-- **One recovery** sends frontiers of the traversals only. -/
theorem sends_attemptReconstruction (root : NodeId) :
    Keeps (restrict (Step g answers) (Recorded M)) (SendsFrontier g.settings.maxTraversalDepth M)
      (fun w => w.Derived g M) (attemptReconstruction g root) fun _ => True := by
  intro w hw
  rw [attemptReconstruction, Act.sat_bind]
  rintro r w₁ ⟨⟨rfl, rfl⟩, -⟩
  refine ⟨trivial, ?_⟩
  have hstart : w.Recovering g M w.lin := ⟨hw, Lineage.Extends.refl _⟩
  have hloop : Keeps (restrict (Step g answers) (Recorded M))
      (SendsFrontier g.settings.maxTraversalDepth M) (World.Recovering g M w.lin)
      (Act.fold (reconstructOne g root) w.db.repairCandidates none >>= fun _ => pure ())
      fun _ => True := by
    refine Keeps.bind (R := fun cache => ∀ c, cache = some c → w.lin.Caches c)
      (Keeps.fold _ (fun row hrow cache hcache => ?_) (by simp)) fun _ _ => Keeps.pure trivial
    exact keeps_reconstructOne_sends root (hw.1.2 row hrow) hcache
  refine (hloop _ hstart).mono ?_
  rintro (e | a) w' h'
  · exact h'.1
  · exact ⟨h'.1.1, trivial⟩

/-! ## 4. Runs -/

/-- The run has a traversal from `root`, made in the lineage `L`. -/
def Traversed (hs : List Handled) (root : NodeId) (L : Lineage) : Prop :=
  ∃ k ∈ hs, ∃ e ∈ k.trace, e.call = .store (.computeBlastRadius root) ∧ e.before.lin = L

/-- `restrict` to the run's own traversals is no restriction. -/
theorem recorded_traversed {hs : List Handled} {k : Handled} (hk : k ∈ hs)
    {e : Event Call Call.Res Exc World} (he : e ∈ k.trace) :
    Recorded (Traversed hs) e.call e.before e.answer e.after := by
  obtain ⟨c, w, r, w'⟩ := e
  cases c with
  | store c =>
    cases c with
    | computeBlastRadius root => exact ⟨k, hk, _, he, rfl, rfl⟩
    | _ => trivial
  | _ => trivial

/-- No request opens a decided candidate again. -/
theorem Request.keeps_closed (req : Request) : CallKind.reopen ∉ req.kinds := by
  cases req <;> exact of_decide_eq_true rfl

/-- Right after `reset` there are no records. -/
theorem World.derived_initial (db : Db) (adapterKey : Option String) :
    (World.initial g db adapterKey).Derived g M := by
  refine World.both_of_saved rfl ⟨(Lineage.wf_reset g.env.sha256 db).1, fun row hrow => ?_⟩
  exact absurd hrow List.not_mem_nil

/-- A run sends frontiers of its traversals only. -/
theorem sends_of_run {hs : List Handled} {db : Db} {adapterKey : Option String} {w : World}
    (hrun : Run g (Step g answers) (World.initial g db adapterKey) hs w) :
    ∀ k ∈ hs, ∀ e ∈ k.trace, SendsFrontier g.settings.maxTraversalDepth (Traversed hs)
      e.call e.before e.answer e.after := by
  have hrecovers : Recovers g (restrict (Step g answers) (Recorded (Traversed hs)))
      (SendsFrontier g.settings.maxTraversalDepth (Traversed hs))
      (fun w => w.Derived g (Traversed hs)) := by
    refine ⟨fun hx w hw => ?_, sends_attemptReconstruction⟩
    refine (Prog.Uses.sat (I := fun w => w.Derived g (Traversed hs)) hx
      (fun c hc w₁ r w₂ ht h₁ => derived_of_silent hc.silent ht h₁) hw).mono ?_
    rintro (e | a) w' h'
    · exact h'
    · exact ⟨h', trivial⟩
  refine fun k hk => ((hrun.restrict fun k hk e he => recorded_traversed hk he).invariant
    (fun req w hw => ?_) (World.derived_initial (M := Traversed hs) db adapterKey)).2 k hk |>.2
  refine (hrecovers.handle req w hw).mono ?_
  rintro (e | a) w' h'
  · exact h'
  · exact h'.1

/-- **The two frontiers.**  The frontier that is sent for a compaction is that of one of the
traversals of the run, and the adapter derives the same one if and only if, of the ids the
compaction covers, just those lie within the depth bound of that traversal's root, by parent and
covers edges of the lineage it was made in, that descend from the root of the incident by declared
parents of the graph that is sent. -/
theorem frontiers_agree_iff {hs : List Handled} {db : Db} {adapterKey : Option String} {w : World}
    (hrun : Run g (Step g answers) (World.initial g db adapterKey) hs w) {k : Handled} (hk : k ∈ hs)
    {e : Event Call Call.Res Exc World} (he : e ∈ k.trace) {req : AdapterRequest}
    (hreq : e.call = .ext (.reconstruct req)) :
    (∃ root L, Traversed hs root L ∧ FrontierFrom g.settings.maxTraversalDepth root L
      req.compactionCovers req.requestedFrontier) ∧
    ∀ root L, Traversed hs root L → FrontierFrom g.settings.maxTraversalDepth root L
        req.compactionCovers req.requestedFrontier →
      (Adapter.computedFrontier req = Adapter.requestedFrontier req ↔
        ∀ x ∈ req.compactionCovers,
          (Reach.Within L.Edge g.settings.maxTraversalDepth.toNat root x ↔
            Relation.ReflTransGen (Adapter.Parent req.graphSnapshot) req.poisonedRootId x)) := by
  constructor
  · have hsends := sends_of_run hrun k hk e he
    obtain ⟨c, w₁, r, w₂⟩ := e
    obtain rfl : c = .ext (.reconstruct req) := hreq
    exact hsends
  · rintro root L - ⟨hwf, hfrontier⟩
    rw [Adapter.computedFrontier_eq_iff hfrontier]
    refine forall₂_congr fun x _ => ?_
    rw [Lineage.mem_traverse hwf, Adapter.mem_computeBlastRadius]

/-! ## 5. A frontier the adapter refuses -/

/-- The gateway with a recovery adapter. -/
def openAdapterSetup : Setup :=
  { openSetup with
    settings := { openSetup.settings with
      recoveryAdapterUrl := some "http://recovery_adapter:8002/reconstruct" } }

/-- A compaction that covers a node it does not name as a parent. -/
def openCover (id : NodeId) (parents covers : List NodeId) : Request :=
  .submitCandidate 512 (.payload
    { openPayload "agent" id parents with nodeType := some .compaction, covers := covers })

/-- A summary of such a compaction; what it covers is poisoned later. -/
def coverRequests : List Request :=
  [openSubmission "node-1" ["clean-parent-1"], openCover "cover-1" ["clean-parent-1"] ["node-1"],
    openSummary "summary-1" ["clean-parent-1", "cover-1"], openCheckpoint "clean-parent-1"]

/-- Whether the call is no request to the adapter, or one on which the frontiers agree, or
differ. -/
def frontierCheck (agree : Bool) : Call → World → Bool
  | .ext (.reconstruct req), _ =>
    decide (Adapter.computedFrontier req = Adapter.requestedFrontier req) == agree
  | _, _ => true

theorem frontierCheck_eq_false {agree : Bool} {c : Call} {w : World}
    (h : frontierCheck agree c w = false) : ∃ req, c = .ext (.reconstruct req) ∧
      (Adapter.computedFrontier req = Adapter.requestedFrontier req ↔ agree = false) := by
  cases c with
  | ext e =>
    cases e with
    | reconstruct req =>
      refine ⟨req, rfl, ?_⟩
      cases agree <;> simpa [frontierCheck] using h
    | _ => exact absurd h (by simp [frontierCheck])
  | _ => exact absurd h (by simp [frontierCheck])

/-- A summary of a summary, both by declared parents: the frontiers agree. -/
theorem frontiers_agree_rebuild : ∃ hs w,
    Run openAdapterSetup (Step openAdapterSetup Answers.lawful)
      (World.initial openAdapterSetup {} none) hs w ∧
      ∃ k ∈ hs, ∃ e ∈ k.trace, ∃ req, e.call = .ext (.reconstruct req) ∧
        ∃ root L, Traversed hs root L ∧ ∀ x ∈ req.compactionCovers,
          (Reach.Within L.Edge 8 root x ↔
            Relation.ReflTransGen (Adapter.Parent req.graphSnapshot) req.poisonedRootId x) := by
  obtain ⟨hs, k, hrun, -, -, e, he, hfail, -⟩ :=
    Script.exists_failing_run openAdapterSetup (frontierCheck false)
      (openRun (rebuildRequests.take 3)) (openScript "3") (openReport "summary-0")
      (World.initial openAdapterSetup {} none) (by decide +kernel)
  obtain ⟨req, hreq, hagree⟩ := frontierCheck_eq_false hfail
  have hk : k ∈ hs ++ [k] := List.mem_append_right _ List.mem_cons_self
  obtain ⟨⟨root, L, htraversed, hfrom⟩, hiff⟩ := frontiers_agree_iff hrun hk he hreq
  exact ⟨hs ++ [k], _, hrun, k, hk, e, he, req, hreq, root, L, htraversed,
    (hiff root L htraversed hfrom).mp (hagree.mpr rfl)⟩

/-- **A frontier the adapter refuses.**  The report of the covered node reaches the compaction by a
covers edge, so the gateway leaves it out of the frontier of its summary; the adapter does not. -/
theorem frontiers_agree_covers : ¬ ∀ hs w,
    Run openAdapterSetup (Step openAdapterSetup Answers.lawful)
      (World.initial openAdapterSetup {} none) hs w →
      ∀ k ∈ hs, ∀ e ∈ k.trace, ∀ req, e.call = .ext (.reconstruct req) →
        Adapter.computedFrontier req = Adapter.requestedFrontier req := by
  intro hall
  obtain ⟨hs, k, hrun, -, -, e, he, hfail, -⟩ :=
    Script.exists_failing_run openAdapterSetup (frontierCheck true)
      (openRun coverRequests) (openScript "4") (openReport "node-1")
      (World.initial openAdapterSetup {} none) (by decide +kernel)
  obtain ⟨req, hreq, hdiffer⟩ := frontierCheck_eq_false hfail
  have hagree := hall _ _ hrun k (List.mem_append_right _ List.mem_cons_self) e he req hreq
  exact absurd (hdiffer.mp hagree) (by simp)

end GovernorGateway
