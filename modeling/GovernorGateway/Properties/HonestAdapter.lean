/-
# A gateway with an honest adapter

`_attempt_reconstruction` (`src/governor_service.py`) and `/reconstruct` (`src/recovery_adapter.py`)
are two programs that check one another.  The adapter derives the frontier again and refuses what it
would not have asked for; the gateway verifies the signature, the key and the frontier of what it is
sent.

With an adapter that answers, and whose key is the configured one, NONE of the checks of the gateway
ever fires: of the ten ways a round can end two are left.  Which of the two is decided by the graph
alone (`honest_adapter_settles`): the compaction is rebuilt exactly when its frontier is what it
covers and what does not descend, by declared parents, from the root of the incident.

This is about the recoveries of `/detector`, which begin after it has left the admission lock.
Those of `/designate` commit under the shared side INSIDE the exclusive one and never come to an end
when there is something to commit (`Properties/Deadlock.lean`).
-/
import GovernorGateway.Properties.Pending
import GovernorGateway.Properties.Frontiers
import GovernorGateway.Properties.Finality

namespace GovernorGateway

open Effects

/-! ## 1. The adapter -/

namespace Adapter

/-- The signing key the adapter made when it was started: its signatures verify. -/
structure Keys (env : Env) where
  key : String
  sign : String → String
  key_ne : key ≠ ""
  sign_ne : ∀ m, sign m ≠ ""
  verifies : ∀ m, env.ecdsaVerify key (sign m) m = true

/-- Whoever is asked at the adapter's address is the adapter: its candidate, or no 200. -/
def Keys.Honest {env : Env} (k : Keys env) (answers : Answers) : Prop :=
  ∀ req r, answers (.reconstruct req) r → ∃ uuid text,
    r = .ok (reconstruct env k.key uuid text k.sign req).toOption

variable {env : Env} {req : AdapterRequest} (k : Keys env) (uuid text : String)

/-- The request is refused. -/
theorem reconstruct_refused (h : computedFrontier req ≠ requestedFrontier req) :
    (reconstruct env k.key uuid text k.sign req).toOption = none := by
  rw [reconstruct, if_pos h]
  rfl

/-- **The candidate passes the checks**: its signature, its identity, its frontier. -/
theorem reconstruct_passes (h : computedFrontier req = requestedFrontier req) :
    ∃ c, (reconstruct env k.key uuid text k.sign req).toOption = some c ∧
      verifyCryptographicSignature env c = true ∧ c.identityId = some k.key ∧
      ∀ x, x ∈ c.covers ↔ x ∈ req.requestedFrontier := by
  rw [reconstruct, if_neg (not_not.mpr h)]
  refine ⟨_, rfl, ?_, rfl, fun x => ?_⟩
  · simp [verifyCryptographicSignature, Payload.identityId, contentHash, k.sign_ne, k.verifies]
  · change x ∈ computedFrontier req ↔ _
    rw [h, requestedFrontier, List.mem_insertionSort]

end Adapter

/-- The declared parents of the graph, at any depth. -/
def Db.Descends (db : Db) : NodeId → NodeId → Prop :=
  Relation.ReflTransGen (Adapter.Parent (dagProjection db.getDag))

/-- The frontier of the record is what the adapter derives. -/
def RepairCandidate.Derivable (rc : RepairCandidate) (db : Db) (root : NodeId)
    (covers : List NodeId) : Prop :=
  ∀ y ∈ covers, y ∈ rc.frontier ↔ ¬ db.Descends root y

variable {g : Setup} {answers : Answers} {α β : Type}

/-! ## 2. Parts of a round that store no record -/

/-- A world of the round: the records, nodes that are stored, and the key. -/
structure Still (key : String) (rcs : List (NodeId × RepairCandidate)) (ids : List NodeId) (w : World) :
    Prop where
  rows : w.db.repairCandidates = rcs
  kept : ∀ x ∈ ids, x ∈ w.db.nodeIds
  key : w.adapterKey = some key

variable {key : String} {rcs : List (NodeId × RepairCandidate)} {ids : List NodeId} {w w' : World}

/-- The part of a round returns, and keeps the world as far as the round goes. -/
def Calm (g : Setup) (answers : Answers) (key : String) (x : Handler α) : Prop :=
  ∀ rcs ids w, Still key rcs ids w →
    Act.Sat (restrict (Step g answers) Trans.any) Trans.any x
      (onOk (fun _ => Still key rcs ids) fun _ _ => False) w

/-- A call that stores no record and answers. -/
theorem calm_call {c : Call} (hc : c.Spares)
    (hanswer : ∀ w r w', Step g answers c w r w' → (∃ v, r = .ok v) ∧ w'.adapterKey = w.adapterKey) :
    Calm g answers key (Act.perform c : Handler c.Res) := by
  rintro rcs ids w h r w' ⟨hstep, -⟩
  refine ⟨trivial, ?_⟩
  obtain ⟨⟨v, rfl⟩, hkey⟩ := hanswer w r w' hstep
  obtain ⟨hrows, hkept⟩ := spares_step hc (Or.inl hstep)
  exact ⟨hrows.trans h.rows, fun x hx => hkept x (h.kept x hx), hkey.trans h.key⟩

theorem Calm.bind {x : Handler α} {f : α → Handler β} (hx : Calm g answers key x)
    (hf : ∀ a, Calm g answers key (f a)) : Calm g answers key (x >>= f) := fun rcs ids w h =>
  Act.sat_seq (hx rcs ids w h) (fun a w' h' => hf a rcs ids w' h') fun _ _ hfalse => hfalse.elim

theorem calm_pure (a : α) : Calm g answers key (pure a : Handler α) := fun _ _ _ h => h

/-- A store function that always answers. -/
theorem calm_store {c : Store} (hc : (Call.store c).Spares) (hanswer : ∀ db, ∃ v, (c.exec g db).1 = .ok v) :
    Calm g answers key (store c) := by
  refine calm_call hc ?_
  rintro w r w' ⟨rfl, rfl⟩
  exact ⟨hanswer w.db, rfl⟩

theorem calm_now (hlaw : answers.Lawful) (use : ClockUse) : Calm g answers key (ext (.now use)) := by
  refine calm_call (c := .ext (.now use)) trivial ?_
  rintro w r w' ⟨hanswer, rfl⟩
  exact ⟨hlaw _ _ hanswer, rfl⟩

theorem calm_stampNow (hlaw : answers.Lawful) : Calm g answers key stampNow :=
  (calm_now hlaw _).bind fun _ => calm_pure _

theorem calm_gateEvidence (hlaw : answers.Lawful) : Calm g answers key gateEvidence :=
  (calm_stampNow hlaw).bind fun _ => (calm_stampNow hlaw).bind fun _ => (calm_stampNow hlaw).bind fun _ =>
    (calm_stampNow hlaw).bind fun _ => calm_pure _

/-- The commit of the candidate: its node is stored afterwards. -/
theorem sat_commitShared_still {p : Payload} (site : CommitSite) (h : Still key rcs ids w) :
    Act.Sat (restrict (Step g answers) Trans.any) Trans.any (commitShared site p)
      (onOk (fun _ => Still key rcs (p.payloadId :: ids)) fun _ _ => False) w := by
  rw [commitShared]
  refine sat_withShared (fun _ _ _ _ => trivial) ?_
  rw [Act.sat_bind]
  rintro r w' ⟨⟨rfl, rfl⟩, -⟩
  refine ⟨trivial, h.rows, fun x hx => Lineage.mem_nodeIds_commitNode.mpr ?_, h.key⟩
  rcases List.mem_cons.mp hx with rfl | hx
  · exact Or.inr rfl
  · exact Or.inl (h.kept x hx)

/-! ## 3. The round of one pending candidate -/

/-- The record `rc'` is what became of `rc`: rebuilt if its frontier can be derived, else given
up. -/
structure Resolved (db₀ : Db) (root : NodeId) (covers : List NodeId) (rc rc' : RepairCandidate) (db : Db) :
    Prop where
  rebuilt : rc.Derivable db₀ root covers → ∃ y ∈ db.nodeIds,
    rc' = { rc with disposition := .reducible, reconstructedNodeId := some y }
  refused : ¬ rc.Derivable db₀ root covers →
    rc' = { rc with disposition := .irreducible, reason := some "backend_unavailable" }

theorem Resolved.mono {db₀ db db' : Db} {root : NodeId} {covers : List NodeId} {rc rc' : RepairCandidate}
    (h : Resolved db₀ root covers rc rc' db) (hkept : ∀ x ∈ db.nodeIds, x ∈ db'.nodeIds) :
    Resolved db₀ root covers rc rc' db' := by
  refine ⟨fun hd => ?_, h.refused⟩
  obtain ⟨y, hy, hrc⟩ := h.rebuilt hd
  exact ⟨y, hkept y hy, hrc⟩

variable {x : NodeId} {rc : RepairCandidate}

/-- The call that stores the record. -/
theorem sat_update_still {rc' : RepairCandidate} (h : Still key rcs ids w) {Q : World → Prop}
    (hQ : ∀ w', Still key (Keyed.insertOrReplace Prod.fst rcs (x, rc')) ids w' → Q w') :
    Act.Sat (restrict (Step g answers) Trans.any) Trans.any (store (.updateRepairCandidate x rc'))
      (onOk (fun _ => Q) fun _ _ => False) w := by
  rintro r w' ⟨⟨rfl, rfl⟩, -⟩
  refine ⟨trivial, hQ _ ⟨?_, h.kept, h.key⟩⟩
  rw [← h.rows]
  rfl

/-- **The reintegration** of a candidate: its node is stored, then the record. -/
theorem sat_reintegrate_still (hlaw : answers.Lawful) {c : Payload} (h : Still key rcs ids w) :
    Act.Sat (restrict (Step g answers) Trans.any) Trans.any (reintegrate g x rc c)
      (onOk (fun _ w' => Still key (Keyed.insertOrReplace Prod.fst rcs
          (x, { rc with disposition := .reducible, reconstructedNodeId := some c.payloadId }))
        (c.payloadId :: ids) w') fun _ _ => False) w := by
  rw [reintegrate]
  refine Act.sat_seq (calm_gateEvidence hlaw rcs ids w h) (fun evidence w₁ h₁ => ?_) fun _ _ h' => h'.elim
  refine Act.sat_seq (calm_store (by trivial) (fun _ => ⟨_, rfl⟩) rcs ids w₁ h₁) (fun pre w₂ h₂ => ?_)
    fun _ _ h' => h'.elim
  refine Act.sat_seq (sat_commitShared_still .reconstruction h₂) (fun _ w₃ h₃ => ?_) fun _ _ h' => h'.elim
  refine Act.sat_seq (calm_store (by trivial) (fun _ => ⟨_, rfl⟩) rcs _ w₃ h₃) (fun post w₄ h₄ => ?_)
    fun _ _ h' => h'.elim
  refine Act.sat_seq (calm_now hlaw _ rcs _ w₄ h₄) (fun t w₅ h₅ => ?_) fun _ _ h' => h'.elim
  refine Act.sat_seq (calm_store (by trivial) (fun _ => ⟨_, rfl⟩) rcs _ w₅ h₅) (fun _ w₆ h₆ => ?_)
    fun _ _ h' => h'.elim
  refine Act.sat_seq (calm_stampNow hlaw rcs _ w₆ h₆) (fun recorded w₇ h₇ => ?_) fun _ _ h' => h'.elim
  refine Act.sat_seq (calm_store (by trivial) (fun _ => ⟨_, rfl⟩) rcs _ w₇ h₇) (fun _ w₈ h₈ => ?_)
    fun _ _ h' => h'.elim
  exact sat_update_still h₈ fun _ h₉ => h₉

/-- What a round has done when it is over. -/
def Done (db₀ : Db) (root : NodeId) (covers : List NodeId) (key : String)
    (rcs : List (NodeId × RepairCandidate)) (ids : List NodeId) (x : NodeId) (rc : RepairCandidate)
    (w : World) : Prop :=
  ∃ rc', Resolved db₀ root covers rc rc' w.db ∧
    Still key (Keyed.insertOrReplace Prod.fst rcs (x, rc')) ids w

variable {db₀ : Db} {root : NodeId} {covers : List NodeId} {req : AdapterRequest}

/-- The request that is sent for a record: the adapter derives the same frontier just when the
record is derivable. -/
theorem derivable_iff_frontiers {ball : List NodeId} (hdag : req.graphSnapshot = dagProjection db₀.getDag)
    (hroot : req.poisonedRootId = root) (hfrontier : req.requestedFrontier = rc.frontier)
    (hball : rc.frontier = req.compactionCovers.filter (· ∉ ball)) :
    rc.Derivable db₀ root req.compactionCovers ↔
      Adapter.computedFrontier req = Adapter.requestedFrontier req := by
  rw [Adapter.computedFrontier_eq_iff (hfrontier.trans hball), RepairCandidate.Derivable]
  refine forall₂_congr fun y hy => ?_
  rw [Adapter.mem_computeBlastRadius, hdag, hroot, Db.Descends, hball, List.mem_filter]
  simp only [hy, true_and, decide_eq_true_eq]
  exact not_iff_not

/-- **The checks of the gate** on the answer of an honest adapter. -/
theorem sat_gate_honest (hlaw : answers.Lawful) {k : Adapter.Keys g.env} {uuid text : String}
    {ball : List NodeId}
    (hdag : req.graphSnapshot = dagProjection db₀.getDag) (hroot : req.poisonedRootId = root)
    (hfrontier : req.requestedFrontier = rc.frontier)
    (hball : rc.frontier = req.compactionCovers.filter (· ∉ ball)) (h : Still k.key rcs ids w) :
    Act.Sat (restrict (Step g answers) Trans.any) Trans.any
      (gate g x rc (Adapter.reconstruct g.env k.key uuid text k.sign req).toOption)
      (onOk (fun _ => Done db₀ root req.compactionCovers k.key rcs ids x rc) fun _ _ => False) w := by
  have hiff := derivable_iff_frontiers hdag hroot hfrontier hball
  by_cases heq : Adapter.computedFrontier req = Adapter.requestedFrontier req
  · obtain ⟨c, hc, hsignature, hidentity, hcovers⟩ :=
      Adapter.reconstruct_passes k uuid text heq
    have hkey : ¬ (k.key = "" ∨ c.identityId ≠ some k.key) := by
      rintro (hempty | hother)
      · exact k.key_ne hempty
      · exact hother hidentity
    have hsame : ¬ (¬ (∀ y ∈ c.covers, y ∈ rc.frontier) ∨ ¬ ∀ y ∈ rc.frontier, y ∈ c.covers) := by
      rw [hfrontier] at hcovers
      rintro (hnot | hnot)
      · exact hnot fun y hy => (hcovers y).mp hy
      · exact hnot fun y hy => (hcovers y).mpr hy
    rw [hc, gate, hsignature, Bool.not_true, if_neg Bool.false_ne_true, Act.sat_bind]
    rintro r w₁ ⟨⟨rfl, rfl⟩, -⟩
    refine ⟨trivial, ?_⟩
    rw [h.key]
    change Act.Sat _ _ (if k.key = "" ∨ c.identityId ≠ some k.key then _ else _) _ _
    rw [if_neg hkey, if_neg hsame]
    refine (sat_reintegrate_still hlaw h).mono ?_
    rintro (e | _) w₂ h₂
    · exact h₂
    · refine ⟨_, ⟨fun _ => ⟨c.payloadId, h₂.kept _ List.mem_cons_self, rfl⟩, fun hnot => ?_⟩,
        h₂.rows, fun y hy => h₂.kept y (List.mem_cons_of_mem _ hy), h₂.key⟩
      exact absurd (hiff.mpr heq) hnot
  · rw [Adapter.reconstruct_refused k uuid text heq, gate, giveUp]
    refine sat_update_still h fun w' h' => ⟨_, ⟨fun hd => ?_, fun _ => rfl⟩, h'⟩
    exact absurd (hiff.mp hd) heq

/-- **The body of the `try`.** -/
theorem sat_reconstructPending_honest (hlaw : answers.Lawful) (hadapter : g.settings.hasAdapter = true)
    {k : Adapter.Keys g.env} (hhonest : k.Honest answers) {n : NodeRow} {ball : List NodeId}
    {cache : List (NodeId × Payload) × List NodeId} (hcache : cache.1 = db₀.getDag)
    (hnode : Keyed.lookup Prod.fst db₀.getDag x = some (n.nodeId, n.payload))
    (hball : rc.frontier = n.payload.covers.filter (· ∉ ball)) (h : Still k.key rcs ids w) :
    Act.Sat (restrict (Step g answers) Trans.any) Trans.any (reconstructPending g root x rc cache)
      (onOk (fun _ => Done db₀ root n.payload.covers k.key rcs ids x rc) fun _ _ => False) w := by
  rw [reconstructPending, hcache, hnode]
  change Act.Sat _ _ (reconstructionCandidate g root rc db₀.getDag cache.2 n.payload.covers >>= _) _ _
  rw [reconstructionCandidate, if_pos hadapter, Act.sat_bind]
  rintro r w₁ ⟨⟨hanswer, rfl⟩, -⟩
  refine ⟨trivial, ?_⟩
  obtain ⟨uuid, text, rfl⟩ := hhonest _ _ hanswer
  exact sat_gate_honest hlaw rfl rfl rfl hball h

/-! ## 4. The loop -/

/-- A record that is pending has its node in the graph, and a frontier that was cut out of its
covers. -/
def Db.Cut (db : Db) : Prop :=
  ∀ row ∈ db.repairCandidates, Pending row → ∃ n ∈ db.nodes, n.nodeId = row.1 ∧
    ∃ ball : List NodeId, row.2.frontier = n.payload.covers.filter (· ∉ ball)

/-- **The invariant of the loop**, after the rounds of `pre`. -/
structure Settling (db₀ : Db) (root : NodeId) (key : String) (pre : List (NodeId × RepairCandidate))
    (cache : Option (List (NodeId × Payload) × List NodeId)) (w : World) : Prop where
  cache : CacheOf db₀ w.db cache
  key : w.adapterKey = some key
  kept : ∀ x ∈ db₀.nodeIds, x ∈ w.db.nodeIds
  keys : ∀ x, x ∈ w.db.repairCandidates.map Prod.fst ↔ x ∈ db₀.repairCandidates.map Prod.fst
  nodup : (w.db.repairCandidates.map Prod.fst).Nodup
  /-- The candidates ahead, and those that were decided before, are as they were. -/
  ahead : ∀ row ∈ db₀.repairCandidates, row ∉ pre ∨ ¬ Pending row → row ∈ w.db.repairCandidates
  settled : ∀ row ∈ pre, Pending row → ∃ n ∈ db₀.nodes, n.nodeId = row.1 ∧ ∃ rc',
    (row.1, rc') ∈ w.db.repairCandidates ∧ Resolved db₀ root n.payload.covers row.2 rc' w.db

variable {pre post : List (NodeId × RepairCandidate)} {row : NodeId × RepairCandidate}
  {cache : Option (List (NodeId × Payload) × List NodeId)}

/-- A round that has nothing to do. -/
theorem Settling.skip (h : Settling db₀ root key pre cache w) (hp : ¬ Pending row) :
    Settling db₀ root key (pre ++ [row]) cache w where
  cache := h.cache
  key := h.key
  kept := h.kept
  keys := h.keys
  nodup := h.nodup
  ahead := by
    intro r hr hcase
    refine h.ahead r hr (hcase.imp_left fun hnot hm => hnot (List.mem_append_left _ hm))
  settled := by
    intro r hr hpr
    rcases List.mem_append.mp hr with hr | hr
    · exact h.settled r hr hpr
    · obtain rfl := List.mem_singleton.mp hr
      exact absurd hpr hp

/-- A round that is done. -/
theorem Settling.done (h : Settling db₀ root key pre cache w)
    (hkeys : (db₀.repairCandidates.map Prod.fst).Nodup) (hsplit : pre ++ row :: post = db₀.repairCandidates)
    (hp : Pending row) {n : NodeRow} (hn : n ∈ db₀.nodes) (hid : n.nodeId = row.1)
    {c : List (NodeId × Payload) × List NodeId} (hc : c.1 = db₀.getDag)
    (hdone : Done db₀ root n.payload.covers key w.db.repairCandidates w.db.nodeIds row.1 row.2 w') :
    Settling db₀ root key (pre ++ [row]) (some c) w' := by
  obtain ⟨rc', hsettled, hstill⟩ := hdone
  have hmem : ∀ r, r ∈ w'.db.repairCandidates ↔
      (r ∈ w.db.repairCandidates ∧ r.1 ≠ row.1) ∨ r = (row.1, rc') := by
    intro r
    rw [hstill.rows, Keyed.mem_insertOrReplace]
  have hrow : row ∈ db₀.repairCandidates := by
    rw [← hsplit]
    exact List.mem_append_right _ List.mem_cons_self
  have hpre : ∀ r ∈ pre, r.1 ≠ row.1 := by
    intro r hr heq
    rw [← hsplit, List.map_append, List.map_cons, List.nodup_append] at hkeys
    exact hkeys.2.2 r.1 (List.mem_map_of_mem hr) row.1 List.mem_cons_self heq
  refine ⟨hc, hstill.key, fun x hx => hstill.kept x (h.kept x hx), fun x => ?_, ?_, ?_, ?_⟩
  · rw [hstill.rows, Keyed.mem_keys_insertOrReplace, h.keys]
    refine or_iff_left_of_imp ?_
    rintro rfl
    exact List.mem_map.mpr ⟨row, hrow, rfl⟩
  · rw [hstill.rows]
    exact Keyed.nodup_insertOrReplace h.nodup
  · intro r hr hcase
    have hne : r.1 ≠ row.1 := by
      intro heq
      obtain rfl := List.inj_on_of_nodup_map hkeys hr hrow heq
      rcases hcase with hnot | hnot
      · exact hnot (List.mem_append_right _ List.mem_cons_self)
      · exact hnot hp
    refine (hmem r).mpr (Or.inl ⟨h.ahead r hr ?_, hne⟩)
    exact hcase.imp_left fun hnot hm => hnot (List.mem_append_left _ hm)
  · intro r hr hpr
    rcases List.mem_append.mp hr with hr | hr
    · obtain ⟨m, hm, hmid, rc₁, hrc₁, hset⟩ := h.settled r hr hpr
      exact ⟨m, hm, hmid, rc₁, (hmem _).mpr (Or.inl ⟨hrc₁, hpre r hr⟩), hset.mono hstill.kept⟩
    · obtain rfl := List.mem_singleton.mp hr
      exact ⟨n, hn, hid, rc', (hmem _).mpr (Or.inr rfl), hsettled⟩

/-- Reading the cache answers, changes nothing, and gives what the graph was. -/
theorem sat_cached_still (h : CacheOf db₀ w.db cache) :
    Act.Sat (restrict (Step g answers) Trans.any) Trans.any (cached cache)
      (onOk (fun read w' => w' = w ∧ ∃ c, read = .ok c ∧ c.1 = db₀.getDag) fun _ _ => False) w := by
  cases cache with
  | some c => exact ⟨rfl, c, rfl, h⟩
  | none =>
    rw [cached, Act.sat_attempt, readCache, Act.sat_bind]
    rintro r w₁ ⟨⟨rfl, rfl⟩, -⟩
    refine ⟨trivial, ?_⟩
    change Act.Sat _ _ (store .getQuarantineLedger >>= _) _ _
    rw [Act.sat_bind]
    rintro r w₂ ⟨⟨rfl, rfl⟩, -⟩
    refine ⟨trivial, rfl, _, rfl, ?_⟩
    change w.db.getDag = db₀.getDag
    rw [Db.getDag, Db.getDag, show w.db.nodes = db₀.nodes from h]

/-- **One round keeps the invariant.** -/
theorem sat_reconstructOne_honest (hlaw : answers.Lawful) (hadapter : g.settings.hasAdapter = true)
    {k : Adapter.Keys g.env} (hhonest : k.Honest answers)
    (hkeys : (db₀.repairCandidates.map Prod.fst).Nodup)
    (hids : db₀.nodeIds.Nodup) (hcut : db₀.Cut) (hsplit : pre ++ row :: post = db₀.repairCandidates)
    (h : Settling db₀ root k.key pre cache w) :
    Act.Sat (restrict (Step g answers) Trans.any) Trans.any (reconstructOne g root cache row)
      (onOk (fun cache' w' => Settling db₀ root k.key (pre ++ [row]) cache' w') fun _ _ => False) w := by
  rw [reconstructOne]
  split
  · rename_i hp
    exact h.skip hp
  rename_i hnot
  have hp : Pending row := not_not.mp hnot
  have hrow : row ∈ db₀.repairCandidates := by
    rw [← hsplit]
    exact List.mem_append_right _ List.mem_cons_self
  obtain ⟨n, hn, hid, ball, hball⟩ := hcut row hrow hp
  have hnode : Keyed.lookup Prod.fst db₀.getDag row.1 = some (n.nodeId, n.payload) := by
    rw [← hid]
    refine Keyed.lookup_of_mem (r := (n.nodeId, n.payload)) ?_ (List.mem_map.mpr ⟨n, hn, rfl⟩)
    rwa [Db.keys_getDag]
  refine Act.sat_bind.mpr ((sat_cached_still h.cache).mono ?_)
  rintro (e | read) w₁ h₁
  · exact h₁
  obtain ⟨rfl, c, rfl, hc⟩ := h₁
  have hstill : Still k.key w₁.db.repairCandidates w₁.db.nodeIds w₁ := ⟨rfl, fun _ hx => hx, h.key⟩
  refine Act.sat_bind.mpr (Act.sat_attempt.mpr
    ((sat_reconstructPending_honest hlaw hadapter hhonest hc hnode hball hstill).mono ?_))
  rintro (e | _) w₂ h₂
  · exact h₂.elim
  · exact h.done hkeys hsplit hp hn hid hc h₂

/-! ## 5. The recoveries of a run -/

/-- What the loop relies on: the tables have their keys, and pending frontiers were cut out of
covers. -/
structure Db.Recoverable (db : Db) : Prop where
  keys : (db.repairCandidates.map Prod.fst).Nodup
  ids : db.nodeIds.Nodup
  cut : db.Cut

/-- Where the records come from, and that each has its key. -/
def Db.Sound (D : Int) (db : Db) : Prop :=
  db.Derived D (fun _ _ => True) ∧ Final [] db.repairCandidates

theorem Db.Sound.exec {c : Store} {db : Db} (h : db.Sound g.settings.maxTraversalDepth)
    (hc : c.kind ≠ .reopen) : (c.exec g db).2.Sound g.settings.maxTraversalDepth := by
  have hrec : Recorded (fun _ _ => True) (.store c) { db := db } (c.exec g db).1 { db := db } := by
    cases c <;> trivial
  exact ⟨Store.derived_exec hc hrec rfl h.1, Store.final_exec (fun x _ => List.not_mem_nil) h.2⟩

theorem Db.Sound.recoverable {D : Int} {db : Db} (h : db.Sound D) : db.Recoverable := by
  refine ⟨h.2.nodup, h.1.1.nodup, fun row hrow hp => ?_⟩
  obtain ⟨n, hn, hid, root, L, -, -, hfrontier⟩ := h.1.2 row hrow hp
  exact ⟨n, hn, hid, _, hfrontier⟩

/-- **Every call of every run finds a database that can be recovered.** -/
theorem recoverable_of_run {hs : List Handled} {db : Db} {adapterKey : Option String} {w : World}
    (hrun : Run g (Step g answers) (World.initial g db adapterKey) hs w) :
    ∀ h ∈ hs, ∀ e ∈ h.trace, e.before.db.Recoverable := by
  have hstart : (World.initial g db adapterKey).Both (Db.Sound g.settings.maxTraversalDepth) := by
    refine World.both_of_saved rfl ⟨⟨(Lineage.wf_reset g.env.sha256 db).1, fun row hrow => ?_⟩,
      Final.of_nil⟩
    exact absurd hrow List.not_mem_nil
  refine fun h hh => ((hrun.invariant (P := fun _ w _ _ => w.db.Recoverable) (fun req w hw => ?_)
    hstart).2 h hh).2
  refine Prog.Uses.sat (I := World.Both (Db.Sound g.settings.maxTraversalDepth))
    (uses_handle g req (A := fun c => c.kind ≠ .reopen) fun c hc hk => req.keeps_closed (hk ▸ hc)) ?_ hw
  intro c hc w₁ r w₂ ht h₁
  refine ⟨h₁.1.recoverable, h₁.step (fun k hk hdb => hdb.exec ?_) ht⟩
  subst hk
  exact hc

/-- What a recovery has done, when it is over. -/
structure Recovered (before : Db) (root : NodeId) (after : Db) : Prop where
  /-- There is still one record for each compaction that had one. -/
  keys : ∀ x, x ∈ after.repairCandidates.map Prod.fst ↔ x ∈ before.repairCandidates.map Prod.fst
  nodup : (after.repairCandidates.map Prod.fst).Nodup
  decided : ∀ row ∈ before.repairCandidates, ¬ Pending row → row ∈ after.repairCandidates
  settled : ∀ row ∈ before.repairCandidates, Pending row → ∃ n ∈ before.nodes, n.nodeId = row.1 ∧ ∃ rc',
    (row.1, rc') ∈ after.repairCandidates ∧ Resolved before root n.payload.covers row.2 rc' after

theorem sat_attemptReconstruction_honest (hlaw : answers.Lawful) (hadapter : g.settings.hasAdapter = true)
    {k : Adapter.Keys g.env} (hhonest : k.Honest answers) (hdb : w.db.Recoverable)
    (hkey : w.adapterKey = some k.key) :
    Act.Sat (restrict (Step g answers) Trans.any) Trans.any (attemptReconstruction g root)
      (onOk (fun _ w' => Recovered w.db root w'.db) fun _ _ => False) w := by
  have hstart : Settling w.db root k.key [] none w :=
    ⟨rfl, hkey, fun _ hx => hx, fun _ => Iff.rfl, hdb.keys, fun _ hr _ => hr,
      fun _ hr => absurd hr List.not_mem_nil⟩
  rw [attemptReconstruction, Act.sat_bind]
  rintro r w₁ ⟨⟨rfl, rfl⟩, -⟩
  refine ⟨trivial, Act.sat_bind.mpr ?_⟩
  refine (Act.sat_fold_split (I := fun pre cache w' => Settling w.db root k.key pre cache w') []
    w.db.repairCandidates (fun pre row post hsplit cache w' h =>
      sat_reconstructOne_honest hlaw hadapter hhonest hdb.keys hdb.ids hdb.cut hsplit h) hstart).mono ?_
  rintro (e | cache) w₂ h
  · exact h
  · exact ⟨h.keys, h.nodup, fun row hrow hp => h.ahead row hrow (Or.inr hp), h.settled⟩

/-- The call with which a recovery of `/detector` starts: the first of `_attempt_reconstruction`. -/
structure Handled.Recovers (h : Handled) (e : Event Call Call.Res Exc World) : Prop where
  request : ∃ header source raw, h.request = .detector header source raw
  mem : e ∈ h.trace
  call : e.call = .store .getRepairCandidates

/-- **A recovery with an honest adapter.**  Where a `/detector` request of any run starts its
recovery, a reconstruction with an adapter that answers and whose key is the configured one ends
without an exception; the records that were decided stay, and each that was pending is decided:
rebuilt, its new node stored, exactly when its frontier is what the compaction covers and what does
not descend by declared parents from the root of the incident, and given up as `backend_unavailable`
otherwise.  No check of the gateway refuses anything. -/
theorem honest_adapter_settles {k : Adapter.Keys g.env} (hlaw : answers.Lawful) (hhonest : k.Honest answers)
    (hadapter : g.settings.hasAdapter = true) {hs : List Handled} {db : Db} {adapterKey : Option String}
    {w : World} (hrun : Run g (Step g answers) (World.initial g db adapterKey) hs w) {h : Handled}
    (hh : h ∈ hs) {e : Event Call Call.Res Exc World} (he : h.Recovers e)
    (hkey : e.before.adapterKey = some k.key) {root : NodeId} {tr : List (Event Call Call.Res Exc World)}
    {r : Except Exc Unit} {w' : World}
    (hexec : Exec (Step g answers) (attemptReconstruction g root).tree e.before tr r w') :
    r = .ok () ∧ Recovered e.before.db root w'.db := by
  have hsat : Act.Sat (Step g answers) Trans.any (attemptReconstruction g root)
      (onOk (fun _ w₁ => Recovered e.before.db root w₁.db) fun _ _ => False) e.before :=
    Prog.Sat.restrict (sat_attemptReconstruction_honest hlaw hadapter hhonest
      (recoverable_of_run hrun h hh e he.mem) hkey) fun _ _ _ _ ht => ⟨ht, trivial⟩
  have hafter := (Prog.Sat.sound hsat hexec).2
  cases r with
  | error exc => exact hafter.elim
  | ok u => exact ⟨rfl, hafter⟩

/-- The key of the adapter. -/
def openKeys : Adapter.Keys openAdapterSetup.env where
  key := "adapter-key"
  sign := fun _ => "signature"
  key_ne := by decide
  sign_ne := fun _ => by decide
  verifies := fun _ => rfl

def Call.startsRecovery : Call → Bool
  | .store .getRepairCandidates => true
  | _ => false

theorem Call.eq_of_startsRecovery {c : Call} (h : c.startsRecovery = true) :
    c = .store .getRepairCandidates := by
  cases c with
  | store c =>
    cases c with
    | getRepairCandidates => rfl
    | _ => exact absurd h (by simp [Call.startsRecovery])
  | _ => exact absurd h (by simp [Call.startsRecovery])

/-- A script whose adapter is honest; its language model cannot be reached. -/
def honestScript : Script :=
  { openScript "7" with
    adapter := fun req => (Adapter.reconstruct openAdapterSetup.env openKeys.key "7"
      "mocked generated summary"
      openKeys.sign req).toOption }

/-- Not the start of a recovery, or nothing is pending, or the key is not that of the adapter. -/
def atRest (c : Call) (w : World) : Bool :=
  !(c.startsRecovery && decide (w.adapterKey = some openKeys.key) &&
    w.db.repairCandidates.any fun row => decide (row.2.disposition = .pendingReconstruction))

/-- The report of a summary leaves the summary of it pending; the recovery of that report decides
it. -/
theorem honest_adapter_settles_rebuild : ∃ hs w h e tr w',
    Run openAdapterSetup (Step openAdapterSetup honestScript.answers)
        (World.initial openAdapterSetup {} (some openKeys.key)) hs w ∧ h ∈ hs ∧ h.Recovers e ∧
      (∃ row ∈ e.before.db.repairCandidates, Pending row) ∧
      Exec (Step openAdapterSetup honestScript.answers)
        (attemptReconstruction openAdapterSetup "summary-0").tree
        e.before tr (.ok ()) w' ∧ Recovered e.before.db "summary-0" w'.db := by
  have hhonest : openKeys.Honest honestScript.answers := fun req r hr =>
    ⟨"7", "mocked generated summary", hr⟩
  obtain ⟨hs, hrun, -⟩ := Script.exists_run_under openAdapterSetup
    (T := Step openAdapterSetup honestScript.answers) ((rebuildRequests.take 3).map (honestScript, ·))
    (World.initial openAdapterSetup {} (some openKeys.key)) fun r hr c w => by
      obtain ⟨req, -, rfl⟩ := List.mem_map.mp hr
      exact Script.step_answers c w
  -- the report makes a call while the summary of the summary is pending
  obtain ⟨h, hreport, hexec, e, he, hfail⟩ : ∃ h : Handled, h.request = openReport "summary-0" ∧
      Exec (Step openAdapterSetup honestScript.answers) (h.request.handle openAdapterSetup).tree
        (Script.handleAll openAdapterSetup ((rebuildRequests.take 3).map (honestScript, ·))
          (World.initial openAdapterSetup {} (some openKeys.key))) h.trace h.outcome h.after ∧
      ∃ e ∈ h.trace, atRest e.call e.before = false := by
    have hfails : ((openReport "summary-0").handle openAdapterSetup).tree.passes
        (honestScript.step openAdapterSetup) atRest (Script.handleAll openAdapterSetup
          ((rebuildRequests.take 3).map (honestScript, ·))
          (World.initial openAdapterSetup {} (some openKeys.key))) = false := by
      decide +kernel
    obtain ⟨tr, hexec, e, he, hfail, -⟩ := Prog.run_fails Script.step_answers _ _ hfails
    exact ⟨⟨openReport "summary-0", tr, _, _⟩, rfl, hexec, e, he, hfail⟩
  obtain ⟨⟨hcall, hkey⟩, hpending⟩ :
    (e.call.startsRecovery = true ∧ e.before.adapterKey = some openKeys.key) ∧
      ∃ row ∈ e.before.db.repairCandidates, Pending row := by
    simpa [atRest, Pending] using hfail
  have hrecovers : h.Recovers e := ⟨⟨_, _, _, hreport⟩, he, Call.eq_of_startsRecovery hcall⟩
  obtain ⟨tr, hrecovery⟩ := Prog.exists_exec
    (Script.step_answers (g := openAdapterSetup) (o := honestScript))
    (attemptReconstruction openAdapterSetup "summary-0").tree e.before
  have hh : h ∈ hs ++ [h] := List.mem_append_right _ List.mem_cons_self
  have hsettles := honest_adapter_settles (k := openKeys) honestScript.lawful hhonest rfl (hrun.snoc hexec)
    hh hrecovers hkey hrecovery
  rw [hsettles.1] at hrecovery
  exact ⟨_, _, h, e, tr, _, hrun.snoc hexec, hh, hrecovers, hpending, hrecovery, hsettles.2⟩

end GovernorGateway
