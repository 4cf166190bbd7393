/-
# The order of designations

The in-memory backend, without continuity and without a recovery adapter.  A designation that finds
its node absent or already quarantined does nothing; otherwise the radius of the node enters the
ledger, and then the pending compactions are rebuilt, which ADDS NODES TO THE GRAPH between two
designations.

The intermediate states do depend on the order: a node is skipped or not, and what is rebuilt when.
What does not is the part of the ledger among the nodes that were there at first: it is what was
quarantined at first and the descendants of the listed nodes (`designations_confluent`).  Two facts
carry it: the added nodes have fresh ids, so that no old node descends from them (`Grows.path_iff`);
and the descendants of a node that is skipped are quarantined already.
-/
import GovernorGateway.Memory.World
import GovernorGateway.Memory.Repair

namespace GovernorGateway

open Effects

/-! ## 1. A graph that grows by fresh nodes -/

namespace Memory

/-- The id occurs in the graph, or is listed. -/
def Occurs (m : Memory) (xs : List NodeId) (z : NodeId) : Prop :=
  z ∈ m.nodeIds ∨ (∃ p ∈ m.dag, p.Names z) ∨ z ∈ xs

instance (m : Memory) (xs : List NodeId) (z : NodeId) : Decidable (m.Occurs xs z) :=
  inferInstanceAs (Decidable (_ ∨ _ ∨ _))

/-- The dictionary of `m`, with nodes added under ids that did not occur. -/
def Grows (m : Memory) (xs : List NodeId) (m' : Memory) : Prop :=
  ∃ new, m'.dag = m.dag ++ new ∧ ∀ p ∈ new, ¬ m.Occurs xs p.payloadId

variable {m m' : Memory} {xs : List NodeId} {x y n : NodeId} {p : Payload}

theorem Grows.refl (m : Memory) (xs : List NodeId) : m.Grows xs m := ⟨[], by simp, by simp⟩

theorem Grows.of_dag (h : m.Grows xs m') {m'' : Memory} (hdag : m''.dag = m'.dag) :
    m.Grows xs m'' := by
  rw [Grows, hdag]
  exact h

/-- One more node under a fresh id. -/
theorem Grows.commitNode (h : m.Grows xs m') (hp : ¬ m.Occurs xs p.payloadId) :
    m.Grows xs (m'.commitNode p).2 := by
  unfold Memory.commitNode
  split
  · exact h
  · obtain ⟨new, hdag, hnew⟩ := h
    refine ⟨new ++ [p], ?_, fun q hq => ?_⟩
    · change m'.dag ++ [p] = _
      rw [hdag, List.append_assoc]
    · rcases List.mem_append.mp hq with hq | hq
      · exact hnew q hq
      · obtain rfl := List.mem_singleton.mp hq
        exact hp

/-- A node that occurred is stored now if it was stored before. -/
theorem Grows.mem_nodeIds (h : m.Grows xs m') (hx : m.Occurs xs x) :
    x ∈ m'.nodeIds ↔ x ∈ m.nodeIds := by
  obtain ⟨new, hdag, hnew⟩ := h
  rw [nodeIds, hdag, List.map_append, List.mem_append]
  constructor
  · rintro (hmem | hmem)
    · exact hmem
    · obtain ⟨p, hp, rfl⟩ := List.mem_map.mp hmem
      exact absurd hx (hnew p hp)
  · exact Or.inl

/-- **No old node descends from a new one**: what a node that occurred descends from is as
before. -/
theorem Grows.path_iff (h : m.Grows xs m') (hn : m.Occurs xs n) :
    Relation.ReflTransGen m'.Refers x n ↔ Relation.ReflTransGen m.Refers x n := by
  obtain ⟨new, hdag, hnew⟩ := h
  constructor
  · intro hpath
    induction hpath with
    | refl => exact .refl
    | @tail y z _ hstep ih =>
      obtain ⟨p, hp, rfl, hnames⟩ := hstep
      have hold : p ∈ m.dag := by
        rw [hdag, List.mem_append] at hp
        exact hp.resolve_right fun hp => hnew p hp hn
      exact (ih (Or.inr (Or.inl ⟨p, hold, hnames⟩))).tail ⟨p, hold, rfl, hnames⟩
  · intro hpath
    refine Relation.ReflTransGen.mono ?_ _ _ hpath
    rintro y z ⟨p, hp, rfl, hnames⟩
    exact ⟨p, by rw [hdag]; exact List.mem_append_left _ hp, rfl, hnames⟩

/-- Every node that names a quarantined node is quarantined. -/
def Closed (m : Memory) : Prop :=
  ∀ x y, m.Refers x y → x ∈ m.quarantineLedger → y ∈ m.quarantineLedger

theorem Closed.path (h : m.Closed) (hpath : Relation.ReflTransGen m.Refers x y)
    (hx : x ∈ m.quarantineLedger) : y ∈ m.quarantineLedger := by
  induction hpath with
  | refl => exact hx
  | tail _ hstep ih => exact h _ _ hstep ih

/-! ## 2. Calls on the in-memory backend -/

variable {g : Setup} {dumps : Payload → String}

/-- The store always answers. -/
theorem exec_ok (c : Store) (m : Memory) : ∃ a, (m.exec g dumps c).1 = .ok a := by
  cases c <;> exact ⟨_, rfl⟩

/-- Only a commit writes the dictionary, and only a containment the ledger. -/
theorem exec_quiet {c : Store} (hc : ¬ c.Loud) (m : Memory) :
    (m.exec g dumps c).2.dag = m.dag ∧
      (m.exec g dumps c).2.quarantineLedger = m.quarantineLedger := by
  cases c with
  | commitNode site p => exact absurd trivial hc
  | applyQuarantineTransaction event ids => exact absurd trivial hc
  | computeBlastRadius root =>
    obtain ⟨rcs, hrcs⟩ := m.computeBlastRadius_snd root
    change (m.computeBlastRadius root).2.dag = _ ∧ (m.computeBlastRadius root).2.quarantineLedger = _
    rw [hrcs]
    exact ⟨rfl, rfl⟩
  | assignRepairCandidate x rc =>
    change (m.assignRepairCandidate x rc).dag = _ ∧ (m.assignRepairCandidate x rc).quarantineLedger = _
    rw [assignRepairCandidate]
    split
    · exact ⟨rfl, rfl⟩
    · exact ⟨rfl, rfl⟩
  | _ => exact ⟨rfl, rfl⟩

theorem mem_applyQuarantineTransaction {event : QuarantineEvent} {ids : List NodeId} :
    x ∈ (m.applyQuarantineTransaction event ids).quarantineLedger ↔
      x ∈ m.quarantineLedger ∨ x ∈ ids := by
  change x ∈ ids.foldl (Keyed.insertOrIgnore id) m.quarantineLedger ↔ _
  have hkeys : x ∈ (ids.foldl (Keyed.insertOrIgnore id) m.quarantineLedger).map id ↔
      x ∈ m.quarantineLedger.map id ∨ x ∈ ids.map id :=
    Keyed.mem_keys_foldl_insertOrIgnore ids m.quarantineLedger
  simpa using hkeys

end Memory

/-- A generated id does not occur. -/
def Memory.GeneratesFresh (m : Memory) (xs : List NodeId) : Trans Call Call.Res Exc MemoryWorld
  | .ext .uuid, _, r, _ => ∀ u, r = .ok u → ¬ m.Occurs xs ("reconstructed-" ++ u)
  | _, _, _, _ => True

/-- The steps of the in-memory backend with fresh uuids. -/
def FreshStep (g : Setup) (dumps : Payload → String) (answers : Answers) (m : Memory)
    (xs : List NodeId) : Trans Call Call.Res Exc MemoryWorld :=
  fun c w r w' => MemoryStep g dumps answers c w r w' ∧ m.GeneratesFresh xs c w r w'

section Calls

variable {g : Setup} {dumps : Payload → String} {answers : Answers} {m : Memory} {xs : List NodeId}
  {β : Type} {Q : Except Exc β → MemoryWorld → Prop} {w : MemoryWorld}

/-- A call of the store. -/
theorem memory_store {c : Store} {f : c.Res → Handler β}
    (hok : ∀ a, (w.memory.exec g dumps c).1 = .ok a →
      Act.Sat (FreshStep g dumps answers m xs) Trans.any (f a) Q
        { w with memory := (w.memory.exec g dumps c).2 }) :
    Act.Sat (FreshStep g dumps answers m xs) Trans.any (store c >>= f) Q w := by
  rw [Act.sat_bind]
  rintro r w₁ ⟨⟨rfl, rfl⟩, -⟩
  obtain ⟨a, ha⟩ : ∃ a, (w.memory.exec g dumps c).1 = .ok a := Memory.exec_ok c w.memory
  refine ⟨trivial, ?_⟩
  rw [ha]
  exact hok a ha

/-- A call to the outside world that always gets an answer. -/
theorem memory_ext (hlaw : answers.Lawful) (e : Ext) (hvalue : ∀ r, e.Lawful r → ∃ a, r = .ok a)
    {f : e.Res → Handler β}
    (hok : ∀ a, Act.Sat (FreshStep g dumps answers m xs) Trans.any (f a) Q w) :
    Act.Sat (FreshStep g dumps answers m xs) Trans.any (ext e >>= f) Q w := by
  rw [Act.sat_bind]
  rintro r w₁ ⟨⟨hanswer, rfl⟩, -⟩
  obtain ⟨a, rfl⟩ := hvalue r (hlaw e r hanswer)
  exact ⟨trivial, hok a⟩

/-- A quiet call leaves the dictionary and the ledger alone. -/
theorem memory_quiet {c : Call} {r : Except Exc c.Res} {w' : MemoryWorld} (hc : c.Quiet)
    (ht : FreshStep g dumps answers m xs c w r w') :
    w'.memory.dag = w.memory.dag ∧ w'.memory.quarantineLedger = w.memory.quarantineLedger := by
  obtain ⟨ht, -⟩ := ht
  cases c with
  | store c =>
    obtain ⟨-, rfl⟩ := ht
    exact Memory.exec_quiet hc w.memory
  | ext e =>
    obtain ⟨-, rfl⟩ := ht
    exact ⟨rfl, rfl⟩
  | sync k => exact absurd hc id
  | getAdapterKey =>
    obtain ⟨-, rfl⟩ := ht
    exact ⟨rfl, rfl⟩
  | setAdapterKey key =>
    obtain ⟨-, rfl⟩ := ht
    exact ⟨rfl, rfl⟩

/-- The recurrence hook answers, and leaves the dictionary and the ledger alone. -/
theorem memory_recurrenceHook (hlaw : answers.Lawful) (ids : List NodeId) (cls : String)
    {f : Unit → Handler β}
    (hok : ∀ w', w'.memory.dag = w.memory.dag →
      w'.memory.quarantineLedger = w.memory.quarantineLedger →
      Act.Sat (FreshStep g dumps answers m xs) Trans.any (f ()) Q w') :
    Act.Sat (FreshStep g dumps answers m xs) Trans.any (recurrenceHook g ids cls >>= f) Q w := by
  have hreturns : Act.Returns (fun c => (∃ k, c = .store k) ∨ ∃ e : Ext, e.Prompt ∧ c = .ext e)
      (recurrenceHook g ids cls) :=
    returns_recurrenceHook g (fun c _ => Or.inl ⟨c, rfl⟩) (fun e he => Or.inr ⟨e, he.prompt, rfl⟩) ids cls
  have hanswers := Prog.Returns.sat (T := FreshStep g dumps answers m xs) (P := Trans.any)
    (I := fun _ => True) (s := w) hreturns ?_ trivial
  · have hquiet : QuietPart (recurrenceHook g ids cls) :=
      uses_recurrenceHook g (Call.of_quiet rfl) ids cls
    have hframe := Prog.Uses.sat (T := FreshStep g dumps answers m xs) (P := Trans.any)
      (I := fun w' : MemoryWorld => w'.memory.dag = w.memory.dag ∧
        w'.memory.quarantineLedger = w.memory.quarantineLedger) (s := w) hquiet
      (fun c hc w₁ r w₂ ht h₁ => by
        obtain ⟨hdag, hledger⟩ := memory_quiet hc ht
        exact ⟨trivial, hdag.trans h₁.1, hledger.trans h₁.2⟩) ⟨rfl, rfl⟩
    rw [Act.sat_bind]
    refine ((Prog.Sat.and hanswers hframe).weaken fun _ _ _ _ _ => trivial).mono ?_
    rintro r w' ⟨⟨⟨a, rfl⟩, -⟩, hdag, hledger⟩
    exact hok w' hdag hledger
  · rintro c (⟨k, rfl⟩ | ⟨e, he, rfl⟩) w₁ r w₂ ⟨ht, -⟩ -
    · obtain ⟨rfl, rfl⟩ := ht
      exact ⟨trivial, Memory.exec_ok k w₁.memory, trivial⟩
    · refine ⟨trivial, ?_, trivial⟩
      have hlawful := hlaw e r ht.1
      cases e with
      | opa q => exact absurd he id
      | reconstruct req => exact absurd he id
      | iterSet ys =>
        obtain ⟨zs, hzs, -⟩ := hlawful
        exact ⟨zs, hzs⟩
      | _ => exact hlawful

end Calls

/-! ## 3. One designation -/

section Designation

variable {g : Setup} {dumps : Payload → String} {answers : Answers} {m : Memory} {xs : List NodeId}

/-- A commit of a node under a fresh id. -/
theorem keeps_commitFresh {site : CommitSite} {p : Payload} (hp : ¬ m.Occurs xs p.payloadId)
    (L : List NodeId) :
    Keeps (FreshStep g dumps answers m xs) Trans.any
      (fun w => m.Grows xs w.memory ∧ w.memory.quarantineLedger = L) (commitShared site p)
      fun _ => True := by
  have hsync : ∀ k, Keeps (FreshStep g dumps answers m xs) Trans.any
      (fun w => m.Grows xs w.memory ∧ w.memory.quarantineLedger = L) (sync k) fun _ => True := by
    intro k
    refine Keeps.call ?_
    rintro w r w' hw ⟨⟨-, rfl⟩, -⟩
    exact ⟨trivial, hw, fun _ _ => trivial⟩
  refine Keeps.seq (hsync _) fun _ => Keeps.always ?_ (hsync _)
  refine Keeps.seq (Keeps.call (c := .store (.commitNode site p)) ?_) fun _ => Keeps.pure trivial
  rintro w r w' ⟨hgrows, hledger⟩ ⟨⟨-, rfl⟩, -⟩
  refine ⟨trivial, ⟨hgrows.commitNode hp, ?_⟩, fun _ _ => trivial⟩
  change (w.memory.commitNode p).2.quarantineLedger = L
  rw [Memory.commitNode]
  split
  · exact hledger
  · exact hledger

/-- Reconstruction adds nodes under fresh ids. -/
theorem keeps_reconstructFresh (hadapter : g.settings.hasAdapter = false) (root : NodeId)
    (L : List NodeId) :
    Keeps (FreshStep g dumps answers m xs) Trans.any
      (fun w => m.Grows xs w.memory ∧ w.memory.quarantineLedger = L) (attemptReconstruction g root)
      fun _ => True := by
  refine keeps_attemptReconstruction (U := fun u => ¬ m.Occurs xs ("reconstructed-" ++ u))
    (V := fun _ => True) (A := fun _ _ => True) (Φ := fun _ => True)
    ⟨?_, ?_, fun _ _ _ _ _ => trivial, fun _ _ _ _ _ _ => trivial, ?_⟩ root
    fun _ _ _ _ _ _ _ _ => trivial
  · rintro c w r w' hc ⟨hgrows, hledger⟩ ht
    obtain ⟨hdag, hsame⟩ := memory_quiet hc ht
    exact ⟨trivial, hgrows.of_dag hdag, hsame.trans hledger⟩
  · rintro w u w' ⟨-, hfresh⟩
    exact hfresh u rfl
  · intro rc c _ hcand
    obtain ⟨u, hu, hid⟩ : ∃ u, ¬ m.Occurs xs ("reconstructed-" ++ u) ∧
        c.payloadId = "reconstructed-" ++ u := by
      rcases hcand.source with ⟨hyes, -⟩ | ⟨-, -, hid⟩
      · rw [hadapter] at hyes
        exact absurd hyes (by simp)
      · exact hid
    exact keeps_commitFresh (hid ▸ hu) L

/-- **The step.**  A designation of an occurring node puts its descendants into the ledger, as far
as the old nodes are concerned, unless it is absent or quarantined: then it does nothing. -/
theorem sat_designate_memory (hlaw : answers.Lawful) (hcontinuity : g.settings.continuityEnabled = false)
    (hadapter : g.settings.hasAdapter = false) {x : NodeId} (hx : m.Occurs xs x)
    (reason identity : String) {w : MemoryWorld} (hw : m.Grows xs w.memory) :
    Act.Sat (FreshStep g dumps answers m xs) Trans.any (designateLocked g ⟨x, reason⟩ identity)
      (fun _ w' => m.Grows xs w'.memory ∧ ∀ n ∈ m.nodeIds, n ∈ w'.memory.quarantineLedger ↔
        n ∈ w.memory.quarantineLedger ∨ (x ∈ m.nodeIds ∧ x ∉ w.memory.quarantineLedger ∧
          Relation.ReflTransGen m.Refers x n)) w := by
  unfold designateLocked
  refine memory_store fun exists_ hexists => memory_store fun quarantined hquarantined => ?_
  obtain rfl := Except.ok.inj hexists
  obtain rfl := Except.ok.inj hquarantined
  have hstored : w.memory.nodesExist [x] x = decide (x ∈ m.nodeIds) := by
    simp only [Memory.nodesExist, List.mem_singleton, decide_true, Bool.true_and,
      hw.mem_nodeIds hx]
  have hledger : w.memory.areQuarantined [x] x = decide (x ∈ w.memory.quarantineLedger) := by
    simp only [Memory.areQuarantined, List.mem_singleton, decide_true, Bool.true_and]
  split
  · rename_i habsent
    have hnot : x ∉ m.nodeIds := by
      rw [hstored] at habsent
      simpa using habsent
    exact ⟨hw, fun n _ => ⟨Or.inl, fun h => h.resolve_right fun h => hnot h.1⟩⟩
  · rename_i hpresent
    have hmem : x ∈ m.nodeIds := by
      rw [hstored] at hpresent
      simpa using hpresent
    split
    · rename_i hq
      have hin : x ∈ w.memory.quarantineLedger := by
        have hanswer : w.memory.areQuarantined [x] x = true := hq
        rw [hledger] at hanswer
        exact of_decide_eq_true hanswer
      exact ⟨hw, fun n _ => ⟨Or.inl, fun h => h.resolve_right fun h => h.2.1 hin⟩⟩
    · rename_i hq
      have hout : x ∉ w.memory.quarantineLedger := by
        intro hin
        have hanswer : w.memory.areQuarantined [x] x = true := by
          rw [hledger]
          exact decide_eq_true hin
        exact hq hanswer
      have hnothing : ∀ ids event, attemptSafeContinuity g ids event = pure { enabled := false } := by
        intro ids event
        rw [attemptSafeContinuity, if_pos (by simp [hcontinuity])]
      simp only [hnothing]
      -- the containment
      rw [Act.sat_bind]
      refine Act.Sat.mono (Q := onOk (fun _ w' => m.Grows xs w'.memory ∧
        ∀ n, n ∈ w'.memory.quarantineLedger ↔
          n ∈ w.memory.quarantineLedger ∨ Relation.ReflTransGen w.memory.Refers x n)
        fun _ _ => False) ?_ ?_
      · unfold contain
        refine memory_store fun ids hids => ?_
        obtain rfl := Except.ok.inj hids
        have hquiet : ¬ (Store.computeBlastRadius x).Loud := id
        obtain ⟨hdag₁, hledger₁⟩ :
            (w.memory.exec g dumps (.computeBlastRadius x)).2.dag = w.memory.dag ∧
              (w.memory.exec g dumps (.computeBlastRadius x)).2.quarantineLedger =
                w.memory.quarantineLedger := Memory.exec_quiet hquiet w.memory
        refine memory_recurrenceHook hlaw _ _ fun w₂ hdag₂ hledger₂ => ?_
        refine memory_store fun digest _ => ?_
        refine memory_ext hlaw .uuid (fun _ h => h) fun eventId => ?_
        rw [Act.sat_bind, stampNow]
        refine memory_ext hlaw (.now .record) (fun _ h => h) fun t => ?_
        refine memory_store fun event _ => ?_
        refine ⟨hw.of_dag (hdag₂.trans hdag₁), fun n => ?_⟩
        refine Memory.mem_applyQuarantineTransaction.trans ?_
        have hradius : n ∈ (w.memory.computeBlastRadius x).1 ↔
            Relation.ReflTransGen w.memory.Refers x n := by
          rw [Memory.computeBlastRadius_fst, mem_sortedSet, Memory.mem_breadthFirst]
        have hbefore : w₂.memory.quarantineLedger = w.memory.quarantineLedger :=
          hledger₂.trans hledger₁
        have hold : n ∈ w₂.memory.quarantineLedger ↔ n ∈ w.memory.quarantineLedger := by
          rw [hbefore]
        exact or_congr hold hradius
      · rintro (e | ⟨ids, event⟩) w₁ h₁
        · exact h₁.elim
        · obtain ⟨hgrows, hmoved⟩ := h₁
          have hdone : ∀ n ∈ m.nodeIds, n ∈ w₁.memory.quarantineLedger ↔
              n ∈ w.memory.quarantineLedger ∨ (x ∈ m.nodeIds ∧ x ∉ w.memory.quarantineLedger ∧
                Relation.ReflTransGen m.Refers x n) := by
            intro n hn
            rw [hmoved, hw.path_iff (Or.inl hn)]
            exact or_congr_right ⟨fun h => ⟨hmem, hout, h⟩, fun h => h.2.2⟩
          -- and then reconstruction, however it ends
          change Act.Sat _ _ (attemptReconstruction g x >>= _) _ w₁
          rw [Act.sat_bind]
          refine (keeps_reconstructFresh hadapter x w₁.memory.quarantineLedger w₁ ⟨hgrows, rfl⟩).mono ?_
          rintro (e | u) w₂ h₂
          · exact ⟨h₂.1, fun n hn => by rw [h₂.2]; exact hdone n hn⟩
          · exact ⟨h₂.1.1, fun n hn => by rw [h₂.1.2]; exact hdone n hn⟩

end Designation

/-! ## 4. A list of designations -/

/-- The locked sections of designations one after the other, however each ends. -/
inductive Designations {σ : Type} (g : Setup) (T : Trans Call Call.Res Exc σ) :
    σ → List NodeId → σ → Prop
  | nil (s : σ) : Designations g T s [] s
  | cons {x : NodeId} {xs : List NodeId} {s s₁ s' : σ} {reason identity : String}
      {tr : List (Event Call Call.Res Exc σ)} {r : Except Exc Response} :
      Exec T (designateLocked g ⟨x, reason⟩ identity).tree s tr r s₁ → Designations g T s₁ xs s' →
      Designations g T s (x :: xs) s'

variable {g : Setup} {dumps : Payload → String} {answers : Answers}

/-- **The run**, by induction on the list: the old nodes in the ledger are those that were, and the
descendants of what has been designated. -/
theorem Designations.ledger (hlaw : answers.Lawful) (hcontinuity : g.settings.continuityEnabled = false)
    (hadapter : g.settings.hasAdapter = false) {m : Memory} (hclosed : m.Closed) {all : List NodeId}
    {xs : List NodeId} (hxs : ∀ x ∈ xs, x ∈ all) {w w' : MemoryWorld}
    (hrun : Designations g (FreshStep g dumps answers m all) w xs w') {done : List NodeId}
    (hw : m.Grows all w.memory)
    (hdone : ∀ n ∈ m.nodeIds, n ∈ w.memory.quarantineLedger ↔ n ∈ m.quarantineLedger ∨
      ∃ x ∈ done, x ∈ m.nodeIds ∧ Relation.ReflTransGen m.Refers x n) :
    ∀ n ∈ m.nodeIds, n ∈ w'.memory.quarantineLedger ↔ n ∈ m.quarantineLedger ∨
      ∃ x ∈ done ++ xs, x ∈ m.nodeIds ∧ Relation.ReflTransGen m.Refers x n := by
  induction hrun generalizing done with
  | nil w => simpa using hdone
  | @cons x xs w w₁ w' reason identity tr r hexec _ ih =>
    have hx : m.Occurs all x := Or.inr (Or.inr (hxs x List.mem_cons_self))
    obtain ⟨hgrows, hledger⟩ := (Prog.Sat.sound
      (sat_designate_memory hlaw hcontinuity hadapter hx reason identity hw) hexec).2
    have hstep : ∀ n ∈ m.nodeIds, n ∈ w₁.memory.quarantineLedger ↔ n ∈ m.quarantineLedger ∨
        ∃ y ∈ done ++ [x], y ∈ m.nodeIds ∧ Relation.ReflTransGen m.Refers y n := by
      intro n hn
      rw [hledger n hn, hdone n hn]
      constructor
      · rintro ((hq | ⟨y, hy, hpath⟩) | ⟨hmem, -, hpath⟩)
        · exact Or.inl hq
        · exact Or.inr ⟨y, List.mem_append_left _ hy, hpath⟩
        · exact Or.inr ⟨x, List.mem_append_right _ (List.mem_singleton_self x), hmem, hpath⟩
      · rintro (hq | ⟨y, hy, hmem, hpath⟩)
        · exact Or.inl (Or.inl hq)
        · rcases List.mem_append.mp hy with hy | hy
          · exact Or.inl (Or.inr ⟨y, hy, hmem, hpath⟩)
          · obtain rfl := List.mem_singleton.mp hy
            -- if the node was skipped, its descendants are quarantined already
            by_cases hskip : y ∈ w.memory.quarantineLedger
            · rcases (hdone y hmem).mp hskip with hq | ⟨z, hz, hzmem, hzpath⟩
              · exact Or.inl (Or.inl (hclosed.path hpath hq))
              · exact Or.inl (Or.inr ⟨z, hz, hzmem, hzpath.trans hpath⟩)
            · exact Or.inr ⟨hmem, hskip, hpath⟩
    have hrest := ih (fun y hy => hxs y (List.mem_cons_of_mem _ hy)) hgrows hstep
    rw [List.append_assoc, List.singleton_append] at hrest
    exact hrest

/-- **The order of designations does not matter.**  On the in-memory backend, without continuity and
without an adapter, from a closed state and with fresh uuids: whatever the order of the list, the
nodes of the initial graph in the ledger are in the end those that were in it and the descendants of
the listed nodes. -/
theorem designations_confluent (hlaw : answers.Lawful)
    (hcontinuity : g.settings.continuityEnabled = false) (hadapter : g.settings.hasAdapter = false)
    {w : MemoryWorld} (hclosed : w.memory.Closed) {xs ys : List NodeId} (hperm : ys.Perm xs)
    {w₁ w₂ : MemoryWorld}
    (hrun₁ : Designations g (FreshStep g dumps answers w.memory xs) w xs w₁)
    (hrun₂ : Designations g (FreshStep g dumps answers w.memory xs) w ys w₂) :
    ∀ n ∈ w.memory.nodeIds,
      (n ∈ w₁.memory.quarantineLedger ↔ n ∈ w.memory.quarantineLedger ∨
        ∃ x ∈ xs, x ∈ w.memory.nodeIds ∧ Relation.ReflTransGen w.memory.Refers x n) ∧
      (n ∈ w₂.memory.quarantineLedger ↔ n ∈ w₁.memory.quarantineLedger) := by
  have hstart : ∀ n ∈ w.memory.nodeIds, n ∈ w.memory.quarantineLedger ↔
      n ∈ w.memory.quarantineLedger ∨
        ∃ x ∈ ([] : List NodeId), x ∈ w.memory.nodeIds ∧
          Relation.ReflTransGen w.memory.Refers x n := by
    intro n _
    simp
  intro n hn
  have h₁ := hrun₁.ledger hlaw hcontinuity hadapter hclosed (fun _ hx => hx) (.refl _ _) hstart n hn
  have h₂ := hrun₂.ledger hlaw hcontinuity hadapter hclosed (fun _ hx => hperm.mem_iff.mp hx)
    (.refl _ _) hstart n hn
  rw [List.nil_append] at h₁ h₂
  refine ⟨h₁, ?_⟩
  rw [h₂, h₁]
  simp only [hperm.mem_iff]

/-! ## 5. Two nodes and their summary -/

/-- A scripted call is a step with fresh uuids when the uuid of the script is fresh. -/
theorem Script.freshStep {o : Script} {m : Memory} {xs : List NodeId}
    (hfresh : ¬ m.Occurs xs ("reconstructed-" ++ o.uuid)) (c : Call) (w : MemoryWorld) :
    FreshStep g dumps Answers.lawful m xs c w (o.memoryStep g dumps c w).1
      (o.memoryStep g dumps c w).2 := by
  refine ⟨o.memoryStep_spec c w, ?_⟩
  cases c with
  | ext e =>
    cases e with
    | uuid =>
      intro u hu
      have hgiven : o.uuid = u := Except.ok.inj hu
      rw [← hgiven]
      exact hfresh
    | _ => trivial
  | _ => trivial

/-- Designations one after the other, each under its own script: the world after them. -/
def Script.designateAll (g : Setup) (dumps : Payload → String) :
    List (Script × NodeId) → MemoryWorld → MemoryWorld
  | [], w => w
  | (o, x) :: rest, w => designateAll g dumps rest
    ((designateLocked g ⟨x, "poisoned"⟩ "designator").tree.run (o.memoryStep g dumps) w).2

theorem Script.exists_designations {m : Memory} {all : List NodeId} :
    ∀ (xs : List (Script × NodeId)) (w : MemoryWorld),
      (∀ x ∈ xs, ¬ m.Occurs all ("reconstructed-" ++ x.1.uuid)) →
      Designations g (FreshStep g dumps Answers.lawful m all) w (xs.map Prod.snd)
        (Script.designateAll g dumps xs w)
  | [], w, _ => .nil w
  | (o, x) :: rest, w, hfresh => by
    have hstep : ∀ c w, FreshStep g dumps Answers.lawful m all c w (o.memoryStep g dumps c w).1
        (o.memoryStep g dumps c w).2 := Script.freshStep (hfresh _ List.mem_cons_self)
    obtain ⟨tr, hexec⟩ := Prog.exists_exec hstep
      (designateLocked g ⟨x, "poisoned"⟩ "designator").tree w
    exact .cons hexec (Script.exists_designations rest _ fun y hy =>
      hfresh y (List.mem_cons_of_mem _ hy))

/-- Two nodes with their checkpoints, and a summary of both. -/
def summarized : MemoryWorld where
  memory :=
    { dag := [openPayload "agent" "node-1" [], openPayload "agent" "node-2" [],
        { openPayload "agent" "summary-1" [] with
          nodeType := some .compaction
          summarizer := some { methodId := some "llm-v1" }
          parents := ["node-1", "node-2"].map fun x =>
            { parentNodeId := x, edgeClass := some .carried }
          covers := ["node-1", "node-2"] }]
      quarantineLedger := []
      checkpoints := [⟨"checkpoint-1", "node-1", "", []⟩, ⟨"checkpoint-2", "node-2", "", []⟩] }

/-- The summary is rebuilt after the first designation, from the node that is still clean, and
contained with it after the second; in the other order from the other node. -/
theorem designations_confluent_summary :
    let xs := ["node-1", "node-2"]
    ∃ w₁ w₂,
      Designations plainSetup
          (FreshStep plainSetup (fun _ => "") Answers.lawful summarized.memory xs) summarized xs w₁ ∧
        Designations plainSetup
          (FreshStep plainSetup (fun _ => "") Answers.lawful summarized.memory xs) summarized
          xs.reverse w₂ ∧
        "reconstructed-0" ∈ w₁.memory.nodeIds ∧
        ∀ n ∈ summarized.memory.nodeIds,
          (n ∈ w₁.memory.quarantineLedger ↔ n ∈ summarized.memory.quarantineLedger ∨
            ∃ x ∈ xs, x ∈ summarized.memory.nodeIds ∧
              Relation.ReflTransGen summarized.memory.Refers x n) ∧
          (n ∈ w₂.memory.quarantineLedger ↔ n ∈ w₁.memory.quarantineLedger) := by
  intro xs
  have hclosed : summarized.memory.Closed := by
    intro x y _ hx
    exact absurd hx List.not_mem_nil
  have hperm : xs.reverse.Perm xs := List.reverse_perm xs
  have hrun₁ : Designations plainSetup
      (FreshStep plainSetup (fun _ => "") Answers.lawful summarized.memory xs) summarized xs _ :=
    Script.exists_designations [(openScript "0", "node-1"), (openScript "1", "node-2")] summarized
      (by decide)
  have hrun₂ : Designations plainSetup
      (FreshStep plainSetup (fun _ => "") Answers.lawful summarized.memory xs) summarized xs.reverse _ :=
    Script.exists_designations [(openScript "0", "node-2"), (openScript "1", "node-1")] summarized
      (by decide)
  exact ⟨_, _, hrun₁, hrun₂, by decide +kernel,
    designations_confluent (fun _ _ h => h) rfl (by decide) hclosed hperm hrun₁ hrun₂⟩

end GovernorGateway
