/-
# Repair decisions are final

A repair candidate that is `REDUCIBLE` or `IRREDUCIBLE` keeps its record, on both backends and
whatever requests follow (`decisions_final`).  The traversal looks at each affected compaction again
and skips the decided ones; reconstruction writes only to records it has read as pending.
-/
import GovernorGateway.Semantics.Decisions
import GovernorGateway.Semantics.Stable
import GovernorGateway.Memory.World

namespace GovernorGateway

open Effects

/-! ## 1. Tables that keep decided rows -/

/-- The record is decided. -/
def RepairCandidate.Decided (rc : RepairCandidate) : Prop :=
  rc.disposition ≠ .pendingReconstruction

instance (rc : RepairCandidate) : Decidable rc.Decided := inferInstanceAs (Decidable (_ ≠ _))

/-- The rows of `F` are decided, and they are rows of the table, whose keys are distinct. -/
structure Final (F rcs : List (NodeId × RepairCandidate)) : Prop where
  decided : ∀ row ∈ F, row.2.Decided
  nodup : (rcs.map Prod.fst).Nodup
  stored : ∀ row ∈ F, row ∈ rcs

namespace Final

variable {F rcs : List (NodeId × RepairCandidate)} {x : NodeId} {rc : RepairCandidate}

/-- A pending row has a key of its own. -/
theorem notMem_of_pending (h : Final F rcs) {row : NodeId × RepairCandidate} (hrow : row ∈ rcs)
    (hp : row.2.disposition = .pendingReconstruction) : row.1 ∉ F.map Prod.fst := by
  intro hmem
  obtain ⟨f, hf, heq⟩ := List.mem_map.mp hmem
  obtain rfl := List.inj_on_of_nodup_map h.nodup (h.stored f hf) hrow heq
  exact h.decided f hf hp

/-- What is found under a key of `F` is decided. -/
theorem lookup (h : Final F rcs) (hx : x ∈ F.map Prod.fst) :
    ∃ row, Keyed.lookup Prod.fst rcs x = some row ∧ row.2.Decided := by
  obtain ⟨f, hf, rfl⟩ := List.mem_map.mp hx
  exact ⟨f, Keyed.lookup_of_mem h.nodup (h.stored f hf), h.decided f hf⟩

theorem insertOrReplace (h : Final F rcs) (hx : x ∉ F.map Prod.fst) :
    Final F (Keyed.insertOrReplace Prod.fst rcs (x, rc)) := by
  refine ⟨h.decided, Keyed.nodup_insertOrReplace h.nodup, fun row hrow => ?_⟩
  refine Keyed.mem_insertOrReplace.mpr (Or.inl ⟨h.stored row hrow, fun heq => hx ?_⟩)
  have hkey : row.1 = x := heq
  exact hkey ▸ List.mem_map_of_mem hrow

theorem assign (h : Final F rcs) (hx : x ∉ F.map Prod.fst) :
    Final F (Keyed.assign Prod.fst rcs (x, rc)) := by
  refine ⟨h.decided, Keyed.nodup_assign h.nodup, fun row hrow => ?_⟩
  refine Keyed.mem_assign.mpr (Or.inl ⟨h.stored row hrow, fun heq => hx ?_⟩)
  have hkey : row.1 = x := heq
  exact hkey ▸ List.mem_map_of_mem hrow

end Final

/-! ## 2. The SQLite backend -/

variable {F : List (NodeId × RepairCandidate)} {g : Setup} {answers : Answers}

/-- A candidate that is classified has no decided record. -/
theorem Db.notMem_of_classify {db : Db} {visited : List NodeId} {rollback : Bool} {x : NodeId}
    {rc : RepairCandidate} (h : Final F db.repairCandidates)
    (hc : db.classify visited rollback x = some rc) : x ∉ F.map Prod.fst := by
  intro hx
  obtain ⟨row, hrow, hdecided⟩ := h.lookup hx
  have hterminal : db.terminal x = true := by
    rw [Db.terminal, hrow]
    exact decide_eq_true hdecided
  rw [Db.classify, if_pos hterminal] at hc
  exact absurd hc (by simp)

theorem Db.final_classifyAll (visited : List NodeId) (rollback : Bool) : ∀ (xs : List NodeId)
    (db : Db), Final F db.repairCandidates →
      Final F (classifyAll visited rollback xs db).repairCandidates
  | [], _, h => h
  | x :: xs, db, h => by
    rw [classifyAll]
    cases hc : db.classify visited rollback x with
    | none => exact final_classifyAll visited rollback xs db h
    | some rc =>
      exact final_classifyAll visited rollback xs _ (h.insertOrReplace (notMem_of_classify h hc))

theorem Store.final_exec {c : Store} {db : Db} (hc : ∀ x, (Call.store c).Decides x →
    x ∉ F.map Prod.fst) (h : Final F db.repairCandidates) : Final F (c.exec g db).2.repairCandidates := by
  cases c with
  | updateRepairCandidate x rc => exact h.insertOrReplace (hc x rfl)
  | computeBlastRadius root => exact Db.final_classifyAll _ _ _ db h
  | recordShadowDecision d =>
    simp only [Store.exec, Db.recordShadowDecision]
    split <;> exact h
  | _ => exact h

theorem World.guards (F : List (NodeId × RepairCandidate)) :
    Guards (Step g answers) F (World.Both fun db => Final F db.repairCandidates) where
  read := by
    rintro w rcs w' hw ⟨hr, -⟩ row hrow hp
    obtain rfl := Except.ok.inj hr
    exact hw.1.notMem_of_pending hrow hp
  keep := by
    intro c w r w' hc hw ht
    refine hw.step (fun k hk h => Store.final_exec (fun x hx => hc x ?_) h) ht
    rw [hk]
    exact hx

/-- Every run keeps the decided rows of its start. -/
theorem Run.final {w w' : World} {hs : List Handled} (hrun : Run g (Step g answers) w hs w')
    (hsaved : w.saved = none) (hw : Final F w.db.repairCandidates) :
    Final F w'.db.repairCandidates := by
  refine (hrun.invariant (P := Trans.any)
    (I := World.Both fun db => Final F db.repairCandidates) (fun req w₁ h₁ => ?_)
    (World.both_of_saved hsaved hw)).1.1
  refine (((World.guards F).handle req) w₁ h₁).mono ?_
  rintro (e | a) w₂ h₂
  · exact h₂
  · exact h₂.1

/-! ## 3. The in-memory backend -/

theorem Memory.notMem_of_classify {m : Memory} {reached : List NodeId} {rollback : Bool} {x : NodeId}
    {rc : RepairCandidate} (h : Final F m.repairCandidates)
    (hc : m.classify reached rollback x = some rc) : x ∉ F.map Prod.fst := by
  intro hx
  obtain ⟨row, hrow, hdecided⟩ := h.lookup hx
  have hterminal : m.terminal x = true := by
    rw [Memory.terminal, hrow]
    exact decide_eq_true hdecided
  rw [Memory.classify, if_pos hterminal] at hc
  exact absurd hc (by simp)

theorem Memory.final_classify (reached : List NodeId) (rollback : Bool) : ∀ (xs : List NodeId)
    (m : Memory), Final F m.repairCandidates →
      Final F (xs.foldl (classifyOne reached rollback) m).repairCandidates
  | [], _, h => h
  | x :: xs, m, h => by
    rw [List.foldl_cons]
    refine final_classify reached rollback xs _ ?_
    unfold classifyOne
    split
    · exact h
    · rename_i rc hc
      exact h.assign (notMem_of_classify h hc)

theorem Memory.final_exec {dumps : Payload → String} {c : Store} {m : Memory}
    (hc : ∀ x, (Call.store c).Decides x → x ∉ F.map Prod.fst) (h : Final F m.repairCandidates) :
    Final F (m.exec g dumps c).2.repairCandidates := by
  cases c with
  | updateRepairCandidate x rc => exact h.assign (hc x rfl)
  | assignRepairCandidate x rc =>
    change Final F (m.assignRepairCandidate x rc).repairCandidates
    unfold Memory.assignRepairCandidate
    split
    · exact h.assign (hc x rfl)
    · exact h
  | computeBlastRadius root => exact Memory.final_classify _ _ _ m h
  | commitNode site p =>
    change Final F (m.commitNode p).2.repairCandidates
    unfold Memory.commitNode
    split <;> exact h
  | _ => exact h

theorem MemoryWorld.guards {dumps : Payload → String} (F : List (NodeId × RepairCandidate)) :
    Guards (MemoryStep g dumps answers) F fun w => Final F w.memory.repairCandidates where
  read := by
    rintro w rcs w' hw ⟨hr, -⟩ row hrow hp
    obtain rfl := Except.ok.inj hr
    exact hw.notMem_of_pending hrow hp
  keep := by
    intro c w r w' hc hw ht
    cases c with
    | store c =>
      obtain ⟨-, rfl⟩ := ht
      exact Memory.final_exec hc hw
    | ext e =>
      obtain ⟨-, rfl⟩ := ht
      exact hw
    | sync k =>
      obtain ⟨-, rfl⟩ := ht
      exact hw
    | getAdapterKey =>
      obtain ⟨-, rfl⟩ := ht
      exact hw
    | setAdapterKey key =>
      obtain ⟨-, rfl⟩ := ht
      exact hw

theorem Serves.final {dumps : Payload → String} {w w' : MemoryWorld} {reqs : List Request}
    (hrun : Serves g (MemoryStep g dumps answers) w reqs w')
    (hw : Final F w.memory.repairCandidates) : Final F w'.memory.repairCandidates := by
  refine hrun.invariant (I := fun w => Final F w.memory.repairCandidates) (fun req w₁ h₁ => ?_) hw
  refine (((MemoryWorld.guards F).handle req) w₁ h₁).mono ?_
  rintro (e | a) w₂ h₂
  · exact h₂
  · exact h₂.1

/-! ## 4. Finality -/

namespace Final

variable {rcs rcs' : List (NodeId × RepairCandidate)} {x : NodeId} {rc : RepairCandidate}

/-- One decided row. -/
theorem singleton (hnd : (rcs.map Prod.fst).Nodup)
    (hx : Keyed.lookup Prod.fst rcs x = some (x, rc)) (hrc : rc.Decided) : Final [(x, rc)] rcs where
  decided := by
    intro row hrow
    rw [List.mem_singleton.mp hrow]
    exact hrc
  nodup := hnd
  stored := by
    intro row hrow
    rw [List.mem_singleton.mp hrow]
    exact (Keyed.lookup_mem hx).1

theorem lookup_singleton (h : Final [(x, rc)] rcs') :
    Keyed.lookup Prod.fst rcs' x = some (x, rc) :=
  Keyed.lookup_of_mem h.nodup (h.stored (x, rc) List.mem_cons_self)

theorem of_nil : Final [] ([] : List (NodeId × RepairCandidate)) where
  decided := by simp
  nodup := List.nodup_nil
  stored := by simp

end Final

/-- **A repair decision is final**, on both backends and whatever is requested after it. -/
theorem decisions_final :
    (∀ (db : Db) (adapterKey : Option String) (hs hs' : List Handled) (w w' : World),
      Run g (Step g answers) (World.initial g db adapterKey) hs w → Run g (Step g answers) w hs' w' →
      ∀ (x : NodeId) (rc : RepairCandidate),
        Keyed.lookup Prod.fst w.db.repairCandidates x = some (x, rc) → rc.Decided →
        Keyed.lookup Prod.fst w'.db.repairCandidates x = some (x, rc)) ∧
    ∀ (dumps : Payload → String) (m : Memory) (adapterKey : Option String)
      (reqs reqs' : List Request) (w w' : MemoryWorld),
      Serves g (MemoryStep g dumps answers) (MemoryWorld.initial m adapterKey) reqs w →
      Serves g (MemoryStep g dumps answers) w reqs' w' →
      ∀ (x : NodeId) (rc : RepairCandidate),
        Keyed.lookup Prod.fst w.memory.repairCandidates x = some (x, rc) → rc.Decided →
        Keyed.lookup Prod.fst w'.memory.repairCandidates x = some (x, rc) := by
  refine ⟨?_, ?_⟩
  · intro db adapterKey hs hs' w w' hrun hrun' x rc hx hrc
    have hkeys : (w.db.repairCandidates.map Prod.fst).Nodup := (hrun.final rfl Final.of_nil).nodup
    have hfinal : Final [(x, rc)] w.db.repairCandidates := Final.singleton hkeys hx hrc
    exact (hrun'.final (hrun.saved rfl) hfinal).lookup_singleton
  · intro dumps m adapterKey reqs reqs' w w' hrun hrun' x rc hx hrc
    have hkeys : (w.memory.repairCandidates.map Prod.fst).Nodup := (hrun.final Final.of_nil).nodup
    have hfinal : Final [(x, rc)] w.memory.repairCandidates := Final.singleton hkeys hx hrc
    exact (hrun'.final hfinal).lookup_singleton

/-- An external effect of the rebuilt summary, then a report of it and one of the root. -/
def laterRun : List (Script × Request) :=
  [(openScript "4",
      .declareExternalEffect (some "Bearer admin") "effect-1" "summary-1" "payment"),
    (openScript "5", openReport "summary-1"), (openScript "6", openReport "clean-parent-1")]

/-- The in-memory backend after the requests, from a reset. -/
def openMemory (reqs : List Request) : MemoryWorld :=
  Script.memoryAll openSetup (fun _ => "") (openRun reqs)
    (MemoryWorld.initial { dag := [], quarantineLedger := [] } none)

/-- What is found under the key is `REDUCIBLE`. -/
theorem exists_reducible {rcs : List (NodeId × RepairCandidate)} {x : NodeId}
    (h : (Keyed.lookup Prod.fst rcs x).map (fun row => row.2.disposition) = some .reducible) :
    ∃ rc : RepairCandidate, Keyed.lookup Prod.fst rcs x = some (x, rc) ∧
      rc.disposition = .reducible := by
  obtain ⟨row, hrow, hreducible⟩ := Option.map_eq_some_iff.mp h
  have hkey : row.1 = x := (Keyed.lookup_mem hrow).2
  refine ⟨row.2, ?_, hreducible⟩
  rw [hrow, ← hkey]

/-- The rebuilt summary is not reconsidered. -/
theorem decisions_final_rebuilt :
    (∃ hs w' rc, Run openSetup (Step openSetup Answers.lawful) (openWorld rebuildRequests none) hs w' ∧
      hs.map Handled.request = laterRun.map Prod.snd ∧ rc.disposition = .reducible ∧
      Keyed.lookup Prod.fst w'.db.repairCandidates "summary-1" = some ("summary-1", rc)) ∧
    ∃ w' rc, Serves openSetup (MemoryStep openSetup (fun _ => "") Answers.lawful)
        (openMemory rebuildRequests) (laterRun.map Prod.snd) w' ∧ rc.disposition = .reducible ∧
      Keyed.lookup Prod.fst w'.memory.repairCandidates "summary-1" = some ("summary-1", rc) := by
  refine ⟨?_, ?_⟩
  · obtain ⟨rc, hx, hrc⟩ : ∃ rc : RepairCandidate,
        Keyed.lookup Prod.fst (openWorld rebuildRequests none).db.repairCandidates "summary-1" =
          some ("summary-1", rc) ∧ rc.disposition = .reducible :=
      exists_reducible (by decide +kernel)
    have hdecided : rc.Decided := by
      rw [RepairCandidate.Decided, hrc]
      decide
    obtain ⟨hs, hrun, -⟩ := exists_open_run rebuildRequests none
    obtain ⟨hs', hrun', hreqs⟩ :=
      Script.exists_run openSetup laterRun (openWorld rebuildRequests none)
    exact ⟨hs', _, rc, hrun', hreqs, hrc,
      decisions_final.1 {} none hs hs' _ _ hrun hrun' "summary-1" rc hx hdecided⟩
  · obtain ⟨rc, hx, hrc⟩ : ∃ rc : RepairCandidate,
        Keyed.lookup Prod.fst (openMemory rebuildRequests).memory.repairCandidates "summary-1" =
          some ("summary-1", rc) ∧ rc.disposition = .reducible :=
      exists_reducible (by decide +kernel)
    have hdecided : rc.Decided := by
      rw [RepairCandidate.Decided, hrc]
      decide
    have hserves : Serves openSetup (MemoryStep openSetup (fun _ => "") Answers.lawful)
        (MemoryWorld.initial { dag := [], quarantineLedger := [] } none)
        ((openRun rebuildRequests).map Prod.snd) (openMemory rebuildRequests) :=
      Script.exists_serves _ _
    have hserves' : Serves openSetup (MemoryStep openSetup (fun _ => "") Answers.lawful)
        (openMemory rebuildRequests) (laterRun.map Prod.snd)
        (Script.memoryAll openSetup (fun _ => "") laterRun (openMemory rebuildRequests)) :=
      Script.exists_serves _ _
    exact ⟨_, rc, hserves', hrc, decisions_final.2 (fun _ => "") { dag := [], quarantineLedger := [] }
      none _ _ _ _ hserves hserves' "summary-1" rc hx hdecided⟩

end GovernorGateway
