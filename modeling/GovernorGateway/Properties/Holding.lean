/-
# Who holds a repair candidate

A recovery HOLDS the candidates it has read as pending, each until it stores an outcome for it.
While it holds one it may commit a reconstruction and record the reintegration.

`keeps_attemptReconstruction_holding` is what one recovery does, in terms of what it holds: it
records the reintegration of a candidate it holds, at most once, and nothing can fail between the
record and the outcome.  `Held` is what is true of the tables when several recoveries run, and
`Held.exec` the step that keeps it.
-/
import GovernorGateway.Properties.Finality

namespace GovernorGateway

open Effects

variable {g : Setup} {answers : Answers}

/-! ## 1. One recovery -/

/-- The candidates a recovery holds, and the one whose reintegration it has recorded. -/
structure Holding where
  held : List NodeId := []
  recorded : Option NodeId := none

/-- The pending candidates. -/
def Db.pendingIds (db : Db) : List NodeId :=
  (db.repairCandidates.filter fun row => row.2.disposition = .pendingReconstruction).map Prod.fst

/-- What a recovery holds after a call. -/
def Holding.after (l : Holding) (db : Db) : Store → Holding
  | .getRepairCandidates => { l with held := db.pendingIds }
  | .recordReintegration _ x _ _ => { l with recorded := some x }
  | .updateRepairCandidate x _ | .assignRepairCandidate x _ =>
    { held := l.held.filter (· ≠ x), recorded := none }
  | _ => l

/-- A call of a recovery, on whatever database it finds. -/
def HoldingStep (g : Setup) (answers : Answers) : Trans Call Call.Res Exc Holding
  | .store c, l, r, l' =>
    ∃ db : Db, (db.repairCandidates.map Prod.fst).Nodup ∧ r = (c.exec g db).1 ∧ l' = l.after db c
  | .ext e, l, r, l' => answers e r ∧ l' = l
  | .sync .rollback, _, _, l' => l' = {}
  | _, l, _, l' => l' = l

/-- What a recovery owes the others. -/
def HoldingDuty : Trans Call Call.Res Exc Holding
  | .store .getRepairCandidates, l, _, _ => l.recorded = none
  | .store (.recordReintegration _ x _ _), l, _, _ => x ∈ l.held ∧ l.recorded = none
  | .store (.updateRepairCandidate x rc), l, _, _ =>
    x ∈ l.held ∧ rc.Decided ∧ ∀ y, l.recorded = some y → y = x
  | .store (.assignRepairCandidate _ _), l, _, _ => l.recorded = none
  | .sync _, l, _, _ => l.recorded = none
  | _, _, _, _ => True

/-- Nothing has been recorded that is without an outcome. -/
def Holding.Clear (l : Holding) : Prop := l.recorded = none

/-- Outside reconstruction nothing is recorded and no outcome is stored. -/
theorem keeps_outside {α : Type} {x : Handler α} (hx : x.Uses Call.Outside) :
    Keeps (HoldingStep g answers) HoldingDuty Holding.Clear x fun _ => True := by
  intro l hl
  refine Act.Sat.mono (Prog.Uses.sat (I := Holding.Clear) hx ?_ hl) ?_
  · intro c hc l r l' ht hclear
    cases c with
    | store c =>
      obtain ⟨db, -, -, rfl⟩ := ht
      cases c with
      | recordReintegration y x h t => exact absurd hc (by simp [Call.Outside, Call.kind, Store.kind])
      | updateRepairCandidate x rc => exact absurd hc fun h => h.undecided x rfl
      | assignRepairCandidate x rc => exact absurd hc fun h => h.undecided x rfl
      | getRepairCandidates => exact ⟨hclear, hclear⟩
      | _ => exact ⟨trivial, hclear⟩
    | ext e =>
      obtain ⟨-, rfl⟩ := ht
      exact ⟨trivial, hclear⟩
    | sync k =>
      refine ⟨hclear, ?_⟩
      cases k with
      | rollback =>
        obtain rfl := ht
        rfl
      | _ =>
        obtain rfl := ht
        exact hclear
    | getAdapterKey =>
      obtain rfl := ht
      exact ⟨trivial, hclear⟩
    | setAdapterKey key =>
      obtain rfl := ht
      exact ⟨trivial, hclear⟩
  · rintro (e | a) l' hl'
    · exact hl'
    · exact ⟨hl', trivial⟩

/-! ## 2. One reconstruction -/

/-- The calls that leave a holding as it is. -/
def Call.Steady (c : Call) : Prop :=
  c.kind ∉ [CallKind.reopen, .decision, .assign, .reintegration] ∧
    c ≠ .store .getRepairCandidates ∧ c ≠ .sync .rollback

theorem Call.of_steady {ks : List CallKind} (h : (ks.all fun k =>
    decide (k ∉ [CallKind.tx, .read, .reopen, .decision, .assign, .reintegration])) = true) :
    Call.Of Call.Steady ks := by
  intro c hc
  have hk : c.kind ∉ [CallKind.tx, .read, .reopen, .decision, .assign, .reintegration] :=
    of_decide_eq_true (List.all_eq_true.mp h c.kind hc)
  refine ⟨fun hmem => hk (List.mem_cons_of_mem _ (List.mem_cons_of_mem _ hmem)), ?_, ?_⟩
  · rintro rfl
    exact hk (List.mem_cons_of_mem _ List.mem_cons_self)
  · rintro rfl
    exact hk List.mem_cons_self

/-- While nothing is recorded, they owe nothing either. -/
theorem keeps_steady {α : Type} {l : Holding} (hl : l.Clear) {x : Handler α}
    (hx : x.Uses Call.Steady) :
    Keeps (HoldingStep g answers) HoldingDuty (fun l' => l' = l) x fun _ => True := by
  rintro l' rfl
  refine Act.Sat.mono (Prog.Uses.sat (I := fun l₁ => l₁ = l') hx ?_ rfl) ?_
  · rintro c ⟨hout, hread, hrollback⟩ l₁ r l₂ ht rfl
    cases c with
    | store c =>
      obtain ⟨db, -, -, rfl⟩ := ht
      cases c with
      | recordReintegration y x h t => exact absurd hout (by simp [Call.kind, Store.kind])
      | updateRepairCandidate x rc => exact absurd rfl (Call.undecided_of_kind hout x)
      | assignRepairCandidate x rc => exact absurd rfl (Call.undecided_of_kind hout x)
      | getRepairCandidates => exact absurd rfl hread
      | _ => exact ⟨trivial, rfl⟩
    | ext e => exact ⟨trivial, ht.2⟩
    | sync k =>
      refine ⟨hl, ?_⟩
      cases k with
      | rollback => exact absurd rfl hrollback
      | _ => exact ht
    | getAdapterKey => exact ⟨trivial, ht⟩
    | setAdapterKey key => exact ⟨trivial, ht⟩
  · rintro (e | a) l₁ h₁
    · exact h₁
    · exact ⟨h₁, trivial⟩

/-- The holding once the outcome of `x` is stored. -/
def Holding.done (l : Holding) (x : NodeId) : Holding :=
  { held := l.held.filter (· ≠ x), recorded := none }

/-- A part in front of the rest that leaves the holding as it is. -/
theorem holding_bind {α β : Type} {l : Holding} (hl : l.Clear) {x : Handler α} {f : α → Handler β}
    {Q : Except Exc β → Holding → Prop} (hx : x.Uses Call.Steady)
    (hok : ∀ a, Act.Sat (HoldingStep g answers) HoldingDuty (f a) Q l)
    (herr : ∀ e, Q (.error e) l) :
    Act.Sat (HoldingStep g answers) HoldingDuty (x >>= f) Q l := by
  rw [Act.sat_bind]
  refine (keeps_steady hl hx l rfl).mono ?_
  rintro (e | a) l' h
  · obtain rfl := h
    exact herr e
  · obtain rfl := h.1
    exact hok a

/-- One reconstruction: the outcome is stored, or an exception left everything as it was. -/
def Settles (l : Holding) (x : NodeId) : Except Exc Unit → Holding → Prop :=
  onOk (fun _ l' => l' = l.done x) fun _ l' => l' = l

section Settle

variable {l : Holding} {x : NodeId} {rc : RepairCandidate}

/-- A decided outcome is stored. -/
theorem holding_update (hx : x ∈ l.held) (hrecorded : ∀ y, l.recorded = some y → y = x)
    (hrc : rc.Decided) (e : Holding) :
    Act.Sat (HoldingStep g answers) HoldingDuty (store (.updateRepairCandidate x rc))
      (onOk (fun _ l' => l' = l.done x) fun _ l' => l' = e) l := by
  rintro r l' ⟨db, -, rfl, rfl⟩
  exact ⟨⟨hx, hrc, hrecorded⟩, rfl⟩

theorem holding_giveUp (hl : l.Clear) (hx : x ∈ l.held) (reason : String) :
    Act.Sat (HoldingStep g answers) HoldingDuty (giveUp x rc reason) (Settles l x) l := by
  refine holding_update hx (fun y hy => ?_) (by simp [RepairCandidate.Decided]) l
  rw [hl] at hy
  exact absurd hy (by simp)

/-- **The reintegration.**  From the record to the outcome nothing fails. -/
theorem holding_reintegrate (hlaw : answers.Lawful) (hl : l.Clear) (hx : x ∈ l.held) (c : Payload) :
    Act.Sat (HoldingStep g answers) HoldingDuty (reintegrate g x rc c) (Settles l x) l := by
  have hdigest : (store .computeStateDigest).Uses Call.Steady :=
    (Act.uses_perform (R := Call.Res) _).mpr ⟨by decide, by simp, by simp⟩
  refine holding_bind hl (uses_gateEvidence (Call.of_steady rfl)) (fun evidence => ?_) fun _ => rfl
  refine holding_bind hl hdigest (fun pre => ?_) fun _ => rfl
  refine holding_bind hl (uses_commitShared (Call.of_steady rfl) c) (fun _ => ?_) fun _ => rfl
  refine holding_bind hl hdigest (fun post => ?_) fun _ => rfl
  have hext : Call.Of Call.Steady [.ext] := Call.of_steady rfl
  refine holding_bind hl (uses_ext hext _ rfl) (fun t => ?_) fun _ => rfl
  rw [Act.sat_bind]
  rintro r l₁ ⟨db, -, rfl, rfl⟩
  refine ⟨⟨hx, hl⟩, ?_⟩
  -- the clock answers, and the store functions do not fail
  change Act.Sat _ _ (stampNow >>= _) _ _
  rw [Act.sat_bind, stampNow, Act.sat_bind]
  rintro r l₂ ⟨hanswer, rfl⟩
  obtain ⟨t', rfl⟩ := hlaw _ _ hanswer
  refine ⟨trivial, ?_⟩
  change Act.Sat _ _ (store (.recordReintegrationEvidence _) >>= _) _ _
  rw [Act.sat_bind]
  rintro r l₃ ⟨db', -, rfl, rfl⟩
  refine ⟨trivial, ?_⟩
  refine holding_update (l := { l with recorded := some x }) hx (fun y hy => ?_)
    (by simp [RepairCandidate.Decided]) l
  exact (Option.some.inj hy).symm

/-- The checks on a candidate. -/
theorem holding_gate (hlaw : answers.Lawful) (hl : l.Clear) (hx : x ∈ l.held)
    (c : Option Payload) :
    Act.Sat (HoldingStep g answers) HoldingDuty (gate g x rc c) (Settles l x) l := by
  cases c with
  | none => exact holding_giveUp hl hx _
  | some c =>
    by_cases hsig : (!verifyCryptographicSignature g.env c) = true
    · simp only [gate, hsig, if_true]
      exact holding_giveUp hl hx _
    · simp only [gate, hsig]
      refine holding_bind (Q := Settles l x) hl (uses_getAdapterKey (Call.of_steady rfl))
        (fun key => ?_) fun _ => Eq.refl l
      split
      · exact holding_giveUp hl hx _
      · split
        · exact holding_giveUp hl hx _
        · exact holding_reintegrate hlaw hl hx c

theorem holding_reconstructPending (hlaw : answers.Lawful) (hl : l.Clear) (hx : x ∈ l.held)
    (root : NodeId) (cache : List (NodeId × Payload) × List NodeId) :
    Act.Sat (HoldingStep g answers) HoldingDuty (reconstructPending g root x rc cache)
      (Settles l x) l := by
  have hA : Call.Of Call.Steady [.ext, .adapter, .setKey] := Call.of_steady rfl
  unfold reconstructPending
  split
  · rfl
  · refine holding_bind (Q := Settles l x) hl ?_ (fun c => holding_gate hlaw hl hx c)
      fun _ => Eq.refl l
    unfold reconstructionCandidate
    split
    · exact uses_ext hA _ rfl
    · refine Act.uses_bind ?_ fun _ => Act.uses_pure _
      exact Act.uses_bind (uses_ext hA _ rfl) fun key => Act.uses_bind (uses_ext hA _ rfl) fun _ =>
        Act.uses_bind (uses_ext hA _ rfl) fun _ =>
          Act.uses_bind (uses_setAdapterKey (hA.sub rfl) key) fun _ => Act.uses_pure _

/-- The candidate is let go when reconstruction fails. -/
theorem holding_assignFailure (hl : l.Clear) (e : Exc) :
    Act.Sat (HoldingStep g answers) HoldingDuty (assignFailure x rc e)
      (onOk (fun _ l' => l' = l.done x) fun _ _ => False) l := by
  rintro r l' ⟨db, -, rfl, rfl⟩
  exact ⟨hl, rfl⟩

/-- The graph is read, or it is not. -/
theorem holding_cached (hl : l.Clear)
    (cache : Option (List (NodeId × Payload) × List NodeId)) :
    Act.Sat (HoldingStep g answers) HoldingDuty (cached cache)
      (onOk (fun _ l' => l' = l) fun _ _ => False) l := by
  have hread : ∀ c : Store, c = .getDag ∨ c = .getQuarantineLedger →
      (store c).Uses Call.Steady := by
    rintro c (rfl | rfl)
    · exact (Act.uses_perform (R := Call.Res) _).mpr ⟨by decide, by simp, by simp⟩
    · exact (Act.uses_perform (R := Call.Res) _).mpr ⟨by decide, by simp, by simp⟩
  cases cache with
  | some c => rfl
  | none =>
    have hcache : readCache.Uses Call.Steady := Act.uses_bind (hread _ (Or.inl rfl)) fun _ =>
      Act.uses_bind (hread _ (Or.inr rfl)) fun _ => Act.uses_pure _
    rw [cached, Act.sat_attempt]
    refine (keeps_steady hl hcache l rfl).mono ?_
    rintro (e | a) l' h'
    · exact h'
    · exact h'.1

/-- **One round.**  A candidate that is held is let go, one that is not pending is passed over. -/
theorem holding_reconstructOne (hlaw : answers.Lawful) (hl : l.Clear) (root : NodeId)
    (cache : Option (List (NodeId × Payload) × List NodeId)) (row : NodeId × RepairCandidate)
    (hrow : row.2.disposition = .pendingReconstruction → row.1 ∈ l.held) :
    Act.Sat (HoldingStep g answers) HoldingDuty (reconstructOne g root cache row)
      (onOk (fun _ l' => l' = l ∨ l' = l.done row.1) fun _ _ => False) l := by
  have hfailure : ∀ e (cache' : Option (List (NodeId × Payload) × List NodeId)),
      Act.Sat (HoldingStep g answers) HoldingDuty
        (assignFailure row.1 row.2 e >>= fun _ => pure cache')
        (onOk (fun _ l' => l' = l ∨ l' = l.done row.1) fun _ _ => False) l := by
    intro e cache'
    rw [Act.sat_bind]
    refine (holding_assignFailure hl e).mono ?_
    rintro (e' | a) l' h'
    · exact h'.elim
    · exact Or.inr h'
  unfold reconstructOne
  split
  · exact Or.inl rfl
  · rename_i hpending
    have hx : row.1 ∈ l.held := hrow (not_not.mp hpending)
    rw [Act.sat_bind]
    refine (holding_cached hl cache).mono ?_
    rintro (e | read) l' h'
    · exact h'.elim
    obtain rfl : l' = l := h'
    cases read with
    | error e => exact hfailure e none
    | ok c =>
      change Act.Sat _ _ ((reconstructPending g root row.1 row.2 c).attempt >>= _) _ _
      rw [Act.sat_bind, Act.sat_attempt]
      refine (holding_reconstructPending hlaw hl hx root c).mono ?_
      rintro (e | u) l₁ h₁
      · obtain rfl : l₁ = l' := h₁
        exact hfailure e (some c)
      · exact Or.inr h₁

/-- **The loop.**  The rows have different keys, so letting one go keeps the others. -/
theorem holding_fold (hlaw : answers.Lawful) (root : NodeId) :
    ∀ (rows : List (NodeId × RepairCandidate))
      (cache : Option (List (NodeId × Payload) × List NodeId)) (l : Holding), l.Clear →
      (rows.map Prod.fst).Nodup →
      (∀ row ∈ rows, row.2.disposition = .pendingReconstruction → row.1 ∈ l.held) →
      Act.Sat (HoldingStep g answers) HoldingDuty (Act.fold (reconstructOne g root) rows cache)
        (fun _ l' => l'.Clear) l
  | [], _, _, hl, _, _ => hl
  | row :: rows, cache, l, hl, hnd, hrows => by
    obtain ⟨hrow, hnd⟩ := List.nodup_cons.mp hnd
    rw [Act.fold, Act.sat_bind]
    refine (holding_reconstructOne hlaw hl root cache row (hrows row List.mem_cons_self)).mono ?_
    rintro (e | cache') l' h'
    · exact h'.elim
    · have hl' : l'.Clear := by
        rcases h' with rfl | rfl
        · exact hl
        · rfl
      refine holding_fold hlaw root rows cache' l' hl' hnd fun row' hrow' hp => ?_
      have hheld : row'.1 ∈ l.held := hrows row' (List.mem_cons_of_mem _ hrow') hp
      rcases h' with rfl | rfl
      · exact hheld
      · refine List.mem_filter.mpr ⟨hheld, decide_eq_true fun heq => hrow ?_⟩
        rw [← heq]
        exact List.mem_map_of_mem hrow'

/-- **One recovery.** -/
theorem keeps_attemptReconstruction_holding (hlaw : answers.Lawful) (root : NodeId) :
    Keeps (HoldingStep g answers) HoldingDuty Holding.Clear (attemptReconstruction g root)
      fun _ => True := by
  intro l hl
  rw [attemptReconstruction, Act.sat_bind]
  rintro r l₁ ⟨db, hnd, rfl, rfl⟩
  refine ⟨hl, ?_⟩
  change Act.Sat _ _ (Act.fold (reconstructOne g root) db.repairCandidates none >>= _) _ _
  rw [Act.sat_bind]
  refine (holding_fold hlaw root db.repairCandidates none (l.after db .getRepairCandidates) hl hnd
    fun row hrow hp => ?_).mono ?_
  · exact List.mem_map_of_mem (List.mem_filter.mpr ⟨hrow, decide_eq_true hp⟩)
  · rintro (e | a) l' hl'
    · exact hl'
    · exact ⟨hl', trivial⟩

end Settle

/-! ## 3. The tables -/

/-- The candidate has a decided record. -/
def Db.Resolved (db : Db) (x : NodeId) : Prop := ∃ rc, (x, rc) ∈ db.repairCandidates ∧ rc.Decided

theorem Db.mem_pendingIds {db : Db} {x : NodeId} : x ∈ db.pendingIds ↔
    ∃ rc, (x, rc) ∈ db.repairCandidates ∧ rc.disposition = .pendingReconstruction := by
  simp [pendingIds]

/-- A pending record is not a decided one: there is one record for each key. -/
theorem Db.Resolved.notMem_pendingIds {db : Db} {x : NodeId}
    (hnd : (db.repairCandidates.map Prod.fst).Nodup) (h : db.Resolved x) : x ∉ db.pendingIds := by
  intro hx
  obtain ⟨rc, hrc, hdecided⟩ := h
  obtain ⟨rc', hrc', hpending⟩ := Db.mem_pendingIds.mp hx
  have heq := List.inj_on_of_nodup_map hnd hrc hrc' rfl
  rw [(Prod.mk.inj heq).2] at hdecided
  exact hdecided hpending

/-- No horizon is new, and what is decided stays so. -/
structure Db.Kept (db db' : Db) : Prop where
  keys : (db.repairCandidates.map Prod.fst).Nodup → (db'.repairCandidates.map Prod.fst).Nodup
  resolved : ∀ x, (db.repairCandidates.map Prod.fst).Nodup → db.Resolved x → db'.Resolved x
  horizon : ∀ h' ∈ db'.reintegrationHorizon, ∃ h ∈ db.reintegrationHorizon,
    h.nodeId = h'.nodeId ∧ h.predecessorId = h'.predecessorId

theorem Db.Kept.of_eq {db db' : Db} (hrcs : db'.repairCandidates = db.repairCandidates)
    (hhorizon : db'.reintegrationHorizon = db.reintegrationHorizon) : Db.Kept db db' where
  keys := by
    rw [hrcs]
    exact id
  resolved := by
    intro x _ hx
    rw [Db.Resolved, hrcs]
    exact hx
  horizon := by
    rw [hhorizon]
    exact fun h hh => ⟨h, hh, rfl, rfl⟩

/-- The traversal classifies what is not decided. -/
theorem Db.kept_computeBlastRadius (D : Int) (root : NodeId) (db : Db) :
    Db.Kept db (db.computeBlastRadius D root).2 where
  keys := fun hnd => by
    have hfinal : Final [] db.repairCandidates := ⟨by simp, hnd, by simp⟩
    exact (Db.final_classifyAll _ _ _ db hfinal).nodup
  resolved := by
    rintro x hnd ⟨rc, hrc, hdecided⟩
    have hfinal : Final [(x, rc)] db.repairCandidates :=
      Final.singleton hnd (Keyed.lookup_of_mem hnd hrc) hdecided
    exact ⟨rc, (Db.final_classifyAll _ _ _ db hfinal).stored _ List.mem_cons_self, hdecided⟩
  horizon := by
    obtain ⟨rcs, hrcs⟩ := Db.computeBlastRadius_snd D root db
    rw [hrcs]
    exact fun h hh => ⟨h, hh, rfl, rfl⟩

/-- The calls that record a reintegration or store an outcome. -/
def Store.Records : Store → Prop
  | .recordReintegration _ _ _ _ => True
  | .updateRepairCandidate _ _ => True
  | _ => False

theorem Store.kept (g : Setup) {c : Store} (hc : ¬ c.Records) (db : Db) :
    Db.Kept db (c.exec g db).2 := by
  cases c with
  | recordReintegration x y h t => exact absurd trivial hc
  | updateRepairCandidate x rc => exact absurd trivial hc
  | computeBlastRadius root => exact Db.kept_computeBlastRadius _ root db
  | recordShadowDecision d =>
    simp only [Store.exec, Db.recordShadowDecision]
    split <;> exact .of_eq rfl rfl
  | renewTrust x horizon now =>
    refine ⟨id, fun _ _ h => h, fun h' hh' => ?_⟩
    obtain ⟨h, hh, rfl⟩ := List.mem_map.mp hh'
    refine ⟨h, hh, ?_⟩
    split
    · exact ⟨rfl, rfl⟩
    · exact ⟨rfl, rfl⟩
  | _ => exact .of_eq rfl rfl

/-- What is true of the tables while tasks hold candidates: no candidate is held twice, a candidate
whose reintegration is recorded is decided or about to be, and it has one reconstruction. -/
structure Held {ι : Type} (db : Db) (l : ι → Holding) : Prop where
  keys : (db.repairCandidates.map Prod.fst).Nodup
  apart : ∀ i j x, x ∈ (l i).held → x ∈ (l j).held → i = j
  recorded : ∀ i x, (l i).recorded = some x → x ∈ (l i).held
  resolved : ∀ h ∈ db.reintegrationHorizon, db.Resolved h.predecessorId ∨
    ∃ i, (l i).recorded = some h.predecessorId
  unrecorded : ∀ i, ∀ x ∈ (l i).held, (l i).recorded ≠ some x →
    ∀ h ∈ db.reintegrationHorizon, h.predecessorId ≠ x
  one : ∀ h ∈ db.reintegrationHorizon, ∀ h' ∈ db.reintegrationHorizon,
    h.predecessorId = h'.predecessorId → h.nodeId = h'.nodeId

namespace Held

variable {ι : Type} {db db' : Db} {l : ι → Holding}

/-- Nobody else holds what the task `i` holds. -/
theorem apart_of_held (h : Held db l) {i : ι} {x : NodeId} (hx : x ∈ (l i).held) {j : ι}
    (hj : j ≠ i) : x ∉ (l j).held :=
  fun hxj => hj (h.apart j i x hxj hx)

/-- When nothing is recorded without an outcome, nothing needs to be held. -/
theorem rest {κ : Type} (h : Held db l) (hclear : ∀ i, (l i).Clear) :
    Held db fun _ : κ => ({} : Holding) where
  keys := h.keys
  apart := by simp
  recorded := by simp
  resolved := by
    intro r hr
    refine Or.inl ((h.resolved r hr).resolve_right ?_)
    rintro ⟨i, hi⟩
    rw [hclear i] at hi
    exact absurd hi (by simp)
  unrecorded := by simp
  one := h.one

theorem kept (h : Held db l) (hk : Db.Kept db db') : Held db' l where
  keys := hk.keys h.keys
  apart := h.apart
  recorded := h.recorded
  resolved := by
    intro r hr
    obtain ⟨r', hr', -, hpred⟩ := hk.horizon r hr
    rw [← hpred]
    exact (h.resolved r' hr').imp_left (hk.resolved _ h.keys)
  unrecorded := by
    intro i x hx hne r hr
    obtain ⟨r', hr', -, hpred⟩ := hk.horizon r hr
    rw [← hpred]
    exact h.unrecorded i x hx hne r' hr'
  one := by
    intro r₁ hr₁ r₂ hr₂ heq
    obtain ⟨r₁', hr₁', hid₁, hpred₁⟩ := hk.horizon r₁ hr₁
    obtain ⟨r₂', hr₂', hid₂, hpred₂⟩ := hk.horizon r₂ hr₂
    rw [← hid₁, ← hid₂]
    exact h.one r₁' hr₁' r₂' hr₂' (by rw [hpred₁, hpred₂, heq])

variable [DecidableEq ι]

/-- What holds of the task `i`, and of the others as they were. -/
theorem update_cases {P : ι → Holding → Prop} {i : ι} {l' : Holding} (hi : P i l')
    (hj : ∀ j, j ≠ i → P j (l j)) (j : ι) : P j (Function.update l i l' j) := by
  by_cases h : j = i
  · subst h
    rwa [Function.update_self]
  · rw [Function.update_of_ne h]
    exact hj j h

/-- The task `i` holds something else, none of which another one holds. -/
theorem apart_update (h : Held db l) {i : ι} {l' : Holding}
    (hl' : ∀ x ∈ l'.held, ∀ j, j ≠ i → x ∉ (l j).held) :
    ∀ j k x, x ∈ (Function.update l i l' j).held → x ∈ (Function.update l i l' k).held →
      j = k := by
  intro j k x hj hk
  by_cases hji : j = i
  · by_cases hki : k = i
    · rw [hji, hki]
    · rw [hji, Function.update_self] at hj
      rw [Function.update_of_ne hki] at hk
      exact absurd hk (hl' x hj k hki)
  · by_cases hki : k = i
    · rw [hki, Function.update_self] at hk
      rw [Function.update_of_ne hji] at hj
      exact absurd hj (hl' x hk j hji)
    · rw [Function.update_of_ne hji] at hj
      rw [Function.update_of_ne hki] at hk
      exact h.apart j k x hj hk

/-- A record that is not the one of task `i` is still there when `i` changes. -/
theorem recorded_update {i : ι} {l' : Holding} {x : NodeId} (hx : ∃ j, (l j).recorded = some x)
    (hi : (l i).recorded ≠ some x ∨ l'.recorded = some x) :
    ∃ j, (Function.update l i l' j).recorded = some x := by
  obtain ⟨j, hj⟩ := hx
  by_cases hji : j = i
  · subst hji
    refine ⟨j, ?_⟩
    rw [Function.update_self]
    exact hi.resolve_left (not_not_intro hj)
  · exact ⟨j, by rwa [Function.update_of_ne hji]⟩

/-- **A task reads the pending candidates**, none of which another one holds. -/
theorem read (h : Held db l) {i : ι} (hclear : (l i).recorded = none)
    (hfree : ∀ j, j ≠ i → ∀ x ∈ (l j).held, x ∉ db.pendingIds) :
    Held db (Function.update l i { l i with held := db.pendingIds }) where
  keys := h.keys
  apart := h.apart_update fun x hx j hj hxj => hfree j hj x hxj hx
  recorded := by
    refine update_cases (P := fun _ m => ∀ x, m.recorded = some x → x ∈ m.held) ?_
      fun j _ => h.recorded j
    intro x hx
    exact absurd (hclear.symm.trans hx) (by simp)
  resolved := by
    intro r hr
    refine (h.resolved r hr).imp_right fun hrec => recorded_update hrec (Or.inl ?_)
    rw [hclear]
    simp
  unrecorded := by
    refine update_cases (P := fun _ m => ∀ x ∈ m.held, m.recorded ≠ some x →
      ∀ r ∈ db.reintegrationHorizon, r.predecessorId ≠ x) ?_ fun j _ => h.unrecorded j
    rintro x hx - r hr rfl
    rcases h.resolved r hr with hresolved | ⟨j, hj⟩
    · exact hresolved.notMem_pendingIds h.keys hx
    · have hji : j ≠ i := by
        rintro rfl
        rw [hclear] at hj
        exact absurd hj (by simp)
      exact hfree j hji _ (h.recorded j _ hj) hx
  one := h.one

/-- **A task records the reintegration** of a candidate it holds: nobody has recorded one before. -/
theorem record (h : Held db l) {i : ι} {x : NodeId} (hx : x ∈ (l i).held)
    (hclear : (l i).recorded = none) (n : NodeId) (horizon : ℕ) (t : Time) :
    Held (db.recordReintegration n x horizon t)
      (Function.update l i { l i with recorded := some x }) := by
  have hnone : ∀ r ∈ db.reintegrationHorizon, r.predecessorId ≠ x :=
    h.unrecorded i x hx (by rw [hclear]; simp)
  have hrow : ∀ r ∈ (db.recordReintegration n x horizon t).reintegrationHorizon,
      r ∈ db.reintegrationHorizon ∨ (r.nodeId = n ∧ r.predecessorId = x) := by
    intro r hr
    rcases Keyed.mem_insertOrReplace.mp hr with ⟨hr, -⟩ | rfl
    · exact Or.inl hr
    · exact Or.inr ⟨rfl, rfl⟩
  refine ⟨h.keys, h.apart_update fun y hy j hj => h.apart_of_held hy hj, ?_, ?_, ?_, ?_⟩
  · refine update_cases (P := fun _ m => ∀ y, m.recorded = some y → y ∈ m.held) ?_
      fun j _ => h.recorded j
    intro y hy
    rw [← Option.some.inj hy]
    exact hx
  · intro r hr
    rcases hrow r hr with hr | ⟨-, hpred⟩
    · refine (h.resolved r hr).imp id fun hrec => recorded_update hrec (Or.inl ?_)
      rw [hclear]
      simp
    · exact Or.inr ⟨i, by rw [Function.update_self, hpred]⟩
  · refine update_cases (P := fun _ m => ∀ y ∈ m.held, m.recorded ≠ some y →
      ∀ r ∈ (db.recordReintegration n x horizon t).reintegrationHorizon, r.predecessorId ≠ y)
      ?_ fun j hj => ?_
    · intro y hy hne r hr
      rcases hrow r hr with hr | ⟨-, hpred⟩
      · exact h.unrecorded i y hy (by rw [hclear]; simp) r hr
      · rw [hpred]
        rintro rfl
        exact hne rfl
    · intro y hy hne r hr
      rcases hrow r hr with hr | ⟨-, hpred⟩
      · exact h.unrecorded j y hy hne r hr
      · rw [hpred]
        rintro rfl
        exact h.apart_of_held hx hj hy
  · intro r₁ hr₁ r₂ hr₂ heq
    rcases hrow r₁ hr₁ with hr₁ | ⟨hid₁, hpred₁⟩
    · rcases hrow r₂ hr₂ with hr₂ | ⟨-, hpred₂⟩
      · exact h.one r₁ hr₁ r₂ hr₂ heq
      · exact absurd (heq.trans hpred₂) (hnone r₁ hr₁)
    · rcases hrow r₂ hr₂ with hr₂ | ⟨hid₂, -⟩
      · exact absurd (heq.symm.trans hpred₁) (hnone r₂ hr₂)
      · rw [hid₁, hid₂]

/-- A candidate that is let go is not held any more, and nothing else changes. -/
theorem mem_done {m : Holding} {x y : NodeId} : y ∈ (m.done x).held ↔ y ∈ m.held ∧ y ≠ x := by
  simp [Holding.done]

/-- **A task lets go** of a candidate: what it has recorded, if anything, is decided. -/
theorem release (h : Held db l) {i : ι} (x : NodeId)
    (hrecorded : ∀ y, (l i).recorded = some y → y = x ∧ db.Resolved x) :
    Held db (Function.update l i ((l i).done x)) where
  keys := h.keys
  apart := h.apart_update fun y hy j hj => h.apart_of_held (mem_done.mp hy).1 hj
  recorded := by
    refine update_cases (P := fun _ m => ∀ y, m.recorded = some y → y ∈ m.held) ?_
      fun j _ => h.recorded j
    intro y hy
    exact absurd hy (by simp [Holding.done])
  resolved := by
    intro r hr
    rcases h.resolved r hr with hresolved | hrec
    · exact Or.inl hresolved
    · by_cases hi : (l i).recorded = some r.predecessorId
      · obtain ⟨heq, hresolved⟩ := hrecorded _ hi
        rw [heq]
        exact Or.inl hresolved
      · exact Or.inr (recorded_update hrec (Or.inl hi))
  unrecorded := by
    refine update_cases (P := fun _ m => ∀ y ∈ m.held, m.recorded ≠ some y →
      ∀ r ∈ db.reintegrationHorizon, r.predecessorId ≠ y) ?_ fun j _ => h.unrecorded j
    intro y hy _ r hr
    obtain ⟨hy, hne⟩ := mem_done.mp hy
    exact h.unrecorded i y hy (fun hrec => hne (hrecorded y hrec).1) r hr
  one := h.one

/-- **A task stores an outcome.** -/
theorem settle (h : Held db l) {i : ι} {x : NodeId}
    (hrecorded : ∀ y, (l i).recorded = some y → y = x) {rc : RepairCandidate} (hrc : rc.Decided) :
    Held (db.setRepairCandidate x rc) (Function.update l i ((l i).done x)) := by
  have hx : (db.setRepairCandidate x rc).Resolved x :=
    ⟨rc, Keyed.mem_insertOrReplace.mpr (Or.inr rfl), hrc⟩
  have hkept : Db.Kept db (db.setRepairCandidate x rc) := by
    refine ⟨Keyed.nodup_insertOrReplace, ?_, fun r hr => ⟨r, hr, rfl, rfl⟩⟩
    rintro y - ⟨rc', hrc', hdecided⟩
    by_cases hyx : y = x
    · rw [hyx]
      exact hx
    · exact ⟨rc', Keyed.mem_insertOrReplace.mpr (Or.inl ⟨hrc', hyx⟩), hdecided⟩
  exact (h.kept hkept).release x fun y hy => ⟨hrecorded y hy, hx⟩

/-- **A call of a task that does its duty**, if it reads as pending nothing that another one
holds. -/
theorem exec (h : Held db l) (g : Setup) {i : ι} {c : Store} {r : Except Exc c.Res} {l' : Holding}
    (hduty : HoldingDuty (.store c) (l i) r l')
    (hfree : c = .getRepairCandidates → ∀ j, j ≠ i → ∀ x ∈ (l j).held, x ∉ db.pendingIds) :
    Held (c.exec g db).2 (Function.update l i ((l i).after db c)) := by
  have hquiet : ¬ c.Records → (l i).after db c = l i →
      Held (c.exec g db).2 (Function.update l i ((l i).after db c)) := by
    intro hc hsame
    rw [hsame, Function.update_eq_self]
    exact h.kept (Store.kept g hc db)
  cases c with
  | getRepairCandidates => exact h.read hduty (hfree rfl)
  | recordReintegration n x horizon t => exact h.record hduty.1 hduty.2 n horizon t
  | updateRepairCandidate x rc => exact h.settle hduty.2.2 hduty.2.1
  | assignRepairCandidate x rc =>
    refine h.release x fun y hy => ?_
    have hclear : (l i).recorded = none := hduty
    rw [hclear] at hy
    exact absurd hy (by simp)
  | _ => exact hquiet id rfl

end Held

end GovernorGateway
