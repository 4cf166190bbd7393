/-
# Handlers that run together

The shared state is the database, the adapter key, the admission lock and the transaction that is
open, if one is.  `TaskStep` is what one call of one task does to it:

* `BEGIN IMMEDIATE` takes SQLite's write lock, so at most one transaction is open; it works on a
  copy that its `COMMIT` puts in the place of the database;
* while it is open, other tasks read the database as it was committed, and what would change it
  waits, or gives up when the busy timeout has passed (`databaseLocked`);
* a task waits for the admission lock by making no step;
* a call of the store is ONE step, and what it wrote is committed.  Outside a transaction the code
  runs the statements of the call one by one, on a connection that all handlers share: another
  task's commit may come between two of them, and a read may leave a transaction open there.  That
  level is `Sqlite/Statements.lean`.

Sections 2 and 3 are the view of one task (`Loc`): the lock it holds, the transaction it has open,
and what it knows of the database otherwise.  `tasks_invariant` is the rule of
`Effects/Interleave.lean` for these views: verify each handler ALONE over `LocalStep`, with the
duties of `Duty`, and the invariant holds in every state of every interleaving.
-/
import GovernorGateway.Concurrency.AdmissionLock
import GovernorGateway.Effects.Interleave
import GovernorGateway.Semantics.World

namespace GovernorGateway

open Effects

/-! ## 1. The shared state -/

structure Gateway (ι : Type) where
  db : Db
  adapterKey : Option String := none
  lock : AdmissionLock := {}
  /-- The task whose transaction is open, and its copy of the database. -/
  tx : Option (ι × Db) := none

/-- `sqlite3.OperationalError`, when the busy timeout has passed. -/
def databaseLocked : Exc := .other "database is locked"

/-- The store functions that never ask for SQLite's write lock. -/
def Store.readOnly : Store → Bool
  | .getDag | .getQuarantineLedger | .getRepairCandidates | .getCheckpoints
  | .getSubstituteDeclarations | .nodesExist _ | .areQuarantined _ | .getNodeContentHashes _
  | .computeCoversIntervalGap _ | .computeQuarantineDigest _ | .computeStateDigest
  | .getCriticalDependents _ | .findContinuityReplacement _ | .getActiveHorizonSet _
  | .countRecentSignals _ _ | .countRecentSignalsGlobal _ => true
  | _ => false

/-- `commit_node`, the one call by which a task outside a transaction stores a node. -/
def Store.commits : Store → Bool
  | .commitNode _ _ => true
  | _ => false

variable {ι : Type} [DecidableEq ι]

/-- What a task sees of the database: its own copy inside its transaction, else what is
committed. -/
structure View where
  inTx : Bool
  db : Db

def Gateway.view (s : Gateway ι) (i : ι) : View :=
  match s.tx with
  | none => ⟨false, s.db⟩
  | some (j, d) => if j = i then ⟨true, d⟩ else ⟨false, s.db⟩

/-- One call of task `i`. -/
def TaskStep (g : Setup) (answers : Answers) (i : ι) : Trans Call Call.Res Exc (Gateway ι)
  | .store c, s, r, s' =>
    match s.tx with
    | none => r = (c.exec g s.db).1 ∧ s' = { s with db := (c.exec g s.db).2 }
    | some (j, d) =>
      if j = i then r = (c.exec g d).1 ∧ s' = { s with tx := some (i, (c.exec g d).2) }
      else
        s' = s ∧ ((r = (c.exec g s.db).1 ∧ (c.exec g s.db).2 = s.db) ∨
          (c.readOnly = false ∧ r = .error databaseLocked))
  | .ext e, s, r, s' => answers e r ∧ s' = s
  | .getAdapterKey, s, r, s' => r = .ok s.adapterKey ∧ s' = s
  | .setAdapterKey key, s, r, s' => r = .ok () ∧ s' = { s with adapterKey := some key }
  | .sync .begin, s, r, s' =>
    (s.tx = none ∧ r = .ok () ∧ s' = { s with tx := some (i, s.db) }) ∨
      (s.tx.isSome ∧ r = .error databaseLocked ∧ s' = s)
  | .sync .commit, s, r, s' =>
    ∃ d, s.tx = some (i, d) ∧ r = .ok () ∧ s' = { s with db := d, tx := none }
  | .sync .rollback, s, r, s' =>
    ∃ d, s.tx = some (i, d) ∧ r = .ok () ∧ s' = { s with tx := none }
  | .sync k, s, r, s' => ∃ l, s.lock.sync k = some l ∧ r = .ok () ∧ s' = { s with lock := l }

/-- A condition on the calls of a run, in terms of what their task sees. -/
abbrev Condition := (c : Call) → View → Except Exc c.Res → Prop

/-- The steps whose calls meet the condition. -/
def TaskStepOn (g : Setup) (answers : Answers) (Ok : Condition) (i : ι) :
    Trans Call Call.Res Exc (Gateway ι) :=
  fun c s r s' => TaskStep g answers i c s r s' ∧ Ok c (s.view i) r

/-- The handlers of some requests, none of which has started. -/
def Gateway.serve (g : Setup) (req : ι → Request) (s : Gateway ι) :
    Pool ι Call Call.Res Exc (Gateway ι) (Except Exc Response) :=
  ⟨s, fun i => ((req i).handle g).tree⟩

/-! ## 2. The view of one task -/

/-- The side of the admission lock a task holds.  Under the exclusive side it knows the lineage:
nobody else writes it. -/
inductive Side where
  | outside
  | shared
  | waiting
  | exclusive (L : Lineage)

def Side.role : Side → Role
  | .outside => .idle
  | .shared => .reader
  | .waiting => .waiting
  | .exclusive _ => .writer

/-- What a task knows of itself: its side, the database its transaction started from with its copy,
and whether it has yet to write. -/
structure Loc where
  side : Side := .outside
  tx : Option (Db × Db) := none
  fresh : Bool := true

namespace Loc

/-- The databases the task can be looking at, when `J` holds of what is committed and `F` of its
lineage. -/
def Sees (J : Db → Prop) (F : Bool → Lineage → Prop) (l : Loc) (v : View) : Prop :=
  match l.tx with
  | some (_, d) => v = ⟨true, d⟩
  | none => v.inTx = false ∧ J v.db ∧ F l.fresh v.db.toLineage ∧
      ∀ L, l.side = .exclusive L → v.db.toLineage = L

/-- The task after a call of the store that leaves the database `d`. -/
def wrote (l : Loc) (c : Store) (d : Db) : Loc :=
  match l.tx with
  | some (d₀, _) => { l with tx := some (d₀, d) }
  | none =>
    { l with
      side := match l.side with
        | .exclusive _ => .exclusive d.toLineage
        | side => side
      fresh := l.fresh && !c.commits }

/-- The task after a call of the lock or of a transaction, `d` being what it sees.  There is none
when the call is out of place. -/
def next (d : Db) : Sync → Loc → Option Loc
  | .enterShared, ⟨.outside, none, b⟩ => some ⟨.shared, none, b⟩
  | .leaveShared, ⟨.shared, none, b⟩ => some ⟨.outside, none, b⟩
  | .requestExclusive, ⟨.outside, none, b⟩ => some ⟨.waiting, none, b⟩
  | .enterExclusive, ⟨.waiting, none, b⟩ => some ⟨.exclusive d.toLineage, none, b⟩
  | .leaveExclusive, ⟨.exclusive _, none, b⟩ => some ⟨.outside, none, b⟩
  | .begin, ⟨.shared, none, b⟩ => some ⟨.shared, some (d, d), b⟩
  | .begin, ⟨.exclusive L, none, b⟩ => some ⟨.exclusive L, some (d, d), b⟩
  | .commit, ⟨.shared, some _, _⟩ => some ⟨.shared, none, false⟩
  | .commit, ⟨.exclusive _, some (_, d'), _⟩ => some ⟨.exclusive d'.toLineage, none, false⟩
  | .rollback, ⟨side, some _, b⟩ => some ⟨side, none, b⟩
  | _, _ => none

end Loc

/-- What is the same for all tasks: the invariant of the committed database, what the adapter key
can be, the condition on the calls of the run, and whether a task is followed that asks for the
shared side while it holds the exclusive one.  (It never gets it.) -/
structure Terms where
  invariant : Db → Prop
  keys : Option String → Prop := fun _ => True
  condition : Condition := fun _ _ _ => True
  nested : Prop := False

section Local

variable (g : Setup) (answers : Answers) (t : Terms) (F : Bool → Lineage → Prop)

/-- The effect of a call on the task, `d` being what it sees. -/
def LocalEffect : (c : Call) → Loc → Db → Except Exc c.Res → Loc → Prop
  | .store c, l, d, r, l' =>
    (r = (c.exec g d).1 ∧ l' = l.wrote c (c.exec g d).2) ∨
      (l.tx = none ∧ (∃ e, r = .error e) ∧ l' = l)
  | .ext e, l, _, r, l' => answers e r ∧ l' = l
  | .getAdapterKey, l, _, r, l' => (∃ key, t.keys key ∧ r = .ok key) ∧ l' = l
  | .setAdapterKey _, l, _, r, l' => r = .ok () ∧ l' = l
  | .sync k, l, d, r, l' =>
    match l.next d k with
    | some l₁ => (r = .ok () ∧ l' = l₁) ∨ (k = .begin ∧ (∃ e, r = .error e) ∧ l' = l)
    | none => (k = .enterShared → l.side.role = .writer → t.nested) ∧ l' = l

/-- A step of one task, whatever the others do in between. -/
def LocalStep : Trans Call Call.Res Exc Loc := fun c l r l' =>
  ∃ v, l.Sees t.invariant F v ∧ t.condition c v r ∧ LocalEffect g answers t c l v.db r l'

/-- What a task owes the others.  A write outside a transaction, and a `COMMIT`, keep the invariant
and stay within what the task guarantees (`G`); outside the lock the lineage stays as it is.  A call
of the lock is in place. -/
def Duty (G : Lineage → Lineage → Prop) : Trans Call Call.Res Exc Loc
  | .store c, l, _, _ =>
    l.tx = none → ∀ v, l.Sees t.invariant F v → t.condition (.store c) v (c.exec g v.db).1 →
      t.invariant (c.exec g v.db).2 ∧
      F (l.fresh && !c.commits) (c.exec g v.db).2.toLineage ∧
      match l.side with
      | .outside | .waiting => (c.exec g v.db).2.toLineage = v.db.toLineage
      | .shared | .exclusive _ => G v.db.toLineage (c.exec g v.db).2.toLineage
  | .sync k, l, _, _ =>
    (∀ d, (l.next d k).isSome) ∧
      (k = .commit → ∀ d₀ d, l.tx = some (d₀, d) →
        t.invariant d ∧ F false d.toLineage ∧ G d₀.toLineage d.toLineage)
  | .setAdapterKey key, _, _, _ => t.keys (some key)
  | _, _, _, _ => True

end Local

/-! ## 3. The views agree with the shared state -/

section Coherent

variable {g : Setup} {answers : Answers} {t : Terms} {F : ι → Bool → Lineage → Prop}
  {G : ι → Lineage → Lineage → Prop}

/-- What the tasks know is true. -/
structure Coherent (t : Terms) (F : ι → Bool → Lineage → Prop) (s : Gateway ι) (l : ι → Loc) :
    Prop where
  db : t.invariant s.db
  key : t.keys s.adapterKey
  lock : LockHeld s.lock fun i => (l i).side.role
  knows : ∀ i, F i (l i).fresh s.db.toLineage
  exclusive : ∀ i L, (l i).side = .exclusive L → s.db.toLineage = L
  tx : ∀ i d₀ d, (l i).tx = some (d₀, d) → s.tx = some (i, d) ∧ s.db = d₀
  owner : ∀ i d, s.tx = some (i, d) → ∃ d₀, (l i).tx = some (d₀, d)

namespace Coherent

variable {s : Gateway ι} {l : ι → Loc}

omit [DecidableEq ι] in
theorem initial (s : Gateway ι) (hdb : t.invariant s.db) (hkey : t.keys s.adapterKey)
    (hlock : s.lock = {}) (htx : s.tx = none) (hF : ∀ i, F i true s.db.toLineage) :
    Coherent t F s fun _ => {} where
  db := hdb
  key := hkey
  lock := by
    rw [hlock]
    exact lockHeld_initial
  knows := hF
  exclusive := by simp
  tx := by simp
  owner := by simp [htx]

/-- A task in its transaction sees its copy, any other one what is committed. -/
theorem sees (h : Coherent t F s l) (i : ι) : (l i).Sees t.invariant (F i) (s.view i) := by
  unfold Loc.Sees Gateway.view
  split
  · rename_i d₀ d htx
    rw [(h.tx i d₀ d htx).1]
    simp
  · rename_i htx
    have hview : s.tx = none ∨ ∃ j d, s.tx = some (j, d) ∧ j ≠ i := by
      cases hs : s.tx with
      | none => exact Or.inl rfl
      | some p =>
        obtain ⟨j, d⟩ := p
        refine Or.inr ⟨j, d, rfl, ?_⟩
        rintro rfl
        obtain ⟨d₀, hd⟩ := h.owner j d hs
        rw [htx] at hd
        exact absurd hd (by simp)
    rcases hview with hs | ⟨j, d, hs, hj⟩
    · rw [hs]
      exact ⟨rfl, h.db, h.knows i, h.exclusive i⟩
    · rw [hs]
      dsimp only
      rw [if_neg hj]
      exact ⟨rfl, h.db, h.knows i, h.exclusive i⟩

omit [DecidableEq ι] in
/-- What task `i` does to what is committed is not seen by the others as more than they allow for:
nobody else holds the exclusive side when the lineage changes. -/
theorem lineage_of_exclusive (h : Coherent t F s l) {i j : ι} (hj : j ≠ i) {L L' : Lineage}
    (hex : (l j).side = .exclusive L)
    (hown : (l i).side.role = .idle ∨ (l i).side.role = .waiting → L' = s.db.toLineage) :
    L' = L := by
  have hwriter : (l j).side.role = .writer := by
    rw [hex]
    rfl
  cases hi : (l i).side.role with
  | idle => exact (hown (Or.inl hi)).trans (h.exclusive j L hex)
  | waiting => exact (hown (Or.inr hi)).trans (h.exclusive j L hex)
  | reader => exact absurd hi (h.lock.not_reader hwriter)
  | writer => exact absurd (h.lock.unique j i hwriter hi) hj

theorem update_cases {P : ι → Loc → Prop} (i : ι) (l' : Loc) (hi : P i l')
    (hj : ∀ j, j ≠ i → P j (l j)) (j : ι) : P j (Function.update l i l' j) := by
  by_cases hji : j = i
  · subst hji
    rwa [Function.update_self]
  · rw [Function.update_of_ne hji]
    exact hj j hji

theorem role_update (i : ι) (l' : Loc) :
    (fun j => (Function.update l i l' j).side.role) =
      Function.update (fun j => (l j).side.role) i l'.side.role := by
  funext j
  by_cases hji : j = i
  · subst hji
    simp
  · simp [hji]

/-- A write that everybody sees: no transaction but that of the task itself was open. -/
theorem publish (h : Coherent t F s l)
    (hstable : ∀ i j, j ≠ i → ∀ b L L', G i L L' → F j b L → F j b L') {i : ι} {d : Db} {l' : Loc}
    (hJ : t.invariant d) (hF : F i l'.fresh d.toLineage)
    (hrole : l'.side.role = (l i).side.role)
    (hexcl : ∀ L, l'.side = .exclusive L → d.toLineage = L) (htx : l'.tx = none)
    (hother : ∀ j, j ≠ i → (l j).tx = none)
    (hown : (l i).side.role = .idle ∨ (l i).side.role = .waiting →
      d.toLineage = s.db.toLineage)
    (hG : (l i).side.role = .reader ∨ (l i).side.role = .writer →
      G i s.db.toLineage d.toLineage) :
    Coherent t F { s with db := d, tx := none } (Function.update l i l') where
  db := hJ
  key := h.key
  lock := by
    rw [role_update, hrole, Function.update_eq_self]
    exact h.lock
  knows := by
    refine update_cases (P := fun j m => F j m.fresh d.toLineage) i l' hF fun j hj => ?_
    have hknows := h.knows j
    cases hi : (l i).side.role with
    | idle => rwa [hown (Or.inl hi)]
    | waiting => rwa [hown (Or.inr hi)]
    | reader => exact hstable i j hj _ _ _ (hG (Or.inl hi)) hknows
    | writer => exact hstable i j hj _ _ _ (hG (Or.inr hi)) hknows
  exclusive := by
    refine update_cases (P := fun _ m => ∀ L, m.side = .exclusive L → d.toLineage = L) i l' hexcl
      fun j hj L hex => ?_
    exact h.lineage_of_exclusive hj hex hown
  tx := by
    refine update_cases (P := fun j m => ∀ d₀ d', m.tx = some (d₀, d') →
      (none : Option (ι × Db)) = some (j, d') ∧ d = d₀) i l' ?_ fun j hj => ?_
    · simp [htx]
    · simp [hother j hj]
  owner := by simp

/-- A task changes only what it knows of itself. -/
theorem relocate (h : Coherent t F s l) {i : ι} {l' : Loc} (hF : F i l'.fresh s.db.toLineage)
    (hrole : l'.side.role = (l i).side.role)
    (hexcl : ∀ L, l'.side = .exclusive L → s.db.toLineage = L) (htx : l'.tx = (l i).tx) :
    Coherent t F s (Function.update l i l') where
  db := h.db
  key := h.key
  lock := by
    rw [role_update, hrole, Function.update_eq_self]
    exact h.lock
  knows := update_cases (P := fun j m => F j m.fresh s.db.toLineage) i l' hF fun j _ => h.knows j
  exclusive := update_cases (P := fun _ m => ∀ L, m.side = .exclusive L → s.db.toLineage = L) i l'
    hexcl fun j _ => h.exclusive j
  tx := by
    refine update_cases (P := fun j m => ∀ d₀ d, m.tx = some (d₀, d) →
      s.tx = some (j, d) ∧ s.db = d₀) i l' ?_ fun j _ => h.tx j
    rw [htx]
    exact h.tx i
  owner := by
    refine update_cases (P := fun j m => ∀ d, s.tx = some (j, d) →
      ∃ d₀, m.tx = some (d₀, d)) i l' ?_ fun j _ => h.owner j
    rw [htx]
    exact h.owner i

/-- The transaction of a task changes, what is committed does not. -/
theorem privately (h : Coherent t F s l) {i : ι} (tx : Option Db)
    (hfree : ∀ j, j ≠ i → (l j).tx = none) :
    Coherent t F { s with tx := tx.map fun d => (i, d) }
      (Function.update l i { l i with tx := tx.map fun d => (s.db, d) }) where
  db := h.db
  key := h.key
  lock := by
    rw [role_update, Function.update_eq_self]
    exact h.lock
  knows := update_cases (P := fun j m => F j m.fresh s.db.toLineage) i _ (h.knows i)
    fun j _ => h.knows j
  exclusive := update_cases (P := fun _ m => ∀ L, m.side = .exclusive L → s.db.toLineage = L) i _
    (h.exclusive i) fun j _ => h.exclusive j
  tx := by
    refine update_cases (P := fun j m => ∀ d₀ d, m.tx = some (d₀, d) →
      (tx.map fun d => (i, d)) = some (j, d) ∧ s.db = d₀) i _ ?_ fun j hj => ?_
    · cases tx with
      | none => simp
      | some d' =>
        rintro d₀ d hd
        obtain ⟨rfl, rfl⟩ := Prod.mk.inj (Option.some.inj hd)
        exact ⟨rfl, rfl⟩
    · simp [hfree j hj]
  owner := by
    refine update_cases (P := fun j m => ∀ d, (tx.map fun d => (i, d)) = some (j, d) →
      ∃ d₀, m.tx = some (d₀, d)) i _ ?_ fun j hj => ?_
    · cases tx with
      | none => simp
      | some d' =>
        rintro d hd
        obtain ⟨-, rfl⟩ := Prod.mk.inj (Option.some.inj hd)
        exact ⟨s.db, rfl⟩
    · cases tx with
      | none => simp
      | some d' =>
        intro d hd
        exact absurd (Prod.mk.inj (Option.some.inj hd)).1.symm hj

theorem view_of_none (hs : s.tx = none) (i : ι) : s.view i = ⟨false, s.db⟩ := by
  rw [Gateway.view, hs]

theorem view_of_own {i : ι} {d : Db} (hs : s.tx = some (i, d)) : s.view i = ⟨true, d⟩ := by
  rw [Gateway.view, hs]
  exact if_pos rfl

theorem view_of_other {i j : ι} {d : Db} (hs : s.tx = some (j, d)) (hj : j ≠ i) :
    s.view i = ⟨false, s.db⟩ := by
  rw [Gateway.view, hs]
  exact if_neg hj

omit [DecidableEq ι] in
theorem tx_none (h : Coherent t F s l) {i : ι} (hs : ∀ d, s.tx ≠ some (i, d)) :
    (l i).tx = none := by
  cases htx : (l i).tx with
  | none => rfl
  | some p => exact absurd (h.tx i p.1 p.2 htx).1 (hs p.2)

theorem wrote_role (l : Loc) (c : Store) (d : Db) : (l.wrote c d).side.role = l.side.role := by
  unfold Loc.wrote
  split
  · rfl
  · dsimp only
    cases l.side <;> rfl

theorem wrote_of_none {l : Loc} (hl : l.tx = none) (c : Store) (d : Db) :
    (l.wrote c d).tx = none ∧ (l.wrote c d).fresh = (l.fresh && !c.commits) ∧
      ∀ L, (l.wrote c d).side = .exclusive L → d.toLineage = L := by
  unfold Loc.wrote
  rw [hl]
  refine ⟨rfl, rfl, ?_⟩
  dsimp only
  cases l.side with
  | exclusive L₀ =>
    intro L hL
    exact Side.exclusive.inj hL
  | outside => exact fun L hL => absurd hL (by simp)
  | shared => exact fun L hL => absurd hL (by simp)
  | waiting => exact fun L hL => absurd hL (by simp)

/-- **A call of the store.** -/
theorem step_store (h : Coherent t F s l)
    (hstable : ∀ i j, j ≠ i → ∀ b L L', G i L L' → F j b L → F j b L') {i : ι} {c : Store}
    {r : Except Exc c.Res} {s' : Gateway ι} (ht : TaskStep g answers i (.store c) s r s')
    (hok : t.condition (.store c) (s.view i) r) :
    ∃ l', LocalStep g answers t (F i) (.store c) (l i) r l' ∧
      (Duty g t (F i) (G i) (.store c) (l i) r l' →
        Coherent t F s' (Function.update l i l')) := by
  have hsees := h.sees i
  cases hs : s.tx with
  | none =>
    simp only [TaskStep, hs] at ht
    obtain ⟨rfl, rfl⟩ := ht
    have hnone : ∀ j, (l j).tx = none := fun j => h.tx_none fun d hd => by simp [hs] at hd
    have hview := view_of_none hs i
    rw [hview] at hok hsees
    obtain ⟨htx, hfresh, hexcl⟩ := wrote_of_none (hnone i) c (c.exec g s.db).2
    refine ⟨(l i).wrote c (c.exec g s.db).2, ⟨_, hsees, hok, Or.inl ⟨rfl, rfl⟩⟩, fun hduty => ?_⟩
    obtain ⟨hJ, hF, hside⟩ := hduty (hnone i) _ hsees hok
    refine h.publish hstable hJ (by rwa [hfresh]) (wrote_role _ _ _) hexcl htx
      (fun j _ => hnone j) ?_ ?_
    · cases hi : (l i).side <;> simp only [hi, Side.role] at hside ⊢ <;> simp [hside]
    · cases hi : (l i).side <;> simp only [hi, Side.role] at hside ⊢ <;> simp [hside]
  | some p =>
    obtain ⟨j, d⟩ := p
    simp only [TaskStep, hs] at ht
    split at ht
    · -- inside the task's own transaction
      rename_i hj
      subst hj
      obtain ⟨rfl, rfl⟩ := ht
      obtain ⟨d₀, htx⟩ := h.owner j d hs
      obtain ⟨-, rfl⟩ := h.tx j d₀ d htx
      rw [view_of_own hs] at hok hsees
      refine ⟨(l j).wrote c (c.exec g d).2, ⟨_, hsees, hok, Or.inl ⟨rfl, rfl⟩⟩, fun _ => ?_⟩
      have hwrote : (l j).wrote c (c.exec g d).2 =
          { l j with tx := (some (c.exec g d).2).map fun d => (s.db, d) } := by
        rw [Loc.wrote, htx]
        rfl
      rw [hwrote]
      refine h.privately (some (c.exec g d).2) fun k hk => h.tx_none fun d' hd' => ?_
      rw [hs] at hd'
      exact hk (Prod.mk.inj (Option.some.inj hd')).1.symm
    · -- another task's transaction is open
      rename_i hj
      obtain ⟨rfl, hr⟩ := ht
      have hnone : (l i).tx = none := h.tx_none fun d' hd' => by
        rw [hs] at hd'
        exact hj (Prod.mk.inj (Option.some.inj hd')).1
      rw [view_of_other hs hj] at hok hsees
      rcases hr with ⟨rfl, hsame⟩ | ⟨-, rfl⟩
      · obtain ⟨htx, hfresh, hexcl⟩ := wrote_of_none hnone c (c.exec g s'.db).2
        refine ⟨(l i).wrote c (c.exec g s'.db).2, ⟨_, hsees, hok, Or.inl ⟨rfl, rfl⟩⟩,
          fun hduty => ?_⟩
        obtain ⟨-, hF, -⟩ := hduty hnone _ hsees hok
        refine h.relocate ?_ (wrote_role _ _ _) ?_ (htx.trans hnone.symm)
        · rw [hfresh]
          rwa [hsame] at hF
        · rwa [hsame] at hexcl ⊢
      · refine ⟨l i, ⟨_, hsees, hok, Or.inr ⟨hnone, ⟨_, rfl⟩, rfl⟩⟩, fun _ => ?_⟩
        rwa [Function.update_eq_self]

/-- A call of the lock or of a transaction that is out of place. -/
theorem step_misplaced (h : Coherent t F s l) {i : ι} {k : Sync} {r : Except Exc Unit}
    {s' : Gateway ι} (hok : t.condition (.sync k) (s.view i) r)
    (hnext : (l i).next (s.view i).db k = none)
    (hnested : k = .enterShared → (l i).side.role ≠ .writer) :
    ∃ l', LocalStep g answers t (F i) (.sync k) (l i) r l' ∧
      (Duty g t (F i) (G i) (.sync k) (l i) r l' → Coherent t F s' (Function.update l i l')) := by
  refine ⟨l i, ⟨_, h.sees i, hok, ?_⟩, fun hduty => ?_⟩
  · simp only [LocalEffect, hnext]
    exact ⟨fun hk hrole => absurd hrole (hnested hk), trivial⟩
  · have hsome := hduty.1 (s.view i).db
    rw [hnext] at hsome
    exact absurd hsome (by decide)

/-- A call of the lock, in place. -/
theorem lock_next {l l' : Loc} {d : Db} {k : Sync} (hk : (Call.sync k).NoTx)
    (h : l.next d k = some l') :
    l.side.role.next k = some l'.side.role ∧ l'.tx = l.tx ∧ l'.fresh = l.fresh ∧
      ∀ L, l'.side = .exclusive L → k = .enterExclusive ∧ l.tx = none ∧ d.toLineage = L := by
  obtain ⟨side, tx, fresh⟩ := l
  cases k <;> cases side <;> cases tx <;>
    simp only [Loc.next, Option.some.injEq, reduceCtorEq] at h <;> subst h <;>
    first
      | exact absurd hk id
      | exact ⟨rfl, rfl, rfl, by simp⟩

theorem sync_enterShared_of_writer {lock : AdmissionLock} (h : lock.writer = true) :
    lock.sync .enterShared = none := by
  simp [AdmissionLock.sync, AdmissionLock.admitsReader, h]

/-- **A call of the lock.** -/
theorem step_lock (h : Coherent t F s l) {i : ι} {k : Sync} (hk : (Call.sync k).NoTx)
    {lock : AdmissionLock} (hlock : s.lock.sync k = some lock)
    (hok : t.condition (.sync k) (s.view i) (.ok ())) :
    ∃ l', LocalStep g answers t (F i) (.sync k) (l i) (.ok ()) l' ∧
      (Duty g t (F i) (G i) (.sync k) (l i) (.ok ()) l' →
        Coherent t F { s with lock := lock } (Function.update l i l')) := by
  cases hnext : (l i).next (s.view i).db k with
  | none =>
    refine h.step_misplaced hok hnext ?_
    rintro rfl hrole
    rw [sync_enterShared_of_writer (h.lock.writer i hrole).1] at hlock
    exact absurd hlock (by simp)
  | some l' =>
    obtain ⟨hrole, htx, hfresh, hexcl⟩ := lock_next hk hnext
    refine ⟨l', ⟨_, h.sees i, hok, ?_⟩, fun _ => ?_⟩
    · simp only [LocalEffect, hnext]
      exact Or.inl ⟨trivial, trivial⟩
    refine ⟨h.db, h.key, ?_, ?_, ?_, ?_, ?_⟩
    · rw [role_update]
      exact h.lock.sync hrole hlock
    · refine update_cases (P := fun j m => F j m.fresh s.db.toLineage) i l' ?_ fun j _ => h.knows j
      rw [hfresh]
      exact h.knows i
    · refine update_cases (P := fun _ m => ∀ L, m.side = .exclusive L → s.db.toLineage = L) i l' ?_
        fun j _ => h.exclusive j
      intro L hL
      obtain ⟨-, hnone, hd⟩ := hexcl L hL
      have hview : (s.view i).db = s.db := by
        unfold Gateway.view
        split
        · rfl
        · rename_i j d hs
          split
          · rename_i hj
            subst hj
            obtain ⟨d₀, hd₀⟩ := h.owner j d hs
            rw [hnone] at hd₀
            exact absurd hd₀ (by simp)
          · rfl
      rwa [hview] at hd
    · refine update_cases (P := fun j m => ∀ d₀ d, m.tx = some (d₀, d) →
        s.tx = some (j, d) ∧ s.db = d₀) i l' ?_ fun j _ => h.tx j
      rw [htx]
      exact h.tx i
    · refine update_cases (P := fun j m => ∀ d, s.tx = some (j, d) →
        ∃ d₀, m.tx = some (d₀, d)) i l' ?_ fun j _ => h.owner j
      rw [htx]
      exact h.owner i

theorem next_begin {l l' : Loc} {d : Db} (h : l.next d .begin = some l') :
    l' = { l with tx := some (d, d) } := by
  obtain ⟨side, tx, fresh⟩ := l
  cases side <;> cases tx <;> simp only [Loc.next, Option.some.injEq, reduceCtorEq] at h <;>
    exact h.symm

theorem next_rollback {l l' : Loc} {d : Db} (h : l.next d .rollback = some l') :
    l' = { l with tx := none } := by
  obtain ⟨side, tx, fresh⟩ := l
  cases side <;> cases tx <;> simp only [Loc.next, Option.some.injEq, reduceCtorEq] at h <;>
    exact h.symm

theorem next_commit {l l' : Loc} {d d₀ d₁ : Db} (h : l.next d .commit = some l')
    (htx : l.tx = some (d₀, d₁)) :
    l'.tx = none ∧ l'.fresh = false ∧ l'.side.role = l.side.role ∧
      (l.side.role = .reader ∨ l.side.role = .writer) ∧
      ∀ L, l'.side = .exclusive L → d₁.toLineage = L := by
  obtain ⟨side, tx, fresh⟩ := l
  cases side <;> cases tx <;> simp only [Loc.next, Option.some.injEq, reduceCtorEq] at h <;>
    subst h <;> obtain rfl := Option.some.inj htx
  · exact ⟨rfl, rfl, rfl, Or.inl rfl, by simp⟩
  · exact ⟨rfl, rfl, rfl, Or.inr rfl, fun L hL => Side.exclusive.inj hL⟩

/-- **The calls of a transaction.** -/
theorem step_tx (h : Coherent t F s l)
    (hstable : ∀ i j, j ≠ i → ∀ b L L', G i L L' → F j b L → F j b L') {i : ι} {k : Sync}
    (hk : ¬ (Call.sync k).NoTx) {r : Except Exc Unit} {s' : Gateway ι}
    (ht : TaskStep g answers i (.sync k) s r s') (hok : t.condition (.sync k) (s.view i) r) :
    ∃ l', LocalStep g answers t (F i) (.sync k) (l i) r l' ∧
      (Duty g t (F i) (G i) (.sync k) (l i) r l' → Coherent t F s' (Function.update l i l')) := by
  cases hnext : (l i).next (s.view i).db k with
  | none =>
    refine h.step_misplaced hok hnext ?_
    rintro rfl
    exact absurd trivial hk
  | some l' =>
    cases k with
    | enterShared => exact absurd trivial hk
    | leaveShared => exact absurd trivial hk
    | requestExclusive => exact absurd trivial hk
    | enterExclusive => exact absurd trivial hk
    | leaveExclusive => exact absurd trivial hk
    | begin =>
      rcases ht with ⟨hs, rfl, rfl⟩ | ⟨hs, rfl, rfl⟩
      · refine ⟨l', ⟨_, h.sees i, hok, ?_⟩, fun _ => ?_⟩
        · simp only [LocalEffect, hnext]
          exact Or.inl ⟨trivial, trivial⟩
        rw [view_of_none hs] at hnext
        rw [next_begin hnext]
        exact h.privately (some s.db) fun j _ => h.tx_none fun d hd => by simp [hs] at hd
      · refine ⟨l i, ⟨_, h.sees i, hok, ?_⟩, fun _ => ?_⟩
        · simp only [LocalEffect, hnext]
          exact Or.inr ⟨trivial, ⟨_, rfl⟩, trivial⟩
        rwa [Function.update_eq_self]
    | rollback =>
      obtain ⟨d, hs, rfl, rfl⟩ := ht
      refine ⟨l', ⟨_, h.sees i, hok, ?_⟩, fun _ => ?_⟩
      · simp only [LocalEffect, hnext]
        exact Or.inl ⟨trivial, trivial⟩
      rw [next_rollback hnext]
      refine h.privately none fun j hj => h.tx_none fun d' hd' => ?_
      rw [hs] at hd'
      exact hj (Prod.mk.inj (Option.some.inj hd')).1.symm
    | commit =>
      obtain ⟨d, hs, rfl, rfl⟩ := ht
      obtain ⟨d₀, htx⟩ := h.owner i d hs
      obtain ⟨-, rfl⟩ := h.tx i d₀ d htx
      obtain ⟨hnone, hfresh, hrole, hside, hexcl⟩ := next_commit hnext htx
      refine ⟨l', ⟨_, h.sees i, hok, ?_⟩, fun hduty => ?_⟩
      · simp only [LocalEffect, hnext]
        exact Or.inl ⟨trivial, trivial⟩
      obtain ⟨hJ, hF, hG⟩ := hduty.2 rfl s.db d htx
      refine h.publish hstable hJ (by rwa [hfresh]) hrole hexcl hnone
        (fun j hj => h.tx_none fun d' hd' => ?_) ?_ fun _ => hG
      · rw [hs] at hd'
        exact hj (Prod.mk.inj (Option.some.inj hd')).1.symm
      · intro hout
        rcases hside with hside | hside <;> rw [hside] at hout <;> simp at hout

/-- **A step of the shared state is a step of its task, and one that does its duty leaves what all
tasks know true.** -/
theorem step (h : Coherent t F s l)
    (hstable : ∀ i j, j ≠ i → ∀ b L L', G i L L' → F j b L → F j b L') {i : ι} {c : Call}
    {r : Except Exc c.Res} {s' : Gateway ι}
    (ht : TaskStepOn g answers t.condition i c s r s') :
    ∃ l', LocalStep g answers t (F i) c (l i) r l' ∧
      (Duty g t (F i) (G i) c (l i) r l' → Coherent t F s' (Function.update l i l')) := by
  obtain ⟨ht, hok⟩ := ht
  cases c with
  | store c => exact h.step_store hstable ht hok
  | ext e =>
    obtain ⟨ha, rfl⟩ := ht
    refine ⟨l i, ⟨_, h.sees i, hok, ha, rfl⟩, fun _ => ?_⟩
    rwa [Function.update_eq_self]
  | getAdapterKey =>
    obtain ⟨rfl, rfl⟩ := ht
    refine ⟨l i, ⟨_, h.sees i, hok, ⟨_, h.key, rfl⟩, rfl⟩, fun _ => ?_⟩
    rwa [Function.update_eq_self]
  | setAdapterKey key =>
    obtain ⟨rfl, rfl⟩ := ht
    refine ⟨l i, ⟨_, h.sees i, hok, rfl, rfl⟩, fun hduty => ?_⟩
    rw [Function.update_eq_self]
    exact ⟨h.db, hduty, h.lock, h.knows, h.exclusive, h.tx, h.owner⟩
  | sync k =>
    by_cases hk : (Call.sync k).NoTx
    · have hlock : ∃ lock, s.lock.sync k = some lock ∧ r = .ok () ∧ s' = { s with lock := lock } := by
        cases k with
        | begin => exact absurd hk id
        | commit => exact absurd hk id
        | rollback => exact absurd hk id
        | enterShared => exact ht
        | leaveShared => exact ht
        | requestExclusive => exact ht
        | enterExclusive => exact ht
        | leaveExclusive => exact ht
      obtain ⟨lock, hsync, rfl, rfl⟩ := hlock
      exact h.step_lock hk hsync hok
    · exact h.step_tx hstable hk ht hok

end Coherent

/-- **The rule for handlers that run together.**  If every handler, alone in its own view, does its
duty, then the views stay true in every state of every interleaving. -/
theorem tasks_invariant {req : ι → Request} {Q : ι → Except Exc Response → Loc → Prop}
    {s : Gateway ι} {p : Pool ι Call Call.Res Exc (Gateway ι) (Except Exc Response)}
    (hstable : ∀ i j, j ≠ i → ∀ b L L', G i L L' → F j b L → F j b L')
    (hrun : Relation.ReflTransGen (Pool.Step (TaskStepOn g answers t.condition)) (s.serve g req) p)
    (hs : Coherent t F s fun _ => {})
    (hsat : ∀ i, Act.Sat (LocalStep g answers t (F i)) (Duty g t (F i) (G i)) ((req i).handle g)
      (Q i) {}) :
    ∃ l, Coherent t F p.state l ∧
      p.Verified (fun i => LocalStep g answers t (F i)) (fun i => Duty g t (F i) (G i)) Q l :=
  Pool.invariant (fun _ _ _ _ _ _ hI ht => Coherent.step hI hstable ht) hrun hs hsat

end Coherent

end GovernorGateway
