/-
# Requests one at a time

A `World` is the database, the copy a transaction can be rolled back to, and the adapter key.
`Step` is what a call does when nothing else runs: the store functions on the database, whatever
`answers` allows from the outside world, and the lock at once.

`Run` is a sequence of requests, each handled to its end, with the trace of its calls.
-/
import GovernorGateway.Semantics.Calls
import GovernorGateway.Semantics.Continuity

namespace GovernorGateway

open Effects

structure World where
  db : Db
  saved : Option Db := none
  adapterKey : Option String := none

namespace World

/-- The transaction: `begin` keeps a copy, `rollback` goes back to it. -/
def sync (w : World) : Sync → World
  | .begin => { w with saved := some w.db }
  | .commit => { w with saved := none }
  | .rollback => { w with db := w.saved.getD w.db, saved := none }
  | .enterShared | .leaveShared | .requestExclusive | .enterExclusive | .leaveExclusive => w

end World

/-- What the outside world may answer. -/
abbrev Answers := (e : Ext) → Except Exc e.Res → Prop

/-- A call, when nothing else runs. -/
def Step (g : Setup) (answers : Answers) : Trans Call Call.Res Exc World
  | .store c, w, r, w' => r = (c.exec g w.db).1 ∧ w' = { w with db := (c.exec g w.db).2 }
  | .ext e, w, r, w' => answers e r ∧ w' = w
  | .sync k, w, r, w' => r = .ok () ∧ w' = w.sync k
  | .getAdapterKey, w, r, w' => r = .ok w.adapterKey ∧ w' = w
  | .setAdapterKey key, w, r, w' => r = .ok () ∧ w' = { w with adapterKey := some key }

/-- The steps of `T` that meet the condition `C`. -/
def restrict (T C : Trans Call Call.Res Exc World) : Trans Call Call.Res Exc World :=
  fun c w r w' => T c w r w' ∧ C c w r w'

/-- Every answer is one the outside world can really give. -/
def Answers.Lawful (answers : Answers) : Prop := ∀ e r, answers e r → e.Lawful r

theorem solo_step {g : Setup} {answers : Answers} (hlaw : answers.Lawful)
    (C : Trans Call Call.Res Exc World) : Solo g (restrict (Step g answers) C) World.db where
  store := fun ht => ⟨ht.1.1, by rw [ht.1.2]⟩
  ext := fun ht => ⟨hlaw _ _ ht.1.1, by rw [ht.1.2]⟩
  sync := by
    intro k w r w' hk ht
    rw [ht.1.2]
    cases k with
    | begin => exact absurd hk id
    | commit => exact absurd hk id
    | rollback => exact absurd hk id
    | enterShared => rfl
    | leaveShared => rfl
    | requestExclusive => rfl
    | enterExclusive => rfl
    | leaveExclusive => rfl
  getKey := fun ht => by rw [ht.1.2]
  setKey := fun ht => by rw [ht.1.2]

/-! ## 1. Transactions -/

variable {α : Type} {g : Setup} {answers : Answers} {C P : Trans Call Call.Res Exc World}

/-- A part without transactions keeps the saved copy. -/
theorem sat_txFree {T : Trans Call Call.Res Exc World}
    (hT : ∀ (c : Call) (w : World) (r : Except Exc c.Res) (w' : World), c.NoTx → T c w r w' →
      w'.saved = w.saved) {x : Handler α} (hx : TxFree x)
    {Q : Except Exc α → World → Prop} {w : World} (h : Act.Sat T P x Q w) :
    Act.Sat T P x (fun r w' => Q r w' ∧ w'.saved = w.saved) w := by
  have hsaved : Prog.Sat T Trans.any x.tree
      (fun (_ : Except Exc α) (w' : World) => w'.saved = w.saved) w := by
    refine Prog.Uses.sat (I := fun w' : World => w'.saved = w.saved) hx ?_ rfl
    intro c hc w₁ r w₂ ht hw₁
    exact ⟨trivial, (hT c w₁ r w₂ hc ht).trans hw₁⟩
  exact (Prog.Sat.and h hsaved).weaken fun _ _ _ _ hp => hp.1

theorem saved_of_step {c : Call} {w w' : World} {r : Except Exc c.Res} (hc : c.NoTx)
    (ht : restrict (Step g answers) C c w r w') : w'.saved = w.saved := by
  cases c with
  | store c => rw [ht.1.2]
  | ext e => rw [ht.1.2]
  | getAdapterKey => rw [ht.1.2]
  | setAdapterKey key => rw [ht.1.2]
  | sync k =>
    rw [ht.1.2]
    cases k with
    | begin => exact absurd hc id
    | commit => exact absurd hc id
    | rollback => exact absurd hc id
    | enterShared => rfl
    | leaveShared => rfl
    | requestExclusive => rfl
    | enterExclusive => rfl
    | leaveExclusive => rfl

/-- Every call but an assignment keeps the adapter key. -/
theorem adapterKey_of_step {c : Call} {w w' : World} {r : Except Exc c.Res} (hc : c.kind ≠ .setKey)
    (ht : Step g answers c w r w') : w'.adapterKey = w.adapterKey := by
  cases c with
  | store c => rw [ht.2]
  | ext e => rw [ht.2]
  | getAdapterKey => rw [ht.2]
  | setAdapterKey key => exact absurd rfl hc
  | sync k =>
    rw [ht.2]
    cases k <;> rfl

theorem of_ne_setKey {ks : List CallKind} (h : ks.contains .setKey = false) :
    Call.Of (fun c => c.kind ≠ .setKey) ks := by
  intro c hc hk
  rw [hk] at hc
  rw [List.contains_iff_mem.mpr hc] at h
  exact absurd h (by simp)

/-- **The transaction rule.**  The body runs on the database as it was; a value keeps what the body
did, an exception goes back. -/
theorem sat_withTransaction (hP : ∀ k w r w', P (.sync k) w r w') {x : Handler α} (hx : TxFree x)
    {Q : Except Exc α → World → Prop} {w : World}
    (h : Act.Sat (restrict (Step g answers) C) P x
      (onOk (fun a w' => Q (.ok a) { w' with saved := none })
        fun e w' => Q (.error e) { w' with db := w.db, saved := none })
      { w with saved := some w.db }) :
    Act.Sat (restrict (Step g answers) C) P (withTransaction x) Q w := by
  rw [withTransaction, Act.sat_bind]
  rintro r w₁ ⟨⟨rfl, rfl⟩, -⟩
  refine ⟨hP _ _ _ _, ?_⟩
  change Act.Sat _ _ (Act.attempt _ >>= _) _ _
  rw [Act.sat_bind, Act.sat_attempt, Act.sat_bind]
  refine (sat_txFree (fun c w r w' hc ht => saved_of_step hc ht) hx h).mono ?_
  rintro (e | a) w₂ ⟨h₂, hsaved⟩
  · rintro r w₃ ⟨⟨rfl, rfl⟩, -⟩
    refine ⟨hP _ _ _ _, ?_⟩
    change Q (.error e) { w₂ with db := w₂.saved.getD w₂.db, saved := none }
    rw [hsaved]
    exact h₂
  · rintro r w₃ ⟨⟨rfl, rfl⟩, -⟩
    exact ⟨hP _ _ _ _, h₂⟩

/-! ## 2. Locks, when nothing else runs -/

theorem sat_withShared (hP : ∀ k w r w', P (.sync k) w r w') {x : Handler α}
    {Q : Except Exc α → World → Prop} {w : World}
    (h : Act.Sat (restrict (Step g answers) C) P x Q w) :
    Act.Sat (restrict (Step g answers) C) P (withShared x) Q w := by
  rw [withShared, Act.sat_bind]
  rintro r w₁ ⟨⟨rfl, rfl⟩, -⟩
  refine ⟨hP _ _ _ _, ?_⟩
  change Act.Sat _ _ (x.always _) _ _
  rw [Act.sat_always]
  refine Act.Sat.mono h ?_
  rintro r w₂ h₂ r' w₃ ⟨⟨rfl, rfl⟩, -⟩
  exact ⟨hP _ _ _ _, h₂⟩

/-- A commit under the shared lock. -/
theorem keeps_commitShared (hP : ∀ k w r w', P (.sync k) w r w') {J : Lineage → Prop}
    {site : CommitSite} {p : Payload}
    (h : ∀ w r w', J w.db.toLineage →
      restrict (Step g answers) C (.store (.commitNode site p)) w r w' →
      P (.store (.commitNode site p)) w r w' ∧ J (w.db.toLineage.commitNode g.env.sha256 p).2) :
    Keeps (restrict (Step g answers) C) P (fun w => J w.db.toLineage) (commitShared site p)
      fun _ => True := by
  intro w hw
  refine sat_withShared hP ?_
  rw [Act.sat_bind]
  intro r w' ht
  obtain ⟨hp, hj⟩ := h w r w' hw ht
  refine ⟨hp, ?_⟩
  obtain ⟨⟨rfl, rfl⟩, -⟩ := ht
  exact ⟨hj, trivial⟩

theorem sat_withExclusive (hP : ∀ k w r w', P (.sync k) w r w') {x : Handler α}
    {Q : Except Exc α → World → Prop} {w : World}
    (h : Act.Sat (restrict (Step g answers) C) P x Q w) :
    Act.Sat (restrict (Step g answers) C) P (withExclusive x) Q w := by
  rw [withExclusive, Act.sat_bind]
  rintro r w₁ ⟨⟨rfl, rfl⟩, -⟩
  refine ⟨hP _ _ _ _, ?_⟩
  change Act.Sat _ _ (sync .enterExclusive >>= _) _ _
  rw [Act.sat_bind]
  rintro r w₂ ⟨⟨rfl, rfl⟩, -⟩
  refine ⟨hP _ _ _ _, ?_⟩
  change Act.Sat _ _ (x.always _) _ _
  rw [Act.sat_always]
  refine Act.Sat.mono h ?_
  rintro r w₂ h₂ r' w₃ ⟨⟨rfl, rfl⟩, -⟩
  exact ⟨hP _ _ _ _, h₂⟩

/-! ## 3. Calls that answer -/

section Answer

variable {β : Type} {Q : Except Exc β → World → Prop} {w : World}

/-- A read. -/
theorem read_at {c : Store} {a : c.Res} {f : c.Res → Handler β} (hP : ∀ r w', P (.store c) w r w')
    (hread : c.exec g w.db = (.ok a, w.db))
    (hok : Act.Sat (restrict (Step g answers) C) P (f a) Q w) :
    Act.Sat (restrict (Step g answers) C) P (store c >>= f) Q w := by
  rw [Act.sat_bind]
  rintro r w₁ ⟨⟨rfl, rfl⟩, -⟩
  refine ⟨hP _ _, ?_⟩
  rw [hread]
  exact hok

end Answer

/-! ## 4. Runs -/

/-- A request that was handled: the calls it made, what it answered, the world after it. -/
structure Handled where
  request : Request
  trace : List (Event Call Call.Res Exc World)
  outcome : Except Exc Response
  after : World

/-- The requests of a run, one after the other, each to its end. -/
inductive Run (g : Setup) (T : Trans Call Call.Res Exc World) : World → List Handled → World → Prop
  | nil (w : World) : Run g T w [] w
  | cons {h : Handled} {w w' : World} {hs : List Handled} :
      Exec T (h.request.handle g).tree w h.trace h.outcome h.after → Run g T h.after hs w' →
      Run g T w (h :: hs) w'

/-- **The invariant rule for runs.**  If handling a request of the run keeps `I` and makes only
calls that meet `P`, so does the run, in every world it passes through. -/
theorem Run.invariant_of {T : Trans Call Call.Res Exc World} {I : World → Prop}
    {Q : Request → Prop}
    (hI : ∀ (req : Request) w, Q req → I w → Act.Sat T P (req.handle g) (fun _ w' => I w') w)
    {w w' : World} {hs : List Handled} (h : Run g T w hs w') (hreq : ∀ k ∈ hs, Q k.request)
    (hw : I w) :
    I w' ∧ ∀ k ∈ hs, I k.after ∧ ∀ e ∈ k.trace, P e.call e.before e.answer e.after := by
  induction h with
  | nil w => exact ⟨hw, by simp⟩
  | @cons k w w' hs hexec _ ih =>
    obtain ⟨htrace, hafter⟩ :=
      Prog.Sat.sound (hI k.request w (hreq k List.mem_cons_self) hw) hexec
    obtain ⟨hend, hrest⟩ := ih (fun j hj => hreq j (List.mem_cons_of_mem _ hj)) hafter
    refine ⟨hend, ?_⟩
    intro j hj
    rcases List.mem_cons.mp hj with rfl | hj
    · exact ⟨hafter, htrace⟩
    · exact hrest j hj

/-- The same for a run of any requests. -/
theorem Run.invariant {T : Trans Call Call.Res Exc World} {I : World → Prop}
    (hI : ∀ (req : Request) w, I w → Act.Sat T P (req.handle g) (fun _ w' => I w') w) {w w' : World}
    {hs : List Handled} (h : Run g T w hs w') (hw : I w) :
    I w' ∧ ∀ k ∈ hs, I k.after ∧ ∀ e ∈ k.trace, P e.call e.before e.answer e.after :=
  h.invariant_of (fun req w (_ : True) hw => hI req w hw) (fun _ _ => trivial) hw

/-- A run in which every call meets `C` is a run over the transitions cut down to `C`. -/
theorem Run.restrict {T : Trans Call Call.Res Exc World} {w w' : World} {hs : List Handled}
    (h : Run g T w hs w') (hC : ∀ k ∈ hs, ∀ e ∈ k.trace, C e.call e.before e.answer e.after) :
    Run g (GovernorGateway.restrict T C) w hs w' := by
  induction h with
  | nil w => exact .nil w
  | cons hexec _ ih =>
    exact .cons (hexec.restrict (hC _ List.mem_cons_self))
      (ih fun k hk => hC k (List.mem_cons_of_mem _ hk))

/-- A run can be continued. -/
theorem Run.snoc {T : Trans Call Call.Res Exc World} {w w' : World} {hs : List Handled} {k : Handled}
    (h : Run g T w hs w')
    (hexec : Exec T (k.request.handle g).tree w' k.trace k.outcome k.after) :
    Run g T w (hs ++ [k]) k.after := by
  induction h with
  | nil w => exact .cons hexec (.nil _)
  | cons hexec' _ ih => exact .cons hexec' (ih hexec)

/-- A run can be cut before and after any of its requests. -/
theorem Run.split {T : Trans Call Call.Res Exc World} {k : Handled} {post : List Handled} :
    ∀ {pre : List Handled} {w w' : World}, Run g T w (pre ++ k :: post) w' →
      ∃ w₁, Run g T w pre w₁ ∧ Exec T (k.request.handle g).tree w₁ k.trace k.outcome k.after ∧
        Run g T k.after post w'
  | [], w, _, .cons hexec hrun => ⟨w, .nil w, hexec, hrun⟩
  | _ :: _, _, _, .cons hexec hrun => by
    obtain ⟨w₁, hpre, hk, hpost⟩ := Run.split hrun
    exact ⟨w₁, .cons hexec hpre, hk, hpost⟩

/-- A request of a run was handled from a world with the invariant. -/
theorem Run.mem_invariant {T : Trans Call Call.Res Exc World} {I : World → Prop}
    (hI : ∀ (req : Request) w, I w →
      Act.Sat T Trans.any (req.handle g) (fun _ w' => I w') w) {w w' : World}
    {hs : List Handled} (h : Run g T w hs w') (hw : I w) {k : Handled} (hk : k ∈ hs) :
    ∃ w₀, I w₀ ∧ Exec T (k.request.handle g).tree w₀ k.trace k.outcome k.after ∧ I k.after := by
  induction h with
  | nil w => exact absurd hk (by simp)
  | @cons j w w' hs hexec _ ih =>
    have hafter := (Prog.Sat.sound (hI j.request w hw) hexec).2
    rcases List.mem_cons.mp hk with rfl | hk
    · exact ⟨w, hw, hexec, hafter⟩
    · exact ih hafter hk

/-- The state right after `reset`. -/
def World.initial (g : Setup) (db : Db) (adapterKey : Option String) : World :=
  { db := db.reset g.env.sha256, adapterKey := adapterKey }

theorem World.initial_ledger (g : Setup) (db : Db) (adapterKey : Option String) :
    (World.initial g db adapterKey).db.ledger = ["quarantined-node-A"] := rfl

theorem World.initial_nodeIds (g : Setup) (db : Db) (adapterKey : Option String) :
    (World.initial g db adapterKey).db.nodeIds = ["clean-parent-1"] := rfl

end GovernorGateway
