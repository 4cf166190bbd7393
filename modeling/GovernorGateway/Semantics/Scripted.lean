/-
# Runs against a scripted outside world

To show that something CAN happen, the outside world is given a script: what it answers to each
kind of call.  Under a script every handler has exactly one run (`exists_handled`), and the rules of
this module compute it call by call.  Every script is lawful, so such a run is one of the runs the
other modules speak about.

`submitLocked_returns` is the one long computation: a submission with a tainted parent that gets as
far as the policy goes all the way, with no exception on the way to the answer.
-/
import GovernorGateway.Semantics.Requests
import Mathlib.Data.Fintype.EquivFin

namespace GovernorGateway

open Effects

/-! ## 1. Scripts -/

/-- What the outside world answers; the policy engine always evaluates the repository's policies. -/
structure Script where
  now : Time
  uuid : String
  key : String := ""
  signature : String := ""
  adapter : AdapterRequest → Option Payload := fun _ => none

namespace Script

variable (o : Script)

def answer : (e : Ext) → e.Res
  | .now _ => o.now
  | .uuid => o.uuid
  | .generateKey => o.key
  | .sign _ _ => o.signature
  | .opa q => Policy.rego q
  | .reconstruct req => o.adapter req
  | .iterSet xs => xs

/-- The answers of the script. -/
def answers : Answers := fun e r => r = .ok (o.answer e)

theorem lawful : o.answers.Lawful
  | .now _, _, h => ⟨_, h⟩
  | .uuid, _, h => ⟨_, h⟩
  | .generateKey, _, h => ⟨_, h⟩
  | .sign _ _, _, h => ⟨_, h⟩
  | .opa _, _, h => Or.inr (Or.inl h)
  | .reconstruct _, _, _ => trivial
  | .iterSet xs, _, h => ⟨xs, h, List.Perm.refl xs⟩

end Script

/-- Every lawful answer. -/
def Answers.lawful : Answers := fun e r => e.Lawful r

variable {g : Setup} {o : Script} {P : Trans Call Call.Res Exc World} {α : Type}

/-- The steps under fewer answers. -/
theorem Step.mono {answers answers' : Answers} (h : ∀ e r, answers e r → answers' e r) {c : Call}
    {w w' : World} {r : Except Exc c.Res} (ht : Step g answers c w r w') : Step g answers' c w r w' := by
  cases c with
  | ext e => exact ⟨h e r ht.1, ht.2⟩
  | store c => exact ht
  | sync k => exact ht
  | getAdapterKey => exact ht
  | setAdapterKey key => exact ht

theorem step_lawful_of_script {c : Call} {w w' : World} {r : Except Exc c.Res}
    (h : Step g o.answers c w r w') : Step g Answers.lawful c w r w' := h.mono o.lawful

theorem script_total (c : Call) (w : World) : ∃ r w', Step g o.answers c w r w' := by
  cases c with
  | store c => exact ⟨_, _, rfl, rfl⟩
  | ext e => exact ⟨_, _, rfl, rfl⟩
  | sync k => exact ⟨_, _, rfl, rfl⟩
  | getAdapterKey => exact ⟨_, _, rfl, rfl⟩
  | setAdapterKey key => exact ⟨_, _, rfl, rfl⟩

/-- The steps under a script that meet the condition `C`. -/
abbrev Scripted (g : Setup) (o : Script) (C : Trans Call Call.Res Exc World) :
    Trans Call Call.Res Exc World :=
  restrict (Step g o.answers) C

/-- **What the logic computes under a script does happen.** -/
theorem exists_handled (req : Request) {w : World} {Q : Except Exc Response → World → Prop}
    (h : Act.Sat (Scripted g o Trans.any) P (req.handle g) Q w) :
    ∃ k : Handled, k.request = req ∧
      Exec (Step g Answers.lawful) (k.request.handle g).tree w k.trace k.outcome k.after ∧
      (∀ e ∈ k.trace, P e.call e.before e.answer e.after) ∧ Q k.outcome k.after := by
  obtain ⟨tr, a, w', hexec⟩ := Exec.exists_of_total (T := Step g o.answers) script_total
    (req.handle g).tree w
  obtain ⟨htr, hQ⟩ := Prog.Sat.sound h (hexec.restrict fun _ _ => trivial)
  exact ⟨⟨req, tr, a, w'⟩, rfl, hexec.mono fun _ _ _ _ => step_lawful_of_script, htr, hQ⟩

/-- If a run in which every call met `P` cannot be completed under the script, the run under the
script makes a call that does not meet it. -/
theorem exists_handled_not (req : Request) {w : World}
    (h : Act.Sat (Scripted g o P) Trans.any (req.handle g) (fun _ _ => False) w) :
    ∃ k : Handled, k.request = req ∧
      Exec (Step g Answers.lawful) (k.request.handle g).tree w k.trace k.outcome k.after ∧
      ∃ e ∈ k.trace, ¬ P e.call e.before e.answer e.after := by
  obtain ⟨tr, a, w', hexec⟩ := Exec.exists_of_total (T := Step g o.answers) script_total
    (req.handle g).tree w
  refine ⟨⟨req, tr, a, w'⟩, rfl, hexec.mono fun _ _ _ _ => step_lawful_of_script, ?_⟩
  by_contra hall
  push Not at hall
  exact (Prog.Sat.sound h (hexec.restrict hall)).2

/-! ## 2. Evaluating a run

A script determines every answer, so a run under it can be evaluated. -/

/-- What a call does under the script. -/
def Script.step (o : Script) (g : Setup) : (c : Call) → World → Except Exc c.Res × World
  | .store c, w => ((c.exec g w.db).1, { w with db := (c.exec g w.db).2 })
  | .ext e, w => (.ok (o.answer e), w)
  | .sync k, w => (.ok (), w.sync k)
  | .getAdapterKey, w => (.ok w.adapterKey, w)
  | .setAdapterKey key, w => (.ok (), { w with adapterKey := some key })

theorem Script.step_answers (c : Call) (w : World) :
    Step g o.answers c w (o.step g c w).1 (o.step g c w).2 := by
  cases c with
  | store c => exact ⟨rfl, rfl⟩
  | ext e => exact ⟨rfl, rfl⟩
  | sync k => exact ⟨rfl, rfl⟩
  | getAdapterKey => exact ⟨rfl, rfl⟩
  | setAdapterKey key => exact ⟨rfl, rfl⟩

theorem Script.step_spec (c : Call) (w : World) :
    Step g Answers.lawful c w (o.step g c w).1 (o.step g c w).2 :=
  step_lawful_of_script (Script.step_answers c w)

/-- One request under the script: what it answers and the world after it. -/
def Script.handle (o : Script) (g : Setup) (req : Request) (w : World) :
    Except Exc Response × World :=
  (req.handle g).tree.run (o.step g) w

/-- Requests one after the other, each under its own script: the last answer and the world after
it. -/
def Script.handleAll (g : Setup) : List (Script × Request) → World → World
  | [], w => w
  | (o, req) :: rest, w => handleAll g rest (o.handle g req w).2

/-- The requests with what they are answered and the worlds after them, each under its own
script. -/
def Script.log (g : Setup) :
    List (Script × Request) → World → List (Request × Except Exc Response × World)
  | [], _ => []
  | (o, req) :: rest, w => (req, o.handle g req w) :: log g rest (o.handle g req w).2

/-- What the log of a run tells of a request. -/
def Handled.entry (k : Handled) : Request × Except Exc Response × World :=
  (k.request, k.outcome, k.after)

/-- Every call of these requests passes a check, which may look at the script. -/
def Script.passesAll (g : Setup) (check : Script → Call → World → Bool) :
    List (Script × Request) → World → Bool
  | [], _ => true
  | (o, req) :: rest, w => (req.handle g).tree.passes (o.step g) (check o) w &&
    passesAll g check rest (o.handle g req w).2

theorem Script.passesAll_true (g : Setup) : ∀ (reqs : List (Script × Request)) (w : World),
    Script.passesAll g (fun _ _ _ => true) reqs w = true
  | [], _ => rfl
  | (o, req) :: rest, w => by
    rw [Script.passesAll, Prog.passes_true, Script.passesAll_true g rest]
    rfl

/-- **What is evaluated does happen**, over any transitions that the scripts follow, and what is
checked of its calls holds of the trace of each request. -/
theorem Script.exists_run_over (g : Setup) {T : Trans Call Call.Res Exc World}
    {P : Script → Trans Call Call.Res Exc World} (check : Script → Call → World → Bool) :
    ∀ (reqs : List (Script × Request)) (w : World),
    (∀ r ∈ reqs, ∀ c w, T c w (r.1.step g c w).1 (r.1.step g c w).2) →
    (∀ r ∈ reqs, ∀ c w, check r.1 c w = true → P r.1 c w (r.1.step g c w).1 (r.1.step g c w).2) →
    Script.passesAll g check reqs w = true →
    ∃ hs, Run g T w hs (Script.handleAll g reqs w) ∧ hs.map Handled.entry = Script.log g reqs w ∧
      List.Forall₂ (fun r k => r.2 = k.request ∧
        ∀ e ∈ k.trace, P r.1 e.call e.before e.answer e.after) reqs hs
  | [], w, _, _, _ => ⟨[], .nil w, rfl, .nil⟩
  | (o, req) :: rest, w, hT, hP, hpass => by
    obtain ⟨hp, hrest⟩ := Bool.and_eq_true_iff.mp hpass
    obtain ⟨tr, hexec, htr⟩ := Prog.run_exec (T := T) (P := P o) (hT (o, req) List.mem_cons_self)
      (hP (o, req) List.mem_cons_self) (req.handle g).tree w hp
    obtain ⟨hs, hrun, hlog, hall⟩ := Script.exists_run_over g check rest _
      (fun r hr => hT r (List.mem_cons_of_mem _ hr)) (fun r hr => hP r (List.mem_cons_of_mem _ hr)) hrest
    exact ⟨⟨req, tr, _, _⟩ :: hs, .cons hexec hrun, congrArg ((req, o.handle g req w) :: ·) hlog,
      .cons ⟨rfl, htr⟩ hall⟩

/-- The requests of a run are those it was evaluated on. -/
theorem Script.requests_of_forall₂ {R : Script × Request → Handled → Prop}
    (hR : ∀ r k, R r k → r.2 = k.request)
    {reqs : List (Script × Request)} {hs : List Handled} (h : List.Forall₂ R reqs hs) :
    hs.map Handled.request = reqs.map Prod.snd := by
  induction h with
  | nil => rfl
  | cons hk _ ih => rw [List.map_cons, List.map_cons, ih, hR _ _ hk]

/-- What holds under every script holds of each request of the run. -/
theorem Script.each_of_forall₂ {R : Script × Request → Handled → Prop} {P : Handled → Prop}
    (hR : ∀ r k, R r k → P k) {reqs : List (Script × Request)} {hs : List Handled}
    (h : List.Forall₂ R reqs hs) : ∀ k ∈ hs, P k := by
  induction h with
  | nil => simp
  | cons hk _ ih =>
    intro j hj
    rcases List.mem_cons.mp hj with rfl | hj
    · exact hR _ _ hk
    · exact ih j hj

/-- The same, with a check and a property that do not depend on the script. -/
theorem Script.exists_checked_run (g : Setup) (check : Call → World → Bool)
    {P : Trans Call Call.Res Exc World}
    (hcheck : ∀ c w r w', check c w = true → Step g Answers.lawful c w r w' → P c w r w')
    (reqs : List (Script × Request)) (w : World)
    (hpass : Script.passesAll g (fun _ => check) reqs w = true) :
    ∃ hs, Run g (Step g Answers.lawful) w hs (Script.handleAll g reqs w) ∧
      hs.map Handled.request = reqs.map Prod.snd ∧
      ∀ k ∈ hs, ∀ e ∈ k.trace, P e.call e.before e.answer e.after := by
  obtain ⟨hs, hrun, -, hall⟩ := Script.exists_run_over g (T := Step g Answers.lawful)
    (P := fun _ => P) (fun _ => check) reqs w (fun r _ c w => Script.step_spec c w)
    (fun r _ c w h => hcheck c w _ _ h (Script.step_spec c w)) hpass
  exact ⟨hs, hrun, Script.requests_of_forall₂ (fun _ _ h => h.1) hall,
    Script.each_of_forall₂ (fun _ _ h => h.2) hall⟩

/-- The same over any transitions that the scripts follow. -/
theorem Script.exists_run_under (g : Setup) {T : Trans Call Call.Res Exc World}
    (reqs : List (Script × Request)) (w : World)
    (hT : ∀ r ∈ reqs, ∀ c w, T c w (r.1.step g c w).1 (r.1.step g c w).2) :
    ∃ hs, Run g T w hs (Script.handleAll g reqs w) ∧ hs.map Handled.request = reqs.map Prod.snd := by
  obtain ⟨hs, hrun, -, hall⟩ := Script.exists_run_over g (P := fun _ => Trans.any)
    (fun _ _ _ => true) reqs w
    hT (fun _ _ _ _ _ => trivial) (Script.passesAll_true g reqs w)
  exact ⟨hs, hrun, Script.requests_of_forall₂ (fun _ _ h => h.1) hall⟩

theorem Script.exists_run (g : Setup) (reqs : List (Script × Request)) (w : World) :
    ∃ hs, Run g (Step g Answers.lawful) w hs (Script.handleAll g reqs w) ∧
      hs.map Handled.request = reqs.map Prod.snd :=
  Script.exists_run_under g reqs w fun _ _ c w => Script.step_spec c w

theorem Script.exists_logged_run (g : Setup) (reqs : List (Script × Request)) (w : World) :
    ∃ hs, Run g (Step g Answers.lawful) w hs (Script.handleAll g reqs w) ∧
      hs.map Handled.entry = Script.log g reqs w := by
  obtain ⟨hs, hrun, hlog, -⟩ := Script.exists_run_over g (T := Step g Answers.lawful)
    (P := fun _ => Trans.any) (fun _ _ _ => true) reqs w (fun r _ c w => Script.step_spec c w)
    (fun _ _ _ _ _ => trivial) (Script.passesAll_true g reqs w)
  exact ⟨hs, hrun, hlog⟩

/-- One more request after an evaluated run, and a call of it that fails a check. -/
theorem Script.exists_failing_run (g : Setup) (check : Call → World → Bool)
    (reqs : List (Script × Request)) (o : Script) (req : Request) (w : World)
    (hfail : (req.handle g).tree.passes (o.step g) check (Script.handleAll g reqs w) = false) :
    ∃ hs k, Run g (Step g Answers.lawful) w (hs ++ [k]) k.after ∧
      hs.map Handled.entry = Script.log g reqs w ∧ k.request = req ∧
      ∃ e ∈ k.trace, check e.call e.before = false ∧ e.answer = (o.step g e.call e.before).1 ∧
        e.after = (o.step g e.call e.before).2 := by
  obtain ⟨hs, hrun, hlog⟩ := Script.exists_logged_run g reqs w
  obtain ⟨tr, hexec, he⟩ := Prog.run_fails (T := Step g Answers.lawful)
    (fun c w => Script.step_spec (g := g) (o := o) c w) (req.handle g).tree _ hfail
  exact ⟨hs, ⟨req, tr, _, _⟩, hrun.snoc hexec, hlog, rfl, he⟩

/-! ## 3. Computing a run -/

section Compute

variable {C : Trans Call Call.Res Exc World} {Q : Except Exc α → World → Prop} {w : World}

theorem script_store {c : Store} {Q : Except Exc c.Res → World → Prop}
    (hP : ∀ r w', P (.store c) w r w')
    (h : Q (c.exec g w.db).1 { w with db := (c.exec g w.db).2 }) :
    Act.Sat (Scripted g o C) P (store c) Q w := by
  rintro r w' ⟨⟨rfl, rfl⟩, -⟩
  exact ⟨hP _ _, h⟩

/-- A call of the store, in front of the rest of a handler. -/
theorem script_write {c : Store} {a : c.Res} {db : Db} {f : c.Res → Handler α}
    (hP : ∀ r w', P (.store c) w r w') (hexec : c.exec g w.db = (.ok a, db))
    (h : Act.Sat (Scripted g o C) P (f a) Q { w with db := db }) :
    Act.Sat (Scripted g o C) P (store c >>= f) Q w := by
  rw [Act.sat_bind]
  refine script_store hP ?_
  rw [hexec]
  exact h

/-- A read, in front of the rest of a handler. -/
theorem script_read {c : Store} {a : c.Res} {f : c.Res → Handler α}
    (hP : ∀ r w', P (.store c) w r w') (hread : c.exec g w.db = (.ok a, w.db))
    (h : Act.Sat (Scripted g o C) P (f a) Q w) :
    Act.Sat (Scripted g o C) P (store c >>= f) Q w :=
  script_write hP hread h

/-- An answer of the script, in front of the rest of a handler. -/
theorem script_answer {e : Ext} {f : e.Res → Handler α} (hP : ∀ r w', P (.ext e) w r w')
    (h : Act.Sat (Scripted g o C) P (f (o.answer e)) Q w) :
    Act.Sat (Scripted g o C) P (ext e >>= f) Q w := by
  rw [Act.sat_bind]
  rintro r w' ⟨⟨rfl, rfl⟩, -⟩
  exact ⟨hP _ _, h⟩

/-- A check that succeeds, in front of the rest of a handler. -/
theorem script_pass {T : Trans Call Call.Res Exc World} {b : Bool} {e : Exc} {f : Unit → Handler α}
    (hb : b = false) (h : Act.Sat T P (f ()) Q w) :
    Act.Sat T P (Act.raiseIf b e >>= f) Q w := by
  subst hb
  exact h

end Compute

/-! ## 4. Calls that cannot fail -/

/-- A call of the store that always answers, and leaves the audit and the journal alone. -/
def Store.Calm : Store → Prop
  | .recordShadowDecision _ => False
  | .recordSignalAttempt _ _ _ _ _ => False
  | .recordDetectorEvent _ => False
  | _ => True

theorem Store.exec_calm (g : Setup) (db : Db) {c : Store} (h : c.Calm) :
    (∃ a, (c.exec g db).1 = .ok a) ∧
      (c.exec g db).2.shadowDecisions = db.shadowDecisions ∧
      (c.exec g db).2.toJournal = db.toJournal := by
  cases c with
  | recordShadowDecision d => exact absurd h id
  | recordSignalAttempt source x kind outcome now => exact absurd h id
  | recordDetectorEvent e => exact absurd h id
  | computeBlastRadius root =>
    obtain ⟨rcs, hdb⟩ := Db.computeBlastRadius_snd g.settings.maxTraversalDepth root db
    refine ⟨⟨_, rfl⟩, ?_⟩
    change (Db.computeBlastRadius _ root db).2.shadowDecisions = _ ∧
      (Db.computeBlastRadius _ root db).2.toJournal = _
    rw [hdb]
    exact ⟨rfl, rfl⟩
  | _ => exact ⟨⟨_, rfl⟩, rfl, rfl⟩

/-- A call that always answers under a script, and leaves the audit and the journal alone. -/
def Call.Calm : Call → Prop
  | .store c => c.Calm
  | .ext _ => True
  | _ => False

variable {C : Trans Call Call.Res Exc World}

theorem sat_of_returns {x : Handler α} (hx : Act.Returns Call.Calm x) (w : World) :
    Act.Sat (Scripted g o C) Trans.any x (fun r w' => (∃ a, r = .ok a) ∧
      w'.db.shadowDecisions = w.db.shadowDecisions ∧ w'.db.toJournal = w.db.toJournal) w := by
  refine Prog.Returns.sat (I := fun w' : World =>
    w'.db.shadowDecisions = w.db.shadowDecisions ∧ w'.db.toJournal = w.db.toJournal) hx ?_
    ⟨rfl, rfl⟩
  intro c hc w₁ r w₂ ht hI
  refine ⟨trivial, ?_⟩
  obtain ⟨ht, -⟩ := ht
  cases c with
  | store c =>
    obtain ⟨rfl, rfl⟩ := ht
    obtain ⟨ha, hd, hj⟩ := Store.exec_calm g w₁.db hc
    exact ⟨ha, hd.trans hI.1, hj.trans hI.2⟩
  | ext e =>
    obtain ⟨rfl, rfl⟩ := ht
    exact ⟨⟨_, rfl⟩, hI⟩
  | sync k => exact absurd hc id
  | getAdapterKey => exact absurd hc id
  | setAdapterKey key => exact absurd hc id

/-- The outside world answers with a value, whatever it is. -/
def Ext.Prompt : Ext → Prop
  | .opa _ | .reconstruct _ => False
  | _ => True

/-- The readings of the clock that are stored, and everything else that is not a question of
admission or recovery. -/
def Ext.Plain : Ext → Prop
  | .now .record | .uuid | .generateKey | .sign _ _ | .iterSet _ => True
  | _ => False

theorem Ext.Plain.prompt : ∀ {e : Ext}, e.Plain → e.Prompt
  | .now _, _ | .uuid, _ | .generateKey, _ | .sign _ _, _ | .iterSet _, _ => trivial
  | .opa _, h => h
  | .reconstruct _, h => h

section Returns

theorem returns_store {c : Store} (h : c.Calm) : Act.Returns Call.Calm (store c) :=
  Act.returns_perform (c := Call.store c) h

theorem returns_ext (e : Ext) : Act.Returns Call.Calm (ext e) :=
  Act.returns_perform (c := Call.ext e) trivial

theorem returns_stampNow {A : Call → Prop} (hext : ∀ e : Ext, e.Plain → A (.ext e)) :
    Act.Returns A stampNow :=
  Act.returns_bind (Act.returns_perform (c := Call.ext (.now .record)) (hext _ trivial)) fun _ =>
    Act.returns_pure _

variable (g)

/-- The recurrence hook makes only calls that answer. -/
theorem returns_recurrenceHook {A : Call → Prop} (hstore : ∀ c : Store, c.Calm → A (.store c))
    (hext : ∀ e : Ext, e.Plain → A (.ext e)) (ids : List NodeId) (cls : String) :
    Act.Returns A (recurrenceHook g ids cls) := by
  have hread : ∀ {c : Store}, c.Calm → Act.Returns A (store c) :=
    fun hc => Act.returns_perform (c := Call.store _) (hstore _ hc)
  have hask : ∀ {e : Ext}, e.Plain → Act.Returns A (ext e) :=
    fun he => Act.returns_perform (c := Call.ext _) (hext _ he)
  have hprocess : ∀ x, Act.Returns A (processRecurrence g x cls "internal_hook" []) := by
    intro x
    refine Act.returns_bind (hread trivial) fun _ => Act.returns_bind (hask trivial)
      fun _ => Act.returns_bind (returns_stampNow hext) fun _ => Act.returns_bind (hask trivial)
        fun _ => ?_
    dsimp only
    split <;> exact hread trivial
  refine Act.returns_bind (hask trivial) fun _ => Act.returns_bind (hread trivial)
    fun active => Act.returns_forEach (fun x => ?_) ids
  split
  · exact hprocess x
  · exact Act.returns_pure _

/-- So does the offer. -/
theorem returns_offerReplacement {A : Call → Prop} (hstore : ∀ c : Store, c.Calm → A (.store c))
    (p : Payload) (root : NodeId) : Act.Returns A (offerReplacement p root) := by
  have hread : ∀ {c : Store}, c.Calm → Act.Returns A (store c) :=
    fun hc => Act.returns_perform (c := Call.store _) (hstore _ hc)
  refine Act.returns_bind (hread trivial) fun replacement => ?_
  cases replacement with
  | none => exact Act.returns_pure _
  | some r => exact Act.returns_bind (hread trivial) fun _ => Act.returns_pure _

theorem returns_rejectTainted (p : Payload) (root : NodeId) :
    Act.Returns Call.Calm (rejectTainted g p root) := by
  have hext : ∀ e : Ext, e.Plain → Call.Calm (.ext e) := fun _ _ => trivial
  exact Act.returns_bind (returns_store trivial) fun _ => Act.returns_bind (returns_store trivial)
    fun ids => Act.returns_bind (returns_recurrenceHook g (fun _ h => h) hext ids _) fun _ =>
      Act.returns_bind (returns_store trivial) fun _ => Act.returns_bind (returns_ext _) fun _ =>
        Act.returns_bind (returns_stampNow hext) fun _ => Act.returns_bind (returns_store trivial)
          fun _ => Act.returns_bind (returns_stampNow hext) fun _ => Act.returns_bind
            (returns_store trivial) fun _ =>
              Act.returns_bind (returns_offerReplacement (fun _ h => h) p root) fun _ => Act.returns_pure _

end Returns

/-! ## 5. A submission with a tainted parent -/

/-- The policy refuses, and the first tainted parent is the poisoned root. -/
theorem script_evaluateAdmission {p : Payload} {exists_ quarantined : NodeId → Bool} {auth : Claims}
    {Q : Except Exc Decision → World → Prop} {w : World}
    (htaint : ∃ x ∈ p.parentIds, quarantined x = true) (hQ : ∀ root, Q (.ok (.taintedParent root)) w) :
    Act.Sat (Scripted g o C) Trans.any (failClosed (evaluateAdmission p exists_ quarantined auth))
      Q w := by
  obtain ⟨x, hx, hq⟩ := htaint
  have hdeny : Policy.allowStateWrite (integrityInput p exists_ quarantined) = false := by
    rw [Bool.eq_false_iff]
    intro hallow
    have hclean := parents_of_allowStateWrite hallow x hx
    rw [hq] at hclean
    exact absurd hclean.2 (by simp)
  obtain ⟨root, rest, hfilter⟩ : ∃ root rest, p.parentIds.filter quarantined = root :: rest := by
    cases h : p.parentIds.filter quarantined with
    | nil => exact absurd hq (List.filter_eq_nil_iff.mp h x hx)
    | cons root rest => exact ⟨root, rest, rfl⟩
  have hrefusal : integrityRefusal p quarantined = .taintedParent root := by
    rw [integrityRefusal, hfilter]
  rw [failClosed, Act.sat_bind, Act.sat_attempt]
  refine script_answer (fun _ _ => trivial) ?_
  rw [Act.sat_bind, Act.sat_attempt]
  rintro r w' ⟨⟨rfl, rfl⟩, -⟩
  refine ⟨trivial, ?_⟩
  simp only [onOk_ok, Script.answer, Policy.rego, hdeny, hrefusal]
  exact hQ root

/-- **A submission with a tainted parent goes all the way**: the locked section returns. -/
theorem submitLocked_returns (hmode : g.settings.enforcementMode = .enforce) {p : Payload}
    (auth : Claims) (decisionId : String) {w : World} (hid : p.payloadId ∉ w.lin.ledger)
    (htaint : ∃ x ∈ p.parentIds, x ∈ w.lin.ledger)
    (hcovers : p.nodeType = some .compaction → ∀ x ∈ p.covers, x ∉ w.lin.ledger)
    (hfresh : decisionId ∉ w.db.shadowDecisions.map ShadowDecision.decisionId) :
    Act.Sat (Scripted g o C) Trans.any (submitLocked g p auth decisionId)
      (fun r w' => (∃ a, r = .ok a) ∧ w'.db.toJournal = w.db.toJournal) w := by
  have hidq : w.db.areQuarantined [p.payloadId] p.payloadId = false := by
    simpa [Db.areQuarantined] using hid
  have hq : ∃ x ∈ p.parentIds, w.db.areQuarantined p.parentIds x = true := by
    obtain ⟨x, hx, hl⟩ := htaint
    exact ⟨x, hx, by simpa [Db.areQuarantined, hx] using hl⟩
  -- once the covers are known to be clean, all that is left is the rejection and its record
  have hrest : ∀ p' : Payload, p'.parentIds = p.parentIds →
      Act.Sat (Scripted g o C) Trans.any (do
        let decision ← failClosed (evaluateAdmission p' (w.db.nodesExist p.parentIds)
          (w.db.areQuarantined p.parentIds) auth)
        enforce g p' (parentStatus p' (w.db.nodesExist p.parentIds)
          (w.db.areQuarantined p.parentIds)) (w.db.getNodeContentHashes p.parentIds) decisionId
          (auth.sub.getD "unknown") decision)
        (fun r w' => (∃ a, r = .ok a) ∧ w'.db.toJournal = w.db.toJournal) w := by
    intro p' hp'
    rw [Act.sat_bind]
    refine script_evaluateAdmission (by rwa [hp']) fun root => ?_
    simp only [onOk_ok, enforce]
    rw [Act.sat_bind]
    refine (sat_of_returns (returns_rejectTainted g p' root) w).mono ?_
    rintro r w₁ ⟨⟨a, rfl⟩, hd, hj⟩
    rw [onOk_ok, Act.sat_bind, recordDecision, Act.sat_bind]
    refine (sat_of_returns (returns_stampNow fun _ _ => trivial) w₁).mono ?_
    rintro r w₂ ⟨⟨t, rfl⟩, hd₂, hj₂⟩
    refine script_store (fun _ _ => trivial) ?_
    have hd' : decisionId ∉ w₂.db.shadowDecisions.map ShadowDecision.decisionId := by
      rwa [hd₂, hd]
    simp only [Store.exec, Db.recordShadowDecision, hd', if_false]
    exact ⟨⟨_, rfl⟩, hj₂.trans hj⟩
  unfold submitLocked
  simp only [hmode]
  refine script_read (fun _ _ => trivial) (by rfl) (script_pass hidq ?_)
  refine script_read (fun _ _ => trivial) (by rfl) (script_read (fun _ _ => trivial) (by rfl)
    (script_read (fun _ _ => trivial) (by rfl) ?_))
  rw [Act.sat_bind, prepareCompaction]
  split
  · rename_i hcomp
    refine script_read (fun _ _ => trivial) (by rfl) ?_
    split
    · exact hrest { p with coversIntervalGap := _ } rfl
    · refine script_read (fun _ _ => trivial) (by rfl) ?_
      rw [if_pos]
      · exact hrest { p with coversIntervalGap := _ } rfl
      · rw [List.filter_eq_nil_iff]
        intro x hx
        simpa [Db.areQuarantined, hx] using hcovers hcomp x hx
  · exact hrest p rfl

/-- At the time `t` and on the lineage `L`, the submission is one of the payload `p` and passes
every check in front of the policy, which will find a tainted parent. -/
structure Rejectable (g : Setup) (t : Time) (bytes : ℕ) (body : SubmitBody) (L : Lineage)
    (p : Payload) : Prop where
  parse : parseSubmission g bytes body = .ok p
  token : ∃ auth, verifyNhiJwt g.env t p.sessionToken p.identityId = .ok auth
  signature : verifyCryptographicSignature g.env p = true
  parents : p.parentIds.length ≤ 256
  unquarantined : p.payloadId ∉ L.ledger
  tainted : ∃ x ∈ p.parentIds, x ∈ L.ledger
  covers : p.nodeType = some .compaction → ∀ x ∈ p.covers, x ∉ L.ledger

theorem script_submitChecks (hP : ∀ e w r w', P (.ext e) w r w') {bytes : ℕ} {body : SubmitBody}
    {L : Lineage} {p : Payload} (h : Rejectable g o.now bytes body L p) {w : World}
    {Q : Except Exc (Payload × Claims × String) → World → Prop}
    (hQ : ∀ auth, Q (.ok (p, auth, o.uuid)) w) :
    Act.Sat (Scripted g o C) P (submitChecks g bytes body) Q w := by
  obtain ⟨auth, hauth⟩ := h.token
  rw [submitChecks, h.parse]
  change Act.Sat _ _ (verifyNhi g p.sessionToken p.identityId >>= _) _ _
  rw [Act.sat_bind, verifyNhi]
  refine script_answer (hP _ _) ?_
  change Act.Sat _ _ (check (verifyNhiJwt g.env o.now p.sessionToken p.identityId)) _ _
  rw [hauth]
  refine script_pass (by simp [h.signature]) (script_pass (by simpa using h.parents) ?_)
  exact script_answer (hP _ _) (hQ auth)

/-- The call writes the ledger. -/
def Call.WritesLedger : Call → Prop
  | .store (.applyQuarantineTransaction _ _) => True
  | _ => False

/-- **A submission with a tainted parent is rejected**: it is stored and its id enters the ledger.
The ledger write must meet `P`; `K` is what the condition `C` brings with it. -/
theorem submitCandidate_rejects
    (hmode : g.settings.enforcementMode = .enforce) {bytes : ℕ} {body : SubmitBody} {p : Payload}
    {w : World} (h : Rejectable g o.now bytes body w.lin p)
    (hfresh : o.uuid ∉ w.db.shadowDecisions.map ShadowDecision.decisionId)
    (hP : ∀ c w r w', ¬ c.WritesLedger → P c w r w') {K : Prop}
    (hK : ∀ event gap w₁ r w₂,
      w₁.lin = (w.lin.commitNode g.env.sha256 { p with coversIntervalGap := gap }).2 →
      EventFor g w₁.lin [p.payloadId] event → event.designatorIdentity = none →
      event.poisonedRootId ∈ p.parentIds →
      Scripted g o C (.store (.applyQuarantineTransaction event [p.payloadId])) w₁ r w₂ →
      P (.store (.applyQuarantineTransaction event [p.payloadId])) w₁ r w₂ ∧ K) :
    Act.Sat (Scripted g o C) P (submitCandidate g bytes body)
      (fun _ w' => K ∧ w'.db.toJournal = w.db.toJournal ∧ ∃ gap, w'.lin =
        (w.lin.commitNode g.env.sha256 { p with coversIntervalGap := gap }).2.quarantine
          [p.payloadId]) w := by
  have hsync : ∀ k w r w', P (.sync k) w r w' := fun _ _ _ _ => hP _ _ _ _ id
  have hquiet : ∀ c w r w', c.Quiet → P c w r w' := by
    intro c w r w' hc
    cases c with
    | store c =>
      cases c with
      | applyQuarantineTransaction event ids => exact absurd trivial hc
      | _ => exact hP _ _ _ _ id
    | _ => exact hP _ _ _ _ id
  rw [submitCandidate, Act.sat_bind]
  refine script_submitChecks (fun _ _ _ _ => hP _ _ _ _ id) h fun auth => ?_
  refine sat_withShared hsync
    (sat_withTransaction hsync (uses_submitLocked g (Call.of_noTx rfl) p auth _) ?_)
  have hreturns := submitLocked_returns (o := o) (C := C) (w := { w with saved := some w.db })
    hmode auth o.uuid h.unquarantined h.tainted h.covers hfresh
  have houtcome := sat_submitLocked (P := P) (K := fun site _ _ => site = .rejection → K)
    (acts_step o.lawful C) hmode p auth o.uuid { w with saved := some w.db }
    ⟨hquiet, fun _ _ _ _ _ _ => ⟨hP _ _ _ _ id, fun he => absurd he (by simp)⟩,
      fun _ _ _ _ _ _ => hP _ _ _ _ id, fun event gap w₁ r w₂ hw₁ hev hdes hroot _ ht =>
        ⟨(hK event gap w₁ r w₂ hw₁ hev hdes hroot ht).1,
          fun _ => (hK event gap w₁ r w₂ hw₁ hev hdes hroot ht).2⟩⟩
  refine (Prog.Sat.weaken (Prog.Sat.and hreturns houtcome) fun _ _ _ _ hp => hp.2).mono ?_
  rintro r w₁ ⟨⟨⟨a, rfl⟩, hjournal⟩, hout⟩
  change SubmitOutcome _ _ p w.lin a w₁.lin at hout
  obtain ⟨x, hx, hledger⟩ := h.tainted
  change K ∧ w₁.db.toJournal = w.db.toJournal ∧ ∃ gap, w₁.lin = _
  generalize w₁.lin = L at hout ⊢
  cases hout with
  | refused _ hclean => exact absurd hledger (hclean x hx)
  | admitted gap hid hparents hcovers hhashes hK' => exact absurd hledger (hparents x hx).2
  | rejected gap ha hid htainted hcovers hK' => exact ⟨hK' rfl, hjournal, gap, rfl⟩

/-- A uuid nobody has used. -/
theorem exists_fresh (used : List String) : ∃ u, u ∉ used := by
  obtain ⟨u, hu⟩ := Infinite.exists_notMem_finset used.toFinset
  exact ⟨u, fun h => hu (List.mem_toFinset.mpr h)⟩

/-! ## 6. The other endpoints -/

/-- A call that no condition on runs is about: it does not write the ledger, has nothing to do with
reconstruction, and commits only what its handler has checked itself. -/
def Call.Harmless : Call → Prop
  | .store (.commitNode site _) => site = .compaction ∨ site = .seedRoot
  | .store (.applyQuarantineTransaction _ _) => False
  | .store .getRepairCandidates => False
  | .ext (.reconstruct _) => False
  | _ => True

section Endpoints

variable {w : World} {f : Unit → Handler α} {Q : Except Exc α → World → Prop}
  (hP : ∀ c w r w', c.Harmless → P c w r w')

include hP

/-- `/context-compacted`, when everything it checks is in order, commits. -/
theorem contextCompacted_commits {e : ContextCompactedEvent} {ps : List ParentCommitment}
    (auth : Claims) (hps : carriedParents w.db.getDag e.compactedNodeIds = .ok ps)
    (hauth : verifyNhiJwt g.env o.now (compactionPayload g e ps).sessionToken
      (compactionPayload g e ps).identityId = .ok auth)
    (hsig : verifyCryptographicSignature g.env (compactionPayload g e ps) = true)
    (hclean : ∀ x ∈ e.compactedNodeIds, x ∉ w.lin.ledger) :
    Act.Sat (Scripted g o C) P (declareContextCompacted g e)
      (fun r w' => r = .ok { reply := .success "Compaction node committed to DAG." } ∧
        w' = { w with db := (w.db.commitNode g.env.sha256 (compactionPayload g e ps)).2 }) w := by
  rw [declareContextCompacted, Act.sat_bind]
  unfold compactionChecks
  refine script_read (fun _ _ => hP _ _ _ _ trivial) (by rfl) ?_
  rw [hps]
  change Act.Sat _ _ (verifyNhi g (compactionPayload g e ps).sessionToken _ >>= _) _ _
  rw [Act.sat_bind, verifyNhi]
  refine script_answer (fun _ _ => hP _ _ _ _ trivial) ?_
  change Act.Sat _ _ (check (verifyNhiJwt g.env o.now _ _)) _ _
  rw [hauth]
  refine script_pass (by simp [hsig]) (script_read (fun _ _ => hP _ _ _ _ trivial) (by rfl) ?_)
  rw [if_pos]
  · change Act.Sat _ _ (withShared _ >>= _) _ _
    rw [Act.sat_bind]
    exact sat_withShared (fun _ _ _ _ => hP _ _ _ _ trivial)
      (script_write (fun _ _ => hP _ _ _ _ (Or.inl rfl)) (by rfl) ⟨rfl, rfl⟩)
  · rw [List.filter_eq_nil_iff]
    intro x hx
    simpa [Db.areQuarantined, hx] using hclean x hx

/-- A valid role token. -/
theorem script_verifyRole {header : Option String} {role : String} {claims : Claims}
    {f : Claims → Handler α} (hclaims : verifyRoleJwt g.env o.now header role = .ok claims)
    (h : Act.Sat (Scripted g o C) P (f claims) Q w) :
    Act.Sat (Scripted g o C) P (verifyRole g header role >>= f) Q w := by
  rw [Act.sat_bind, verifyRole]
  refine script_answer (fun _ _ => hP _ _ _ _ trivial) ?_
  change Act.Sat _ _ (check (verifyRoleJwt g.env o.now header role)) _ _
  rw [hclaims]
  exact h

/-- `/seed-root` of an id that is not stored commits a node that names nothing. -/
theorem seedRoot_commits {header : Option String} {root : NodeId} {claims : Claims}
    (hclaims : verifyRoleJwt g.env o.now header "admin" = .ok claims) (hroot : root ≠ "")
    (hnew : root ∉ w.lin.nodeIds) :
    Act.Sat (Scripted g o C) P (seedRoot g header (some root))
      (fun _ w' => ∃ p : Payload, p.payloadId = root ∧ p.parents = [] ∧ p.covers = [] ∧
        w' = { w with db := (w.db.commitNode g.env.sha256 p).2 }) w := by
  unfold seedRoot
  refine script_verifyRole hP hclaims (script_pass (by simpa using hroot) ?_)
  refine script_read (fun _ _ => hP _ _ _ _ trivial) (by rfl) (script_pass ?_ ?_)
  · simpa [Db.nodesExist] using hnew
  · refine script_answer (fun _ _ => hP _ _ _ _ trivial)
      (script_answer (fun _ _ => hP _ _ _ _ trivial)
        (script_answer (fun _ _ => hP _ _ _ _ trivial)
          (script_answer (fun _ _ => hP _ _ _ _ trivial) ?_)))
    refine script_write (fun _ _ => hP _ _ _ _ (Or.inr rfl)) (by rfl) ?_
    exact ⟨_, rfl, rfl, rfl, rfl⟩

/-- The first designation of an identity is within every positive limit. -/
theorem script_limitDesignations {identity : String} {x : NodeId}
    (hlimit : 0 < g.settings.designationRateLimit) (hnone : w.db.signalAttempts = [])
    (h : Act.Sat (Scripted g o C) P (f ()) Q
      { w with db := w.db.recordSignalAttempt identity x "designation" "PENDING" o.now }) :
    Act.Sat (Scripted g o C) P (limitDesignations g identity x >>= f) Q w := by
  rw [Act.sat_bind, limitDesignations, Act.sat_bind, rateWindowStart]
  refine script_answer (fun _ _ => hP _ _ _ _ trivial)
    (script_read (fun _ _ => hP _ _ _ _ trivial) (by rfl) ?_)
  have hcount : ∀ since, w.db.countRecentSignals identity since = 0 := by
    intro since
    simp [Db.countRecentSignals, hnone]
  rw [if_neg (by rw [hcount]; simpa using hlimit), recordSignal]
  exact script_answer (fun _ _ => hP _ _ _ _ trivial)
    (script_store (fun _ _ => hP _ _ _ _ trivial) h)

/-- `/designate` of a node that is in the ledger answers 200 and changes nothing of the lineage. -/
theorem designate_already {header : Option String} {e : DesignationEvent} {claims : Claims}
    (hclaims : verifyRoleJwt g.env o.now header "designator" = .ok claims)
    (hlimit : 0 < g.settings.designationRateLimit) (hnone : w.db.signalAttempts = [])
    (hstored : e.poisonedNodeId ∈ w.lin.nodeIds) (hq : e.poisonedNodeId ∈ w.lin.ledger) :
    Act.Sat (Scripted g o C) P (designatePoison g header e)
      (fun r w' => r = .ok { reply := .alreadyQuarantined } ∧ w'.lin = w.lin) w := by
  have hsync : ∀ k w r w', P (.sync k) w r w' := fun _ _ _ _ => hP _ _ _ _ trivial
  unfold designatePoison
  refine script_verifyRole hP hclaims (script_limitDesignations hP hlimit hnone ?_)
  refine sat_withExclusive hsync (sat_withTransaction hsync
    (uses_designateLocked g (Call.of_noTx rfl) e _) ?_)
  unfold designateLocked
  refine script_read (fun _ _ => hP _ _ _ _ trivial) (by rfl)
    (script_read (fun _ _ => hP _ _ _ _ trivial) (by rfl) ?_)
  rw [if_neg, if_pos]
  · exact ⟨rfl, rfl⟩
  · simp only [Db.areQuarantined, List.mem_singleton, decide_true, Bool.true_and,
      decide_eq_true_eq]
    exact hq
  · simp only [Db.nodesExist, List.mem_singleton, decide_true, Bool.true_and, Bool.not_eq_true',
      decide_eq_false_iff_not, not_not]
    exact hstored

end Endpoints

/-! ## 7. A sample deployment

One agent and one designator, for runs on explicit inputs.  The hash is left open: all that such a
run depends on is that a digest has the form of one. -/

/-- The credentials of the deployment: the tokens and the two signatures that are valid. -/
def sampleEnv (sha256 : String → String) : Env where
  sha256 := sha256
  jwtDecode := fun _ token =>
    if token = "agent-token" then .ok { sub := some "agent-key" }
    else if token = "designator-token" then
      .ok { sub := some "designator-1", role := some "designator" }
    else if token = "admin-token" then .ok { sub := some "admin-1", role := some "admin" }
    else .error "Signature verification failed"
  ecdsaVerify := fun key signature _ =>
    (key = "agent-key" ∧ signature = "agent-signature") ∨
      (key = "adapter-key" ∧ signature = "adapter-signature")
  lower := String.toLower

def sampleSetup (sha256 : String → String) : Setup where
  settings := { enforcementMode := .enforce }
  env := sampleEnv sha256

/-- A payload of the agent without content. -/
def samplePayload (sha256 : String → String) (id : NodeId) (parents : List NodeId) : Payload where
  payloadId := id
  timestampUtc := some "2025-10-27T10:00:00Z"
  ephemeralNhi := some { identityId := some "agent-key", sessionToken := some "agent-token",
                         expiresAtUtc := some "2025-10-28T10:00:00Z" }
  declaredEvidenceBoundary := some ⟨"boundary-1", "2025-10-27T10:00:00Z", zeros64⟩
  parents := parents.map fun x => { parentNodeId := x, parentContentHash := some zeros64 }
  contentDigest := some (sha256 (Json.obj []).dumps)
  agentSignature := some "agent-signature"
  signatureAlgorithm := some "ECDSA-P256-SHA256"

theorem samplePayload_parentIds (sha256 : String → String) (id : NodeId) (parents : List NodeId) :
    (samplePayload sha256 id parents).parentIds = parents := by
  simp [samplePayload, Payload.parentIds, Function.comp_def]

theorem hex64_zeros64 : hex64 zeros64 = true := by decide

/-- The sample payload gets as far as the policy, and is rejected there. -/
theorem sample_rejectable {sha256 : String → String} (hsha : ∀ s, hex64 (sha256 s) = true)
    {t : Time} {L : Lineage} (id root : NodeId) (hid : id ∉ L.ledger) (hroot : root ∈ L.ledger) :
    Rejectable (sampleSetup sha256) t 512 (.payload (samplePayload sha256 id [root])) L
      (samplePayload sha256 id [root]) where
  parse := by
    have hschema : schemaValid (samplePayload sha256 id [root]) = true := by
      simp [schemaValid, samplePayload, hex64_zeros64, hsha]
    rw [parseSubmission, if_neg (by simp [sampleSetup])]
    simp only [hschema, if_true]
  token := ⟨{ sub := some "agent-key" }, by
    simp [verifyNhiJwt, sampleSetup, sampleEnv, samplePayload, Payload.sessionToken,
      Payload.identityId]⟩
  signature := by
    simp [verifyCryptographicSignature, sampleSetup, sampleEnv, samplePayload, contentHash,
      Payload.identityId]
  parents := by simp [samplePayload_parentIds]
  unquarantined := hid
  tainted := ⟨root, by simp [samplePayload_parentIds], hroot⟩
  covers := fun h => absurd h (by simp [samplePayload])

/-- A compaction event of the agent. -/
def sampleCompaction (id : NodeId) (ids : List NodeId) (method : String) : ContextCompactedEvent where
  compactedNodeIds := ids
  compactionNodeId := id
  timestampUtc := "2025-10-27T10:00:00Z"
  ephemeralNhi := { identityId := some "agent-key", sessionToken := some "agent-token" }
  stateContent := []
  agentSignature := "agent-signature"
  methodId := method

theorem sample_compaction_commits {sha256 : String → String} (id : NodeId) (ids : List NodeId)
    (method : String) (ps : List ParentCommitment) {w : World} {o : Script}
    {g : Setup} (hP : ∀ c w r w', c.Harmless → P c w r w') (henv : g.env = sampleEnv sha256)
    (hps : carriedParents w.db.getDag ids = .ok ps) (hclean : ∀ x ∈ ids, x ∉ w.lin.ledger) :
    Act.Sat (Scripted g o C) P
      (declareContextCompacted g (sampleCompaction id ids method))
      (fun r w' => r = .ok { reply := .success "Compaction node committed to DAG." } ∧
        w' = { w with db := (w.db.commitNode sha256
          (compactionPayload g (sampleCompaction id ids method) ps)).2 }) w := by
  have h := contextCompacted_commits (g := g) (o := o) (C := C)
    (e := sampleCompaction id ids method) hP { sub := some "agent-key" } hps
    (by simp [henv, verifyNhiJwt, sampleEnv, compactionPayload, sampleCompaction,
          Payload.sessionToken, Payload.identityId])
    (by simp [henv, verifyCryptographicSignature, sampleEnv, compactionPayload, sampleCompaction,
          Payload.identityId])
    hclean
  rw [henv] at h
  exact h

theorem sample_designator {sha256 : String → String} {t : Time} :
    verifyRoleJwt (sampleEnv sha256) t (some "Bearer designator-token") "designator" =
      .ok { sub := some "designator-1", role := some "designator" } := by
  have htoken : bearerToken "Bearer designator-token" = "designator-token" := by decide
  have hbearer : "Bearer ".toList.isPrefixOf "Bearer designator-token".toList = true := by decide
  simp only [verifyRoleJwt, hbearer, if_true, sampleEnv, htoken]
  rfl

theorem sample_admin {sha256 : String → String} {t : Time} :
    verifyRoleJwt (sampleEnv sha256) t (some "Bearer admin-token") "admin" =
      .ok { sub := some "admin-1", role := some "admin" } := by
  have htoken : bearerToken "Bearer admin-token" = "admin-token" := by decide
  have hbearer : "Bearer ".toList.isPrefixOf "Bearer admin-token".toList = true := by decide
  simp only [verifyRoleJwt, hbearer, if_true, sampleEnv, htoken]
  rfl

/-! ## 8. An open deployment

Every token is valid and speaks for the identity and the role it spells, signatures are valid, there
is no recovery adapter and the digest of an empty content is the real one: everything a handler does
can be evaluated. -/

/-- The SHA-256 of an empty content, that is, of a pair of braces. -/
def emptyDigest : String := "44136fa355b3678a1146ad16f7e8649e94fb4fc21fe77e8310c060f61caaff8a"

def openSetup : Setup where
  settings := { enforcementMode := .enforce, maxTraversalDepth := 8 }
  env :=
    { sha256 := fun s => if s = "\x7b\x7d" then emptyDigest else zeros64
      jwtDecode := fun _ token => .ok
        { sub := some token, role := some token, isNhi := some (.bool true),
          expiresAtEpoch := some (.int 4102444800), scope := some (.str "agent:state:reconstruct"),
          verifierExecutionStatus := some (.str "PASSED") }
      ecdsaVerify := fun _ _ _ => true
      lower := String.toLower }

/-- The open deployment without continuity. -/
def plainSetup : Setup :=
  { openSetup with settings := { openSetup.settings with continuityEnabled := false } }

/-- The script of a request, with the one uuid it is given. -/
def openScript (uuid : String) : Script :=
  { now := 0, uuid := uuid, key := "inline-key", signature := "signature" }

/-- Requests that are given the uuids 0, 1, 2 and so on. -/
def openRun (reqs : List Request) : List (Script × Request) :=
  reqs.zipIdx.map fun r => (openScript (toString r.2), r.1)

/-- The world after them, from a reset. -/
def openWorld (reqs : List Request) (key : Option String) : World :=
  Script.handleAll openSetup (openRun reqs) (World.initial openSetup {} key)

theorem openRun_requests (reqs : List Request) : (openRun reqs).map Prod.snd = reqs := by
  rw [openRun, List.map_map]
  exact List.zipIdx_map_fst 0 reqs

theorem exists_open_run (reqs : List Request) (key : Option String) : ∃ hs,
    Run openSetup (Step openSetup Answers.lawful) (World.initial openSetup {} key) hs
      (openWorld reqs key) ∧ hs.map Handled.request = reqs := by
  obtain ⟨hs, hrun, hreqs⟩ :=
    Script.exists_run openSetup (openRun reqs) (World.initial openSetup {} key)
  exact ⟨hs, hrun, hreqs.trans (openRun_requests reqs)⟩

/-- A summary without content. -/
def openSummary (id : NodeId) (ids : List NodeId) : Request :=
  .contextCompacted
    { compactedNodeIds := ids, compactionNodeId := id, timestampUtc := "", stateContent := [],
      ephemeralNhi := { identityId := some "agent", sessionToken := some "agent" },
      agentSignature := "signature", methodId := "llm-v1" }

/-- A payload without content. -/
def openPayload (agent : String) (id : NodeId) (parents : List NodeId) : Payload where
  payloadId := id
  timestampUtc := some "2025-10-27T10:00:00Z"
  ephemeralNhi := some { identityId := some agent, sessionToken := some agent,
                         expiresAtUtc := some "2025-10-28T10:00:00Z" }
  declaredEvidenceBoundary := some ⟨"boundary-1", "2025-10-27T10:00:00Z", zeros64⟩
  parents := parents.map fun x => { parentNodeId := x, parentContentHash := some zeros64 }
  contentDigest := some emptyDigest
  agentSignature := some "signature"
  signatureAlgorithm := some "ECDSA-P256-SHA256"

def openSubmission (id : NodeId) (parents : List NodeId) : Request :=
  .submitCandidate 512 (.payload (openPayload "agent" id parents))

def openCheckpoint (target : NodeId) : Request :=
  .checkpoint (some "Bearer admin") ⟨"checkpoint-1", target, "2025-10-27", []⟩

def openReport (x : NodeId) : Request :=
  .detector (some "Bearer designator") "human_report" { nodeId := some x }

/-- A summary of the root, and a summary of both; then a checkpoint of the root, and a report of the
first summary.  The second can be rebuilt from the root. -/
def rebuildRequests : List Request :=
  [openSummary "summary-0" ["clean-parent-1"],
    openSummary "summary-1" ["clean-parent-1", "summary-0"],
    openCheckpoint "clean-parent-1", openReport "summary-0"]

end GovernorGateway
