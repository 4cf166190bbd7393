/-
# The handlers on the in-memory backend

The programs of the handlers do not know their backend.  `MemoryStep` runs the same programs on a
`Memory`: the store functions are its own, and the calls of a transaction do nothing.
-/
import GovernorGateway.Memory.Backend
import GovernorGateway.Semantics.Scripted

namespace GovernorGateway

open Effects

structure MemoryWorld where
  memory : Memory
  adapterKey : Option String := none

/-- The state right after `reset`. -/
def MemoryWorld.initial (m : Memory) (adapterKey : Option String) : MemoryWorld :=
  { memory := m.reset, adapterKey := adapterKey }

/-- A call, when nothing else runs; `dumps` is the text of a stored payload. -/
def MemoryStep (g : Setup) (dumps : Payload → String) (answers : Answers) :
    Trans Call Call.Res Exc MemoryWorld
  | .store c, w, r, w' =>
    r = (w.memory.exec g dumps c).1 ∧ w' = { w with memory := (w.memory.exec g dumps c).2 }
  | .ext e, w, r, w' => answers e r ∧ w' = w
  | .sync _, w, r, w' => r = .ok () ∧ w' = w
  | .getAdapterKey, w, r, w' => r = .ok w.adapterKey ∧ w' = w
  | .setAdapterKey key, w, r, w' => r = .ok () ∧ w' = { w with adapterKey := some key }

/-! ## 1. Requests one after the other -/

section Serves

variable {σ : Type} {g : Setup} {T : Trans Call Call.Res Exc σ} {I : σ → Prop}

/-- The requests, each handled to its end, on any backend. -/
inductive Serves (g : Setup) (T : Trans Call Call.Res Exc σ) : σ → List Request → σ → Prop
  | nil (s : σ) : Serves g T s [] s
  | cons {req : Request} {reqs : List Request} {s s₁ s' : σ} {r : Except Exc Response}
      {tr : List (Event Call Call.Res Exc σ)} :
      Exec T (req.handle g).tree s tr r s₁ → Serves g T s₁ reqs s' → Serves g T s (req :: reqs) s'

/-- The invariant rule. -/
theorem Serves.invariant {s s' : σ} {reqs : List Request} (hrun : Serves g T s reqs s')
    (hI : ∀ (req : Request) s, I s → Act.Sat T Trans.any (req.handle g) (fun _ s' => I s') s)
    (hs : I s) : I s' := by
  induction hrun with
  | nil s => exact hs
  | @cons req reqs s s₁ s' r tr hexec _ ih => exact ih (Prog.Sat.sound (hI req s hs) hexec).2

theorem Serves.mono {T' : Trans Call Call.Res Exc σ} (hT : ∀ c s r s', T c s r s' → T' c s r s')
    {s s' : σ} {reqs : List Request} (h : Serves g T s reqs s') : Serves g T' s reqs s' := by
  induction h with
  | nil s => exact .nil s
  | cons hexec _ ih => exact .cons (hexec.mono hT) ih

end Serves

/-! ## 2. Evaluating a run -/

variable {g : Setup} {dumps : Payload → String}

/-- What a call does under the script. -/
def Script.memoryStep (o : Script) (g : Setup) (dumps : Payload → String) :
    (c : Call) → MemoryWorld → Except Exc c.Res × MemoryWorld
  | .store c, w => ((w.memory.exec g dumps c).1, { w with memory := (w.memory.exec g dumps c).2 })
  | .ext e, w => (.ok (o.answer e), w)
  | .sync _, w => (.ok (), w)
  | .getAdapterKey, w => (.ok w.adapterKey, w)
  | .setAdapterKey key, w => (.ok (), { w with adapterKey := some key })

theorem Script.memoryStep_spec (o : Script) (c : Call) (w : MemoryWorld) :
    MemoryStep g dumps Answers.lawful c w (o.memoryStep g dumps c w).1
      (o.memoryStep g dumps c w).2 := by
  cases c with
  | store c => exact ⟨rfl, rfl⟩
  | ext e => exact ⟨o.lawful e _ rfl, rfl⟩
  | sync k => exact ⟨rfl, rfl⟩
  | getAdapterKey => exact ⟨rfl, rfl⟩
  | setAdapterKey key => exact ⟨rfl, rfl⟩

/-- Requests one after the other, each under its own script: the world after them. -/
def Script.memoryAll (g : Setup) (dumps : Payload → String) :
    List (Script × Request) → MemoryWorld → MemoryWorld
  | [], w => w
  | (o, req) :: rest, w =>
    memoryAll g dumps rest ((req.handle g).tree.run (o.memoryStep g dumps) w).2

theorem Script.exists_serves : ∀ (reqs : List (Script × Request)) (w : MemoryWorld),
    Serves g (MemoryStep g dumps Answers.lawful) w (reqs.map Prod.snd)
      (Script.memoryAll g dumps reqs w)
  | [], w => .nil w
  | (o, req) :: rest, w => by
    have hspec : ∀ c w, MemoryStep g dumps Answers.lawful c w (o.memoryStep g dumps c w).1
        (o.memoryStep g dumps c w).2 := o.memoryStep_spec
    obtain ⟨tr, hexec⟩ := Prog.exists_exec hspec (req.handle g).tree w
    exact .cons hexec (Script.exists_serves rest _)

/-! ## 3. Checked runs, on any backend -/

section Checked

variable {σ : Type} (step : Script → (c : Call) → σ → Except Exc c.Res × σ)

/-- Requests one after the other, each under its own script: the state after them. -/
def Script.serveAll (g : Setup) : List (Script × Request) → σ → σ
  | [], s => s
  | (o, req) :: rest, s => serveAll g rest ((req.handle g).tree.run (step o) s).2

/-- Every call of these requests passes a check. -/
def Script.servePasses (g : Setup) (check : Call → σ → Bool) : List (Script × Request) → σ → Bool
  | [], _ => true
  | (o, req) :: rest, s => (req.handle g).tree.passes (step o) check s &&
    servePasses g check rest ((req.handle g).tree.run (step o) s).2

variable {step} {T P : Trans Call Call.Res Exc σ} {check : Call → σ → Bool}

theorem Script.servePasses_true : ∀ (reqs : List (Script × Request)) (s : σ),
    Script.servePasses step g (fun _ _ => true) reqs s = true
  | [], _ => rfl
  | (o, req) :: rest, s => by
    rw [Script.servePasses, Prog.passes_true, Script.servePasses_true rest]
    rfl

/-- **What is evaluated is a run**, over the calls that were checked. -/
theorem Script.serves_checked (hstep : ∀ o c s, T c s (step o c s).1 (step o c s).2)
    (hcheck : ∀ o c s, check c s = true → P c s (step o c s).1 (step o c s).2) :
    ∀ (reqs : List (Script × Request)) (s : σ), Script.servePasses step g check reqs s = true →
      Serves g (fun c s r s' => T c s r s' ∧ P c s r s') s (reqs.map Prod.snd)
        (Script.serveAll step g reqs s)
  | [], s, _ => .nil s
  | (o, req) :: rest, s, hpass => by
    obtain ⟨hp, hrest⟩ := Bool.and_eq_true_iff.mp hpass
    obtain ⟨tr, hexec, htr⟩ := Prog.run_exec (hstep o) (hcheck o) (req.handle g).tree s hp
    exact .cons (hexec.restrict htr) (Script.serves_checked hstep hcheck rest _ hrest)

end Checked

end GovernorGateway
