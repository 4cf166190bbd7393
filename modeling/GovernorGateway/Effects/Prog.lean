/-
# Programs as trees of calls

A handler of an asynchronous service is, to the scheduler, a SEQUENCE OF CALLS: it awaits one
call, looks at the answer (or at the exception the call raised) and goes on.  `Prog` is that
tree.  It says nothing about what a call does; the meaning is a transition relation given
separately, so that one program can be run alone, against a demonic environment, or
interleaved with other programs (`Effects/Interleave.lean`), without being written twice.

* `Act` is `Prog` with Python's exceptions on top: an `Except` result that `bind` propagates,
  and that `attempt` and `always` can look at.
* `Prog.Sat T P p Q s` is the program logic: every run of `p` from `s` under the transitions
  `T` makes only calls that meet `P`, and every complete one ends in `Q`.
* `Exec` is the big-step relation with its trace of calls; `Prog.Sat.sound` is the adequacy
  theorem that turns the logic into a statement about runs.
* `Prog.run` evaluates a program with a function that answers the calls; `Prog.run_exec` says
  that what it computes is a run.
-/
import Mathlib.Logic.Basic
import Mathlib.Data.List.Basic

namespace Effects

/-! ## 1. Programs -/

/-- A program that has returned, or that makes one call and continues with the answer.  A call
answers with a value of its own type or raises an exception of type `E`. -/
inductive Prog (C : Type) (R : C → Type) (E α : Type) where
  | ret (a : α)
  | call (c : C) (k : Except E (R c) → Prog C R E α)

variable {C : Type} {R : C → Type} {E σ α β : Type}

/-- Sequencing: the second program starts where the first has returned. -/
def Prog.bind (p : Prog C R E α) (f : α → Prog C R E β) : Prog C R E β :=
  match p with
  | .ret a => f a
  | .call c k => .call c (fun r => (k r).bind f)

/-- A program that may end in an exception. -/
structure Act (C : Type) (R : C → Type) (E α : Type) where
  tree : Prog C R E (Except E α)

namespace Act

/-- Sequencing of actions: an exception skips the rest. -/
protected def bind (x : Act C R E α) (f : α → Act C R E β) : Act C R E β :=
  ⟨x.tree.bind fun
    | .ok a => (f a).tree
    | .error e => .ret (.error e)⟩

instance : Monad (Act C R E) where
  pure a := ⟨.ret (.ok a)⟩
  bind := Act.bind

/-- `raise e`. -/
def raise (e : E) : Act C R E α := ⟨.ret (.error e)⟩

/-- Await one call. -/
def perform (c : C) : Act C R E (R c) := ⟨.call c .ret⟩

/-- Raise when the test succeeds. -/
def raiseIf (b : Bool) (e : E) : Act C R E Unit := if b then raise e else pure ()

/-- Run the action and hand its result over, exception or not: the body of a `try`. -/
def attempt (x : Act C R E α) : Act C R E (Except E α) := ⟨x.tree.bind fun r => .ret (.ok r)⟩

/-- Go on with a result that `attempt` has caught. -/
def resume (r : Except E α) : Act C R E α := ⟨.ret r⟩

/-- `try: x finally: fin`. -/
def always (x : Act C R E α) (fin : Act C R E Unit) : Act C R E α :=
  x.attempt >>= fun r => fin >>= fun _ => resume r

/-- `for x in xs: f x`. -/
def forEach (f : β → Act C R E Unit) : List β → Act C R E Unit
  | [] => pure ()
  | x :: xs => f x >>= fun _ => forEach f xs

/-- `for x in xs: acc = f(acc, x)`. -/
def fold (f : α → β → Act C R E α) : List β → α → Act C R E α
  | [], a => pure a
  | x :: xs, a => f a x >>= fun a' => fold f xs a'

end Act

/-! ## 2. The program logic -/

/-- What a call may do: the state before, the answer, the state after. -/
abbrev Trans (C : Type) (R : C → Type) (E σ : Type) : Type :=
  (c : C) → σ → Except E (R c) → σ → Prop

/-- Every run of the program from `s` makes only calls that meet `P`, and ends in `Q`. -/
def Prog.Sat (T P : Trans C R E σ) : Prog C R E α → (α → σ → Prop) → σ → Prop
  | .ret a, Q, s => Q a s
  | .call c k, Q, s => ∀ r s', T c s r s' → P c s r s' ∧ (k r).Sat T P Q s'

/-- The obligation on calls that asks for nothing. -/
def Trans.any : Trans C R E σ := fun _ _ _ _ => True

variable {T P : Trans C R E σ}

theorem Prog.Sat.mono {p : Prog C R E α} {Q Q' : α → σ → Prop} {s : σ}
    (h : p.Sat T P Q s) (hQ : ∀ a s, Q a s → Q' a s) : p.Sat T P Q' s := by
  induction p generalizing s with
  | ret a => exact hQ a s h
  | call c k ih => exact fun r s' ht => ⟨(h r s' ht).1, ih r (h r s' ht).2⟩

/-- The same program may be asked for two things one after the other. -/
theorem Prog.Sat.and {p : Prog C R E α} {P' : Trans C R E σ} {Q Q' : α → σ → Prop} {s : σ}
    (h : p.Sat T P Q s) (h' : p.Sat T P' Q' s) :
    p.Sat T (fun c s r s' => P c s r s' ∧ P' c s r s') (fun a s => Q a s ∧ Q' a s) s := by
  induction p generalizing s with
  | ret a => exact ⟨h, h'⟩
  | call c k ih =>
    exact fun r s' ht => ⟨⟨(h r s' ht).1, (h' r s' ht).1⟩, ih r (h r s' ht).2 (h' r s' ht).2⟩

/-- A weaker obligation on calls. -/
theorem Prog.Sat.weaken {p : Prog C R E α} {P' : Trans C R E σ} {Q : α → σ → Prop} {s : σ}
    (h : p.Sat T P Q s) (hP : ∀ c s r s', P c s r s' → P' c s r s') : p.Sat T P' Q s := by
  induction p generalizing s with
  | ret a => exact h
  | call c k ih => exact fun r s' ht => ⟨hP _ _ _ _ (h r s' ht).1, ih r (h r s' ht).2⟩

/-- Fewer transitions, fewer runs. -/
theorem Prog.Sat.restrict {p : Prog C R E α} {T' : Trans C R E σ} {Q : α → σ → Prop} {s : σ}
    (h : p.Sat T P Q s) (hT : ∀ c s r s', T' c s r s' → T c s r s') : p.Sat T' P Q s := by
  induction p generalizing s with
  | ret a => exact h
  | call c k ih =>
    exact fun r s' ht => ⟨(h r s' (hT _ _ _ _ ht)).1, ih r (h r s' (hT _ _ _ _ ht)).2⟩

/-- A program verified over a smaller state runs the same way over a larger one, as long as a call
that meets its obligation stays within the image of `f`. -/
theorem Prog.Sat.lift {τ : Type} {T' P' : Trans C R E τ} {f : σ → τ}
    (hf : ∀ c s r t, T' c (f s) r t →
      ∃ s', T c s r s' ∧ (P c s r s' → P' c (f s) r t ∧ t = f s'))
    {p : Prog C R E α} {Q : α → σ → Prop} {s : σ} (h : p.Sat T P Q s) :
    p.Sat T' P' (fun a t => ∃ s', t = f s' ∧ Q a s') (f s) := by
  induction p generalizing s with
  | ret a => exact ⟨s, rfl, h⟩
  | call c k ih =>
    intro r t ht
    obtain ⟨s', hT, hP⟩ := hf c s r t ht
    obtain ⟨hp, hk⟩ := h r s' hT
    obtain ⟨hp', rfl⟩ := hP hp
    exact ⟨hp', ih r hk⟩

/-- The same for a relation: what is verified over an abstract state holds of any state it stands
for. -/
theorem Prog.Sat.simulate {τ : Type} {T' : Trans C R E τ} {I : σ → τ → Prop}
    (hstep : ∀ c s t r t', I s t → T' c t r t' →
      ∃ s', T c s r s' ∧ (P c s r s' → I s' t'))
    {p : Prog C R E α} {Q : α → σ → Prop} {s : σ} {t : τ} (h : p.Sat T P Q s) (hI : I s t) :
    p.Sat T' Trans.any (fun a t => ∃ s, I s t ∧ Q a s) t := by
  induction p generalizing s t with
  | ret a => exact ⟨s, hI, h⟩
  | call c k ih =>
    intro r t' ht
    obtain ⟨s', hT, hkeep⟩ := hstep c s t r t' hI ht
    obtain ⟨hp, hk⟩ := h r s' hT
    exact ⟨trivial, ih r hk (hkeep hp)⟩

/-- What every call that meets its obligation keeps, the program keeps. -/
theorem Prog.Sat.invariant {p : Prog C R E α} {I : σ → Prop} {Q : α → σ → Prop} {s : σ}
    (h : p.Sat T P Q s) (hstep : ∀ c s r s', I s → T c s r s' → P c s r s' → I s') (hs : I s) :
    p.Sat T P (fun a s' => Q a s' ∧ I s') s := by
  induction p generalizing s with
  | ret a => exact ⟨h, hs⟩
  | call c k ih =>
    intro r s' ht
    obtain ⟨hp, hk⟩ := h r s' ht
    exact ⟨hp, ih r hk (hstep c s r s' hs ht hp)⟩

theorem Prog.sat_bind {p : Prog C R E α} {f : α → Prog C R E β} {Q : β → σ → Prop} {s : σ} :
    (p.bind f).Sat T P Q s ↔ p.Sat T P (fun a s' => (f a).Sat T P Q s') s := by
  induction p generalizing s with
  | ret a => exact Iff.rfl
  | call c k ih =>
    constructor
    · exact fun h r s' ht => ⟨(h r s' ht).1, (ih r).mp (h r s' ht).2⟩
    · exact fun h r s' ht => ⟨(h r s' ht).1, (ih r).mpr (h r s' ht).2⟩

/-- The logic for actions: one postcondition, on the `Except` result. -/
def Act.Sat (T P : Trans C R E σ) (x : Act C R E α) (Q : Except E α → σ → Prop) (s : σ) : Prop :=
  x.tree.Sat T P Q s

theorem Act.Sat.mono {x : Act C R E α} {Q Q' : Except E α → σ → Prop} {s : σ}
    (h : Act.Sat T P x Q s) (hQ : ∀ r s, Q r s → Q' r s) : Act.Sat T P x Q' s :=
  Prog.Sat.mono h hQ

/-- A postcondition that an exception meets at once, and a value when `f` of it does. -/
def onOk (f : α → σ → Prop) (g : E → σ → Prop) : Except E α → σ → Prop
  | .ok a, s => f a s
  | .error e, s => g e s

@[simp] theorem onOk_ok (f : α → σ → Prop) (g : E → σ → Prop) (a : α) (s : σ) :
    onOk f g (.ok a) s = f a s := rfl

@[simp] theorem onOk_error (f : α → σ → Prop) (g : E → σ → Prop) (e : E) (s : σ) :
    onOk f g (.error e) s = g e s := rfl

namespace Act

variable {Q : Except E β → σ → Prop} {s : σ}

@[simp] theorem sat_pure {Q : Except E α → σ → Prop} (a : α) :
    Act.Sat T P (pure a : Act C R E α) Q s ↔ Q (.ok a) s := Iff.rfl

@[simp] theorem sat_raise {Q : Except E α → σ → Prop} (e : E) :
    Act.Sat T P (raise e : Act C R E α) Q s ↔ Q (.error e) s := Iff.rfl

@[simp] theorem sat_resume {Q : Except E α → σ → Prop} (r : Except E α) :
    Act.Sat T P (resume r : Act C R E α) Q s ↔ Q r s := Iff.rfl

@[simp] theorem sat_perform (c : C) {Q : Except E (R c) → σ → Prop} :
    Act.Sat T P (perform c : Act C R E (R c)) Q s ↔
      ∀ r s', T c s r s' → P c s r s' ∧ Q r s' := Iff.rfl

theorem sat_bind {x : Act C R E α} {f : α → Act C R E β} :
    Act.Sat T P (x >>= f) Q s ↔
      Act.Sat T P x (onOk (fun a s' => Act.Sat T P (f a) Q s') (fun e s' => Q (.error e) s')) s := by
  change Prog.Sat T P (x.tree.bind _) Q s ↔ Prog.Sat T P x.tree _ s
  rw [Prog.sat_bind]
  constructor
  · intro h
    refine h.mono ?_
    rintro (e | a) s' h'
    · exact h'
    · exact h'
  · intro h
    refine h.mono ?_
    rintro (e | a) s' h'
    · exact h'
    · exact h'

theorem sat_attempt {x : Act C R E α} {Q : Except E (Except E α) → σ → Prop} :
    Act.Sat T P x.attempt Q s ↔ Act.Sat T P x (fun r s' => Q (.ok r) s') s := by
  change Prog.Sat T P (x.tree.bind _) Q s ↔ _
  rw [Prog.sat_bind]
  exact Iff.rfl

theorem sat_raiseIf (b : Bool) (e : E) {Q : Except E Unit → σ → Prop} :
    Act.Sat T P (raiseIf b e : Act C R E Unit) Q s ↔
      (b = true → Q (.error e) s) ∧ (b = false → Q (.ok ()) s) := by
  cases b <;> simp [raiseIf]

theorem sat_always {x : Act C R E β} {fin : Act C R E Unit} :
    Act.Sat T P (always x fin) Q s ↔
      Act.Sat T P x (fun r s' =>
        Act.Sat T P fin (onOk (fun _ s'' => Q r s'') (fun e s'' => Q (.error e) s'')) s') s := by
  rw [always, sat_bind, sat_attempt]
  simp only [onOk_ok, sat_bind, sat_resume]

/-- **The loop rule.**  `I` is kept by one round that ends normally; a round that raises must
already give the postcondition. -/
theorem sat_forEach {f : β → Act C R E Unit} {I : σ → Prop} {X : E → σ → Prop} (xs : List β)
    (hf : ∀ x ∈ xs, ∀ s, I s → Act.Sat T P (f x) (onOk (fun _ s' => I s') X) s) (h : I s) :
    Act.Sat T P (forEach f xs) (onOk (fun _ s' => I s') X) s := by
  induction xs generalizing s with
  | nil => exact h
  | cons x xs ih =>
    rw [forEach, sat_bind]
    refine (hf x (List.mem_cons_self) s h).mono ?_
    rintro (e | a) s' h'
    · exact h'
    · exact ih (fun y hy => hf y (List.mem_cons_of_mem _ hy)) h'

/-- The loop rule for a loop whose rounds each get something done that later rounds do not undo. -/
theorem sat_forEach_each {f : β → Act C R E Unit} {I : σ → Prop} {D : β → σ → Prop}
    {X : E → σ → Prop} : ∀ (xs : List β) {s : σ},
    (∀ x ∈ xs, ∀ s, I s → Act.Sat T P (f x)
      (onOk (fun _ s' => I s' ∧ D x s' ∧ ∀ y, D y s → D y s') X) s) → I s →
      Act.Sat T P (forEach f xs)
        (onOk (fun _ s' => I s' ∧ (∀ x ∈ xs, D x s') ∧ ∀ y, D y s → D y s') X) s
  | [], s, _, h => ⟨h, by simp, fun _ hy => hy⟩
  | x :: xs, s, hf, h => by
    rw [forEach, sat_bind]
    refine (hf x List.mem_cons_self s h).mono ?_
    rintro (e | a) s₁ h₁
    · exact h₁
    · obtain ⟨hI, hx, hkeep⟩ := h₁
      have hrest := sat_forEach_each xs (fun y hy => hf y (List.mem_cons_of_mem _ hy)) hI
      refine Act.Sat.mono hrest ?_
      rintro (e | b) s₂ h₂
      · exact h₂
      · obtain ⟨hI₂, hxs, hkeep₂⟩ := h₂
        refine ⟨hI₂, ?_, fun y hy => hkeep₂ y (hkeep y hy)⟩
        intro y hy
        rcases List.mem_cons.mp hy with rfl | hy
        · exact hkeep₂ y hx
        · exact hxs y hy

/-- The loop rule for a loop with an accumulator. -/
theorem sat_fold {f : α → β → Act C R E α} {I : α → σ → Prop} {X : E → σ → Prop} (xs : List β)
    (hf : ∀ x ∈ xs, ∀ a s, I a s → Act.Sat T P (f a x) (onOk I X) s) {a : α} (h : I a s) :
    Act.Sat T P (fold f xs a) (onOk I X) s := by
  induction xs generalizing s a with
  | nil => exact h
  | cons x xs ih =>
    rw [fold, sat_bind]
    refine (hf x (List.mem_cons_self) a s h).mono ?_
    rintro (e | a') s' h'
    · exact h'
    · exact ih (fun y hy => hf y (List.mem_cons_of_mem _ hy)) h'

end Act

/-! ## 3. Which calls a program can make at all -/

/-- Every call on every branch of the program is one of `A`. -/
def Prog.Uses (A : C → Prop) : Prog C R E α → Prop
  | .ret _ => True
  | .call c k => A c ∧ ∀ r, (k r).Uses A

theorem Prog.uses_bind {A : C → Prop} {p : Prog C R E α} {f : α → Prog C R E β}
    (hp : p.Uses A) (hf : ∀ a, (f a).Uses A) : (p.bind f).Uses A := by
  induction p with
  | ret a => exact hf a
  | call c k ih => exact ⟨hp.1, fun r => ih r (hp.2 r)⟩

theorem Prog.Uses.mono {A B : C → Prop} {p : Prog C R E α} (h : p.Uses A)
    (hAB : ∀ c, A c → B c) : p.Uses B := by
  induction p with
  | ret a => trivial
  | call c k ih => exact ⟨hAB c h.1, fun r => ih r (h.2 r)⟩

/-- **The frame rule.**  If every call of `A` keeps `I` and meets `P`, so does a program that
makes no other calls, whatever it computes. -/
theorem Prog.Uses.sat {A : C → Prop} {p : Prog C R E α} {I : σ → Prop} (h : p.Uses A)
    (hA : ∀ c, A c → ∀ s r s', T c s r s' → I s → P c s r s' ∧ I s') {s : σ} (hs : I s) :
    p.Sat T P (fun _ => I) s := by
  induction p generalizing s with
  | ret a => exact hs
  | call c k ih =>
    intro r s' ht
    have hc := hA c h.1 s r s' ht hs
    exact ⟨hc.1, ih r (h.2 r) hc.2⟩

namespace Act

variable {A : C → Prop}

/-- `Prog.Uses` read at an action. -/
def Uses (A : C → Prop) (x : Act C R E α) : Prop := x.tree.Uses A

@[simp] theorem uses_pure (a : α) : Uses A (pure a : Act C R E α) := trivial

@[simp] theorem uses_raise (e : E) : Uses A (raise e : Act C R E α) := trivial

@[simp] theorem uses_resume (r : Except E α) : Uses A (resume r : Act C R E α) := trivial

@[simp] theorem uses_perform (c : C) : Uses A (perform c : Act C R E (R c)) ↔ A c :=
  ⟨fun h => h.1, fun h => ⟨h, fun _ => trivial⟩⟩

theorem uses_bind {x : Act C R E α} {f : α → Act C R E β} (hx : Uses A x)
    (hf : ∀ a, Uses A (f a)) : Uses A (x >>= f) := by
  refine Prog.uses_bind hx ?_
  rintro (e | a)
  · trivial
  · exact hf a

@[simp] theorem uses_raiseIf (b : Bool) (e : E) : Uses A (raiseIf b e : Act C R E Unit) := by
  cases b <;> exact trivial

theorem uses_attempt {x : Act C R E α} (hx : Uses A x) : Uses A x.attempt :=
  Prog.uses_bind hx fun _ => trivial

theorem uses_always {x : Act C R E α} {fin : Act C R E Unit} (hx : Uses A x)
    (hf : Uses A fin) : Uses A (always x fin) :=
  uses_bind (uses_attempt hx) fun _ => uses_bind hf fun _ => trivial

theorem uses_forEach {f : β → Act C R E Unit} (hf : ∀ x, Uses A (f x)) :
    ∀ xs : List β, Uses A (forEach f xs)
  | [] => trivial
  | x :: xs => uses_bind (hf x) fun _ => uses_forEach hf xs

theorem uses_fold {f : α → β → Act C R E α} (hf : ∀ a x, Uses A (f a x)) :
    ∀ (xs : List β) (a : α), Uses A (fold f xs a)
  | [], _ => trivial
  | x :: xs, a => uses_bind (hf a x) fun a' => uses_fold hf xs a'

/-- The frame rule in front of the rest of a program. -/
theorem Uses.sat_bind {x : Act C R E α} {f : α → Act C R E β} {I : σ → Prop}
    {Q : Except E β → σ → Prop} {s : σ} (hx : Uses A x)
    (hA : ∀ c, A c → ∀ s r s', T c s r s' → I s → P c s r s' ∧ I s') (hs : I s)
    (hok : ∀ a s', I s' → Act.Sat T P (f a) Q s') (herr : ∀ e s', I s' → Q (.error e) s') :
    Act.Sat T P (x >>= f) Q s := by
  rw [Act.sat_bind]
  refine Prog.Sat.mono (Prog.Uses.sat hx hA hs) ?_
  rintro (e | a) s' hs'
  · exact herr e s' hs'
  · exact hok a s' hs'

end Act

/-! ## 4. Programs that return a value when their calls do -/

/-- The program makes only calls of `A`, and if these all answer with a value it returns one. -/
def Prog.Returns (A : C → Prop) : Prog C R E (Except E α) → Prop
  | .ret r => ∃ a, r = .ok a
  | .call c k => A c ∧ ∀ v, (k (.ok v)).Returns A

/-- **The frame rule for values.**  If every call of `A` answers with a value and keeps `I`, the
program returns a value in a state with `I`. -/
theorem Prog.Returns.sat {A : C → Prop} {p : Prog C R E (Except E α)} {I : σ → Prop}
    (h : p.Returns A)
    (hA : ∀ c, A c → ∀ s r s', T c s r s' → I s → P c s r s' ∧ (∃ v, r = .ok v) ∧ I s') {s : σ}
    (hs : I s) : p.Sat T P (fun r s' => (∃ a, r = .ok a) ∧ I s') s := by
  induction p generalizing s with
  | ret r => exact ⟨h, hs⟩
  | call c k ih =>
    intro r s' ht
    obtain ⟨hP, ⟨v, rfl⟩, hI⟩ := hA c h.1 s r s' ht hs
    exact ⟨hP, ih _ (h.2 v) hI⟩

theorem Prog.returns_bind {A : C → Prop} {p : Prog C R E (Except E α)}
    {f : Except E α → Prog C R E (Except E β)} (hp : p.Returns A)
    (hf : ∀ a, (f (.ok a)).Returns A) : (p.bind f).Returns A := by
  induction p with
  | ret r =>
    obtain ⟨a, rfl⟩ := hp
    exact hf a
  | call c k ih => exact ⟨hp.1, fun v => ih _ (hp.2 v)⟩

/-- As long as they answer with a value, the program makes only calls of `A`; it may end as it
likes. -/
def Prog.Settles (A : C → Prop) : Prog C R E (Except E α) → Prop
  | .ret _ => True
  | .call c k => A c ∧ ∀ v, (k (.ok v)).Settles A

/-- **The frame rule for such programs.** -/
theorem Prog.Settles.sat {A : C → Prop} {p : Prog C R E (Except E α)} {I : σ → Prop}
    (h : p.Settles A)
    (hA : ∀ c, A c → ∀ s r s', T c s r s' → I s → P c s r s' ∧ (∃ v, r = .ok v) ∧ I s') {s : σ}
    (hs : I s) : p.Sat T P (fun _ s' => I s') s := by
  induction p generalizing s with
  | ret r => exact hs
  | call c k ih =>
    intro r s' ht
    obtain ⟨hP, ⟨v, rfl⟩, hI⟩ := hA c h.1 s r s' ht hs
    exact ⟨hP, ih _ (h.2 v) hI⟩

namespace Act

variable {A : C → Prop}

/-- `Prog.Returns` read at an action. -/
def Returns (A : C → Prop) (x : Act C R E α) : Prop := x.tree.Returns A

theorem returns_pure (a : α) : Returns A (pure a : Act C R E α) := ⟨a, rfl⟩

theorem returns_perform {c : C} (h : A c) : Returns A (perform c : Act C R E (R c)) :=
  ⟨h, fun v => ⟨v, rfl⟩⟩

theorem returns_bind {x : Act C R E α} {f : α → Act C R E β} (hx : Returns A x)
    (hf : ∀ a, Returns A (f a)) : Returns A (x >>= f) :=
  Prog.returns_bind hx hf

theorem returns_forEach {f : β → Act C R E Unit} (hf : ∀ x, Returns A (f x)) :
    ∀ xs : List β, Returns A (forEach f xs)
  | [] => returns_pure ()
  | x :: xs => returns_bind (hf x) fun _ => returns_forEach hf xs

/-- `Prog.Settles` read at an action. -/
def Settles (A : C → Prop) (x : Act C R E α) : Prop := x.tree.Settles A

end Act

/-! ## 5. Programs that let exceptions through -/

/-- Whenever a call raises, the program ends with that exception. -/
def Prog.Propagates : Prog C R E (Except E α) → Prop
  | .ret _ => True
  | .call _ k => (∀ e, k (.error e) = .ret (.error e)) ∧ ∀ v, (k (.ok v)).Propagates

/-- **The frame rule with exceptions.**  A call of `A` that answers keeps `I`; one that raises may
leave anything with `X`.  A program that lets exceptions through returns a value only with `I`. -/
theorem Prog.Propagates.sat {A : C → Prop} {p : Prog C R E (Except E α)} {I X : σ → Prop}
    (h : p.Propagates) (hu : p.Uses A)
    (hok : ∀ c, A c → ∀ s v s', T c s (.ok v) s' → I s → P c s (.ok v) s' ∧ I s')
    (herr : ∀ c, A c → ∀ s e s', T c s (.error e) s' → I s → P c s (.error e) s' ∧ X s')
    (hX : ∀ s, I s → X s) {s : σ} (hs : I s) :
    p.Sat T P (onOk (fun _ => I) fun _ => X) s := by
  induction p generalizing s with
  | ret r =>
    cases r with
    | error e => exact hX s hs
    | ok a => exact hs
  | call c k ih =>
    intro r s' ht
    cases r with
    | error e =>
      obtain ⟨hP, hX'⟩ := herr c hu.1 s e s' ht hs
      refine ⟨hP, ?_⟩
      rw [h.1 e]
      exact hX'
    | ok v =>
      obtain ⟨hP, hI⟩ := hok c hu.1 s v s' ht hs
      exact ⟨hP, ih _ (h.2 v) (hu.2 _) hI⟩

theorem Prog.propagates_bind {p : Prog C R E (Except E α)}
    {f : Except E α → Prog C R E (Except E β)} (hp : p.Propagates)
    (herr : ∀ e, f (.error e) = .ret (.error e)) (hf : ∀ a, (f (.ok a)).Propagates) :
    (p.bind f).Propagates := by
  induction p with
  | ret r =>
    cases r with
    | error e =>
      rw [Prog.bind, herr e]
      trivial
    | ok a => exact hf a
  | call c k ih =>
    refine ⟨fun e => ?_, fun v => ih _ (hp.2 v)⟩
    change (k (.error e)).bind f = _
    rw [hp.1 e, Prog.bind, herr e]

namespace Act

/-- `Prog.Propagates` read at an action. -/
def Propagates (x : Act C R E α) : Prop := x.tree.Propagates

theorem propagates_pure (a : α) : Propagates (pure a : Act C R E α) := trivial

theorem propagates_perform (c : C) : Propagates (perform c : Act C R E (R c)) :=
  ⟨fun _ => rfl, fun _ => trivial⟩

theorem propagates_bind {x : Act C R E α} {f : α → Act C R E β} (hx : Propagates x)
    (hf : ∀ a, Propagates (f a)) : Propagates (x >>= f) :=
  Prog.propagates_bind hx (fun _ => rfl) hf

/-- The frame rule in front of the rest of a program. -/
theorem Propagates.sat_bind {A : C → Prop} {x : Act C R E α} {f : α → Act C R E β}
    {I X : σ → Prop} {Q : Except E β → σ → Prop} {s : σ} (h : Propagates x) (hu : x.Uses A)
    (hok : ∀ c, A c → ∀ s v s', T c s (.ok v) s' → I s → P c s (.ok v) s' ∧ I s')
    (herr : ∀ c, A c → ∀ s e s', T c s (.error e) s' → I s → P c s (.error e) s' ∧ X s')
    (hX : ∀ s, I s → X s) (hs : I s) (hf : ∀ a s', I s' → Act.Sat T P (f a) Q s')
    (hQ : ∀ e s', X s' → Q (.error e) s') : Act.Sat T P (x >>= f) Q s := by
  rw [Act.sat_bind]
  refine (Prog.Propagates.sat h hu hok herr hX hs).mono ?_
  rintro (e | a) s' hs'
  · exact hQ e s' hs'
  · exact hf a s' hs'

theorem propagates_forEach {f : β → Act C R E Unit} (hf : ∀ x, Propagates (f x)) :
    ∀ xs : List β, Propagates (forEach f xs)
  | [] => propagates_pure ()
  | x :: xs => propagates_bind (hf x) fun _ => propagates_forEach hf xs

end Act

/-! ## 6. Runs -/

/-- One executed call: the call, the state before, the answer, the state after. -/
structure Event (C : Type) (R : C → Type) (E σ : Type) where
  call : C
  before : σ
  answer : Except E (R call)
  after : σ

/-- A complete run of a program, with the trace of its calls. -/
inductive Exec (T : Trans C R E σ) :
    Prog C R E α → σ → List (Event C R E σ) → α → σ → Prop
  | ret (a : α) (s : σ) : Exec T (.ret a) s [] a s
  | call {c : C} {k : Except E (R c) → Prog C R E α} {s s' s'' : σ} {r : Except E (R c)}
      {tr : List (Event C R E σ)} {a : α} :
      T c s r s' → Exec T (k r) s' tr a s'' → Exec T (.call c k) s (⟨c, s, r, s'⟩ :: tr) a s''

/-- **Adequacy.**  What the logic proves holds of every run: of each call on its trace and of
its last state. -/
theorem Prog.Sat.sound {p : Prog C R E α} {Q : α → σ → Prop} {s : σ} (h : p.Sat T P Q s)
    {tr : List (Event C R E σ)} {a : α} {s' : σ} (hx : Exec T p s tr a s') :
    (∀ e ∈ tr, P e.call e.before e.answer e.after) ∧ Q a s' := by
  induction hx with
  | ret a s => exact ⟨by simp, h⟩
  | @call c k s s' s'' r tr a ht _ ih =>
    obtain ⟨hP, hk⟩ := h r s' ht
    obtain ⟨htr, hQ⟩ := ih hk
    refine ⟨?_, hQ⟩
    intro e he
    rcases List.mem_cons.mp he with rfl | he
    · exact hP
    · exact htr e he

/-- A run over fewer transitions is a run. -/
theorem Exec.mono {T' : Trans C R E σ} (hT : ∀ c s r s', T c s r s' → T' c s r s')
    {p : Prog C R E α} {s s' : σ} {tr : List (Event C R E σ)} {a : α} (h : Exec T p s tr a s') :
    Exec T' p s tr a s' := by
  induction h with
  | ret a s => exact .ret a s
  | call ht _ ih => exact .call (hT _ _ _ _ ht) ih

/-- A run in which every call meets `P` is a run over the transitions cut down to `P`. -/
theorem Exec.restrict {p : Prog C R E α} {s s' : σ} {tr : List (Event C R E σ)} {a : α}
    (h : Exec T p s tr a s') (hP : ∀ e ∈ tr, P e.call e.before e.answer e.after) :
    Exec (fun c s r s' => T c s r s' ∧ P c s r s') p s tr a s' := by
  induction h with
  | ret a s => exact .ret a s
  | call ht _ ih =>
    exact .call ⟨ht, hP _ List.mem_cons_self⟩ (ih fun e he => hP e (List.mem_cons_of_mem _ he))

/-- Every call of a run is a transition. -/
theorem Exec.steps {p : Prog C R E α} {s s' : σ} {tr : List (Event C R E σ)} {a : α}
    (h : Exec T p s tr a s') : ∀ e ∈ tr, T e.call e.before e.answer e.after := by
  induction h with
  | ret a s => simp
  | call ht _ ih =>
    intro e he
    rcases List.mem_cons.mp he with rfl | he
    · exact ht
    · exact ih e he

/-- If every call can be answered, every program has a run. -/
theorem Exec.exists_of_total (hT : ∀ c s, ∃ r s', T c s r s') (p : Prog C R E α) (s : σ) :
    ∃ tr a s', Exec T p s tr a s' := by
  induction p generalizing s with
  | ret a => exact ⟨[], a, s, .ret a s⟩
  | call c k ih =>
    obtain ⟨r, s', ht⟩ := hT c s
    obtain ⟨tr, a, s'', hx⟩ := ih r s'
    exact ⟨_, a, s'', .call ht hx⟩

/-- Evaluate a program with a function that answers its calls. -/
def Prog.run (step : (c : C) → σ → Except E (R c) × σ) : Prog C R E α → σ → α × σ
  | .ret a, s => (a, s)
  | .call c k, s => (k (step c s).1).run step (step c s).2

/-- Every call of the evaluation passes a check of the call and of the state it finds. -/
def Prog.passes (step : (c : C) → σ → Except E (R c) × σ) (check : C → σ → Bool) :
    Prog C R E α → σ → Bool
  | .ret _, _ => true
  | .call c k, s => check c s && (k (step c s).1).passes step check (step c s).2

/-- What `Prog.run` computes is a run, whenever the answers it is given are allowed; and what is
checked of its calls holds of the run's trace. -/
theorem Prog.run_exec {step : (c : C) → σ → Except E (R c) × σ} {check : C → σ → Bool}
    (hstep : ∀ c s, T c s (step c s).1 (step c s).2)
    (hcheck : ∀ c s, check c s = true → P c s (step c s).1 (step c s).2) (p : Prog C R E α) (s : σ)
    (hp : p.passes step check s = true) :
    ∃ tr, Exec T p s tr (p.run step s).1 (p.run step s).2 ∧
      ∀ e ∈ tr, P e.call e.before e.answer e.after := by
  induction p generalizing s with
  | ret a => exact ⟨[], .ret a s, by simp⟩
  | call c k ih =>
    obtain ⟨hc, hk⟩ := Bool.and_eq_true_iff.mp hp
    obtain ⟨tr, h, htr⟩ := ih (step c s).1 (step c s).2 hk
    refine ⟨_, .call (hstep c s) h, ?_⟩
    intro e he
    rcases List.mem_cons.mp he with rfl | he
    · exact hcheck c s hc
    · exact htr e he

theorem Prog.passes_true (step : (c : C) → σ → Except E (R c) × σ) (p : Prog C R E α) (s : σ) :
    p.passes step (fun _ _ => true) s = true := by
  induction p generalizing s with
  | ret a => rfl
  | call c k ih => exact ih _ _

theorem Prog.exists_exec {step : (c : C) → σ → Except E (R c) × σ}
    (hstep : ∀ c s, T c s (step c s).1 (step c s).2) (p : Prog C R E α) (s : σ) :
    ∃ tr, Exec T p s tr (p.run step s).1 (p.run step s).2 := by
  obtain ⟨tr, h, -⟩ := Prog.run_exec (P := Trans.any) hstep
    (fun (_ : C) (_ : σ) (_ : true = true) => trivial) p s (Prog.passes_true step p s)
  exact ⟨tr, h⟩

/-- What `Prog.run` computes, with a call that fails the check if there is one. -/
theorem Prog.run_fails {step : (c : C) → σ → Except E (R c) × σ} {check : C → σ → Bool}
    (hstep : ∀ c s, T c s (step c s).1 (step c s).2) (p : Prog C R E α) (s : σ)
    (hp : p.passes step check s = false) :
    ∃ tr, Exec T p s tr (p.run step s).1 (p.run step s).2 ∧
      ∃ e ∈ tr, check e.call e.before = false ∧ e.answer = (step e.call e.before).1 ∧
        e.after = (step e.call e.before).2 := by
  induction p generalizing s with
  | ret a => exact absurd hp (by simp [Prog.passes])
  | call c k ih =>
    cases hc : check c s with
    | false =>
      obtain ⟨tr, h⟩ := Prog.exists_exec hstep (k (step c s).1) (step c s).2
      exact ⟨_, .call (hstep c s) h, _, List.mem_cons_self, hc, rfl, rfl⟩
    | true =>
      rw [Prog.passes, hc, Bool.true_and] at hp
      obtain ⟨tr, h, e, he, hfail⟩ := ih (step c s).1 (step c s).2 hp
      exact ⟨_, .call (hstep c s) h, e, List.mem_cons_of_mem _ he, hfail⟩

end Effects
