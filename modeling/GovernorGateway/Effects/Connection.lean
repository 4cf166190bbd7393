/-
# A database connection

A connection SEES its own writes at once; everybody else sees what it has committed.  A statement
that writes opens a transaction if none is open, and the transaction stays open until the next
commit: when an operation stops half way, its writes are committed with whatever the connection
commits next.

`Cut` is an operation that stops after some of its statements, which is what an exception makes of
it.  `mem_committed_iff` reduces a question about all states that a sequence of operations commits
to what each operation commits from the view it finds.
-/
import Mathlib.Data.List.Induction

namespace Effects

variable {D : Type}

structure Connection (D : Type) where
  committed : D
  view : D

inductive Statement (D : Type) where
  | write (f : D → D)
  | commit

namespace Connection

variable (c : Connection D)

def exec : Statement D → Connection D
  | .write f => { c with view := f c.view }
  | .commit => { c with committed := c.view }

/-- The statements of an operation, one after the other. -/
def run (ss : List (Statement D)) : Connection D := ss.foldl exec c

/-- The states that the statements commit. -/
def commits (c : Connection D) : List (Statement D) → List D
  | [] => []
  | .write f :: ss => commits (c.exec (.write f)) ss
  | .commit :: ss => c.view :: commits (c.exec .commit) ss

theorem run_append (ss ts : List (Statement D)) : c.run (ss ++ ts) = (c.run ss).run ts :=
  List.foldl_append

variable {c}

/-- The view after writes is theirs, one after the other. -/
theorem run_writes (fs : List (D → D)) : ∀ c : Connection D,
    (c.run (fs.map Statement.write)).view = fs.foldl (fun d f => f d) c.view := by
  induction fs with
  | nil => exact fun _ => rfl
  | cons f fs ih => exact fun c => ih (c.exec (.write f))

/-- The view after one write, a write for each entry of a list, and a commit. -/
theorem run_batch {α : Type} (f : D → D) (insert : α → D → D) (xs : List α) (c : Connection D) :
    (c.run (.write f :: (xs.map (fun x => .write (insert x)) ++ [.commit]))).view =
      (xs.map insert).foldl (fun d f => f d) (f c.view) := by
  have hwrites : xs.map (fun x => Statement.write (insert x)) = (xs.map insert).map Statement.write := by
    rw [List.map_map]
    rfl
  change ((c.exec (.write f)).run _).view = _
  rw [run_append, hwrites]
  exact run_writes (xs.map insert) (c.exec (.write f))

theorem commits_append (ss ts : List (Statement D)) : ∀ c : Connection D,
    c.commits (ss ++ ts) = c.commits ss ++ (c.run ss).commits ts := by
  induction ss with
  | nil => exact fun _ => rfl
  | cons s ss ih =>
    intro c
    cases s with
    | write f => exact ih (c.exec (.write f))
    | commit => exact congrArg (c.view :: ·) (ih (c.exec .commit))

/-- **The invariant rule**: what the view has and every write keeps, the view has afterwards and
every state that is committed on the way. -/
theorem invariant {P : D → Prop} : ∀ (ss : List (Statement D)) {c : Connection D}, P c.view →
    (∀ f, Statement.write f ∈ ss → ∀ d, P d → P (f d)) →
    P (c.run ss).view ∧ ∀ d ∈ c.commits ss, P d
  | [], c, h, _ => ⟨h, by simp [commits]⟩
  | .write f :: ss, c, h, hkeep => by
    have hf : P (c.exec (.write f)).view := hkeep f List.mem_cons_self c.view h
    exact invariant ss hf fun f' hf' => hkeep f' (List.mem_cons_of_mem _ hf')
  | .commit :: ss, c, h, hkeep => by
    obtain ⟨hview, hrest⟩ := invariant (c := c.exec .commit) ss h fun f' hf' =>
      hkeep f' (List.mem_cons_of_mem _ hf')
    refine ⟨hview, fun d hd => ?_⟩
    rcases List.mem_cons.mp hd with rfl | hd
    · exact h
    · exact hrest d hd

/-- Statements without a commit commit nothing. -/
theorem commits_of_notMem : ∀ (ss : List (Statement D)) {c : Connection D}, Statement.commit ∉ ss →
    c.commits ss = []
  | [], _, _ => rfl
  | .write _ :: ss, _, h => commits_of_notMem ss fun hm => h (List.mem_cons_of_mem _ hm)
  | .commit :: _, _, h => absurd List.mem_cons_self h

theorem commits_writes (fs : List (D → D)) : c.commits (fs.map Statement.write) = [] := by
  refine commits_of_notMem _ fun h => ?_
  obtain ⟨f, -, hf⟩ := List.mem_map.mp h
  exact absurd hf (by simp)

/-- Statements with a commit commit some state. -/
theorem exists_commit : ∀ (ss : List (Statement D)) {c : Connection D}, Statement.commit ∈ ss →
    ∃ d, d ∈ c.commits ss
  | [], _, h => absurd h (by simp)
  | .write f :: ss, c, h => by
    have hss : Statement.commit ∈ ss := by simpa using h
    exact exists_commit (c := c.exec (.write f)) ss hss
  | .commit :: _, c, _ => ⟨c.view, List.mem_cons_self⟩

end Connection

/-! ## Operations that stop half way -/

/-- An operation and how many of its statements are executed; no more than it has. -/
structure Cut (O : Type) where
  op : O
  done : ℕ

section Run

variable {O : Type} (statements : O → D → List (Statement D))

/-- The statements that are executed, from the view the operation finds. -/
def Cut.executed (x : Cut O) (d : D) : List (Statement D) := (statements x.op d).take x.done

/-- An operation on the connection. -/
def Connection.step (c : Connection D) (x : Cut O) : Connection D := c.run (x.executed statements c.view)

/-- Operations, one after the other. -/
def Connection.after (c : Connection D) (xs : List (Cut O)) : Connection D := xs.foldl (step statements) c

/-- The states that they commit. -/
def Connection.committedBy : Connection D → List (Cut O) → List D
  | _, [] => []
  | c, x :: xs => c.commits (x.executed statements c.view) ++ committedBy (c.step statements x) xs

variable {statements}

theorem Connection.after_append (c : Connection D) (xs ys : List (Cut O)) :
    c.after statements (xs ++ ys) = (c.after statements xs).after statements ys :=
  List.foldl_append

/-- **Each state is committed by one of the operations**, from the view that those before it have
left. -/
theorem Connection.mem_committedBy_iff {d : D} : ∀ (xs : List (Cut O)) {c : Connection D},
    d ∈ c.committedBy statements xs ↔ ∃ pre x post, xs = pre ++ x :: post ∧
      d ∈ (c.after statements pre).commits (x.executed statements (c.after statements pre).view)
  | [], c => by
    constructor
    · intro hd
      exact absurd hd (by simp [committedBy])
    · rintro ⟨pre, x, post, heq, -⟩
      exact absurd heq (by simp)
  | y :: ys, c => by
    rw [committedBy, List.mem_append, Connection.mem_committedBy_iff ys]
    constructor
    · rintro (hd | ⟨pre, x, post, rfl, hd⟩)
      · exact ⟨[], y, ys, rfl, hd⟩
      · exact ⟨y :: pre, x, post, rfl, hd⟩
    · rintro ⟨pre, x, post, heq, hd⟩
      cases pre with
      | nil =>
        obtain ⟨rfl, rfl⟩ := List.cons.inj heq
        exact Or.inl hd
      | cons z pre =>
        obtain ⟨rfl, rfl⟩ := List.cons.inj heq
        exact Or.inr ⟨pre, x, post, rfl, hd⟩

/-- **How a fault stays.**  A property of the view that some operations bring about and that lasts
until one that repairs it: it holds after a sequence exactly when something brought it about and
nothing after that has repaired it. -/
theorem Connection.lasts_iff {P : D → Prop} {starts : Cut O → D → Prop} {repairs : Cut O → Prop}
    (hstep : ∀ (c : Connection D) x, P (c.step statements x).view ↔
      starts x c.view ∨ (P c.view ∧ ¬ repairs x)) {c : Connection D} (hc : ¬ P c.view) (xs : List (Cut O)) :
    P (c.after statements xs).view ↔ ∃ pre x mid, xs = pre ++ x :: mid ∧
      starts x (c.after statements pre).view ∧ ∀ y ∈ mid, ¬ repairs y := by
  induction xs using List.reverseRecOn with
  | nil =>
    constructor
    · intro h
      exact absurd h hc
    · rintro ⟨pre, x, mid, heq, -⟩
      exact absurd heq (by simp)
  | append_singleton xs y ih =>
    have hlast : (c.after statements (xs ++ [y])) = (c.after statements xs).step statements y := by
      rw [Connection.after_append]
      rfl
    rw [hlast, hstep, ih]
    constructor
    · rintro (hstart | ⟨⟨pre, x, mid, rfl, hx, hmid⟩, hy⟩)
      · exact ⟨xs, y, [], rfl, hstart, by simp⟩
      · refine ⟨pre, x, mid ++ [y], by simp, hx, fun z hz => ?_⟩
        rcases List.mem_append.mp hz with hz | hz
        · exact hmid z hz
        · obtain rfl := List.mem_singleton.mp hz
          exact hy
    · rintro ⟨pre, x, mid, heq, hx, hmid⟩
      rcases List.eq_nil_or_concat mid with rfl | ⟨mid, z, rfl⟩
      · obtain ⟨rfl, hxy⟩ := List.append_inj' heq rfl
        obtain rfl := (List.cons.inj hxy).1
        exact Or.inl hx
      · rw [List.concat_eq_append] at heq hmid
        rw [← List.cons_append, ← List.append_assoc] at heq
        obtain ⟨rfl, hyz⟩ := List.append_inj' heq rfl
        obtain rfl := (List.cons.inj hyz).1
        refine Or.inr ⟨⟨pre, x, mid, rfl, hx, fun w hw => hmid w (List.mem_append_left _ hw)⟩, ?_⟩
        exact hmid y (List.mem_append_right _ (List.mem_singleton_self y))

end Run

end Effects
