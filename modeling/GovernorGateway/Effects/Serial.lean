/-
# Programs that meet the shared state once

A pool is SERIALIZABLE when what its tasks leave behind, and what each of them answers, could also
have come of running them one after the other.  This module proves it of tasks of one shape: calls
that are the task's own affair, and among them ONE atomic access to the shared state, which is a
single call or a section that is opened and closed.  A task may also be turned away at the door; it
then has no effect.

* `Kind` and `Phase` are the shape.  That a program has it is a specification of `Prog.Sat` over
  phases (`Follows`), so it is proved with the rules of the logic and without a word on the state.
* `Sections` says what a shared state owes: outside a section a call sees the base state, inside one
  it works on a world of its own, which becomes the base state when the section is closed.

The proof keeps the list of the tasks that have had their access, in the order in which they had it
(`Inv`): run one after the other in that order they lead from the first base state to the present
one.
-/
import GovernorGateway.Effects.Interleave
import Mathlib.Data.Fintype.Defs
import Mathlib.Data.Finset.Dedup
import Mathlib.Data.List.Nodup

namespace Effects

namespace Serial

variable {ι C : Type} {R : C → Type} {E σ ω α : Type}

/-! ## 1. The shape of a task -/

/-- What a call has to do with the shared state. -/
inductive Kind where
  /-- Nothing. -/
  | own
  /-- It reads or writes it. -/
  | access
  /-- It opens the section. -/
  | opens
  /-- It closes the section. -/
  | closes
  /-- It has no place in a task of this shape. -/
  | other
  deriving DecidableEq

/-- Where a task stands. -/
inductive Phase where
  | before
  | within
  /-- It was turned away. -/
  | refused
  | after
  deriving DecidableEq

/-- A call that is served moves the task on; there is no way on from a call that is out of place. -/
def Phase.next : Kind → Phase → Option Phase
  | .own, ph => some ph
  | .access, .before => some .after
  | .access, .within => some .within
  | .opens, .before => some .within
  | .closes, .within => some .after
  | _, _ => none

section Shape

variable (kind : C → Kind) (Refused : (c : C) → Except E (R c) → Prop) (S : Trans C R E ω)

/-- A call that is served is answered as it is when its task runs alone; one that is not own may
also be refused, as long as the task has had no access. -/
def PhaseStep : Trans C R E Phase := fun c ph r ph' =>
  (∃ ph₁, ph.next (kind c) = some ph₁ ∧
    ((ph' = ph₁ ∧ ∃ w w', S c w r w') ∨
      (ph = .before ∧ kind c ≠ .own ∧ Refused c r ∧ ph' = .refused))) ∨
    (ph.next (kind c) = none ∧ ph' = ph)

/-- No call is out of place. -/
def InPlace : Trans C R E Phase := fun c ph _ _ => (ph.next (kind c)).isSome

/-- **The shape.**  Every call of the program is in place, no section is left open, and a task that
was turned away answers accordingly. -/
def Follows (Left : α → Prop) (q : Prog C R E α) : Prop :=
  q.Sat (PhaseStep kind Refused S) (InPlace kind)
    (fun a ph => ph ≠ .within ∧ (ph = .refused → Left a)) .before

end Shape

/-! ## 2. What the shared state owes -/

/-- The base state, and the open section with the world its task works on, of a shared state whose
steps are `T`; `S` are the steps of a task that runs alone. -/
structure Sections (kind : C → Kind) (Refused : (c : C) → Except E (R c) → Prop)
    (S : Trans C R E ω) (T : ι → Trans C R E σ) (base : σ → ω) (owner : σ → Option (ι × ω)) :
    Prop where
  own : ∀ {i c s r s'}, kind c = .own → T i c s r s' →
    base s' = base s ∧ owner s' = owner s ∧ ∀ w, S c w r w
  alone : ∀ {i c s r s'}, kind c = .access → (∀ w, owner s ≠ some (i, w)) → T i c s r s' →
    owner s' = owner s ∧ (owner s ≠ none → base s' = base s) ∧
      (S c (base s) r (base s') ∨ (Refused c r ∧ base s' = base s))
  within : ∀ {i c s r s' w}, kind c = .access → owner s = some (i, w) → T i c s r s' →
    base s' = base s ∧ ∃ w', owner s' = some (i, w') ∧ S c w r w'
  opens : ∀ {i c s r s'}, kind c = .opens → (∀ w, owner s ≠ some (i, w)) → T i c s r s' →
    base s' = base s ∧
      ((owner s = none ∧ ∃ w', owner s' = some (i, w') ∧ S c (base s) r w') ∨
        (Refused c r ∧ owner s' = owner s))
  closes : ∀ {i c s r s' w}, kind c = .closes → owner s = some (i, w) → T i c s r s' →
    owner s' = none ∧ S c w r (base s')

/-! ## 3. Running alone -/

/-- The program has come as far as `q'`, running alone from `w`. -/
inductive Runs (S : Trans C R E ω) (q : Prog C R E α) (w : ω) : Prog C R E α → ω → Prop
  | refl : Runs S q w q w
  | tail {c : C} {k : Except E (R c) → Prog C R E α} {w₁ w₂ : ω} {r : Except E (R c)} :
      Runs S q w (.call c k) w₁ → S c w₁ r w₂ → Runs S q w (k r) w₂

/-- What is left of a run completes it. -/
theorem Runs.exec_of_exec {S : Trans C R E ω} {q q' : Prog C R E α} {w w₁ w₂ : ω}
    (h : Runs S q w q' w₁) {tr : List (Event C R E ω)} {a : α} (hx : Exec S q' w₁ tr a w₂) :
    ∃ tr', Exec S q w tr' a w₂ := by
  induction h generalizing tr with
  | refl => exact ⟨tr, hx⟩
  | tail _ hs ih => exact ih (.call hs hx)

theorem Runs.exec {S : Trans C R E ω} {q : Prog C R E α} {w w' : ω} {a : α}
    (h : Runs S q w (.ret a) w') : ∃ tr, Exec S q w tr a w' :=
  h.exec_of_exec (.ret a w')

/-- The tasks of the list, one after the other, each as far as it has come. -/
inductive Ordered (S : Trans C R E ω) (start cur : ι → Prog C R E α) (w : ω) : List ι → ω → Prop
  | nil : Ordered S start cur w [] w
  | snoc {is : List ι} {i : ι} {w₁ w₂ : ω} : Ordered S start cur w is w₁ →
      Runs S (start i) w₁ (cur i) w₂ → Ordered S start cur w (is ++ [i]) w₂

namespace Ordered

variable {S : Trans C R E ω} {start cur : ι → Prog C R E α} {w w' : ω} {is : List ι}

/-- Only the tasks of the list matter. -/
theorem congr {cur' : ι → Prog C R E α} (h : Ordered S start cur w is w')
    (hcur : ∀ i ∈ is, cur' i = cur i) : Ordered S start cur' w is w' := by
  induction h with
  | nil => exact .nil
  | @snoc is i w₁ w₂ _ hrun ih =>
    refine .snoc (ih fun j hj => hcur j (List.mem_append_left _ hj)) ?_
    rw [hcur i (List.mem_append_right _ (List.mem_singleton.mpr rfl))]
    exact hrun

variable [DecidableEq ι]

/-- A call that concerns nobody else can be made wherever its task stands in the list. -/
theorem own_step (h : Ordered S start cur w is w') {i : ι} {c : C}
    {k : Except E (R c) → Prog C R E α} (hi : cur i = .call c k) {r : Except E (R c)}
    (hown : ∀ w, S c w r w) : Ordered S start (Function.update cur i (k r)) w is w' := by
  induction h with
  | nil => exact .nil
  | @snoc is j w₁ w₂ _ hrun ih =>
    refine .snoc ih ?_
    by_cases hj : j = i
    · subst hj
      rw [Function.update_self]
      rw [hi] at hrun
      exact hrun.tail (hown w₂)
    · rwa [Function.update_of_ne hj]

omit [DecidableEq ι] in
/-- Tasks that change nothing can be put at the end. -/
theorem append : ∀ {is : List ι} (js : List ι), Ordered S start cur w is w' →
    (∀ j ∈ js, Runs S (start j) w' (cur j) w') → Ordered S start cur w (is ++ js) w'
  | is, [], h, _ => by rwa [List.append_nil]
  | is, j :: js, h, hjs => by
    rw [List.append_cons]
    exact append js (h.snoc (hjs j List.mem_cons_self)) fun i hi => hjs i (List.mem_cons_of_mem _ hi)

end Ordered

/-! ## 4. The invariant -/

variable [DecidableEq ι]

/-- `order` lists the tasks that have had their access.  A task before it has only made calls of its
own; the one whose section is open runs on the base state as it is now. -/
structure Inv (S : Trans C R E ω) (base : σ → ω) (owner : σ → Option (ι × ω))
    (start : ι → Prog C R E α) (w₀ : ω) (order : List ι) (ph : ι → Phase)
    (p : Pool ι C R E σ α) : Prop where
  nodup : order.Nodup
  mem : ∀ i, i ∈ order ↔ ph i = .after
  serial : Ordered S start p.prog w₀ order (base p.state)
  before : ∀ i, ph i = .before → ∀ w, Runs S (start i) w (p.prog i) w
  section_ : ∀ i, ph i = .within ↔ ∃ w, owner p.state = some (i, w)
  within : ∀ i w, owner p.state = some (i, w) → Runs S (start i) (base p.state) (p.prog i) w

namespace Inv

variable {kind : C → Kind} {Refused : (c : C) → Except E (R c) → Prop} {S : Trans C R E ω}
  {T : ι → Trans C R E σ} {base : σ → ω} {owner : σ → Option (ι × ω)} {start : ι → Prog C R E α}
  {w₀ : ω} {order : List ι} {ph : ι → Phase} {p : Pool ι C R E σ α} {i : ι} {c : C}
  {k : Except E (R c) → Prog C R E α} {r : Except E (R c)} {s' : σ}

omit [DecidableEq ι] in
theorem initial {s : σ} (hs : owner s = none) :
    Inv S base owner start (base s) [] (fun _ => .before) ⟨s, start⟩ where
  nodup := List.nodup_nil
  mem := by simp
  serial := .nil
  before := fun _ _ _ => .refl
  section_ := by simp [hs]
  within := by simp [hs]

omit [DecidableEq ι] in
/-- A task that is not in its section does not own it. -/
theorem not_owner (h : Inv S base owner start w₀ order ph p) (hi : ph i ≠ .within) :
    ∀ w, owner p.state ≠ some (i, w) := fun w hw => hi ((h.section_ i).mpr ⟨w, hw⟩)

omit [DecidableEq ι] in
/-- A task without an access is not in the list. -/
theorem not_mem (h : Inv S base owner start w₀ order ph p) (hi : ph i ≠ .after) : i ∉ order :=
  fun hmem => hi ((h.mem i).mp hmem)

/-- The list is the same for the programs after a step of a task that is not in it. -/
theorem serial_update (h : Inv S base owner start w₀ order ph p) (hi : ph i ≠ .after)
    (q : Prog C R E α) :
    Ordered S start (Function.update p.prog i q) w₀ order (base p.state) := by
  refine h.serial.congr fun j hj => Function.update_of_ne ?_ _ _
  rintro rfl
  exact h.not_mem hi hj

/-- **A call of its own** leaves the task in its phase. -/
theorem step_own (h : Inv S base owner start w₀ order ph p) (hp : p.prog i = .call c k)
    (hbase : base s' = base p.state) (howner : owner s' = owner p.state) (hown : ∀ w, S c w r w) :
    Inv S base owner start w₀ order ph ⟨s', Function.update p.prog i (k r)⟩ := by
  refine ⟨h.nodup, h.mem, ?_, fun j hj w => ?_, fun j => ?_, fun j w hw => ?_⟩
  · rw [hbase]
    exact h.serial.own_step hp hown
  · by_cases hji : j = i
    · subst hji
      have hrun := h.before j hj w
      rw [hp] at hrun
      simpa only [Function.update_self] using hrun.tail (hown w)
    · simpa only [Function.update_of_ne hji] using h.before j hj w
  · rw [howner]
    exact h.section_ j
  · rw [howner] at hw
    rw [hbase]
    by_cases hji : j = i
    · subst hji
      have hrun := h.within j w hw
      rw [hp] at hrun
      simpa only [Function.update_self] using hrun.tail (hown w)
    · simpa only [Function.update_of_ne hji] using h.within j w hw

/-- **A task is turned away**: it will not be in the list. -/
theorem step_refused (h : Inv S base owner start w₀ order ph p) (hi : ph i = .before)
    (hbase : base s' = base p.state) (howner : owner s' = owner p.state) (q : Prog C R E α) :
    Inv S base owner start w₀ order (Function.update ph i .refused)
      ⟨s', Function.update p.prog i q⟩ := by
  have hnone := h.not_owner (i := i) (by rw [hi]; decide)
  refine ⟨h.nodup, fun j => ?_, ?_, fun j hj w => ?_, fun j => ?_, fun j w hw => ?_⟩
  · by_cases hji : j = i
    · subst hji
      simp [h.mem, hi]
    · rw [Function.update_of_ne hji]
      exact h.mem j
  · rw [hbase]
    exact h.serial_update (by rw [hi]; decide) q
  · by_cases hji : j = i
    · subst hji
      rw [Function.update_self] at hj
      exact absurd hj (by decide)
    · rw [Function.update_of_ne hji] at hj
      simpa only [Function.update_of_ne hji] using h.before j hj w
  · rw [howner]
    by_cases hji : j = i
    · subst hji
      simp [hnone]
    · rw [Function.update_of_ne hji]
      exact h.section_ j
  · rw [howner] at hw
    have hji : j ≠ i := by
      rintro rfl
      exact hnone w hw
    rw [hbase]
    simpa only [Function.update_of_ne hji] using h.within j w hw

/-- **A task has had its access**, alone or by closing its section: it is the next in the list. -/
theorem step_done (h : Inv S base owner start w₀ order ph p) (hi : ph i ≠ .after)
    (hsection : ∀ j, j ≠ i → ∀ w, owner s' = some (j, w) ↔ owner p.state = some (j, w))
    (hnone : ∀ w, owner s' ≠ some (i, w))
    (hother : ∀ j w, j ≠ i → owner s' = some (j, w) → base s' = base p.state)
    (hrun : Runs S (start i) (base p.state) (k r) (base s')) :
    Inv S base owner start w₀ (order ++ [i]) (Function.update ph i .after)
      ⟨s', Function.update p.prog i (k r)⟩ := by
  have hmem := h.not_mem hi
  refine ⟨?_, fun j => ?_, ?_, fun j hj w => ?_, fun j => ?_, fun j w hw => ?_⟩
  · refine List.nodup_append.mpr ⟨h.nodup, List.nodup_singleton i, ?_⟩
    intro j hj l hl
    rw [List.mem_singleton.mp hl]
    rintro rfl
    exact hmem hj
  · by_cases hji : j = i
    · subst hji
      simp
    · rw [Function.update_of_ne hji, List.mem_append, List.mem_singleton, h.mem]
      simp [hji]
  · refine .snoc (h.serial_update hi (k r)) ?_
    simpa only [Function.update_self] using hrun
  · by_cases hji : j = i
    · subst hji
      rw [Function.update_self] at hj
      exact absurd hj (by decide)
    · rw [Function.update_of_ne hji] at hj
      simpa only [Function.update_of_ne hji] using h.before j hj w
  · by_cases hji : j = i
    · subst hji
      simp [hnone]
    · rw [Function.update_of_ne hji, h.section_ j]
      simp only [hsection j hji]
  · have hji : j ≠ i := by
      rintro rfl
      exact hnone w hw
    rw [hother j w hji hw]
    simpa only [Function.update_of_ne hji] using h.within j w ((hsection j hji w).mp hw)

/-- **A call inside the section**, or the one that opens it. -/
theorem step_within (h : Inv S base owner start w₀ order ph p) (hi : ph i ≠ .after)
    (hbase : base s' = base p.state) {w : ω} (howner : owner s' = some (i, w))
    (hothers : ∀ j, j ≠ i → ph j ≠ .within)
    (hrun : Runs S (start i) (base p.state) (k r) w) :
    Inv S base owner start w₀ order (Function.update ph i .within)
      ⟨s', Function.update p.prog i (k r)⟩ := by
  refine ⟨h.nodup, fun j => ?_, ?_, fun j hj w => ?_, fun j => ?_, fun j w' hw => ?_⟩
  · by_cases hji : j = i
    · subst hji
      simp [h.mem, hi]
    · rw [Function.update_of_ne hji]
      exact h.mem j
  · rw [hbase]
    exact h.serial_update hi (k r)
  · by_cases hji : j = i
    · subst hji
      rw [Function.update_self] at hj
      exact absurd hj (by decide)
    · rw [Function.update_of_ne hji] at hj
      simpa only [Function.update_of_ne hji] using h.before j hj w
  · rw [howner]
    by_cases hji : j = i
    · subst hji
      simp
    · rw [Function.update_of_ne hji]
      constructor
      · exact fun hw => absurd hw (hothers j hji)
      · rintro ⟨w', hw⟩
        exact absurd (Prod.mk.inj (Option.some.inj hw)).1.symm hji
  · rw [howner] at hw
    obtain ⟨rfl, rfl⟩ := Prod.mk.inj (Option.some.inj hw)
    rw [hbase]
    simpa only [Function.update_self] using hrun

omit [DecidableEq ι] in
/-- At most one section is open. -/
theorem others (h : Inv S base owner start w₀ order ph p) {w : ω}
    (hw : owner p.state = some (i, w)) : ∀ j, j ≠ i → ph j ≠ .within := by
  intro j hj hwithin
  obtain ⟨w', hw'⟩ := (h.section_ j).mp hwithin
  rw [hw] at hw'
  exact hj (Prod.mk.inj (Option.some.inj hw')).1.symm

/-- **The step lemma.**  A call that is in place moves its task on; the list grows when it was the
access of its task, or the end of it. -/
theorem step (hlaws : Sections kind Refused S T base owner)
    (h : Inv S base owner start w₀ order ph p) (hp : p.prog i = .call c k)
    (ht : T i c p.state r s') (hplace : ((ph i).next (kind c)).isSome) :
    ∃ order' ph', PhaseStep kind Refused S c (ph i) r ph' ∧
      Inv S base owner start w₀ order' (Function.update ph i ph')
        ⟨s', Function.update p.prog i (k r)⟩ := by
  have hrun : ∀ {w w₁ w₂}, Runs S (start i) w (p.prog i) w₁ → S c w₁ r w₂ →
      Runs S (start i) w (k r) w₂ := by
    intro w w₁ w₂ hrun hs
    rw [hp] at hrun
    exact hrun.tail hs
  cases hkind : kind c with
  | own =>
    obtain ⟨hbase, howner, hown⟩ := hlaws.own hkind ht
    refine ⟨order, ph i, Or.inl ⟨ph i, ?_, Or.inl ⟨rfl, base s', _, hown _⟩⟩, ?_⟩
    · rw [hkind]
      rfl
    · rw [Function.update_eq_self]
      exact h.step_own hp hbase howner hown
  | access =>
    cases hi : ph i with
    | before =>
      obtain ⟨howner, hopen, hcase⟩ :=
        hlaws.alone hkind (h.not_owner (by rw [hi]; decide)) ht
      rcases hcase with hs | ⟨hrefused, hbase⟩
      · refine ⟨order ++ [i], .after,
          Or.inl ⟨.after, by rw [hkind]; rfl, Or.inl ⟨rfl, _, _, hs⟩⟩, ?_⟩
        refine h.step_done (by rw [hi]; decide) (fun j _ w => by rw [howner]) ?_ ?_
          (hrun (h.before i hi _) hs)
        · rw [howner]
          exact h.not_owner (by rw [hi]; decide)
        · intro j w _ hw
          rw [howner] at hw
          exact hopen (by simp [hw])
      · exact ⟨order, .refused, Or.inl ⟨.after, by rw [hkind]; rfl,
          Or.inr ⟨rfl, by simp [hkind], hrefused, rfl⟩⟩,
          h.step_refused hi hbase howner (k r)⟩
    | within =>
      obtain ⟨w, hw⟩ := (h.section_ i).mp hi
      obtain ⟨hbase, w', howner, hs⟩ := hlaws.within hkind hw ht
      exact ⟨order, .within,
        Or.inl ⟨.within, by rw [hkind]; rfl, Or.inl ⟨rfl, _, _, hs⟩⟩,
        h.step_within (by rw [hi]; decide) hbase howner (h.others hw) (hrun (h.within i w hw) hs)⟩
    | refused =>
      rw [hi, hkind] at hplace
      exact absurd hplace (by decide)
    | after =>
      rw [hi, hkind] at hplace
      exact absurd hplace (by decide)
  | opens =>
    cases hi : ph i with
    | before =>
      obtain ⟨hbase, hcase⟩ := hlaws.opens hkind (h.not_owner (by rw [hi]; decide)) ht
      rcases hcase with ⟨hfree, w', howner, hs⟩ | ⟨hrefused, howner⟩
      · refine ⟨order, .within,
          Or.inl ⟨.within, by rw [hkind]; rfl, Or.inl ⟨rfl, _, _, hs⟩⟩,
          h.step_within (by rw [hi]; decide) hbase howner ?_ (hrun (h.before i hi _) hs)⟩
        intro j _ hwithin
        obtain ⟨w, hw⟩ := (h.section_ j).mp hwithin
        rw [hfree] at hw
        exact absurd hw (by simp)
      · exact ⟨order, .refused, Or.inl ⟨.within, by rw [hkind]; rfl,
          Or.inr ⟨rfl, by simp [hkind], hrefused, rfl⟩⟩,
          h.step_refused hi hbase howner (k r)⟩
    | within =>
      rw [hi, hkind] at hplace
      exact absurd hplace (by decide)
    | refused =>
      rw [hi, hkind] at hplace
      exact absurd hplace (by decide)
    | after =>
      rw [hi, hkind] at hplace
      exact absurd hplace (by decide)
  | closes =>
    cases hi : ph i with
    | within =>
      obtain ⟨w, hw⟩ := (h.section_ i).mp hi
      obtain ⟨howner, hs⟩ := hlaws.closes hkind hw ht
      refine ⟨order ++ [i], .after,
        Or.inl ⟨.after, by rw [hkind]; rfl, Or.inl ⟨rfl, _, _, hs⟩⟩, ?_⟩
      refine h.step_done (by rw [hi]; decide) ?_ (by simp [howner]) (by simp [howner])
        (hrun (h.within i w hw) hs)
      intro j hj w'
      rw [howner, hw]
      constructor
      · intro hn
        exact absurd hn (by simp)
      · intro hs'
        exact absurd (Prod.mk.inj (Option.some.inj hs')).1.symm hj
    | before =>
      rw [hi, hkind] at hplace
      exact absurd hplace (by decide)
    | refused =>
      rw [hi, hkind] at hplace
      exact absurd hplace (by decide)
    | after =>
      rw [hi, hkind] at hplace
      exact absurd hplace (by decide)
  | other =>
    rw [hkind] at hplace
    cases hi : ph i <;> rw [hi] at hplace <;> exact absurd hplace (by decide)

end Inv

/-! ## 5. Serializability -/

section Theorem

variable {kind : C → Kind} {Refused : (c : C) → Except E (R c) → Prop} {S : Trans C R E ω}
  {T : ι → Trans C R E σ} {base : σ → ω} {owner : σ → Option (ι × ω)} {start : ι → Prog C R E α}
  {s : σ} {Left : α → Prop}

/-- **The run lemma.**  In every state of every interleaving the base state is what the tasks that
have had their access make of the first one, run one after the other. -/
theorem exists_inv (hlaws : Sections kind Refused S T base owner)
    (hshape : ∀ i, Follows kind Refused S Left (start i)) (hs : owner s = none)
    {p : Pool ι C R E σ α} (hrun : Relation.ReflTransGen (Pool.Step T) ⟨s, start⟩ p) :
    ∃ order ph, Inv S base owner start (base s) order ph p ∧
      ∀ i, (p.prog i).Sat (PhaseStep kind Refused S) (InPlace kind)
        (fun a ph => ph ≠ .within ∧ (ph = .refused → Left a)) (ph i) := by
  induction hrun with
  | refl => exact ⟨[], fun _ => .before, .initial hs, hshape⟩
  | @tail q _ _ hstep ih =>
    obtain ⟨order, ph, hinv, hsat⟩ := ih
    cases hstep with
    | @call i c k r s' hq ht =>
      have hi := hsat i
      rw [hq] at hi
      -- a call that is out of place still has a step in the logic, which the shape forbids
      have hplace : ((ph i).next (kind c)).isSome := by
        cases hnext : (ph i).next (kind c) with
        | some ph₁ => rfl
        | none =>
          have hfalse := (hi r (ph i) (Or.inr ⟨hnext, rfl⟩)).1
          rw [InPlace, hnext] at hfalse
          exact absurd hfalse (by decide)
      obtain ⟨order', ph', hphase, hinv'⟩ := hinv.step hlaws hq ht hplace
      refine ⟨order', Function.update ph i ph', hinv', fun j => ?_⟩
      by_cases hj : j = i
      · subst hj
        simpa only [Function.update_self] using (hi r ph' hphase).2
      · simpa only [Function.update_of_ne hj] using hsat j

/-- **Serializability.**  When all tasks have returned, those that were not turned away could have
run one after the other, with the same answers, and have left the same base state. -/
theorem exists_order [Fintype ι] (hlaws : Sections kind Refused S T base owner)
    (hshape : ∀ i, Follows kind Refused S Left (start i)) (hs : owner s = none)
    {p : Pool ι C R E σ α} (hrun : Relation.ReflTransGen (Pool.Step T) ⟨s, start⟩ p) {out : ι → α}
    (hdone : ∀ i, p.Finished i (out i)) :
    ∃ order : List ι, order.Nodup ∧ Ordered S start p.prog (base s) order (base p.state) ∧
      ∀ i, i ∉ order → Left (out i) := by
  obtain ⟨order, ph, hinv, hsat⟩ := exists_inv hlaws hshape hs hrun
  have hend : ∀ i, ph i ≠ .within ∧ (ph i = .refused → Left (out i)) := by
    intro i
    have hi := hsat i
    rw [hdone i] at hi
    exact hi
  -- tasks that returned before any access changed nothing
  let early : List ι := (Finset.univ.filter fun i => ph i = .before).toList
  have hearly : ∀ i, i ∈ early ↔ ph i = .before := by simp [early]
  refine ⟨order ++ early, ?_, ?_, fun i hi => ?_⟩
  · refine List.nodup_append.mpr ⟨hinv.nodup, Finset.nodup_toList _, ?_⟩
    rintro i hi j hj rfl
    have hafter := (hinv.mem i).mp hi
    rw [(hearly i).mp hj] at hafter
    exact absurd hafter (by decide)
  · exact Ordered.append early hinv.serial fun i hi => hinv.before i ((hearly i).mp hi) _
  · rw [List.mem_append, not_or] at hi
    cases hph : ph i with
    | before => exact absurd ((hearly i).mpr hph) hi.2
    | after => exact absurd ((hinv.mem i).mpr hph) hi.1
    | within => exact absurd hph (hend i).1
    | refused => exact (hend i).2 hph

end Theorem

end Serial

/-! ## 6. Reading off a result -/

/-- What the program has returned, if it has. -/
def Prog.result? {C : Type} {R : C → Type} {E α : Type} : Prog C R E α → Option α
  | .ret a => some a
  | .call _ _ => none

theorem Pool.finished_of_result {ι C : Type} {R : C → Type} {E σ α : Type} {p : Pool ι C R E σ α}
    {i : ι} {a : α} (h : (p.prog i).result? = some a) : p.Finished i a := by
  cases hp : p.prog i with
  | ret b =>
    rw [hp] at h
    rw [Finished, hp, Option.some.inj h]
  | call c k =>
    rw [hp] at h
    exact absurd h (by simp [Prog.result?])

end Effects
