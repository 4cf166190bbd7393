/-
# Words that end where a delimiter begins

The word of a number has no end of its own: `1` begins `12`.  It can be told all the same when what
FOLLOWS it is known to begin with a delimiter, and no such word has a delimiter in it.  `Legible` is
what is left of a prefix code then, for one value at a time: a value is built of smaller ones, and
an induction over it has the smaller words legible and nothing else.
-/
import GovernorGateway.Text.PrefixCode

namespace PrefixCode

variable {α γ : Type} {f : α → List γ} {P : α → Prop} {D : List γ → Prop}

/-! ## 1. Legible words -/

/-- In front of a text of `D`, the word of `a` is told from the words of all values of `P`. -/
def Legible (P : α → Prop) (D : List γ → Prop) (f : α → List γ) (a : α) : Prop :=
  ∀ b s t, P b → D s → D t → f a ++ s = f b ++ t → a = b ∧ s = t

/-- A text that is empty or begins with a delimiter. -/
def Delimited (stop : γ → Prop) (s : List γ) : Prop := ∀ c, s.head? = some c → stop c

/-- **Two words without a delimiter**, each in front of one. -/
theorem eq_of_delimited {stop : γ → Prop} {u v s t : List γ} (hu : ∀ c ∈ u, ¬ stop c)
    (hv : ∀ c ∈ v, ¬ stop c) (hs : Delimited stop s) (ht : Delimited stop t)
    (heq : u ++ s = v ++ t) : u = v ∧ s = t := by
  rcases List.append_eq_append_iff.mp heq with ⟨w, rfl, rfl⟩ | ⟨w, rfl, rfl⟩
  · cases w with
    | nil => exact ⟨(List.append_nil u).symm, rfl⟩
    | cons c w =>
      have hstop : stop c := hs c rfl
      exact absurd hstop (hv c (List.mem_append_right u List.mem_cons_self))
  · cases w with
    | nil => exact ⟨List.append_nil v, rfl⟩
    | cons c w =>
      have hstop : stop c := ht c rfl
      exact absurd hstop (hu c (List.mem_append_right v List.mem_cons_self))

/-! ## 2. Lists of them -/

section Lists

variable {sep mark : List γ}

/-- What follows a word of a list begins with the separator or with the mark. -/
theorem follows_word (hsep : ∀ s, D (sep ++ s)) (hmark : ∀ s, D (mark ++ s)) (xs : List α)
    (s : List γ) : D ((xs.flatMap fun y => sep ++ f y) ++ (mark ++ s)) := by
  cases xs with
  | nil => exact hmark s
  | cons x xs =>
    simp only [List.flatMap_cons, List.append_assoc]
    exact hsep _

/-- The words behind the first one, each with the separator before it, up to the mark. -/
theorem legible_rest (hsep : ∀ s, D (sep ++ s)) (hmark : ∀ s, D (mark ++ s))
    (hne : ∀ s t, sep ++ s ≠ mark ++ t) : ∀ {xs : List α}, (∀ x ∈ xs, Legible P D f x) →
    Legible (fun ys => ∀ y ∈ ys, P y) (fun _ => True)
      (fun xs => (xs.flatMap fun y => sep ++ f y) ++ mark) xs := by
  intro xs
  induction xs with
  | nil =>
    intro _ ys s t _ _ _ heq
    cases ys with
    | nil => exact ⟨rfl, List.append_cancel_left heq⟩
    | cons y ys =>
      simp only [List.flatMap_nil, List.nil_append, List.flatMap_cons, List.append_assoc] at heq
      exact absurd heq.symm (hne _ _)
  | cons x xs ih =>
    intro h ys s t hys _ _ heq
    cases ys with
    | nil =>
      simp only [List.flatMap_nil, List.nil_append, List.flatMap_cons, List.append_assoc] at heq
      exact absurd heq (hne _ _)
    | cons y ys =>
      simp only [List.flatMap_cons, List.append_assoc, List.append_cancel_left_eq] at heq
      obtain ⟨rfl, hrest⟩ := h x List.mem_cons_self y _ _ (hys y List.mem_cons_self)
        (follows_word hsep hmark xs s) (follows_word hsep hmark ys t) heq
      obtain ⟨rfl, hst⟩ := ih (fun z hz => h z (List.mem_cons_of_mem _ hz)) ys s t
        (fun z hz => hys z (List.mem_cons_of_mem _ hz)) trivial trivial
        (by simpa only [List.append_assoc] using hrest)
      exact ⟨rfl, hst⟩

/-- **Legible words with a separator, up to a mark.**  The list needs no delimiter behind it. -/
theorem legible_separated (hsep : ∀ s, D (sep ++ s)) (hmark : ∀ s, D (mark ++ s))
    (hne : ∀ s t, sep ++ s ≠ mark ++ t) (havoids : ∀ a, P a → ∀ s t, f a ++ s ≠ mark ++ t)
    {xs : List α} (hxs : ∀ x ∈ xs, P x) (h : ∀ x ∈ xs, Legible P D f x) :
    Legible (fun ys => ∀ y ∈ ys, P y) (fun _ => True)
      (fun xs => sep.intercalate (xs.map f) ++ mark) xs := by
  intro ys s t hys _ _ heq
  dsimp only at heq
  cases xs with
  | nil =>
    cases ys with
    | nil => exact ⟨rfl, List.append_cancel_left heq⟩
    | cons y ys =>
      rw [intercalate_cons] at heq
      simp only [List.map_nil, List.intercalate_nil, List.nil_append, List.append_assoc] at heq
      exact absurd heq.symm (havoids y (hys y List.mem_cons_self) _ _)
  | cons x xs =>
    cases ys with
    | nil =>
      rw [intercalate_cons] at heq
      simp only [List.map_nil, List.intercalate_nil, List.nil_append, List.append_assoc] at heq
      exact absurd heq (havoids x (hxs x List.mem_cons_self) _ _)
    | cons y ys =>
      rw [intercalate_cons, intercalate_cons] at heq
      simp only [List.append_assoc] at heq
      obtain ⟨rfl, htail⟩ := h x List.mem_cons_self y _ _ (hys y List.mem_cons_self)
        (follows_word hsep hmark xs s) (follows_word hsep hmark ys t) heq
      obtain ⟨rfl, hst⟩ := legible_rest hsep hmark hne
        (fun z hz => h z (List.mem_cons_of_mem _ hz)) ys s t
        (fun z hz => hys z (List.mem_cons_of_mem _ hz)) trivial trivial
        (by simpa only [List.append_assoc] using htail)
      exact ⟨rfl, hst⟩

end Lists

end PrefixCode
