/-
# Codes that can be read from the front

A code is a PREFIX CODE when the code word of a value can be told from whatever follows it.  Such
codes compose: pairs, fixed text around a word, lists up to a mark that no word can be mistaken for,
with or without a separator.  A code with a reader that gives back the value and the rest is one
(`of_read`).
-/
import Mathlib.Data.List.Basic

namespace PrefixCode

variable {α β γ : Type} {f : α → List γ} {g : β → List γ}

/-! ## 1. Codes -/

/-- What follows a code word does not change what it is the code word of. -/
def IsPrefixCode (f : α → List γ) : Prop := ∀ a b s t, f a ++ s = f b ++ t → a = b ∧ s = t

theorem IsPrefixCode.injective (h : IsPrefixCode f) : Function.Injective f := by
  intro a b hab
  have happend : f a ++ [] = f b ++ [] := by rw [hab]
  exact (h a b [] [] happend).1

/-- A code that can be read is a prefix code. -/
theorem of_read (read : List γ → Option (α × List γ)) (h : ∀ a s, read (f a ++ s) = some (a, s)) :
    IsPrefixCode f := by
  intro a b s t heq
  have hread : some (a, s) = some (b, t) := by rw [← h a s, ← h b t, heq]
  exact Prod.mk.inj (Option.some.inj hread)

theorem IsPrefixCode.comp (h : IsPrefixCode f) {k : β → α} (hk : Function.Injective k) :
    IsPrefixCode fun b => f (k b) := by
  intro a b s t heq
  obtain ⟨hab, hst⟩ := h _ _ s t heq
  exact ⟨hk hab, hst⟩

/-- One word after the other. -/
theorem IsPrefixCode.append (hf : IsPrefixCode f) (hg : IsPrefixCode g) :
    IsPrefixCode fun p : α × β => f p.1 ++ g p.2 := by
  rintro ⟨a, b⟩ ⟨a', b'⟩ s t heq
  rw [List.append_assoc, List.append_assoc] at heq
  obtain ⟨rfl, hrest⟩ := hf a a' _ _ heq
  obtain ⟨rfl, hst⟩ := hg b b' s t hrest
  exact ⟨rfl, hst⟩

/-- Fixed text before a word, and after it. -/
theorem IsPrefixCode.enclosed (h : IsPrefixCode f) (l r : List γ) :
    IsPrefixCode fun a => l ++ f a ++ r := by
  intro a b s t heq
  simp only [List.append_assoc, List.append_cancel_left_eq] at heq
  obtain ⟨rfl, hrest⟩ := h a b _ _ heq
  exact ⟨rfl, List.append_cancel_left hrest⟩

/-! ## 2. Lists of words -/

/-- No text that begins with a code word begins with the mark. -/
def Avoids (f : α → List γ) (mark : List γ) : Prop := ∀ a s t, f a ++ s ≠ mark ++ t

/-- Words that begin with something else than the mark does. -/
theorem avoids_of_head {x y : γ} (hxy : x ≠ y) {mark : List γ} (hf : ∀ a, (f a).head? = some x) :
    Avoids f (y :: mark) := by
  intro a s t heq
  cases hword : f a with
  | nil =>
    have hhead := hf a
    rw [hword] at hhead
    exact absurd hhead (by simp)
  | cons z w =>
    have hhead := hf a
    rw [hword, List.head?_cons, Option.some.injEq] at hhead
    rw [hword, List.cons_append, List.cons_append, List.cons.injEq] at heq
    exact hxy (hhead ▸ heq.1)

/-- **Words up to a mark.** -/
theorem IsPrefixCode.terminated (h : IsPrefixCode f) {mark : List γ} (hmark : Avoids f mark) :
    IsPrefixCode fun xs : List α => xs.flatMap f ++ mark := by
  intro xs
  induction xs with
  | nil =>
    intro ys s t heq
    cases ys with
    | nil => exact ⟨rfl, List.append_cancel_left heq⟩
    | cons y ys =>
      simp only [List.flatMap_nil, List.nil_append, List.flatMap_cons, List.append_assoc] at heq
      exact absurd heq.symm (hmark y _ _)
  | cons x xs ih =>
    intro ys s t heq
    cases ys with
    | nil =>
      simp only [List.flatMap_nil, List.nil_append, List.flatMap_cons, List.append_assoc] at heq
      exact absurd heq (hmark x _ _)
    | cons y ys =>
      simp only [List.flatMap_cons, List.append_assoc] at heq
      obtain ⟨rfl, hrest⟩ := h x y _ _ heq
      obtain ⟨rfl, hst⟩ := ih ys s t (by simpa only [List.append_assoc] using hrest)
      exact ⟨rfl, hst⟩

/-- After the first word, every word has the separator before it. -/
theorem intercalate_cons (sep : List γ) (x : α) (xs : List α) :
    sep.intercalate ((x :: xs).map f) = f x ++ xs.flatMap fun y => sep ++ f y := by
  induction xs generalizing x with
  | nil => simp
  | cons y xs ih =>
    rw [List.map_cons, List.map_cons, List.intercalate_cons_cons, ← List.map_cons, ih,
      List.flatMap_cons]
    simp only [List.append_assoc]

/-- **Words with a separator, up to a mark.** -/
theorem IsPrefixCode.separated (h : IsPrefixCode f) {sep mark : List γ} (hmark : Avoids f mark)
    (hsep : ∀ s t, sep ++ s ≠ mark ++ t) :
    IsPrefixCode fun xs : List α => sep.intercalate (xs.map f) ++ mark := by
  have hrest : IsPrefixCode fun xs : List α => (xs.flatMap fun y => sep ++ f y) ++ mark := by
    refine IsPrefixCode.terminated ?_ ?_
    · intro a b s t heq
      simp only [List.append_assoc, List.append_cancel_left_eq] at heq
      exact h a b s t heq
    · intro a s t
      rw [List.append_assoc]
      exact hsep _ _
  intro xs ys s t heq
  dsimp only at heq
  cases xs with
  | nil =>
    cases ys with
    | nil => exact ⟨rfl, List.append_cancel_left heq⟩
    | cons y ys =>
      rw [intercalate_cons] at heq
      simp only [List.map_nil, List.intercalate_nil, List.nil_append, List.append_assoc] at heq
      exact absurd heq.symm (hmark y _ _)
  | cons x xs =>
    cases ys with
    | nil =>
      rw [intercalate_cons] at heq
      simp only [List.map_nil, List.intercalate_nil, List.nil_append, List.append_assoc] at heq
      exact absurd heq (hmark x _ _)
    | cons y ys =>
      rw [intercalate_cons, intercalate_cons] at heq
      simp only [List.append_assoc] at heq
      obtain ⟨rfl, htail⟩ := h x y _ _ heq
      obtain ⟨rfl, hst⟩ := hrest xs ys s t (by simpa only [List.append_assoc] using htail)
      exact ⟨rfl, hst⟩

/-! ## 3. Words without a mark between them -/

/-- **Where one text is cut in two ways**, at the first cut that differs one word begins the
other. -/
theorem exists_prefix_of_flatten_eq : ∀ {xs ys : List (List γ)}, (∀ x ∈ xs, x ≠ []) →
    (∀ y ∈ ys, y ≠ []) → xs.flatten = ys.flatten → xs ≠ ys →
    ∃ x ∈ xs, ∃ y ∈ ys, x ≠ y ∧ (x <+: y ∨ y <+: x)
  | [], [], _, _, _, hne => absurd rfl hne
  | [], y :: ys, _, hys, heq, _ => by
    have hnil : y = [] := by
      rw [List.flatten_nil, List.flatten_cons] at heq
      exact (List.append_eq_nil_iff.mp heq.symm).1
    exact absurd hnil (hys y List.mem_cons_self)
  | x :: xs, [], hxs, _, heq, _ => by
    have hnil : x = [] := by
      rw [List.flatten_nil, List.flatten_cons] at heq
      exact (List.append_eq_nil_iff.mp heq).1
    exact absurd hnil (hxs x List.mem_cons_self)
  | x :: xs, y :: ys, hxs, hys, heq, hne => by
    rw [List.flatten_cons, List.flatten_cons] at heq
    by_cases hxy : x = y
    · subst hxy
      have hne' : xs ≠ ys := fun h => hne (by rw [h])
      obtain ⟨x', hx', y', hy', hfound⟩ := exists_prefix_of_flatten_eq
        (fun z hz => hxs z (List.mem_cons_of_mem _ hz))
        (fun z hz => hys z (List.mem_cons_of_mem _ hz)) (List.append_cancel_left heq) hne'
      exact ⟨x', List.mem_cons_of_mem _ hx', y', List.mem_cons_of_mem _ hy', hfound⟩
    · refine ⟨x, List.mem_cons_self, y, List.mem_cons_self, hxy, ?_⟩
      exact List.prefix_or_prefix_of_prefix (List.prefix_append x xs.flatten)
        (heq ▸ List.prefix_append y ys.flatten)

end PrefixCode
