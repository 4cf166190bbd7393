/-
# Decimal fields of a fixed width

Numbers written with leading zeros to a fixed width are ordered as texts the way they are as
numbers, and so are texts made of several such fields (`fields_lt`).
-/
import Mathlib.Data.String.Basic

namespace FixedWidth

/-! ## 1. Digits -/

/-- The first field decides. -/
theorem append_lt {a b : List Char} (u v : List Char) (hlen : a.length = b.length) (h : a < b) :
    a ++ u < b ++ v := by
  induction a generalizing b with
  | nil =>
    cases b with
    | nil => exact absurd h (List.not_lt_nil _)
    | cons y b => exact absurd hlen (by simp)
  | cons x a ih =>
    cases b with
    | nil => exact absurd h (List.not_lt_nil _)
    | cons y b =>
      rw [List.cons_append, List.cons_append, List.cons_lt_cons_iff]
      rcases List.cons_lt_cons_iff.mp h with hxy | ⟨hxy, hab⟩
      · exact Or.inl hxy
      · exact Or.inr ⟨hxy, ih (Nat.succ.inj hlen) hab⟩

/-- The last `w` decimal digits of a number. -/
def digits : ℕ → ℕ → List Char
  | 0, _ => []
  | w + 1, n => digits w (n / 10) ++ [Nat.digitChar (n % 10)]

theorem length_digits (w n : ℕ) : (digits w n).length = w := by
  induction w generalizing n with
  | zero => rfl
  | succ w ih => rw [digits, List.length_append, ih, List.length_singleton]

theorem digitChar_lt {m n : ℕ} (hn : n < 10) (h : m < n) : Nat.digitChar m < Nat.digitChar n := by
  have hall : ∀ n < 10, ∀ m < n, Nat.digitChar m < Nat.digitChar n := by decide
  exact hall n hn m h

/-- **The text of the larger number is larger.** -/
theorem digits_lt {w m n : ℕ} (hn : n < 10 ^ w) (h : m < n) : digits w m < digits w n := by
  induction w generalizing m n with
  | zero => omega
  | succ w ih =>
    rw [digits, digits]
    rcases Nat.lt_or_eq_of_le (Nat.div_le_div_right (c := 10) h.le) with hlt | heq
    · refine append_lt _ _ ?_ (ih ?_ hlt)
      · rw [length_digits, length_digits]
      · rw [Nat.pow_succ] at hn
        omega
    · rw [heq]
      refine List.append_left_lt (List.cons_lt_cons_iff.mpr (Or.inl (digitChar_lt ?_ ?_)))
      · omega
      · omega

theorem digits_zero (w : ℕ) : digits w 0 = List.replicate w (Char.ofNat 48) := by
  induction w with
  | zero => rfl
  | succ w ih =>
    rw [digits, Nat.zero_div, ih, List.replicate_succ']
    rfl

theorem leftpad_append (w : ℕ) (c x : Char) (l : List Char) :
    (l ++ [x]).leftpad (w + 1) c = l.leftpad w c ++ [x] := by
  rw [List.leftpad, List.leftpad, List.length_append, List.length_singleton,
    Nat.add_sub_add_right, List.append_assoc]

/-- Leading zeros make it as wide. -/
theorem leftpad_toDigits {w n : ℕ} (hw : 0 < w) (hn : n < 10 ^ w) :
    (Nat.toDigits 10 n).leftpad w (Char.ofNat 48) = digits w n := by
  induction w generalizing n with
  | zero => omega
  | succ w ih =>
    rw [Nat.toDigits_eq_if (by decide), digits]
    split
    · rename_i hsmall
      rw [Nat.div_eq_of_lt hsmall, Nat.mod_eq_of_lt hsmall, digits_zero]
      simp [List.leftpad]
    · rename_i hlarge
      have hpos : 0 < w := by
        rcases Nat.eq_zero_or_pos w with rfl | hpos
        · omega
        · exact hpos
      rw [leftpad_append, ih hpos]
      rw [Nat.pow_succ] at hn
      omega

/-! ## 2. Fields -/

theorem field_lt {w m n : ℕ} (u v : List Char) (hn : n < 10 ^ w) (h : m < n) :
    digits w m ++ u < digits w n ++ v :=
  append_lt u v (by rw [length_digits, length_digits]) (digits_lt hn h)

/-- Two fields with something between them. -/
theorem fields_lt {v w m n m' n' : ℕ} {c : Char} {r r' : List Char} (hn : n < 10 ^ v)
    (hn' : n' < 10 ^ w) (h : m < n ∨ m = n ∧ (m' < n' ∨ m' = n' ∧ r < r')) :
    digits v m ++ c :: (digits w m' ++ r) < digits v n ++ c :: (digits w n' ++ r') := by
  rcases h with h | ⟨rfl, h⟩
  · exact field_lt _ _ hn h
  · refine List.append_left_lt (List.cons_lt_cons_iff.mpr (Or.inr ⟨rfl, ?_⟩))
    rcases h with h | ⟨rfl, h⟩
    · exact field_lt _ _ hn' h
    · exact List.append_left_lt h

theorem cons_lt (c : Char) {u v : List Char} (h : u < v) : c :: u < c :: v :=
  List.cons_lt_cons_iff.mpr (Or.inr ⟨rfl, h⟩)

end FixedWidth
