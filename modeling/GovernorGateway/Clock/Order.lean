/-
# The text of a time is ordered as the time is

The gateway compares the texts of times.  `stamp_lt_iff` says that this is right as far as
`datetime` goes: the calendar (`ord2ymd`) is strictly monotone (`date_strictMono`), the fields have
a fixed width, and the fraction that `isoformat` leaves out when it is zero does no harm, since `+`
comes before `.`.
-/
import GovernorGateway.Clock
import GovernorGateway.Text.FixedWidth
import Mathlib.Data.Prod.Lex
import Mathlib.Order.Monotone.Basic

namespace GovernorGateway
namespace Clock

open FixedWidth

/-! ## 1. The calendar -/

/-- The next day of a year is later in it. -/
theorem monthDay_lt_succ (leap : Bool) {n : ℕ} (hn : n < 365) :
    toLex (monthDay leap n) < toLex (monthDay leap (n + 1)) := by
  have hall : ∀ leap, ∀ n < 365, (monthDay leap n).1 < (monthDay leap (n + 1)).1 ∨
      (monthDay leap n).1 = (monthDay leap (n + 1)).1 ∧
        (monthDay leap n).2 < (monthDay leap (n + 1)).2 := by
    decide +kernel
  exact Prod.Lex.lt_iff.mpr (hall leap n hn)

/-- The next day is in the same year, or in the next one. -/
def Next (p q : ℕ × ℕ) : Prop := (q.1 = p.1 ∧ q.2 = p.2 + 1) ∨ q.1 = p.1 + 1

/-- A cycle of `k` days and `m` years, repeated. -/
def cycle (k m : ℕ) (f : ℕ → ℕ × ℕ) (n : ℕ) : ℕ × ℕ := (m * (n / k) + (f (n % k)).1, (f (n % k)).2)

theorem next_cycle {k m : ℕ} {f : ℕ → ℕ × ℕ} (hf : ∀ n, n + 1 < k → Next (f n) (f (n + 1)))
    (hfirst : (f 0).1 = 0) (hlast : (f (k - 1)).1 + 1 = m) (hk : 0 < k) (n : ℕ) :
    Next (cycle k m f n) (cycle k m f (n + 1)) := by
  have hlt : n % k < k := Nat.mod_lt n hk
  have hsucc : n + 1 = k * (n / k) + (n % k + 1) := by
    rw [← Nat.add_assoc, Nat.div_add_mod]
  unfold cycle
  rw [hsucc, Nat.mul_add_div hk, Nat.mul_add_mod]
  by_cases hwrap : n % k + 1 = k
  · have hpred : n % k = k - 1 := by omega
    right
    rw [hwrap, Nat.div_self hk, Nat.mod_self, hfirst, hpred, ← hlast, Nat.mul_add]
    dsimp only
    omega
  · have hsame : n % k + 1 < k := by omega
    rw [Nat.div_eq_of_lt hsame, Nat.mod_eq_of_lt hsame]
    rcases hf (n % k) (by omega) with ⟨h₁, h₂⟩ | h
    · left
      exact ⟨by rw [h₁]; rfl, h₂⟩
    · right
      rw [h]
      rfl

/-- Four years, the last of them a leap year. -/
def quad (n : ℕ) : ℕ × ℕ := if n / 365 = 4 then (3, 365) else (n / 365, n % 365)

/-- A hundred years; the last group of four has no leap year. -/
def century (n : ℕ) : ℕ × ℕ := cycle 1461 4 quad n

/-- Four hundred years, the last day of which is one more. -/
def era (n : ℕ) : ℕ × ℕ := if n / 36524 = 4 then (399, 365) else cycle 36524 100 century n

/-- The year, counted from zero, and the day in it. -/
def yearDay (n : ℕ) : ℕ × ℕ := cycle 146097 400 era n

theorem next_quad {n : ℕ} (hn : n + 1 < 1461) : Next (quad n) (quad (n + 1)) := by
  unfold quad Next
  split <;> split <;> dsimp only <;> omega

theorem next_century (n : ℕ) : Next (century n) (century (n + 1)) :=
  next_cycle (fun _ => next_quad) rfl rfl (by decide) n

theorem next_era {n : ℕ} (hn : n + 1 < 146097) : Next (era n) (era (n + 1)) := by
  have hcycle : Next (cycle 36524 100 century n) (cycle 36524 100 century (n + 1)) :=
    next_cycle (fun n _ => next_century n) rfl rfl (by decide) n
  unfold era
  rw [if_neg (by omega)]
  split
  · obtain rfl : n = 146095 := by omega
    exact Or.inl ⟨rfl, rfl⟩
  · exact hcycle

theorem next_yearDay (n : ℕ) : Next (yearDay n) (yearDay (n + 1)) :=
  next_cycle (fun _ => next_era) rfl rfl (by decide) n

/-- The leap years; year one is number zero. -/
def leapYear (y : ℕ) : Bool := (y + 1) % 4 = 0 && ((y + 1) % 100 ≠ 0 || (y + 1) % 400 = 0)

/-- **`_ord2ymd`** is the cycles of the calendar. -/
theorem ord2ymd_eq (n : ℕ) :
    ord2ymd (n + 1) = ((yearDay n).1 + 1, monthDay (leapYear (yearDay n).1) (yearDay n).2) := by
  have hera : n % 146097 < 146097 := Nat.mod_lt _ (by decide)
  unfold ord2ymd yearDay cycle era
  simp only [Nat.add_sub_cancel]
  generalize n / 146097 = a
  generalize n % 146097 = r at hera
  by_cases hb : r / 36524 = 4
  · obtain rfl : r = 146096 := by omega
    have hleap : leapYear (400 * a + 399) = true := by
      simp only [leapYear, Bool.and_eq_true, Bool.or_eq_true, decide_eq_true_eq]
      omega
    rw [if_pos (Or.inr hb), if_pos hb]
    dsimp only
    rw [hleap]
    refine Prod.ext ?_ rfl
    dsimp only
    omega
  · rw [if_neg hb]
    unfold cycle century cycle quad
    have hcentury : r % 36524 < 36524 := Nat.mod_lt _ (by decide)
    have hb' : r / 36524 ≤ 3 := by omega
    generalize r / 36524 = b at hb hb'
    generalize r % 36524 = r at hcentury
    have hc : r / 1461 ≤ 24 := by omega
    have hquad : r % 1461 < 1461 := Nat.mod_lt _ (by decide)
    have hlast : r / 1461 = 24 → r % 1461 < 1460 := by omega
    generalize r / 1461 = c at hc hlast
    generalize r % 1461 = r at hquad hlast
    by_cases hd : r / 365 = 4
    · obtain rfl : r = 1460 := by omega
      have hleap : leapYear (400 * a + (100 * b + (4 * c + 3))) = true := by
        simp only [leapYear, Bool.and_eq_true, Bool.or_eq_true, decide_eq_true_eq]
        omega
      rw [if_pos (Or.inl hd), if_pos hd]
      dsimp only
      rw [hleap]
      refine Prod.ext ?_ rfl
      dsimp only
      omega
    · have hd' : r / 365 ≤ 3 := by omega
      generalize r / 365 = d at hd hd'
      have hleap : leapYear (400 * a + (100 * b + (4 * c + d))) =
          (d = 3 && (c ≠ 24 || b = 3)) := by
        rw [Bool.eq_iff_iff]
        simp only [leapYear, Bool.and_eq_true, Bool.or_eq_true, decide_eq_true_eq]
        omega
      simp only [if_neg hd]
      rw [if_neg (by omega), hleap]
      refine Prod.ext ?_ rfl
      dsimp only
      omega


/-- The date of a day, in the order of the calendar. -/
def date (n : ℕ) : ℕ ×ₗ ℕ ×ₗ ℕ := toLex ((ord2ymd (n + 1)).1, toLex (ord2ymd (n + 1)).2)

theorem yearDay_le (n : ℕ) : (yearDay n).2 ≤ 365 := by
  have hquad : ∀ r, (quad r).2 ≤ 365 := by
    intro r
    unfold quad
    split
    · exact le_rfl
    · exact (Nat.mod_lt r (by decide)).le
  unfold yearDay cycle era
  split
  · exact le_rfl
  · exact hquad _

/-- **A later day has a later date.** -/
theorem date_strictMono : StrictMono date := by
  refine strictMono_nat_of_lt_succ fun n => ?_
  rw [date, date, ord2ymd_eq, ord2ymd_eq, Prod.Lex.lt_iff]
  rcases next_yearDay n with ⟨hyear, hday⟩ | hyear
  · have hle := yearDay_le (n + 1)
    refine Or.inr ⟨?_, ?_⟩
    · dsimp only [ofLex_toLex]
      rw [hyear]
    · dsimp only [ofLex_toLex]
      rw [hyear, hday]
      exact monthDay_lt_succ _ (by omega)
  · refine Or.inl ?_
    dsimp only [ofLex_toLex]
    omega

/-- The end of year 9999, where `datetime` ends. -/
def bound : ℕ := 3652059 * 86400 * 1000000

theorem year_lt {n : ℕ} (hn : n < 3652059) : (ord2ymd (n + 1)).1 < 10 ^ 4 := by
  have hle : date n ≤ date 3652058 := date_strictMono.monotone (by omega)
  rcases Prod.Lex.le_iff.mp hle with h | ⟨h, -⟩
  · exact h.trans (by decide)
  · exact h.trans_lt (by decide)

theorem monthDay_bounds (leap : Bool) {n : ℕ} (hn : n ≤ 365) :
    (monthDay leap n).1 < 10 ^ 2 ∧ (monthDay leap n).2 < 10 ^ 2 := by
  have hall : ∀ leap, ∀ n < 366, (monthDay leap n).1 < 100 ∧ (monthDay leap n).2 < 100 := by
    decide +kernel
  exact hall leap n (by omega)

/-! ## 2. The fields -/

theorem pad_toList {w n : ℕ} (hw : 0 < w) (hn : n < 10 ^ w) : (pad w n).toList = digits w n := by
  rw [pad, String.toList_ofList, leftpad_toDigits hw hn]

def dateText (n : ℕ) : List Char :=
  let ymd := ord2ymd (n + 1)
  digits 4 ymd.1 ++ '-' :: (digits 2 ymd.2.1 ++ '-' :: digits 2 ymd.2.2)

def clockText (s : ℕ) : List Char :=
  digits 2 (s / 3600) ++ ':' :: (digits 2 (s / 60 % 60) ++ ':' :: digits 2 (s % 60))

def fractionText (us : ℕ) : List Char :=
  (if us = 0 then [] else '.' :: digits 6 us) ++ "+00:00Z".toList

/-- A stamp is its date, its time of the day and its fraction. -/
theorem stamp_toList {t : ℕ} (ht : t < bound) : (stamp t).toList =
    dateText (t / 1000000 / 86400) ++ 'T' ::
      (clockText (t / 1000000 % 86400) ++ fractionText (t % 1000000)) := by
  have hday : t / 1000000 / 86400 < 3652059 := by
    rw [bound] at ht
    omega
  have hus : t % 1000000 < 10 ^ 6 := Nat.mod_lt _ (by decide)
  have hsec : t / 1000000 % 86400 < 86400 := Nat.mod_lt _ (by decide)
  have hyear := year_lt hday
  have hmd := monthDay_bounds (leapYear (yearDay (t / 1000000 / 86400)).1)
    (yearDay_le (t / 1000000 / 86400))
  have hmonth : (ord2ymd (t / 1000000 / 86400 + 1)).2.1 < 10 ^ 2 := by
    rw [ord2ymd_eq]
    exact hmd.1
  have hmday : (ord2ymd (t / 1000000 / 86400 + 1)).2.2 < 10 ^ 2 := by
    rw [ord2ymd_eq]
    exact hmd.2
  unfold stamp isoformat
  simp only [String.toList_append]
  have hhour : t / 1000000 % 86400 / 3600 < 10 ^ 2 := by
    have h := Nat.div_lt_of_lt_mul (k := 24) (n := 3600) hsec
    exact h.trans (by decide)
  have hminute : t / 1000000 % 86400 / 60 % 60 < 10 ^ 2 :=
    (Nat.mod_lt _ (by decide)).trans (by decide)
  have hsecond : t / 1000000 % 86400 % 60 < 10 ^ 2 :=
    (Nat.mod_lt _ (by decide)).trans (by decide)
  rw [pad_toList (by decide) hyear, pad_toList (by decide) hmonth, pad_toList (by decide) hmday,
    pad_toList (by decide) hhour, pad_toList (by decide) hminute, pad_toList (by decide) hsecond]
  unfold dateText clockText fractionText
  split
  · simp
  · rw [String.toList_append, pad_toList (by decide) hus]
    simp

theorem dateText_length (n : ℕ) : (dateText n).length = 10 := by
  simp [dateText, length_digits]

theorem clockText_length (s : ℕ) : (clockText s).length = 8 := by
  simp [clockText, length_digits]

theorem dateText_lt {m n : ℕ} (hn : n < 3652059) (h : m < n) : dateText m < dateText n := by
  have hlt := date_strictMono h
  have hyear := year_lt hn
  obtain ⟨hmonth, hday⟩ := monthDay_bounds (leapYear (yearDay n).1) (yearDay_le n)
  have heq : (ord2ymd (n + 1)).2 = monthDay (leapYear (yearDay n).1) (yearDay n).2 := by
    rw [ord2ymd_eq]
  rw [← heq] at hmonth hday
  refine fields_lt hyear hmonth ?_
  rcases Prod.Lex.lt_iff.mp hlt with hy | ⟨hy, hrest⟩
  · exact Or.inl hy
  · refine Or.inr ⟨hy, ?_⟩
    rcases Prod.Lex.lt_iff.mp hrest with hm | ⟨hm, hd⟩
    · exact Or.inl hm
    · exact Or.inr ⟨hm, cons_lt '-' (digits_lt hday hd)⟩

theorem clockText_lt {m n : ℕ} (hn : n < 86400) (h : m < n) : clockText m < clockText n := by
  have hhour : n / 3600 < 10 ^ 2 := (Nat.div_lt_of_lt_mul (k := 24) hn).trans (by decide)
  have hminute : n / 60 % 60 < 10 ^ 2 := (Nat.mod_lt _ (by decide)).trans (by decide)
  have hsecond : n % 60 < 10 ^ 2 := (Nat.mod_lt _ (by decide)).trans (by decide)
  refine fields_lt hhour hminute ?_
  by_cases hh : m / 3600 < n / 3600
  · exact Or.inl hh
  · refine Or.inr ⟨by omega, ?_⟩
    by_cases hm : m / 60 % 60 < n / 60 % 60
    · exact Or.inl hm
    · exact Or.inr ⟨by omega, cons_lt ':' (digits_lt hsecond (by omega))⟩

theorem fractionText_lt {m n : ℕ} (hn : n < 1000000) (h : m < n) :
    fractionText m < fractionText n := by
  unfold fractionText
  rw [if_neg (by omega : ¬ n = 0)]
  split
  · exact List.cons_lt_cons_iff.mpr (Or.inl (by decide))
  · exact cons_lt '.' (field_lt _ _ (w := 6) hn h)

/-! ## 3. The order -/

theorem stamp_lt {t t' : ℕ} (ht' : t' < bound) (h : t < t') : stamp t < stamp t' := by
  have hday : t' / 1000000 / 86400 < 3652059 := by
    rw [bound] at ht'
    omega
  rw [String.lt_iff_toList_lt, stamp_toList ht', stamp_toList (h.trans ht')]
  by_cases hd : t / 1000000 / 86400 < t' / 1000000 / 86400
  · refine append_lt _ _ ?_ (dateText_lt hday hd)
    rw [dateText_length, dateText_length]
  · have heq : t / 1000000 / 86400 = t' / 1000000 / 86400 := by omega
    rw [heq]
    refine List.append_left_lt (cons_lt 'T' ?_)
    by_cases hs : t / 1000000 % 86400 < t' / 1000000 % 86400
    · refine append_lt _ _ ?_ (clockText_lt (Nat.mod_lt _ (by decide)) hs)
      rw [clockText_length, clockText_length]
    · have heq' : t / 1000000 % 86400 = t' / 1000000 % 86400 := by omega
      rw [heq']
      exact List.append_left_lt (fractionText_lt (Nat.mod_lt _ (by decide)) (by omega))

/-- **Texts of times compare as the times do.** -/
theorem stamp_lt_iff {t t' : ℕ} (ht : t < bound) (ht' : t' < bound) :
    stamp t < stamp t' ↔ t < t' := by
  refine ⟨fun h => ?_, stamp_lt ht'⟩
  rcases Nat.lt_trichotomy t t' with hlt | rfl | hgt
  · exact hlt
  · exact absurd h (lt_irrefl _)
  · exact absurd h (lt_asymm (stamp_lt ht hgt))

end Clock
end GovernorGateway
