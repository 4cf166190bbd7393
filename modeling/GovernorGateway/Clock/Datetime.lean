/-
# The fields of a time

A UTC-aware `datetime` is seven fields; a time of the model is a number.  `ofTime` and `toTime` go
from one to the other, and between the times up to the end of year 9999 and the fields a `datetime`
can have they are INVERSE to each other (`toTime_ofTime`, `ofTime_toTime`), so a statement about all
times below `bound` is one about all UTC-aware datetimes.

The calendar is computed in both directions by CPython: `_ord2ymd` (`ord2ymd`), and `_ymd2ord`,
which adds up the days before a year, a month and a day.
-/
import GovernorGateway.Clock.Order

namespace GovernorGateway

namespace Clock

/-! ## 1. Days before -/

/-- `_days_before_year`, for a year counted from zero. -/
def daysBeforeYear (y : ℕ) : ℕ := 365 * y + y / 4 - y / 100 + y / 400

/-- The number of days of a year counted from zero. -/
def yearLength (y : ℕ) : ℕ := if leapYear y then 366 else 365

/-- `_days_in_month`. -/
def daysInMonth (leap : Bool) (month : ℕ) : ℕ :=
  if month = 2 ∧ leap then 29 else [0, 31, 28, 31, 30, 31, 30, 31, 31, 30, 31, 30, 31].getD month 0

/-- Days of the year before a month. -/
def daysBefore (leap : Bool) (month : ℕ) : ℕ :=
  daysBeforeMonth.getD month 0 + if 2 < month ∧ leap then 1 else 0

/-- `_ymd2ord`, less one. -/
def dayNumber (year month day : ℕ) : ℕ :=
  daysBeforeYear (year - 1) + daysBefore (leapYear (year - 1)) month + (day - 1)

/-- The days before a year, by cycles. -/
theorem daysBeforeYear_cycles (a : ℕ) {b c d : ℕ} (hb : b ≤ 3) (hc : c ≤ 24) (hd : d ≤ 3) :
    daysBeforeYear (400 * a + (100 * b + (4 * c + d))) = 146097 * a + 36524 * b + 1461 * c + 365 * d := by
  have h4 : (400 * a + (100 * b + (4 * c + d))) / 4 = 100 * a + 25 * b + c := by omega
  have h100 : (400 * a + (100 * b + (4 * c + d))) / 100 = 4 * a + b := by omega
  have h400 : (400 * a + (100 * b + (4 * c + d))) / 400 = a := by omega
  rw [daysBeforeYear, h4, h100, h400]
  omega

theorem leapYear_iff (y : ℕ) :
    leapYear y = true ↔ (y + 1) % 4 = 0 ∧ ((y + 1) % 100 ≠ 0 ∨ (y + 1) % 400 = 0) := by
  simp only [leapYear, Bool.and_eq_true, Bool.or_eq_true, decide_eq_true_eq]

theorem daysBeforeYear_succ (y : ℕ) : daysBeforeYear (y + 1) = daysBeforeYear y + yearLength y := by
  have hnext : (y + 1) / 4 = y / 4 + (if (y + 1) % 4 = 0 then 1 else 0) ∧
      (y + 1) / 100 = y / 100 + (if (y + 1) % 100 = 0 then 1 else 0) ∧
      (y + 1) / 400 = y / 400 + (if (y + 1) % 400 = 0 then 1 else 0) := by
    refine ⟨?_, ?_, ?_⟩
    · split <;> omega
    · split <;> omega
    · split <;> omega
  have hmore : y / 100 ≤ y / 4 := by omega
  unfold daysBeforeYear yearLength
  rw [hnext.1, hnext.2.1, hnext.2.2]
  have hleap := leapYear_iff y
  by_cases h4 : (y + 1) % 4 = 0
  · by_cases h100 : (y + 1) % 100 = 0
    · by_cases h400 : (y + 1) % 400 = 0
      · rw [if_pos h4, if_pos h100, if_pos h400, if_pos (hleap.mpr ⟨h4, Or.inr h400⟩)]
        omega
      · rw [if_pos h4, if_pos h100, if_neg h400, if_neg]
        · omega
        · rw [hleap]
          rintro ⟨-, h | h⟩
          · exact h h100
          · exact h400 h
    · have h400 : ¬ (y + 1) % 400 = 0 := by omega
      rw [if_pos h4, if_neg h100, if_neg h400, if_pos (hleap.mpr ⟨h4, Or.inl h100⟩)]
      omega
  · have h100 : ¬ (y + 1) % 100 = 0 := by omega
    have h400 : ¬ (y + 1) % 400 = 0 := by omega
    rw [if_neg h4, if_neg h100, if_neg h400, if_neg fun h => h4 (hleap.mp h).1]
    omega

theorem daysBeforeYear_mono {x y : ℕ} (h : x ≤ y) : daysBeforeYear x ≤ daysBeforeYear y := by
  induction h with
  | refl => exact le_refl _
  | step _ ih =>
    rw [daysBeforeYear_succ]
    omega

/-- **The year of a day**: the days before it, and the place in it. -/
theorem yearDay_spec (n : ℕ) : daysBeforeYear (yearDay n).1 + (yearDay n).2 = n ∧
    (yearDay n).2 < yearLength (yearDay n).1 := by
  have hera : n % 146097 < 146097 := Nat.mod_lt _ (by decide)
  have hsplit : 146097 * (n / 146097) + n % 146097 = n := Nat.div_add_mod n 146097
  unfold yearDay cycle era
  generalize n / 146097 = a at hsplit
  generalize n % 146097 = r at hera hsplit
  by_cases hb : r / 36524 = 4
  · rw [if_pos hb]
    have hdays : daysBeforeYear (400 * a + 399) = _ :=
      daysBeforeYear_cycles a (b := 3) (c := 24) (d := 3) (by decide) (by decide) (by decide)
    have hleap : leapYear (400 * a + 399) = true := (leapYear_iff _).mpr (by omega)
    refine ⟨?_, ?_⟩
    · dsimp only
      omega
    · dsimp only [yearLength]
      rw [hleap]
      decide
  · rw [if_neg hb]
    unfold cycle century cycle
    have hcentury : r % 36524 < 36524 := Nat.mod_lt _ (by decide)
    have hsplit₁ : 36524 * (r / 36524) + r % 36524 = r := Nat.div_add_mod r 36524
    have hb' : r / 36524 ≤ 3 := by omega
    generalize r / 36524 = b at hb hb' hsplit₁
    generalize r % 36524 = r₁ at hcentury hsplit₁
    have hc : r₁ / 1461 ≤ 24 := by omega
    have hquad : r₁ % 1461 < 1461 := Nat.mod_lt _ (by decide)
    have hsplit₂ : 1461 * (r₁ / 1461) + r₁ % 1461 = r₁ := Nat.div_add_mod r₁ 1461
    generalize r₁ / 1461 = c at hc hsplit₂
    generalize r₁ % 1461 = r₂ at hquad hsplit₂
    unfold quad
    by_cases hd : r₂ / 365 = 4
    · rw [if_pos hd]
      have hc' : c ≤ 23 := by omega
      have hdays := daysBeforeYear_cycles a hb' hc (d := 3) (by decide)
      have hleap : leapYear (400 * a + (100 * b + (4 * c + 3))) = true :=
        (leapYear_iff _).mpr (by omega)
      refine ⟨?_, ?_⟩
      · dsimp only
        omega
      · dsimp only [yearLength]
        rw [hleap]
        decide
    · rw [if_neg hd]
      have hd' : r₂ / 365 ≤ 3 := by omega
      have hlast : r₂ % 365 < 365 := Nat.mod_lt _ (by decide)
      have hsplit₃ : 365 * (r₂ / 365) + r₂ % 365 = r₂ := Nat.div_add_mod r₂ 365
      generalize r₂ / 365 = d at hd' hsplit₃
      generalize r₂ % 365 = r₃ at hlast hsplit₃
      have hdays := daysBeforeYear_cycles a hb' hc hd'
      refine ⟨?_, ?_⟩
      · dsimp only
        omega
      · dsimp only [yearLength]
        split
        · omega
        · omega

/-- Days have one year. -/
theorem yearDay_eq {y d : ℕ} (h : d < yearLength y) : yearDay (daysBeforeYear y + d) = (y, d) := by
  obtain ⟨hsum, hlt⟩ := yearDay_spec (daysBeforeYear y + d)
  generalize yearDay (daysBeforeYear y + d) = q at hsum hlt
  obtain ⟨y', d'⟩ := q
  dsimp only at hsum hlt
  have hyear : y' = y := by
    rcases Nat.lt_trichotomy y' y with hless | heq | hmore
    · have hmono := daysBeforeYear_mono (Nat.succ_le_of_lt hless)
      rw [Nat.succ_eq_add_one, daysBeforeYear_succ] at hmono
      omega
    · exact heq
    · have hmono := daysBeforeYear_mono (Nat.succ_le_of_lt hmore)
      rw [Nat.succ_eq_add_one, daysBeforeYear_succ] at hmono
      omega
  subst hyear
  exact Prod.ext rfl (by dsimp only; omega)

/-- The month of a day of the year. -/
theorem monthDay_spec (leap : Bool) {n : ℕ} (hn : n < if leap then 366 else 365) :
    daysBefore leap (monthDay leap n).1 + ((monthDay leap n).2 - 1) = n ∧
      (1 ≤ (monthDay leap n).1 ∧ (monthDay leap n).1 ≤ 12) ∧ 1 ≤ (monthDay leap n).2 ∧
        (monthDay leap n).2 ≤ daysInMonth leap (monthDay leap n).1 := by
  have hall : ∀ leap, ∀ n < if leap then 366 else 365,
      daysBefore leap (monthDay leap n).1 + ((monthDay leap n).2 - 1) = n ∧
        (1 ≤ (monthDay leap n).1 ∧ (monthDay leap n).1 ≤ 12) ∧ 1 ≤ (monthDay leap n).2 ∧
          (monthDay leap n).2 ≤ daysInMonth leap (monthDay leap n).1 := by
    decide +kernel
  exact hall leap n hn

theorem monthDay_eq (leap : Bool) {month day : ℕ} (hmonth : 1 ≤ month ∧ month ≤ 12)
    (hday : 1 ≤ day ∧ day ≤ daysInMonth leap month) :
    monthDay leap (daysBefore leap month + (day - 1)) = (month, day) ∧
      daysBefore leap month + (day - 1) < if leap then 366 else 365 := by
  have hall : ∀ leap, ∀ month < 13, ∀ day < daysInMonth leap month + 1, 1 ≤ month ∧ 1 ≤ day →
      monthDay leap (daysBefore leap month + (day - 1)) = (month, day) ∧
        daysBefore leap month + (day - 1) < if leap then 366 else 365 := by
    decide +kernel
  exact hall leap month (by omega) day (by omega) ⟨hmonth.1, hday.1⟩

/-! ## 2. Fields -/

/-- The fields of a `datetime`. -/
structure Fields where
  year : ℕ
  month : ℕ
  day : ℕ
  hour : ℕ
  minute : ℕ
  second : ℕ
  microsecond : ℕ
  deriving DecidableEq

namespace Fields

/-- What the constructor of `datetime` accepts. -/
structure Valid (a : Fields) : Prop where
  year : 1 ≤ a.year ∧ a.year ≤ 9999
  month : 1 ≤ a.month ∧ a.month ≤ 12
  day : 1 ≤ a.day ∧ a.day ≤ daysInMonth (leapYear (a.year - 1)) a.month
  hour : a.hour < 24
  minute : a.minute < 60
  second : a.second < 60
  microsecond : a.microsecond < 1000000

theorem valid_iff (a : Fields) : a.Valid ↔ (1 ≤ a.year ∧ a.year ≤ 9999) ∧
    (1 ≤ a.month ∧ a.month ≤ 12) ∧
    (1 ≤ a.day ∧ a.day ≤ daysInMonth (leapYear (a.year - 1)) a.month) ∧
    a.hour < 24 ∧ a.minute < 60 ∧ a.second < 60 ∧ a.microsecond < 1000000 :=
  ⟨fun h => ⟨h.1, h.2, h.3, h.4, h.5, h.6, h.7⟩,
    fun ⟨h₁, h₂, h₃, h₄, h₅, h₆, h₇⟩ => ⟨h₁, h₂, h₃, h₄, h₅, h₆, h₇⟩⟩

instance (a : Fields) : Decidable a.Valid := decidable_of_iff' _ (valid_iff a)

/-- The time with these fields, in UTC. -/
def toTime (a : Fields) : ℕ :=
  ((dayNumber a.year a.month a.day * 86400 + a.hour * 3600 + a.minute * 60 + a.second) * 1000000 +
    a.microsecond)

/-- The fields of a time. -/
def ofTime (t : Time) : Fields :=
  let ymd := ord2ymd (t / 1000000 / 86400 + 1)
  let s := t / 1000000 % 86400
  ⟨ymd.1, ymd.2.1, ymd.2.2, s / 3600, s / 60 % 60, s % 60, t % 1000000⟩

/-- `isoformat()`, in UTC. -/
def isoformat (a : Fields) : String :=
  pad 4 a.year ++ "-" ++ pad 2 a.month ++ "-" ++ pad 2 a.day ++ "T" ++
    pad 2 a.hour ++ ":" ++ pad 2 a.minute ++ ":" ++ pad 2 a.second ++
    (if a.microsecond = 0 then "" else "." ++ pad 6 a.microsecond) ++ "+00:00"

theorem isoformat_ofTime (t : Time) : (ofTime t).isoformat = Clock.isoformat t := rfl

/-- The day of a time is found again. -/
theorem dayNumber_ord2ymd (n : ℕ) :
    dayNumber (ord2ymd (n + 1)).1 (ord2ymd (n + 1)).2.1 (ord2ymd (n + 1)).2.2 = n := by
  obtain ⟨hsum, hlt⟩ := yearDay_spec n
  rw [ord2ymd_eq, dayNumber]
  dsimp only
  rw [Nat.add_sub_cancel, Nat.add_assoc, (monthDay_spec _ hlt).1, hsum]

/-- **The fields of a time give the time.** -/
theorem toTime_ofTime (t : ℕ) : (ofTime t).toTime = t := by
  unfold toTime ofTime
  dsimp only
  rw [dayNumber_ord2ymd]
  omega

/-- **The time of valid fields has these fields.** -/
theorem ofTime_toTime {a : Fields} (ha : a.Valid) : ofTime a.toTime = a := by
  obtain ⟨hmonthDay, hlt⟩ := monthDay_eq _ ha.month ha.day
  have hhour := ha.hour
  have hminute := ha.minute
  have hsecond := ha.second
  have hmicrosecond := ha.microsecond
  have hyear := ha.year
  have hdate : ord2ymd (dayNumber a.year a.month a.day + 1) = (a.year, a.month, a.day) := by
    rw [dayNumber, Nat.add_assoc (daysBeforeYear _), ord2ymd_eq, yearDay_eq hlt]
    dsimp only
    rw [hmonthDay, Nat.sub_add_cancel hyear.1]
  obtain ⟨year, month, day, hour, minute, second, microsecond⟩ := a
  dsimp only at *
  unfold toTime ofTime
  dsimp only
  generalize dayNumber year month day = n at *
  have hday : ((n * 86400 + hour * 3600 + minute * 60 + second) * 1000000 + microsecond) / 1000000 /
      86400 = n := by omega
  rw [hday, hdate]
  rw [Fields.mk.injEq]
  refine ⟨rfl, rfl, rfl, ?_, ?_, ?_, ?_⟩
  · omega
  · omega
  · omega
  · omega

theorem toTime_lt {a : Fields} (ha : a.Valid) : a.toTime < bound := by
  have hhour := ha.hour
  have hminute := ha.minute
  have hsecond := ha.second
  have hmicrosecond := ha.microsecond
  obtain ⟨-, hlt⟩ := monthDay_eq _ ha.month ha.day
  have hyear := ha.year
  have hday : dayNumber a.year a.month a.day < 3652059 := by
    have hmono := daysBeforeYear_mono (show a.year - 1 + 1 ≤ 9999 by omega)
    have hlast : daysBeforeYear 9999 = 3652059 := rfl
    rw [daysBeforeYear_succ, hlast] at hmono
    have hlen : yearLength (a.year - 1) =
        if leapYear (a.year - 1) = true then 366 else 365 := rfl
    unfold dayNumber
    omega
  unfold toTime bound
  omega

theorem valid_ofTime {t : ℕ} (ht : t < bound) : (ofTime t).Valid := by
  have hday : t / 1000000 / 86400 < 3652059 := by
    rw [bound] at ht
    omega
  have hyear := year_lt hday
  obtain ⟨-, hlt⟩ := yearDay_spec (t / 1000000 / 86400)
  obtain ⟨-, hmonth, hmday⟩ := monthDay_spec _ hlt
  unfold ofTime
  constructor
  · dsimp only
    refine ⟨?_, by omega⟩
    rw [ord2ymd_eq]
    exact Nat.succ_pos _
  · dsimp only
    rw [ord2ymd_eq]
    exact hmonth
  · dsimp only
    rw [ord2ymd_eq]
    exact hmday
  · dsimp only
    omega
  · dsimp only
    omega
  · dsimp only
    omega
  · dsimp only
    omega

end Fields

end Clock

end GovernorGateway
