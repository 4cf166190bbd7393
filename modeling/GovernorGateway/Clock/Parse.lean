/-
# Reading the text of a time

`_parse_utc` (`src/postgres_backend.py`) strips what the gateway appends and calls
`datetime.fromisoformat`.  The parser here is CPython's, of the version the image is built from
(3.11), with the texts it lets pass beyond ISO 8601: a fraction after the hours or the minutes, what
is LEFT OVER of the time of day before an offset, anything after a character of number zero.

**What the gateway writes it reads back** (`parseUtc_stamp`): the fields, in UTC.
-/
import GovernorGateway.Clock.Datetime

namespace GovernorGateway

namespace Clock

open FixedWidth

/-! ## 1. `datetime.fromisoformat` -/

/-- A decimal digit. -/
def digitValue (c : Char) : Option ℕ := if 48 ≤ c.toNat ∧ c.toNat ≤ 57 then some (c.toNat - 48) else none

/-- Decimal digits, read from left to right. -/
def number : List Char → ℕ → Option ℕ
  | [], n => some n
  | c :: cs, n => do
    let d ← digitValue c
    number cs (10 * n + d)

/-- `parse_digits`: exactly `w` digits, and what follows them. -/
def readField (w : ℕ) (cs : List Char) : Option (ℕ × List Char) :=
  if w ≤ cs.length then (number (cs.take w) 0).map fun n => (n, cs.drop w) else none

def isDigit (c : Char) : Bool := (digitValue c).isSome

/-- Nothing follows, or what a C string ends with. -/
def ended (cs : List Char) : Bool :=
  match cs with
  | [] => true
  | c :: _ => c.toNat = 0

/-- Six digits of a fraction count, and those after them are skipped. -/
def readFraction (cs : List Char) : Option (ℕ × List Char) :=
  (number (cs.take 6) 0).map fun n =>
    (n * 10 ^ (6 - (cs.take 6).length), (cs.drop 6).dropWhile isDigit)

/-- The rest of a time of day from its next field on: at most `n` fields, separated by colons or
not, and a fraction.  The fields, the microseconds, and what is left over. -/
def readFields (colon : Bool) : ℕ → List Char → Option (List ℕ × ℕ × List Char)
  | 0, cs => (readFraction cs).map fun f => ([], f.1, f.2)
  | n + 1, cs => do
    let (v, cs) ← readField 2 cs
    let more (r : Option (List ℕ × ℕ × List Char)) := r.map fun f => (v :: f.1, f.2.1, f.2.2)
    match cs with
    | [] => some ([v], 0, [])
    | [c] => some ([v], 0, [c])
    | c :: cs =>
      if colon = true ∧ c = ':' then more (readFields colon n cs)
      else if c = '.' ∨ c = ',' then more ((readFraction cs).map fun f => ([], f.1, f.2))
      else if colon = true then none
      else more (readFields colon n (c :: cs))

/-- Hour, minute, second and microsecond. -/
structure ClockFields where
  hour : ℕ := 0
  minute : ℕ := 0
  second : ℕ := 0
  microsecond : ℕ := 0

/-- `parse_hh_mm_ss_ff`: colons everywhere or nowhere. -/
def readClock (cs : List Char) : Option (ClockFields × List Char) :=
  (readFields (decide ((cs.drop 2).head? = some ':')) 3 cs).map fun f =>
    ({ hour := f.1.getD 0 0, minute := f.1.getD 1 0, second := f.1.getD 2 0, microsecond := f.2.1 }, f.2.2)

/-- Where the offset starts. -/
def startsZone (c : Char) : Bool := c = '+' || c = '-' || c = 'Z'

/-- The offset from UTC in microseconds; it is less than a day.  An offset of less than a second is
none. -/
def readZone : List Char → Option (Option Int)
  | [] => some none
  | c :: cs =>
    if c = 'Z' then (if ended cs then some (some 0) else none)
    else do
      let (z, left) ← readClock cs
      let seconds : ℕ := z.hour * 3600 + z.minute * 60 + z.second
      let offset : ℕ := if seconds = 0 then 0 else seconds * 1000000 + z.microsecond
      if ended left ∧ offset < 86400 * 1000000 then
        some (some (if c = '-' then -offset else offset))
      else none

/-- A `datetime`, aware or naive. -/
structure Datetime extends Fields where
  /-- Microseconds east of UTC. -/
  offset : Option Int
  deriving DecidableEq

/-- `_iso_to_ymd`: a year has a week 53 if it starts on a Thursday, or is a leap year that starts on
a Wednesday. -/
def isoToYmd (year week day : ℕ) : Option (ℕ × ℕ × ℕ) :=
  let first := dayNumber year 1 1
  let weekday := first % 7
  let long := weekday = 3 ∨ weekday = 2 ∧ leapYear (year - 1) = true
  let monday := first - weekday + if 3 < weekday then 7 else 0
  if 1 ≤ year ∧ 1 ≤ week ∧ (week ≤ 52 ∨ week = 53 ∧ long) ∧ 1 ≤ day ∧ day ≤ 7 then
    some (ord2ymd (monday + (week - 1) * 7 + (day - 1) + 1))
  else none

/-- Whether a day follows the week, as `_find_isoformat_datetime_separator` decides it: a dash
before two characters of which the second is a digit stands before the TIME, and of the digits
without a dash the number tells. -/
def weekHasDay (dash : Bool) (cs : List Char) : Bool :=
  if dash then cs.head? = some '-' && !((cs.drop 2).head?.any isDigit)
  else
    let n := (cs.takeWhile isDigit).length
    n = 1 || (2 ≤ n && n % 2 = 0)

/-- `Www-d` or `Wwwd`, or the week alone for its Monday. -/
def readWeek (year : ℕ) (dash : Bool) (cs : List Char) : Option ((ℕ × ℕ × ℕ) × List Char) := do
  let (week, cs) ← readField 2 cs
  if weekHasDay dash cs then do
    let (day, cs) ← readField 1 (if dash then cs.drop 1 else cs)
    (isoToYmd year week day).map fun ymd => (ymd, cs)
  else (isoToYmd year week 1).map fun ymd => (ymd, cs)

/-- A dash that is there exactly when it is expected. -/
def readDash (expected : Bool) (cs : List Char) : Option (List Char) :=
  if expected then (if cs.head? = some '-' then some (cs.drop 1) else none) else some cs

/-- `YYYY-MM-DD`, `YYYYMMDD` or a week date. -/
def readDate (cs : List Char) : Option ((ℕ × ℕ × ℕ) × List Char) := do
  let (year, cs) ← readField 4 cs
  let dash : Bool := cs.head? = some '-'
  let cs ← readDash dash cs
  if cs.head? = some 'W' then readWeek year dash (cs.drop 1)
  else do
    let (month, cs) ← readField 2 cs
    let cs ← readDash dash cs
    let (day, cs) ← readField 2 cs
    pure ((year, month, day), cs)

/-- The constructor of `datetime`. -/
def construct (ymd : ℕ × ℕ × ℕ) (clock : ClockFields) (offset : Option Int) : Option Datetime :=
  let a : Fields := ⟨ymd.1, ymd.2.1, ymd.2.2, clock.hour, clock.minute, clock.second, clock.microsecond⟩
  if a.Valid then some { a with offset := offset } else none

/-- `datetime.fromisoformat`; `none` is `ValueError`. -/
def fromisoformat (text : List Char) : Option Datetime := do
  let (ymd, rest) ← readDate text
  match rest with
  | [] => construct ymd {} none
  -- one character, whichever, stands between the date and the time
  | _ :: time => do
    let (clock, left) ← readClock (time.takeWhile fun c => !startsZone c)
    let zone := time.dropWhile fun c => !startsZone c
    -- what is left over is looked at only where the text ends
    if zone = [] ∧ !ended left then none
    else do
      let offset ← readZone zone
      construct ymd clock offset

/-- What `_parse_utc` hands to `fromisoformat`: a `Z` after an offset goes, any other becomes an
offset. -/
def stripZulu (text : List Char) : List Char :=
  if "+00:00Z".toList <:+ text then text.dropLast
  else if "Z".toList <:+ text then text.dropLast ++ "+00:00".toList
  else text

/-- `_parse_utc`. -/
def parseUtc (ts : String) : Option Datetime :=
  (fromisoformat (stripZulu ts.toList)).map fun a =>
    if a.offset = none then { a with offset := some 0 } else a

/-- The moment of an aware `datetime`, in microseconds since 0001-01-01T00:00:00 UTC. -/
def Datetime.moment (a : Datetime) : Int := a.toTime - a.offset.getD 0

/-- The fields, as a `datetime` in UTC. -/
def Fields.utc (a : Fields) : Datetime := { a with offset := some 0 }

/-- `isoformat() + "Z"`. -/
def Fields.stamp (a : Fields) : String := a.isoformat ++ "Z"

/-! ## 2. Fields are read back -/

theorem digitValue_digitChar {n : ℕ} (h : n < 10) : digitValue (Nat.digitChar n) = some n := by
  have hall : ∀ n < 10, digitValue (Nat.digitChar n) = some n := by decide
  exact hall n h

theorem number_append : ∀ (cs ds : List Char) (n : ℕ),
    number (cs ++ ds) n = (number cs n).bind (number ds)
  | [], _, _ => rfl
  | c :: cs, ds, n => by
    rw [List.cons_append, number, number]
    cases digitValue c with
    | none => rfl
    | some d => exact number_append cs ds _

/-- A field that was written with `w` digits. -/
theorem number_digits {w n : ℕ} (h : n < 10 ^ w) (m : ℕ) :
    number (digits w n) m = some (10 ^ w * m + n) := by
  induction w generalizing n with
  | zero =>
    obtain rfl : n = 0 := by omega
    rw [digits, number, Nat.pow_zero, Nat.one_mul, Nat.add_zero]
  | succ w ih =>
    have hdiv : n / 10 < 10 ^ w := by
      rw [Nat.pow_succ] at h
      omega
    rw [digits, number_append, ih hdiv, Option.bind_some, number,
      digitValue_digitChar (Nat.mod_lt n (by decide))]
    change some (10 * (10 ^ w * m + n / 10) + n % 10) = _
    refine congrArg some ?_
    have hassoc : 10 ^ (w + 1) * m = 10 * (10 ^ w * m) := by
      rw [Nat.pow_succ, Nat.mul_comm (10 ^ w), Nat.mul_assoc]
    omega

/-- **A field is read back**, and what follows it is left. -/
theorem readField_digits {w n : ℕ} (h : n < 10 ^ w) (rest : List Char) :
    readField w (digits w n ++ rest) = some (n, rest) := by
  have hlen : (digits w n).length = w := length_digits w n
  rw [readField, if_pos (by rw [List.length_append, hlen]; exact Nat.le_add_right _ _),
    List.take_left' hlen, List.drop_left' hlen, number_digits h, Nat.mul_zero, Nat.zero_add]
  rfl

theorem digitValue_isSome_of_mem {w n : ℕ} {c : Char} (h : c ∈ digits w n) :
    ∃ d < 10, c = Nat.digitChar d := by
  induction w generalizing n with
  | zero => exact absurd h (by simp [digits])
  | succ w ih =>
    rw [digits, List.mem_append, List.mem_singleton] at h
    rcases h with h | rfl
    · exact ih h
    · exact ⟨n % 10, Nat.mod_lt n (by decide), rfl⟩

/-- A fraction of six digits. -/
theorem readFraction_digits {n : ℕ} (h : n < 10 ^ 6) : readFraction (digits 6 n) = some (n, []) := by
  have hlen : (digits 6 n).length = 6 := length_digits 6 n
  have htake : (digits 6 n).take 6 = digits 6 n := List.take_of_length_le (le_of_eq hlen)
  have hdrop : (digits 6 n).drop 6 = [] := List.drop_of_length_le (le_of_eq hlen)
  rw [readFraction, htake, hdrop, number_digits h, hlen, Nat.mul_zero, Nat.zero_add]
  simp

/-- A field, a colon, and more of the time. -/
theorem readFields_colon {v n : ℕ} (hv : v < 10 ^ 2) {cs : List Char} (hcs : cs ≠ []) :
    readFields true (n + 1) (digits 2 v ++ ':' :: cs) =
      (readFields true n cs).map fun f => (v :: f.1, f.2.1, f.2.2) := by
  obtain ⟨c, cs, rfl⟩ := List.exists_cons_of_ne_nil hcs
  rw [readFields, readField_digits hv]
  simp

/-- A field and the fraction. -/
theorem readFields_point {v n : ℕ} {colon : Bool} (hv : v < 10 ^ 2) {cs : List Char} (hcs : cs ≠ []) :
    readFields colon (n + 1) (digits 2 v ++ '.' :: cs) =
      (readFraction cs).map fun f => ([v], f.1, f.2) := by
  obtain ⟨c, cs, rfl⟩ := List.exists_cons_of_ne_nil hcs
  rw [readFields, readField_digits hv]
  simp [Function.comp_def]

/-- The last field. -/
theorem readFields_last {v n : ℕ} {colon : Bool} (hv : v < 10 ^ 2) :
    readFields colon (n + 1) (digits 2 v) = some ([v], 0, []) := by
  have hlast := readField_digits hv []
  rw [List.append_nil] at hlast
  rw [readFields, hlast]
  rfl

/-! ## 3. Stamps are read back -/

/-- The date, the time of day and the fraction of a text. -/
def dateChars (a : Fields) : List Char :=
  digits 4 a.year ++ '-' :: (digits 2 a.month ++ '-' :: digits 2 a.day)

def clockChars (a : Fields) : List Char :=
  digits 2 a.hour ++ ':' :: (digits 2 a.minute ++ ':' :: (digits 2 a.second ++
    if a.microsecond = 0 then [] else '.' :: digits 6 a.microsecond))

variable {a : Fields}

theorem day_lt (ha : a.Valid) : a.day < 10 ^ 2 := by
  have hlong : ∀ leap, ∀ month < 13, daysInMonth leap month < 100 := by
    decide +kernel
  have hlt := hlong (leapYear (a.year - 1)) a.month (by have := ha.month; omega)
  have hday := ha.day
  omega

theorem stamp_chars (ha : a.Valid) :
    a.stamp.toList = dateChars a ++ 'T' :: (clockChars a ++ "+00:00Z".toList) := by
  have hyear : a.year < 10 ^ 4 := by have := ha.year; omega
  have hmonth : a.month < 10 ^ 2 := by have := ha.month; omega
  have hhour : a.hour < 10 ^ 2 := by have := ha.hour; omega
  have hminute : a.minute < 10 ^ 2 := by have := ha.minute; omega
  have hsecond : a.second < 10 ^ 2 := by have := ha.second; omega
  have hmicrosecond : a.microsecond < 10 ^ 6 := by have := ha.microsecond; omega
  unfold Fields.stamp Fields.isoformat
  simp only [String.toList_append]
  rw [pad_toList (by decide) hyear, pad_toList (by decide) hmonth, pad_toList (by decide) (day_lt ha),
    pad_toList (by decide) hhour, pad_toList (by decide) hminute, pad_toList (by decide) hsecond]
  unfold dateChars clockChars
  split
  · simp
  · rw [String.toList_append, pad_toList (by decide) hmicrosecond]
    simp

theorem readDate_dateChars (ha : a.Valid) (rest : List Char) :
    readDate (dateChars a ++ rest) = some ((a.year, a.month, a.day), rest) := by
  have hyear : a.year < 10 ^ 4 := by have := ha.year; omega
  have hmonth : a.month < 10 ^ 2 := by have := ha.month; omega
  -- what follows the first dash is a digit, and no week
  have hweek : ∀ cs, (digits 2 a.month ++ cs).head? ≠ some 'W' := by
    intro cs hhead
    obtain ⟨d, hd, hchar⟩ := digitValue_isSome_of_mem (List.mem_of_mem_head? (l := digits 2 a.month) hhead)
    have hall : ∀ d < 10, Nat.digitChar d ≠ 'W' := by decide
    exact hall d hd hchar.symm
  rw [readDate, dateChars, List.append_assoc, List.cons_append, List.append_assoc, List.cons_append,
    readField_digits hyear]
  simp only [Option.bind_eq_bind, Option.bind_some, List.head?_cons, decide_true, readDash, if_true,
    List.drop_one, List.tail_cons]
  rw [if_neg (hweek _), readField_digits hmonth]
  simp [readField_digits (day_lt ha)]

theorem readClock_clockChars (ha : a.Valid) :
    readClock (clockChars a) = some (⟨a.hour, a.minute, a.second, a.microsecond⟩, []) := by
  have hhour : a.hour < 10 ^ 2 := by have := ha.hour; omega
  have hminute : a.minute < 10 ^ 2 := by have := ha.minute; omega
  have hsecond : a.second < 10 ^ 2 := by have := ha.second; omega
  have hmicrosecond : a.microsecond < 10 ^ 6 := by have := ha.microsecond; omega
  have hne : ∀ {w n : ℕ} {cs : List Char}, 0 < w → digits w n ++ cs ≠ [] := by
    intro w n cs hw hnil
    have hlen : (digits w n).length = 0 := by rw [(List.append_eq_nil_iff.mp hnil).1]; rfl
    rw [length_digits] at hlen
    omega
  have hcolon : ((clockChars a).drop 2).head? = some ':' := rfl
  have hfields : readFields true 3 (clockChars a) =
      some ([a.hour, a.minute, a.second], a.microsecond, []) := by
    rw [clockChars, readFields_colon hhour (hne (by decide)), readFields_colon hminute (hne (by decide))]
    by_cases hzero : a.microsecond = 0
    · rw [if_pos hzero, List.append_nil, readFields_last hsecond, hzero]
      rfl
    · have hfraction : digits 6 a.microsecond ≠ [] := by
        rw [← List.append_nil (digits 6 a.microsecond)]
        exact hne (by decide)
      rw [if_neg hzero, readFields_point hsecond hfraction, readFraction_digits hmicrosecond]
      rfl
  rw [readClock, hcolon, decide_eq_true rfl, hfields]
  rfl

/-- No offset starts inside the time of day. -/
theorem startsZone_clockChars : ∀ c ∈ clockChars a, startsZone c = false := by
  have hdigit : ∀ {w n : ℕ} {c : Char}, c ∈ digits w n → startsZone c = false := by
    intro w n c hc
    obtain ⟨d, hd, rfl⟩ := digitValue_isSome_of_mem hc
    have hall : ∀ d < 10, startsZone (Nat.digitChar d) = false := by decide
    exact hall d hd
  intro c hc
  rw [clockChars] at hc
  simp only [List.mem_append, List.mem_cons] at hc
  rcases hc with hc | rfl | hc | rfl | hc | hc
  · exact hdigit hc
  · decide
  · exact hdigit hc
  · decide
  · exact hdigit hc
  · split at hc
    · exact absurd hc (by simp)
    · rcases List.mem_cons.mp hc with rfl | hc
      · decide
      · exact hdigit hc

/-- **What the gateway writes is read back.** -/
theorem parseUtc_stamp (ha : a.Valid) : parseUtc a.stamp = some a.utc := by
  have hstrip : stripZulu (dateChars a ++ 'T' :: (clockChars a ++ "+00:00Z".toList)) =
      dateChars a ++ 'T' :: (clockChars a ++ "+00:00".toList) := by
    have hshape : dateChars a ++ 'T' :: (clockChars a ++ "+00:00Z".toList) =
        (dateChars a ++ 'T' :: (clockChars a ++ "+00:00".toList)) ++ ['Z'] := by
      simp
    have hsuffix : "+00:00Z".toList <:+ dateChars a ++ 'T' :: (clockChars a ++ "+00:00Z".toList) :=
      ⟨dateChars a ++ 'T' :: clockChars a, by simp⟩
    rw [stripZulu, if_pos hsuffix, hshape, List.dropLast_concat]
  have htake : (clockChars a ++ "+00:00".toList).takeWhile (fun c => !startsZone c) = clockChars a := by
    rw [List.takeWhile_append_of_pos fun c hc => by simp [startsZone_clockChars c hc]]
    have hzone : ("+00:00".toList).takeWhile (fun c => !startsZone c) = [] := by decide
    rw [hzone, List.append_nil]
  have hdrop : (clockChars a ++ "+00:00".toList).dropWhile (fun c => !startsZone c) =
      "+00:00".toList := by
    rw [List.dropWhile_append_of_pos fun c hc => by simp [startsZone_clockChars c hc]]
    decide
  have hread : fromisoformat (dateChars a ++ 'T' :: (clockChars a ++ "+00:00".toList)) =
      construct (a.year, a.month, a.day) ⟨a.hour, a.minute, a.second, a.microsecond⟩ (some 0) := by
    rw [fromisoformat, readDate_dateChars ha]
    have hzone : readZone "+00:00".toList = some (some 0) := by decide
    simp only [Option.bind_eq_bind, Option.bind_some]
    rw [htake, hdrop, readClock_clockChars ha, hzone]
    rfl
  rw [parseUtc, stamp_chars ha, hstrip, hread, construct]
  dsimp only
  rw [if_pos ha]
  rfl

theorem moment_utc (a : Fields) : a.utc.moment = a.toTime := by
  rw [Datetime.moment, Fields.utc]
  simp

end Clock

end GovernorGateway
