/-
# The clock and its text form

The gateway stores and compares times as TEXT: `datetime.now(timezone.utc).isoformat() + "Z"`.
A time of the model is the number of microseconds since 0001-01-01T00:00:00 UTC; `isoformat`
is CPython's, including the fraction it leaves out when the microsecond is zero, and the
calendar is the proleptic Gregorian one of `datetime` (`ord2ymd`).
-/
import Mathlib.Data.Nat.Notation

namespace GovernorGateway

/-- Microseconds since 0001-01-01T00:00:00 UTC. -/
abbrev Time := ℕ

namespace Clock

/-- Days before each month of a year that is not a leap year (`_DAYS_BEFORE_MONTH`). -/
def daysBeforeMonth : List ℕ := [0, 0, 31, 59, 90, 120, 151, 181, 212, 243, 273, 304, 334]

/-- The month and the day in it, from the day `n` of a year counted from zero. -/
def monthDay (leap : Bool) (n : ℕ) : ℕ × ℕ :=
  let month := (n + 50) / 32
  let before (m : ℕ) := daysBeforeMonth.getD m 0 + (if 2 < m ∧ leap then 1 else 0)
  if before month > n then (month - 1, n - before (month - 1) + 1)
  else (month, n - before month + 1)

/-- Year, month and day of the day number `ord`, counted from 0001-01-01 as one
(`_ord2ymd`). -/
def ord2ymd (ord : ℕ) : ℕ × ℕ × ℕ :=
  let n := ord - 1
  let n400 := n / 146097
  let n := n % 146097
  let n100 := n / 36524
  let n := n % 36524
  let n4 := n / 1461
  let n := n % 1461
  let n1 := n / 365
  let n := n % 365
  let year := n400 * 400 + 1 + n100 * 100 + n4 * 4 + n1
  if n1 = 4 ∨ n100 = 4 then (year - 1, 12, 31)
  else
    let leap := n1 = 3 && (n4 ≠ 24 || n100 = 3)
    let md := monthDay leap n
    (year, md.1, md.2)

/-- A number with leading zeros. -/
def pad (width n : ℕ) : String :=
  String.ofList ((Nat.toDigits 10 n).leftpad width (Char.ofNat 48))

/-- `datetime.isoformat()` of a UTC-aware time. -/
def isoformat (t : Time) : String :=
  let us := t % 1000000
  let secs := t / 1000000
  let ymd := ord2ymd (secs / 86400 + 1)
  let s := secs % 86400
  pad 4 ymd.1 ++ "-" ++ pad 2 ymd.2.1 ++ "-" ++ pad 2 ymd.2.2 ++ "T" ++
    pad 2 (s / 3600) ++ ":" ++ pad 2 (s / 60 % 60) ++ ":" ++ pad 2 (s % 60) ++
    (if us = 0 then "" else "." ++ pad 6 us) ++ "+00:00"

/-- The form the gateway stores: `isoformat() + "Z"`. -/
def stamp (t : Time) : String := isoformat t ++ "Z"

/-- `timedelta(seconds=n)`. -/
def seconds (n : ℕ) : ℕ := n * 1000000

/-- `int(t.timestamp())`: whole seconds since 1970-01-01. -/
def epoch (t : Time) : Int := (t / 1000000 : ℕ) - (62135596800 : Int)

example : stamp 63897156000000000 = "2025-10-27T10:00:00+00:00Z" := by decide

end Clock

end GovernorGateway
