/-
# Bytes: numbers in base 256, and hexadecimal text

`toBytes w n` is `n.to_bytes(w, "big")` and `fromBytes` is `int.from_bytes(..., "big")`; each undoes
the other as long as the number fits (`fromBytes_toBytes`).  `toHex` is `bytes.hex()` and `fromHex`
is `bytes.fromhex`, which skips white space between two bytes; what `toHex` writes it reads back
(`fromHex_toHex`).
-/
import Mathlib.Data.List.Induction
import Mathlib.Data.Nat.Notation
import Mathlib.Tactic.Ring

namespace Bytes

/-! ## 1. Numbers -/

/-- The last `w` digits of a number in base 256, the highest first. -/
def toBytes : ℕ → ℕ → List UInt8
  | 0, _ => []
  | w + 1, n => toBytes w (n / 256) ++ [UInt8.ofNat (n % 256)]

/-- The number with these digits. -/
def fromBytes (bs : List UInt8) : ℕ := bs.foldl (fun n b => n * 256 + b.toNat) 0

@[simp] theorem length_toBytes (w n : ℕ) : (toBytes w n).length = w := by
  induction w generalizing n with
  | zero => rfl
  | succ w ih => rw [toBytes, List.length_append, ih, List.length_singleton]

theorem fromBytes_append_singleton (bs : List UInt8) (b : UInt8) :
    fromBytes (bs ++ [b]) = fromBytes bs * 256 + b.toNat := by
  rw [fromBytes, List.foldl_append]
  rfl

/-- **A number that fits is read back.** -/
theorem fromBytes_toBytes {w n : ℕ} (h : n < 256 ^ w) : fromBytes (toBytes w n) = n := by
  induction w generalizing n with
  | zero =>
    obtain rfl : n = 0 := by omega
    rfl
  | succ w ih =>
    have hdiv : n / 256 < 256 ^ w := by
      rw [Nat.pow_succ] at h
      exact Nat.div_lt_of_lt_mul (by omega)
    have hbyte : (UInt8.ofNat (n % 256)).toNat = n % 256 :=
      UInt8.toNat_ofNat_of_lt (Nat.mod_lt n (by decide))
    rw [toBytes, fromBytes_append_singleton, ih hdiv, hbyte]
    omega

/-- Digits are the ones of their number. -/
theorem toBytes_fromBytes (bs : List UInt8) : toBytes bs.length (fromBytes bs) = bs := by
  induction bs using List.reverseRecOn with
  | nil => rfl
  | append_singleton bs b ih =>
    have hlt : b.toNat < 256 := b.toNat_lt
    rw [List.length_append, List.length_singleton, toBytes, fromBytes_append_singleton]
    have hdiv : (fromBytes bs * 256 + b.toNat) / 256 = fromBytes bs := by omega
    have hmod : (fromBytes bs * 256 + b.toNat) % 256 = b.toNat := by omega
    rw [hdiv, hmod, ih, UInt8.ofNat_toNat]

theorem fromBytes_lt (bs : List UInt8) : fromBytes bs < 256 ^ bs.length := by
  induction bs using List.reverseRecOn with
  | nil => decide
  | append_singleton bs b ih =>
    have hlt : b.toNat < 256 := b.toNat_lt
    rw [fromBytes_append_singleton, List.length_append, List.length_singleton, Nat.pow_succ]
    omega

/-- The first digit weighs most. -/
theorem fromBytes_cons (b : UInt8) (bs : List UInt8) :
    fromBytes (b :: bs) = b.toNat * 256 ^ bs.length + fromBytes bs := by
  induction bs using List.reverseRecOn with
  | nil =>
    change 0 * 256 + b.toNat = b.toNat * 1 + 0
    omega
  | append_singleton bs c ih =>
    rw [← List.cons_append, fromBytes_append_singleton, ih, fromBytes_append_singleton,
      List.length_append, List.length_singleton, Nat.pow_succ]
    ring

/-! ## 2. Hexadecimal text -/

/-- `Py_ISSPACE`. -/
def isSpace (c : Char) : Bool :=
  c.toNat = 32 || (9 ≤ c.toNat && c.toNat ≤ 13)

/-- The value of a hexadecimal digit, in either case. -/
def hexValue (c : Char) : Option ℕ :=
  if 48 ≤ c.toNat ∧ c.toNat ≤ 57 then some (c.toNat - 48)
  else if 97 ≤ c.toNat ∧ c.toNat ≤ 102 then some (c.toNat - 87)
  else if 65 ≤ c.toNat ∧ c.toNat ≤ 70 then some (c.toNat - 55)
  else none

/-- `bytes.fromhex` on characters. -/
def fromHexChars : List Char → Option (List UInt8)
  | [] => some []
  | [c] => if isSpace c then some [] else none
  | c :: d :: cs =>
    if isSpace c then fromHexChars (d :: cs)
    else do
      let high ← hexValue c
      let low ← hexValue d
      let rest ← fromHexChars cs
      pure (UInt8.ofNat (16 * high + low) :: rest)

/-- `bytes.fromhex`; `none` is `ValueError`. -/
def fromHex (text : String) : Option (List UInt8) := fromHexChars text.toList

/-- The two digits of a byte. -/
def hexPair (b : UInt8) : List Char :=
  [Nat.digitChar (b.toNat / 16), Nat.digitChar (b.toNat % 16)]

/-- `bytes.hex()`. -/
def toHex (bs : List UInt8) : String := String.ofList (bs.flatMap hexPair)

theorem hexValue_digitChar {n : ℕ} (h : n < 16) :
    isSpace (Nat.digitChar n) = false ∧ hexValue (Nat.digitChar n) = some n := by
  have hall : ∀ n < 16, isSpace (Nat.digitChar n) = false ∧ hexValue (Nat.digitChar n) = some n := by
    decide
  exact hall n h

/-- **What is written is read back.** -/
theorem fromHex_toHex (bs : List UInt8) : fromHex (toHex bs) = some bs := by
  rw [fromHex, toHex, String.toList_ofList]
  induction bs with
  | nil => rfl
  | cons b bs ih =>
    have hlt : b.toNat < 256 := b.toNat_lt
    obtain ⟨hspace, hhigh⟩ := hexValue_digitChar (show b.toNat / 16 < 16 by omega)
    obtain ⟨-, hlow⟩ := hexValue_digitChar (show b.toNat % 16 < 16 by omega)
    have hbyte : UInt8.ofNat (16 * (b.toNat / 16) + b.toNat % 16) = b := by
      rw [Nat.div_add_mod, UInt8.ofNat_toNat]
    rw [List.flatMap_cons, hexPair, List.cons_append, List.cons_append, List.nil_append, fromHexChars,
      hspace, hhigh, hlow, ih]
    exact congrArg (fun b => some (b :: bs)) hbyte

end Bytes
