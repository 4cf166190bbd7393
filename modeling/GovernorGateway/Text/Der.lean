/-
# DER

The distinguished encoding of a nonnegative INTEGER and of a SEQUENCE.  The content of an integer is
the SHORTEST two's complement form, so its width grows with the number (`integerWidth_le_iff`); a
length below 128 is one byte, a longer one is preceded by the number of its bytes.
-/
import GovernorGateway.Text.Bytes
import Mathlib.Data.Nat.Size

namespace Der

open Bytes

/-- The length octets of a value. -/
def lengthOctets (n : ℕ) : List UInt8 :=
  if n < 128 then [UInt8.ofNat n]
  else UInt8.ofNat (128 + (Nat.size n + 7) / 8) :: toBytes ((Nat.size n + 7) / 8) n

/-- Tag, length and content. -/
def tlv (tag : UInt8) (content : List UInt8) : List UInt8 :=
  tag :: (lengthOctets content.length ++ content)

/-- The number of bytes of the two's complement form: the highest bit stays clear. -/
def integerWidth (n : ℕ) : ℕ := Nat.size n / 8 + 1

def integer (n : ℕ) : List UInt8 := tlv 2 (toBytes (integerWidth n) n)

def sequence (items : List (List UInt8)) : List UInt8 := tlv 48 items.flatten

/-- **How wide an integer is.**  It fits in `w + 1` bytes when it is below half of what these can
hold. -/
theorem integerWidth_le_iff {n w : ℕ} : integerWidth n ≤ w + 1 ↔ n < 128 * 256 ^ w := by
  have hpow : 128 * 256 ^ w = 2 ^ (8 * w + 7) := by
    rw [Nat.pow_add, Nat.pow_mul]
    ring
  rw [hpow, ← Nat.size_le, integerWidth]
  omega

theorem integerWidth_le {n w : ℕ} (h : n < 256 ^ w) : integerWidth n ≤ w + 1 := by
  have hle : 256 ^ w ≤ 128 * 256 ^ w := Nat.le_mul_of_pos_left _ (by decide)
  exact integerWidth_le_iff.mpr (h.trans_le hle)

/-- What is at least the half of `w + 1` bytes needs one more. -/
theorem lt_integerWidth {n w : ℕ} (h : 128 * 256 ^ w ≤ n) : w + 1 < integerWidth n := by
  by_contra hle
  exact absurd (integerWidth_le_iff.mp (Nat.le_of_not_lt hle)) (Nat.not_lt.mpr h)

theorem lengthOctets_of_lt {n : ℕ} (h : n < 128) : lengthOctets n = [UInt8.ofNat n] := if_pos h

theorem tlv_of_lt {tag : UInt8} {content : List UInt8} (h : content.length < 128) :
    tlv tag content = tag :: UInt8.ofNat content.length :: content := by
  rw [tlv, lengthOctets_of_lt h]
  rfl

theorem integer_of_lt {n : ℕ} (h : integerWidth n < 128) :
    integer n = 2 :: UInt8.ofNat (integerWidth n) :: toBytes (integerWidth n) n := by
  rw [integer, tlv_of_lt (by rw [length_toBytes]; exact h), length_toBytes]

/-- Two short integers in a sequence. -/
theorem sequence_integers {m n : ℕ} (h : integerWidth m + integerWidth n < 124) :
    sequence [integer m, integer n] =
      48 :: UInt8.ofNat (integerWidth m + integerWidth n + 4) :: 2 :: UInt8.ofNat (integerWidth m) ::
        (toBytes (integerWidth m) m ++
          2 :: UInt8.ofNat (integerWidth n) :: toBytes (integerWidth n) n) := by
  have hm := integer_of_lt (n := m) (by omega)
  have hn := integer_of_lt (n := n) (by omega)
  have hitems : [integer m, integer n].flatten = 2 :: UInt8.ofNat (integerWidth m) ::
      (toBytes (integerWidth m) m ++
        2 :: UInt8.ofNat (integerWidth n) :: toBytes (integerWidth n) n) := by
    rw [hm, hn]
    simp
  have hlen : [integer m, integer n].flatten.length = integerWidth m + integerWidth n + 4 := by
    rw [hitems]
    simp only [List.length_cons, List.length_append, length_toBytes]
    omega
  rw [sequence, tlv_of_lt (by rw [hlen]; omega), hlen, hitems]

theorem length_sequence_integers {m n : ℕ} (h : integerWidth m + integerWidth n < 124) :
    (sequence [integer m, integer n]).length = integerWidth m + integerWidth n + 6 := by
  rw [sequence_integers h]
  simp only [List.length_cons, List.length_append, length_toBytes]
  omega

end Der
