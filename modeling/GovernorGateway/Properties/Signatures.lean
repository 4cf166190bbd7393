/-
# Two encodings of one signature

`_raw_signature_to_der` (`src/governor_service.py`) takes a signature as 64 bytes `r || s` or as
DER, and tells them apart BY THE LENGTH FIRST.  Most DER encodings have 70 to 72 bytes, but the
width of an integer depends on the number: when the two integers have 58 bytes together, the DER
encoding has 64 and is read as `r || s`.

* The raw form is always read right (`rawSignatureToDer_raw`).
* The DER form is read right EXACTLY when it does not have 64 bytes (`normalisation_iff`): what is
  made of 64 bytes of DER is never what they say, since the 32 bytes after the header would have to
  repeat it.
-/
import GovernorGateway.Settings
import GovernorGateway.Text.Der

namespace GovernorGateway

open Bytes Der

/-- `encode_dss_signature`. -/
def encodeDssSignature (r s : ℕ) : List UInt8 := Der.sequence [Der.integer r, Der.integer s]

/-- `_raw_signature_to_der`. -/
def rawSignatureToDer (signatureHex : String) : Except Exc (List UInt8) :=
  match fromHex signatureHex with
  | none => .error (.other "non-hexadecimal number found in fromhex() arg")
  | some raw =>
    if raw.length = 64 then
      .ok (encodeDssSignature (fromBytes (raw.take 32)) (fromBytes (raw.drop 32)))
    else if raw.head? = some 48 then .ok raw
    else .error (.other ("invalid signature length: " ++ toString raw.length))

/-! ## 1. The two forms -/

/-- `r || s`, 32 bytes each. -/
def rawSignature (r s : ℕ) : List UInt8 := toBytes 32 r ++ toBytes 32 s

/-- **The raw form** is turned into DER. -/
theorem rawSignatureToDer_raw {r s : ℕ} (hr : r < 256 ^ 32) (hs : s < 256 ^ 32) :
    rawSignatureToDer (toHex (rawSignature r s)) = .ok (encodeDssSignature r s) := by
  have hlen : (toBytes 32 r ++ toBytes 32 s).length = 64 := by
    rw [List.length_append, length_toBytes, length_toBytes]
  have htake : (toBytes 32 r ++ toBytes 32 s).take 32 = toBytes 32 r :=
    List.take_left' (length_toBytes 32 r)
  have hdrop : (toBytes 32 r ++ toBytes 32 s).drop 32 = toBytes 32 s :=
    List.drop_left' (length_toBytes 32 r)
  rw [rawSignatureToDer, fromHex_toHex]
  dsimp only
  rw [rawSignature, if_pos hlen, htake, hdrop, fromBytes_toBytes hr, fromBytes_toBytes hs]

variable {r s : ℕ}

theorem widths_lt (hr : r < 256 ^ 32) (hs : s < 256 ^ 32) :
    integerWidth r + integerWidth s < 124 := by
  have hwr := integerWidth_le hr
  have hws := integerWidth_le hs
  omega

/-- The DER encoding starts with the tag of a sequence. -/
theorem head?_encodeDssSignature : (encodeDssSignature r s).head? = some 48 := rfl

/-- Bytes that start with `0x30` and are read as one number of 32 bytes make it as wide as it can be
without a leading zero. -/
theorem width_of_head {bs : List UInt8} (hlen : bs.length = 32) (hhead : bs[0]? = some 48) :
    integerWidth (fromBytes bs) = 32 := by
  cases bs with
  | nil => exact absurd hlen (by decide)
  | cons b bs =>
    obtain rfl : b = 48 := Option.some.inj hhead
    have hrest : bs.length = 31 := Nat.succ.inj hlen
    have hlt := fromBytes_lt bs
    rw [fromBytes_cons, hrest]
    rw [hrest] at hlt
    have hbyte : (48 : UInt8).toNat = 48 := rfl
    rw [hbyte]
    refine le_antisymm (integerWidth_le_iff.mpr (by omega)) ?_
    refine lt_integerWidth (w := 30) ?_
    omega

/-- **64 bytes of DER are misread**: what is made of them is never the same bytes. -/
theorem encode_halves_ne (hlen : (encodeDssSignature r s).length = 64) :
    encodeDssSignature (fromBytes ((encodeDssSignature r s).take 32))
      (fromBytes ((encodeDssSignature r s).drop 32)) ≠ encodeDssSignature r s := by
  have hhead : (encodeDssSignature r s)[0]? = some 48 := rfl
  generalize encodeDssSignature r s = der at hlen hhead
  intro heq
  have hfirst : (der.take 32).length = 32 := by
    rw [List.length_take, hlen]
    rfl
  have hsecond : (der.drop 32).length = 32 := by
    rw [List.length_drop, hlen]
  have hwidth : integerWidth (fromBytes (der.take 32)) = 32 :=
    width_of_head hfirst (by rw [List.getElem?_take_of_lt (by decide)]; exact hhead)
  have hlow := fromBytes_lt (der.take 32)
  have hhigh := fromBytes_lt (der.drop 32)
  rw [hfirst] at hlow
  rw [hsecond] at hhigh
  have hsmall := widths_lt hlow hhigh
  -- the second number would have 26 bytes
  have hsum := length_sequence_integers hsmall
  change (encodeDssSignature _ _).length = _ at hsum
  rw [heq, hlen, hwidth] at hsum
  -- the bytes after the header are those before them, so the header is repeated
  have hdigits : toBytes 32 (fromBytes (der.take 32)) = der.take 32 := by
    have h := toBytes_fromBytes (der.take 32)
    rwa [hfirst] at h
  have hshape := sequence_integers hsmall
  change encodeDssSignature _ _ = _ at hshape
  rw [heq, hwidth, hdigits] at hshape
  have hshift : ∀ i, i < 32 → der[i + 4]? = der[i]? := by
    intro i hi
    have hafter : der[i + 4]? = (der.take 32)[i]? := by
      conv_lhs => rw [hshape]
      rw [List.getElem?_cons_succ, List.getElem?_cons_succ, List.getElem?_cons_succ,
        List.getElem?_cons_succ, List.getElem?_append_left (by rw [hfirst]; exact hi)]
    rw [hafter, List.getElem?_take_of_lt hi]
  have hrepeat : der[32]? = some 48 := by
    rw [hshift 28 (by decide), hshift 24 (by decide), hshift 20 (by decide), hshift 16 (by decide),
      hshift 12 (by decide), hshift 8 (by decide), hshift 4 (by decide), hshift 0 (by decide)]
    exact hhead
  -- so the second number has 32
  have hwidth' : integerWidth (fromBytes (der.drop 32)) = 32 :=
    width_of_head hsecond (by rw [List.getElem?_drop]; exact hrepeat)
  omega

/-- The DER form is kept exactly when it does not have 64 bytes. -/
theorem rawSignatureToDer_der_iff :
    rawSignatureToDer (toHex (encodeDssSignature r s)) = .ok (encodeDssSignature r s) ↔
      (encodeDssSignature r s).length ≠ 64 := by
  rw [rawSignatureToDer, fromHex_toHex]
  dsimp only
  by_cases hlen : (encodeDssSignature r s).length = 64
  · rw [if_pos hlen]
    constructor
    · intro heq
      exact absurd (Except.ok.inj heq) (encode_halves_ne hlen)
    · exact fun hne => absurd hlen hne
  · rw [if_neg hlen, if_pos head?_encodeDssSignature]
    exact ⟨fun _ => hlen, fun _ => rfl⟩

/-! ## 2. Which signatures -/

/-- **Where normalisation does not depend on the encoding.**  Both forms of a signature give its DER
encoding exactly when the widths of its two integers, in whole bytes of their bit lengths, are not
56 together. -/
theorem normalisation_iff (r s : ℕ) (hr : 0 < r ∧ r < 2 ^ 256) (hs : 0 < s ∧ s < 2 ^ 256) :
    (rawSignatureToDer (toHex (rawSignature r s)) = .ok (encodeDssSignature r s) ∧
      rawSignatureToDer (toHex (encodeDssSignature r s)) = .ok (encodeDssSignature r s)) ↔
      Nat.size r / 8 + Nat.size s / 8 ≠ 56 := by
  have hr' : r < 256 ^ 32 := hr.2.trans_eq (by decide)
  have hs' : s < 256 ^ 32 := hs.2.trans_eq (by decide)
  have hlen : (encodeDssSignature r s).length = Nat.size r / 8 + 1 + (Nat.size s / 8 + 1) + 6 :=
    length_sequence_integers (widths_lt hr' hs')
  rw [rawSignatureToDer_der_iff, hlen]
  constructor
  · rintro ⟨-, hne⟩
    omega
  · intro hne
    exact ⟨rawSignatureToDer_raw hr' hs', by omega⟩

/-- One and one: both forms give the eight bytes of the DER encoding. -/
theorem normalisation_one :
    rawSignatureToDer (toHex (rawSignature 1 1)) = .ok [48, 6, 2, 1, 1, 2, 1, 1] ∧
      rawSignatureToDer (toHex (encodeDssSignature 1 1)) = .ok [48, 6, 2, 1, 1, 2, 1, 1] := by
  have hsize : Nat.size 1 / 8 + Nat.size 1 / 8 ≠ 56 := by decide
  exact (normalisation_iff 1 1 (by decide) (by decide)).mpr hsize

/-- An `r` of 29 bytes and an `s` of 29 bytes: the DER encoding is 64 bytes long and is not read as
DER. -/
theorem normalisation_misreads : ¬ ∀ r s : ℕ, (0 < r ∧ r < 2 ^ 256) → (0 < s ∧ s < 2 ^ 256) →
    rawSignatureToDer (toHex (rawSignature r s)) = .ok (encodeDssSignature r s) ∧
      rawSignatureToDer (toHex (encodeDssSignature r s)) = .ok (encodeDssSignature r s) := by
  intro h
  have hlt : (2 : ℕ) ^ 230 < 2 ^ 256 := by decide
  obtain ⟨-, hder⟩ := h (2 ^ 230) (2 ^ 230) ⟨by decide, hlt⟩ ⟨by decide, hlt⟩
  have hlen : (encodeDssSignature (2 ^ 230) (2 ^ 230)).length = 64 := by
    decide +kernel
  exact rawSignatureToDer_der_iff.mp hder hlen

end GovernorGateway
