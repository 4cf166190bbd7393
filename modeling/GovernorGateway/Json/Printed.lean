/-
# What `json.dumps` prints can be read back

Only of the values whose text is hashed: strings and arrays.  The code word of a character is one of
four kinds (itself, a short escape, four hexadecimal digits, a surrogate pair), and `readChar` tells
which; a string is its characters up to the closing quote, which none of them begins with; an array
its elements up to the closing bracket.
-/
import GovernorGateway.Json
import GovernorGateway.Text.PrefixCode

namespace GovernorGateway

namespace Json

open PrefixCode

/-! ## 1. Four hexadecimal digits -/

def hexDigitValue (c : Char) : ℕ := if c.toNat ≤ 57 then c.toNat - 48 else c.toNat - 87

def hexValue (cs : List Char) : ℕ := cs.foldl (fun acc c => 16 * acc + hexDigitValue c) 0

theorem hexDigitValue_digitChar {d : ℕ} (hd : d < 16) : hexDigitValue (Nat.digitChar d) = d := by
  have hall : ∀ d < 16, hexDigitValue (Nat.digitChar d) = d := by decide
  exact hall d hd

theorem hexValue_append_singleton (cs : List Char) (c : Char) :
    hexValue (cs ++ [c]) = 16 * hexValue cs + hexDigitValue c := by
  rw [hexValue, List.foldl_append]
  rfl

theorem hexValue_zeros (n : ℕ) (cs : List Char) :
    hexValue (List.replicate n (Char.ofNat 48) ++ cs) = hexValue cs := by
  induction n with
  | zero => rfl
  | succ n ih =>
    rw [List.replicate_succ, List.cons_append]
    exact ih

theorem hexValue_toDigits (n : ℕ) : hexValue (Nat.toDigits 16 n) = n := by
  induction n using Nat.strongRecOn with
  | ind n ih =>
    rw [Nat.toDigits_eq_if (by decide)]
    split
    · rename_i hsmall
      change 16 * 0 + hexDigitValue n.digitChar = n
      rw [hexDigitValue_digitChar hsmall]
      omega
    · rename_i hlarge
      rw [hexValue_append_singleton, ih (n / 16) (by omega),
        hexDigitValue_digitChar (Nat.mod_lt n (by decide))]
      omega

theorem hexValue_hex4 (n : ℕ) : hexValue (hex4 n).toList = n := by
  rw [hex4, String.toList_ofList, List.leftpad, hexValue_zeros, hexValue_toDigits]

theorem length_hex4 {n : ℕ} (hn : n < 65536) : (hex4 n).toList.length = 4 := by
  have hlen : (Nat.toDigits 16 n).length ≤ 4 := by
    rw [Nat.length_toDigits_le_iff (by decide) (by decide)]
    omega
  rw [hex4, String.toList_ofList, List.length_leftpad]
  omega

/-- Four digits, and what follows them. -/
theorem take_hex4 {n : ℕ} (hn : n < 65536) (s : List Char) :
    hexValue (((hex4 n).toList ++ s).take 4) = n ∧ ((hex4 n).toList ++ s).drop 4 = s := by
  rw [← length_hex4 hn, List.take_left, List.drop_left]
  exact ⟨hexValue_hex4 n, rfl⟩

/-! ## 2. Characters -/

/-- The character of a short escape. -/
def unescape (c : Char) : Char :=
  let n := c.toNat
  if n = 110 then Char.ofNat 10 else if n = 114 then Char.ofNat 13 else if n = 116 then Char.ofNat 9
  else if n = 102 then Char.ofNat 12 else if n = 98 then Char.ofNat 8 else c

/-- What is behind `\\u`: a unit, or two of them, the second behind a `\\u` of its own. -/
def readUnits (s : List Char) : Char × List Char :=
  let high := hexValue (s.take 4)
  if 55296 ≤ high ∧ high < 56320 then
    let low := hexValue (((s.drop 4).drop 2).take 4)
    (Char.ofNat (65536 + (high - 55296) * 1024 + (low - 56320)), ((s.drop 4).drop 2).drop 4)
  else (Char.ofNat high, s.drop 4)

/-- The first character of a printed string, and what follows it. -/
def readChar : List Char → Option (Char × List Char)
  | [] => none
  | c :: s =>
    if c.toNat ≠ 92 then some (c, s)
    else
      match s with
      | [] => none
      | d :: s => if d.toNat ≠ 117 then some (unescape d, s) else some (readUnits s)

theorem readChar_units (s : List Char) : readChar ("\\u".toList ++ s) = some (readUnits s) := rfl

/-- A unit that is no high surrogate. -/
theorem readUnits_unit {n : ℕ} (hn : n < 65536) (hsurrogate : n < 55296 ∨ 56320 ≤ n)
    (s : List Char) : readUnits ((hex4 n).toList ++ s) = (Char.ofNat n, s) := by
  obtain ⟨htake, hdrop⟩ := take_hex4 hn s
  rw [readUnits, htake, hdrop, if_neg (by omega)]

/-- A surrogate pair. -/
theorem readUnits_pair {n : ℕ} (hlow : 65536 ≤ n) (hhigh : n < 1114112) (s : List Char) :
    readUnits ((hex4 (55296 + (n - 65536) / 1024)).toList ++
      ("\\u".toList ++ ((hex4 (56320 + (n - 65536) % 1024)).toList ++ s))) = (Char.ofNat n, s) := by
  have hmod : (n - 65536) % 1024 < 1024 := Nat.mod_lt _ (by decide)
  obtain ⟨htake, hdrop⟩ := take_hex4 (n := 55296 + (n - 65536) / 1024) (by omega)
    ("\\u".toList ++ ((hex4 (56320 + (n - 65536) % 1024)).toList ++ s))
  obtain ⟨htake', hdrop'⟩ := take_hex4 (n := 56320 + (n - 65536) % 1024) (by omega) s
  have hmark : ∀ t : List Char, ("\\u".toList ++ t).drop 2 = t := fun _ => rfl
  rw [readUnits, htake, hdrop, hmark, htake', hdrop', if_pos (by omega)]
  have hvalue : 65536 + (55296 + (n - 65536) / 1024 - 55296) * 1024 +
      (56320 + (n - 65536) % 1024 - 56320) = n := by omega
  dsimp only
  rw [hvalue]

/-- **A character is read back**, whatever follows it. -/
theorem readChar_escape (c : Char) (s : List Char) :
    readChar ((escape c).toList ++ s) = some (c, s) := by
  have hvalid : c.toNat < 55296 ∨ 57343 < c.toNat ∧ c.toNat < 1114112 := c.valid
  have hchar : ∀ n, c.toNat = n → c = Char.ofNat n := fun n hn => by rw [← hn, Char.ofNat_toNat]
  unfold escape
  dsimp only
  split
  · rw [hchar 34 ‹_›]
    rfl
  split
  · rw [hchar 92 ‹_›]
    rfl
  split
  · rw [hchar 10 ‹_›]
    rfl
  split
  · rw [hchar 13 ‹_›]
    rfl
  split
  · rw [hchar 9 ‹_›]
    rfl
  split
  · rw [hchar 12 ‹_›]
    rfl
  split
  · rw [hchar 8 ‹_›]
    rfl
  split
  · -- the character itself
    have hbackslash : c.toNat ≠ 92 := ‹_›
    rw [Char.toString_eq_singleton, String.toList_singleton]
    change (if c.toNat ≠ 92 then some (c, s) else _) = _
    rw [if_pos hbackslash]
  split
  · rw [String.toList_append, List.append_assoc, readChar_units, readUnits_unit ‹_› (by omega),
      Char.ofNat_toNat]
  · rw [String.toList_append, String.toList_append, String.toList_append, List.append_assoc,
      List.append_assoc, List.append_assoc, readChar_units, readUnits_pair (by omega) (by omega),
      Char.ofNat_toNat]

/-! ## 3. Strings and arrays -/

/-- The characters of a string are a code. -/
theorem isPrefixCode_escape : IsPrefixCode fun c => (escape c).toList :=
  of_read readChar readChar_escape

/-- A printed character is not the closing quote. -/
theorem avoids_quote : Avoids (fun c => (escape c).toList) [Char.ofNat 34] := by
  intro c s t heq
  have hread : readChar ((escape c).toList ++ s) = some (Char.ofNat 34, t) := by
    rw [heq]
    rfl
  rw [readChar_escape, Option.some.injEq, Prod.mk.injEq] at hread
  obtain ⟨rfl, -⟩ := hread
  -- the quote itself is printed with a backslash
  exact absurd (List.cons.inj heq).1 (by decide)

theorem toList_dumpsStr (s : String) : (dumpsStr s).toList =
    [Char.ofNat 34] ++ (s.toList.flatMap (fun c => (escape c).toList) ++ [Char.ofNat 34]) := by
  rw [dumpsStr, String.toList_append, String.toList_append, String.toList_join, List.flatMap_map,
    List.append_assoc]
  rfl

/-- **A printed string can be told from what follows it.** -/
theorem isPrefixCode_dumpsStr : IsPrefixCode fun s => (dumpsStr s).toList := by
  intro s s' t t' heq
  simp only [toList_dumpsStr, List.append_assoc] at heq
  have hbody := (isPrefixCode_escape.terminated avoids_quote) s.toList s'.toList t t'
    (by simpa only [List.append_assoc] using List.append_cancel_left heq)
  exact ⟨String.toList_inj.mp hbody.1, hbody.2⟩

theorem dumpsAll_eq (sorted : Bool) : ∀ xs : List Json, dumpsAll sorted xs = xs.map (dumpsWith sorted)
  | [] => rfl
  | x :: xs => by rw [dumpsAll, dumpsAll_eq sorted xs, List.map_cons]

theorem toList_dumps_arr (xs : List Json) : (dumps (.arr xs)).toList =
    [Char.ofNat 91] ++ (", ".toList.intercalate (xs.map fun x => (dumps x).toList) ++
      [Char.ofNat 93]) := by
  rw [dumps, dumpsWith, items, String.toList_append, String.toList_append, String.toList_intercalate,
    dumpsAll_eq, List.map_map, List.append_assoc]
  rfl

/-- **An array can be told from what follows it**, if its elements can and none begins with a
closing bracket. -/
theorem isPrefixCode_arr {α : Type} {f : α → Json} (hf : IsPrefixCode fun a => (dumps (f a)).toList)
    (hmark : Avoids (fun a => (dumps (f a)).toList) [Char.ofNat 93]) :
    IsPrefixCode fun xs : List α => (dumps (.arr (xs.map f))).toList := by
  intro xs ys s t heq
  have hsep : ∀ s t : List Char, ", ".toList ++ s ≠ [Char.ofNat 93] ++ t := by
    intro s t hst
    exact absurd (List.cons.inj hst).1 (by decide)
  simp only [toList_dumps_arr, List.map_map, List.append_assoc] at heq
  exact hf.separated hmark hsep xs ys s t
    (by simpa only [List.append_assoc, Function.comp_def] using List.append_cancel_left heq)

theorem isPrefixCode_str : IsPrefixCode fun s => (dumps (.str s)).toList := by
  simp only [dumps, dumpsWith]
  exact isPrefixCode_dumpsStr

/-- A string does not begin with a closing bracket, and an array does not either. -/
theorem avoids_str : Avoids (fun s => (dumps (.str s)).toList) [Char.ofNat 93] := by
  refine avoids_of_head (x := Char.ofNat 34) (by decide) fun s => ?_
  rw [dumps, dumpsWith, toList_dumpsStr]
  rfl

theorem avoids_arr {α : Type} (f : α → List Json) :
    Avoids (fun a => (dumps (.arr (f a))).toList) [Char.ofNat 93] := by
  refine avoids_of_head (x := Char.ofNat 91) (by decide) fun a => ?_
  rw [toList_dumps_arr]
  rfl

end Json

end GovernorGateway
