/-
# Which documents `json.dumps(..., sort_keys=True)` does not tell apart

Content hashes are taken over this text.  Two documents print the same text exactly when they are
the same once the keys of every object are sorted (`dumps_eq_iff`): then every key answers alike in
both (`find?_of_canon`), however deep.

`Readable` is what `json.loads` promises of a document without lone surrogates: no object has a key
twice, and a float is the number its text reads as.  Its text is a word that no other scalar is
printed as; in front of a comma or a closing bracket each word can be told, and `legible_dumps`
follows the brackets.
-/
import GovernorGateway.Json.Printed
import GovernorGateway.Text.Delimited

namespace GovernorGateway

namespace Json

open PrefixCode

/-! ## 1. The sorted document -/

/-- An induction over the documents that hold no others, the arrays and the objects. -/
@[elab_as_elim]
theorem induct {motive : Json → Prop} (scalar : ∀ v : Json, (∀ xs, v ≠ arr xs) → (∀ fs, v ≠ obj fs) →
    motive v) (arr : ∀ xs, (∀ x ∈ xs, motive x) → motive (arr xs))
    (obj : ∀ fs : List (String × Json), (∀ f ∈ fs, motive f.2) → motive (obj fs)) :
    ∀ v : Json, motive v
  | .arr xs => arr xs fun x _ => induct scalar arr obj x
  | .obj fs => obj fs fun f _ => induct scalar arr obj f.2
  | .null => scalar .null (by simp) (by simp)
  | .bool b => scalar (.bool b) (by simp) (by simp)
  | .int n => scalar (.int n) (by simp) (by simp)
  | .float v r => scalar (.float v r) (by simp) (by simp)
  | .str s => scalar (.str s) (by simp) (by simp)
termination_by v => sizeOf v
decreasing_by
  · have hlt := List.sizeOf_lt_of_mem ‹x ∈ xs›
    simp only [Json.arr.sizeOf_spec]
    omega
  · have hlt := List.sizeOf_lt_of_mem ‹f ∈ fs›
    have hsnd : sizeOf f.2 < sizeOf f := by
      cases f
      simp
    simp only [Json.obj.sizeOf_spec]
    omega

mutual
/-- The document with the keys of every object sorted, as `sort_keys` prints them. -/
def canon : Json → Json
  | arr xs => arr (canonAll xs)
  | obj fs => obj ((canonFields fs).insertionSort fun a b => a.1 ≤ b.1)
  | v => v

def canonAll : List Json → List Json
  | [] => []
  | x :: xs => x.canon :: canonAll xs

def canonFields : List (String × Json) → List (String × Json)
  | [] => []
  | (k, v) :: fs => (k, v.canon) :: canonFields fs
end

theorem canonAll_eq : ∀ xs : List Json, canonAll xs = xs.map canon
  | [] => rfl
  | x :: xs => by rw [canonAll, canonAll_eq xs, List.map_cons]

theorem canonFields_eq : ∀ fs : List (String × Json),
    canonFields fs = fs.map fun f => (f.1, f.2.canon)
  | [] => rfl
  | (k, v) :: fs => by rw [canonFields, canonFields_eq fs, List.map_cons]

theorem dumpsFields_eq (sorted : Bool) : ∀ fs : List (String × Json),
    dumpsFields sorted fs = fs.map fun f => (f.1, dumpsWith sorted f.2)
  | [] => rfl
  | (k, v) :: fs => by rw [dumpsFields, dumpsFields_eq sorted fs, List.map_cons]

theorem mem_canon_obj {fs : List (String × Json)} {f : String × Json} :
    f ∈ (canonFields fs).insertionSort (fun a b => a.1 ≤ b.1) ↔
      ∃ f' ∈ fs, f = (f'.1, f'.2.canon) := by
  rw [List.mem_insertionSort, canonFields_eq, List.mem_map]
  exact ⟨fun ⟨f', hf', h⟩ => ⟨f', hf', h.symm⟩, fun ⟨f', hf', h⟩ => ⟨f', hf', h.symm⟩⟩

/-- **Sorted printing is printing of the sorted document.** -/
theorem dumps_eq (v : Json) : v.dumps = v.canon.dumpsWith false := by
  induction v using induct with
  | scalar v harr hobj =>
    cases v with
    | arr xs => exact absurd rfl (harr xs)
    | obj fs => exact absurd rfl (hobj fs)
    | bool b => cases b <;> rfl
    | _ => rfl
  | arr xs ih =>
    have hall : dumpsAll true xs = dumpsAll false (canonAll xs) := by
      rw [dumpsAll_eq, dumpsAll_eq, canonAll_eq, List.map_map]
      exact List.map_congr_left fun x hx => ih x hx
    rw [dumps, dumpsWith, canon, dumpsWith, hall]
  | obj fs ih =>
    have hmap : (fs.map fun f => (f.1, f.2.canon)).map (fun f => (f.1, dumpsWith false f.2)) =
        fs.map fun f => (f.1, dumpsWith true f.2) := by
      rw [List.map_map]
      exact List.map_congr_left fun f hf => Prod.ext rfl (ih f hf).symm
    have hfields : (dumpsFields true fs).insertionSort (fun a b => a.1 ≤ b.1) =
        dumpsFields false ((canonFields fs).insertionSort fun a b => a.1 ≤ b.1) := by
      rw [dumpsFields_eq, dumpsFields_eq, canonFields_eq,
        List.map_insertionSort (fun a b : String × Json => a.1 ≤ b.1)
          (fun a b : String × String => a.1 ≤ b.1) _ _ (fun _ _ _ _ => Iff.rfl), hmap]
    rw [dumps, dumpsWith, canon, dumpsWith]
    simp only [if_true, Bool.false_eq_true, if_false, hfields]

/-! ## 2. Documents that were read -/

/-- The texts of floats: `float.__repr__` prints a point or an exponent, and `json.dumps` has names
for what is not finite. -/
def FloatText (r : String) : Prop :=
  ((∀ c ∈ r.toList, c.isDigit = true ∨ c.toNat ∈ [43, 45, 46, 101]) ∧
      ∃ c ∈ r.toList, c.toNat = 46 ∨ c.toNat = 101) ∨
    r ∈ ["NaN", "Infinity", "-Infinity"]

/-- What `json.loads` makes: no key twice in an object, and each float the value of its text.

An escape such as `\ud800`, or its bytes in the body of a request, makes a LONE SURROGATE, which is
no character here: texts that hold one are not covered. -/
inductive Readable (readFloat : String → ℚ) : Json → Prop
  | null : Readable readFloat null
  | bool (b : Bool) : Readable readFloat (bool b)
  | int (n : ℤ) : Readable readFloat (int n)
  | float {r : String} (hr : FloatText r) : Readable readFloat (float (readFloat r) r)
  | str (s : String) : Readable readFloat (str s)
  | arr {xs : List Json} (h : ∀ x ∈ xs, Readable readFloat x) : Readable readFloat (arr xs)
  | obj {fs : List (String × Json)} (hkeys : (fs.map Prod.fst).Nodup)
      (h : ∀ f ∈ fs, Readable readFloat f.2) : Readable readFloat (obj fs)

variable {readFloat : String → ℚ}

theorem Readable.of_arr {xs : List Json} (h : (Json.arr xs).Readable readFloat) :
    ∀ x ∈ xs, x.Readable readFloat := by
  cases h with
  | arr h => exact h

theorem Readable.of_obj {fs : List (String × Json)} (h : (Json.obj fs).Readable readFloat) :
    ∀ f ∈ fs, f.2.Readable readFloat := by
  cases h with
  | obj _ h => exact h

theorem Readable.keys {fs : List (String × Json)} (h : (Json.obj fs).Readable readFloat) :
    (fs.map Prod.fst).Nodup := by
  cases h with
  | obj h _ => exact h

/-- Sorting the keys changes none of this. -/
theorem Readable.canon {v : Json} (h : v.Readable readFloat) : v.canon.Readable readFloat := by
  induction v using induct with
  | scalar v harr hobj =>
    cases v with
    | arr xs => exact absurd rfl (harr xs)
    | obj fs => exact absurd rfl (hobj fs)
    | _ => exact h
  | arr xs ih =>
    rw [Json.canon, canonAll_eq]
    refine .arr fun y hy => ?_
    obtain ⟨x, hx, rfl⟩ := List.mem_map.mp hy
    exact ih x hx (h.of_arr x hx)
  | obj fs ih =>
    rw [Json.canon]
    refine .obj ?_ fun f hf => ?_
    · have hperm := (List.perm_insertionSort (fun a b : String × Json => a.1 ≤ b.1)
        (canonFields fs)).map Prod.fst
      refine hperm.nodup_iff.mpr ?_
      rw [canonFields_eq, List.map_map]
      exact h.keys
    · obtain ⟨f', hf', rfl⟩ := mem_canon_obj.mp hf
      exact ih f' hf' (h.of_obj f' hf')

/-! ## 3. Scalars -/

/-- The printed document, as the characters it is. -/
def text (v : Json) : List Char := (v.dumpsWith false).toList

/-- The digits of a number, behind a minus if it is negative. -/
def readInt : List Char → ℤ
  | [] => 0
  | c :: cs => if c.toNat = 45 then -(Nat.ofDigitChars 10 cs 0 : ℤ) else Nat.ofDigitChars 10 (c :: cs) 0

/-- The document without brackets or quotes that is printed so. -/
def readScalar (readFloat : String → ℚ) (s : String) : Json :=
  if s = "null" then null else if s = "true" then bool true else if s = "false" then bool false
  else if s.toList.all fun c => c.isDigit || c.toNat == 45 then int (readInt s.toList)
  else float (readFloat s) s

theorem digits_iff {cs : List Char} : (cs.all fun c => c.isDigit || c.toNat == 45) = true ↔
    ∀ c ∈ cs, c.isDigit = true ∨ c.toNat = 45 := by
  simp

theorem toNat_of_isDigit {c : Char} (h : c.isDigit = true) : 48 ≤ c.toNat ∧ c.toNat ≤ 57 := by
  rw [Char.isDigit, Bool.and_eq_true, decide_eq_true_eq, decide_eq_true_eq] at h
  exact ⟨UInt32.le_iff_toNat_le.mp h.1, UInt32.le_iff_toNat_le.mp h.2⟩

theorem readInt_repr (n : ℕ) : readInt (Nat.toDigits 10 n) = n := by
  have hdigits : Nat.ofDigitChars 10 (Nat.toDigits 10 n) 0 = n := Nat.ofDigitChars_ten_toDigits
  cases hcs : Nat.toDigits 10 n with
  | nil => exact absurd hcs Nat.toDigits_ne_nil
  | cons c cs =>
    have hc : c.isDigit = true := Nat.isDigit_of_mem_toDigits (b := 10) (n := n) (by decide) (by decide)
      (by rw [hcs]; exact List.mem_cons_self)
    have hminus : c.toNat ≠ 45 := by
      have hbounds := toNat_of_isDigit hc
      omega
    rw [hcs] at hdigits
    rw [readInt, if_neg hminus, hdigits]

/-- A number is its digits, and a minus before them. -/
theorem toList_int (n : ℤ) : (toString n).toList = Nat.toDigits 10 n.natAbs ∧ 0 ≤ n ∨
    (toString n).toList = Char.ofNat 45 :: Nat.toDigits 10 n.natAbs ∧ n < 0 := by
  cases n with
  | ofNat m => exact Or.inl ⟨Nat.toList_repr, Int.natCast_nonneg m⟩
  | negSucc m =>
    refine Or.inr ⟨?_, Int.negSucc_lt_zero m⟩
    change ("-" ++ (m + 1).repr).toList = _
    rw [String.toList_append, Nat.toList_repr]
    rfl

theorem chars_int (n : ℤ) : ∀ c ∈ (toString n).toList, c.isDigit = true ∨ c.toNat = 45 := by
  have hdigits : ∀ c ∈ Nat.toDigits 10 n.natAbs, c.isDigit = true ∨ c.toNat = 45 := fun c hc =>
    Or.inl (Nat.isDigit_of_mem_toDigits (by decide) (by decide) hc)
  intro c hc
  rcases toList_int n with ⟨h, -⟩ | ⟨h, -⟩
  · exact hdigits c (h ▸ hc)
  · rw [h] at hc
    rcases List.mem_cons.mp hc with rfl | hc
    · exact Or.inr rfl
    · exact hdigits c hc

theorem readInt_int (n : ℤ) : readInt (toString n).toList = n := by
  rcases toList_int n with ⟨h, hn⟩ | ⟨h, hn⟩
  · rw [h, readInt_repr]
    omega
  · have hdigits : Nat.ofDigitChars 10 (Nat.toDigits 10 n.natAbs) 0 = n.natAbs :=
      Nat.ofDigitChars_ten_toDigits
    have hminus : (Char.ofNat 45).toNat = 45 := rfl
    rw [h, readInt, if_pos hminus, hdigits]
    omega

/-- No other scalar is printed like a float. -/
theorem FloatText.notOther {r : String} (h : FloatText r) : r ≠ "null" ∧ r ≠ "true" ∧ r ≠ "false" ∧
    ¬ ∀ c ∈ r.toList, c.isDigit = true ∨ c.toNat = 45 := by
  rcases h with ⟨hchars, c, hc, hmark⟩ | h
  · refine ⟨?_, ?_, ?_, ?_⟩
    · rintro rfl
      exact absurd (hchars (Char.ofNat 110) (by decide)) (by decide)
    · rintro rfl
      exact absurd (hchars (Char.ofNat 116) (by decide)) (by decide)
    · rintro rfl
      exact absurd (hchars (Char.ofNat 102) (by decide)) (by decide)
    · intro hall
      rcases hall c hc with hdigit | hminus
      · have hbounds := toNat_of_isDigit hdigit
        omega
      · omega
  · -- each of the names has a letter in it
    have hletter : ∀ {t : String} (c : Char), c ∈ t.toList →
        ¬ (c.isDigit = true ∨ c.toNat = 45) → ¬ ∀ c ∈ t.toList, c.isDigit = true ∨ c.toNat = 45 :=
      fun c hc hno hall => hno (hall c hc)
    simp only [List.mem_cons, List.not_mem_nil, or_false] at h
    rcases h with rfl | rfl | rfl
    · exact ⟨by decide, by decide, by decide, hletter (Char.ofNat 97) (by decide) (by decide)⟩
    · exact ⟨by decide, by decide, by decide, hletter (Char.ofNat 110) (by decide) (by decide)⟩
    · exact ⟨by decide, by decide, by decide, hletter (Char.ofNat 110) (by decide) (by decide)⟩

/-- The documents that are printed without brackets or quotes. -/
def Bare : Json → Prop
  | str _ | arr _ | obj _ => False
  | _ => True

/-- **A scalar is read back.** -/
theorem readScalar_dumps {v : Json} (hv : v.Readable readFloat) (hbare : v.Bare) :
    readScalar readFloat (v.dumpsWith false) = v := by
  cases hv with
  | null => rfl
  | bool b => cases b <;> rfl
  | int n =>
    have hchars := chars_int n
    have hother : ∀ s : String, (Char.ofNat 101 ∈ s.toList ∨ Char.ofNat 117 ∈ s.toList) →
        toString n ≠ s := by
      rintro s hs rfl
      rcases hs with hs | hs
      · exact absurd (hchars _ hs) (by decide)
      · exact absurd (hchars _ hs) (by decide)
    rw [dumpsWith, readScalar, if_neg (hother _ (by decide)), if_neg (hother _ (by decide)),
      if_neg (hother _ (by decide)), if_pos (digits_iff.mpr hchars), readInt_int]
  | float hr =>
    obtain ⟨hnull, htrue, hfalse, hint⟩ := hr.notOther
    rw [dumpsWith, readScalar, if_neg hnull, if_neg htrue, if_neg hfalse,
      if_neg fun h => hint (digits_iff.mp h)]
  | str s => exact hbare.elim
  | arr h => exact hbare.elim
  | obj hkeys h => exact hbare.elim

/-- The characters that JSON itself is written with. -/
def Structural (c : Char) : Prop := c.toNat ∈ [34, 44, 91, 93, 123, 125]

instance (c : Char) : Decidable (Structural c) := inferInstanceAs (Decidable (_ ∈ _))

/-- A given text is run through. -/
theorem plain_of_all {cs : List Char} (h : (cs.all fun c => !decide (Structural c)) = true) :
    ∀ c ∈ cs, ¬ Structural c := by
  intro c hc
  have hplain := List.all_eq_true.mp h c hc
  simpa using hplain

/-- A scalar has none of them, and is not empty. -/
theorem text_of_bare {v : Json} (hv : v.Readable readFloat) (hbare : v.Bare) :
    v.text ≠ [] ∧ ∀ c ∈ v.text, ¬ Structural c := by
  have hplain : ∀ {c : Char}, c.isDigit = true ∨ c.toNat ∈ [43, 45, 46, 101] → ¬ Structural c := by
    intro c hc hs
    simp only [Structural, List.mem_cons, List.not_mem_nil, or_false] at hc hs
    rcases hc with hc | hc
    · have hbounds := toNat_of_isDigit hc
      omega
    · omega
  cases hv with
  | null => exact ⟨by decide, plain_of_all (by decide)⟩
  | bool b => cases b <;> exact ⟨by decide, plain_of_all (by decide)⟩
  | int n =>
    refine ⟨?_, fun c hc => hplain ?_⟩
    · intro hnil
      rcases toList_int n with ⟨h, -⟩ | ⟨h, -⟩
      · exact Nat.toDigits_ne_nil (h.symm.trans hnil)
      · exact absurd (h.symm.trans hnil) (by simp)
    · exact (chars_int n c hc).imp_right fun h => by simp [h]
  | @float r hr =>
    change r.toList ≠ [] ∧ ∀ c ∈ r.toList, ¬ Structural c
    rcases hr with ⟨hchars, c, hc, -⟩ | h
    · exact ⟨List.ne_nil_of_mem hc, fun c hc => hplain (hchars c hc)⟩
    · simp only [List.mem_cons, List.not_mem_nil, or_false] at h
      rcases h with rfl | rfl | rfl <;> exact ⟨by decide, plain_of_all (by decide)⟩
  | str s => exact hbare.elim
  | arr h => exact hbare.elim
  | obj hkeys h => exact hbare.elim

/-! ## 4. Every document can be told -/

/-- What may follow a document in a text: nothing, a comma or a closing bracket. -/
def Closes : List Char → Prop :=
  Delimited fun c => c.toNat = 44 ∨ c.toNat = 93 ∨ c.toNat = 125

/-- One printed field. -/
def field (f : String × Json) : List Char := (dumpsStr f.1).toList ++ (": ".toList ++ f.2.text)

theorem text_arr (xs : List Json) :
    (arr xs).text = Char.ofNat 91 :: (", ".toList.intercalate (xs.map text) ++ [Char.ofNat 93]) := by
  rw [text, dumpsWith, items, String.toList_append, String.toList_append, String.toList_intercalate,
    dumpsAll_eq, List.map_map, List.append_assoc]
  rfl

theorem text_obj (fs : List (String × Json)) :
    (obj fs).text = Char.ofNat 123 :: (", ".toList.intercalate (fs.map field) ++ [Char.ofNat 125]) := by
  have hfields : ((dumpsFields false fs).map fun f => dumpsStr f.1 ++ ": " ++ f.2).map String.toList =
      fs.map field := by
    rw [dumpsFields_eq, List.map_map, List.map_map]
    refine List.map_congr_left fun f _ => ?_
    simp only [Function.comp_def, field, text, String.toList_append, List.append_assoc]
  rw [text, dumpsWith]
  simp only [Bool.false_eq_true, if_false]
  rw [items, String.toList_append, String.toList_append, String.toList_intercalate, hfields,
    List.append_assoc]
  rfl

/-- The opening character of a document, if it has one. -/
def opening : Json → Option Char
  | str _ => some (Char.ofNat 34)
  | arr _ => some (Char.ofNat 91)
  | obj _ => some (Char.ofNat 123)
  | _ => none

/-- A text begins with the opening character, or with one that is not structural. -/
theorem head_text {v : Json} (hv : v.Readable readFloat) : ∃ c s, v.text = c :: s ∧
    (if Structural c then some c else none) = v.opening ∧ c.toNat ≠ 93 := by
  have hscalar : v.Bare → v.opening = none → ∃ c s, v.text = c :: s ∧
      (if Structural c then some c else none) = v.opening ∧ c.toNat ≠ 93 := by
    intro hbare hopen
    obtain ⟨hne, hplain⟩ := text_of_bare hv hbare
    obtain ⟨c, s, htext⟩ := List.exists_cons_of_ne_nil hne
    have hc : ¬ Structural c := hplain c (htext ▸ List.mem_cons_self)
    refine ⟨c, s, htext, by rw [if_neg hc, hopen], fun h => hc ?_⟩
    simp [Structural, h]
  cases v with
  | str s =>
    have htext : (str s).text = Char.ofNat 34 :: _ := toList_dumpsStr s
    exact ⟨Char.ofNat 34, _, htext, rfl, by decide⟩
  | arr xs => exact ⟨Char.ofNat 91, _, text_arr xs, rfl, by decide⟩
  | obj fs => exact ⟨Char.ofNat 123, _, text_obj fs, rfl, by decide⟩
  | _ => exact hscalar trivial rfl

/-- Two documents that one text begins with open alike. -/
theorem opening_eq {v w : Json} (hv : v.Readable readFloat) (hw : w.Readable readFloat)
    {s t : List Char} (heq : v.text ++ s = w.text ++ t) : v.opening = w.opening := by
  obtain ⟨c, u, hc, hopen, -⟩ := head_text hv
  obtain ⟨c', u', hc', hopen', -⟩ := head_text hw
  rw [hc, hc', List.cons_append, List.cons_append] at heq
  rw [← hopen, ← hopen', (List.cons.inj heq).1]

theorem closes_sep (s : List Char) : Closes (", ".toList ++ s) := by
  intro c hc
  obtain rfl : Char.ofNat 44 = c := Option.some.inj hc
  exact Or.inl rfl

theorem closes_bracket {c : Char} (h : c.toNat = 93 ∨ c.toNat = 125) (s : List Char) :
    Closes ([c] ++ s) := by
  intro d hd
  obtain rfl : c = d := Option.some.inj hd
  exact Or.inr h

/-- A field is told when its value is. -/
theorem legible_field {f : String × Json} (h : Legible (Readable readFloat) Closes text f.2) :
    Legible (fun f => f.2.Readable readFloat) Closes field f := by
  intro f' s t hf' hs ht heq
  simp only [field, List.append_assoc] at heq
  obtain ⟨hkey, hrest⟩ := isPrefixCode_dumpsStr f.1 f'.1 _ _ heq
  obtain ⟨hvalue, hst⟩ := h f'.2 s t hf' hs ht (List.append_cancel_left hrest)
  exact ⟨Prod.ext hkey hvalue, hst⟩

/-- **A document is told from every other one by its text**, in front of a comma, a closing bracket
or nothing. -/
theorem legible_dumps {v : Json} (hv : v.Readable readFloat) :
    Legible (Readable readFloat) Closes text v := by
  induction v using induct with
  | scalar v harr hobj =>
    intro w s t hw hs ht heq
    have hopen := opening_eq hv hw heq
    have hbare : v.Bare → w.Bare → v = w ∧ s = t := by
      intro hbare hbare'
      have hfree : ∀ {u : Json}, u.Readable readFloat → u.Bare →
          ∀ c ∈ u.text, ¬ (c.toNat = 44 ∨ c.toNat = 93 ∨ c.toNat = 125) := by
        intro u hu hb c hc hstop
        refine (text_of_bare hu hb).2 c hc ?_
        rcases hstop with h | h | h <;> simp [Structural, h]
      obtain ⟨htext, hst⟩ := eq_of_delimited (hfree hv hbare) (hfree hw hbare') hs ht heq
      refine ⟨?_, hst⟩
      rw [← readScalar_dumps hv hbare, ← readScalar_dumps hw hbare', String.toList_inj.mp htext]
    cases v with
    | arr xs => exact absurd rfl (harr xs)
    | obj fs => exact absurd rfl (hobj fs)
    | str x =>
      cases w with
      | str y =>
        obtain ⟨rfl, hst⟩ := isPrefixCode_dumpsStr x y s t heq
        exact ⟨rfl, hst⟩
      | _ => exact absurd hopen (by simp [opening])
    | _ =>
      cases w with
      | str y => exact absurd hopen (by simp [opening])
      | arr ys => exact absurd hopen (by simp [opening])
      | obj gs => exact absurd hopen (by simp [opening])
      | _ => exact hbare trivial trivial
  | arr xs ih =>
    intro w s t hw hs ht heq
    have hopen := opening_eq hv hw heq
    cases w with
    | arr ys =>
      rw [text_arr, text_arr, List.cons_append, List.cons_append] at heq
      have havoids : ∀ u : Json, u.Readable readFloat → ∀ s t : List Char,
          u.text ++ s ≠ [Char.ofNat 93] ++ t := by
        intro u hu s t h
        obtain ⟨c, rest, hc, -, hne⟩ := head_text hu
        rw [hc] at h
        exact hne (by rw [(List.cons.inj h).1]; rfl)
      obtain ⟨rfl, hst⟩ := legible_separated closes_sep (closes_bracket (Or.inl rfl))
        (fun _ _ h => absurd (List.cons.inj h).1 (by decide)) havoids hv.of_arr
        (fun x hx => ih x hx (hv.of_arr x hx)) ys s t hw.of_arr trivial trivial (List.cons.inj heq).2
      exact ⟨rfl, hst⟩
    | str y => exact absurd hopen (by simp [opening])
    | obj gs => exact absurd hopen (by simp [opening])
    | _ => exact absurd hopen (by simp [opening])
  | obj fs ih =>
    intro w s t hw hs ht heq
    have hopen := opening_eq hv hw heq
    cases w with
    | obj gs =>
      rw [text_obj, text_obj, List.cons_append, List.cons_append] at heq
      have havoids : ∀ f : String × Json, f.2.Readable readFloat → ∀ s t : List Char,
          field f ++ s ≠ [Char.ofNat 125] ++ t := by
        intro f _ s t h
        rw [field, toList_dumpsStr] at h
        exact absurd (List.cons.inj h).1 (by decide)
      obtain ⟨rfl, hst⟩ := legible_separated closes_sep (closes_bracket (Or.inr rfl))
        (fun _ _ h => absurd (List.cons.inj h).1 (by decide)) havoids hv.of_obj
        (fun f hf => legible_field (ih f hf (hv.of_obj f hf))) gs s t hw.of_obj trivial trivial
        (List.cons.inj heq).2
      exact ⟨rfl, hst⟩
    | _ => exact absurd hopen (by simp [opening])

/-- **Two documents print the same text exactly when they are the same with their keys sorted.** -/
theorem dumps_eq_iff {v w : Json} (hv : v.Readable readFloat) (hw : w.Readable readFloat) :
    v.dumps = w.dumps ↔ v.canon = w.canon := by
  refine ⟨fun h => ?_, fun h => by rw [dumps_eq, dumps_eq, h]⟩
  rw [dumps_eq, dumps_eq] at h
  have htext : v.canon.text ++ [] = w.canon.text ++ [] := by rw [text, text, h]
  exact (legible_dumps hv.canon w.canon [] [] hw.canon (by simp [Closes, Delimited])
    (by simp [Closes, Delimited]) htext).1

/-! ## 5. Reading such documents -/

/-- In an object without a key twice, a field is found under its key. -/
theorem find?_eq_some_iff {fs : List (String × Json)} (hkeys : (fs.map Prod.fst).Nodup) {k : String}
    {v : Json} : find? fs k = some v ↔ (k, v) ∈ fs := by
  induction fs with
  | nil => simp [find?]
  | cons f fs ih =>
    rw [List.map_cons, List.nodup_cons] at hkeys
    by_cases hk : f.1 = k
    · subst hk
      have hrest : (f.1, v) ∉ fs := fun h => hkeys.1 (List.mem_map.mpr ⟨(f.1, v), h, rfl⟩)
      have hfirst : find? (f :: fs) f.1 = some f.2 := by simp [find?]
      rw [hfirst, List.mem_cons]
      constructor
      · intro h
        exact Or.inl (Prod.ext rfl (Option.some.inj h).symm)
      · rintro (h | h)
        · rw [← h]
        · exact absurd h hrest
    · have hskip : find? (f :: fs) k = find? fs k := by simp [find?, hk]
      rw [hskip, ih hkeys.2, List.mem_cons]
      constructor
      · exact Or.inr
      · rintro (h | h)
        · exact absurd (congrArg Prod.fst h).symm hk
        · exact h

/-- The sorted document answers every key with the sorted value. -/
theorem find?_canonFields {fs : List (String × Json)} (hkeys : (fs.map Prod.fst).Nodup) (k : String) :
    find? ((canonFields fs).insertionSort fun a b => a.1 ≤ b.1) k = (find? fs k).map canon := by
  have hsorted : (((canonFields fs).insertionSort fun a b => a.1 ≤ b.1).map Prod.fst).Nodup := by
    have hperm := (List.perm_insertionSort (fun a b : String × Json => a.1 ≤ b.1)
      (canonFields fs)).map Prod.fst
    refine hperm.nodup_iff.mpr ?_
    rw [canonFields_eq, List.map_map]
    exact hkeys
  refine Option.ext fun v => ?_
  rw [find?_eq_some_iff hsorted, mem_canon_obj, Option.map_eq_some_iff]
  constructor
  · rintro ⟨f, hf, h⟩
    obtain ⟨rfl, rfl⟩ := Prod.mk.inj h
    exact ⟨f.2, (find?_eq_some_iff hkeys).mpr hf, rfl⟩
  · rintro ⟨v', hv', rfl⟩
    exact ⟨(k, v'), (find?_eq_some_iff hkeys).mp hv', rfl⟩

/-- **Objects that are the same with their keys sorted answer every key alike.** -/
theorem find?_of_canon {fs gs : List (String × Json)} (hf : (obj fs).Readable readFloat)
    (hg : (obj gs).Readable readFloat) (h : (obj fs).canon = (obj gs).canon) (k : String) :
    (find? fs k).map canon = (find? gs k).map canon := by
  rw [canon, canon, Json.obj.injEq] at h
  rw [← find?_canonFields hf.keys, ← find?_canonFields hg.keys, h]

end Json

end GovernorGateway
