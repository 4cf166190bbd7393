/-
# JSON values as Python reads and prints them

A value parsed by `json.loads`.  A float keeps its value and the text Python prints for it:
nothing in the gateway computes with floats inside an opaque document, but `json.dumps` prints
them, and the printed text is what gets hashed.

`dumps` is `json.dumps(..., sort_keys=True)` and `dumpsWith false` is `json.dumps(...)`, both with
the default separators and `ensure_ascii`.
-/
import Mathlib.Data.Rat.Defs
import Mathlib.Data.List.Sort
import Mathlib.Data.String.Basic

namespace GovernorGateway

inductive Json where
  | null
  | bool (b : Bool)
  | int (n : Int)
  | float (value : ℚ) (repr : String)
  | str (s : String)
  | arr (xs : List Json)
  | obj (fields : List (String × Json))

namespace Json

/-! ## 1. Reading -/

/-- `d[key]` of a parsed object, in the order of the text: a later duplicate wins in Python, and
`json.loads` has already dropped the earlier one. -/
def find? (fields : List (String × Json)) (key : String) : Option Json :=
  (fields.find? (fun f => f.1 = key)).map Prod.snd

/-- Python's truth value. -/
def truthy : Json → Bool
  | null => false
  | bool b => b
  | int n => n ≠ 0
  | float v _ => v ≠ 0
  | str s => s ≠ ""
  | arr xs => !xs.isEmpty
  | obj fs => !fs.isEmpty

/-! ## 2. Printing -/

/-- The lower-case hexadecimal digits of a number below `2 ^ 16`. -/
def hex4 (n : ℕ) : String :=
  String.ofList ((Nat.toDigits 16 n).leftpad 4 (Char.ofNat 48))

/-- One character of a JSON string, as `ensure_ascii` prints it: the two structural characters,
the five short escapes, the printable ASCII range, and UTF-16 code units for the rest. -/
def escape (c : Char) : String :=
  let n := c.toNat
  if n = 34 then "\\\"" else if n = 92 then "\\\\"
  else if n = 10 then "\\n" else if n = 13 then "\\r" else if n = 9 then "\\t"
  else if n = 12 then "\\f" else if n = 8 then "\\b"
  else if 32 ≤ n ∧ n ≤ 126 then c.toString
  else if n < 65536 then "\\u" ++ hex4 n
  else "\\u" ++ hex4 (55296 + (n - 65536) / 1024) ++ "\\u" ++ hex4 (56320 + (n - 65536) % 1024)

/-- A JSON string literal. -/
def dumpsStr (s : String) : String :=
  "\"" ++ String.join (s.toList.map escape) ++ "\""

/-- The items between the brackets, with Python's `", "`. -/
def items (xs : List String) : String := ", ".intercalate xs

mutual
/-- `json.dumps(value, sort_keys=sorted)`. -/
def dumpsWith (sorted : Bool) : Json → String
  | null => "null"
  | bool true => "true"
  | bool false => "false"
  | int n => toString n
  | float _ repr => repr
  | str s => dumpsStr s
  | arr xs => "[" ++ items (dumpsAll sorted xs) ++ "]"
  | obj fs =>
    let printed := dumpsFields sorted fs
    let ordered := if sorted then printed.insertionSort (fun a b => a.1 ≤ b.1) else printed
    "\x7b" ++ items (ordered.map fun f => dumpsStr f.1 ++ ": " ++ f.2) ++ "\x7d"

/-- The printed elements of an array. -/
def dumpsAll (sorted : Bool) : List Json → List String
  | [] => []
  | x :: xs => dumpsWith sorted x :: dumpsAll sorted xs

/-- The printed fields of an object, in the order of the document. -/
def dumpsFields (sorted : Bool) : List (String × Json) → List (String × String)
  | [] => []
  | (k, v) :: fs => (k, dumpsWith sorted v) :: dumpsFields sorted fs
end

/-- `json.dumps(value, sort_keys=True)`. -/
def dumps (v : Json) : String := dumpsWith true v

/-- `json.dumps` of a list of strings. -/
def dumpsList (xs : List String) : String := dumps (arr (xs.map str))

example : dumpsList ["a", "b\"c"] = "[\"a\", \"b\\\"c\"]" := by decide

end Json

end GovernorGateway
