/-
# Expressions of a Rego rule body

A reference that leads nowhere is UNDEFINED.  A rule body holds when each of its expressions is
defined and not `false`; a comparison with an undefined side is undefined, whichever comparison it
is.

The values are JSON.  Numbers are compared by value and strings by their text; what an engine says
of two arrays, or of two objects, is left to it (`Compound`).
-/
import GovernorGateway.Json
import Mathlib.Data.Rat.Cast.Order

namespace GovernorGateway

namespace Rego

/-! ## 1. References -/

/-- What a reference denotes; `none` is undefined. -/
abbrev Term := Option Json

/-- `t[key]`. -/
def Term.get (t : Term) (key : String) : Term :=
  match t with
  | some (.obj fields) => Json.find? fields key
  | _ => none

/-- `v.key₁.key₂` and so on. -/
def ref (v : Json) (path : List String) : Term := path.foldl Term.get (some v)

@[simp] theorem ref_nil (v : Json) : ref v [] = some v := rfl

/-- A reference goes on from where its first key leads. -/
theorem ref_cons {v u : Json} {key : String} (h : Term.get (some v) key = some u)
    (path : List String) : ref v (key :: path) = ref u path := by
  rw [ref, List.foldl_cons, h, ref]

/-! ## 2. Statements -/

/-- A term as a statement: it fails when it is undefined or `false`. -/
def holds : Term → Bool
  | none => false
  | some (.bool b) => b
  | some _ => true

/-- What `in` ranges over. -/
def elems : Term → List Json
  | some (.arr xs) => xs
  | some (.obj fields) => fields.map Prod.snd
  | _ => []

/-- `some x in t` in front of the rest of a body. -/
def someIn (t : Term) (body : Json → Bool) : Bool := (elems t).any body

/-- `every x in t`: it needs something to range over. -/
def every (t : Term) (body : Json → Bool) : Bool :=
  match t with
  | some (.arr xs) => xs.all body
  | some (.obj fields) => fields.all fun f => body f.2
  | _ => false

/-! ## 3. Comparisons -/

/-- What the engine says of two arrays or two objects. -/
structure Compound where
  same : Json → Json → Bool
  above : Json → Json → Bool

def number : Json → Option ℚ
  | .int n => some n
  | .float q _ => some q
  | _ => none

/-- The order of the kinds: `null`, booleans, numbers, strings, arrays, objects. -/
def rank : Json → ℕ
  | .null => 0
  | .bool _ => 1
  | .int _ => 2
  | .float _ _ => 2
  | .str _ => 3
  | .arr _ => 4
  | .obj _ => 5

section Comparisons

variable (K : Compound)

/-- Equality of values. -/
def same (v u : Json) : Bool :=
  match v, u with
  | .null, .null => true
  | .bool a, .bool b => a == b
  | .str s, .str t => s = t
  | .arr xs, .arr ys => K.same (.arr xs) (.arr ys)
  | .obj fs, .obj gs => K.same (.obj fs) (.obj gs)
  | v, u =>
    match number v, number u with
    | some m, some n => m = n
    | _, _ => false

/-- The strict order of values. -/
def above (v u : Json) : Bool :=
  rank u < rank v || (rank u = rank v &&
    match v, u with
    | .bool a, .bool b => a && !b
    | .str s, .str t => t < s
    | .arr xs, .arr ys => K.above (.arr xs) (.arr ys)
    | .obj fs, .obj gs => K.above (.obj fs) (.obj gs)
    | v, u =>
      match number v, number u with
      | some m, some n => n < m
      | _, _ => false)

/-- `t == u`. -/
def eq (t u : Term) : Bool :=
  match t, u with
  | some v, some w => same K v w
  | _, _ => false

/-- `t != u`: it needs both sides as well. -/
def ne (t u : Term) : Bool :=
  match t, u with
  | some v, some w => !same K v w
  | _, _ => false

/-- `t > u`. -/
def gt (t u : Term) : Bool :=
  match t, u with
  | some v, some w => above K v w
  | _, _ => false

/-- `v in t`. -/
def member (v : Json) (t : Term) : Bool := (elems t).any fun u => same K v u

end Comparisons

section Scalars

variable {K : Compound}

@[simp] theorem same_str (s t : String) : same K (.str s) (.str t) = decide (s = t) := rfl

@[simp] theorem same_bool (a b : Bool) : same K (.bool a) (.bool b) = (a == b) := rfl

/-- Nothing but the text itself equals a text. -/
theorem same_str_right (v : Json) (t : String) :
    same K v (.str t) = match v with
      | .str s => decide (s = t)
      | _ => false := by
  cases v <;> rfl

/-- Nothing but the truth value itself equals `true`. -/
theorem same_true_right (v : Json) :
    same K v (.bool true) = match v with
      | .bool b => b
      | _ => false := by
  cases v with
  | bool b => cases b <;> rfl
  | _ => rfl

/-- What is above a whole number. -/
theorem above_int_right (v : Json) (n : Int) :
    above K v (.int n) = match v with
      | .null => false
      | .bool _ => false
      | .int m => decide (n < m)
      | .float q _ => decide ((n : ℚ) < q)
      | .str _ => true
      | .arr _ => true
      | .obj _ => true := by
  cases v with
  | int m => simp [above, rank, number, Int.cast_lt]
  | _ => simp [above, rank, number]

/-- Membership of a text in a list of texts. -/
theorem member_strs (x : String) (xs : List String) :
    member K (.str x) (some (.arr (xs.map .str))) = decide (x ∈ xs) := by
  rw [member, elems, List.any_map]
  induction xs with
  | nil => rfl
  | cons y ys ih =>
    rw [List.any_cons, ih]
    simp [List.mem_cons]

end Scalars

end Rego

end GovernorGateway
