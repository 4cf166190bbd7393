/-
# The four transports of a policy query

`evaluate_opa_policy` reaches the engine in one of four ways: a WASM module, `opa eval` with a
bundle, an OPA server, or `opa eval` with the directory of the policies.  Each has a response of its
own shape and its own code to read it.

What a transport sends back for a query is a parameter (`Engine`); `Engine.Sound` says that whatever
does come back has the documented shape and holds the value Rego gives the query.
`Engine.opa_ok`: then all four readings are worth the same.
-/
import GovernorGateway.Policy.Packages
import GovernorGateway.Backend

namespace GovernorGateway

open Rego

/-! ## 1. Reading a parsed response, as Python does -/

/-- `v.get(key, default)`. -/
def pyGet (v : Json) (key : String) (dflt : Json) : Except Exc Json :=
  match v with
  | .obj fields => .ok ((Json.find? fields key).getD dflt)
  | _ => .error (.other "AttributeError")

/-- `v[0]`. -/
def pyFirst : Json → Except Exc Json
  | .arr (x :: _) => .ok x
  | .arr [] => .error (.other "IndexError")
  | .str s =>
    match s.toList with
    | c :: _ => .ok (.str c.toString)
    | [] => .error (.other "IndexError")
  | .obj _ => .error (.other "KeyError")
  | _ => .error (.other "TypeError")

/-- `key in v`. -/
def pyContains (key : String) : Json → Except Exc Bool
  | .obj fields => .ok (Json.find? fields key).isSome
  | .arr xs => .ok (xs.any fun x => match x with | .str s => s = key | _ => false)
  | .str s => .ok (decide (key.toList <:+: s.toList))
  | _ => .error (.other "TypeError")

/-- `v[key]`. -/
def pyItem (v : Json) (key : String) : Except Exc Json :=
  match v with
  | .obj fields =>
    match Json.find? fields key with
    | some x => .ok x
    | none => .error (.other "KeyError")
  | _ => .error (.other "TypeError")

/-- The object of the combined package passes through; of a package document the one decision is
taken. -/
def unpackDecision (result : Json) : Except Exc Json := do
  let write ← pyContains "allow_state_write" result
  let reintegration ← pyContains "allow_reintegration" result
  if write && reintegration then pure result
  else if write then pyItem result "allow_state_write"
  else if reintegration then pyItem result "allow_reintegration"
  else pure (.bool false)

/-! ## 2. The transports -/

inductive Transport where
  | wasm
  | bundle
  | rest
  | subprocess
  deriving DecidableEq

/-- The transport the settings choose; the bundle counts when its file exists. -/
def Transport.choose (bundle : Option String) (bundleExists wasmtime : Bool) (url : Option String) :
    Transport :=
  if bundle.getD "" ≠ "" ∧ bundleExists then
    if wasmtime ∧ (bundle.getD "").endsWith ".wasm" then .wasm else .bundle
  else if url.getD "" ≠ "" then .rest
  else .subprocess

/-- How a query can fail before there is a parsed response. -/
inductive EngineFailure where
  /-- `RuntimeError` of the WASM engine: the entry point is missing. -/
  | runtime (message : String)
  /-- Any other exception of the WASM engine. -/
  | abort (message : String)
  | exit (code : Int) (stderr : String)
  | unparseable (message : String)
  | status (code : ℕ)
  | unreachable (message : String)

/-- `stderr.decode()[:200]`. -/
def stderrHead (s : String) : String := String.ofList (s.toList.take 200)

/-- What a failure raises. -/
def Transport.failure : Transport → EngineFailure → Exc
  | .wasm, .runtime m => .policy ("WASM policy evaluation failed: " ++ m)
  | .bundle, .exit code e =>
    .policy ("OPA bundle eval failed (exit " ++ toString code ++ "): " ++ stderrHead e)
  | .subprocess, .exit code e =>
    .policy ("OPA subprocess failed (exit " ++ toString code ++ "): " ++ stderrHead e)
  | .subprocess, .unparseable m => .policy ("OPA output unparseable: " ++ m)
  | .rest, .status code => .policy ("OPA REST returned " ++ toString code)
  | .rest, .unreachable m | .rest, .unparseable m => .policy ("OPA REST unreachable: " ++ m)
  | _, .runtime m | _, .abort m | _, .unparseable m | _, .unreachable m => .other m
  | _, .exit _ m => .other m
  | _, .status code => .other (toString code)

/-- A list of result sets, or a bare value that is made one. -/
def wasmResultSets : Json → List Json
  | .arr xs => xs
  | v => [.obj [("result", v)]]

def readWasm (parsed : Json) : Except Exc Json :=
  match wasmResultSets parsed with
  | [] => .error (.policy "WASM returned empty result set")
  | x :: _ => do
    match ← pyGet x "result" (.bool false) with
    | .bool b => pure (.bool b)
    | .obj fields => unpackDecision (.obj fields)
    | _ => pure (.bool false)

/-- `output.get("result", [{}])[0].get("expressions", [{}])[0].get("value", False)`. -/
def readEval (output : Json) : Except Exc Json := do
  let sets ← pyGet output "result" (.arr [.obj []])
  let set ← pyFirst sets
  let expressions ← pyGet set "expressions" (.arr [.obj []])
  let expression ← pyFirst expressions
  pyGet expression "value" (.bool false)

def readRest (body : Json) : Except Exc Json := do
  let result ← pyGet body "result" (.obj [])
  unpackDecision result

/-- What the exceptions of a reading become. -/
def Transport.rescue : Transport → Exc → Exc
  | .rest, .other m => .policy ("OPA REST unreachable: " ++ m)
  | .subprocess, .other m =>
    if m = "IndexError" ∨ m = "KeyError" then .policy ("OPA output unparseable: " ++ m) else .other m
  | _, e => e

def Transport.read : Transport → Json → Except Exc Json
  | .wasm => readWasm
  | .bundle => readEval
  | .rest => readRest
  | .subprocess => readEval

/-- `evaluate_opa_policy`, once the transport has answered. -/
def evaluateOpaPolicy (t : Transport) (response : Except EngineFailure Json) : Except Exc Json :=
  match response with
  | .error f => .error (t.failure f)
  | .ok v =>
    match t.read v with
    | .error e => .error (t.rescue e)
    | .ok r => .ok r

/-! ## 3. Documented responses -/

/-- The answer of an engine to a query over a transport. -/
abbrev Engine := Transport → PolicyCall → Json → Except EngineFailure Json

/-- The result sets of a WASM module, or its bare value: `value` if it is defined. -/
def WasmShape (value : Term) (r : Json) : Prop :=
  match value with
  | none => r = .arr []
  | some v => (∃ fields rest, r = .arr (.obj fields :: rest) ∧ Json.find? fields "result" = some v) ∨
      (r = v ∧ ∀ xs, v ≠ .arr xs)

/-- The output of `opa eval`. -/
def EvalShape (value : Term) (r : Json) : Prop :=
  ∃ fields, r = .obj fields ∧
    match value with
    | none => Json.find? fields "result" = none
    | some v => ∃ set sets expression expressions,
        Json.find? fields "result" = some (.arr (.obj set :: sets)) ∧
        Json.find? set "expressions" = some (.arr (.obj expression :: expressions)) ∧
        Json.find? expression "value" = some v

/-- The body of a server's answer: the document of the package.  The rules of the test files are in
it as well. -/
def RestShape (document : List (String × Json)) (r : Json) : Prop :=
  ∃ fields doc, r = .obj fields ∧ Json.find? fields "result" = some (.obj doc) ∧
    ∀ name : String, ¬ "test_".toList <+: name.toList → Json.find? doc name = Json.find? document name

/-- The documented response to a query. -/
def Transport.Documents (K : Compound) (t : Transport) (c : PolicyCall) (input r : Json) : Prop :=
  match t with
  | .wasm => WasmShape (c.value K input) r
  | .bundle => EvalShape (c.value K input) r
  | .subprocess => EvalShape (c.value K input) r
  | .rest => RestShape (c.document K input) r

/-- Whatever the engine answers is the documented response, with the value Rego gives the query. -/
def Engine.Sound (K : Compound) (e : Engine) : Prop :=
  ∀ t c input r, e t c input = .ok r → t.Documents K c input r

/-- `evaluate_opa_policy` over this engine. -/
def Engine.opa (e : Engine) (t : Transport) (c : PolicyCall) (input : Json) : Except Exc Json :=
  evaluateOpaPolicy t (e t c input)

/-! ## 4. What is read -/

section Reads

variable {K : Compound} {input r : Json} {c : PolicyCall}

/-- A decision: a truth value, or an object with both of them. -/
def PolicyCall.Settled (c : PolicyCall) (K : Compound) (input r : Json) : Prop :=
  match c with
  | .admission => ∃ fields, r = .obj fields ∧
      Json.find? fields "allow_state_write" = some (.bool (Admission.allowStateWrite K input)) ∧
      Json.find? fields "allow_reintegration" = some (.bool (Admission.allowReintegration K input))
  | .integrity => r = .bool (Integrity.allowStateWrite K input)
  | .verification => r = .bool (Verification.allowReintegration K input)

theorem settled_value {v : Json} (h : c.value K input = some v) : PolicyCall.Settled c K input v := by
  cases c with
  | admission =>
    obtain rfl := Option.some.inj h
    exact ⟨_, rfl, rfl, rfl⟩
  | integrity => exact (Option.some.inj h).symm
  | verification => exact (Option.some.inj h).symm

/-- An object with both decisions is passed through. -/
theorem unpackDecision_both {fields : List (String × Json)}
    (hwrite : (Json.find? fields "allow_state_write").isSome = true)
    (hreintegration : (Json.find? fields "allow_reintegration").isSome = true) :
    unpackDecision (.obj fields) = .ok (.obj fields) := by
  simp only [unpackDecision, pyContains, hwrite, hreintegration]
  rfl

/-- Of an object with one of them, that one is taken. -/
theorem unpackDecision_write {fields : List (String × Json)} {v : Json}
    (hwrite : Json.find? fields "allow_state_write" = some v)
    (hreintegration : Json.find? fields "allow_reintegration" = none) :
    unpackDecision (.obj fields) = .ok v := by
  simp only [unpackDecision, pyContains, pyItem, hwrite, hreintegration]
  rfl

theorem unpackDecision_reintegration {fields : List (String × Json)} {v : Json}
    (hwrite : Json.find? fields "allow_state_write" = none)
    (hreintegration : Json.find? fields "allow_reintegration" = some v) :
    unpackDecision (.obj fields) = .ok v := by
  simp only [unpackDecision, pyContains, pyItem, hwrite, hreintegration]
  rfl

/-- The combined package is passed through, whoever reads it. -/
theorem unpackDecision_admission {v : Json} (h : PolicyCall.Settled .admission K input v) :
    unpackDecision v = .ok v := by
  obtain ⟨fields, rfl, hwrite, hreintegration⟩ := h
  exact unpackDecision_both (by rw [hwrite]; rfl) (by rw [hreintegration]; rfl)

/-- What the WASM code makes of the value of a query. -/
theorem readWasm_value {v : Json} (hv : PolicyCall.Settled c K input v) {sets : List Json}
    {fields : List (String × Json)} (hr : wasmResultSets r = .obj fields :: sets)
    (hfield : Json.find? fields "result" = some v) : readWasm r = .ok v := by
  have hget : pyGet (.obj fields) "result" (.bool false) = .ok v := by
    rw [pyGet, hfield]
    rfl
  rw [readWasm, hr]
  change (pyGet _ _ _ >>= _) = _
  rw [hget]
  cases c with
  | admission =>
    have hpass := unpackDecision_admission hv
    obtain ⟨fields', rfl, -⟩ := hv
    exact hpass
  | integrity =>
    obtain rfl := hv
    rfl
  | verification =>
    obtain rfl := hv
    rfl

theorem readWasm_ok (h : WasmShape (c.value K input) r) :
    ∃ v, readWasm r = .ok v ∧ PolicyCall.Settled c K input v := by
  obtain ⟨v, hv⟩ : ∃ v, c.value K input = some v := by cases c <;> exact ⟨_, rfl⟩
  have hd := settled_value hv
  simp only [WasmShape, hv] at h
  rcases h with ⟨fields, sets, rfl, hfield⟩ | ⟨rfl, hbare⟩
  · exact ⟨v, readWasm_value hd rfl hfield, hd⟩
  · have hsets : wasmResultSets r = [.obj [("result", r)]] := by
      cases r with
      | arr xs => exact absurd rfl (hbare xs)
      | _ => rfl
    exact ⟨r, readWasm_value hd hsets rfl, hd⟩

theorem readEval_ok (h : EvalShape (c.value K input) r) :
    ∃ v, readEval r = .ok v ∧ PolicyCall.Settled c K input v := by
  obtain ⟨v, hv⟩ : ∃ v, c.value K input = some v := by cases c <;> exact ⟨_, rfl⟩
  have hd := settled_value hv
  obtain ⟨fields, rfl, hshape⟩ := h
  rw [hv] at hshape
  obtain ⟨set, sets, expression, expressions, hsets, hexpressions, hvalue⟩ := hshape
  refine ⟨v, ?_, hd⟩
  simp only [readEval, pyGet, hsets, Option.getD_some, pyFirst, hexpressions, hvalue, bind,
    Except.bind]

/-- The rules of a package are not those of its test file. -/
theorem find?_document {document doc : List (String × Json)}
    (h : ∀ name : String, ¬ "test_".toList <+: name.toList →
      Json.find? doc name = Json.find? document name) :
    Json.find? doc "allow_state_write" = Json.find? document "allow_state_write" ∧
      Json.find? doc "allow_reintegration" = Json.find? document "allow_reintegration" :=
  ⟨h _ (by decide), h _ (by decide)⟩

/-- A rule without `default` is none of the decisions. -/
theorem find?_append_entryIf {fields : List (String × Json)} {name key : String} {b : Bool}
    (h : name ≠ key) : Json.find? (fields ++ entryIf name b) key = Json.find? fields key := by
  rw [Json.find?, Json.find?, entryIf, List.find?_append]
  cases b with
  | true => simp [h]
  | false => simp

theorem readRest_ok (h : RestShape (c.document K input) r) :
    ∃ v, readRest r = .ok v ∧ PolicyCall.Settled c K input v := by
  obtain ⟨fields, doc, rfl, hresult, hdoc⟩ := h
  obtain ⟨hwrite, hreintegration⟩ := find?_document hdoc
  have hread : readRest (.obj fields) = unpackDecision (.obj doc) := by
    simp only [readRest, pyGet, hresult, Option.getD_some, bind, Except.bind]
  rw [hread]
  cases c with
  | admission =>
    have hw : Json.find? doc "allow_state_write" =
        some (.bool (Admission.allowStateWrite K input)) := hwrite
    have hr : Json.find? doc "allow_reintegration" =
        some (.bool (Admission.allowReintegration K input)) := hreintegration
    have hd : PolicyCall.Settled .admission K input (.obj doc) := ⟨doc, rfl, hw, hr⟩
    exact ⟨_, unpackDecision_admission hd, hd⟩
  | integrity =>
    have hw : Json.find? doc "allow_state_write" =
        some (.bool (Integrity.allowStateWrite K input)) := hwrite
    have hr : Json.find? doc "allow_reintegration" = none := by
      rw [hreintegration, PolicyCall.document, Integrity.document]
      iterate 4 rw [find?_append_entryIf (by decide)]
      rfl
    exact ⟨_, unpackDecision_write hw hr, rfl⟩
  | verification =>
    have hw : Json.find? doc "allow_state_write" = none := by
      rw [hwrite, PolicyCall.document, Verification.document]
      iterate 4 rw [find?_append_entryIf (by decide)]
      rfl
    have hr : Json.find? doc "allow_reintegration" =
        some (.bool (Verification.allowReintegration K input)) := hreintegration
    exact ⟨_, unpackDecision_reintegration hw hr, rfl⟩

end Reads

/-- **Every transport is worth the same**: whatever the engine answers, what is read of it is the
decision Rego makes. -/
theorem Engine.opa_ok {K : Compound} {e : Engine} (he : e.Sound K) {t : Transport} {c : PolicyCall}
    {input r : Json} (hr : e t c input = .ok r) :
    ∃ v, e.opa t c input = .ok v ∧ PolicyCall.Settled c K input v := by
  have hread : ∃ v, t.read r = .ok v ∧ PolicyCall.Settled c K input v := by
    have hdoc := he t c input r hr
    cases t with
    | wasm => exact readWasm_ok hdoc
    | bundle => exact readEval_ok hdoc
    | subprocess => exact readEval_ok hdoc
    | rest => exact readRest_ok hdoc
  obtain ⟨v, hv, hd⟩ := hread
  refine ⟨v, ?_, hd⟩
  simp only [Engine.opa, evaluateOpaPolicy, hr, hv]

end GovernorGateway
