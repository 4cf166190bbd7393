/-
# Configuration, the outside world, and exceptions

`Settings` are the fields of `src/config.py` the handlers read.  One of them is not a constant of
the program: `RECOVERY_ADAPTER_PUBLIC_KEY` is ASSIGNED by the recovery paths, so it lives in the
run-time state and not here.

`Env` is what the code imports from outside the repository and uses as a function: the hash, the
token decoder and the signature check.  What it asks of the outside world at a moment of its run
(the time, a fresh uuid, a policy verdict, an answer of the recovery adapter) is a call
(`Backend.lean`).
-/
import GovernorGateway.Payload

namespace GovernorGateway

/-- `ENFORCEMENT_MODE`: the code compares with `"shadow"` and treats any other text as
enforcement. -/
inductive EnforcementMode where
  | shadow
  | enforce
  deriving DecidableEq

structure Settings where
  enforcementMode : EnforcementMode := .shadow
  maxTraversalDepth : Int := 1000
  maxPayloadBytes : ℕ := 2 * 1024 * 1024
  recoveryAdapterUrl : Option String := none
  opaPolicyBundle : Option String := none
  continuationHorizonSeconds : ℕ := 86400
  maxWithdrawalAmplification : Int := 100
  recurrenceSignalRateLimit : Int := 10
  recurrenceSignalGlobalLimit : Int := 100
  designationRateLimit : Int := 20
  continuityEnabled : Bool := true
  debugMode : Bool := false

/-- `if settings.RECOVERY_ADAPTER_URL:`. -/
def Settings.hasAdapter (s : Settings) : Bool := s.recoveryAdapterUrl.getD "" ≠ ""

structure Env where
  /-- `hashlib.sha256(text.encode()).hexdigest()`. -/
  sha256 : String → String
  /-- `jwt.decode(token, JWT_PUBLIC_KEY, algorithms=["ES256"])` at a moment (a token can have
  expired), or the text of what it raised. -/
  jwtDecode : Time → String → Except String Claims
  /-- Public key, signature and message, all as text: key and signature load and the signature
  is valid. -/
  ecdsaVerify : String → String → String → Bool
  /-- `text.lower()`, by the tables of Unicode. -/
  lower : String → String

/-- The `detail` of an HTTP error. -/
inductive Detail where
  | text (s : String)
  | taintedCovers (ids : List NodeId)
  deriving DecidableEq

/-- What a handler can raise. -/
inductive Exc where
  /-- `HTTPException(status_code, detail)`. -/
  | http (status : ℕ) (detail : Detail)
  /-- `PolicyEvaluationError`. -/
  | policy (message : String)
  /-- `httpx.ReadTimeout`. -/
  | readTimeout
  /-- Any other exception: the framework answers 500. -/
  | other (message : String)
  deriving DecidableEq

/-- `HTTPException` with a plain text. -/
def Exc.text (status : ℕ) (s : String) : Exc := .http status (.text s)

/-! ## Credentials and signatures -/

section Checks

variable (env : Env) (now : Time)

/-- `verify_nhi_jwt`: the token decodes and speaks for the payload's identity. -/
def verifyNhiJwt (token identity : Option String) : Except Exc Claims :=
  match env.jwtDecode now (token.getD "") with
  | .error e => .error (.text 401 ("Invalid Session Token: " ++ e))
  | .ok claims =>
    if claims.sub = identity then .ok claims
    else .error (.text 401 "Invalid Session Token: JWT subject does not match payload identity")

/-- `auth_header.split(" ")[1]`. -/
def bearerToken (header : String) : String :=
  let space := Char.ofNat 32
  String.ofList (((header.toList.dropWhile (· ≠ space)).drop 1).takeWhile (· ≠ space))

/-- `verify_role_jwt`: a bearer token with the required role. -/
def verifyRoleJwt (header : Option String) (role : String) : Except Exc Claims :=
  match header with
  | none => .error (.text 401 "Missing or invalid token")
  | some h =>
    if "Bearer ".toList.isPrefixOf h.toList then
      match env.jwtDecode now (bearerToken h) with
      | .error e => .error (.text 401 ("Unauthorized: " ++ e))
      | .ok claims =>
        if claims.role = some role then .ok claims
        else .error (.text 401 ("Unauthorized: Token must have \x27" ++ role ++ "\x27 role"))
    else .error (.text 401 "Missing or invalid token")

/-- The hash the signature and `content_digest_sha256` are taken over. -/
def contentHash (content : List (String × Json)) : String := env.sha256 (Json.obj content).dumps

/-- `verify_cryptographic_signature`: the declared digest is that of the content, and the agent's
signature of the digest is valid for the payload's identity. -/
def verifyCryptographicSignature (p : Payload) : Bool :=
  match p.agentSignature with
  | none => false
  | some sig =>
    sig ≠ "" && decide (p.contentDigest = some (contentHash env p.stateContent)) &&
      (match p.identityId with
       | none => false
       | some key => env.ecdsaVerify key sig (contentHash env p.stateContent))

end Checks

end GovernorGateway
