import FluidBG.Controller.Resources
/-!
# The operator's HTTP API

`http_api.rs`: the handlers through which inceptors register test cases and report verdicts, and
the checks of `sdk/rust/src/auth.rs` they rest on. A handler is given the `Authorization` header as
text, when there is one that is text, and the decoded body.
-/

set_option autoImplicit false

namespace FluidBG

open Lib

/-! ## Bearer tokens -/

/-- `header_value.strip_prefix("Bearer ")`. -/
def bearerToken (headerValue : String) : Option String :=
  if "Bearer ".toList.isPrefixOf headerValue.toList then
    some (String.ofList (headerValue.toList.drop 7))
  else none

/-- Equality that looks at every byte. -/
def constantTimeEq (left right : List Nat) : Bool :=
  if left.length ≠ right.length then false
  else (left.zip right).foldl (fun acc bytes => acc ||| (bytes.1 ^^^ bytes.2)) 0 = 0

def bearerMatches (headerValue expectedToken : Option String) : Bool :=
  match expectedToken with
  | none => false
  | some expectedToken =>
    if expectedToken = "" then false
    else match headerValue with
      | none => false
      | some headerValue => match bearerToken headerValue with
        | some actual => constantTimeEq (utf8Bytes actual) (utf8Bytes expectedToken)
        | none => false

/-- `validate_plugin_auth`: the claims of a token the operator has signed. -/
def validatePluginAuth (ctx : Ctx) (headerValue : Option String) :
    Op (Except String (Option PluginAuthClaims)) :=
  match headerValue.bind bearerToken with
  | none => pure (.ok none)
  | some token => do
    match ← (validateInceptionAuthToken ctx token).result with
    | .ok claims => pure (.ok claims)
    | .error (err : ReconcileError) => pure (.error err.text)

/-! ## Requests and responses -/

structure RegisterTestCaseRequest where
  testId : String
  blueGreenRef : String
  inceptionPoint : String
  triggeredAt : Option Timestamp
  timeoutSeconds : Option Int
  verifyUrl : Option String
  deriving DecidableEq

structure VerdictRequest where
  testId : String
  blueGreenRef : Option String
  passed : Bool
  deriving DecidableEq

/-- `RegisterTestCaseResponse` and `VerdictResponse`. -/
structure TestCaseResponse where
  testId : String
  status : String
  deriving DecidableEq

structure CountsResponse where
  blueGreenRef : String
  counts : Counts
  deriving DecidableEq

/-- A status code with a body. -/
structure Response (α : Type) where
  code : Nat
  body : α
  deriving DecidableEq

/-! ## Authorization -/

def claimsMatchRequest (claims : PluginAuthClaims) (req : RegisterTestCaseRequest) : Bool :=
  claims.blueGreenRef = req.blueGreenRef && claims.inceptionPoint = req.inceptionPoint

def verdictAuthorized (headerValue : Option String) (record : TestCaseRecord) : Bool :=
  bearerMatches headerValue (some record.verifierAuthToken)

def stateKeyForAuthorizedRef (claims : PluginAuthClaims) (requestedRef : String) :
    Option String :=
  let stateKey := blueGreenStateKey claims.ns claims.blueGreenRef
  if requestedRef = claims.blueGreenRef ∨ requestedRef = stateKey then some stateKey else none

/-- The rollout is over for new cases. -/
def registrationClosed (bgd : BlueGreenDeployment) : Bool :=
  bgd.metadata.deletionTimestamp.isSome || bgd.phase = some .completed ||
    bgd.phase = some .rolledBack

/-- `validate_registration_bgd`; a refusal is a status code with a text. -/
def validateRegistrationBgd (claims : PluginAuthClaims) (req : RegisterTestCaseRequest) :
    Op (Except (Nat × String) Unit) :=
  match claims.blueGreenUid.filter fun uid => uid ≠ "" with
  | none => pure (.error (401, "Unauthorized"))
  | some claimUid => do
    match ← Op.ask (.getBgd claims.ns req.blueGreenRef) with
    | .error (.notFound _) => pure (.error (410, "BlueGreenDeploymentGone"))
    | .error other => pure (.error (500, s!"BlueGreenDeploymentLookupFailed: {other.text}"))
    | .ok bgd =>
      if bgd.metadata.uid ≠ some claimUid then pure (.error (401, "Unauthorized"))
      else if registrationClosed bgd then pure (.error (410, "BlueGreenDeploymentTerminal"))
      else pure (.ok ())

/-! ## Handlers -/

/-- `Duration::seconds`, which panics out of its bounds: the request ends there. -/
def timeoutDuration (seconds : Int) : Except ReconcileError Int :=
  if seconds < -9223372036854775 ∨ 9223372036854775 < seconds then
    .error (.resource "TimeDelta::seconds out of bounds")
  else .ok (seconds * 1000000000)

/-- The record a request registers. -/
def registeredRecord (claims : PluginAuthClaims) (authHeader : Option String)
    (req : RegisterTestCaseRequest) (triggeredAt timeout : Int) : TestCaseRecord where
  testId := req.testId
  blueGreenRef := blueGreenStateKey claims.ns req.blueGreenRef
  triggeredAt := triggeredAt
  sourceInceptionPoint := req.inceptionPoint
  timeout := timeout
  status := .triggered
  verdict := none
  verificationMode := .data
  verifyUrl := req.verifyUrl.getD ""
  verifierAuthToken := (authHeader.bind bearerToken).getD ""
  retriesRemaining := 0
  failureMessage := none

/-- `req.triggered_at.unwrap_or_else(Utc::now)`. -/
def triggerTime (req : RegisterTestCaseRequest) : Op Timestamp :=
  match req.triggeredAt with
  | some time => pure time
  | none => Op.ask .now

/-- The part of `register_test_case` after its checks. -/
def storeTestCase (claims : PluginAuthClaims) (authHeader : Option String)
    (req : RegisterTestCaseRequest) : Op (Response TestCaseResponse) := do
  let triggeredAt ← triggerTime req
  let timeout ← Op.lift (timeoutDuration (req.timeoutSeconds.getD 60))
  match ← Op.ask (.register (registeredRecord claims authHeader req triggeredAt timeout)) with
  | .ok () => pure ⟨201, ⟨req.testId, "Triggered"⟩⟩
  | .error e => pure ⟨500, ⟨req.testId, s!"error: {e.text}"⟩⟩

def registerTestCase (ctx : Ctx) (authHeader : Option String) (req : RegisterTestCaseRequest) :
    Op (Response TestCaseResponse) := do
  match ← validatePluginAuth ctx authHeader with
  | .ok (some claims) =>
    if claimsMatchRequest claims req then
      match ← validateRegistrationBgd claims req with
      | .ok () => storeTestCase claims authHeader req
      | .error (code, status) => pure ⟨code, ⟨req.testId, status⟩⟩
    else pure ⟨401, ⟨req.testId, "Unauthorized"⟩⟩
  | .ok none => pure ⟨401, ⟨req.testId, "Unauthorized"⟩⟩
  | .error _ => pure ⟨401, ⟨req.testId, "Unauthorized"⟩⟩

/-- The part of `set_verdict` after the record was found. -/
def judgeRecord (authHeader : Option String) (stateKey : String) (req : VerdictRequest)
    (record : TestCaseRecord) : Op (Response TestCaseResponse) :=
  if verdictAuthorized authHeader record then do
    match ← Op.ask (.setVerdict stateKey req.testId req.passed none) with
    | .ok () => pure ⟨200, ⟨req.testId, if req.passed then "Passed" else "Failed"⟩⟩
    | .error e => pure ⟨404, ⟨req.testId, s!"error: {e.text}"⟩⟩
  else pure ⟨401, ⟨req.testId, "Unauthorized"⟩⟩

def setVerdict (ctx : Ctx) (authHeader : Option String) (req : VerdictRequest) :
    Op (Response TestCaseResponse) :=
  match req.blueGreenRef with
  | none => pure ⟨400, ⟨req.testId, "error: blue_green_ref is required"⟩⟩
  | some blueGreenRef => do
    match ← validatePluginAuth ctx authHeader with
    | .ok (some claims) => match stateKeyForAuthorizedRef claims blueGreenRef with
      | some stateKey => match ← Op.ask (.getCase stateKey req.testId) with
        | .ok (some record) => judgeRecord authHeader stateKey req record
        | .ok none => pure ⟨404, ⟨req.testId, "error: test case not found"⟩⟩
        | .error e => pure ⟨500, ⟨req.testId, s!"error: {e.text}"⟩⟩
      | none => pure ⟨401, ⟨req.testId, "Unauthorized"⟩⟩
    | .ok none => pure ⟨401, ⟨req.testId, "Unauthorized"⟩⟩
    | .error _ => pure ⟨401, ⟨req.testId, "Unauthorized"⟩⟩

def getCounts (ctx : Ctx) (authHeader : Option String) (bgRef : String) :
    Op (Response CountsResponse) := do
  match ← validatePluginAuth ctx authHeader with
  | .ok (some claims) => match stateKeyForAuthorizedRef claims bgRef with
    | some stateKey => match ← Op.ask (.counts stateKey) with
      | .ok counts => pure ⟨200, ⟨stateKey, counts⟩⟩
      | .error _ => pure ⟨500, ⟨stateKey, .zero⟩⟩
    | none => pure ⟨401, ⟨bgRef, .zero⟩⟩
  | .ok none => pure ⟨401, ⟨bgRef, .zero⟩⟩
  | .error _ => pure ⟨401, ⟨bgRef, .zero⟩⟩

/-- A request of one of the routes that reach the store. -/
inductive ApiRequest where
  | registerTestCase (req : RegisterTestCaseRequest)
  | setVerdict (req : VerdictRequest)
  | getCounts (bgRef : String)
  deriving DecidableEq

inductive ApiResponse where
  | testCase (response : Response TestCaseResponse)
  | counts (response : Response CountsResponse)
  deriving DecidableEq

/-- The handler `router` sends a request to. -/
def router (ctx : Ctx) (authHeader : Option String) : ApiRequest → Op ApiResponse
  | .registerTestCase req => .testCase <$> registerTestCase ctx authHeader req
  | .setVerdict req => .testCase <$> setVerdict ctx authHeader req
  | .getCounts bgRef => .counts <$> getCounts ctx authHeader bgRef

end FluidBG
