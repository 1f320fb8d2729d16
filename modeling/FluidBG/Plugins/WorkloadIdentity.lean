import FluidBG.Plugins.ApiUrls
/-!
# Tokens of a workload identity

`azure_identity.rs` of the operator, and the same in `servicebus.rs` of the Azure Service Bus
plugin: the request for a token, and the cache that keeps it until five minutes before its end. The
plugin has two caches, one for each scope it asks for. A cache is locked for the whole of a call, so
the calls on it come one after the other.
-/

set_option autoImplicit false

namespace FluidBG.Identity

open Lib

/-! ## Calls -/

structure TokenResponse where
  accessToken : String
  expiresIn : Option Int

/-- A response to a token request: its status, its body, and what the body is as JSON. -/
structure TokenReply where
  status : Nat
  text : String
  token : Except String TokenResponse

inductive IdentityCall where
  /-- `std::fs::read_to_string`. -/
  | readTokenFile (path : String)
  /-- A request with a form as its body. -/
  | postForm (url form : String)
  | now

/-- Errors are their texts. -/
@[reducible] def IdentityAnswer : IdentityCall → Type
  | .readTokenFile _ => Except String String
  | .postForm _ _ => Except String TokenReply
  | .now => Timestamp

abbrev IdentityOp := Prog IdentityCall IdentityAnswer

/-! ## Requests -/

/-- The errors of a token request. -/
structure TokenErrors (ε : Type) where
  file : String → String → ε
  send : String → ε
  status : Nat → String → ε
  decode : String → ε

structure CachedToken where
  accessToken : String
  expiresAt : Timestamp
  deriving DecidableEq

/-- `Duration::seconds`. -/
def seconds (n : Int) : Int := n * 1000000000

section Request

variable {ε : Type} (errors : TokenErrors ε) (config : WorkloadIdentityConfig) (scope : String)

/-- What a response is good for. -/
def tokenOfReply (reply : TokenReply) : IdentityOp ε CachedToken :=
  if !isSuccess reply.status then .fail (errors.status reply.status reply.text)
  else match reply.token with
    | .error text => .fail (errors.decode text)
    | .ok token => do
      let now ← Prog.ask IdentityCall.now
      pure ⟨token.accessToken, now + seconds (token.expiresIn.getD 3600)⟩

def requestToken : IdentityOp ε CachedToken := do
  match ← Prog.ask (IdentityCall.readTokenFile config.tokenFile) with
  | .error text => .fail (errors.file config.tokenFile text)
  | .ok assertion => do
    match ← Prog.ask (IdentityCall.postForm config.tokenUrl (config.tokenForm scope assertion)) with
    | .error text => .fail (errors.send text)
    | .ok reply => tokenOfReply errors reply

def freshToken : IdentityOp ε (String × Option CachedToken) := do
  let fresh ← requestToken errors config scope
  pure (fresh.accessToken, some fresh)

/-- A token from the cache, or a new one, and the cache afterwards. -/
def tokenFrom (cache : Option CachedToken) : IdentityOp ε (String × Option CachedToken) :=
  match cache with
  | none => freshToken errors config scope
  | some cached => do
    let now ← Prog.ask IdentityCall.now
    if now + seconds 300 < cached.expiresAt then pure (cached.accessToken, some cached)
    else freshToken errors config scope

end Request

/-! ## The operator -/

def storeErrors : TokenErrors StoreError where
  file path text := .other s!"failed to read federated token file '{path}': {text}"
  send text := .other s!"workload identity token request failed: {text}"
  status status text := .other s!"workload identity token request failed: {status} {text}"
  decode text := .other s!"failed to decode workload identity token: {text}"

def requestWorkloadIdentityToken : WorkloadIdentityConfig → String →
    IdentityOp StoreError CachedToken :=
  requestToken storeErrors

/-- `TokenProvider::access_token`. -/
def accessToken : WorkloadIdentityConfig → String → Option CachedToken →
    IdentityOp StoreError (String × Option CachedToken) :=
  tokenFrom storeErrors

end FluidBG.Identity

/-! ## The plugin -/

namespace FluidBG.ServiceBus

open Lib Identity

/-- The texts of `anyhow`; the cause of a file error is not part of its text. -/
def tokenErrors : TokenErrors String where
  file path _ := s!"failed to read federated token file '{path}'"
  send text := text
  status status text := s!"workload identity token request failed: {status} {text}"
  decode text := text

/-- The two scopes the client asks for. -/
inductive Scope where
  | serviceBus
  | arm
  deriving DecidableEq, Repr

def Scope.text : Scope → String
  | .serviceBus => "https://servicebus.azure.net/.default"
  | .arm => "https://management.azure.com/.default"

/-- `service_bus_token` and `arm_token`. -/
structure TokenCaches where
  serviceBus : Option CachedToken
  arm : Option CachedToken

namespace TokenCaches

def empty : TokenCaches := ⟨none, none⟩

def get (caches : TokenCaches) : Scope → Option CachedToken
  | .serviceBus => caches.serviceBus
  | .arm => caches.arm

def set (caches : TokenCaches) (scope : Scope) (cache : Option CachedToken) : TokenCaches :=
  match scope with
  | .serviceBus => { caches with serviceBus := cache }
  | .arm => { caches with arm := cache }

@[simp] theorem get_set (caches : TokenCaches) (scope : Scope) (cache : Option CachedToken) :
    (caches.set scope cache).get scope = cache := by
  cases scope <;> rfl

theorem get_set_of_ne (caches : TokenCaches) {scope other : Scope} (h : other ≠ scope)
    (cache : Option CachedToken) : (caches.set scope cache).get other = caches.get other := by
  cases scope <;> cases other <;> first | rfl | exact absurd rfl h

end TokenCaches

/-- `authorization_header` of a workload identity. -/
def workloadIdentityHeader (config : WorkloadIdentityConfig) (caches : TokenCaches)
    (scope : Scope) : IdentityOp String (String × TokenCaches) := do
  let answer ← tokenFrom tokenErrors config scope.text (caches.get scope)
  pure (s!"Bearer {answer.1}", caches.set scope answer.2)

end FluidBG.ServiceBus
