import FluidBG.Controller.PluginLifecycle
import FluidBG.Inceptor
import FluidBG.Plugins.Http
import FluidBG.Plugins.HttpFilters
/-!
# The proxy of the HTTP plugin

`proxy_handler` of `handlers.rs`, from the admission of a request to its response. A request whose
body the plugin may have to look at is read into memory first; any other one is streamed through.
-/

set_option autoImplicit false

namespace FluidBG.Http

open Lib

/-! ## Requests and responses -/

/-- What the crates `http` and `reqwest` say of header values. -/
structure ProxyCrate extends HttpCrate where
  HeaderValue : Type
  toStr : HeaderValue → Option String
  isText_of_toStr : ∀ value s, toStr value = some s → isText s = true

/-- The `HeaderMap` of a request, in the order of its iteration. -/
structure RequestHeaders (crate : ProxyCrate) where
  entries : List (String × crate.HeaderValue)
  name_of_mem : ∀ entry ∈ entries, ∃ s, crate.headerName s = some entry.1

/-- The headers as the filters see them. -/
def RequestHeaders.texts {crate : ProxyCrate} (headers : RequestHeaders crate) :
    HeaderMap crate.toHttpCrate where
  entries := headers.entries.map fun entry => (entry.1, crate.toStr entry.2)
  name_of_mem := by
    intro entry hentry
    obtain ⟨raw, hraw, rfl⟩ := List.mem_map.mp hentry
    exact headers.name_of_mem raw hraw
  text_of_mem := by
    intro entry hentry v hv
    obtain ⟨raw, -, rfl⟩ := List.mem_map.mp hentry
    exact crate.isText_of_toStr raw.2 v hv

/-- A body as it arrives: its chunks, and whether reading fails after them. -/
structure Body where
  chunks : List (List Nat)
  broken : Bool
  deriving DecidableEq

def Body.bytes (body : Body) : List Nat := body.chunks.flatten

/-- The loop of `axum::body::to_bytes`, with what is left of its limit. -/
def collectChunks (broken : Bool) : Nat → List (List Nat) → Option (List Nat)
  | _, [] => if broken then none else some []
  | left, chunk :: chunks =>
    if left < chunk.length then none
    else (collectChunks broken (left - chunk.length) chunks).map (chunk ++ ·)

/-- `axum::body::to_bytes(body, limit)`. -/
def Body.toBytes (body : Body) (limit : Nat) : Option (List Nat) :=
  collectChunks body.broken limit body.chunks

def bodyLimit : Nat := 10 * 1024 * 1024

structure ProxyRequest (crate : ProxyCrate) where
  method : String
  pathAndQuery : String
  headers : RequestHeaders crate

inductive BodyPayload where
  | buffered (bytes : List Nat)
  | streaming (body : Body)
  deriving DecidableEq

/-- What `forward_raw_request` sends. -/
structure ClientRequest (crate : ProxyCrate) where
  method : String
  url : String
  headers : List (String × crate.HeaderValue)
  /-- The headers the plugin adds, which are not header values yet. -/
  extraHeaders : List (String × String)
  body : BodyPayload

structure ClientResponse (crate : ProxyCrate) where
  status : Nat
  headers : List (String × crate.HeaderValue)
  body : Body

inductive ProxyResponse (crate : ProxyCrate) where
  | plain (status : Nat) (body : String)
  | upstream (response : ClientResponse crate)

/-! ## Calls -/

inductive ProxyCall (crate : ProxyCrate) where
  /-- What the runtime of the SDK sends. -/
  | runtime (call : WorkCall)
  /-- `req_builder.send()`. -/
  | send (request : ClientRequest crate)

@[reducible] def ProxyAnswer {crate : ProxyCrate} : ProxyCall crate → Type
  | .runtime call => WorkAnswer call
  | .send _ => Option (ClientResponse crate)

abbrev ProxyOp (crate : ProxyCrate) := Prog (ProxyCall crate) ProxyAnswer Unit

/-! ## State -/

structure ProxyState where
  crates : WorkerCrates
  config : Config
  roles : List PluginRole
  runtime : InceptorRuntime
  /-- `FLUIDBG_TEST_CONTAINER_URL`, or the empty text where it is not set. -/
  testContainerEnv : String
  trafficPercent : Nat

def resolveRuntimeEndpointWith (endpoint testContainerUrl : String) : String :=
  (endpoint.replace "\x7b\x7btestContainerUrl\x7d\x7d" testContainerUrl).replace
    "\x7btestContainerUrl\x7d" testContainerUrl

namespace ProxyState

def resolveRuntimeEndpoint (state : ProxyState) (endpoint : String) : String :=
  resolveRuntimeEndpointWith endpoint state.testContainerEnv

def routedProxyTarget (state : ProxyState) (route : TrafficRoute) : Option String :=
  (match route with
    | .blue => state.config.blueEndpoint.or state.config.realEndpoint
    | .green => state.config.greenEndpoint.or state.config.realEndpoint
    | _ => state.config.realEndpoint).map state.resolveRuntimeEndpoint

def verifierBaseUrl (state : ProxyState) : String :=
  (state.config.verifierEndpoint.map state.resolveRuntimeEndpoint).getD
    state.runtime.testContainerUrl

end ProxyState

/-! ## Forwarding -/

/-- `path_and_query.split_once('?')`. -/
def splitQuery (pathAndQuery : String) : String × Option String :=
  let path := pathAndQuery.toList.takeWhile (· ≠ '?')
  (String.ofList path, match pathAndQuery.toList.drop path.length with
    | _ :: query => some (String.ofList query)
    | [] => none)

def joinTargetUrl (base pathAndQuery : String) : String :=
  let (path, query) := splitQuery pathAndQuery
  let base := trimEndSlashes base
  let joined := if path = "" || path = "/" then base else base ++ path
  match query with
  | some query => if query ≠ "" then joined ++ "?" ++ query else joined
  | none => joined

def asciiLower (s : String) : String := String.ofList (s.toList.map Char.toLower)

def isHopByHopHeader (name : String) : Bool :=
  asciiLower name ∈ ["connection", "keep-alive", "proxy-authenticate", "proxy-authorization", "te",
    "trailer", "transfer-encoding", "upgrade"]

def shouldForwardRequestHeader (name : String) : Bool :=
  !isHopByHopHeader name && name ≠ "host" && name ≠ "content-length"

def shouldForwardResponseHeader (name : String) : Bool :=
  !isHopByHopHeader name && name ≠ "content-length" && name ≠ "transfer-encoding"

def isAuthorization (name : String) : Bool := asciiLower name = "authorization"

section Forwarding

variable {crate : ProxyCrate}

/-- The headers of a request that `forward_raw_request` passes on. -/
def forwardedHeaders (headers : RequestHeaders crate) (extraHeaders : List (String × String)) :
    List (String × crate.HeaderValue) :=
  let overridesAuthorization := extraHeaders.any fun header => isAuthorization header.1
  headers.entries.filter fun entry =>
    !(overridesAuthorization && isAuthorization entry.1) && shouldForwardRequestHeader entry.1

/-- The request that `forward_raw_request` builds. A method parses as itself. -/
def clientRequest (request : ProxyRequest crate) (url : String) (body : BodyPayload)
    (extraHeaders : List (String × String)) : ClientRequest crate where
  method := request.method
  url := url
  headers := forwardedHeaders request.headers extraHeaders
  extraHeaders := extraHeaders
  body := body

def responseFromReqwest (response : ClientResponse crate) : ProxyResponse crate :=
  .upstream { response with
    headers := response.headers.filter fun header => shouldForwardResponseHeader header.1 }

/-- The sending of `forward_raw_request`: a request that could not be built is not sent, and that
is an error of `send` as well. -/
def forwardRawRequest (request : ClientRequest crate) : ProxyOp crate (ProxyResponse crate) := do
  match ← Prog.ask (ProxyCall.send request) with
  | some response => pure (responseFromReqwest response)
  | none => pure (.plain 502 "upstream error")

def verifierHeaders (state : ProxyState) (testId : String) (route : TrafficRoute) :
    List (String × String) :=
  (match state.runtime.authToken with
    | some token => [("authorization", bearerValue token)]
    | none => []) ++
  [("x-fluidbg-test-id", testId), ("x-fluidbg-inception-point", state.runtime.inceptionPoint),
    ("x-fluidbg-blue-green-ref", state.runtime.blueGreenRef), ("x-fluidbg-route", route.asStr)]

/-! ## Where a request goes -/

/-- `filter.mock_path` or that of the configuration. -/
def mockPath (config : Config) (filter : Option NotificationFilter) : Option String :=
  (filter.bind (·.mockPath)).or config.mockPath

def shouldMockRequest (config : Config) (filter : Option NotificationFilter) : Bool :=
  (mockPath config filter).isSome

/-- A URL under the verifier. -/
def verifierUrl (state : ProxyState) (path testId : String) : String :=
  trimEndSlashes state.verifierBaseUrl ++
    InceptorRuntime.renderPath path testId state.runtime.inceptionPoint

/-- The request of `forward_mock_request` and of `forward_mock_streaming_request`, or their error
response. -/
def mockTarget (state : ProxyState) (filter : Option NotificationFilter) (testId : Option String)
    (route : TrafficRoute) (request : ProxyRequest crate) (body : BodyPayload) :
    Except (ProxyResponse crate) (ClientRequest crate) :=
  match mockPath state.config filter with
  | none => .error (.plain 502 "mockPath not configured for HTTP mock role")
  | some path =>
    let testId := testId.getD "unknown"
    .ok (clientRequest request (verifierUrl state path testId) body
      (verifierHeaders state testId route))

/-- The request to the endpoint of a route, or the error response. -/
def proxyTarget (state : ProxyState) (route : TrafficRoute) (request : ProxyRequest crate)
    (body : BodyPayload) : Except (ProxyResponse crate) (ClientRequest crate) :=
  match state.routedProxyTarget route with
  | none => .error (.plain 502 "realEndpoint not configured")
  | some endpoint =>
    .ok (clientRequest request (joinTargetUrl endpoint request.pathAndQuery) body [])

/-- The end of the handler. -/
def forwardTo (target : Except (ProxyResponse crate) (ClientRequest crate)) :
    ProxyOp crate (ProxyResponse crate) :=
  match target with
  | .error response => .pure response
  | .ok request => forwardRawRequest request

/-! ## Bodies that are streamed -/

def conditionsUseBody (conditions : List FilterCondition) : Bool :=
  conditions.any fun condition => condition.field = "http.body"

def filterUsesBody (filter : NotificationFilter) : Bool := conditionsUseBody filter.conditions

def selectorUsesBody (selector : Option TestIdSelector) : Bool :=
  (selector.bind (·.field)).any fun field => field = "http.body"

def configUsesBody (config : Config) : Bool :=
  selectorUsesBody config.testId || conditionsUseBody config.conditions ||
    config.filters.any filterUsesBody ||
    config.ingress.any (fun direction => direction.filters.any filterUsesBody) ||
    config.egress.any (fun direction => direction.filters.any filterUsesBody)

def requestRequiresBuffer (state : ProxyState) : Bool :=
  hasRole state.roles .splitter || hasRole state.roles .observer || configUsesBody state.config

/-- `matches_without_body`. -/
def matchesWithoutBody (state : ProxyState) (request : ProxyRequest crate) : Bool :=
  matched state.crates.isMatch state.config request.method request.pathAndQuery
    request.headers.texts .null

def filterWithoutBody (state : ProxyState) (request : ProxyRequest crate) :
    Option NotificationFilter :=
  matchingFilter state.crates.isMatch state.config request.method request.pathAndQuery
    request.headers.texts .null

/-- The streaming branch of `proxy_handler`. -/
def streamingTarget (state : ProxyState) (request : ProxyRequest crate) (body : Body) :
    Except (ProxyResponse crate) (ClientRequest crate) :=
  if matchesWithoutBody state request && hasRole state.roles .mock
      && shouldMockRequest state.config (filterWithoutBody state request) then
    mockTarget state (filterWithoutBody state request)
      (state.config.testId.bind fun selector =>
        extractTestId selector .null request.pathAndQuery request.headers.texts)
      .blue request (.streaming body)
  else proxyTarget state .blue request (.streaming body)

/-! ## Bodies that are read first -/

/-- `serde_json::from_slice(&body_bytes).unwrap_or(Value::Null)`. -/
def bodyJson (state : ProxyState) (bytes : List Nat) : Json :=
  (state.crates.parseSlice bytes).getD .null

def bodyRoute (state : ProxyState) (bytes : List Nat) : TrafficRoute :=
  if hasRole state.roles .splitter then
    if routesToBlue state.crates bytes (min state.trafficPercent 100) then .blue else .green
  else .blue

def bodyMatched (state : ProxyState) (request : ProxyRequest crate) (bytes : List Nat) : Bool :=
  matched state.crates.isMatch state.config request.method request.pathAndQuery
    request.headers.texts (bodyJson state bytes)

def bodyFilter (state : ProxyState) (request : ProxyRequest crate) (bytes : List Nat) :
    Option NotificationFilter :=
  matchingFilter state.crates.isMatch state.config request.method request.pathAndQuery
    request.headers.texts (bodyJson state bytes)

def bodyTestId (state : ProxyState) (request : ProxyRequest crate) (bytes : List Nat) :
    Option String :=
  state.config.testId.bind fun selector =>
    extractTestId selector (bodyJson state bytes) request.pathAndQuery request.headers.texts

/-- What the observer tells the verifier: where to, and what. A request that matches no filter, or
one without a notify path, is not told. -/
def bodyNotice (state : ProxyState) (request : ProxyRequest crate) (bytes : List Nat) :
    Option (String × ObservationNotification) :=
  if bodyMatched state request bytes && hasRole state.roles .observer then
    (bodyTestId state request bytes).bind fun testId =>
      ((bodyFilter state request bytes).bind (·.notifyPath)).map fun path =>
        (verifierUrl state path testId,
          ⟨testId, state.runtime.inceptionPoint, (bodyRoute state bytes).asStr,
            bodyJson state bytes⟩)
  else none

def bodyTarget (state : ProxyState) (request : ProxyRequest crate) (bytes : List Nat) :
    Except (ProxyResponse crate) (ClientRequest crate) :=
  if bodyMatched state request bytes && hasRole state.roles .mock
      && shouldMockRequest state.config (bodyFilter state request bytes) then
    mockTarget state (bodyFilter state request bytes) (bodyTestId state request bytes)
      (bodyRoute state bytes) request (.buffered bytes)
  else proxyTarget state (bodyRoute state bytes) request (.buffered bytes)

/-- `notify_observer_with_client`, one attempt. -/
def notifyObserverWithClient (state : ProxyState) (url : String)
    (notification : ObservationNotification) : ProxyOp crate Bool := do
  match ← Prog.ask (ProxyCall.runtime (.notify url notification state.runtime.authToken)) with
  | some status => pure !isErrorStatus status
  | none => pure false

/-- `state.runtime.register_test_case`, whose failure is only logged. -/
def registerObserved (state : ProxyState) (testId : String) : ProxyOp crate Unit := do
  let (_ : Except Unit Unit) ← ((state.runtime.registerTestCase testId).lift
    (@ProxyCall.runtime crate) fun _ answer => answer).result
  pure ()

/-- The observer's part of the handler. -/
def observe (state : ProxyState) (route : TrafficRoute)
    (notice : Option (String × ObservationNotification)) : ProxyOp crate Unit :=
  match notice with
  | none => .pure ()
  | some (url, notification) => do
    let verifierNotified ← notifyObserverWithClient state url notification
    if verifierNotified && route.shouldRegisterCase then
      registerObserved state notification.testId
    else pure ()

/-- The handler from the bytes of the body on. -/
def proxyBytes (state : ProxyState) (request : ProxyRequest crate) (bytes : List Nat) :
    ProxyOp crate (ProxyResponse crate) := do
  observe state (bodyRoute state bytes) (bodyNotice state request bytes)
  forwardTo (bodyTarget state request bytes)

/-- The buffered branch of `proxy_handler`. -/
def proxyBuffered (state : ProxyState) (request : ProxyRequest crate) (body : Body) :
    ProxyOp crate (ProxyResponse crate) :=
  proxyBytes state request ((body.toBytes bodyLimit).getD [])

/-- What `proxy_handler` does with a request it has admitted. -/
def proxyAdmitted (state : ProxyState) (request : ProxyRequest crate) (body : Body) :
    ProxyOp crate (ProxyResponse crate) :=
  if requestRequiresBuffer state then proxyBuffered state request body
  else forwardTo (streamingTarget state request body)

end Forwarding

end FluidBG.Http
