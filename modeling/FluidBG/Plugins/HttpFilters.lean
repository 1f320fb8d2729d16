import FluidBG.Plugins.Worker
/-!
# The filters of the HTTP plugin

`http.rs` of the SDK with `config.rs` and `filters.rs` of the HTTP plugin: the configuration of an
inception point, and what its filters and its test id read of a request. The filters stand in three
places of the configuration, and a request has to match those of the root and one of the others.
-/

set_option autoImplicit false

namespace FluidBG.Http

open Lib

/-! ## Requests -/

/-- What the crate `http` says of the headers of a request. -/
structure HttpCrate where
  /-- `HeaderName::from_bytes`: the name as it is kept, where it is one. -/
  headerName : String → Option String
  /-- What `HeaderValue::to_str` may yield. -/
  isText : String → Bool
  isText_empty : isText "" = true

/-- A `HeaderMap`; the value of a header that is not a text is `none`. -/
structure HeaderMap (crate : HttpCrate) where
  entries : List (String × Option String)
  name_of_mem : ∀ entry ∈ entries, ∃ s, crate.headerName s = some entry.1
  text_of_mem : ∀ entry ∈ entries, ∀ v, entry.2 = some v → crate.isText v = true

/-- `headers.get(key)` with `to_str`. -/
def HeaderMap.get {crate : HttpCrate} (headers : HeaderMap crate) (key : String) : Option String :=
  (crate.headerName key).bind fun name => (headers.entries.lookup name).bind id

/-! ## Fields -/

/-- `path_and_query.split_once('?')`, and the whole with an empty query where there is none. -/
def splitPathQuery (pathAndQuery : String) : String × String :=
  let path := pathAndQuery.toList.takeWhile (· ≠ '?')
  (String.ofList path, String.ofList (pathAndQuery.toList.drop (path.length + 1)))

/-- `pair.splitn(2, '=')`, where it has two parts. -/
def splitPair (pair : List Char) : Option (String × String) :=
  match pair.drop (pair.takeWhile (· ≠ '=')).length with
  | _ :: value => some (String.ofList (pair.takeWhile (· ≠ '=')), String.ofList value)
  | [] => none

/-- The value of the first pair of the query with this key. -/
def queryValue (key query : String) : Option String :=
  ((query.toList.splitOn '&').filterMap splitPair).lookup key

/-- The index `(segment - 1) as usize`. One that is negative is larger than any path is long; the
least `i32` wraps to the greatest. -/
def segmentIndex (segment : Int) : Option Nat :=
  if segment = -2147483648 then some 2147483647
  else if 1 ≤ segment then some (segment - 1).toNat
  else none

/-- `path_only.split('/')` without the empty parts, at the place of the segment. -/
def pathSegment (path : String) (segment : Int) : Option String :=
  (segmentIndex segment).bind fun index =>
    (((path.toList.splitOn '/').filter (· ≠ []))[index]?).map String.ofList

section Fields

variable (method path : String) (body : Json) (headerLookup : String → Option String)

/-- `resolve_http_field`. -/
def resolveHttpField (condition : FilterCondition) : Option String :=
  if condition.field = "http.method" then some method
  else if condition.field = "http.path" then some (splitPathQuery path).1
  else if condition.field = "http.body" then
    match condition.jsonPath with
    | some jsonPath => extractJsonPath body jsonPath
    | none => body.asStr
  else match stripStart "http.header." condition.field with
    | some key => headerLookup key
    | none => match stripStart "http.query." condition.field with
      | some key => queryValue key (splitPathQuery path).2
      | none => none

/-- `extract_http_test_id`. -/
def extractHttpTestId (selector : TestIdSelector) : Option String :=
  match selector.value with
  | some value => some value
  | none => selector.field.bind fun field =>
    if field = "http.body" then
      match selector.jsonPath with
      | some jsonPath => extractJsonPath body jsonPath
      | none => body.asStr
    else if field = "http.path" then
      match selector.pathSegment with
      | some segment => pathSegment (splitPathQuery path).1 segment
      | none => some (splitPathQuery path).1
    else (stripStart "http.header." field).bind headerLookup

end Fields

/-! ## Configuration -/

inductive ProxyProtocol where
  | http
  | https
  deriving DecidableEq, Repr

inductive PayloadSelection where
  | request
  | response
  | both
  deriving DecidableEq, Repr

structure NotificationFilter where
  conditions : List FilterCondition
  notifyPath : Option String
  mockPath : Option String
  payload : Option PayloadSelection
  deriving DecidableEq

structure DirectionConfig where
  filters : List NotificationFilter
  deriving DecidableEq

structure InboundTlsConfig where
  enabled : Bool
  port : Option Int
  certPath : Option String
  keyPath : Option String
  deriving DecidableEq

structure TlsConfig where
  inbound : InboundTlsConfig
  deriving DecidableEq

structure ClientTlsConfig where
  caCertPath : Option String
  insecureSkipVerify : Bool
  deriving DecidableEq

structure Config where
  port : Option Int
  proxyProtocol : Option ProxyProtocol
  writeProtocol : Option ProxyProtocol
  realEndpoint : Option String
  targetUrl : Option String
  greenEndpoint : Option String
  blueEndpoint : Option String
  envVarName : Option String
  writeEnvVar : Option String
  verifierEndpoint : Option String
  mockPath : Option String
  testId : Option TestIdSelector
  conditions : List FilterCondition
  filters : List NotificationFilter
  ingress : Option DirectionConfig
  egress : Option DirectionConfig
  tls : TlsConfig
  clientTls : ClientTlsConfig
  deriving DecidableEq

def u16 : Serde.Decoder Int := Serde.integer 0 65535

def ProxyProtocol.decode : Serde.Decoder ProxyProtocol :=
  Serde.unitEnum [("http", .http), ("https", .https)]

def PayloadSelection.decode : Serde.Decoder PayloadSelection :=
  Serde.unitEnum [("request", .request), ("response", .response), ("both", .both)]

namespace NotificationFilter

def fields : Serde.Fields NotificationFilter :=
  (((Serde.Fields.nil NotificationFilter.mk).withDefault "match"
      (Serde.vec FilterCondition.decode) []
    |>.withDefault "notifyPath" (Serde.option Serde.string) none)
    |>.withDefault "mockPath" (Serde.option Serde.string) none)
    |>.withDefault "payload" (Serde.option PayloadSelection.decode) none

def decode : Serde.Decoder NotificationFilter := fields.decode false

end NotificationFilter

def DirectionConfig.decode : Serde.Decoder DirectionConfig :=
  ((Serde.Fields.nil DirectionConfig.mk).withDefault "filters"
    (Serde.vec NotificationFilter.decode) []).decode false

namespace InboundTlsConfig

def fields : Serde.Fields InboundTlsConfig :=
  (((Serde.Fields.nil InboundTlsConfig.mk).withDefault "enabled" Serde.bool false
    |>.withDefault "port" (Serde.option u16) none)
    |>.withDefault "certPath" (Serde.option Serde.string) none)
    |>.withDefault "keyPath" (Serde.option Serde.string) none

def decode : Serde.Decoder InboundTlsConfig := fields.decode false

end InboundTlsConfig

def TlsConfig.decode : Serde.Decoder TlsConfig :=
  ((Serde.Fields.nil TlsConfig.mk).withDefault "inbound" InboundTlsConfig.decode
    ⟨false, none, none, none⟩).decode false

def ClientTlsConfig.decode : Serde.Decoder ClientTlsConfig :=
  ((Serde.Fields.nil ClientTlsConfig.mk).withDefault "caCertPath" (Serde.option Serde.string) none
    |>.withDefault "insecureSkipVerify" Serde.bool false).decode false

namespace Config

def fields : Serde.Fields Config :=
  (((((((((((((((((Serde.Fields.nil Config.mk).withDefault "port" (Serde.option u16) none
    |>.withDefault "proxyProtocol" (Serde.option ProxyProtocol.decode) none)
    |>.withDefault "writeProtocol" (Serde.option ProxyProtocol.decode) none)
    |>.withDefault "realEndpoint" (Serde.option Serde.string) none)
    |>.withDefault "targetUrl" (Serde.option Serde.string) none)
    |>.withDefault "greenEndpoint" (Serde.option Serde.string) none)
    |>.withDefault "blueEndpoint" (Serde.option Serde.string) none)
    |>.withDefault "envVarName" (Serde.option Serde.string) none)
    |>.withDefault "writeEnvVar" (Serde.option Serde.string) none)
    |>.withDefault "verifierEndpoint" (Serde.option Serde.string) none)
    |>.withDefault "mockPath" (Serde.option Serde.string) none)
    |>.withDefault "testId" (Serde.option TestIdSelector.decode) none)
    |>.withDefault "match" (Serde.vec FilterCondition.decode) [])
    |>.withDefault "filters" (Serde.vec NotificationFilter.decode) [])
    |>.withDefault "ingress" (Serde.option DirectionConfig.decode) none)
    |>.withDefault "egress" (Serde.option DirectionConfig.decode) none)
    |>.withDefault "tls" TlsConfig.decode ⟨⟨false, none, none, none⟩⟩)
    |>.withDefault "clientTls" ClientTlsConfig.decode ⟨none, false⟩

def decode : Serde.Decoder Config := fields.decode false

/-- The filters of the root, of `ingress` and of `egress`, in the order they are tried. -/
def allFilters (config : Config) : List NotificationFilter :=
  config.filters ++ (config.ingress.toList ++ config.egress.toList).flatMap (·.filters)

end Config

/-! ## Matching -/

section Matching

variable {crate : HttpCrate} (isMatch : String → String → Option Bool)

/-- `matches_filter`. -/
def matchesFilter (conditions : List FilterCondition) (method path : String)
    (headers : HeaderMap crate) (body : Json) : Bool :=
  conditions.all fun c =>
    conditionMatches isMatch (resolveHttpField method path body headers.get c) c

def matchingFilter (config : Config) (method path : String) (headers : HeaderMap crate)
    (body : Json) : Option NotificationFilter :=
  config.allFilters.find? fun filter =>
    matchesFilter isMatch filter.conditions method path headers body

def hasAnyFilters (config : Config) : Bool := config.allFilters ≠ []

/-- `matched` of `proxy_handler`: what the observer and the mock act on. -/
def matched (config : Config) (method path : String) (headers : HeaderMap crate) (body : Json) :
    Bool :=
  matchesFilter isMatch config.conditions method path headers body &&
    (!hasAnyFilters config || (matchingFilter isMatch config method path headers body).isSome)

/-- `extract_test_id`. -/
def extractTestId (selector : TestIdSelector) (body : Json) (path : String)
    (headers : HeaderMap crate) : Option String :=
  extractHttpTestId path body headers.get selector

end Matching

end FluidBG.Http
