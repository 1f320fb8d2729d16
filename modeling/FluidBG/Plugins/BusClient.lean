import FluidBG.Inceptor
import FluidBG.Plugins.Drain
import Mathlib.Data.List.MinMax
/-!
# The client of Azure Service Bus

`plugins/azure_servicebus/src/servicebus.rs` with the runtime part of `config.rs`, `inceptor_env` of
`manager.rs` and `writer.rs`: the connection string, the URLs, the tokens the manager signs for an
inceptor and how the inceptor finds the one for a request, and what becomes of a message's headers
when it is received and sent again.
-/

set_option autoImplicit false

namespace FluidBG.ServiceBus

open Lib

/-- The libraries the client calls for a value. -/
structure BusCrates where
  /-- `Url::parse` and the checks of `validate_https_base_url`. -/
  validateHttpsBaseUrl : String → Bool
  /-- `STANDARD.encode` of base64. -/
  base64 : List Nat → String
  /-- `str::parse::<i64>`. -/
  parseI64 : String → Option Int
  /-- `serde_json` on the map of tokens. -/
  tokensText : OrdMap String String → String
  parseTokens : String → Option (OrdMap String String)
  /-- `serde_json` on a value. -/
  jsonText : Json → String
  parseJson : List UInt8 → Option Json

/-! ## The connection string -/

/-- `trim_start_matches`, for as many occurrences. -/
def trimStartMatches (pattern : List Char) : Nat → List Char → List Char
  | 0, cs => cs
  | n + 1, cs =>
    if pattern.isPrefixOf cs then trimStartMatches pattern n (cs.drop pattern.length) else cs

/-- The host in `sb://host/` or `https://host/`. -/
def stripScheme (value : String) : String :=
  let cs := value.toList
  let cs := trimStartMatches "sb://".toList cs.length cs
  let cs := trimStartMatches "https://".toList cs.length cs
  trimEndSlashes (String.ofList cs)

structure ParsedConnectionString where
  fullyQualifiedNamespace : String
  sharedAccessKeyName : String
  sharedAccessKey : String
  deriving DecidableEq

/-- `part.split_once('=')`. -/
def splitAssignment (part : List Char) : Option (String × String) :=
  match part.drop (part.takeWhile (· ≠ '=')).length with
  | _ :: value => some (String.ofList (part.takeWhile (· ≠ '=')), String.ofList value)
  | [] => none

def parseConnectionString (value : String) : Option ParsedConnectionString := do
  let parts := ((value.toList.splitOn ';').filter (· ≠ [])).filterMap splitAssignment
  -- the last assignment to a name wins
  let find := fun name => (parts.reverse.find? fun part => part.1 = name).map (·.2)
  let endpoint ← find "Endpoint"
  let keyName ← find "SharedAccessKeyName"
  let key ← find "SharedAccessKey"
  pure ⟨stripScheme endpoint, keyName, key⟩

def isAllowedServiceBusHost (host : String) : Bool :=
  let host := host.toList.map (·.toLower)
  [".servicebus.windows.net", ".servicebus.usgovcloudapi.net", ".servicebus.chinacloudapi.cn"].any
    fun suffix => suffix.toList.isSuffixOf host && suffix.toList.length < host.length

/-- `service_bus_endpoint_from_namespace`: the endpoint, and the name of the namespace. -/
def serviceBusEndpointFromNamespace (ns : String) : Option (String × String) :=
  let host := stripScheme (trim ns)
  if host = "" ∨ ['/', '@', '?', '#', ':'].any (host.toList.contains ·) then none
  else if !isAllowedServiceBusHost host then none
  else some (s!"https://{host}", String.ofList (host.toList.takeWhile (· ≠ '.')))

/-! ## URLs -/

def isUnreserved (byte : UInt8) : Bool :=
  let c := Char.ofNat byte.toNat
  c.isAlphanum || c = '-' || c = '.' || c = '_' || c = '~'

/-- A digit of `format!("{byte:02X}")`. -/
def upperHexDigit (n : Nat) : Char := (Nat.digitChar n).toUpper

/-- One byte of `percent_encode`, with `is_unreserved` for the bytes that are kept. -/
def percentEncodeByte (byte : UInt8) : List Char :=
  if isUnreserved byte then [Char.ofNat byte.toNat]
  else ['%', upperHexDigit (byte.toNat / 16), upperHexDigit (byte.toNat % 16)]

/-- `value.as_bytes()`. -/
def asBytes (value : String) : List UInt8 := value.toUTF8.data.toList

theorem asBytes_ofList (cs : List Char) :
    asBytes (String.ofList cs) = cs.flatMap String.utf8EncodeChar := by
  unfold asBytes
  rw [String.toUTF8_eq_toByteArray, String.toByteArray_ofList, List.utf8Encode,
    List.toList_data_toByteArray]

/-- `percent_encode_path_segment` and `percent_encode_query_value`. -/
def percentEncodeSegment (value : String) : String :=
  String.ofList ((asBytes value).flatMap percentEncodeByte)

def percentEncodePath (value : String) : String :=
  String.ofList (['/'].intercalate ((value.toList.splitOn '/').map fun segment =>
    (percentEncodeSegment (String.ofList segment)).toList))

/-- `service_bus_resource_url`, which panics where the namespace is not one. -/
def serviceBusResourceUrl (ns queue : String) : Option String :=
  (serviceBusEndpointFromNamespace ns).map fun endpoint =>
    s!"{endpoint.1}/{percentEncodePath queue}"

/-- `dead_letter_path`. -/
def deadLetterName (queue : String) : String := trimEndSlashes queue ++ "/$deadletterqueue"

/-- The path of a queue or of its dead letters. -/
def BusPath.path (p : BusPath) : String := if p.dead then deadLetterName p.queue else p.queue

/-! ## Tokens -/

/-- `hmac_sha256`. -/
def hmacSha256 (key message : List Nat) : List Nat :=
  let key := if 64 < key.length then Sha256.digest key else key
  let block := key ++ List.replicate (64 - key.length) 0
  let inner := Sha256.digest (block.map (· ^^^ 0x36) ++ message)
  Sha256.digest (block.map (· ^^^ 0x5c) ++ inner)

/-- `sas_token`; `now` is the time in seconds. -/
def sasToken (lib : BusCrates) (now : Int) (resource keyName key : String) (ttlSeconds : Int) :
    String :=
  let encodedResource := percentEncodeSegment resource
  let expiry := now + ttlSeconds
  let stringToSign := s!"{encodedResource}\n{expiry}"
  let signature := percentEncodeSegment
    (lib.base64 (hmacSha256 (utf8Bytes key) (utf8Bytes stringToSign)))
  s!"SharedAccessSignature sr={encodedResource}&sig={signature}&se={expiry}&skn={keyName}"

/-! ## The configuration of a process -/

inductive AuthMode where
  | connectionString
  | workloadIdentity
  deriving DecidableEq, Repr

structure AuthConfig where
  mode : Option AuthMode
  tenantId : Option String
  clientId : Option String
  federatedTokenFile : Option String
  authorityHost : Option String
  sasTokenTtlSeconds : Option Int

structure ServiceBusRuntimeConfig where
  connectionString : Option String
  fullyQualifiedNamespace : Option String
  auth : Option AuthConfig
  management : Option ManagementConfig
  staticSasTokens : OrdMap String String

/-- `env_bool`. -/
def envBool (env : String → Option String) (name : String) (default : Bool) : Bool :=
  match env name with
  | some "true" => true
  | some "false" => false
  | _ => default

/-- `ServiceBusRuntimeConfig::from_env`. -/
def ServiceBusRuntimeConfig.fromEnv (lib : BusCrates) (env : String → Option String) :
    ServiceBusRuntimeConfig where
  connectionString := env "AZURE_SERVICEBUS_CONNECTION_STRING"
  fullyQualifiedNamespace := env "AZURE_SERVICEBUS_NAMESPACE"
  auth := some {
    mode := (env "FLUIDBG_AZURE_SERVICEBUS_AUTH_MODE").bind fun mode =>
      if mode ∈ ["connectionString", "connection-string", "connection_string"] then
        some .connectionString
      else if mode ∈ ["workloadIdentity", "workload-identity", "workload_identity"] then
        some .workloadIdentity
      else none
    tenantId := env "AZURE_TENANT_ID"
    clientId := env "AZURE_CLIENT_ID"
    federatedTokenFile := env "AZURE_FEDERATED_TOKEN_FILE"
    authorityHost := env "AZURE_AUTHORITY_HOST"
    sasTokenTtlSeconds :=
      (env "FLUIDBG_AZURE_SERVICEBUS_SAS_TOKEN_TTL_SECONDS").bind lib.parseI64 }
  management := some {
    subscriptionId := env "FLUIDBG_AZURE_SERVICEBUS_SUBSCRIPTION_ID"
    resourceGroup := env "FLUIDBG_AZURE_SERVICEBUS_RESOURCE_GROUP"
    namespaceName := env "FLUIDBG_AZURE_SERVICEBUS_NAMESPACE_NAME"
    createQueues := envBool env "FLUIDBG_AZURE_SERVICEBUS_CREATE_QUEUES" true
    deleteQueues := envBool env "FLUIDBG_AZURE_SERVICEBUS_DELETE_QUEUES" true }
  staticSasTokens :=
    ((env "FLUIDBG_AZURE_SERVICEBUS_SAS_TOKENS_JSON").bind lib.parseTokens).getD .empty

/-- How a client authorizes its requests. -/
inductive AuthProvider where
  | staticSasTokens (tokensByResource : OrdMap String String)
  | sas (keyName key : String) (ttlSeconds : Int)
  | workloadIdentity

structure BusClient where
  endpoint : String
  namespaceName : String
  auth : AuthProvider
  management : Option ManagementConfig

/-- The parsed connection string; the outer `none` is its error. -/
def ServiceBusRuntimeConfig.connection (config : ServiceBusRuntimeConfig) :
    Option (Option ParsedConnectionString) :=
  match config.connectionString with
  | some value => (parseConnectionString value).map some
  | none => some none

/-- The `AuthProvider` of a process, which takes static tokens where it has any. -/
def authProvider (lib : BusCrates) (config : ServiceBusRuntimeConfig)
    (connection : Option ParsedConnectionString) : Option AuthProvider :=
  let ttl := (config.auth.bind (·.sasTokenTtlSeconds)).getD 3600
  if !config.staticSasTokens.isEmpty then some (.staticSasTokens config.staticSasTokens)
  else match (config.auth.bind (·.mode)).getD
      (if connection.isSome then .connectionString else .workloadIdentity) with
  | .connectionString => connection.map fun connection =>
    .sas connection.sharedAccessKeyName connection.sharedAccessKey ttl
  | .workloadIdentity => do
    let auth ← config.auth
    let _ ← auth.tenantId
    let _ ← auth.clientId
    let _ ← auth.federatedTokenFile
    if lib.validateHttpsBaseUrl
        (auth.authorityHost.getD "https://login.microsoftonline.com") then
      some .workloadIdentity
    else none

/-- `ServiceBusClient::from_runtime_config`. -/
def BusClient.fromRuntimeConfig (lib : BusCrates) (config : ServiceBusRuntimeConfig) :
    Option BusClient := do
  let connection ← config.connection
  let ns ← config.fullyQualifiedNamespace.or (connection.map (·.fullyQualifiedNamespace))
  let endpoint ← serviceBusEndpointFromNamespace ns
  let auth ← authProvider lib config connection
  pure ⟨endpoint.1, endpoint.2, auth, config.management⟩

def AuthProvider.usesWorkloadIdentity : AuthProvider → Bool
  | .workloadIdentity => true
  | _ => false

/-- What decides which API the client talks to. -/
def BusClient.toServiceBusClient (client : BusClient) : ServiceBusClient :=
  ⟨client.auth.usesWorkloadIdentity, client.management⟩

def BusClient.queueUrl (client : BusClient) (queue : String) : String :=
  s!"{client.endpoint}/{percentEncodePath queue}"

/-- `max_by_key(|(prefix, _)| prefix.len())`, the last one where several are the longest. -/
def longest (entries : List (String × String)) : Option (String × String) :=
  entries.reverse.argmax (·.1.utf8ByteSize)

/-- The token that is taken for a resource, with the resource it was signed for. -/
def tokenFor (tokensByResource : OrdMap String String) (resource : String) :
    Option (String × String) :=
  longest (tokensByResource.entries.filter fun entry =>
    entry.1.toList.isPrefixOf resource.toList)

/-- `authorization_header`; the token of a workload identity is the identity's, not one of the
tokens here. -/
def BusClient.authorizationHeader (lib : BusCrates) (now : Int) (client : BusClient)
    (resource : String) : Option String :=
  match client.auth with
  | .staticSasTokens tokensByResource => (tokenFor tokensByResource resource).map (·.2)
  | .sas keyName key ttlSeconds => some (sasToken lib now resource keyName key ttlSeconds)
  | .workloadIdentity => none

/-! ## What the manager hands to an inceptor -/

section Manager

variable (lib : BusCrates) (now : Int) (runtime : ServiceBusRuntimeConfig)
  (roles : List PluginRole) (config : Config)

/-- `parse_connection_string(..).ok()` of the connection string, where there is one. -/
def ServiceBusRuntimeConfig.parsed : Option ParsedConnectionString :=
  runtime.connectionString.bind parseConnectionString

/-- The resources that `static_sas_tokens_json` signs, with their tokens; `none` where it panics. -/
def staticSasTokens (connection : ParsedConnectionString) : Option (OrdMap String String) :=
  (inceptorQueueNames roles config).foldlM (fun tokens queue => do
    let resource ← serviceBusResourceUrl connection.fullyQualifiedNamespace queue
    pure (tokens.insert resource (sasToken lib now resource connection.sharedAccessKeyName
      connection.sharedAccessKey ((runtime.auth.bind (·.sasTokenTtlSeconds)).getD 3600))))
    OrdMap.empty

/-- `static_sas_tokens_json`. -/
def staticSasTokensJson : Option String :=
  runtime.parsed.bind fun connection =>
    (staticSasTokens lib now runtime roles config connection).map lib.tokensText

/-- `push_optional_env`. -/
def optionalEnv (name : String) (value : Option String) : List InceptorEnvVar :=
  ((value.filter (· ≠ "")).map (InceptorEnvVar.mk name)).toList

def AuthMode.text : AuthMode → String
  | .connectionString => "connectionString"
  | .workloadIdentity => "workloadIdentity"

def inceptorEnv : List InceptorEnvVar :=
  optionalEnv "AZURE_SERVICEBUS_NAMESPACE" (runtime.fullyQualifiedNamespace.or
      (runtime.parsed.map (·.fullyQualifiedNamespace))) ++
    optionalEnv "FLUIDBG_AZURE_SERVICEBUS_SAS_TOKENS_JSON"
      (staticSasTokensJson lib now runtime roles config) ++
    optionalEnv "FLUIDBG_AZURE_SERVICEBUS_AUTH_MODE"
      ((runtime.auth.bind (·.mode)).map AuthMode.text)

/-- The environment of an inceptor: the variables of the manager over those of its pod. -/
def inceptorEnvironment (podEnv : String → Option String) (name : String) : Option String :=
  (((inceptorEnv lib now runtime roles config).find? (·.name = name)).map (·.value)).or
    (podEnv name)

/-- The client of an inceptor, where it starts. -/
def inceptorClient (podEnv : String → Option String) : Option BusClient :=
  BusClient.fromRuntimeConfig lib
    (.fromEnv lib (inceptorEnvironment lib now runtime roles config podEnv))

end Manager

/-! ## Messages -/

/-- A header, its name in lower case as `HeaderMap` has it. -/
abbrev Header := String × List UInt8

/-- `HeaderValue::to_str`, for visible ASCII characters only. -/
def toStr (value : List UInt8) : Option String :=
  if value.all fun byte => (32 ≤ byte && byte < 127) || byte = 9 then
    some (String.ofList (value.map fun byte => Char.ofNat byte.toNat))
  else none

/-- `HeaderValue::from_str`. -/
def isHeaderValue (value : List UInt8) : Bool :=
  value.all fun byte => (32 ≤ byte && byte ≠ 127) || byte = 9

/-- A character of a token; the last two are the apostrophe and the backtick. -/
def isTokenChar (c : Char) : Bool :=
  c.isAlphanum || "!#$%&*+-.^_|~".toList.contains c || c.toNat = 39 || c.toNat = 96

/-- `HeaderName::from_bytes`: a token, put into lower case. -/
def headerName (name : String) : Option String :=
  if name ≠ "" ∧ name.toList.all isTokenChar then
    some (String.ofList (name.toList.map (·.toLower)))
  else none

def isStandardHeader (name : String) : Bool :=
  String.ofList (name.toList.map (·.toLower)) ∈ ["authorization", "brokerproperties",
    "content-type", "content-length", "date", "server", "transfer-encoding", "location"]

/-- The double quote. -/
def quote : Char := Char.ofNat 34

/-- `trim_matches` of double quotes. -/
def trimQuotes (value : String) : String :=
  String.ofList ((value.toList.dropWhile (· = quote)).reverse.dropWhile (· = quote)).reverse

def customProperties (headers : List Header) : OrdMap String String :=
  headers.foldl (fun out header =>
    if isStandardHeader header.1 then out
    else match toStr header.2 with
      | some value => out.insert header.1 (trimQuotes value)
      | none => out) .empty

def sendableNames : List String :=
  ["MessageId", "CorrelationId", "SessionId", "ReplyToSessionId", "Label", "Subject", "To",
    "ReplyTo", "ContentType", "TimeToLive", "ScheduledEnqueueTimeUtc", "PartitionKey",
    "ViaPartitionKey"]

def sendableFields (input : List (String × Json)) : List (String × Json) :=
  sendableNames.foldl (fun out key => match input.lookup key with
    | some value => if value.isNull then out else Json.insertField key value out
    | none => out) []

def sendableBrokerProperties (value : Option Json) : Option Json :=
  match value with
  | some (.obj input) =>
    if sendableFields input = [] then none else some (.obj (sendableFields input))
  | _ => none

/-- `broker_properties`. -/
def brokerPropertiesOf (lib : BusCrates) (headers : List Header) : Option Json := do
  let raw ← headers.lookup "brokerproperties"
  let _ ← toStr raw
  let parsed ← lib.parseJson raw
  sendableBrokerProperties (some parsed)

structure LockedMessage where
  body : List Nat
  properties : OrdMap String String
  brokerProperties : Option Json
  location : String

/-- What `receive_peek_lock` makes of a response with a message. -/
def LockedMessage.ofResponse (lib : BusCrates) (headers : List Header) (body : List Nat) :
    Option LockedMessage := do
  let location ← (headers.lookup "location").bind toStr
  pure ⟨body, customProperties headers, brokerPropertiesOf lib headers, location⟩

/-- The request that sends a message. -/
structure SendRequest where
  contentType : String
  body : List Nat
  brokerProperties : Option (List UInt8)
  headers : List Header

/-- The request of `send_message_with_broker_properties`. A header that is not one is an error of
the builder, which `send` returns. -/
def sendRequest (lib : BusCrates) (payload : List Nat) (properties : OrdMap String String)
    (brokerProperties : Option Json) : Option SendRequest := do
  let broker := (sendableBrokerProperties brokerProperties).map fun value =>
    asBytes (lib.jsonText value)
  let headers ← properties.entries.mapM fun entry => do
    let name ← headerName entry.1
    if isHeaderValue (asBytes entry.2) then some (name, asBytes entry.2) else none
  if broker.all isHeaderValue then
    some ⟨"application/octet-stream", payload, broker, headers⟩
  else none

/-- The request of `forward_message`. -/
def forwardMessage (lib : BusCrates) (message : LockedMessage) : Option SendRequest :=
  sendRequest lib message.body message.properties message.brokerProperties

/-! ## Writing -/

/-- `write_handler` for a request that is the operator's, with the message it asks for. Whether the
inceptor has the role of a writer is not looked at. -/
def writeHandler (config : Config) (message : Message) : BusOp (Nat × String) :=
  match config.writer.bind (·.targetQueue) with
  | none => .pure (400, "targetQueue not configured")
  | some queue => do
    match ← (WorkerOp.run (publishTo message queue)).result with
    | .ok () => pure (200, "published")
    | .error (_ : Unit) => pure (500, "publish failed")

end FluidBG.ServiceBus
