import FluidBG.Plugins.Queues
import FluidBG.Lib.System
/-!
# The RabbitMQ manager

`plugins/rabbitmq/src/manager.rs`, with `config.rs`, `assignments.rs` and what `amqp.rs` and
`management.rs` do for it. A handler is a program over the calls to the broker; the requests of the
management client to the API are calls of their own.
-/

set_option autoImplicit false

namespace FluidBG.Rabbitmq

open Lib

/-! ## Configuration -/

structure QueueDeclarationConfig where
  durable : Option Bool
  exclusive : Option Bool
  autoDelete : Option Bool
  arguments : List (String × Json)

namespace QueueDeclarationConfig

def empty : QueueDeclarationConfig := ⟨none, none, none, []⟩

def decode : Serde.Decoder QueueDeclarationConfig :=
  ((((Serde.Fields.nil QueueDeclarationConfig.mk).withDefault "durable"
      (Serde.option Serde.bool) none
    |>.withDefault "exclusive" (Serde.option Serde.bool) none)
    |>.withDefault "autoDelete" (Serde.option Serde.bool) none)
    |>.withDefault "arguments" (Serde.map Serde.value) []).decode false

def durableOrDefault (config : QueueDeclarationConfig) : Bool := config.durable.getD true

end QueueDeclarationConfig

abbrev Config := QueueConfig QueueDeclarationConfig

def Config.decode : Serde.Decoder Config :=
  QueueConfig.decode QueueDeclarationConfig.decode .empty

/-- `json_to_amqp_value` has a value for everything but arrays and objects. -/
def isAmqpValue : Json → Bool
  | .arr _ => false
  | .obj _ => false
  | _ => true

/-- `queue_arguments`: whether a declaration can be sent. -/
def queueArguments (declaration : QueueDeclarationConfig) : Bool :=
  declaration.arguments.all fun argument => isAmqpValue argument.2

/-! ## The broker -/

/-- What `ManagementClient::new` is given. -/
structure ManagementSettings where
  baseUrl : String
  username : String
  password : String
  vhost : String
  allowInsecure : Bool
  caCertPath : Option String
  insecureSkipVerify : Bool

structure ManagementClient where
  baseUrl : String
  vhost : String

/-- The libraries the manager calls for a value. -/
structure ManagerCrates where
  crates : Crates
  /-- `ManagementClient::new`: the URL parser and the HTTP client builder. -/
  newManagementClient : ManagementSettings → Option ManagementClient
  /-- `serde_json::to_string` of the arguments of a declaration. -/
  argumentsText : List (String × Json) → String

inductive BrokerCall where
  | connect (amqpUrl : String)
  | createChannel
  | queueDeclare (queue : String) (declaration : QueueDeclarationConfig)
  | queueDelete (queue : String)
  | putUser (username password : String)
  | putPermissions (username : String) (queueNames : List String)
  | deleteUser (username : String)
  | listUsers
  | listQueues

@[reducible] def BrokerAnswer : BrokerCall → Type
  | .listUsers => Except Unit (List String)
  | .listQueues => Except Unit (List String)
  | _ => Except Unit Unit

abbrev ManagerOp := Prog BrokerCall BrokerAnswer StatusCode

/-- What the manager's calls read and change: the users and the queues, by name. -/
structure BrokerWorld where
  users : List String
  queues : List String
  deriving DecidableEq

namespace BrokerWorld

def putUser (w : BrokerWorld) (username : String) : BrokerWorld :=
  { w with users := if username ∈ w.users then w.users else w.users ++ [username] }

def deleteUser (w : BrokerWorld) (username : String) : BrokerWorld :=
  { w with users := w.users.filter (· ≠ username) }

def queueDeclare (w : BrokerWorld) (queue : String) : BrokerWorld :=
  { w with queues := if queue ∈ w.queues then w.queues else w.queues ++ [queue] }

def queueDelete (w : BrokerWorld) (queue : String) : BrokerWorld :=
  { w with queues := w.queues.filter (· ≠ queue) }

end BrokerWorld

namespace BrokerWorld

def serve (w : BrokerWorld) (c : BrokerCall) (o : CallOutcome) : BrokerAnswer c × BrokerWorld :=
  match c with
  | .connect _ => o.answer () w w
  | .createChannel => o.answer () w w
  | .queueDeclare queue _ => o.answer () w (w.queueDeclare queue)
  | .queueDelete queue => o.answer () w (w.queueDelete queue)
  | .putUser username _ => o.answer () w (w.putUser username)
  | .putPermissions _ _ => o.answer () w w
  | .deleteUser username => o.answer () w (w.deleteUser username)
  | .listUsers => o.answer w.users w w
  | .listQueues => o.answer w.queues w w

end BrokerWorld

/-- The broker, which only the manager's calls change. -/
def broker : Machine BrokerCall BrokerAnswer BrokerWorld CallOutcome Unit where
  serve w c o := some (w.serve c o)
  move _ _ := none
  halt w := w

/-- One call, whose error becomes a 500. -/
def ManagerOp.ask {α : Type} (p : ManagerOp (Except Unit α)) : ManagerOp α :=
  p.bind fun
    | .ok a => .pure a
    | .error () => .fail .internalServerError

/-- `connect_with_retry(..)?` and `create_channel()?`. -/
def openChannel (amqpUrl : String) : ManagerOp Unit := do
  ManagerOp.ask (Prog.ask (BrokerCall.connect amqpUrl))
  ManagerOp.ask (Prog.ask BrokerCall.createChannel)

def declareQueue (queue : String) (declaration : QueueDeclarationConfig) : ManagerOp Unit :=
  if queueArguments declaration then
    ManagerOp.ask (Prog.ask (BrokerCall.queueDeclare queue declaration))
  else .fail .internalServerError

/-- `delete_queue`, which only warns of an error. -/
def deleteQueue (queue : String) : ManagerOp Unit := do
  let _ ← Prog.ask (BrokerCall.queueDelete queue)
  pure ()

def createInceptorUser (username password : String) (queueNames : List String) :
    ManagerOp Unit := do
  ManagerOp.ask (Prog.ask (BrokerCall.putUser username password))
  ManagerOp.ask (Prog.ask (BrokerCall.putPermissions username queueNames))

def deleteUser (username : String) : ManagerOp Unit :=
  ManagerOp.ask (Prog.ask (BrokerCall.deleteUser username))

/-! ## The manager -/

structure ManagerState where
  signingKey : String
  amqpUrl : String
  managementUrl : Option String
  managementUsername : Option String
  managementPassword : Option String
  managementVhost : Option String
  managementAllowInsecure : Bool
  amqpCaCertPath : Option String
  managementCaCertPath : Option String
  managementInsecureSkipVerify : Bool

/-- `value.filter(|value| !value.is_empty())`. -/
def nonEmpty (value : Option String) : Option String := value.filter fun value => value ≠ ""

def scopedUsernameParts (id : InceptionId) : String :=
  derivedScopedIdentityName "fbg-rmq" id.ns id.blueGreenRef (id.blueGreenUid.getD "")
    id.inceptionPoint 64

def scopedUsername (claims : PluginAuthClaims) : String := scopedUsernameParts claims.inceptionId

def scopedUsernameFromActive (active : ActiveInception) : String :=
  scopedUsernameParts active.inceptionId

section Handlers

variable (lib : ManagerCrates) (state : ManagerState)

def authorize (header : Option String) : Except StatusCode PluginAuthClaims :=
  match verifyManagerBearerToken lib.crates header state.signingKey with
  | .ok claims => .ok claims
  | .error _ => .error .unauthorized

/-- What `management_client` hands to `ManagementClient::new`. -/
def managementSettings : Option ManagementSettings := do
  let url ← nonEmpty state.managementUrl
  let username ← nonEmpty state.managementUsername
  let password ← nonEmpty state.managementPassword
  pure {
    baseUrl := url
    username := username
    password := password
    vhost := (nonEmpty state.managementVhost).getD "/"
    allowInsecure := state.managementAllowInsecure
    caCertPath := nonEmpty state.managementCaCertPath
    insecureSkipVerify := state.managementInsecureSkipVerify }

def managementClient : Except StatusCode ManagementClient :=
  match (managementSettings state).bind lib.newManagementClient with
  | some client => .ok client
  | none => .error .internalServerError

def securedConfigFromClaims (claims : PluginAuthClaims) (req : PluginManagerLifecycleRequest) :
    Json × Config :=
  FluidBG.securedConfigFromClaims QueueDeclarationConfig.decode .empty claims req

def activeQueueNames (activeInceptions : List ActiveInception) : List String :=
  FluidBG.activeQueueNames QueueDeclarationConfig.decode .empty activeInceptions

/-- The declarations of one temporary queue and its shadow. -/
def createTempQueue (config : Config) (queue : String) : ManagerOp Unit :=
  match shadowQueueName config queue with
  | some shadowQueue => do
    let shadowDeclaration := (config.shadowQueue.map (·.queueDeclaration)).getD
      config.queueDeclaration
    declareQueue shadowQueue shadowDeclaration
    declareQueue queue config.queueDeclaration
  | none => declareQueue queue config.queueDeclaration

/-- The removal of one temporary queue and its shadow. -/
def deleteTempQueue (config : Config) (queue : String) : ManagerOp Unit := do
  deleteQueue queue
  match shadowQueueName config queue with
  | some shadowQueue => deleteQueue shadowQueue
  | none => pure ()

/-- The shadows of the base queues, which only `prepare` looks after. -/
def createBaseShadows (roles : List PluginRole) (config : Config) : ManagerOp Unit :=
  match config.shadowQueue with
  | none => pure ()
  | some shadow => Prog.forEach (baseShadowQueueNames roles config) fun queue =>
      match shadowQueueName config queue with
      | some shadowQueue => declareQueue shadowQueue shadow.queueDeclaration
      | none => pure ()

def reconcileQueues (roles : List String) (config : Config) (create : Bool) : ManagerOp Unit := do
  let roles := parseRoles roles
  openChannel state.amqpUrl
  if create then
    createBaseShadows roles config
    Prog.forEach (managedTempQueueNames roles config) (createTempQueue config)
  else Prog.forEach (managedTempQueueNames roles config) (deleteTempQueue config)

/-! ### The environment of an inceptor -/

/-- One byte of `encode_userinfo`. -/
def encodeUserinfoByte (byte : Nat) : List Char :=
  let c := Char.ofNat byte
  if c.isAlphanum || c = '-' || c = '.' || c = '_' || c = '~' then [c]
  else ['%', (Nat.digitChar (byte / 16)).toUpper, (Nat.digitChar (byte % 16)).toUpper]

def encodeUserinfo (value : String) : String :=
  String.ofList ((utf8Bytes value).flatMap encodeUserinfoByte)

/-- The characters up to the end of the first occurrence of `pat`, and those after it. -/
def splitAfter (pat : List Char) : List Char → Option (List Char × List Char)
  | [] => none
  | c :: cs =>
    if pat.isPrefixOf (c :: cs) then some (pat, (c :: cs).drop pat.length)
    else (splitAfter pat cs).map fun parts => (c :: parts.1, parts.2)

def amqpUrlWithCredentials (base username password : String) : String :=
  match splitAfter "://".toList base.toList with
  | none => base
  | some (scheme, rest) =>
    let authority := rest.takeWhile (· ≠ '/')
    let host := (authority.reverse.takeWhile (· ≠ '@')).reverse
    String.ofList scheme ++ encodeUserinfo username ++ ":" ++ encodeUserinfo password ++ "@" ++
      String.ofList (host ++ rest.dropWhile (· ≠ '/'))

def pushOptionalEnv (name : String) (value : Option String) : List InceptorEnvVar :=
  ((nonEmpty value).map (InceptorEnvVar.mk name)).toList

def inceptorEnv (client : ManagementClient) (username password : String) : List InceptorEnvVar :=
  [⟨"FLUIDBG_RABBITMQ_AMQP_URL", amqpUrlWithCredentials state.amqpUrl username password⟩] ++
    pushOptionalEnv "FLUIDBG_RABBITMQ_MANAGEMENT_URL" (some client.baseUrl) ++
    pushOptionalEnv "FLUIDBG_RABBITMQ_MANAGEMENT_USERNAME" (some username) ++
    pushOptionalEnv "FLUIDBG_RABBITMQ_MANAGEMENT_PASSWORD" (some password) ++
    pushOptionalEnv "FLUIDBG_RABBITMQ_MANAGEMENT_VHOST" (some client.vhost) ++
    (if state.managementAllowInsecure then
      pushOptionalEnv "FLUIDBG_RABBITMQ_MANAGEMENT_ALLOW_INSECURE" (some "true") else []) ++
    pushOptionalEnv "FLUIDBG_RABBITMQ_AMQP_CA_CERT_PATH" state.amqpCaCertPath ++
    pushOptionalEnv "FLUIDBG_RABBITMQ_MANAGEMENT_CA_CERT_PATH" state.managementCaCertPath ++
    (if state.managementInsecureSkipVerify then
      pushOptionalEnv "FLUIDBG_RABBITMQ_MANAGEMENT_INSECURE_SKIP_VERIFY" (some "true") else [])

/-- `sign_plugin_auth_token(..)`, which the scoped user has for a password. -/
def scopedPassword (claims : PluginAuthClaims) : Except StatusCode String :=
  match lib.crates.signToken claims state.signingKey with
  | .ok password => .ok password
  | .error _ => .error .internalServerError

def prepareScopedInceptorEnv (claims : PluginAuthClaims) (roles : List String) (config : Config) :
    ManagerOp (List InceptorEnvVar) := do
  let client ← Prog.ofExcept (managementClient lib state)
  let username := scopedUsername claims
  let password ← Prog.ofExcept (scopedPassword lib state claims)
  createInceptorUser username password (inceptorQueueNames (parseRoles roles) config)
  pure (inceptorEnv state client username password)

def cleanupScopedInceptorIdentity (claims : PluginAuthClaims) : ManagerOp Unit := do
  let _ ← Prog.ofExcept (managementClient lib state)
  deleteUser (scopedUsername claims)

/-! ### The sweeps -/

def garbageCollectScopedIdentities (activeInceptions : List ActiveInception) :
    ManagerOp Unit := do
  let _ ← Prog.ofExcept (managementClient lib state)
  let active := activeInceptions.map scopedUsernameFromActive
  let users ← ManagerOp.ask (Prog.ask BrokerCall.listUsers)
  Prog.forEach users fun user =>
    if "fbg-rmq-".toList.isPrefixOf user.toList ∧ user ∉ active then deleteUser user
    else pure ()

def garbageCollectTempQueues (activeInceptions : List ActiveInception) : ManagerOp Unit := do
  let _ ← Prog.ofExcept (managementClient lib state)
  let active := activeQueueNames activeInceptions
  let queues ← ManagerOp.ask (Prog.ask BrokerCall.listQueues)
  openChannel state.amqpUrl
  Prog.forEach queues fun queue =>
    if "fluidbg-".toList.isPrefixOf queue.toList ∧ queue ∉ active then deleteQueue queue
    else pure ()

/-! ### Handlers -/

/-- `push_temp_queue_declaration_assignments`. -/
def declarationAssignments (config : Config) : List PropertyAssignment :=
  let durable := if config.queueDeclaration.durableOrDefault then "true" else "false"
  [AssignmentTarget.green, .blue].flatMap fun target =>
    [⟨target, .env, "AMQP_TEMP_QUEUE_DURABLE", durable, none⟩,
      ⟨target, .env, "AMQP_TEMP_QUEUE_ARGUMENTS_JSON",
        lib.argumentsText config.queueDeclaration.arguments, none⟩]

def buildPrepareAssignments (config : Config) (roles : List PluginRole) :
    List PropertyAssignment :=
  prepareQueueAssignments config roles ++ declarationAssignments lib config

def prepareHandler (header : Option String) (req : PluginManagerLifecycleRequest) :
    ManagerOp PluginLifecycleResponse := do
  let claims ← Prog.ofExcept (authorize lib state header)
  Prog.ofExcept (ensureRequestMatchesClaims req claims)
  let roles := parseRoles req.roles
  Prog.ofExcept (checkRoles roles)
  let (effectiveConfig, config) := securedConfigFromClaims claims req
  reconcileQueues state req.roles config true
  let inceptorEnv ← prepareScopedInceptorEnv lib state claims req.roles config
  garbageCollectScopedIdentities lib state req.activeInceptions
  pure {
    assignments := buildPrepareAssignments lib config roles
    inceptorEnv := inceptorEnv
    config := some effectiveConfig }

def cleanupHandler (header : Option String) (req : PluginManagerLifecycleRequest) :
    ManagerOp Unit := do
  let claims ← Prog.ofExcept (authorize lib state header)
  Prog.ofExcept (ensureRequestMatchesClaims req claims)
  let (_, config) := securedConfigFromClaims claims req
  reconcileQueues state req.roles config false
  cleanupScopedInceptorIdentity lib state claims
  garbageCollectScopedIdentities lib state req.activeInceptions

def syncHandler (header : Option String) (req : PluginManagerSyncRequest) : ManagerOp Unit := do
  let claims ← Prog.ofExcept (authorize lib state header)
  Prog.ofExcept (ensureSyncRequestMatchesClaims req claims)
  garbageCollectScopedIdentities lib state req.activeInceptions
  garbageCollectTempQueues lib state req.activeInceptions

end Handlers

end FluidBG.Rabbitmq
