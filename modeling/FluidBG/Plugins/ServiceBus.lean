import FluidBG.Plugins.Queues
import FluidBG.Lib.System
/-!
# The Azure Service Bus manager

`plugins/azure_servicebus/src/manager.rs`, with `config.rs`, `assignments.rs` and what
`servicebus.rs` does for it. How a client is built from the environment, and the SAS tokens it hands
to inceptors, are parameters.
-/

set_option autoImplicit false

namespace FluidBG.ServiceBus

open Lib

/-! ## Configuration -/

structure QueueDeclarationConfig where
  lockDuration : Option String
  maxSizeInMegabytes : Option Int
  maxMessageSizeInKilobytes : Option Int
  requiresDuplicateDetection : Option Bool
  requiresSession : Option Bool
  defaultMessageTimeToLive : Option String
  deadLetteringOnMessageExpiration : Option Bool
  duplicateDetectionHistoryTimeWindow : Option String
  maxDeliveryCount : Option Int
  enableBatchedOperations : Option Bool
  autoDeleteOnIdle : Option String
  enablePartitioning : Option Bool
  enableExpress : Option Bool
  forwardTo : Option String
  forwardDeadLetteredMessagesTo : Option String
  status : Option String
  deriving DecidableEq

namespace QueueDeclarationConfig

def empty : QueueDeclarationConfig :=
  ⟨none, none, none, none, none, none, none, none, none, none, none, none, none, none, none, none⟩

def fields : Serde.Fields QueueDeclarationConfig :=
  let string := Serde.option Serde.string
  let bool := Serde.option Serde.bool
  let i64 := Serde.option Serde.i64
  (((((((((((((((Serde.Fields.nil QueueDeclarationConfig.mk).withDefault "lockDuration" string none
    |>.withDefault "maxSizeInMegabytes" i64 none)
    |>.withDefault "maxMessageSizeInKilobytes" i64 none)
    |>.withDefault "requiresDuplicateDetection" bool none)
    |>.withDefault "requiresSession" bool none)
    |>.withDefault "defaultMessageTimeToLive" string none)
    |>.withDefault "deadLetteringOnMessageExpiration" bool none)
    |>.withDefault "duplicateDetectionHistoryTimeWindow" string none)
    |>.withDefault "maxDeliveryCount" (Serde.option Serde.i32) none)
    |>.withDefault "enableBatchedOperations" bool none)
    |>.withDefault "autoDeleteOnIdle" string none)
    |>.withDefault "enablePartitioning" bool none)
    |>.withDefault "enableExpress" bool none)
    |>.withDefault "forwardTo" string none)
    |>.withDefault "forwardDeadLetteredMessagesTo" string none)
    |>.withDefault "status" string none

def decode : Serde.Decoder QueueDeclarationConfig := fields.decode false

end QueueDeclarationConfig

abbrev Config := QueueConfig QueueDeclarationConfig

def Config.decode : Serde.Decoder Config :=
  QueueConfig.decode QueueDeclarationConfig.decode .empty

/-! ## The client -/

structure ManagementConfig where
  subscriptionId : Option String
  resourceGroup : Option String
  namespaceName : Option String
  createQueues : Bool
  deleteQueues : Bool
  deriving DecidableEq

/-- The part of the client that decides which API it talks to. -/
structure ServiceBusClient where
  usesWorkloadIdentity : Bool
  management : Option ManagementConfig
  deriving DecidableEq

def hasArmManagementConfig (management : ManagementConfig) : Bool :=
  management.subscriptionId.isSome && management.resourceGroup.isSome

/-- The settings of the ARM API, where the client goes through it. -/
def ServiceBusClient.arm (client : ServiceBusClient) : Option ManagementConfig :=
  client.management.filter fun management =>
    client.usesWorkloadIdentity && hasArmManagementConfig management

inductive BusCall where
  | putQueue (queue : String) (declaration : QueueDeclarationConfig)
  | deleteQueue (queue : String)
  | listQueues

@[reducible] def BusAnswer : BusCall → Type
  | .listQueues => Except Unit (List String)
  | _ => Except Unit Unit

abbrev ManagerOp := Prog BusCall BusAnswer StatusCode

/-- The service, seen as the names of its queues. -/
def serveBus (queues : List String) (c : BusCall) (o : CallOutcome) : BusAnswer c × List String :=
  match c with
  | .putQueue queue _ =>
    o.answer () queues (if queue ∈ queues then queues else queues ++ [queue])
  | .deleteQueue queue => o.answer () queues (queues.filter (· ≠ queue))
  | .listQueues => o.answer queues queues queues

def bus : Machine BusCall BusAnswer (List String) CallOutcome Unit where
  serve queues c o := some (serveBus queues c o)
  move _ _ := none
  halt queues := queues

/-- One call, whose error becomes a 500. -/
def ManagerOp.ask {α : Type} (p : ManagerOp (Except Unit α)) : ManagerOp α :=
  p.bind fun
    | .ok a => .pure a
    | .error () => .fail .internalServerError

/-- `create_queue`, which an installation may have switched off. -/
def createQueue (client : ServiceBusClient) (queue : String)
    (declaration : QueueDeclarationConfig) : ManagerOp Unit :=
  if client.arm.any (!·.createQueues) then pure ()
  else ManagerOp.ask (Prog.ask (BusCall.putQueue queue declaration))

/-- `delete_queue`, which an installation may have switched off. -/
def deleteQueue (client : ServiceBusClient) (queue : String) : ManagerOp Unit :=
  if client.arm.any (!·.deleteQueues) then pure ()
  else ManagerOp.ask (Prog.ask (BusCall.deleteQueue queue))

/-! ## The manager -/

/-- The environment the manager was started with, and the libraries it calls for a value. -/
structure ManagerState where
  crates : Crates
  signingKey : String
  /-- `ServiceBusClient::from_runtime_config(&state.runtime_config)`. -/
  client : Option ServiceBusClient
  /-- `inceptor_env`: the namespace, and tokens for the queues of the inceptor. -/
  inceptorEnv : List PluginRole → Config → List InceptorEnvVar

section Handlers

variable (state : ManagerState)

def authorize (header : Option String) : Except StatusCode PluginAuthClaims :=
  match verifyManagerBearerToken state.crates header state.signingKey with
  | .ok claims => .ok claims
  | .error _ => .error .unauthorized

def serviceBusClient : Except StatusCode ServiceBusClient :=
  match state.client with
  | some client => .ok client
  | none => .error .badRequest

def securedConfigFromClaims (claims : PluginAuthClaims) (req : PluginManagerLifecycleRequest) :
    Json × Config :=
  FluidBG.securedConfigFromClaims QueueDeclarationConfig.decode .empty claims req

def activeQueueNames (activeInceptions : List ActiveInception) : List String :=
  FluidBG.activeQueueNames QueueDeclarationConfig.decode .empty activeInceptions

def createTempQueue (client : ServiceBusClient) (config : Config) (queue : String) :
    ManagerOp Unit :=
  match shadowQueueName config queue with
  | some shadowQueue => do
    let shadowDeclaration := (config.shadowQueue.map (·.queueDeclaration)).getD
      config.queueDeclaration
    createQueue client shadowQueue shadowDeclaration
    createQueue client queue config.queueDeclaration
  | none => createQueue client queue config.queueDeclaration

def deleteTempQueue (client : ServiceBusClient) (config : Config) (queue : String) :
    ManagerOp Unit := do
  deleteQueue client queue
  match shadowQueueName config queue with
  | some shadowQueue => deleteQueue client shadowQueue
  | none => pure ()

/-- The shadows of the base queues, which only `prepare` looks after. -/
def createBaseShadows (client : ServiceBusClient) (roles : List PluginRole) (config : Config) :
    ManagerOp Unit :=
  match config.shadowQueue with
  | none => pure ()
  | some shadow => Prog.forEach (baseShadowQueueNames roles config) fun queue =>
      match shadowQueueName config queue with
      | some shadowQueue => createQueue client shadowQueue shadow.queueDeclaration
      | none => pure ()

def reconcileQueues (roles : List String) (config : Config) (create : Bool) : ManagerOp Unit := do
  let roles := parseRoles roles
  let client ← Prog.ofExcept (serviceBusClient state)
  if create then
    createBaseShadows client roles config
    Prog.forEach (managedTempQueueNames roles config) (createTempQueue client config)
  else Prog.forEach (managedTempQueueNames roles config) (deleteTempQueue client config)

def garbageCollectTempQueues (activeInceptions : List ActiveInception) : ManagerOp Unit := do
  let client ← Prog.ofExcept (serviceBusClient state)
  let active := activeQueueNames activeInceptions
  let queues ← ManagerOp.ask (Prog.ask BusCall.listQueues)
  Prog.forEach queues fun queue =>
    if "fluidbg-".toList.isPrefixOf queue.toList ∧ queue ∉ active then deleteQueue client queue
    else pure ()

/-! ### Handlers -/

def prepareHandler (header : Option String) (req : PluginManagerLifecycleRequest) :
    ManagerOp PluginLifecycleResponse := do
  let claims ← Prog.ofExcept (authorize state header)
  Prog.ofExcept (ensureRequestMatchesClaims req claims)
  let roles := parseRoles req.roles
  Prog.ofExcept (checkRoles roles)
  let (effectiveConfig, config) := securedConfigFromClaims claims req
  reconcileQueues state req.roles config true
  pure {
    assignments := prepareQueueAssignments config roles
    inceptorEnv := state.inceptorEnv roles config
    config := some effectiveConfig }

def cleanupHandler (header : Option String) (req : PluginManagerLifecycleRequest) :
    ManagerOp Unit := do
  let claims ← Prog.ofExcept (authorize state header)
  Prog.ofExcept (ensureRequestMatchesClaims req claims)
  let (_, config) := securedConfigFromClaims claims req
  reconcileQueues state req.roles config false

def syncHandler (header : Option String) (req : PluginManagerSyncRequest) : ManagerOp Unit := do
  let claims ← Prog.ofExcept (authorize state header)
  Prog.ofExcept (ensureSyncRequestMatchesClaims req claims)
  garbageCollectTempQueues state req.activeInceptions

end Handlers

end FluidBG.ServiceBus
