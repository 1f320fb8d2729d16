import FluidBG.Plugins.TempNames
import Mathlib.Data.List.Dedup
import Mathlib.Data.List.Sort
/-!
# The queue plugins

What the RabbitMQ and the Azure Service Bus crates have in common: the configuration of an inception
point, the queues it names, and the rewrite of the temporary ones. The two differ in what may be
said about the declaration of a queue, which is the parameter `D`.
-/

set_option autoImplicit false

namespace FluidBG

open Lib

/-! ## Configuration -/

structure ShadowQueueConfig (D : Type) where
  suffix : String
  queueDeclaration : D

/-- `DuplicatorConfig` and `SplitterConfig`, which have the same fields. -/
structure InputRoleConfig where
  inputQueue : Option String
  greenInputQueue : Option String
  blueInputQueue : Option String
  greenInputQueueEnvVar : Option String
  blueInputQueueEnvVar : Option String
  deriving DecidableEq

structure CombinerConfig where
  outputQueue : Option String
  greenOutputQueue : Option String
  blueOutputQueue : Option String
  greenOutputQueueEnvVar : Option String
  blueOutputQueueEnvVar : Option String
  deriving DecidableEq

structure WriterConfig where
  targetQueue : Option String
  deriving DecidableEq

structure ConsumerConfig where
  inputQueue : Option String
  deriving DecidableEq

structure QueueConfig (D : Type) where
  queueDeclaration : D
  shadowQueue : Option (ShadowQueueConfig D)
  duplicator : Option InputRoleConfig
  splitter : Option InputRoleConfig
  combiner : Option CombinerConfig
  writer : Option WriterConfig
  consumer : Option ConsumerConfig
  observer : Option ObserverConfig

/-! ## Reading it -/

namespace InputRoleConfig

def fields : Serde.Fields InputRoleConfig :=
  ((((Serde.Fields.nil InputRoleConfig.mk).optional "inputQueue" Serde.string
    |>.optional "greenInputQueue" Serde.string)
    |>.optional "blueInputQueue" Serde.string)
    |>.optional "greenInputQueueEnvVar" Serde.string)
    |>.optional "blueInputQueueEnvVar" Serde.string

def decode : Serde.Decoder InputRoleConfig := fields.decode false

/-- The temporary queues of the block. -/
def tempQueues (config : InputRoleConfig) : List String :=
  config.greenInputQueue.toList ++ config.blueInputQueue.toList

end InputRoleConfig

namespace CombinerConfig

def fields : Serde.Fields CombinerConfig :=
  ((((Serde.Fields.nil CombinerConfig.mk).optional "outputQueue" Serde.string
    |>.optional "greenOutputQueue" Serde.string)
    |>.optional "blueOutputQueue" Serde.string)
    |>.optional "greenOutputQueueEnvVar" Serde.string)
    |>.optional "blueOutputQueueEnvVar" Serde.string

def decode : Serde.Decoder CombinerConfig := fields.decode false

/-- The temporary queues of the block. -/
def tempQueues (config : CombinerConfig) : List String :=
  config.greenOutputQueue.toList ++ config.blueOutputQueue.toList

end CombinerConfig

def WriterConfig.decode : Serde.Decoder WriterConfig :=
  ((Serde.Fields.nil WriterConfig.mk).optional "targetQueue" Serde.string).decode false

def ConsumerConfig.decode : Serde.Decoder ConsumerConfig :=
  ((Serde.Fields.nil ConsumerConfig.mk).optional "inputQueue" Serde.string).decode false

section Declaration

variable {D : Type} (decl : Serde.Decoder D) (default : D)

def ShadowQueueConfig.decode : Serde.Decoder (ShadowQueueConfig D) :=
  ((Serde.Fields.nil ShadowQueueConfig.mk).required "suffix" Serde.string
    |>.withDefault "queueDeclaration" decl default).decode false

namespace QueueConfig

def fields : Serde.Fields (QueueConfig D) :=
  (((((((Serde.Fields.nil QueueConfig.mk).withDefault "queueDeclaration" decl default
    |>.withDefault "shadowQueue" (Serde.option (ShadowQueueConfig.decode decl default)) none)
    |>.withDefault "duplicator" (Serde.option InputRoleConfig.decode) none)
    |>.withDefault "splitter" (Serde.option InputRoleConfig.decode) none)
    |>.withDefault "combiner" (Serde.option CombinerConfig.decode) none)
    |>.withDefault "writer" (Serde.option WriterConfig.decode) none)
    |>.withDefault "consumer" (Serde.option ConsumerConfig.decode) none)
    |>.withDefault "observer" (Serde.option ObserverConfig.decode) none

def decode : Serde.Decoder (QueueConfig D) := (fields decl default).decode true

/-- `Config::default`. -/
def empty : QueueConfig D := ⟨default, none, none, none, none, none, none, none⟩

/-- `serde_json::from_value(value).unwrap_or_default()`. -/
def decodeOrDefault (value : Json) : QueueConfig D :=
  (decode decl default value).getD (empty default)

end QueueConfig

end Declaration

/-! ## The queues of a configuration -/

section Names

variable {D : Type}

def shadowQueueName (config : QueueConfig D) (queue : String) : Option String :=
  config.shadowQueue.map fun shadow => derivedShadowQueueName queue shadow.suffix

/-- The temporary queues of the block of a role. -/
def QueueConfig.tempQueues (config : QueueConfig D) : PluginRole → List String
  | .duplicator => (config.duplicator.map (·.tempQueues)).getD []
  | .splitter => (config.splitter.map (·.tempQueues)).getD []
  | .combiner => (config.combiner.map (·.tempQueues)).getD []
  | _ => []

/-- The base queue of the block of a role. -/
def QueueConfig.baseQueue (config : QueueConfig D) : PluginRole → Option String
  | .duplicator => config.duplicator.bind (·.inputQueue)
  | .splitter => config.splitter.bind (·.inputQueue)
  | .combiner => config.combiner.bind (·.outputQueue)
  | _ => none

/-- The roles whose temporary queues a manager looks after, in the order it does. -/
def managedRoles : List PluginRole := [.duplicator, .splitter, .combiner]

def managedTempQueueNames (roles : List PluginRole) (config : QueueConfig D) : List String :=
  (managedRoles.filter (hasRole roles)).flatMap config.tempQueues

def baseShadowQueueNames (roles : List PluginRole) (config : QueueConfig D) : List String :=
  (managedRoles.filter (hasRole roles)).filterMap config.baseQueue

/-- The queues of `inceptor_queue_names` before they are sorted. -/
def inceptorQueues (roles : List PluginRole) (config : QueueConfig D) : List String :=
  let queues := managedTempQueueNames roles config ++
    (baseShadowQueueNames roles config).flatMap (fun queue =>
      queue :: (shadowQueueName config queue).toList) ++
    (if hasRole roles .writer then (config.writer.bind (·.targetQueue)).toList else []) ++
    (if hasRole roles .consumer then (config.consumer.bind (·.inputQueue)).toList else [])
  queues ++ queues.filterMap (shadowQueueName config)

/-- `inceptor_queue_names`, sorted and without repetitions. -/
def inceptorQueueNames (roles : List PluginRole) (config : QueueConfig D) : List String :=
  ((inceptorQueues roles config).insertionSort (· ≤ ·)).dedup

/-- The temporary queues and their shadows. -/
def withShadows (config : QueueConfig D) (queues : List String) : List String :=
  queues ++ queues.filterMap (shadowQueueName config)

end Names

/-! ## The rewrite -/

def queueTempNames : TempNames where
  identifier := "temporaryQueueIdentifier"
  fields := [
    ⟨"duplicator", "greenInputQueue", "green-input"⟩,
    ⟨"duplicator", "blueInputQueue", "blue-input"⟩,
    ⟨"splitter", "greenInputQueue", "green-input"⟩,
    ⟨"splitter", "blueInputQueue", "blue-input"⟩,
    ⟨"combiner", "greenOutputQueue", "green-output"⟩,
    ⟨"combiner", "blueOutputQueue", "blue-output"⟩]

def rewriteQueueTempNames (id : InceptionId) (config : Json) : Json :=
  rewriteTempNames queueTempNames id config

section Managers

variable {D : Type} (decl : Serde.Decoder D) (default : D)

/-- `secured_config_from_claims`. -/
def securedConfigFromClaims (claims : PluginAuthClaims) (req : PluginManagerLifecycleRequest) :
    Json × QueueConfig D :=
  let value := rewriteQueueTempNames claims.inceptionId req.config
  (value, QueueConfig.decodeOrDefault decl default value)

/-- `active_queue_names`. -/
def activeQueueNames (activeInceptions : List ActiveInception) : List String :=
  activeInceptions.flatMap fun active =>
    let config := QueueConfig.decodeOrDefault decl default
      (rewriteQueueTempNames active.inceptionId active.config)
    withShadows config (managedTempQueueNames (parseRoles active.roles) config)

end Managers

/-! ## Assignments -/

def pushQueueAssignment (target : AssignmentTarget) (envName queue : Option String) :
    List PropertyAssignment :=
  match envName, queue with
  | some envName, some queue => [⟨target, .env, envName, queue, none⟩]
  | _, _ => []

/-- The assignments of the blocks, with the queues `green` and `blue` choose. -/
def queueAssignments {D : Type} (config : QueueConfig D) (roles : List PluginRole)
    (input : InputRoleConfig → Option String × Option String)
    (output : CombinerConfig → Option String × Option String) : List PropertyAssignment :=
  let inputRole := fun (block : Option InputRoleConfig) => match block with
    | none => []
    | some block =>
      pushQueueAssignment .green block.greenInputQueueEnvVar (input block).1 ++
        pushQueueAssignment .blue block.blueInputQueueEnvVar (input block).2
  (if hasRole roles .duplicator then inputRole config.duplicator else []) ++
    (if hasRole roles .splitter then inputRole config.splitter else []) ++
    (if hasRole roles .combiner then match config.combiner with
      | none => []
      | some block =>
        pushQueueAssignment .green block.greenOutputQueueEnvVar (output block).1 ++
          pushQueueAssignment .blue block.blueOutputQueueEnvVar (output block).2
    else [])

/-- `build_prepare_assignments`, as far as the queues go. -/
def prepareQueueAssignments {D : Type} (config : QueueConfig D) (roles : List PluginRole) :
    List PropertyAssignment :=
  queueAssignments config roles (fun block => (block.greenInputQueue, block.blueInputQueue))
    fun block => (block.greenOutputQueue, block.blueOutputQueue)

/-- `build_cleanup_assignments` and `build_drain_assignments`. -/
def buildDrainAssignments {D : Type} (config : QueueConfig D) (roles : List PluginRole) :
    List PropertyAssignment :=
  queueAssignments config roles (fun block => (block.inputQueue, block.inputQueue))
    fun block => (block.outputQueue, block.outputQueue)

end FluidBG
