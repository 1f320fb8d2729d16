import FluidBG.Plugins.TempNames
import FluidBG.Lib.System
/-!
# The NATS manager

`plugins/nats/src/manager.rs`, with `config.rs`, `assignments.rs` and what `nats.rs` does for it. A
subject of a queue has a stream of its own, whose name is made from the subject.
-/

set_option autoImplicit false

namespace FluidBG.Nats

open Lib

/-! ## Configuration -/

inductive NatsMode where
  | jetStream
  | core
  deriving DecidableEq, Repr

namespace NatsMode

def decode : Serde.Decoder NatsMode :=
  Serde.unitEnum [("jetStream", jetStream), ("core", core)]

def isCore (mode : NatsMode) : Bool := mode = .core

end NatsMode

structure PlacementConfig where
  cluster : Option String
  tags : List String
  deriving DecidableEq

structure SubjectTransformConfig where
  source : String
  destination : String
  deriving DecidableEq

structure StreamConfig where
  subjects : List String
  storage : Option String
  retention : Option String
  replicas : Option Int
  maxMessages : Option Int
  maxBytes : Option Int
  maxAgeSeconds : Option Int
  discard : Option String
  allowRollup : Option Bool
  denyDelete : Option Bool
  denyPurge : Option Bool
  placement : Option PlacementConfig
  persistenceMode : Option String
  subjectTransform : Option SubjectTransformConfig
  metadata : List (String × String)
  deriving DecidableEq

/-- `DuplicatorConfig` and `SplitterConfig`, which have the same fields. -/
structure InputRoleConfig where
  inputSubject : Option String
  queueGroup : Option String
  greenInputSubject : Option String
  blueInputSubject : Option String
  greenInputSubjectEnvVar : Option String
  blueInputSubjectEnvVar : Option String
  greenQueueGroup : Option String
  blueQueueGroup : Option String
  greenQueueGroupEnvVar : Option String
  blueQueueGroupEnvVar : Option String
  temporarySubjectIdentifier : Option String
  deriving DecidableEq

structure CombinerConfig where
  outputSubject : Option String
  greenOutputSubject : Option String
  blueOutputSubject : Option String
  greenOutputSubjectEnvVar : Option String
  blueOutputSubjectEnvVar : Option String
  temporarySubjectIdentifier : Option String
  deriving DecidableEq

structure WriterConfig where
  targetSubject : Option String
  deriving DecidableEq

structure ConsumerConfig where
  inputSubject : Option String
  deriving DecidableEq

structure Config where
  mode : NatsMode
  stream : StreamConfig
  duplicator : Option InputRoleConfig
  splitter : Option InputRoleConfig
  combiner : Option CombinerConfig
  writer : Option WriterConfig
  consumer : Option ConsumerConfig
  observer : Option ObserverConfig
  deriving DecidableEq

/-! ## Reading it -/

def PlacementConfig.decode : Serde.Decoder PlacementConfig :=
  ((Serde.Fields.nil PlacementConfig.mk).withDefault "cluster" (Serde.option Serde.string) none
    |>.withDefault "tags" (Serde.vec Serde.string) []).decode false

def SubjectTransformConfig.decode : Serde.Decoder SubjectTransformConfig :=
  ((Serde.Fields.nil SubjectTransformConfig.mk).required "source" Serde.string
    |>.required "destination" Serde.string).decode false

namespace StreamConfig

def empty : StreamConfig :=
  ⟨[], none, none, none, none, none, none, none, none, none, none, none, none, none, []⟩

def fields : Serde.Fields StreamConfig :=
  let string := Serde.option Serde.string
  let bool := Serde.option Serde.bool
  let i64 := Serde.option Serde.i64
  ((((((((((((((Serde.Fields.nil StreamConfig.mk).withDefault "subjects" (Serde.vec Serde.string) []
    |>.withDefault "storage" string none)
    |>.withDefault "retention" string none)
    |>.withDefault "replicas" (Serde.option Serde.usize) none)
    |>.withDefault "maxMessages" i64 none)
    |>.withDefault "maxBytes" i64 none)
    |>.withDefault "maxAgeSeconds" i64 none)
    |>.withDefault "discard" string none)
    |>.withDefault "allowRollup" bool none)
    |>.withDefault "denyDelete" bool none)
    |>.withDefault "denyPurge" bool none)
    |>.withDefault "placement" (Serde.option PlacementConfig.decode) none)
    |>.withDefault "persistenceMode" string none)
    |>.withDefault "subjectTransform" (Serde.option SubjectTransformConfig.decode) none)
    |>.withDefault "metadata" (Serde.map Serde.string) []

def decode : Serde.Decoder StreamConfig := fields.decode false

end StreamConfig

namespace InputRoleConfig

def fields : Serde.Fields InputRoleConfig :=
  ((((((((((Serde.Fields.nil InputRoleConfig.mk).optional "inputSubject" Serde.string
    |>.optional "queueGroup" Serde.string)
    |>.optional "greenInputSubject" Serde.string)
    |>.optional "blueInputSubject" Serde.string)
    |>.optional "greenInputSubjectEnvVar" Serde.string)
    |>.optional "blueInputSubjectEnvVar" Serde.string)
    |>.optional "greenQueueGroup" Serde.string)
    |>.optional "blueQueueGroup" Serde.string)
    |>.optional "greenQueueGroupEnvVar" Serde.string)
    |>.optional "blueQueueGroupEnvVar" Serde.string)
    |>.optional "temporarySubjectIdentifier" Serde.string

def decode : Serde.Decoder InputRoleConfig := fields.decode false

/-- The temporary subjects of the block. -/
def tempSubjects (config : InputRoleConfig) : List String :=
  config.greenInputSubject.toList ++ config.blueInputSubject.toList

end InputRoleConfig

namespace CombinerConfig

def fields : Serde.Fields CombinerConfig :=
  (((((Serde.Fields.nil CombinerConfig.mk).optional "outputSubject" Serde.string
    |>.optional "greenOutputSubject" Serde.string)
    |>.optional "blueOutputSubject" Serde.string)
    |>.optional "greenOutputSubjectEnvVar" Serde.string)
    |>.optional "blueOutputSubjectEnvVar" Serde.string)
    |>.optional "temporarySubjectIdentifier" Serde.string

def decode : Serde.Decoder CombinerConfig := fields.decode false

/-- The temporary subjects of the block. -/
def tempSubjects (config : CombinerConfig) : List String :=
  config.greenOutputSubject.toList ++ config.blueOutputSubject.toList

end CombinerConfig

def WriterConfig.fields : Serde.Fields WriterConfig :=
  (Serde.Fields.nil WriterConfig.mk).optional "targetSubject" Serde.string

def ConsumerConfig.fields : Serde.Fields ConsumerConfig :=
  (Serde.Fields.nil ConsumerConfig.mk).optional "inputSubject" Serde.string

namespace Config

/-- `Config::default`. -/
def empty : Config := ⟨.jetStream, .empty, none, none, none, none, none, none⟩

def fields : Serde.Fields Config :=
  (((((((Serde.Fields.nil Config.mk).withDefault "mode" NatsMode.decode .jetStream
    |>.withDefault "stream" StreamConfig.decode .empty)
    |>.withDefault "duplicator" (Serde.option InputRoleConfig.decode) none)
    |>.withDefault "splitter" (Serde.option InputRoleConfig.decode) none)
    |>.withDefault "combiner" (Serde.option CombinerConfig.decode) none)
    |>.withDefault "writer" (Serde.option (WriterConfig.fields.decode false)) none)
    |>.withDefault "consumer" (Serde.option (ConsumerConfig.fields.decode false)) none)
    |>.withDefault "observer" (Serde.option ObserverConfig.decode) none

def decode : Serde.Decoder Config := fields.decode true

end Config

/-! ## The subjects of a configuration -/

/-- The temporary subjects of the block of a role. -/
def Config.tempSubjects (config : Config) : PluginRole → List String
  | .duplicator => (config.duplicator.map (·.tempSubjects)).getD []
  | .splitter => (config.splitter.map (·.tempSubjects)).getD []
  | .combiner => (config.combiner.map (·.tempSubjects)).getD []
  | _ => []

/-- The subject of the application that the block of a role names. -/
def Config.baseSubject (config : Config) : PluginRole → Option String
  | .duplicator => config.duplicator.bind (·.inputSubject)
  | .splitter => config.splitter.bind (·.inputSubject)
  | .combiner => config.combiner.bind (·.outputSubject)
  | .writer => config.writer.bind (·.targetSubject)
  | .consumer => config.consumer.bind (·.inputSubject)
  | _ => none

/-- The roles with a subject, in the order the manager goes through them. -/
def subjectRoles : List PluginRole := [.duplicator, .splitter, .combiner, .writer, .consumer]

def temporarySubjects (roles : List PluginRole) (config : Config) : List String :=
  (subjectRoles.filter (hasRole roles)).flatMap config.tempSubjects

def managedSubjects (roles : List PluginRole) (config : Config) : List String :=
  (subjectRoles.filter (hasRole roles)).flatMap fun role =>
    (config.baseSubject role).toList ++ config.tempSubjects role

/-! ## Streams -/

/-- The hash of a subject: `hash * 33 + byte` in 64 bits. -/
def subjectHash (subject : String) : Nat :=
  (utf8Bytes subject).foldl (fun hash byte => (hash * 33 + byte) % 2 ^ 64) 5381

def streamName (subject : String) : String :=
  let hint := (subject.toList.filter fun c => c.isAlphanum || c = '-' || c = '_').take 24
  s!"fbg_{String.ofList hint}_{hexBytes (lengthBytes (subjectHash subject)).reverse}"

inductive StorageType where
  | file
  | memory
  deriving DecidableEq, Repr

inductive RetentionPolicy where
  | limits
  | interest
  | workQueue
  deriving DecidableEq, Repr

inductive DiscardPolicy where
  | old
  | new
  deriving DecidableEq, Repr

inductive PersistenceMode where
  | default
  | async
  deriving DecidableEq, Repr

/-- The part of `async_nats::jetstream::stream::Config` that is set. -/
structure StreamSettings where
  name : String
  subjects : List String
  storage : StorageType
  retention : RetentionPolicy
  discard : DiscardPolicy
  numReplicas : Int
  maxMessages : Int
  maxBytes : Int
  /-- In seconds. -/
  maxAge : Int
  allowRollup : Bool
  denyDelete : Bool
  denyPurge : Bool
  placement : Option PlacementConfig
  persistMode : Option PersistenceMode
  subjectTransform : Option SubjectTransformConfig
  metadata : List (String × String)
  deriving DecidableEq

/-- `stream_config`. -/
def streamConfig (subject : String) (cfg : StreamConfig) : StreamSettings where
  name := streamName subject
  subjects :=
    let subjects := if cfg.subjects = [] then [subject] else cfg.subjects
    if subject ∈ subjects then subjects else subjects ++ [subject]
  storage := if cfg.storage = some "memory" then .memory else .file
  retention :=
    if cfg.retention = some "interest" then .interest
    else if cfg.retention = some "workqueue" ∨ cfg.retention = some "workQueue" then .workQueue
    else .limits
  discard := if cfg.discard = some "new" then .new else .old
  numReplicas := cfg.replicas.getD 1
  maxMessages := cfg.maxMessages.getD (-1)
  maxBytes := cfg.maxBytes.getD (-1)
  maxAge := max (cfg.maxAgeSeconds.getD 0) 0
  allowRollup := cfg.allowRollup.getD false
  denyDelete := cfg.denyDelete.getD false
  denyPurge := cfg.denyPurge.getD false
  placement := cfg.placement
  persistMode :=
    if cfg.persistenceMode = some "async" then some .async
    else if cfg.persistenceMode = some "default" then some .default
    else none
  subjectTransform := cfg.subjectTransform
  metadata := cfg.metadata

/-! ## The server -/

inductive StreamCall where
  | connect (url : String)
  | getOrCreateStream (settings : StreamSettings)
  | deleteStream (name : String)
  | streamNames

@[reducible] def StreamAnswer : StreamCall → Type
  | .streamNames => Except Unit (List String)
  | _ => Except Unit Unit

abbrev ManagerOp := Prog StreamCall StreamAnswer StatusCode

/-- The server, seen as the names of its streams. -/
def serveStreams (streams : List String) (c : StreamCall) (o : CallOutcome) :
    StreamAnswer c × List String :=
  match c with
  | .connect _ => o.answer () streams streams
  | .getOrCreateStream settings => o.answer () streams
      (if settings.name ∈ streams then streams else streams ++ [settings.name])
  | .deleteStream name => o.answer () streams (streams.filter (· ≠ name))
  | .streamNames => o.answer streams streams streams

/-- The server, which only the manager's calls change. -/
def server : Machine StreamCall StreamAnswer (List String) CallOutcome Unit where
  serve streams c o := some (serveStreams streams c o)
  move _ _ := none
  halt streams := streams

/-- One call, whose error becomes a 500. -/
def ManagerOp.ask {α : Type} (p : ManagerOp (Except Unit α)) : ManagerOp α :=
  p.bind fun
    | .ok a => .pure a
    | .error () => .fail .internalServerError

def connect (url : String) : ManagerOp Unit :=
  ManagerOp.ask (Prog.ask (StreamCall.connect url))

def ensureSubjectStream (subject : String) (cfg : StreamConfig) : ManagerOp Unit :=
  ManagerOp.ask (Prog.ask (StreamCall.getOrCreateStream (streamConfig subject cfg)))

/-- `delete_stream_name`, which drops the error. -/
def deleteStreamName (stream : String) : ManagerOp Unit := do
  let _ ← Prog.ask (StreamCall.deleteStream stream)
  pure ()

def deleteSubjectStream (subject : String) : ManagerOp Unit :=
  deleteStreamName (streamName subject)

/-! ## The manager -/

structure ManagerState where
  crates : Crates
  signingKey : String
  natsUrl : String
  inceptorUrl : String

def subjectTempNames : TempNames where
  identifier := "temporarySubjectIdentifier"
  fields := [
    ⟨"duplicator", "greenInputSubject", "green-input"⟩,
    ⟨"duplicator", "blueInputSubject", "blue-input"⟩,
    ⟨"splitter", "greenInputSubject", "green-input"⟩,
    ⟨"splitter", "blueInputSubject", "blue-input"⟩,
    ⟨"combiner", "greenOutputSubject", "green-output"⟩,
    ⟨"combiner", "blueOutputSubject", "blue-output"⟩]

def rewriteTempSubjects (id : InceptionId) (config : Json) : Json :=
  rewriteTempNames subjectTempNames id config

def securedConfigFromClaims (claims : PluginAuthClaims) (req : PluginManagerLifecycleRequest) :
    Json × Config :=
  let value := rewriteTempSubjects claims.inceptionId req.config
  (value, (Config.decode value).getD .empty)

def activeStreamNames (activeInceptions : List ActiveInception) : List String :=
  activeInceptions.flatMap fun active =>
    match Config.decode (rewriteTempSubjects active.inceptionId active.config) with
    | none => []
    | some config =>
      if config.mode.isCore then []
      else (temporarySubjects (parseRoles active.roles) config).map streamName

section Handlers

variable (state : ManagerState)

def authorize (header : Option String) : Except StatusCode PluginAuthClaims :=
  match verifyManagerBearerToken state.crates header state.signingKey with
  | .ok claims => .ok claims
  | .error _ => .error .unauthorized

def reconcileStreams (roles : List PluginRole) (config : Config) (create : Bool) :
    ManagerOp Unit :=
  if config.mode.isCore then .pure ()
  else do
    connect state.natsUrl
    if create then
      Prog.forEach (managedSubjects roles config) fun subject =>
        ensureSubjectStream subject config.stream
    else Prog.forEach (temporarySubjects roles config) deleteSubjectStream

def garbageCollectTempStreams (activeInceptions : List ActiveInception) : ManagerOp Unit := do
  let active := activeStreamNames activeInceptions
  connect state.natsUrl
  let streams ← ManagerOp.ask (Prog.ask StreamCall.streamNames)
  Prog.forEach streams fun stream =>
    if "fbg_fluidbg".toList.isPrefixOf stream.toList ∧ stream ∉ active then
      deleteStreamName stream
    else pure ()

def pushSubjectAssignment (target : AssignmentTarget) (envName subject : Option String) :
    List PropertyAssignment :=
  match envName, subject with
  | some envName, some subject => [⟨target, .env, envName, subject, none⟩]
  | _, _ => []

/-- The assignments of one input block, with the subjects and queue groups of green and blue. -/
def inputAssignments (block : InputRoleConfig) (green blue greenGroup blueGroup : Option String) :
    List PropertyAssignment :=
  pushSubjectAssignment .green block.greenInputSubjectEnvVar green ++
    pushSubjectAssignment .blue block.blueInputSubjectEnvVar blue ++
    pushSubjectAssignment .green block.greenQueueGroupEnvVar greenGroup ++
    pushSubjectAssignment .blue block.blueQueueGroupEnvVar blueGroup

def buildPrepareAssignments (config : Config) (roles : List PluginRole) :
    List PropertyAssignment :=
  let input := fun (block : InputRoleConfig) => inputAssignments block block.greenInputSubject
    block.blueInputSubject block.greenQueueGroup block.blueQueueGroup
  (if hasRole roles .duplicator then (config.duplicator.map input).getD [] else []) ++
    (if hasRole roles .splitter then (config.splitter.map input).getD [] else []) ++
    (if hasRole roles .combiner then (config.combiner.map fun block =>
      pushSubjectAssignment .green block.greenOutputSubjectEnvVar block.greenOutputSubject ++
        pushSubjectAssignment .blue block.blueOutputSubjectEnvVar block.blueOutputSubject).getD []
    else [])

/-- `build_cleanup_assignments` and `build_drain_assignments`. -/
def buildDrainAssignments (config : Config) (roles : List PluginRole) : List PropertyAssignment :=
  let input := fun (block : InputRoleConfig) => inputAssignments block block.inputSubject
    block.inputSubject block.queueGroup block.queueGroup
  (if hasRole roles .duplicator then (config.duplicator.map input).getD [] else []) ++
    (if hasRole roles .splitter then (config.splitter.map input).getD [] else []) ++
    (if hasRole roles .combiner then (config.combiner.map fun block =>
      pushSubjectAssignment .green block.greenOutputSubjectEnvVar block.outputSubject ++
        pushSubjectAssignment .blue block.blueOutputSubjectEnvVar block.outputSubject).getD []
    else [])

/-! ### Handlers -/

def prepareHandler (header : Option String) (req : PluginManagerLifecycleRequest) :
    ManagerOp PluginLifecycleResponse := do
  let claims ← Prog.ofExcept (authorize state header)
  Prog.ofExcept (ensureRequestMatchesClaims req claims)
  let roles := parseRoles req.roles
  Prog.ofExcept (checkRoles roles)
  let (effectiveConfig, config) := securedConfigFromClaims claims req
  reconcileStreams state roles config true
  garbageCollectTempStreams state req.activeInceptions
  pure {
    assignments := buildPrepareAssignments config roles
    inceptorEnv := [⟨"FLUIDBG_NATS_URL", state.inceptorUrl⟩]
    config := some effectiveConfig }

def cleanupHandler (header : Option String) (req : PluginManagerLifecycleRequest) :
    ManagerOp Unit := do
  let claims ← Prog.ofExcept (authorize state header)
  Prog.ofExcept (ensureRequestMatchesClaims req claims)
  let (_, config) := securedConfigFromClaims claims req
  reconcileStreams state (parseRoles req.roles) config false
  garbageCollectTempStreams state req.activeInceptions

def syncHandler (header : Option String) (req : PluginManagerSyncRequest) : ManagerOp Unit := do
  let claims ← Prog.ofExcept (authorize state header)
  Prog.ofExcept (ensureSyncRequestMatchesClaims req claims)
  garbageCollectTempStreams state req.activeInceptions

end Handlers

/-- A stream name keeps the readable start of its subject. -/
example : (streamName "fluidbg-green-in-0011").toList.take 18 = "fbg_fluidbg-green-".toList := by
  decide +kernel

end FluidBG.Nats
