import FluidBG.Lib.Log
import FluidBG.Plugins.Drain
/-!
# Draining the subjects of NATS

`lifecycle.rs`, `input.rs`, `combiner.rs` and `nats.rs` of the NATS plugin in JetStream mode, as far
as their parts run beside each other: the turns of the worker loops, the handlers of `/drain` and of
`/drain-status`, and the applications, which consume the subjects under durables of their own. The
stream of a subject is a log; a thread that has fetched a message holds it until it goes out of
scope, and the server does not notice.

What no function reads, the world only writes down: which messages an application acknowledged, and
what the inceptor published of the messages it held.
-/

set_option autoImplicit false

namespace FluidBG.Nats

open Lib

/-! ## Calls -/

/-- Where a consumer starts that does not exist yet. -/
inductive DeliverPolicy where
  | all
  | new
  deriving DecidableEq

structure ConsumerBacklog where
  pending : Nat
  ackPending : Nat

inductive SubjectCall where
  /-- `runtime_mode`. -/
  | mode
  /-- `set_runtime_mode(Draining)`. -/
  | setDraining
  | connect
  /-- `next_message_inner`. -/
  | fetch (policy : DeliverPolicy) (subject durable : String)
  /-- The message that was fetched goes out of scope. -/
  | drop
  /-- The `info` of a consumer. -/
  | backlog (subject durable : String)
  | work (c : WorkCall)
  /-- The answer of `/drain-status`. -/
  | respond (status : PluginDrainStatusResponse)

@[reducible] def SubjectAnswer : SubjectCall → Type
  | .mode => RuntimeMode
  | .connect => Except Unit Unit
  | .fetch _ _ _ => Except Unit (Option Message)
  | .backlog _ _ => Except Unit ConsumerBacklog
  | .work c => WorkAnswer c
  | _ => Unit

abbrev SubjectOp := Prog SubjectCall SubjectAnswer Unit

namespace SubjectOp

/-- The error of an answer is the error of the program. -/
def ask {α : Type} (p : SubjectOp (Except Unit α)) : SubjectOp α :=
  p.bind fun r => Prog.ofExcept r

/-- The error of a step is only logged. -/
def logged {α : Type} (p : SubjectOp α) : SubjectOp Unit :=
  (p.result : SubjectOp (Except Unit α)).bind fun _ => .pure ()

/-- The steps of a worker on the message it holds. -/
def work {α : Type} (p : WorkerOp α) : SubjectOp α :=
  p.lift SubjectCall.work fun _ a => a

def mode : SubjectOp RuntimeMode := Prog.ask SubjectCall.mode

def connect : SubjectOp Unit := ask (Prog.ask SubjectCall.connect)

def fetch (policy : DeliverPolicy) (subject durable : String) : SubjectOp (Option Message) :=
  ask (Prog.ask (SubjectCall.fetch policy subject durable))

/-- What is done with a message in scope. -/
def holding (p : WorkerOp Unit) : SubjectOp Unit := do
  let (r : Except Unit Unit) ← (work p).result
  Prog.ask SubjectCall.drop
  Prog.ofExcept r

def consumerBacklog (subject durable : String) : SubjectOp ConsumerBacklog :=
  ask (Prog.ask (SubjectCall.backlog subject durable))

end SubjectOp

/-! ## The world -/

/-- How the next call of a thread ends. -/
structure SubjectOutcome where
  call : CallOutcome
  /-- The message that the server hands out, by its place in the log: one that is new to the
  durable, or one whose acknowledgement is overdue. Without one the time runs out. -/
  pick : Option Nat
  /-- The status of a request to the verifier or the operator. -/
  status : Option Nat
  now : Timestamp
  deriving DecidableEq

/-- A message that a thread holds, and where it has published it. -/
structure Hand where
  entry : Nat
  subject : String
  durable : String
  sent : List String
  deriving DecidableEq

/-- What a thread has been answered so far. -/
structure SubjectMemory where
  hand : Option Hand
  /-- The mode it found when it last looked. -/
  looked : Option RuntimeMode
  /-- The consumers, by subject and durable, that it has found without a backlog. -/
  counted : List (String × String)

def SubjectMemory.start : SubjectMemory := ⟨none, none, []⟩

/-- A thread has published a message of the log. -/
structure Publication where
  entry : Nat
  target : String
  /-- An application had acknowledged the message before. -/
  late : Bool
  deriving DecidableEq

structure SubjectWorld where
  log : Log String String Message
  mode : RuntimeMode
  /-- The messages that an application acknowledged. -/
  acknowledged : List Nat
  published : List Publication
  /-- A call of `/drain-status` that found the inceptor draining has answered that it is drained. -/
  drained : Bool

/-- An inceptor whose threads are still to begin; the messages are those stored so far. -/
def SubjectWorld.start (messages : List (String × Message)) (mode : RuntimeMode) : SubjectWorld where
  log := messages.foldl (fun log m => log.append m.1 m.2) ⟨[]⟩
  mode := mode
  acknowledged := []
  published := []
  drained := false

/-- `queue_group_durable`. -/
def queueGroupDurable (queueGroup subject : String) : String :=
  streamName s!"{queueGroup}_{subject}"

/-- `durable_name`. -/
def durableName (start subject : String) : String := streamName s!"{start}_{subject}"

/-- What others do at the server. An application consumes a subject through the durable of the queue
group that its environment then names. -/
inductive SubjectMove where
  | store (subject : String) (message : Message)
  /-- An application is handed a message. -/
  | handOut (i : Nat) (queueGroup : String)
  /-- An application acknowledges a message it was handed. -/
  | acknowledge (i : Nat) (queueGroup : String)
  /-- A limit of the stream discards a message. -/
  | discard (i : Nat)
  deriving DecidableEq

section Serve

variable (x : SubjectMemory) (w : SubjectWorld) (o : SubjectOutcome)

/-- The message goes to the target; what is known of it is written down. -/
def SubjectWorld.publish (target : String) (message : Message) : SubjectWorld :=
  { w with
    log := w.log.append target message
    published := match x.hand with
      | some hand => ⟨hand.entry, target, hand.entry ∈ w.acknowledged⟩ :: w.published
      | none => w.published }

def SubjectMemory.publish (target : String) : SubjectMemory :=
  { x with hand := x.hand.map fun hand => { hand with sent := target :: hand.sent } }

/-- One step of a worker on the message it holds. -/
def serveSubjectWork : (c : WorkCall) → WorkAnswer c × SubjectWorld × SubjectMemory
  | .publish target message =>
    let (a, w') := o.call.answer () w (w.publish x target message)
    (a, w', if o.call = .refused then x else x.publish target)
  | .ack => match x.hand with
    | some hand =>
      let (a, log) := o.call.answer () w.log (w.log.ack hand.entry hand.durable)
      (a, { w with log := log }, x)
    | none => (.error (), w, x)
  | .requeue => (.error (), w, x)
  | .now => (o.now, w, x)
  | .notify _ _ _ => (o.status, w, x)
  | .register _ _ _ => (o.status, w, x)

def SubjectWorld.serve : (c : SubjectCall) → SubjectAnswer c × SubjectWorld × SubjectMemory
  | .mode => (w.mode, w, { x with looked := some w.mode })
  | .setDraining => ((), { w with mode := .draining }, x)
  | .connect => ((o.call.answer () w w).1, w, x)
  | .fetch _ subject durable =>
    match o.pick.bind fun i => (w.log.hand subject durable i).map fun handed => (i, handed) with
    | some (i, message, log) =>
      let (a, log) := o.call.answer (some message) w.log log
      (a, { w with log := log },
        { x with hand := if o.call = .ok then some ⟨i, subject, durable, []⟩ else x.hand })
    | none => ((o.call.answer none w w).1, w, x)
  | .drop => ((), w, { x with hand := none })
  | .backlog subject durable =>
    let backlog : ConsumerBacklog :=
      ⟨w.log.pending subject durable, w.log.ackPending subject durable⟩
    ((o.call.answer backlog w w).1, w,
      if o.call = .ok ∧ backlog.pending + backlog.ackPending = 0 then
        { x with counted := (subject, durable) :: x.counted }
      else x)
  | .work c => serveSubjectWork x w o c
  | .respond status =>
    ((), { w with drained := w.drained || (status.drained && x.looked = some .draining) }, x)

/-- A step of the others, where it is possible. -/
def SubjectWorld.move : SubjectMove → Option SubjectWorld
  | .store subject message => some { w with log := w.log.append subject message }
  | .handOut i queueGroup => match w.log.entries[i]? with
    | some e => (w.log.hand e.subject (queueGroupDurable queueGroup e.subject) i).map fun handed =>
      { w with log := handed.2 }
    | none => none
  | .acknowledge i queueGroup => match w.log.entries[i]? with
    | some e =>
      if queueGroupDurable queueGroup e.subject ∈ e.handed then
        some { w with
          log := w.log.ack i (queueGroupDurable queueGroup e.subject)
          acknowledged := i :: w.acknowledged }
      else none
    | none => none
  | .discard i => some { w with log := w.log.discard i }

end Serve

/-- The threads of an inceptor, and the others at its server. -/
def subjectProcess :
    Shared SubjectCall SubjectAnswer SubjectMemory SubjectWorld SubjectOutcome SubjectMove where
  serve x w c o := some (w.serve x o c)
  move := SubjectWorld.move

/-! ## The names -/

/-- `combiner_durable`. -/
def combinerDurable (source : String) : String := durableName "combiner" source

/-- `input_consumer_durable`. -/
def inputConsumerDurable (queueGroup : Option String) (subject : String) : String :=
  match queueGroup with
  | some queueGroup => queueGroupDurable queueGroup subject
  | none => durableName "drain" subject

/-- The two temporary subjects of a role with the durables that the drain looks at, and the subject
their messages go back to. -/
structure DrainedSubjects where
  base : String
  green : String
  greenDurable : String
  blue : String
  blueDurable : String

section Names

variable (roles : List PluginRole) (config : Config)

def movesInputSubjects : Bool := hasRole roles .duplicator || hasRole roles .splitter

/-- The targets of one input block. -/
def blockDrainTargets (block : Option InputRoleConfig) : Except Unit DrainedSubjects := do
  let block ← required block
  let base ← required block.inputSubject
  let green ← required block.greenInputSubject
  let blue ← required block.blueInputSubject
  pure ⟨base, green, inputConsumerDurable (block.greenQueueGroup.or block.queueGroup) green,
    blue, inputConsumerDurable (block.blueQueueGroup.or block.queueGroup) blue⟩

def inputDrainTargets : Except Unit DrainedSubjects :=
  if hasRole roles .duplicator then blockDrainTargets config.duplicator
  else blockDrainTargets config.splitter

/-- The subjects of `drain_output_subjects` and of `run_combiner`. -/
def outputDrainTargets : Except Unit DrainedSubjects := do
  let combiner ← required config.combiner
  let green ← required combiner.greenOutputSubject
  let blue ← required combiner.blueOutputSubject
  let base ← required combiner.outputSubject
  pure ⟨base, green, combinerDurable green, blue, combinerDurable blue⟩

/-- `drain_backlog_targets`, whose combiner part does not need the output subject. -/
def drainBacklogTargets : Except Unit (List (String × String)) := do
  let input ← (if movesInputSubjects roles then do
      let targets ← inputDrainTargets roles config
      pure [(targets.green, targets.greenDurable), (targets.blue, targets.blueDurable)]
    else pure [] : Except Unit (List (String × String)))
  let output ← (if hasRole roles .combiner then do
      let combiner ← required config.combiner
      let green ← required combiner.greenOutputSubject
      let blue ← required combiner.blueOutputSubject
      pure [(green, combinerDurable green), (blue, combinerDurable blue)]
    else pure [] : Except Unit (List (String × String)))
  pure (input ++ output)

/-- `input_source_subject`. -/
def inputSourceSubject : Except Unit String :=
  if hasRole roles .duplicator then do
    let block ← required config.duplicator
    required block.inputSubject
  else if hasRole roles .splitter then do
    let block ← required config.splitter
    required block.inputSubject
  else do
    let block ← required config.consumer
    required block.inputSubject

structure SourceDurable where
  name : String
  usesExistingConsumer : Bool

/-- `input_source_durable`. -/
def inputSourceDurable (inputSubject : String) : Except Unit SourceDurable := do
  let ofRole := fun (role : PluginRole) (block : Option InputRoleConfig) =>
    (if hasRole roles role then do
      let block ← required block
      pure (block.queueGroup.map fun queueGroup =>
        (⟨queueGroupDurable queueGroup inputSubject, true⟩ : SourceDurable))
    else pure none : Except Unit (Option SourceDurable))
  let duplicator ← ofRole .duplicator config.duplicator
  match duplicator with
  | some source => pure source
  | none => do
    let splitter ← ofRole .splitter config.splitter
    match splitter with
    | some source => pure source
    | none => pure ⟨durableName "input" inputSubject, false⟩

/-- The policy of the fetches of `run_input_pipeline`. -/
def sourcePolicy (source : SourceDurable) : DeliverPolicy :=
  if movesInputSubjects roles && !source.usesExistingConsumer then .new else .all

end Names

/-! ## The inceptor -/

section Inceptor

variable (state : WorkerState Config)

/-- `move_subject_messages`, for at most so many messages. -/
def moveSubjectMessages (source target durable : String) : Nat → SubjectOp Nat
  | 0 => .pure 0
  | max + 1 => do
    match ← SubjectOp.fetch .all source durable with
    | none => pure 0
    | some message => do
      SubjectOp.holding do
        publishTo message target
        ack
      let moved ← moveSubjectMessages source target durable max
      pure (moved + 1)

def drainInputSubjects : SubjectOp Unit :=
  if state.config.mode.isCore || !movesInputSubjects state.roles then .pure ()
  else do
    let targets ← Prog.ofExcept (inputDrainTargets state.roles state.config)
    SubjectOp.connect
    Prog.forEach [(targets.green, targets.greenDurable), (targets.blue, targets.blueDurable)]
      fun target => do
        let _ ← moveSubjectMessages target.1 targets.base target.2 10000
        pure ()

def drainOutputSubject (source target : String) : SubjectOp Unit := do
  SubjectOp.connect
  let _ ← moveSubjectMessages source target (combinerDurable source) 10000
  pure ()

def drainOutputSubjects : SubjectOp Unit :=
  if state.config.mode.isCore || !hasRole state.roles .combiner then .pure ()
  else do
    let targets ← Prog.ofExcept (outputDrainTargets state.config)
    drainOutputSubject targets.green targets.base
    drainOutputSubject targets.blue targets.base

/-- The answer about the consumers, from what they have left together. -/
def subjectDrainStatus (remaining ackPending : Nat) : PluginDrainStatusResponse :=
  let drained := remaining = 0 ∧ ackPending = 0
  { drained := drained
    message := some (
      if drained then "temporary NATS consumers have no pending messages"
      else s!"temporary NATS consumers still have {remaining} pending and {ackPending} " ++
        "ack-pending message(s)") }

/-- The backlogs of the targets, added up. -/
def addBacklogs (targets : List (String × String)) : SubjectOp (Nat × Nat) :=
  Prog.foldEach targets (0, 0) fun sums target => do
    let backlog ← SubjectOp.consumerBacklog target.1 target.2
    pure (sums.1 + backlog.pending, sums.2 + backlog.ackPending)

def computeDrainStatus : SubjectOp PluginDrainStatusResponse :=
  if state.config.mode.isCore then .pure ⟨true, some (
    "core NATS mode has no durable pending or ack-pending state; drain is best-effort")⟩
  else do
    let mode ← SubjectOp.mode
    (if mode = .draining then do
      drainInputSubjects state
      drainOutputSubjects state
    else pure ())
    SubjectOp.connect
    let targets ← Prog.ofExcept (drainBacklogTargets state.roles state.config)
    let sums ← addBacklogs targets
    pure (subjectDrainStatus sums.1 sums.2)

/-- A request that is not the operator's does nothing and is left out. -/
def drainStatusHandler : SubjectOp Unit := do
  let status ← computeDrainStatus state
  Prog.ask (SubjectCall.respond status)

/-- The drain only changes the mode; its assignments are `buildDrainAssignments`. -/
def drainHandler : SubjectOp Unit := Prog.ask SubjectCall.setDraining

/-- One turn of the inner loop of `run_input_pipeline`. The mode is not looked at again once the
message is there. -/
def runInputPipeline : SubjectOp Unit := do
  let inputSubject ← Prog.ofExcept (inputSourceSubject state.roles state.config)
  match ← SubjectOp.mode with
  | .idle => pure ()
  | .draining => (drainInputSubjects state).logged
  | .active => do
    let source ← Prog.ofExcept (inputSourceDurable state.roles state.config inputSubject)
    match ← (SubjectOp.fetch (sourcePolicy state.roles source) inputSubject source.name).result with
    | .ok (some message) => (SubjectOp.holding (processInputMessage state message)).logged
    | .ok none => pure ()
    | .error (_ : Unit) => pure ()

/-- One turn of `run_combine_loop`. -/
def runCombineLoop (source target : String) : SubjectOp Unit := do
  match ← SubjectOp.mode with
  | .idle => pure ()
  | _ => do
    SubjectOp.connect
    let mode ← SubjectOp.mode
    if mode = .draining then drainOutputSubject source target
    else
      match ← (SubjectOp.fetch .all source (durableName "combiner" source)).result with
      | .ok (some message) => SubjectOp.holding (processOutputMessage state message source target)
      | .ok none => pure ()
      | .error (_ : Unit) => pure ()

/-- What a thread of the inceptor does. -/
inductive SubjectJob where
  /-- One turn of `run_input_pipeline`. -/
  | input (trafficPercent : Nat)
  /-- One turn of the loop of `run_combiner` for blue, or for green. -/
  | combine (blue : Bool)
  /-- A request to `/drain`. -/
  | drain
  /-- A request to `/drain-status`. -/
  | status
  deriving DecidableEq

def subjectProgram (worker : Option QueueWorkerRole) : SubjectJob → SubjectOp Unit
  | .input trafficPercent =>
    if worker = some .input then
      runInputPipeline { state with trafficPercent := trafficPercent }
    else pure ()
  | .combine blue =>
    if worker = some .combiner then do
      let targets ← Prog.ofExcept (outputDrainTargets state.config)
      runCombineLoop state (if blue then targets.blue else targets.green) targets.base
    else pure ()
  | .drain => drainHandler
  | .status => drainStatusHandler state

/-- The thread of a job. An inceptor with roles that exclude each other does not run. -/
def subjectJobs (job : SubjectJob) : Thread SubjectCall SubjectAnswer Unit SubjectMemory where
  prog := match queueWorkerRole state.roles with
    | .ok worker => subjectProgram state worker job
    | .error _ => .pure ()
  memory := .start

end Inceptor

end FluidBG.Nats
