import FluidBG.Lib.Broker
import FluidBG.Lib.Pool
import FluidBG.Plugins.Worker
/-!
# Draining an inceptor

`lifecycle.rs`, `input.rs`, `combiner.rs` and `amqp.rs` of the queue plugins, as far as their parts
run beside each other: the turns of the worker loops, the handlers of `/drain` and of
`/drain-status`, and what others do to the queues in the meantime. All of them share the mode of the
inceptor and the broker; Azure also counts the messages in flight.

A loop without a bound is cut off after a number of turns, which is a parameter of the thread: every
finite run of the loop is a run with a number that is large enough.
-/

set_option autoImplicit false

namespace FluidBG

open Lib

/-! ## Calls -/

/-- What is at a place: `QueueDepth`. -/
structure QueueDepth where
  ready : Nat
  unacknowledged : Nat
  consumers : Nat
  deriving DecidableEq

/-- A call of an inceptor whose broker keeps messages at the places `P`. -/
inductive InceptorCall (P : Type) where
  /-- `runtime_mode`. -/
  | mode
  /-- `set_runtime_mode(Draining)`. -/
  | setDraining
  /-- `track_message`. -/
  | track
  /-- The guard that `track_message` returned is dropped. -/
  | release
  /-- `in_flight_messages`. -/
  | inFlight
  | connect
  /-- The connection is dropped; what it holds of a message is given back. -/
  | disconnect
  /-- `create_queue` or `declare_queue`. -/
  | ensureQueue (queue : String)
  /-- `receive_peek_lock` or `basic_get`. -/
  | receive (place : P)
  /-- One answer about the messages at some places. -/
  | depth (places : List P)
  /-- The number of messages that are ready, and of consumers. -/
  | queueState (place : P)
  | work (c : WorkCall)
  /-- The answer of `/drain-status`. -/
  | respond (status : PluginDrainStatusResponse)

@[reducible] def InceptorAnswer {P : Type} : InceptorCall P → Type
  | .mode => RuntimeMode
  | .inFlight => Nat
  | .connect => Except Unit Unit
  | .ensureQueue _ => Except Unit Unit
  | .receive _ => Except Unit (Option Message)
  | .depth _ => Except Unit QueueDepth
  | .queueState _ => Except Unit (Nat × Nat)
  | .work c => WorkAnswer c
  | _ => Unit

abbrev InceptorOp (P : Type) := Prog (InceptorCall P) InceptorAnswer Unit

/-- The error of an answer is the error of the program. -/
def InceptorOp.ask {P α : Type} (p : InceptorOp P (Except Unit α)) : InceptorOp P α :=
  p.bind fun r => Prog.ofExcept r

/-- The error of a step is only logged. -/
def InceptorOp.logged {P α : Type} (p : InceptorOp P α) : InceptorOp P Unit :=
  (p.result : InceptorOp P (Except Unit α)).bind fun _ => .pure ()

/-- The steps of a worker on a message it has received. -/
def WorkerOp.run {P α : Type} (p : WorkerOp α) : InceptorOp P α :=
  p.lift InceptorCall.work fun _ a => a

section Steps

variable {P : Type}

def runtimeMode : InceptorOp P RuntimeMode := Prog.ask InceptorCall.mode

def connect : InceptorOp P Unit := InceptorOp.ask (Prog.ask InceptorCall.connect)

def disconnect : InceptorOp P Unit := Prog.ask InceptorCall.disconnect

def ensureQueue (queue : String) : InceptorOp P Unit :=
  InceptorOp.ask (Prog.ask (InceptorCall.ensureQueue queue))

def receive (place : P) : InceptorOp P (Option Message) :=
  InceptorOp.ask (Prog.ask (InceptorCall.receive place))

/-- What runs on a connection of its own. -/
def withConnection {α : Type} (p : InceptorOp P α) : InceptorOp P α := do
  connect
  let (r : Except Unit α) ← p.result
  disconnect
  Prog.ofExcept r

end Steps

/-! ## The world -/

/-- How the next call of a thread ends. -/
structure InceptorOutcome where
  call : CallOutcome
  /-- The status of a request to the verifier or the operator. -/
  status : Option Nat
  consumers : Nat
  now : Timestamp
  deriving DecidableEq

/-- What a thread of an inceptor has been answered so far. -/
structure InceptorMemory (P : Type) where
  /-- The message it holds. -/
  receipt : Option Nat
  /-- The mode it found when it last looked. -/
  looked : Option RuntimeMode
  /-- It counts as a message in flight. -/
  tracked : Bool
  /-- It has found the inceptor active since it counts as one. -/
  cleared : Bool
  /-- The places it has found empty, or without a ready message. -/
  counted : List P
  /-- It has found no message in flight. -/
  grounded : Bool

def InceptorMemory.start {P : Type} : InceptorMemory P := ⟨none, none, false, false, [], false⟩

structure InceptorWorld (P : Type) where
  broker : Broker P Message
  mode : RuntimeMode
  inFlight : Nat
  /-- A call of `/drain-status` that found the inceptor draining has answered that it is drained. -/
  drained : Bool

/-- An inceptor whose threads are still to begin. -/
def InceptorWorld.start {P : Type} (broker : Broker P Message) (mode : RuntimeMode) :
    InceptorWorld P :=
  ⟨broker, mode, 0, false⟩

section Serve

variable {P : Type} [DecidableEq P]

/-- What is counted at some places, together. -/
def countAll (count : P → Nat) : List P → Nat
  | [] => 0
  | p :: places => count p + countAll count places

/-- What lies at some places, as one answer. -/
def Lib.Broker.depthOf (b : Broker P Message) (places : List P) (consumers : Nat) : QueueDepth :=
  ⟨countAll b.ready places, countAll b.held places, consumers⟩

/-- The places that an answer shows to be empty. -/
def InceptorMemory.found (x : InceptorMemory P) (places : List P) (outcome : CallOutcome)
    (messages : Nat) : InceptorMemory P :=
  if outcome = .ok ∧ messages = 0 then { x with counted := places ++ x.counted } else x

/-- One step of a worker on its message. A queue is a place of the broker. -/
def serveWork (place : String → P) (x : InceptorMemory P) (w : InceptorWorld P)
    (o : InceptorOutcome) : (c : WorkCall) → WorkAnswer c × InceptorWorld P × InceptorMemory P
  | .publish queue message =>
    let (a, broker) := o.call.answer () w.broker (w.broker.put (place queue) message)
    (a, { w with broker := broker }, x)
  | .ack => match x.receipt with
    | some receipt =>
      let (a, broker) := o.call.answer () w.broker (w.broker.settle receipt)
      (a, { w with broker := broker },
        { x with receipt := if o.call = .ok then none else x.receipt })
    | none => (.error (), w, x)
  | .requeue => match x.receipt with
    | some receipt =>
      let (a, broker) := o.call.answer () w.broker (w.broker.giveBack receipt)
      (a, { w with broker := broker },
        { x with receipt := if o.call = .ok then none else x.receipt })
    | none => (.error (), w, x)
  | .now => (o.now, w, x)
  | .notify _ _ _ => (o.status, w, x)
  | .register _ _ _ => (o.status, w, x)

def InceptorWorld.serve (place : String → P) (x : InceptorMemory P) (w : InceptorWorld P)
    (o : InceptorOutcome) :
    (c : InceptorCall P) → InceptorAnswer c × InceptorWorld P × InceptorMemory P
  | .mode => (w.mode, w, { x with looked := some w.mode, cleared := x.tracked && w.mode = .active })
  | .setDraining => ((), { w with mode := .draining }, x)
  | .track =>
    ((), { w with inFlight := w.inFlight + 1 }, { x with tracked := true, cleared := false })
  | .release =>
    ((), { w with inFlight := w.inFlight - 1 }, { x with tracked := false, cleared := false })
  | .inFlight => (w.inFlight, w, { x with grounded := w.inFlight = 0 })
  | .connect => ((o.call.answer () w w).1, w, x)
  | .disconnect => match x.receipt with
    | some receipt =>
      ((), { w with broker := w.broker.giveBack receipt }, { x with receipt := none })
    | none => ((), w, x)
  | .ensureQueue _ => ((o.call.answer () w w).1, w, x)
  | .receive source => match w.broker.take source with
    | some (receipt, message, broker) =>
      let (a, broker) := o.call.answer (some message) w.broker broker
      (a, { w with broker := broker },
        { x with receipt := if o.call = .ok then some receipt else x.receipt })
    | none => ((o.call.answer none w w).1, w, x)
  | .depth places =>
    let depth := w.broker.depthOf places o.consumers
    ((o.call.answer depth w w).1, w,
      x.found places o.call (depth.ready + depth.unacknowledged))
  | .queueState queue =>
    let ready := w.broker.ready queue
    ((o.call.answer (ready, o.consumers) w w).1, w, x.found [queue] o.call ready)
  | .work c => serveWork place x w o c
  | .respond status =>
    ((), { w with drained := w.drained || (status.drained && x.looked = some .draining) }, x)

/-- The threads of an inceptor, and the others at its broker. -/
def inceptorProcess (place : String → P) :
    Shared (InceptorCall P) InceptorAnswer (InceptorMemory P) (InceptorWorld P) InceptorOutcome
      (BrokerMove P Message) where
  serve x w c o := some (w.serve place x o c)
  move w v := (w.broker.move v).map fun broker => { w with broker := broker }

end Serve

/-! ## The names -/

/-- `with_context`: a missing name is an error. -/
def required {α : Type} (value : Option α) : Except Unit α :=
  match value with
  | some value => .ok value
  | none => .error ()

section Names

variable {D : Type}

/-- The block of the role that moves input. -/
def inputBlock (roles : List PluginRole) (config : QueueConfig D) :
    Option (Option InputRoleConfig) :=
  if hasRole roles .duplicator then some config.duplicator
  else if hasRole roles .splitter then some config.splitter
  else none

/-- The queue of `run_input_pipeline`. -/
def inputQueue (roles : List PluginRole) (config : QueueConfig D) : Except Unit String :=
  match inputBlock roles config with
  | some block => required (block.bind (·.inputQueue))
  | none => required (config.consumer.bind (·.inputQueue))

/-- The two temporary queues of a role, and the queue their messages go back to. -/
structure DrainedQueues where
  base : String
  green : String
  blue : String

/-- The queues of `drain_input_queues`, where there is a role that moves input. -/
def drainedInput (roles : List PluginRole) (config : QueueConfig D) :
    Except Unit (Option DrainedQueues) :=
  match inputBlock roles config with
  | some block => do
    let base ← required (block.bind (·.inputQueue))
    let green ← required (block.bind (·.greenInputQueue))
    let blue ← required (block.bind (·.blueInputQueue))
    pure (some ⟨base, green, blue⟩)
  | none => pure none

/-- The queues of `drain_output_queues` and of `run_combiner`. -/
def drainedOutput (config : QueueConfig D) : Except Unit DrainedQueues := do
  let green ← required (config.combiner.bind (·.greenOutputQueue))
  let blue ← required (config.combiner.bind (·.blueOutputQueue))
  let base ← required (config.combiner.bind (·.outputQueue))
  pure ⟨base, green, blue⟩

/-- The temporary queues that a drain status is about, with what they are called in its text. -/
def statusQueues (roles : List PluginRole) (config : QueueConfig D) :
    Except Unit (Option (String × String × String)) :=
  match inputBlock roles config with
  | some block => do
    let green ← required (block.bind (·.greenInputQueue))
    let blue ← required (block.bind (·.blueInputQueue))
    pure (some ("temporary input queues", green, blue))
  | none =>
    if hasRole roles .combiner then do
      let green ← required (config.combiner.bind (·.greenOutputQueue))
      let blue ← required (config.combiner.bind (·.blueOutputQueue))
      pure (some ("temporary output queues", green, blue))
    else pure none

/-- The queue that a shadow queue's messages go back to. -/
def shadowTarget (config : QueueConfig D) (base : String) : String :=
  (shadowQueueName config base).getD base

end Names

/-- What a thread of the inceptor does. -/
inductive InceptorJob where
  /-- One turn of `run_input_pipeline`. -/
  | input (trafficPercent moves : Nat)
  /-- One turn of the loop of `run_combiner` for blue, or for green. -/
  | combine (blue : Bool) (moves : Nat)
  /-- A request to `/drain`. -/
  | drain (moves : Nat)
  /-- A request to `/drain-status`. -/
  | status (moves : Nat)
  deriving DecidableEq

/-- The thread of a job. An inceptor with roles that exclude each other does not run. -/
def inceptorThread {P : Type} (roles : List PluginRole)
    (program : Option QueueWorkerRole → InceptorJob → InceptorOp P Unit) (job : InceptorJob) :
    Thread (InceptorCall P) InceptorAnswer Unit (InceptorMemory P) where
  prog := match queueWorkerRole roles with
    | .ok worker => program worker job
    | .error _ => .pure ()
  memory := .start

/-! ## Azure Service Bus -/

namespace ServiceBus

/-- A queue, or its subqueue of dead letters. -/
structure BusPath where
  queue : String
  dead : Bool
  deriving DecidableEq

def queuePath (queue : String) : BusPath := ⟨queue, false⟩

def deadLetterPath (queue : String) : BusPath := ⟨queue, true⟩

abbrev BusOp := InceptorOp BusPath

/-- `complete`. -/
def complete : BusOp Unit := WorkerOp.run ack

def abandon : BusOp Unit := WorkerOp.run requeue

/-- `move_available_messages_from_path`, for as many messages. -/
def moveAvailable (source : BusPath) (target : String) : Nat → BusOp Unit
  | 0 => .fail ()
  | moves + 1 => do
    match ← receive source with
    | none => pure ()
    | some message =>
      match ← (WorkerOp.run (publishTo message target)).result with
      | .ok () => do
        complete
        moveAvailable source target moves
      | .error (_ : Unit) => do
        abandon.logged
        Prog.fail ()

section Inceptor

variable (client : ServiceBusClient) (infraDisabled : Bool) (state : WorkerState Config)

/-- The messages of a queue and of its dead letters go to another queue. -/
def moveBack (source target : String) (moves : Nat) : BusOp Unit := do
  moveAvailable (queuePath source) target moves
  moveAvailable (deadLetterPath source) target moves

/-- What the two drains do for one temporary queue. -/
def drainQueue (base : String) (moves : Nat) (source : String) : BusOp Unit := do
  moveBack source base moves
  match shadowQueueName state.config source with
  | some shadow => moveBack shadow (shadowTarget state.config base) moves
  | none => pure ()

/-- The queues messages go back to are created first. -/
def createTargets (base : String) : BusOp Unit :=
  if infraDisabled then pure ()
  else do
    ensureQueue base
    match shadowQueueName state.config base with
    | some shadow => ensureQueue shadow
    | none => pure ()

def drainInputQueues (moves : Nat) : BusOp Unit := do
  match ← Prog.ofExcept (drainedInput state.roles state.config) with
  | none => pure ()
  | some queues => do
    createTargets infraDisabled state queues.base
    Prog.forEach [queues.green, queues.blue] (drainQueue state queues.base moves)

def drainOutputQueue (moves : Nat) (source result : String) : BusOp Unit := do
  createTargets infraDisabled state result
  drainQueue state result moves source

def drainOutputQueues (moves : Nat) : BusOp Unit :=
  if hasRole state.roles .combiner then do
    let queues ← Prog.ofExcept (drainedOutput state.config)
    drainOutputQueue infraDisabled state moves queues.green queues.base
    drainOutputQueue infraDisabled state moves queues.blue queues.base
  else pure ()

def drainRuntimeQueues (moves : Nat) : BusOp Unit := do
  drainInputQueues infraDisabled state moves
  drainOutputQueues infraDisabled state moves

/-! ### The status -/

def messageCount (places : List BusPath) : BusOp Nat := do
  let depth ← InceptorOp.ask (Prog.ask (InceptorCall.depth places))
  pure (depth.ready + depth.unacknowledged)

/-- The ARM API has the dead letters in the same answer. -/
def queueDrainMessageCount (queue : String) : BusOp Nat :=
  if client.arm.isSome then messageCount [queuePath queue, deadLetterPath queue]
  else do
    let active ← messageCount [queuePath queue]
    let deadLetter ← messageCount [deadLetterPath queue]
    pure (active + deadLetter)

def queueDrainMessageCountWithShadow (queue : String) : BusOp Nat := do
  let total ← queueDrainMessageCount client queue
  match shadowQueueName state.config queue with
  | some shadow => do
    let messages ← queueDrainMessageCount client shadow
    pure (total + messages)
  | none => pure total

def queueDrainStatus (label : String) (greenMessages blueMessages inFlight : Nat) :
    PluginDrainStatusResponse :=
  let drained := greenMessages = 0 ∧ blueMessages = 0 ∧ inFlight = 0
  { drained := drained
    message := some (
      if drained then
        s!"{label} report zero total messages and no plugin-owned locked messages remain"
      else if inFlight > 0 then s!"{label} still have {inFlight} plugin-owned locked message(s)"
      else s!"{label} still contain messages (green={greenMessages}, blue={blueMessages})") }

def computeDrainStatus (moves : Nat) : BusOp PluginDrainStatusResponse := do
  let mode ← runtimeMode
  (if mode = .draining then drainRuntimeQueues infraDisabled state moves else pure ())
  match ← Prog.ofExcept (statusQueues state.roles state.config) with
  | some (label, green, blue) => do
    let greenMessages ← queueDrainMessageCountWithShadow client state green
    let blueMessages ← queueDrainMessageCountWithShadow client state blue
    let inFlight ← Prog.ask InceptorCall.inFlight
    pure (queueDrainStatus label greenMessages blueMessages inFlight)
  | none => pure ⟨true, some "no drain-sensitive Azure Service Bus roles active"⟩

/-- A request that is not the operator's does nothing and is left out. -/
def drainStatusHandler (moves : Nat) : BusOp Unit := do
  let status ← computeDrainStatus client infraDisabled state moves
  Prog.ask (InceptorCall.respond status)

def drainHandler (moves : Nat) : BusOp Unit := do
  Prog.ask InceptorCall.setDraining
  drainRuntimeQueues infraDisabled state moves

/-! ### The workers -/

/-- What a worker does with a message it was handed: the guard is held for the rest of the turn. -/
def tracked (turn : RuntimeMode → WorkerOp Unit) : BusOp Unit := do
  Prog.ask InceptorCall.track
  let mode ← runtimeMode
  (WorkerOp.run (turn mode)).logged
  Prog.ask InceptorCall.release

/-- One turn of the loop of `run_input_pipeline`. -/
def runInputPipeline (moves : Nat) : BusOp Unit := do
  let input ← Prog.ofExcept (inputQueue state.roles state.config)
  match ← runtimeMode with
  | .idle => pure ()
  | .draining => (drainInputQueues infraDisabled state moves).logged
  | .active =>
    match ← (receive (queuePath input)).result with
    | .ok (some message) => tracked (inputTurn state message)
    | .ok none => pure ()
    | .error (_ : Unit) => pure ()

/-- One turn of `run_combine_loop`. -/
def runCombineLoop (moves : Nat) (source result : String) : BusOp Unit := do
  let combiner ← Prog.ofExcept (required state.config.combiner)
  match ← runtimeMode with
  | .idle => pure ()
  | .draining => (drainOutputQueue infraDisabled state moves source result).logged
  | .active =>
    match ← (receive (queuePath source)).result with
    | .ok (some message) =>
      tracked fun mode => combineTurn state message combiner mode source result
    | .ok none => pure ()
    | .error (_ : Unit) => pure ()

def inceptorProgram (worker : Option QueueWorkerRole) : InceptorJob → BusOp Unit
  | .input trafficPercent moves =>
    if worker = some .input then
      runInputPipeline infraDisabled { state with trafficPercent := trafficPercent } moves
    else pure ()
  | .combine blue moves =>
    if worker = some .combiner then do
      let queues ← Prog.ofExcept (drainedOutput state.config)
      runCombineLoop infraDisabled state moves (if blue then queues.blue else queues.green)
        queues.base
    else pure ()
  | .drain moves => drainHandler infraDisabled state moves
  | .status moves => drainStatusHandler client infraDisabled state moves

def inceptorJobs (job : InceptorJob) :
    Thread (InceptorCall BusPath) InceptorAnswer Unit (InceptorMemory BusPath) :=
  inceptorThread state.roles (inceptorProgram client infraDisabled state) job

end Inceptor

end ServiceBus

/-! ## RabbitMQ -/

namespace Rabbitmq

abbrev AmqpOp := InceptorOp String

/-- `move_queue_messages`, for as many messages. A queue that does not exist has none. -/
def moveQueueMessages (source target : String) : Nat → AmqpOp Unit
  | 0 => .fail ()
  | moves + 1 => do
    match ← receive source with
    | none => pure ()
    | some message => do
      WorkerOp.run (publishTo message target)
      WorkerOp.run ack
      moveQueueMessages source target moves

section Inceptor

variable (management infraDisabled : Bool) (state : WorkerState Config)

/-- What the two drains do for one temporary queue. -/
def drainQueue (base : String) (moves : Nat) (source : String) : AmqpOp Unit := do
  moveQueueMessages source base moves
  match shadowQueueName state.config source with
  | some shadow => moveQueueMessages shadow (shadowTarget state.config base) moves
  | none => pure ()

def declareShadow (base : String) : AmqpOp Unit :=
  match shadowQueueName state.config base with
  | some shadow => ensureQueue shadow
  | none => pure ()

def drainInputQueues (moves : Nat) : AmqpOp Unit := do
  match ← Prog.ofExcept (drainedInput state.roles state.config) with
  | none => pure ()
  | some queues => do
    (if infraDisabled then pure () else declareShadow state queues.base)
    Prog.forEach [queues.green, queues.blue] (drainQueue state queues.base moves)

def drainInputRoles (moves : Nat) : AmqpOp Unit :=
  if hasRole state.roles .duplicator || hasRole state.roles .splitter then
    withConnection (drainInputQueues infraDisabled state moves)
  else pure ()

def drainOutputQueue (moves : Nat) (source result : String) : AmqpOp Unit := withConnection do
  (if infraDisabled then pure ()
    else do
      ensureQueue result
      declareShadow state result)
  drainQueue state result moves source

def drainOutputQueues (moves : Nat) : AmqpOp Unit :=
  if hasRole state.roles .combiner then do
    let queues ← Prog.ofExcept (drainedOutput state.config)
    drainOutputQueue infraDisabled state moves queues.green queues.base
    drainOutputQueue infraDisabled state moves queues.blue queues.base
  else pure ()

def drainRuntimeQueues (moves : Nat) : AmqpOp Unit := do
  drainInputRoles infraDisabled state moves
  drainOutputQueues infraDisabled state moves

/-! ### The status -/

def queueDepth (queue : String) : AmqpOp QueueDepth :=
  InceptorOp.ask (Prog.ask (InceptorCall.depth [queue]))

def managementQueueDepthWithShadow (queue : String) : AmqpOp QueueDepth := do
  let depth ← queueDepth queue
  match shadowQueueName state.config queue with
  | some shadowQueue => do
    let shadow ← queueDepth shadowQueue
    pure ⟨depth.ready + shadow.ready, depth.unacknowledged + shadow.unacknowledged,
      depth.consumers + shadow.consumers⟩
  | none => pure depth

def queueState (queue : String) : AmqpOp (Nat × Nat) :=
  InceptorOp.ask (Prog.ask (InceptorCall.queueState queue))

def queueStateWithShadow (queue : String) : AmqpOp (Nat × Nat) := do
  let (ready, consumers) ← queueState queue
  match shadowQueueName state.config queue with
  | some shadow => do
    let (shadowReady, shadowConsumers) ← queueState shadow
    pure (ready + shadowReady, consumers + shadowConsumers)
  | none => pure (ready, consumers)

def managementDrainStatus (label : String) (green blue : QueueDepth) : PluginDrainStatusResponse :=
  let drained := green.ready + green.unacknowledged = 0 ∧ blue.ready + blue.unacknowledged = 0
  { drained := drained
    message := some (
      if drained then
        s!"{label} are empty and have no unacknowledged messages " ++
          s!"(consumers: green={green.consumers}, blue={blue.consumers})"
      else
        s!"{label} not drained (green ready={green.ready}, unacked={green.unacknowledged}, " ++
          s!"consumers={green.consumers}; blue ready={blue.ready}, " ++
          s!"unacked={blue.unacknowledged}, consumers={blue.consumers})") }

def readyDrainStatus (label : String) (green blue : Nat × Nat) : PluginDrainStatusResponse :=
  let drained := green.1 = 0 ∧ blue.1 = 0
  { drained := drained
    message := some (
      if drained then
        s!"{label} have no ready messages; RabbitMQ management API is not configured, " ++
          s!"so unacknowledged counts are not directly observable " ++
          s!"(consumers: green={green.2}, blue={blue.2})"
      else s!"{label} still contain ready messages (green={green.1}, blue={blue.1})") }

def queuePairDrainStatus (label green blue : String) : AmqpOp PluginDrainStatusResponse :=
  if management then do
    let greenDepth ← managementQueueDepthWithShadow state green
    let blueDepth ← managementQueueDepthWithShadow state blue
    pure (managementDrainStatus label greenDepth blueDepth)
  else do
    let greenState ← queueStateWithShadow state green
    let blueState ← queueStateWithShadow state blue
    pure (readyDrainStatus label greenState blueState)

def computeDrainStatus (moves : Nat) : AmqpOp PluginDrainStatusResponse := do
  let mode ← runtimeMode
  (if mode = .draining then drainRuntimeQueues infraDisabled state moves else pure ())
  withConnection do
    match ← Prog.ofExcept (statusQueues state.roles state.config) with
    | some (label, green, blue) => queuePairDrainStatus management state label green blue
    | none => pure ⟨true, some "no drain-sensitive RabbitMQ roles active"⟩

/-- A request that is not the operator's does nothing and is left out. -/
def drainStatusHandler (moves : Nat) : AmqpOp Unit := do
  let status ← computeDrainStatus management infraDisabled state moves
  Prog.ask (InceptorCall.respond status)

def drainHandler (moves : Nat) : AmqpOp Unit := do
  Prog.ask InceptorCall.setDraining
  drainRuntimeQueues infraDisabled state moves

/-! ### The workers -/

/-- A failure ends the connection. -/
def reconnecting (p : AmqpOp Unit) : AmqpOp Unit := do
  match ← p.result with
  | .ok () => pure ()
  | .error (_ : Unit) => disconnect

/-- One turn of the inner loop of `run_input_pipeline`. The mode is not looked at again once the
message is there. -/
def runInputPipeline (moves : Nat) : AmqpOp Unit := do
  let input ← Prog.ofExcept (inputQueue state.roles state.config)
  match ← runtimeMode with
  | .idle => pure ()
  | .draining => reconnecting (drainInputQueues infraDisabled state moves)
  | .active => reconnecting do
    match ← receive input with
    | some message => WorkerOp.run (processInputDelivery state message)
    | none => pure ()

/-- `run_combine_loop_once`, as far as one message. -/
def runCombineLoopOnce (source result : String) : AmqpOp Unit := withConnection do
  (if infraDisabled then pure ()
    else do
      ensureQueue source
      ensureQueue result)
  let combiner ← Prog.ofExcept (required state.config.combiner)
  let mode ← runtimeMode
  if mode = .active then
    match ← receive source with
    | some message => do
      let mode ← runtimeMode
      WorkerOp.run (processOutputDelivery state message combiner mode source result)
    | none => pure ()
  else pure ()

/-- One turn of `run_combine_loop`. -/
def runCombineLoop (moves : Nat) (source result : String) : AmqpOp Unit := do
  match ← runtimeMode with
  | .idle => pure ()
  | .draining => (drainOutputQueue infraDisabled state moves source result).logged
  | .active => (runCombineLoopOnce infraDisabled state source result).logged

def inceptorProgram (worker : Option QueueWorkerRole) : InceptorJob → AmqpOp Unit
  | .input trafficPercent moves =>
    if worker = some .input then
      runInputPipeline infraDisabled { state with trafficPercent := trafficPercent } moves
    else pure ()
  | .combine blue moves =>
    if worker = some .combiner then do
      let queues ← Prog.ofExcept (drainedOutput state.config)
      runCombineLoop infraDisabled state moves (if blue then queues.blue else queues.green)
        queues.base
    else pure ()
  | .drain moves => drainHandler infraDisabled state moves
  | .status moves => drainStatusHandler management infraDisabled state moves

def inceptorJobs (job : InceptorJob) :
    Thread (InceptorCall String) InceptorAnswer Unit (InceptorMemory String) :=
  inceptorThread state.roles (inceptorProgram management infraDisabled state) job

end Inceptor

end Rabbitmq

end FluidBG
