import FluidBG.Lib.Custody
import FluidBG.Plugins.Drain
/-!
# The movers of a drain

Whatever drains, moves messages: the handlers of `/drain` and of `/drain-status`, the workers of an
inceptor that is draining, and those of a pod that was started again. Here their calls are recorded
besides what `Drain` has of them: which message a thread holds and where it has put a copy of it,
and whether any call has failed; and the broker keeps a list of everything that has arrived.
-/

set_option autoImplicit false

namespace FluidBG

open Lib

/-! ## What is moved where -/

section Moves

variable {D : Type}

/-- The moves of the two temporary queues: theirs to the base queue, and their shadows' to its
shadow. -/
def DrainedQueues.moves (config : QueueConfig D) (queues : DrainedQueues) :
    List (String × String) :=
  [queues.green, queues.blue].flatMap fun source =>
    (source, queues.base) :: (shadowQueueName config source).toList.map fun shadow =>
      (shadow, shadowTarget config queues.base)

/-- The moves of `drain_input_queues`. -/
def inputMoves (roles : List PluginRole) (config : QueueConfig D) : List (String × String) :=
  match drainedInput roles config with
  | .ok (some queues) => queues.moves config
  | _ => []

/-- The moves of `drain_output_queues`, and of the loops of `run_combiner`. -/
def outputMoves (roles : List PluginRole) (config : QueueConfig D) : List (String × String) :=
  if hasRole roles .combiner then
    match drainedOutput config with
    | .ok queues => queues.moves config
    | .error _ => []
  else []

/-- From which queue to which an inceptor moves messages when it drains. -/
def drainMoves (roles : List PluginRole) (config : QueueConfig D) : List (String × String) :=
  inputMoves roles config ++ outputMoves roles config

end Moves

/-- **No queue that messages are moved to is one that they are moved from.** -/
def Apart (moves : List (String × String)) : Prop := ∀ m ∈ moves, ∀ m' ∈ moves, m.2 ≠ m'.1

instance (moves : List (String × String)) : Decidable (Apart moves) :=
  inferInstanceAs (Decidable (∀ m ∈ moves, ∀ m' ∈ moves, m.2 ≠ m'.1))

/-! ## Places -/

/-- The places of a broker: a queue's own, where messages are sent to, and others of the same queue,
such as its dead letters. -/
structure Places (P : Type) where
  place : String → P
  queue : P → String
  queue_place : ∀ q, queue (place q) = q

namespace Places

variable {P : Type} (L : Places P) (moves : List (String × String))

/-- A message of this place is moved. -/
def Source (p : P) : Prop := ∃ m ∈ moves, m.1 = L.queue p

/-- A mover takes messages from `p` to `q`. -/
def Moves (p q : P) : Prop := ∃ m ∈ moves, m.1 = L.queue p ∧ q = L.place m.2

/-- The broker takes a message to another place of the same queue, where it is moved from. -/
def Slides (p q : P) : Prop := L.Source moves p ∧ L.queue q = L.queue p

/-- **Where a message may be** that has arrived at `p`: there, or, where its queue is drained, in the
same queue still, or in the one it is moved to. -/
def Leads (p q : P) : Prop :=
  q = p ∨ L.Source moves p ∧ L.queue q = L.queue p ∨ L.Moves moves p q

instance (p : P) : Decidable (L.Source moves p) :=
  inferInstanceAs (Decidable (∃ m ∈ moves, m.1 = L.queue p))

instance [DecidableEq P] (p q : P) : Decidable (L.Moves moves p q) :=
  inferInstanceAs (Decidable (∃ m ∈ moves, m.1 = L.queue p ∧ q = L.place m.2))

instance (p q : P) : Decidable (L.Slides moves p q) :=
  inferInstanceAs (Decidable (_ ∧ _))

instance [DecidableEq P] (p q : P) : Decidable (L.Leads moves p q) :=
  inferInstanceAs (Decidable (_ ∨ _ ∨ _))

end Places

/-! ## The movers -/

/-- What a thread remembers besides. -/
structure MoverMemory (P : Type) where
  inceptor : InceptorMemory P
  hand : Option (Hand P Message)
  /-- It has found the inceptor active. -/
  active : Bool
  /-- The number of messages it has moved. -/
  moved : Nat
  /-- A call of its has failed. -/
  failed : Bool
  /-- The places where nothing was ready when it asked for a message. -/
  emptied : List P
  /-- Its source and the number of its turns, where it is one loop alone. -/
  loop : Option (P × Nat)

def MoverMemory.start {P : Type} (loop : Option (P × Nat)) : MoverMemory P :=
  ⟨.start, none, false, 0, false, [], loop⟩

structure MoverWorld (P : Type) where
  inceptor : InceptorWorld P
  /-- What there was at the beginning, and what was sent since then. -/
  arrived : List (P × Message)

/-- A broker with these messages, nobody holding any. -/
def MoverWorld.start {P : Type} (contents : List (P × Message)) (mode : RuntimeMode) :
    MoverWorld P :=
  ⟨.start ⟨contents.map fun e => ⟨e.1, e.2, none⟩, 0⟩ mode, contents⟩

/-- What happens besides. -/
inductive MoverMove (P : Type) where
  | broker (v : BrokerMove P Message)
  /-- The next look is at a pod in this mode: a pod was started again, or there are several. -/
  | mode (found : RuntimeMode)
  deriving DecidableEq

/-- What a move of others sends. -/
def sentBy {P : Type} : BrokerMove P Message → List (P × Message)
  | .put place message => [(place, message)]
  | _ => []

section Serve

variable {P : Type} [DecidableEq P]

/-- What a thread remembers of an answer. -/
def MoverMemory.note (place : String → P) (x : MoverMemory P) (w : InceptorWorld P)
    (o : InceptorOutcome) : InceptorCall P → MoverMemory P
  | .mode => { x with active := x.active || w.mode = .active }
  | .connect => { x with failed := x.failed || o.call ≠ .ok }
  | .ensureQueue _ => { x with failed := x.failed || o.call ≠ .ok }
  | .receive source =>
    if o.call = .ok then
      match w.broker.take source with
      | some (receipt, message, _) => { x with hand := some ⟨receipt, source, message, none⟩ }
      | none =>
        { x with
          emptied := if w.broker.ready source = 0 then source :: x.emptied else x.emptied }
    else { x with failed := true }
  | .work (.publish queue _) =>
    { x with
      hand := if o.call = .refused then x.hand
        else x.hand.map fun h => { h with copy := some (place queue) }
      failed := x.failed || o.call ≠ .ok }
  | .work .ack =>
    if o.call = .ok ∧ x.inceptor.receipt.isSome then { x with hand := none, moved := x.moved + 1 }
    else { x with failed := true }
  | .work .requeue => if o.call = .ok then { x with hand := none } else x
  | .disconnect => { x with hand := none }
  | _ => x

def MoverWorld.serve (place : String → P) (x : MoverMemory P) (w : MoverWorld P)
    (o : InceptorOutcome) (c : InceptorCall P) :
    InceptorAnswer c × MoverWorld P × MoverMemory P :=
  let r := w.inceptor.serve place x.inceptor o c
  (r.1, { w with inceptor := r.2.1 },
    { x.note place w.inceptor o c with inceptor := r.2.2 })

def MoverWorld.move (w : MoverWorld P) : MoverMove P → Option (MoverWorld P)
  | .broker v => (w.inceptor.broker.move v).map fun broker =>
    ⟨{ w.inceptor with broker := broker }, w.arrived ++ sentBy v⟩
  | .mode found => some { w with inceptor := { w.inceptor with mode := found } }

/-- The movers, and the others at their broker. -/
def moverProcess (place : String → P) :
    Shared (InceptorCall P) InceptorAnswer (MoverMemory P) (MoverWorld P) InceptorOutcome
      (MoverMove P) where
  serve x w c o := some (w.serve place x o c)
  move := MoverWorld.move

end Serve

/-! ## The runs -/

section Runs

variable {P : Type}

/-- A message is settled under a receipt that the broker still knows, or the settlement is
refused. -/
def SettlesHeld (x : MoverMemory P) (w : MoverWorld P) (o : InceptorOutcome) :
    InceptorCall P → Prop
  | .work .ack => o.call = .refused ∨
      ∃ s ∈ w.inceptor.broker.stored, s.receipt ≠ none ∧ s.receipt = x.inceptor.receipt
  | _ => True

/-- What others do: they send, take hold of messages and let go of them, and the broker may take a
message to another place of its queue. Nobody else consumes, and no pod is active. -/
def MoverMove.Allowed (L : Places P) (moves : List (String × String)) (w : MoverWorld P) :
    MoverMove P → Prop
  | .broker (.put _ _) => True
  | .broker (.hold _) => True
  | .broker (.free _) => True
  | .broker (.drop _) => False
  | .broker (.shift i place) => ∀ s ∈ w.inceptor.broker.stored[i]?, L.Slides moves s.place place
  | .mode found => found ≠ .active

instance (x : MoverMemory P) (w : MoverWorld P) (o : InceptorOutcome) :
    (c : InceptorCall P) → Decidable (SettlesHeld x w o c)
  | .work .ack => inferInstanceAs (Decidable (_ ∨ _))
  | .work (.publish _ _) => .isTrue trivial
  | .work .requeue => .isTrue trivial
  | .work .now => .isTrue trivial
  | .work (.notify _ _ _) => .isTrue trivial
  | .work (.register _ _ _) => .isTrue trivial
  | .mode => .isTrue trivial
  | .setDraining => .isTrue trivial
  | .track => .isTrue trivial
  | .release => .isTrue trivial
  | .inFlight => .isTrue trivial
  | .connect => .isTrue trivial
  | .disconnect => .isTrue trivial
  | .ensureQueue _ => .isTrue trivial
  | .receive _ => .isTrue trivial
  | .depth _ => .isTrue trivial
  | .queueState _ => .isTrue trivial
  | .respond _ => .isTrue trivial

instance (L : Places P) (moves : List (String × String)) (w : MoverWorld P) :
    (v : MoverMove P) → Decidable (v.Allowed L moves w)
  | .broker (.put _ _) => .isTrue trivial
  | .broker (.hold _) => .isTrue trivial
  | .broker (.free _) => .isTrue trivial
  | .broker (.drop _) => .isFalse id
  | .broker (.shift i place) =>
    inferInstanceAs (Decidable (∀ s ∈ w.inceptor.broker.stored[i]?, L.Slides moves s.place place))
  | .mode found => inferInstanceAs (Decidable (found ≠ .active))

def moverWatch (L : Places P) (moves : List (String × String)) :
    Watch (InceptorCall P) (MoverMemory P) (MoverWorld P) InceptorOutcome (MoverMove P) where
  call _ x w c o := SettlesHeld x w o c
  move _ w v := v.Allowed L moves w

instance (L : Places P) (moves : List (String × String)) (others : List (MoverMemory P))
    (x : MoverMemory P) (w : MoverWorld P) (c : InceptorCall P) (o : InceptorOutcome) :
    Decidable ((moverWatch L moves).call others x w c o) :=
  inferInstanceAs (Decidable (SettlesHeld x w o c))

instance (L : Places P) (moves : List (String × String)) (all : List (MoverMemory P))
    (w : MoverWorld P) (v : MoverMove P) : Decidable ((moverWatch L moves).move all w v) :=
  inferInstanceAs (Decidable (v.Allowed L moves w))

/-- What a thread does: all that a job does, or one of the loops, for as many messages. -/
inductive MoverJob (P : Type) where
  | handler (job : InceptorJob)
  | loop (source : P) (target : String) (turns : Nat)

/-- The thread of a job. A loop is one of those that the inceptor has. -/
def moverThread [DecidableEq P] (L : Places P) (moves : List (String × String))
    (jobs : InceptorJob → Thread (InceptorCall P) InceptorAnswer Unit (InceptorMemory P))
    (loop : P → String → Nat → InceptorOp P Unit) :
    MoverJob P → Thread (InceptorCall P) InceptorAnswer Unit (MoverMemory P)
  | .handler job => ⟨(jobs job).prog, .start none⟩
  | .loop source target turns =>
    if (L.queue source, target) ∈ moves then
      ⟨loop source target turns, .start (some (source, turns))⟩
    else ⟨.pure (), .start none⟩

/-- What the loop of a job is. -/
def moverLoop (L : Places P) (moves : List (String × String)) : MoverJob P → Option (P × Nat)
  | .handler _ => none
  | .loop source target turns =>
    if (L.queue source, target) ∈ moves then some (source, turns) else none

end Runs

/-! ## The two brokers -/

/-- RabbitMQ: the places are the queues. -/
def Rabbitmq.places : Places String := ⟨id, id, fun _ => rfl⟩

/-- Azure: a queue and its dead letters. -/
def ServiceBus.places : Places ServiceBus.BusPath :=
  ⟨ServiceBus.queuePath, ServiceBus.BusPath.queue, fun _ => rfl⟩

def Rabbitmq.moverJobs (management infraDisabled : Bool) (state : WorkerState Rabbitmq.Config) :
    MoverJob String → Thread (InceptorCall String) InceptorAnswer Unit (MoverMemory String) :=
  moverThread Rabbitmq.places (drainMoves state.roles state.config)
    (Rabbitmq.inceptorJobs management infraDisabled state) Rabbitmq.moveQueueMessages

def ServiceBus.moverJobs (client : ServiceBus.ServiceBusClient) (infraDisabled : Bool)
    (state : WorkerState ServiceBus.Config) :
    MoverJob ServiceBus.BusPath →
      Thread (InceptorCall ServiceBus.BusPath) InceptorAnswer Unit (MoverMemory ServiceBus.BusPath) :=
  moverThread ServiceBus.places (drainMoves state.roles state.config)
    (ServiceBus.inceptorJobs client infraDisabled state) ServiceBus.moveAvailable

end FluidBG
