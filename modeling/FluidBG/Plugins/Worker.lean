import FluidBG.HttpApi
import FluidBG.Plugins.Queues
import FluidBG.Plugins.Nats
import FluidBG.Plugins.Rabbitmq
import FluidBG.Plugins.ServiceBus
/-!
# An inceptor's work on one message

`input.rs`, `combiner.rs` and `filtering.rs` of the three queue plugins, from the moment a message
is received to its acknowledgement, with `notify.rs`, `routing.rs` and `runtime.rs` of the SDK. What
the crates share is stated once, and each crate's functions are that with the crate's own parts.
-/

set_option autoImplicit false

namespace FluidBG

open Lib

/-! ## Messages -/

/-- A message, with its headers or application properties; a value that is not a string is
`none`. -/
structure Message where
  body : List Nat
  properties : List (String × Option String)
  deriving DecidableEq

namespace Message

def property (message : Message) (key : String) : Option String :=
  (message.properties.lookup key).bind id

end Message

/-- The libraries a worker calls for a value. -/
structure WorkerCrates where
  /-- `serde_json::from_slice`. -/
  parseSlice : List Nat → Option Json
  /-- `serde_json::from_str` of `String::from_utf8_lossy`. -/
  parseLossy : List Nat → Option Json
  /-- `serde_json::to_string`. -/
  jsonText : Json → String
  /-- The hash of `DefaultHasher`. -/
  hash : List Nat → Nat
  /-- `Regex::new(pattern)` and `is_match`. -/
  isMatch : String → String → Option Bool

def routesToBlue (crates : WorkerCrates) (payload : List Nat) (trafficPercent : Nat) : Bool :=
  if trafficPercent = 0 then false
  else if 100 ≤ trafficPercent then true
  else crates.hash payload % 100 < trafficPercent

/-! ## Calls -/

structure ObservationNotification where
  testId : String
  inceptionPoint : String
  route : String
  payload : Json

inductive WorkCall where
  | publish (target : String) (message : Message)
  | now
  /-- One attempt to post the notification to the verifier. -/
  | notify (url : String) (notification : ObservationNotification) (authToken : Option String)
  /-- One attempt to post the registration to the operator. -/
  | register (url : String) (request : RegisterTestCaseRequest) (authToken : Option String)
  /-- `ack`, `double_ack` or `complete`. -/
  | ack
  /-- `nack` with requeue, or `abandon`. -/
  | requeue

/-- A request is answered with a status, or not at all. -/
@[reducible] def WorkAnswer : WorkCall → Type
  | .now => Timestamp
  | .notify _ _ _ => Option Nat
  | .register _ _ _ => Option Nat
  | _ => Except Unit Unit

abbrev WorkerOp := Prog WorkCall WorkAnswer Unit

def publishTo (message : Message) (target : String) : WorkerOp Unit := do
  let r ← Prog.ask (WorkCall.publish target message)
  Prog.ofExcept r

def ack : WorkerOp Unit := do
  let r ← Prog.ask WorkCall.ack
  Prog.ofExcept r

def requeue : WorkerOp Unit := do
  let r ← Prog.ask WorkCall.requeue
  Prog.ofExcept r

/-! ## Requests to the verifier and the operator -/

def deliveryAttempts : Nat := 10

def isSuccess (status : Nat) : Bool := 200 ≤ status && status < 300

def retryableStatus (status : Nat) : Bool :=
  status = 408 || status = 429 || (500 ≤ status && status < 600)

/-- `response.error_for_status()` is an error. -/
def isErrorStatus (status : Nat) : Bool := 400 ≤ status && status < 600

/-- One round of `retry_status_request`. -/
def statusRound (answer : Option Nat) : WorkerOp (Option Unit) :=
  match answer with
  | some status =>
    if isSuccess status then .pure (some ())
    else if !retryableStatus status then
      if isErrorStatus status then .fail () else .pure (some ())
    else .pure none
  | none => .pure none

def retryStatusRequest (request : WorkerOp (Option Nat)) : WorkerOp Unit :=
  Prog.retry deliveryAttempts (fun _ => request.bind statusRound) (.fail ())

def TrafficRoute.asStr : TrafficRoute → String
  | .blue => "blue"
  | .green => "green"
  | .both => "both"
  | .unknown => "unknown"

structure InceptorRuntime where
  testcaseRegistrationUrl : String
  testContainerUrl : String
  testcaseVerifyPathTemplate : Option String
  inceptionPoint : String
  blueGreenRef : String
  authToken : Option String

namespace InceptorRuntime

def renderPath (template testId inceptionPoint : String) : String :=
  (template.replace "\x7btestId\x7d" testId).replace "\x7binceptionPoint\x7d" inceptionPoint

/-- `test_container_url.trim_end_matches('/')` and a path. -/
def containerUrl (runtime : InceptorRuntime) (path : String) : String :=
  String.ofList (runtime.testContainerUrl.toList.reverse.dropWhile (· = '/')).reverse ++ path

def notifyObserver (runtime : InceptorRuntime) (notifyPath testId : String) (payload : Json)
    (route : TrafficRoute) : WorkerOp Unit :=
  let path := renderPath notifyPath testId runtime.inceptionPoint
  retryStatusRequest (Prog.ask (WorkCall.notify (runtime.containerUrl path)
    ⟨testId, runtime.inceptionPoint, route.asStr, payload⟩ runtime.authToken))

def registerTestCase (runtime : InceptorRuntime) (testId : String) : WorkerOp Unit := do
  let verifyUrl := runtime.testcaseVerifyPathTemplate.map fun path =>
    runtime.containerUrl (renderPath path testId runtime.inceptionPoint)
  let now ← Prog.ask WorkCall.now
  retryStatusRequest (Prog.ask (WorkCall.register runtime.testcaseRegistrationUrl {
    testId := testId
    blueGreenRef := runtime.blueGreenRef
    inceptionPoint := runtime.inceptionPoint
    triggeredAt := some now
    timeoutSeconds := some 120
    verifyUrl := verifyUrl } runtime.authToken))

end InceptorRuntime

/-! ## The steps of a pipeline -/

inductive RuntimeMode where
  | active
  | draining
  | idle
  deriving DecidableEq, Repr

/-- What a worker of a plugin with the configuration `C` runs on. -/
structure WorkerState (C : Type) where
  crates : WorkerCrates
  config : C
  roles : List PluginRole
  trafficPercent : Nat
  runtime : InceptorRuntime

/-- The temporary names of an input block, those of green and of blue. -/
abbrev TempPair : Type := Option String × Option String

/-- The publishing of an input role. A block that is missing is an error. -/
def forwardInput (roles : List PluginRole) (duplicator splitter : Option TempPair)
    (sendToBlue : Bool) (message : Message) : WorkerOp TrafficRoute :=
  let publishSome := fun (target : Option String) => match target with
    | some target => publishTo message target
    | none => .pure ()
  if hasRole roles .duplicator then
    match duplicator with
    | none => .fail ()
    | some (green, blue) => do
      publishSome green
      publishSome blue
      pure .both
  else if hasRole roles .splitter then
    match splitter with
    | none => .fail ()
    | some (green, blue) =>
      if sendToBlue then do
        publishSome blue
        pure .blue
      else match green with
        | some green => do
          publishTo message green
          pure .green
        | none => .pure .unknown
  else .pure .unknown

/-- What the observer makes of a message: the test id, where the message matches and has one. -/
def observation (roles : List PluginRole) (observer : Option ObserverConfig)
    (matchesFilter : List FilterCondition → Bool) (extractTestId : TestIdSelector → Option String) :
    Option (ObserverConfig × String) :=
  match observer with
  | none => none
  | some observer =>
    if hasRole roles .observer && matchesFilter observer.conditions then
      (observer.testId.bind extractTestId).map fun testId => (observer, testId)
    else none

/-- `notify_observer` of the crates, which only says whether the verifier was notified. -/
def notifyObserver (runtime : InceptorRuntime) (observer : ObserverConfig) (testId : String)
    (payload : Json) (route : TrafficRoute) : WorkerOp Bool :=
  match observer.notifyPath with
  | none => .pure false
  | some path => do
    match ← (runtime.notifyObserver path testId payload route).result with
    | .ok () => pure true
    | .error (_ : Unit) => pure false

/-- The notification and, after it, the registration. NATS hands a failed registration on, the other
two only log it. -/
def report (runtime : InceptorRuntime) (handsOn : Bool)
    (observed : Option (ObserverConfig × String)) (payload : Json) (route : TrafficRoute) :
    WorkerOp Unit :=
  match observed with
  | none => .pure ()
  | some (observer, testId) => do
    let notified ← notifyObserver runtime observer testId payload route
    if notified && route.shouldRegisterCase then
      if handsOn then runtime.registerTestCase testId
      else do
        let (_ : Except Unit Unit) ← (runtime.registerTestCase testId).result
        pure ()
    else pure ()

/-! ## Filters -/

/-- `f.strip_prefix(start)`. -/
def stripStart (start f : String) : Option String :=
  if start.toList.isPrefixOf f.toList then some (String.ofList (f.toList.drop start.length))
  else none

/-- The value of a field for the queue plugins, which differ in how they call the body and the
properties. -/
def queueField (bodyNames propertyStarts : List String) (field : String)
    (jsonPath : Option String) (body : Json) (message : Message) : Option String :=
  if field ∈ bodyNames then
    match jsonPath with
    | some path => extractJsonPath body path
    | none => body.asStr
  else (propertyStarts.findSome? fun start => stripStart start field).bind message.property

/-- `extract_test_id` of the queue plugins. -/
def queueTestId (bodyNames propertyStarts : List String) (selector : TestIdSelector) (body : Json)
    (message : Message) : Option String :=
  match selector.value with
  | some value => some value
  | none => selector.field.bind fun field =>
      queueField bodyNames propertyStarts field selector.jsonPath body message

/-- `matches_filter` of the queue plugins. -/
def queueMatches (crates : WorkerCrates) (bodyNames propertyStarts : List String)
    (conditions : List FilterCondition) (body : Json) (message : Message) : Bool :=
  conditions.all fun c => conditionMatches crates.isMatch
    (queueField bodyNames propertyStarts c.field c.jsonPath body message) c

/-- `route_from_output_source` of the queue plugins, which look at blue first. -/
def routeFromOutputSource (combiner : CombinerConfig) (sourceQueue : String) : TrafficRoute :=
  if combiner.blueOutputQueue = some sourceQueue then .blue
  else if combiner.greenOutputQueue = some sourceQueue then .green
  else .unknown

/-! ## RabbitMQ -/

namespace Rabbitmq

def extractTestId (selector : TestIdSelector) (body : Json) (message : Message) : Option String :=
  queueTestId ["queue.body"] ["queue.property."] selector body message

def matchesFilter (crates : WorkerCrates) (conditions : List FilterCondition) (body : Json)
    (message : Message) : Bool :=
  queueMatches crates ["queue.body"] ["queue.property."] conditions body message

section Worker

variable (state : WorkerState Config) (message : Message)

/-- What the observer makes of the message, read as the body `body`. -/
def observed (body : Json) : Option (ObserverConfig × String) :=
  observation state.roles state.config.observer
    (fun conditions => matchesFilter state.crates conditions body message)
    fun selector => extractTestId selector body message

def processInputDelivery : WorkerOp Unit := do
  let body := (state.crates.parseLossy message.body).getD .null
  let route ← forwardInput state.roles
    (state.config.duplicator.map fun block => (block.greenInputQueue, block.blueInputQueue))
    (state.config.splitter.map fun block => (block.greenInputQueue, block.blueInputQueue))
    (routesToBlue state.crates message.body state.trafficPercent) message
  report state.runtime false (observed state message body) body route
  ack

/-- The rest of `run_combine_loop_once` for a delivery, in the mode it then finds. -/
def processOutputDelivery (combiner : CombinerConfig) (mode : RuntimeMode)
    (source target : String) : WorkerOp Unit :=
  if mode = .active then do
    let body := (state.crates.parseSlice message.body).getD .null
    publishTo message target
    report state.runtime false (observed state message body) body
      (routeFromOutputSource combiner source)
    ack
  else requeue

end Worker

end Rabbitmq

/-! ## Azure Service Bus -/

namespace ServiceBus

def extractTestId (selector : TestIdSelector) (body : Json) (message : Message) : Option String :=
  queueTestId ["queue.body", "servicebus.body"] ["queue.property.", "servicebus.property."]
    selector body message

def matchesFilter (crates : WorkerCrates) (conditions : List FilterCondition) (body : Json)
    (message : Message) : Bool :=
  queueMatches crates ["queue.body", "servicebus.body"]
    ["queue.property.", "servicebus.property."] conditions body message

section Worker

variable (state : WorkerState Config) (message : Message)

/-- What the observer makes of the message, read as the body `body`. -/
def observed (body : Json) : Option (ObserverConfig × String) :=
  observation state.roles state.config.observer
    (fun conditions => matchesFilter state.crates conditions body message)
    fun selector => extractTestId selector body message

def processInputMessage : WorkerOp Unit := do
  let body := (state.crates.parseSlice message.body).getD .null
  let route ← forwardInput state.roles
    (state.config.duplicator.map fun block => (block.greenInputQueue, block.blueInputQueue))
    (state.config.splitter.map fun block => (block.greenInputQueue, block.blueInputQueue))
    (routesToBlue state.crates message.body state.trafficPercent) message
  report state.runtime false (observed state message body) body route

/-- The end of a turn of the two loops: the lock is completed or abandoned. -/
def settle (work : WorkerOp Unit) : WorkerOp Unit := do
  match ← work.result with
  | .ok () =>
    let (_ : Except Unit Unit) ← ack.result
    pure ()
  | .error (_ : Unit) =>
    let (_ : Except Unit Unit) ← requeue.result
    pure ()

/-- A message that was received when the plugin no longer was active. -/
def abandonLate : WorkerOp Unit := do
  let (_ : Except Unit Unit) ← requeue.result
  pure ()

/-- The rest of a turn of `run_input_pipeline` for a message, in the mode it then finds. -/
def inputTurn (mode : RuntimeMode) : WorkerOp Unit :=
  if mode = .active then settle (processInputMessage state message) else abandonLate

/-- The rest of a turn of `run_combine_loop`. -/
def combineTurn (combiner : CombinerConfig) (mode : RuntimeMode) (source target : String) :
    WorkerOp Unit :=
  if mode = .active then settle do
    let body := (state.crates.parseSlice message.body).getD .null
    publishTo message target
    report state.runtime false (observed state message body) body
      (routeFromOutputSource combiner source)
  else abandonLate

end Worker

end ServiceBus

/-! ## NATS -/

namespace Nats

/-- `resolve_field`. -/
def resolveField (crates : WorkerCrates) (condition : FilterCondition) (body : Json) :
    Option String :=
  if condition.field = "nats.body" ∨ condition.field = "queue.body" then
    match condition.jsonPath.bind (extractJsonPath body) with
    | some value => some value
    | none => some (crates.jsonText body)
  else (stripStart "nats.body." condition.field).bind (extractJsonPath body)

def matchesFilter (crates : WorkerCrates) (conditions : List FilterCondition) (body : Json) :
    Bool :=
  conditions.all fun condition =>
    conditionMatches crates.isMatch (resolveField crates condition body) condition

def extractTestId (selector : TestIdSelector) (body : Json) : Option String :=
  match selector.value with
  | some value => some value
  | none =>
    if selector.field = some "nats.body" ∨ selector.field = some "queue.body" then
      selector.jsonPath.bind (extractJsonPath body)
    else none

/-- Unlike the queue plugins, NATS looks at green first. -/
def routeFromOutputSource (config : CombinerConfig) (subject : String) : TrafficRoute :=
  if config.greenOutputSubject = some subject then .green
  else if config.blueOutputSubject = some subject then .blue
  else .unknown

section Worker

variable (state : WorkerState Config) (message : Message)

/-- What the observer makes of the message, read as the body `body`. -/
def observed (body : Json) : Option (ObserverConfig × String) :=
  observation state.roles state.config.observer
    (fun conditions => matchesFilter state.crates conditions body)
    fun selector => extractTestId selector body

def processInputPayload : WorkerOp Unit := do
  let body := (state.crates.parseSlice message.body).getD .null
  let route ← forwardInput state.roles
    (state.config.duplicator.map fun block => (block.greenInputSubject, block.blueInputSubject))
    (state.config.splitter.map fun block => (block.greenInputSubject, block.blueInputSubject))
    (routesToBlue state.crates message.body state.trafficPercent) message
  report state.runtime true (observed state body) body route

/-- In core mode there is nothing to acknowledge. -/
def processInputMessage : WorkerOp Unit := do
  processInputPayload state message
  if state.config.mode.isCore then pure () else ack

/-- The rest of a turn of `run_combine_loop`, or `process_core_output_message`. -/
def processOutputMessage (source target : String) : WorkerOp Unit :=
  match state.config.combiner with
  | none => .fail ()
  | some combiner => do
    let body := (state.crates.parseSlice message.body).getD .null
    publishTo message target
    report state.runtime true (observed state body) body (routeFromOutputSource combiner source)
    if state.config.mode.isCore then pure () else ack

end Worker

end Nats

end FluidBG
