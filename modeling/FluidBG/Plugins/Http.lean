import FluidBG.Lib.Pool
import FluidBG.Plugins.Worker
/-!
# The drain gate of the HTTP plugin

`state.rs` and the handlers of `handlers.rs` that touch the two atomics of the HTTP plugin: its mode
and the number of its active requests. Every load and store is a call of its own, all of them are
sequentially consistent, and the handlers are interleaved in any order.

What an admitted request does between its admission and the end of its handler reads no atomic of
the gate, and is one call here. The server sends a response after the handler that returned it is
over, so after its locals have been dropped.
-/

set_option autoImplicit false

namespace FluidBG.Http

open Lib

/-! ## Calls -/

structure HttpResponse where
  status : Nat
  body : String
  deriving DecidableEq

inductive GateCall where
  /-- `runtime_mode`. -/
  | loadMode
  /-- `set_runtime_mode`. -/
  | storeMode (mode : RuntimeMode)
  /-- `active_requests.load`. -/
  | loadActive
  /-- `active_requests.fetch_add(1)`. -/
  | fetchAdd
  /-- `active_requests.fetch_sub(1)`. -/
  | fetchSub
  /-- An admitted request is forwarded, and its response awaited. -/
  | forward
  /-- The server sends a response, to its end. -/
  | send (response : HttpResponse)
  /-- The answer of `/drain-status`. -/
  | reply (status : PluginDrainStatusResponse)
  deriving DecidableEq

/-- A forwarded request gets no response when its client goes away: the server drops the future of
the handler then. -/
@[reducible] def GateAnswer : GateCall → Type
  | .loadMode => RuntimeMode
  | .loadActive => Nat
  | .forward => Option HttpResponse
  | _ => Unit

abbrev GateOp := Prog GateCall GateAnswer StatusCode

/-! ## Handlers -/

structure AppState where
  roles : List PluginRole
  authToken : Option String
  /-- `config.write_target()`. -/
  writeTarget : Option String

/-- It holds the counter, and subtracts from it when it is dropped. -/
structure ActiveRequestGuard where

namespace ActiveRequestGuard

def tryNew : GateOp (Option ActiveRequestGuard) := do
  let mode ← Prog.ask GateCall.loadMode
  if mode ≠ .active then
    pure none
  else do
    Prog.ask GateCall.fetchAdd
    let mode ← Prog.ask GateCall.loadMode
    if mode ≠ .active then do
      Prog.ask GateCall.fetchSub
      pure none
    else pure (some ⟨⟩)

def drop (_ : ActiveRequestGuard) : GateOp Unit := Prog.ask GateCall.fetchSub

end ActiveRequestGuard

/-- What a handler returns, or `none` when its future is dropped. -/
def proxyHandler (state : AppState) : GateOp (Option HttpResponse) :=
  if !hasRole state.roles .splitter && !hasRole state.roles .observer
      && !hasRole state.roles .mock then
    pure (some ⟨404, "fluidbg http proxy role is not active"⟩)
  else do
    match ← ActiveRequestGuard.tryNew with
    | none => pure (some ⟨503, "fluidbg http plugin is not active"⟩)
    | some guard => do
      let response ← Prog.ask GateCall.forward
      guard.drop
      pure response

def writeHandler (state : AppState) (header : Option String) : GateOp (Option HttpResponse) :=
  if !bearerMatches header state.authToken then
    pure (some ⟨401, "unauthorized"⟩)
  else if !hasRole state.roles .writer then
    pure (some ⟨404, "fluidbg http writer role is not active"⟩)
  else do
    match ← ActiveRequestGuard.tryNew with
    | none => pure (some ⟨503, "fluidbg http plugin is not active"⟩)
    | some guard => match state.writeTarget with
      | none => do
        guard.drop
        pure (some ⟨400, "targetUrl not configured"⟩)
      | some _ => do
        let response ← Prog.ask GateCall.forward
        guard.drop
        pure response

def authorizeOperator (state : AppState) (header : Option String) : GateOp Unit :=
  if bearerMatches header state.authToken then pure () else .fail .unauthorized

/-- The handlers of `/prepare`, `/activate`, `/drain` and `/cleanup` store a mode each. -/
def storingHandler (mode : RuntimeMode) (state : AppState) (header : Option String) :
    GateOp PluginLifecycleResponse := do
  authorizeOperator state header
  Prog.ask (GateCall.storeMode mode)
  pure PluginLifecycleResponse.empty

def prepareHandler := storingHandler .idle

def activateHandler := storingHandler .active

def drainHandler := storingHandler .draining

def cleanupHandler := storingHandler .draining

/-- The message of `drain_status`. -/
def drainMessage (drained : Bool) (mode : RuntimeMode) (active : Nat) : String :=
  if drained then
    "http plugin is draining and has no admitted proxy/write requests"
  else match mode with
    | .idle => "http plugin is idle and has not been activated"
    | .active => "http plugin is active and has not entered drain mode"
    | .draining => s!"http plugin still has {active} active proxy/write request(s)"

def drainStatus (state : AppState) (header : Option String) :
    GateOp PluginDrainStatusResponse := do
  authorizeOperator state header
  let active ← Prog.ask GateCall.loadActive
  let mode ← Prog.ask GateCall.loadMode
  let drained := decide (mode = .draining) && decide (active = 0)
  pure ⟨drained, some (drainMessage drained mode active)⟩

/-! ## The server -/

inductive HttpRequest where
  | proxy
  | write (header : Option String)
  | prepare (header : Option String)
  | activate (header : Option String)
  | drain (header : Option String)
  | cleanup (header : Option String)
  | drainStatus (header : Option String)
  deriving DecidableEq

/-- A response is sent when its handler is over. -/
def sending (handler : GateOp (Option HttpResponse)) : GateOp Unit := do
  match ← handler with
  | some response => Prog.ask (GateCall.send response)
  | none => pure ()

def serveRequest (state : AppState) : HttpRequest → GateOp Unit
  | .proxy => sending (proxyHandler state)
  | .write header => sending (writeHandler state header)
  | .prepare header => (prepareHandler state header).bind fun _ => pure ()
  | .activate header => (activateHandler state header).bind fun _ => pure ()
  | .drain header => (drainHandler state header).bind fun _ => pure ()
  | .cleanup header => (cleanupHandler state header).bind fun _ => pure ()
  | .drainStatus header => (drainStatus state header).bind fun status =>
      Prog.ask (GateCall.reply status)

/-! ## The atomics -/

/-- What a request has been answered so far. -/
inductive GateMemory where
  | fresh
  /-- It has found the plugin active. -/
  | checked
  /-- It counts as active, and is not admitted yet. -/
  | counted
  /-- It counts as active, and is turned away. -/
  | refused
  /-- It has been admitted: its guard is alive. -/
  | admitted (delivered : Bool)
  /-- Its guard has been dropped. -/
  | released
  /-- A drain status has read the counter. -/
  | read (active : Nat)
  /-- A drain status has read both, and is decided. -/
  | told (drained : Bool)
  deriving DecidableEq

namespace GateMemory

def counts : GateMemory → Bool
  | counted => true
  | refused => true
  | admitted _ => true
  | _ => false

def alive : GateMemory → Bool
  | admitted _ => true
  | _ => false

def loaded (mode : RuntimeMode) : GateMemory → GateMemory
  | fresh => if mode = .active then checked else fresh
  | counted => if mode = .active then admitted false else refused
  | read active => told (decide (mode = .draining) && decide (active = 0))
  | x => x

def added : GateMemory → GateMemory
  | checked => counted
  | x => x

def subtracted : GateMemory → GateMemory
  | refused => fresh
  | admitted _ => released
  | x => x

def delivered : GateMemory → GateMemory
  | admitted _ => admitted true
  | x => x

end GateMemory

/-- The two atomics, and what a run has come to. -/
structure Gate where
  mode : RuntimeMode
  activeRequests : Nat
  /-- A drain status has been decided with `drained`, and the plugin has not been activated
  since. -/
  reported : Bool
  /-- The guards of admitted requests that have been dropped, -/
  dropped : Nat
  /-- and those of them that have been dropped before the response was delivered. -/
  early : Nat
  deriving DecidableEq

/-- `main` starts idle. -/
def Gate.init : Gate := ⟨.idle, 0, false, 0, 0⟩

/-- Serve a call. What a forwarded request comes to is the outcome. -/
def Gate.serve (x : GateMemory) (w : Gate) :
    (c : GateCall) → Option HttpResponse → GateAnswer c × Gate × GateMemory
  | .loadMode, _ =>
    (w.mode, { w with reported := w.reported || x.loaded w.mode = .told true }, x.loaded w.mode)
  | .storeMode mode, _ =>
    ((), { w with mode := mode, reported := w.reported && decide (mode ≠ .active) }, x)
  | .loadActive, _ => (w.activeRequests, w, .read w.activeRequests)
  | .fetchAdd, _ => ((), { w with activeRequests := w.activeRequests + 1 }, x.added)
  | .fetchSub, _ =>
    ((), { w with
      activeRequests := w.activeRequests - 1
      dropped := if x.alive then w.dropped + 1 else w.dropped
      early := if x = .admitted false then w.early + 1 else w.early }, x.subtracted)
  | .forward, o => (o, w, x)
  | .send _, _ => ((), w, x.delivered)
  | .reply _, _ => ((), w, x)

/-- The plugin, as what its requests share. -/
def gate : Shared GateCall GateAnswer GateMemory Gate (Option HttpResponse) Empty where
  serve x w c o := some (Gate.serve x w c o)
  move _ v := v.elim

/-- A request begins. -/
def request (state : AppState) (req : HttpRequest) :
    Thread GateCall GateAnswer StatusCode GateMemory :=
  ⟨serveRequest state req, .fresh⟩

end FluidBG.Http
