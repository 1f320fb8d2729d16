import FluidBG.Controller.PluginLifecycle
import FluidBG.Plugins.Nats
import FluidBG.Plugins.Rabbitmq
import FluidBG.Plugins.ServiceBus
import FluidBG.Lib.Pool
/-!
# Requests to a plugin manager

`invoke_plugin_manager_lifecycle` and `invoke_plugin_manager_sync` of the operator, together with
the handlers that they reach. The operator lists the `BlueGreenDeployment`s, makes the inventory of
active inceptions from the list and sends it along; the manager sweeps away what the inventory does
not account for. Reconciles of different objects send their requests side by side, and a request
that got no response is sent again with the inventory of the first time.
-/

set_option autoImplicit false

namespace FluidBG

open Lib

/-! ## Requests -/

inductive ManagerRequest where
  | lifecycle (kind : LifecycleRequest) (header : Option String)
      (req : PluginManagerLifecycleRequest)
  | sync (header : Option String) (req : PluginManagerSyncRequest)

namespace ManagerRequest

def plugin : ManagerRequest → String
  | lifecycle _ _ req => req.plugin
  | sync _ req => req.plugin

def inventory : ManagerRequest → List ActiveInception
  | lifecycle _ _ req => req.activeInceptions
  | sync _ req => req.activeInceptions

def withInventory (inventory : List ActiveInception) : ManagerRequest → ManagerRequest
  | lifecycle kind header req => .lifecycle kind header { req with activeInceptions := inventory }
  | sync header req => .sync header { req with activeInceptions := inventory }

end ManagerRequest

def PluginManagerLifecycleRequest.inceptionId (req : PluginManagerLifecycleRequest) : InceptionId :=
  ⟨req.ns, req.blueGreenRef, req.blueGreenUid, req.inceptionPoint⟩

/-! ## Managers -/

/-- A manager, and what it works on: a server with objects of type `N`. -/
structure Manager (C : Type) (A : C → Type) (S N : Type) where
  serve : S → (c : C) → CallOutcome → A c × S
  handle : ManagerRequest → Prog C A StatusCode Unit
  objects : S → List N
  creates : C → Option N
  deletes : C → Option N
  /-- The objects that the answer to a call lists. -/
  lists : (c : C) → A c → Option (List N)

namespace Nats

def StreamCall.listed : (c : StreamCall) → StreamAnswer c → Option (List String)
  | .streamNames, .ok streams => some streams
  | _, _ => none

def manager (state : ManagerState) : Manager StreamCall StreamAnswer (List String) String where
  serve := serveStreams
  handle
    | .lifecycle .prepare header req => (prepareHandler state header req).bind fun _ => .pure ()
    | .lifecycle .cleanup header req => cleanupHandler state header req
    | .sync header req => syncHandler state header req
  objects := id
  creates
    | .getOrCreateStream settings => some settings.name
    | _ => none
  deletes
    | .deleteStream name => some name
    | _ => none
  lists := StreamCall.listed

end Nats

namespace Rabbitmq

inductive BrokerObject where
  | user (name : String)
  | queue (name : String)
  deriving DecidableEq

def BrokerCall.listed : (c : BrokerCall) → BrokerAnswer c → Option (List BrokerObject)
  | .listUsers, .ok users => some (users.map .user)
  | .listQueues, .ok queues => some (queues.map .queue)
  | _, _ => none

def manager (lib : ManagerCrates) (state : ManagerState) :
    Manager BrokerCall BrokerAnswer BrokerWorld BrokerObject where
  serve := BrokerWorld.serve
  handle
    | .lifecycle .prepare header req =>
      (prepareHandler lib state header req).bind fun _ => .pure ()
    | .lifecycle .cleanup header req => cleanupHandler lib state header req
    | .sync header req => syncHandler lib state header req
  objects w := w.users.map .user ++ w.queues.map .queue
  creates
    | .putUser username _ => some (.user username)
    | .queueDeclare queue _ => some (.queue queue)
    | _ => none
  deletes
    | .deleteUser username => some (.user username)
    | .queueDelete queue => some (.queue queue)
    | _ => none
  lists := BrokerCall.listed

end Rabbitmq

namespace ServiceBus

def BusCall.listed : (c : BusCall) → BusAnswer c → Option (List String)
  | .listQueues, .ok queues => some queues
  | _, _ => none

def manager (state : ManagerState) : Manager BusCall BusAnswer (List String) String where
  serve := serveBus
  handle
    | .lifecycle .prepare header req => (prepareHandler state header req).bind fun _ => .pure ()
    | .lifecycle .cleanup header req => cleanupHandler state header req
    | .sync header req => syncHandler state header req
  objects := id
  creates
    | .putQueue queue _ => some queue
    | _ => none
  deletes
    | .deleteQueue queue => some queue
    | _ => none
  lists := BusCall.listed

end ServiceBus

/-! ## Requests under way -/

inductive RequestCall (C : Type) where
  /-- `active_inceptions_for_plugin`, and the request made with it. A list that fails ends the
  request here. -/
  | compose
  /-- A call of the manager to its server. -/
  | server (c : C)
  /-- The operator has the manager's response. -/
  | done

@[reducible] def RequestAnswer {C : Type} (A : C → Type) : RequestCall C → Type
  | .compose => ManagerRequest
  | .server c => A c
  | .done => Unit

structure RequestMemory (N : Type) where
  request : ManagerRequest
  /-- What the manager has created for it. -/
  created : List N
  /-- What a sweep has listed, once there is one. -/
  listed : Option (List N)

/-- An inception whose `prepare` is complete, with what was created for it. -/
structure Prepared (N : Type) where
  request : PluginManagerLifecycleRequest
  created : List N

structure ManagedWorld (S N : Type) where
  bgds : List BlueGreenDeployment
  server : S
  /-- The requests that were sent, each with its inventory. -/
  sent : List ManagerRequest
  prepared : List (Prepared N)
  /-- What sweeps have deleted of the inceptions that are alive. -/
  lost : List N

namespace ManagedWorld

variable {S N : Type}

/-- The `BlueGreenDeployment` of the inception is there, and its rollout is not over. -/
def Alive (w : ManagedWorld S N) (p : Prepared N) : Prop :=
  ∃ bgd ∈ w.bgds, takesPartInInventory bgd ∧ bgd.metadata.ns = p.request.ns ∧
    bgd.metadata.name = p.request.blueGreenRef ∧ bgd.metadata.uid = p.request.blueGreenUid

instance (w : ManagedWorld S N) (p : Prepared N) : Decidable (w.Alive p) :=
  inferInstanceAs (Decidable (∃ bgd ∈ w.bgds, _))

/-- The operator has the response to a request. -/
def respond (w : ManagedWorld S N) (x : RequestMemory N) : ManagedWorld S N :=
  match x.request with
  | .lifecycle .prepare _ req => { w with prepared := ⟨req, x.created⟩ :: w.prepared }
  | .lifecycle .cleanup _ req =>
    { w with prepared := w.prepared.filter fun p => p.request.inceptionId ≠ req.inceptionId }
  | .sync _ _ => w

end ManagedWorld

structure RequestOutcome where
  /-- It is a request that was sent before and is tried again. -/
  retried : Option Nat
  call : CallOutcome
  deriving DecidableEq

inductive ManagedMove (S : Type) where
  | setBgds (bgds : List BlueGreenDeployment)
  | setServer (server : S)

namespace Manager

variable {C : Type} {A : C → Type} {S N : Type} [DecidableEq N] (M : Manager C A S N)

/-- A request, from the list of the `BlueGreenDeployment`s to the response. -/
def send : Prog (RequestCall C) (RequestAnswer A) StatusCode Unit := do
  let request ← Prog.ask RequestCall.compose
  (M.handle request).lift RequestCall.server fun _ a => a
  Prog.ask RequestCall.done

/-- What a thread remembers of an answer of the server. -/
def saw (x : RequestMemory N) (c : C) (a : A c) : RequestMemory N :=
  { x with
    created := (M.creates c).toList ++ x.created
    listed := match M.lists c a with
      | some objects => some (objects ++ x.listed.getD [])
      | none => x.listed }

/-- The objects of living inceptions that are gone after a step of a sweep. -/
def losses (w : ManagedWorld S N) (x : RequestMemory N) (server : S) : List N :=
  if x.listed.isSome then
    (M.objects w.server).filter fun n => n ∉ M.objects server ∧
      ∃ p ∈ w.prepared, w.Alive p ∧ n ∈ p.created
  else []

def serveRequest (x : RequestMemory N) (w : ManagedWorld S N) (o : RequestOutcome) :
    (c : RequestCall C) → Option (RequestAnswer A c × ManagedWorld S N × RequestMemory N)
  | .compose => match o.retried with
    | none =>
      let request := x.request.withInventory (activeInceptionsOf w.bgds x.request.plugin)
      some (request, { w with sent := w.sent ++ [request] }, { x with request := request })
    | some n => match w.sent[n]? with
      | some request => some (request, w, { x with request := request })
      | none => none
  | .server c =>
    let (a, server) := M.serve w.server c o.call
    some (a, { w with server := server, lost := M.losses w x server ++ w.lost }, M.saw x c a)
  | .done => some ((), w.respond x, x)

/-- The requests share the API server and the server of the manager. -/
def requests : Shared (RequestCall C) (RequestAnswer A) (RequestMemory N) (ManagedWorld S N)
    RequestOutcome (ManagedMove S) where
  serve x w c o := M.serveRequest x w o c
  move w
    | .setBgds bgds => some { w with bgds := bgds }
    | .setServer server => some { w with server := server }

/-- A request that the operator sends, but for its inventory. -/
def thread (request : ManagerRequest) :
    Thread (RequestCall C) (RequestAnswer A) StatusCode (RequestMemory N) :=
  ⟨M.send, ⟨request, [], none⟩⟩

end Manager

end FluidBG
