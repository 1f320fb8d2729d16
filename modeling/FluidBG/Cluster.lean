import FluidBG.Controller.Reconcile
import FluidBG.Lib.System
/-!
# The cluster

What answers the operator's calls: the API server with one `BlueGreenDeployment` and the objects
around it, the state store, the plugins and the clock. A call may be served, refused, or carried
out with its answer lost; what a plugin answers is up to the run. Between two calls the cluster
moves on its own: the user edits or deletes the object, cases are registered and judged, time
passes, and everything else in the cluster changes as it likes.
-/

set_option autoImplicit false

namespace FluidBG

open Lib

/-- How a call is answered. -/
inductive Outcome where
  /-- The call is served. -/
  | ok
  /-- The call has no effect and ends in an error. -/
  | refused (text : String)
  /-- The call is carried out, but its answer is lost. -/
  | lost (text : String)
  /-- What a plugin manager answers. -/
  | manager (answer : HttpAnswer (Option PluginLifecycleResponse))
  /-- What an inceptor answers to a lifecycle request. -/
  | inceptor (answer : HttpAnswer PluginLifecycleResponse)
  /-- What an inceptor answers to a drain status request. -/
  | drainStatus (answer : HttpAnswer PluginDrainStatusResponse)
  /-- What a plugin answers where only success matters. -/
  | http (answer : HttpAnswer Unit)
  /-- What a verifier answers to a poll. -/
  | verifier (answer : PollAnswer)

/-- The call is refused. -/
def Outcome.IsRefused : Outcome → Prop
  | .refused _ => True
  | _ => False

instance : (o : Outcome) → Decidable o.IsRefused
  | .refused _ => .isTrue trivial
  | .ok | .lost _ | .manager _ | .inceptor _ | .drainStatus _ | .http _ | .verifier _ =>
    .isFalse id

/-- What happens outside the operator. -/
inductive Move where
  /-- The user edits the spec: the generation goes up by one. -/
  | editSpec (spec : BlueGreenDeploymentSpec)
  /-- The user deletes the object. -/
  | delete
  | tick (nanos : Nat)
  | register (run : TestCaseRecord)
  | setVerdict (blueGreenRef testId : String) (passed : Bool) (failureMessage : Option String)
  | markTimedOut (blueGreenRef testId : String)
  /-- The Deployment controller reports. -/
  | deploymentStatus (ns name : String) (status : Option DeploymentStatus)
  /-- Somebody else changes the Deployments. -/
  | setDeployments (deployments : List Deployment)
  /-- Somebody else changes the other objects. -/
  | setResources (resources : List Resource)
  | setEndpoints (endpoints : List (String × String × List EndpointSubset))
  | setNamespaces (namespaces : List String)
  | setPlugins (plugins : List InceptionPlugin)
  | setOtherBgds (bgds : List BlueGreenDeployment)

structure World where
  bgd : Option BlueGreenDeployment
  otherBgds : List BlueGreenDeployment
  deployments : List Deployment
  resources : List Resource
  endpoints : List (String × String × List EndpointSubset)
  namespaces : List String
  plugins : List InceptionPlugin
  store : MemoryStore
  clock : Timestamp
  /-- The resource version of the next write. -/
  nextVersion : Nat

namespace World

/-! ## The BlueGreenDeployment -/

/-- The object under this name. -/
def findBgd (w : World) (ns name : String) : Option BlueGreenDeployment :=
  w.bgd.filter fun b => b.metadata.ns = ns ∧ b.metadata.name = name

def notFound {α : Type} (name : String) : Except KubeError α :=
  .error (.notFound s!"\"{name}\" not found")

def getBgd (w : World) (ns name : String) : Except KubeError BlueGreenDeployment :=
  match w.findBgd ns name with
  | some b => .ok b
  | none => notFound name

/-- The object with a new resource version. -/
def writeBgd (w : World) (b : BlueGreenDeployment) : World :=
  { w with
    bgd := some { b with metadata := { b.metadata with resourceVersion := w.nextVersion } }
    nextVersion := w.nextVersion + 1 }

/-- `replace_status`: only the status is taken, and only at the resource version it was read. -/
def replaceStatus (w : World) (ns name : String) (b : BlueGreenDeployment) :
    Except KubeError Unit × World :=
  match w.findBgd ns name with
  | none => (notFound name, w)
  | some stored =>
    if b.metadata.resourceVersion = stored.metadata.resourceVersion then
      (.ok (), w.writeBgd { stored with status := b.status })
    else (.error (.conflict s!"\"{name}\" has been modified"), w)

def patchStatus (w : World) (ns name : String) (patch : StatusPatch) :
    Except KubeError Unit × World :=
  match w.findBgd ns name with
  | none => (notFound name, w)
  | some stored =>
    (.ok (), w.writeBgd { stored with status := some (patch.apply (stored.status.getD .default)) })

/-- The finalizers are replaced; a deleted object without finalizers is gone. -/
def patchFinalizers (w : World) (ns name : String) (finalizers : List String) :
    Except KubeError Unit × World :=
  match w.findBgd ns name with
  | none => (notFound name, w)
  | some stored =>
    if stored.metadata.deletionTimestamp.isSome ∧ finalizers = [] then
      (.ok (), { w with bgd := none })
    else
      (.ok (), w.writeBgd
        { stored with metadata := { stored.metadata with finalizers := finalizers } })

/-! ## Deployments -/

def findDeployment (ds : List Deployment) (ns name : String) : Option Deployment :=
  ds.find? fun d => d.metadata.ns = ns ∧ d.metadata.name = name

/-- The deployments without the one under this name. -/
def dropDeployment (ds : List Deployment) (ns name : String) : List Deployment :=
  ds.filter fun d => ¬ (d.metadata.ns = ns ∧ d.metadata.name = name)

/-- The deployments with the one under this name changed. -/
def mapDeployment (ds : List Deployment) (ns name : String) (f : Deployment → Deployment) :
    List Deployment :=
  ds.map fun d => if d.metadata.ns = ns ∧ d.metadata.name = name then f d else d

def getDeployment (w : World) (ns name : String) : Except KubeError Deployment :=
  match findDeployment w.deployments ns name with
  | some d => .ok d
  | none => notFound name

def selectDeployments (ds : List Deployment) (ns : String) (selector : LabelSelector) :
    List Deployment :=
  ds.filter fun d => d.metadata.ns = ns ∧ selector.Matches d.metadata.labels

/-- What the server stores for a new deployment. -/
def newDeployment (d : Deployment) (ns : String) (version : Nat) : Deployment where
  metadata := { d.metadata with
    ns := ns, generation := some 1, resourceVersion := some version }
  spec := d.spec
  status := none

def createDeployment (w : World) (ns : String) (d : Deployment) :
    Except KubeError Unit × World :=
  match findDeployment w.deployments ns d.metadata.name with
  | some _ => (.error (.conflict s!"\"{d.metadata.name}\" already exists"), w)
  | none => (.ok (), { w with
      deployments := w.deployments ++ [newDeployment d ns w.nextVersion]
      nextVersion := w.nextVersion + 1 })

/-- What the server stores when labels and spec are replaced: the status stays, and a changed spec
is a new generation. -/
def updatedDeployment (stored : Deployment) (labels : Labels) (spec : Option DeploymentSpec)
    (version : Nat) : Deployment where
  metadata := { stored.metadata with
    labels := labels
    generation := if spec = stored.spec then stored.metadata.generation
      else some (stored.metadata.generation.getD 0 + 1)
    resourceVersion := some version }
  spec := spec
  status := stored.status

def replaceDeployment (w : World) (ns name : String) (d : Deployment) :
    Except KubeError Unit × World :=
  match findDeployment w.deployments ns name with
  | none => (notFound name, w)
  | some stored =>
    if d.metadata.resourceVersion.all fun v => stored.metadata.resourceVersion = some v then
      (.ok (), { w with
        deployments := mapDeployment w.deployments ns name fun stored =>
          updatedDeployment stored d.metadata.labels d.spec w.nextVersion
        nextVersion := w.nextVersion + 1 })
    else (.error (.conflict s!"\"{name}\" has been modified"), w)

/-- A server-side apply: labels are added to those there are, the spec is taken over. -/
def applyDeployment (w : World) (ns name : String) (d : Deployment) :
    Except KubeError Unit × World :=
  match findDeployment w.deployments ns name with
  | none => (.ok (), { w with
      deployments := w.deployments ++
        [newDeployment { d with metadata := { d.metadata with name := name } } ns w.nextVersion]
      nextVersion := w.nextVersion + 1 })
  | some _ => (.ok (), { w with
      deployments := mapDeployment w.deployments ns name fun stored =>
        updatedDeployment stored (stored.metadata.labels.insertAll d.metadata.labels.entries)
          d.spec w.nextVersion
      nextVersion := w.nextVersion + 1 })

def deleteDeployment (w : World) (ns name : String) : Except KubeError Unit × World :=
  match findDeployment w.deployments ns name with
  | none => (notFound name, w)
  | some _ => (.ok (), { w with deployments := dropDeployment w.deployments ns name })

/-! ## Other objects -/

/-- The object of this kind under this name. -/
def IsResource (kind : Kind) (ns name : String) (r : Resource) : Prop :=
  r.kind = kind ∧ r.metadata.ns = ns ∧ r.metadata.name = name

instance (kind : Kind) (ns name : String) (r : Resource) : Decidable (IsResource kind ns name r) :=
  inferInstanceAs (Decidable (_ ∧ _ ∧ _))

def getResource (w : World) (kind : Kind) (ns name : String) : Except KubeError Resource :=
  match w.resources.find? fun r => IsResource kind ns name r with
  | some r => .ok r
  | none => notFound name

def selectResources (rs : List Resource) (kind : Kind) (ns : String) (selector : LabelSelector) :
    List Resource :=
  rs.filter fun r => r.kind = kind ∧ r.metadata.ns = ns ∧ selector.Matches r.metadata.labels

def applyResource (w : World) (kind : Kind) (ns name : String) (r : Resource) :
    Except KubeError Unit × World :=
  let placed := { r with kind := kind, metadata := { r.metadata with ns := ns, name := name } }
  match w.resources.find? fun r => IsResource kind ns name r with
  | none => (.ok (), { w with resources := w.resources ++ [placed] })
  | some stored =>
    let labels := stored.metadata.labels.insertAll r.metadata.labels.entries
    let merged := { placed with metadata := { placed.metadata with labels := labels } }
    (.ok (), { w with
      resources := w.resources.map fun r => if IsResource kind ns name r then merged else r })

def deleteResource (w : World) (kind : Kind) (ns name : String) : Except KubeError Unit × World :=
  match w.resources.find? fun r => IsResource kind ns name r with
  | none => (notFound name, w)
  | some _ =>
    (.ok (), { w with resources := w.resources.filter fun r => ¬ IsResource kind ns name r })

def getEndpoints (w : World) (ns name : String) : Except KubeError (List EndpointSubset) :=
  match w.endpoints.find? fun e => e.1 = ns ∧ e.2.1 = name with
  | some e => .ok e.2.2
  | none => notFound name

def getPlugin (w : World) (name : String) : Except KubeError InceptionPlugin :=
  match w.plugins.find? fun p => p.name = name with
  | some p => .ok p
  | none => notFound name

/-! ## Serving a call -/

/-- The answer of the API server, with an error where the outcome says so. -/
def respond {α : Type} (w : World) (o : Outcome) (r : Except KubeError α × World) :
    Option (Except KubeError α × World) :=
  match o with
  | .ok => some r
  | .refused text => some (.error (.other text), w)
  | .lost text => some (.error (.other text), r.2)
  | _ => none

/-- What the state store makes of an operation that it may refuse. -/
def storeResult {α : Type} (w : World) (r : Except StoreError (α × MemoryStore)) :
    Except StoreError α × World :=
  match r with
  | .ok (a, store) => (.ok a, { w with store := store })
  | .error e => (.error e, w)

/-- The answer of the state store. -/
def respondStore {α : Type} (w : World) (o : Outcome) (r : Except StoreError α × World) :
    Option (Except StoreError α × World) :=
  match o with
  | .ok => some r
  | .refused text => some (.error (.other text), w)
  | .lost text => some (.error (.other text), r.2)
  | _ => none

def serve (w : World) (c : Call) (o : Outcome) : Option (Answer c × World) :=
  match c with
  | .getBgd ns name => w.respond o (w.getBgd ns name, w)
  | .listBgds => w.respond o (.ok (w.bgd.toList ++ w.otherBgds), w)
  | .replaceStatus ns name b => w.respond o (w.replaceStatus ns name b)
  | .patchStatus ns name patch => w.respond o (w.patchStatus ns name patch)
  | .patchFinalizers ns name finalizers => w.respond o (w.patchFinalizers ns name finalizers)
  | .getDeployment ns name => w.respond o (w.getDeployment ns name, w)
  | .listDeployments ns selector =>
    w.respond o (.ok (selectDeployments w.deployments ns selector), w)
  | .createDeployment ns d => w.respond o (w.createDeployment ns d)
  | .replaceDeployment ns name d => w.respond o (w.replaceDeployment ns name d)
  | .applyDeployment ns name d => w.respond o (w.applyDeployment ns name d)
  | .deleteDeployment ns name => w.respond o (w.deleteDeployment ns name)
  | .getResource kind ns name => w.respond o (w.getResource kind ns name, w)
  | .listResources kind ns selector =>
    w.respond o (.ok (selectResources w.resources kind ns selector), w)
  | .applyResource kind ns name r => w.respond o (w.applyResource kind ns name r)
  | .deleteResource kind ns name => w.respond o (w.deleteResource kind ns name)
  | .getEndpoints ns name => w.respond o (w.getEndpoints ns name, w)
  | .listNamespaces => w.respond o (.ok w.namespaces, w)
  | .getPlugin name => w.respond o (w.getPlugin name, w)
  | .listPlugins => w.respond o (.ok w.plugins, w)
  | .controlPlaneClient _ => match o with
    | .ok => some (.ok (), w)
    | .refused text => some (.error text, w)
    | _ => none
  | .postManager _ _ _ => match o with
    | .manager answer => some (answer, w)
    | _ => none
  | .postManagerSync _ _ _ => match o with
    | .http answer => some (answer, w)
    | _ => none
  | .postInceptor _ _ => match o with
    | .inceptor answer => some (answer, w)
    | _ => none
  | .getDrainStatus _ _ => match o with
    | .drainStatus answer => some (answer, w)
    | _ => none
  | .postTraffic _ _ _ => match o with
    | .http answer => some (answer, w)
    | _ => none
  | .counts key => w.respondStore o (.ok (w.store.counts key), w)
  | .countsForMode key mode => w.respondStore o (.ok (w.store.countsForMode key mode), w)
  | .latestFailureMessage key => w.respondStore o (.ok (w.store.latestFailureMessage key), w)
  | .cleanupBlueGreen key =>
    let (removed, store) := w.store.cleanupBlueGreen key
    w.respondStore o (.ok removed, { w with store := store })
  | .listBlueGreenRefs => w.respondStore o (.ok w.store.listBlueGreenRefs.keys, w)
  | .register run => w.respondStore o (.ok (), { w with store := w.store.register run })
  | .getCase key testId => w.respondStore o (.ok (w.store.get key testId), w)
  | .listPending => w.respondStore o (.ok w.store.listPending, w)
  | .setVerdict key testId passed failureMessage =>
    w.respondStore o (w.storeResult
      ((w.store.setVerdict key testId passed failureMessage).map fun store => ((), store)))
  | .markTimedOut key testId =>
    w.respondStore o (w.storeResult ((w.store.markTimedOut key testId).map fun store => ((), store)))
  | .decrementRetries key testId =>
    w.respondStore o (w.storeResult (w.store.decrementRetries key testId))
  | .pollVerifier _ _ => match o with
    | .verifier answer => some (answer, w)
    | _ => none
  | .now => match o with
    | .ok => some (w.clock, w)
    | _ => none
  | .sleep _ => match o with
    | .ok => some ((), w)
    | _ => none
  | .note _ => match o with
    | .ok => some ((), w)
    | _ => none

/-! ## Moves -/

def editSpec (w : World) (spec : BlueGreenDeploymentSpec) : Option World :=
  w.bgd.map fun b => w.writeBgd { b with
    spec := spec
    metadata := { b.metadata with generation := some (b.metadata.generation.getD 0 + 1) } }

/-- The object is marked, which is a new generation; without finalizers it is gone at once. -/
def delete (w : World) : Option World :=
  w.bgd.map fun b =>
    if b.metadata.finalizers = [] then { w with bgd := none }
    else w.writeBgd { b with metadata := { b.metadata with
      deletionTimestamp := some w.clock
      generation := some (b.metadata.generation.getD 0 + 1) } }

def move (w : World) : Move → Option World
  | .editSpec spec => w.editSpec spec
  | .delete => w.delete
  | .tick nanos => some { w with clock := w.clock + nanos }
  | .register run => some { w with store := w.store.register run }
  | .setVerdict blueGreenRef testId passed failureMessage =>
    match w.store.setVerdict blueGreenRef testId passed failureMessage with
    | .ok store => some { w with store := store }
    | .error _ => none
  | .markTimedOut blueGreenRef testId => match w.store.markTimedOut blueGreenRef testId with
    | .ok store => some { w with store := store }
    | .error _ => none
  | .deploymentStatus ns name status => some { w with
      deployments := mapDeployment w.deployments ns name fun d => { d with
        status := status
        metadata := { d.metadata with resourceVersion := some w.nextVersion } }
      nextVersion := w.nextVersion + 1 }
  | .setDeployments deployments => some { w with
      deployments := deployments
      nextVersion := w.nextVersion + 1 }
  | .setResources resources => some { w with resources := resources }
  | .setEndpoints endpoints => some { w with endpoints := endpoints }
  | .setNamespaces namespaces => some { w with namespaces := namespaces }
  | .setPlugins plugins => some { w with plugins := plugins }
  | .setOtherBgds bgds => some { w with otherBgds := bgds }

end World

/-- The operator's outside. -/
def cluster : Machine Call Answer World Outcome Move where
  serve := World.serve
  move := World.move
  halt := id

end FluidBG
