import FluidBG.Controller.Resources
/-!
# Talking to plugins

`controller/plugin_lifecycle.rs`: the calls to plugin managers and inceptors with their retries,
the inventory of active inceptions, and `start_plugin_draining`.
-/

set_option autoImplicit false

namespace FluidBG

open Lib

inductive PluginLifecycleStage where
  | prepare
  | activate
  | drain
  | cleanup
  deriving DecidableEq, Repr

def controlPlaneUrl (serviceName ns : String) (port : Int) (path : String)
    (tls : Option ControlPlaneTls) : String :=
  let scheme := if tls.any (·.enabled) then "https" else "http"
  s!"{scheme}://{serviceName}.{ns}.svc:{port}{path}"

/-- `control_plane_client(..)?`. -/
def controlPlaneClient (tls : Option ControlPlaneTls) : Op Unit := do
  match ← Op.ask (.controlPlaneClient tls) with
  | .ok () => pure ()
  | .error text => .fail (.pluginInceptor text)

def bearerValue (token : String) : String := s!"Bearer {token}"

/-- The port of an inceptor's control plane. -/
def inceptorPort (plugin : InceptionPlugin) : Int :=
  ((plugin.spec.inceptor.controlPlaneTls.bind (·.port)).or
    (plugin.spec.inceptor.ports.head?.map (·.containerPort))).getD 9090

def inceptorUrl (plugin : InceptionPlugin) (ns blueGreenRef inceptionPoint path : String) :
    String :=
  controlPlaneUrl (inceptionServiceName blueGreenRef inceptionPoint) ns (inceptorPort plugin) path
    plugin.spec.inceptor.controlPlaneTls

def managerUrl (manager : PluginManager) (path : String) : String :=
  let port := ((manager.controlPlaneTls.bind (·.port)).or manager.port).getD 9090
  controlPlaneUrl manager.serviceName (manager.ns.getD "fluidbg-system") port path
    manager.controlPlaneTls

/-- The path of a stage in a plugin's lifecycle. -/
def lifecyclePath (lifecycle : PluginLifecycle) : PluginLifecycleStage → Option String
  | .prepare => lifecycle.preparePath
  | .activate => lifecycle.activatePath
  | .drain => lifecycle.drainPath
  | .cleanup => lifecycle.cleanupPath

/-! ## Requests with retries -/

/-- What one try of a request says: an answer, a failure for good, or try again. -/
def httpTry {α β : Type} (last : Bool) (failed decodeFailed : String → ReconcileError)
    (ok : α → β) : HttpAnswer α → Op (Option β)
  | .ok value => .pure (some (ok value))
  | .statusError text => .fail (failed text)
  | .decodeError text => .fail (decodeFailed text)
  | .sendError text => if last then .fail (failed text) else do
      Op.ask (.sleep 2)
      .pure none

/-- Up to `attempts` tries of a request, two seconds apart. Only a request that got no response
is tried again. -/
def withRetries {α β : Type} (attempts : Nat) (send : Op (HttpAnswer α))
    (failed decodeFailed : String → ReconcileError) (ok : α → β) (exhausted : β) : Op β :=
  Prog.retry attempts (fun i => do
    let answer ← send
    httpTry (i + 1 = attempts) failed decodeFailed ok answer) (.pure exhausted)

def invokeInceptorLifecycle (ctx : Ctx) (blueGreenRef ns inceptionPoint : String)
    (plugin : InceptionPlugin) (stage : PluginLifecycleStage) :
    Op (Option PluginLifecycleResponse) :=
  match plugin.spec.lifecycle.bind fun lifecycle => lifecyclePath lifecycle stage with
  | none => pure none
  | some path => do
    let url := inceptorUrl plugin ns blueGreenRef inceptionPoint path
    controlPlaneClient plugin.spec.inceptor.controlPlaneTls
    let authToken ← signInceptionAuthToken ctx ns blueGreenRef inceptionPoint plugin
    withRetries 10 (Op.ask (.postInceptor url (bearerValue authToken)))
      (fun e => .pluginInceptor s!"plugin inceptor lifecycle call failed for {url}: {e}")
      (fun e => .pluginInceptor
        s!"plugin inceptor lifecycle response deserialization failed for {url}: {e}")
      some none

/-! ## The inventory of active inceptions -/

/-- A finished rollout takes no part in the inventory. -/
def takesPartInInventory (bgd : BlueGreenDeployment) : Bool :=
  bgd.phase ≠ some .completed && bgd.phase ≠ some .rolledBack

/-- The entry of an inception point. -/
def activeInception (bgd : BlueGreenDeployment) (pluginName : String) (ip : InceptionPoint) :
    ActiveInception where
  ns := bgd.metadata.ns
  blueGreenRef := bgd.metadata.name
  blueGreenUid := bgd.metadata.uid
  inceptionPoint := ip.name
  plugin := pluginName
  roles := ip.roles.map pluginRoleName
  config := ip.config

def activeInceptionsOf (bgds : List BlueGreenDeployment) (pluginName : String) :
    List ActiveInception :=
  (bgds.filter takesPartInInventory).flatMap fun bgd =>
    (bgd.spec.inceptionPoints.filter fun ip => ip.pluginRef.name = pluginName).map
      (activeInception bgd pluginName)

def activeInceptionsForPlugin (pluginName : String) : Op (List ActiveInception) := do
  let bgds ← Op.kube (← Op.ask .listBgds)
  pure (activeInceptionsOf bgds pluginName)

/-! ## Managers -/

def invokePluginManagerSync (ctx : Ctx) (plugin : InceptionPlugin) : Op Unit :=
  match plugin.spec.manager with
  | none => pure ()
  | some manager => do
    let url := managerUrl manager (manager.syncPath.getD "/manager/sync")
    let activeInceptions ← activeInceptionsForPlugin plugin.name
    let authToken ← signManagerSyncAuthToken ctx plugin
    controlPlaneClient manager.controlPlaneTls
    let failed := fun e => .pluginManager s!"plugin manager sync failed for {url}: {e}"
    withRetries 3
      (Op.ask (.postManagerSync url (bearerValue authToken) ⟨plugin.name, activeInceptions⟩))
      failed failed id ()

/-- The manager's path of a stage; managers take part in two stages only. -/
def managerPath (manager : PluginManager) : PluginLifecycleStage → Option String
  | .prepare => some (manager.preparePath.getD "/manager/prepare")
  | .activate => none
  | .cleanup => some (manager.cleanupPath.getD "/manager/cleanup")
  | .drain => none

/-- The context of the request to a manager, which renders nothing. -/
def managerContext (ns blueGreenRef blueGreenUid authToken : String) :
    ReconcileInceptionContext where
  ns := ns
  operatorUrl := ""
  testContainerUrl := ""
  testDataVerifyPath := none
  blueDeploymentName := ""
  blueGreenRef := blueGreenRef
  blueGreenUid := blueGreenUid
  authToken := authToken
  managerInceptorEnv := []
  managerConfig := none

/-- `validate_plugin_auth(..).map_err(Auth)?.ok_or_else(..)?`: an error on the way becomes an
`Auth` error with its text. -/
def managerClaims (ctx : Ctx) (authToken : String) : Op PluginAuthClaims := do
  match ← (validateInceptionAuthToken ctx authToken).result with
  | .error err => .fail (.auth err.text)
  | .ok none => .fail (.pluginManager "manager auth token did not produce claims")
  | .ok (some claims) => pure claims

def invokePluginManagerLifecycle (ctx : Ctx) (blueGreenRef ns : String) (ip : InceptionPoint)
    (plugin : InceptionPlugin) (stage : PluginLifecycleStage) :
    Op (Option PluginLifecycleResponse) :=
  match plugin.spec.manager with
  | none => pure none
  | some manager => match managerPath manager stage with
    | none => pure none
    | some path => do
      let url := managerUrl manager path
      let authToken ← signInceptionAuthToken ctx ns blueGreenRef ip.name plugin
      let claims ← managerClaims ctx authToken
      let context := managerContext ns blueGreenRef (claims.blueGreenUid.getD "") authToken
      let activeInceptions ← activeInceptionsForPlugin plugin.name
      let request : PluginManagerLifecycleRequest := {
        ns := ns
        blueGreenRef := blueGreenRef
        blueGreenUid := claims.blueGreenUid
        inceptionPoint := ip.name
        plugin := plugin.name
        roles := ip.roles.map pluginRoleName
        config := securedInceptionConfig plugin ip context
        activeInceptions := activeInceptions }
      controlPlaneClient manager.controlPlaneTls
      withRetries 10 (Op.ask (.postManager url (bearerValue authToken) request))
        (fun e => .pluginManager s!"plugin manager call failed for {url}: {e}")
        (fun e => .pluginManager
          s!"plugin manager response deserialization failed for {url}: {e}")
        (fun value => some (value.getD .empty)) none

/-! ## Drain status and traffic -/

def invokeInceptorDrainStatus (ctx : Ctx) (blueGreenRef ns inceptionPoint : String)
    (plugin : InceptionPlugin) : Op (Option PluginDrainStatusResponse) :=
  match plugin.spec.lifecycle.bind (·.drainStatusPath) with
  | none => pure none
  | some path => do
    let url := inceptorUrl plugin ns blueGreenRef inceptionPoint path
    let authToken ← signInceptionAuthToken ctx ns blueGreenRef inceptionPoint plugin
    controlPlaneClient plugin.spec.inceptor.controlPlaneTls
    match ← Op.ask (.getDrainStatus url (bearerValue authToken)) with
    | .ok payload => pure (some payload)
    | .sendError err => .fail (.pluginDrainStatus
        s!"plugin inceptor drain status call failed for {url}: {err}")
    | .statusError err => .fail (.pluginDrainStatus
        s!"plugin inceptor drain status call failed for {url}: {err}")
    | .decodeError err => .fail (.pluginDrainStatus
        s!"plugin inceptor drain status response deserialization failed for {url}: {err}")

/-- `trafficPercent as u8` has been applied by the caller. -/
def invokeInceptorTrafficShift (ctx : Ctx) (blueGreenRef ns inceptionPoint : String)
    (plugin : InceptionPlugin) (trafficPercent : Nat) : Op Unit := do
  let path := (plugin.spec.lifecycle.bind (·.trafficShiftPath)).getD "/traffic"
  let url := inceptorUrl plugin ns blueGreenRef inceptionPoint path
  controlPlaneClient plugin.spec.inceptor.controlPlaneTls
  let authToken ← signInceptionAuthToken ctx ns blueGreenRef inceptionPoint plugin
  let failed := fun e =>
    .pluginTrafficShift s!"plugin inceptor traffic shift call failed for {url}: {e}"
  withRetries 10 (Op.ask (.postTraffic url (bearerValue authToken) trafficPercent))
    failed failed id ()

/-! ## Draining -/

/-- An assignment of an injected variable. -/
def envAssignment (target : AssignmentTarget) (env : EnvVar) : PropertyAssignment where
  target := target
  kind := .env
  name := env.name
  value := env.value.getD ""
  containerName := none

/-- The assignments of the injections of all three containers. -/
def injectionAssignments (injections : ContainerEnvInjections) : List PropertyAssignment :=
  injections.green.map (envAssignment .green) ++ injections.blue.map (envAssignment .blue) ++
    injections.test.map (envAssignment .test)

/-- The restore templates of a plugin for an inception point. -/
def restoreAssignments (plugin : InceptionPlugin) (ip : InceptionPoint) (ns blueGreenRef : String) :
    List PropertyAssignment :=
  injectionAssignments
    (renderContainerEnvInjections plugin (pluginTemplateContext ip ns blueGreenRef) true)

def filterAssignments (assignments : List PropertyAssignment) (targets : List AssignmentTarget) :
    List PropertyAssignment :=
  assignments.filter fun a => a.target ∈ targets

/-- Drain one inception point and apply what it restores. -/
def drainInceptionPoint (ctx : Ctx) (bgd : BlueGreenDeployment) (ns : String)
    (restoreTargets : List AssignmentTarget) (ip : InceptionPoint) : Op Unit := do
  let plugin ← Op.kube (← Op.ask (.getPlugin ip.pluginRef.name))
  let response ← invokeInceptorLifecycle ctx bgd.metadata.name ns ip.name plugin .drain
  let assignments := restoreAssignments plugin ip ns bgd.metadata.name ++
    (response.map (·.assignments)).getD []
  let filtered := filterAssignments assignments restoreTargets
  if filtered = [] then pure ()
  else
    let touched ← applyAssignments bgd ns filtered false
    waitForDeploymentsReady touched

def startPluginDraining (ctx : Ctx) (bgd : BlueGreenDeployment) (ns : String)
    (restoreTargets : List AssignmentTarget) : Op Unit :=
  Prog.forEach bgd.spec.inceptionPoints (drainInceptionPoint ctx bgd ns restoreTargets)

end FluidBG
