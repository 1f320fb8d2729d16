import FluidBG.Controller.PluginLifecycle
/-!
# The phases of a rollout

`controller/phases/`: preparing the inception points, the rollout of the candidate, draining, and
the traffic of splitters.
-/

set_option autoImplicit false

namespace FluidBG

open Lib

/-! ## Rollout -/

def ensureDeclaredDeployments (ctx : Ctx) (bgd : BlueGreenDeployment) (ns : String)
    (initialAssignments : List PropertyAssignment) : Op Unit := do
  let _ ← applyDeploymentManifest ctx bgd ns bgd.spec.deployment bgd.spec.selector.matchLabels
    false initialAssignments
  pure ()

def bootstrapInitialGreenIfEmpty (ctx : Ctx) (bgd : BlueGreenDeployment) (ns : String) :
    Op Bool := do
  if bgd.spec.selector.matchLabels.isEmpty then
    .fail (.store "selector.matchLabels must contain at least one label")
  else
    let greenNamespace := bgd.spec.selector.ns.getD ns
    let family ← Op.kube (← Op.ask
      (.listDeployments greenNamespace (.ofLabels bgd.spec.selector.matchLabels)))
    if family ≠ [] then pure false
    else
      let _ ← applyDeploymentManifest ctx bgd ns bgd.spec.deployment bgd.spec.selector.matchLabels
        true []
      pure true

/-- The green deployments other than the candidate. -/
def previousGreens (greenNamespace : String) (greenDeployments : List Deployment)
    (candidate : DeploymentRef) (defaultNamespace : String) : List DeploymentRef :=
  (greenDeployments.filter fun d => ¬ (d.metadata.name = candidate.name ∧
    greenNamespace = deploymentNamespace candidate defaultNamespace)).map fun d =>
      ⟨d.metadata.name, some greenNamespace⟩

/-- The candidate is among the green deployments. -/
def candidateSeen (greenNamespace : String) (greenDeployments : List Deployment)
    (candidate : DeploymentRef) (defaultNamespace : String) : Bool :=
  greenDeployments.any fun d => d.metadata.name = candidate.name ∧
    greenNamespace = deploymentNamespace candidate defaultNamespace

def selectPreviousGreenForPromotion (greenNamespace : String) (greenDeployments : List Deployment)
    (candidate : DeploymentRef) (defaultNamespace : String) :
    Except ReconcileError DeploymentRef :=
  match candidateSeen greenNamespace greenDeployments candidate defaultNamespace,
    previousGreens greenNamespace greenDeployments candidate defaultNamespace with
  | true, [d] => .ok d
  | true, [] => .ok candidate
  | true, found => .error (.store
      s!"promotion found candidate plus {found.length} previous green deployments in namespace '{greenNamespace}'; expected at most one previous green")
  | false, [d] => .ok d
  | false, [] => .error (.store
      s!"selector matched no green deployments in namespace '{greenNamespace}'")
  | false, found => .error (.store
      s!"selector matched {found.length} green deployments in namespace '{greenNamespace}'; expected exactly one or an in-progress promotion candidate plus previous green")

def resolvePreviousGreenForPromotion (ns : String) (selector : DeploymentSelector)
    (candidate : DeploymentRef) : Op DeploymentRef := do
  if selector.matchLabels.isEmpty then
    .fail (.store "selector.matchLabels must contain at least one label")
  else
    let greenNamespace := selector.ns.getD ns
    let deployments ← Op.kube (← Op.ask
      (.listDeployments greenNamespace (.ofLabels (greenLabels selector))))
    Op.lift (selectPreviousGreenForPromotion greenNamespace deployments candidate ns)

def promote (ctx : Ctx) (bgd : BlueGreenDeployment) (ns : String) : Op DeploymentRef := do
  Op.note (.promote bgd)
  let currentGreen ← resolvePreviousGreenForPromotion ns bgd.spec.selector (candidateRef bgd)
  let candidateIdentity ← applyDeploymentManifest ctx bgd ns bgd.spec.deployment
    bgd.spec.selector.matchLabels true []
  waitForDeploymentsReady [candidateIdentity]
  pure currentGreen

def beginDrainingAfterPromotion (ctx : Ctx) (bgd : BlueGreenDeployment) (ns : String)
    (previousGreen : DeploymentRef) : Op Unit := do
  Op.note (.beginDraining .promotion bgd)
  startPluginDraining ctx bgd ns [.blue]
  deleteCurrentGreen ns (candidateRef bgd) previousGreen
  Op.note (.drainStarted .promotion bgd)

def beginDrainingAfterRollback (ctx : Ctx) (bgd : BlueGreenDeployment) (ns : String) :
    Op Unit := do
  Op.note (.beginDraining .rollback bgd)
  startPluginDraining ctx bgd ns [.green]
  deleteDeployment (deploymentNamespace (candidateRef bgd) ns) (candidateRef bgd).name
  Op.note (.drainStarted .rollback bgd)

/-! ## Traffic -/

def isSplitter (ip : InceptionPoint) : Bool := ip.roles.any (· == .splitter)

def validateProgressiveSplitterPlugin (inceptionPointName pluginName : String)
    (plugin : InceptionPlugin) : Except ReconcileError Unit :=
  if (plugin.spec.features.map (·.supportsProgressiveShifting)).getD false then .ok ()
  else .error (.invalidSpec
    s!"progressive strategy requires inception point '{inceptionPointName}' plugin '{pluginName}' to set features.supportsProgressiveShifting=true")

/-- Every splitter's plugin supports shifting. -/
def validateSplitters (bgd : BlueGreenDeployment) : Op Unit :=
  Prog.forEach (bgd.spec.inceptionPoints.filter isSplitter) fun ip => do
    let plugin ← Op.kube (← Op.ask (.getPlugin ip.pluginRef.name))
    Op.lift (validateProgressiveSplitterPlugin ip.name ip.pluginRef.name plugin)

def validateProgressiveShiftingSupport (bgd : BlueGreenDeployment) : Op Unit :=
  match bgd.spec.promotion with
  | none => pure ()
  | some promotion =>
    if promotion.strategy.strategyType = .progressive then do
      validateSplitters bgd
      if bgd.spec.inceptionPoints.any isSplitter then pure ()
      else .fail (.invalidSpec
        "progressive strategy requires at least one splitter inception point")
    else pure ()

/-- `traffic_percent as u8`. -/
def asU8 (n : Int) : Nat := (n % 256).toNat

def applySplitterTrafficPercent (ctx : Ctx) (bgd : BlueGreenDeployment) (ns : String)
    (trafficPercent : Int) : Op Unit :=
  Prog.forEach (bgd.spec.inceptionPoints.filter isSplitter) fun ip => do
    let plugin ← Op.kube (← Op.ask (.getPlugin ip.pluginRef.name))
    invokeInceptorTrafficShift ctx bgd.metadata.name ns ip.name plugin (asU8 trafficPercent)

def initializeSplitterTraffic (ctx : Ctx) (bgd : BlueGreenDeployment) (ns : String) : Op Unit :=
  match initialSplitterTrafficPercent bgd with
  | none => pure ()
  | some trafficPercent => do
    applySplitterTrafficPercent ctx bgd ns trafficPercent
    updateStatusProgress bgd ns 0 trafficPercent

/-! ## Inception -/

def rejectManagerTestAssignments (inceptionPoint : String)
    (assignments : List PropertyAssignment) : Except ReconcileError Unit :=
  if assignments.any fun a => a.target = .test then
    .error (.pluginManager
      s!"inception point '{inceptionPoint}' returned test deployment assignments from prepare; test assignments must be declared in InceptionPlugin injects so the operator can apply them before inceptor activation")
  else .ok ()

def rejectActivationAssignments (inceptionPoint : String)
    (assignments : List PropertyAssignment) : Except ReconcileError Unit :=
  if assignments = [] then .ok ()
  else .error (.pluginInceptor
    s!"inception point '{inceptionPoint}' returned deployment assignments from activate; app/test assignments must be provided before activation")

def rejectInceptorEnvResponse (inceptionPoint : String) (env : List InceptorEnvVar) :
    Except ReconcileError Unit :=
  if env = [] then .ok ()
  else .error (.pluginInceptor
    s!"inception point '{inceptionPoint}' returned inceptorEnv outside manager prepare; inceptor runtime env must be provided by the manager before pod creation")

def managerInceptorEnvVars (vars : List InceptorEnvVar) : List EnvVar :=
  vars.map fun env => EnvVar.ofValue env.name (some env.value)

/-- The URL inceptors reach the test under. -/
def testContainerUrl (bgd : BlueGreenDeployment) (ns : String) : Except ReconcileError String :=
  match bgd.spec.test with
  | none => .ok "http://localhost:8080"
  | some test => match testServicePort test with
    | .ok port => .ok s!"http://{testInstanceName bgd test.name}.{ns}:{port}"
    | .error e => .error e

structure PreparedInceptionPoint where
  inceptionPoint : InceptionPoint
  plugin : InceptionPlugin
  pluginDeployments : List DeploymentIdentity

/-- What the loop over the inception points has collected. -/
structure Preparation where
  plans : List PreparedInceptionPoint
  testAssignments : List PropertyAssignment
  preActivationAssignments : List PropertyAssignment
  verifierAuthTokens : Labels

def Preparation.empty : Preparation := ⟨[], [], [], .empty⟩

/-- What a manager's prepare hands to the inceptor. -/
structure ManagerPreparation where
  inceptorEnv : List EnvVar
  config : Option Json
  assignments : List PropertyAssignment

def prepareManager (ctx : Ctx) (bgd : BlueGreenDeployment) (ns : String) (ip : InceptionPoint)
    (plugin : InceptionPlugin) : Op ManagerPreparation := do
  match ← invokePluginManagerLifecycle ctx bgd.metadata.name ns ip plugin .prepare with
  | none => pure ⟨[], none, []⟩
  | some response =>
    Op.lift (rejectManagerTestAssignments ip.name response.assignments)
    pure ⟨managerInceptorEnvVars response.inceptorEnv, response.config, response.assignments⟩

/-- The context the objects of an inception point are built in. -/
def inceptionContext (ctx : Ctx) (bgd : BlueGreenDeployment) (ns testUrl authToken : String)
    (manager : ManagerPreparation) : ReconcileInceptionContext where
  ns := ns
  operatorUrl := ctx.operatorUrl
  testContainerUrl := testUrl
  testDataVerifyPath :=
    (bgd.spec.test.bind (·.dataVerification)).map (·.verifyPath)
  blueDeploymentName := (candidateRef bgd).name
  blueGreenRef := bgd.metadata.name
  blueGreenUid := bgd.metadata.uid.getD ""
  authToken := authToken
  managerInceptorEnv := manager.inceptorEnv
  managerConfig := manager.config

/-- Apply the objects of an inceptor; the identities of its Deployments. -/
def applyInceptorResources (ns : String) (resources : ReconciledResources) :
    Op (List DeploymentIdentity) := do
  Prog.forEach resources.configMaps fun cm => applyResource .configMap ns cm.metadata.name cm
  Prog.forEach resources.secrets fun secret => applyResource .secret ns secret.metadata.name secret
  Prog.forEach resources.deployments fun d =>
    applyDeploymentResource d.metadata.ns d.metadata.name d
  Prog.forEach resources.services fun svc => applyResource .service ns svc.metadata.name svc
  pure (resources.deployments.map Deployment.identity)

/-- One turn of the first loop of `ensure_inception_resources`. -/
def prepareInceptionPoint (ctx : Ctx) (bgd : BlueGreenDeployment) (ns testUrl : String)
    (acc : Preparation) (ip : InceptionPoint) : Op Preparation := do
  let plugin ← Op.kube (← Op.ask (.getPlugin ip.pluginRef.name))
  Op.lift ((validateInceptionPoint ctx.crates plugin ip).mapError .invalidSpec)
  let manager ← prepareManager ctx bgd ns ip plugin
  let authToken ← signInceptionAuthToken ctx ns bgd.metadata.name ip.name plugin
  let resources ← Op.lift ((reconcileInceptionPoint ctx.crates plugin ip
    (inceptionContext ctx bgd ns testUrl authToken manager)).mapError .resource)
  let injected := injectionAssignments ⟨resources.greenEnvInjections,
    resources.blueEnvInjections, resources.testEnvInjections⟩
  let pluginDeployments ← applyInceptorResources ns resources
  pure {
    plans := acc.plans ++ [⟨ip, plugin, pluginDeployments⟩]
    testAssignments := acc.testAssignments ++ injected.filter fun a => a.target = .test
    preActivationAssignments := acc.preActivationAssignments ++ manager.assignments ++
      injected.filter fun a => a.target ≠ .test
    verifierAuthTokens := acc.verifierAuthTokens.insert ip.name authToken }

/-- One turn of the second loop: the inceptor is up and prepares. -/
def prepareInceptor (ctx : Ctx) (bgd : BlueGreenDeployment) (ns : String)
    (assignments : List PropertyAssignment) (plan : PreparedInceptionPoint) :
    Op (List PropertyAssignment) := do
  waitForDeploymentsReady plan.pluginDeployments
  match ← invokeInceptorLifecycle ctx bgd.metadata.name ns plan.inceptionPoint.name plan.plugin
      .prepare with
  | none => pure assignments
  | some response =>
    Op.lift (rejectInceptorEnvResponse plan.inceptionPoint.name response.inceptorEnv)
    Op.lift (rejectManagerTestAssignments plan.inceptionPoint.name response.assignments)
    pure (assignments ++ response.assignments)

/-- One turn of the last loop: the inceptor starts to work. -/
def activateInceptor (ctx : Ctx) (bgd : BlueGreenDeployment) (ns : String)
    (plan : PreparedInceptionPoint) : Op Unit := do
  match ← invokeInceptorLifecycle ctx bgd.metadata.name ns plan.inceptionPoint.name plan.plugin
      .activate with
  | none => pure ()
  | some response =>
    Op.lift (rejectInceptorEnvResponse plan.inceptionPoint.name response.inceptorEnv)
    Op.lift (rejectActivationAssignments plan.inceptionPoint.name response.assignments)

/-- The environment of the test with the verifier's tokens. -/
def extraTestEnv (ctx : Ctx) (bgd : BlueGreenDeployment) (ns : String)
    (verifierAuthTokens : Labels) : Op (List EnvVar) :=
  match bgd.spec.test with
  | none => pure []
  | some _ => match ctx.crates.jsonText verifierAuthTokens with
    | .error err => .fail (.auth s!"failed to serialize verifier auth tokens: {err}")
    | .ok tokensJson => do
      let secretName ← ensureVerifierAuthSecret bgd ns tokensJson
      pure [verifierAuthEnv secretName]

/-- The assignments made to the running application before activation. -/
def applyPreActivation (bgd : BlueGreenDeployment) (ns : String)
    (assignments : List PropertyAssignment) : Op Unit :=
  if assignments = [] then pure ()
  else do
    let touched ← applyAssignments bgd ns assignments false
    waitForDeploymentsReady touched

def ensureInceptionResources (ctx : Ctx) (bgd : BlueGreenDeployment) (ns : String) : Op Unit := do
  let testUrl ← Op.lift (testContainerUrl bgd ns)
  let prepared ← Prog.foldEach bgd.spec.inceptionPoints Preparation.empty
    (prepareInceptionPoint ctx bgd ns testUrl)
  let assignments ← Prog.foldEach prepared.plans prepared.preActivationAssignments
    (prepareInceptor ctx bgd ns)
  let extraEnv ← extraTestEnv ctx bgd ns prepared.verifierAuthTokens
  ensureDeclaredDeployments ctx bgd ns assignments
  let testDeployments ← ensureTestResources bgd ns prepared.testAssignments extraEnv
  waitForDeploymentsReady testDeployments
  waitForTestServicesReady bgd ns
  applyPreActivation bgd ns assignments
  Prog.forEach prepared.plans (activateInceptor ctx bgd ns)

/-! ## Draining -/

def forceReplaceInterruptedRollout (bgd : BlueGreenDeployment) : Bool :=
  let forceReplace := bgd.spec.updatePolicy.bind (·.activeRollout) = some .forceReplace
  let generation := bgd.metadata.generation.getD 0
  let rolloutGeneration := bgd.rolloutGeneration.getD 0
  forceReplace && rolloutGeneration > 0 && generation > rolloutGeneration

/-- `(now - started).num_seconds().max(0)`. -/
def elapsedSeconds (started now : Timestamp) : Int :=
  max ((now - started).tdiv 1000000000) 0

/-- The finished drain that an earlier reconcile recorded. -/
def recordedFinalDrain (previous : List InceptionPointDrainStatus) (ip : InceptionPoint) :
    Option InceptionPointDrainStatus :=
  previous.find? fun status => status.name = ip.name ∧
    (status.phase = .successful ∨ status.phase = .timedOutMaybeSuccessful)

/-- `ip.drain.max_wait_seconds.unwrap_or(60)`. -/
def maxWaitSeconds (ip : InceptionPoint) : Int :=
  (ip.drain.bind (·.maxWaitSeconds)).getD 60

/-- Ask an inceptor how far its drain is. -/
def drainStatusOf (ctx : Ctx) (bgd : BlueGreenDeployment) (ns : String) (ip : InceptionPoint) :
    Op InceptionPointDrainStatus := do
  let plugin ← Op.kube (← Op.ask (.getPlugin ip.pluginRef.name))
  match ← invokeInceptorDrainStatus ctx bgd.metadata.name ns ip.name plugin with
  | some pluginStatus =>
    if pluginStatus.drained then
      let now ← Op.ask .now
      pure ⟨ip.name, .successful, pluginStatus.message, some now⟩
    else pure ⟨ip.name, .pending, pluginStatus.message, none⟩
  | none =>
    let now ← Op.ask .now
    pure ⟨ip.name, .successful, some "plugin does not expose drainStatusPath", some now⟩

/-- One turn of the loop of `reconcile_draining`. -/
def reconcileDrain (ctx : Ctx) (bgd : BlueGreenDeployment) (ns : String) (elapsed : Int)
    (statuses : List InceptionPointDrainStatus) (ip : InceptionPoint) :
    Op (List InceptionPointDrainStatus) :=
  match recordedFinalDrain bgd.inceptionPointDrains ip with
  | some existing => pure (statuses ++ [existing])
  | none =>
    if elapsed ≥ maxWaitSeconds ip then do
      let now ← Op.ask .now
      pure (statuses ++ [⟨ip.name, .timedOutMaybeSuccessful,
        some s!"max drain wait of {maxWaitSeconds ip}s elapsed before plugin confirmed completion",
        some now⟩])
    else do
      match ← (drainStatusOf ctx bgd ns ip).result with
      | .ok status => pure (statuses ++ [status])
      | .error error =>
        Op.note (.drainStatusFailed bgd ip)
        .fail error

/-- Tell the inceptor and the manager of a point that the rollout is over. -/
def cleanupPlugin (ctx : Ctx) (bgd : BlueGreenDeployment) (ns : String) (ip : InceptionPoint) :
    Op Unit := do
  let plugin ← Op.kube (← Op.ask (.getPlugin ip.pluginRef.name))
  let _ ← invokeInceptorLifecycle ctx bgd.metadata.name ns ip.name plugin .cleanup
  let _ ← invokePluginManagerLifecycle ctx bgd.metadata.name ns ip plugin .cleanup
  pure ()

/-- The phase a drain ends in. -/
def finalPhase (bgd : BlueGreenDeployment) (terminalCountsHaveFailure : Bool) : BGDPhase :=
  if forceReplaceInterruptedRollout bgd || terminalCountsHaveFailure then .rolledBack
  else .completed

def finalizeDraining (ctx : Ctx) (bgd : BlueGreenDeployment) (ns : String)
    (terminalCountsHaveFailure : Bool) : Op Unit := do
  Prog.forEach bgd.spec.inceptionPoints (cleanupPlugin ctx bgd ns)
  cleanupInceptionResources bgd ns
  cleanupTestResources bgd ns
  updateStatusPhase bgd ns (finalPhase bgd terminalCountsHaveFailure)

/-- Some case did not pass. -/
def Counts.hasFailure (counts : Counts) : Bool := counts.failed > 0 || counts.timedOut > 0

/-- The instant a drain is measured from. -/
def drainStart (bgd : BlueGreenDeployment) : Op Timestamp :=
  match bgd.drainStartedAt with
  | some time => pure time
  | none => Op.ask .now

/-- The part of `reconcile_draining` after every point has reached its end. -/
def concludeDraining (ctx : Ctx) (bgd : BlueGreenDeployment) (ns stateKey : String) :
    Op Unit := do
  let counts ← Op.stateStore (← Op.ask (.counts stateKey))
  let latestFailureMessage ← Op.stateStore (← Op.ask (.latestFailureMessage stateKey))
  updateStatusCounts bgd ns counts (rateOf counts.passed counts.total) latestFailureMessage
  if counts.pending > 0 then pure ()
  else
    Op.note (.finalizeDraining bgd counts)
    finalizeDraining ctx bgd ns counts.hasFailure

def reconcileDraining (ctx : Ctx) (bgd : BlueGreenDeployment) (ns stateKey : String) :
    Op Unit := do
  let drainStartedAt ← drainStart bgd
  let now ← Op.ask .now
  Op.note (.drainMeasured bgd drainStartedAt now)
  let statuses ← Prog.foldEach bgd.spec.inceptionPoints []
    (reconcileDrain ctx bgd ns (elapsedSeconds drainStartedAt now))
  Op.note (.drainsAssessed bgd statuses)
  updateInceptionPointDrainStatuses bgd ns statuses
  if statuses.any fun status => status.phase = .pending then pure ()
  else concludeDraining ctx bgd ns stateKey

end FluidBG
