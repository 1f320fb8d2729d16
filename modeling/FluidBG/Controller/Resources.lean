import FluidBG.Controller.Deployments
/-!
# Applying and cleaning up objects

`controller/resources.rs`: the manifest of the application, the test's objects, the generic
apply and delete, tokens, and the cleanup of a rollout.
-/

set_option autoImplicit false

namespace FluidBG

open Lib

structure AuthConfig where
  signingSecretNamespace : String
  signingSecretName : String
  signingSecretKey : String

/-- What the controller runs with. -/
structure Ctx where
  crates : Crates
  auth : AuthConfig
  /-- `FLUIDBG_OPERATOR_URL`. -/
  operatorUrl : String

/-! ## Applying -/

/-- `api.get_opt`. -/
def getOpt {α : Type} : Except KubeError α → Op (Option α)
  | .ok a => .pure (some a)
  | .error (.notFound _) => .pure none
  | .error e => .fail (.k8s e)

/-- The labels of the object with that name, when there is one, may belong to this rollout. -/
def ownedBy (expected existing : Labels) : Bool :=
  let ref := "fluidbg.io/blue-green-ref"
  let uid := "fluidbg.io/blue-green-uid"
  existing.get ref = expected.get ref &&
    ((expected.get uid).isNone || existing.get uid = expected.get uid)

def refuseForeign (name : String) (expected : Labels) (existing : Option Labels) : Op Unit :=
  match existing with
  | none => pure ()
  | some existing =>
    if ownedBy expected existing then pure ()
    else .fail (.resource
      s!"refusing to apply generated resource '{name}' because an existing resource with that name is not owned by this BlueGreenDeployment")

def applyResource (kind : Kind) (ns name : String) (resource : Resource) : Op Unit := do
  if (resource.metadata.labels.get "fluidbg.io/blue-green-ref").isSome then
    let existing ← getOpt (← Op.ask (.getResource kind ns name))
    refuseForeign name resource.metadata.labels (existing.map (·.metadata.labels))
  let _ ← Op.kube (← Op.ask (.applyResource kind ns name resource))
  pure ()

/-- `apply_resource` for a Deployment. -/
def applyDeploymentResource (ns name : String) (d : Deployment) : Op Unit := do
  if (d.metadata.labels.get "fluidbg.io/blue-green-ref").isSome then
    let existing ← getOpt (← Op.ask (.getDeployment ns name))
    refuseForeign name d.metadata.labels (existing.map (·.metadata.labels))
  let _ ← Op.kube (← Op.ask (.applyDeployment ns name d))
  pure ()

def deleteResource (kind : Kind) (ns name : String) : Op Unit := do
  match ← Op.ask (.deleteResource kind ns name) with
  | .ok () => pure ()
  | .error (.notFound _) => pure ()
  | .error e => .fail (.k8s e)

/-! ## Tokens -/

def readOperatorSigningKey (auth : AuthConfig) : Op String := do
  let secret ← Op.kube (← Op.ask
    (.getResource .secret auth.signingSecretNamespace auth.signingSecretName))
  match secret.data.get auth.signingSecretKey with
  | some key =>
    if key ≠ "" then pure key
    else .fail (.store
      s!"operator auth Secret '{auth.signingSecretNamespace}/{auth.signingSecretName}' is missing non-empty key '{auth.signingSecretKey}'")
  | none => .fail (.store
      s!"operator auth Secret '{auth.signingSecretNamespace}/{auth.signingSecretName}' is missing non-empty key '{auth.signingSecretKey}'")

def signInceptionAuthToken (ctx : Ctx) (ns blueGreenRef inceptionPoint : String)
    (plugin : InceptionPlugin) : Op String := do
  let signingKey ← readOperatorSigningKey ctx.auth
  let bgd ← Op.kube (← Op.ask (.getBgd ns blueGreenRef))
  match bgd.metadata.uid with
  | none => .fail (.store s!"BlueGreenDeployment '{ns}/{blueGreenRef}' has no uid")
  | some uid =>
    match ctx.crates.signToken
        (PluginAuthClaims.newWithUid ns blueGreenRef uid inceptionPoint plugin.name)
        signingKey with
    | .ok token => pure token
    | .error err => .fail (.auth s!"failed to sign plugin auth token: {err}")

/-- The claims of `sign_manager_sync_auth_token`. -/
def managerSyncClaims (plugin : InceptionPlugin) : PluginAuthClaims :=
  PluginAuthClaims.new "fluidbg-system" "__manager_sync__" "__manager_sync__" plugin.name

def signManagerSyncAuthToken (ctx : Ctx) (plugin : InceptionPlugin) : Op String := do
  let signingKey ← readOperatorSigningKey ctx.auth
  match ctx.crates.signToken (managerSyncClaims plugin) signingKey with
  | .ok token => pure token
  | .error err => .fail (.auth s!"failed to sign manager sync token: {err}")

/-- `validate_inception_auth_token` on a header made by `bearer_value`. -/
def validateInceptionAuthToken (ctx : Ctx) (token : String) : Op (Option PluginAuthClaims) := do
  let signingKey ← readOperatorSigningKey ctx.auth
  match ctx.crates.verifyToken token signingKey with
  | .ok claims => pure (some claims)
  | .error _ => pure none

/-! ## The application's manifest -/

def applyAssignmentsToDeploymentSpec (spec : DeploymentSpec)
    (assignments : List PropertyAssignment) (target : AssignmentTarget) :
    Except ReconcileError DeploymentSpec :=
  match spec.template.spec with
  | none => .error (.store "deployment has no pod template spec")
  | some podSpec =>
    let containers := assignments.foldl (fun containers a =>
      if a.target = target then
        onTargetedEnv containers a.containerName fun env => upsertEnv env a.name a.value
      else containers) podSpec.containers
    let template := { spec.template with spec := some { podSpec with containers := containers } }
    .ok { spec with template := template }

def deploymentSpecWithTestPatch (crates : Crates) (bgd : BlueGreenDeployment)
    (base : DeploymentSpec) : Except ReconcileError DeploymentSpec :=
  match bgd.spec.candidatePatch with
  | none => .ok base
  | some patch => match crates.encodeDeploymentSpec base with
    | .error err => .error (.store s!"failed to encode deployment spec for patching: {err}")
    | .ok value => match crates.decodeDeploymentSpec (value.merge patch) with
      | .ok spec => .ok spec
      | .error err => .error (.store
          s!"spec.candidatePatch does not produce a valid apps/v1 DeploymentSpec: {err}")

def applyRuntimeIdentitySelector (d : Deployment) (name : String) :
    Except ReconcileError Deployment :=
  match d.spec with
  | none => .error (.store "deployment spec missing")
  | some spec =>
    let spec := { spec with matchLabels := spec.matchLabels.insert "fluidbg.io/deployment" name }
    onTemplateLabels { d with spec := some spec } fun old => old.insert "fluidbg.io/deployment" name

/-- The spec the manifest starts from: the declared one, or the patched one with the blue
assignments. -/
def manifestSpec (crates : Crates) (bgd : BlueGreenDeployment)
    (deploymentSpec : ManagedDeploymentSpec) (isGreen : Bool)
    (initialAssignments : List PropertyAssignment) : Except ReconcileError DeploymentSpec :=
  if isGreen then .ok deploymentSpec.spec
  else match deploymentSpecWithTestPatch crates bgd deploymentSpec.spec with
    | .error e => .error e
    | .ok spec => applyAssignmentsToDeploymentSpec spec initialAssignments .blue

/-- The labels of the manifest, one step after the other. -/
def labelManifest (bgd : BlueGreenDeployment) (familyLabels : Labels) (isGreen : Bool)
    (d : Deployment) : Except ReconcileError Deployment := do
  let d ← applyFamilyLabelsToDeployment d familyLabels
  let d ← setGreenLabel d isGreen
  if isGreen then clearRolloutCandidateLabels d else applyRolloutCandidateLabels d bgd

/-- The deployment `apply_deployment_manifest` sends. -/
def deploymentManifest (crates : Crates) (bgd : BlueGreenDeployment) (defaultNamespace : String)
    (deploymentSpec : ManagedDeploymentSpec) (familyLabels : Labels) (isGreen : Bool)
    (initialAssignments : List PropertyAssignment) : Except ReconcileError Deployment := do
  let spec ← manifestSpec crates bgd deploymentSpec isGreen initialAssignments
  let name := (candidateRef bgd).name
  let d ← labelManifest bgd familyLabels isGreen {
    metadata := ObjectMeta.new name (deploymentNamespaceSpec deploymentSpec defaultNamespace) .empty
    spec := some spec
    status := none }
  applyRuntimeIdentitySelector d name

def applyDeploymentManifest (ctx : Ctx) (bgd : BlueGreenDeployment) (defaultNamespace : String)
    (deploymentSpec : ManagedDeploymentSpec) (familyLabels : Labels) (isGreen : Bool)
    (initialAssignments : List PropertyAssignment) : Op DeploymentIdentity := do
  let d ← Op.lift (deploymentManifest ctx.crates bgd defaultNamespace deploymentSpec familyLabels
    isGreen initialAssignments)
  let deployNamespace := d.metadata.ns
  let name := d.metadata.name
  match ← Op.ask (.getDeployment deployNamespace name) with
  | .ok existing =>
    let d := { d with
      metadata := { d.metadata with resourceVersion := existing.metadata.resourceVersion } }
    let _ ← Op.kube (← Op.ask (.replaceDeployment deployNamespace name d))
    pure ⟨deployNamespace, name⟩
  | .error (.notFound _) =>
    let _ ← Op.kube (← Op.ask (.createDeployment deployNamespace d))
    pure ⟨deployNamespace, name⟩
  | .error e => .fail (.k8s e)

/-! ## The test -/

def testServicePort (test : TestSpec) : Except ReconcileError Int :=
  match test.service.ports with
  | port :: _ => .ok port.port
  | [] => .error (.store s!"test '{test.name}' service spec must define at least one port")

def testLabels (bgd : BlueGreenDeployment) (logicalName runtimeName : String) : Labels :=
  .ofList [("app", runtimeName), ("fluidbg.io/test", logicalName),
    ("fluidbg.io/blue-green-ref", bgd.metadata.name),
    ("fluidbg.io/blue-green-uid", bgd.metadata.uid.getD "")]

/-- Every expected label is there. -/
def testResourceMatches (labels expected : Labels) : Bool := decide (labels.Covers expected)

def testNameCollisionError (bgd : BlueGreenDeployment) (kind ns logicalName runtimeName : String) :
    ReconcileError :=
  .store s!"generated test {kind} name '{ns}/{runtimeName}' for BGD '{bgd.metadata.name}' logical test '{logicalName}' collides with an existing resource owned by another rollout"

/-- The object with the test's name is absent or the test's own. -/
def requireTestName (bgd : BlueGreenDeployment) (kind ns logicalName runtimeName : String)
    (expected : Labels) (existing : Option Labels) : Op Unit :=
  match existing with
  | none => pure ()
  | some labels =>
    if testResourceMatches labels expected then pure ()
    else .fail (testNameCollisionError bgd kind ns logicalName runtimeName)

def ensureTestNameAvailable (bgd : BlueGreenDeployment) (ns logicalName runtimeName : String)
    (expected : Labels) : Op Unit := do
  let deployment ← getOpt (← Op.ask (.getDeployment ns runtimeName))
  requireTestName bgd "deployment" ns logicalName runtimeName expected
    (deployment.map (·.metadata.labels))
  let service ← getOpt (← Op.ask (.getResource .service ns runtimeName))
  requireTestName bgd "service" ns logicalName runtimeName expected
    (service.map (·.metadata.labels))

/-- The environment with each extra variable replacing its namesake or added at the end. -/
def mergeExtraEnv (env extraEnv : List EnvVar) : List EnvVar :=
  extraEnv.foldl (fun env extra =>
    if env.any fun e => e.name = extra.name then
      let found := env.findIdx fun e => e.name = extra.name
      env.set found extra
    else env ++ [extra]) env

def applyExtraEnvToDeploymentSpec (spec : DeploymentSpec) (extraEnv : List EnvVar) :
    Except ReconcileError DeploymentSpec :=
  if extraEnv = [] then .ok spec
  else match spec.template.spec with
    | none => .error (.store "deployment has no pod template spec")
    | some podSpec =>
      let containers := podSpec.containers.map fun c =>
        { c with env := mergeExtraEnv c.env extraEnv }
      let template := { spec.template with spec := some { podSpec with containers := containers } }
      .ok { spec with template := template }

def deploymentSpecForTest (test : TestSpec) (labels : Labels) : DeploymentSpec :=
  let md := test.deployment.template.metadata.getD ⟨.empty, .empty⟩
  { test.deployment with
    matchLabels := test.deployment.matchLabels.insertAll labels.entries
    template := { test.deployment.template with
      metadata := some { md with labels := md.labels.insertAll labels.entries } } }

def serviceSpecForTest (test : TestSpec) (labels : Labels) : Except ReconcileError ServiceSpec :=
  if test.service.ports = [] then
    .error (.store s!"test '{test.name}' service spec must define at least one port")
  else .ok { test.service with selector := test.service.selector.insertAll labels.entries }

/-- The Deployment of the test. -/
def testDeployment (bgd : BlueGreenDeployment) (test : TestSpec) (ns : String)
    (assignments : List PropertyAssignment) (extraEnv : List EnvVar) :
    Except ReconcileError Deployment := do
  let testName := testInstanceName bgd test.name
  let labels := testLabels bgd test.name testName
  let spec ← applyAssignmentsToDeploymentSpec (deploymentSpecForTest test labels) assignments .test
  let spec ← applyExtraEnvToDeploymentSpec spec extraEnv
  pure { metadata := ObjectMeta.new testName ns labels, spec := some spec, status := none }

def ensureTestResources (bgd : BlueGreenDeployment) (ns : String)
    (assignments : List PropertyAssignment) (extraEnv : List EnvVar) :
    Op (List DeploymentIdentity) :=
  match bgd.spec.test with
  | none => pure []
  | some test => do
    let testName := testInstanceName bgd test.name
    let labels := testLabels bgd test.name testName
    ensureTestNameAvailable bgd ns test.name testName labels
    let d ← Op.lift (testDeployment bgd test ns assignments extraEnv)
    applyDeploymentResource ns testName d
    let serviceSpec ← Op.lift (serviceSpecForTest test labels)
    applyResource .service ns testName {
      kind := .service
      metadata := ObjectMeta.new testName ns labels
      data := .empty
      service := some serviceSpec }
    pure [⟨ns, testName⟩]

/-- The Secret with the tokens the verifier accepts. -/
def verifierAuthSecret (bgd : BlueGreenDeployment) (ns tokensJson : String) : Resource where
  kind := .secret
  metadata := ObjectMeta.new (verifierAuthSecretName bgd) ns
    (.ofList [("fluidbg.io/blue-green-ref", bgd.metadata.name),
      ("fluidbg.io/blue-green-uid", bgd.metadata.uid.getD ""),
      ("fluidbg.io/verifier-auth", "true")])
  data := .ofList [("tokens.json", tokensJson)]
  service := none

def ensureVerifierAuthSecret (bgd : BlueGreenDeployment) (ns tokensJson : String) : Op String := do
  let secretName := verifierAuthSecretName bgd
  applyResource .secret ns secretName (verifierAuthSecret bgd ns tokensJson)
  pure secretName

def verifierAuthEnv (secretName : String) : EnvVar where
  name := "FLUIDBG_VERIFIER_AUTH_TOKENS_JSON"
  value := none
  valueFrom := some ⟨secretName, "tokens.json", some false⟩

def endpointSubsetHasReadyTarget (subset : EndpointSubset) : Bool :=
  subset.addresses ≠ [] && subset.ports ≠ []

def checkServiceReady (ns serviceName : String) : Op (Option Unit) := do
  match ← Op.ask (.getEndpoints ns serviceName) with
  | .ok subsets =>
    if subsets.any endpointSubsetHasReadyTarget then pure (some ())
    else
      Op.ask (.sleep 1)
      pure none
  | .error _ =>
    Op.ask (.sleep 1)
    pure none

def waitForServiceReadyEndpoint (ns serviceName : String) : Op Unit :=
  Prog.retry 60 (fun _ => checkServiceReady ns serviceName)
    (.fail (.store s!"service '{ns}/{serviceName}' did not publish a ready endpoint"))

def waitForTestServicesReady (bgd : BlueGreenDeployment) (ns : String) : Op Unit :=
  match bgd.spec.test with
  | none => pure ()
  | some test => waitForServiceReadyEndpoint ns (testInstanceName bgd test.name)

/-! ## Cleanup of a rollout -/

/-- The objects of all kinds that still carry the labels, none when everything is gone. -/
def countLabelled (ns : String) (selector : LabelSelector) : Op Nat := do
  let deployments ← Op.kube (← Op.ask (.listDeployments ns selector))
  let services ← Op.kube (← Op.ask (.listResources .service ns selector))
  let configMaps ← Op.kube (← Op.ask (.listResources .configMap ns selector))
  let secrets ← Op.kube (← Op.ask (.listResources .secret ns selector))
  let pods ← Op.kube (← Op.ask (.listResources .pod ns selector))
  pure (deployments.length + services.length + configMaps.length + secrets.length + pods.length)

def checkLabelledGone (ns : String) (selector : LabelSelector) : Op (Option Unit) := do
  if (← countLabelled ns selector) = 0 then pure (some ())
  else
    Op.ask (.sleep 1)
    pure none

/-- The selector of the objects of one rollout. -/
def blueGreenRefSelector (blueGreenRef : String) : LabelSelector :=
  .ofLabels (.ofList [("fluidbg.io/blue-green-ref", blueGreenRef)])

def waitForInceptionResourcesDeleted (ns blueGreenRef : String) : Op Unit :=
  let selector : LabelSelector :=
    { blueGreenRefSelector blueGreenRef with present := ["fluidbg.io/inception-point"] }
  Prog.retry 60 (fun _ => checkLabelledGone ns selector)
    (.fail (.store
      s!"inception resources for BGD '{blueGreenRef}' were not deleted in namespace {ns}"))

def waitForBlueGreenResourcesDeleted (ns blueGreenRef : String) : Op Unit :=
  Prog.retry 60 (fun _ => checkLabelledGone ns (blueGreenRefSelector blueGreenRef))
    (.fail (.store
      s!"orphaned resources for BGD '{blueGreenRef}' were not deleted in namespace {ns}"))

/-- Whether the test's Deployment and its Service are still there. -/
def testResourcesExist (ns testName : String) : Op (Bool × Bool) := do
  let deployment ← getOpt (← Op.ask (.getDeployment ns testName))
  let service ← getOpt (← Op.ask (.getResource .service ns testName))
  pure (deployment.isSome, service.isSome)

def checkTestResourcesGone (ns testName : String) : Op (Option Unit) := do
  let (deploymentExists, serviceExists) ← testResourcesExist ns testName
  if !deploymentExists && !serviceExists then pure (some ())
  else
    Op.ask (.sleep 1)
    pure none

/-- The last look: the Service is only asked for when the Deployment is gone. -/
def requireTestResourcesGone (bgd : BlueGreenDeployment) (ns logicalName testName : String) :
    Op Unit := do
  let stuck := Prog.fail (.store
    s!"test resources for BGD '{bgd.metadata.name}' logical test '{logicalName}' were not deleted in namespace {ns}")
  let deployment ← getOpt (← Op.ask (.getDeployment ns testName))
  if deployment.isSome then stuck
  else
    let service ← getOpt (← Op.ask (.getResource .service ns testName))
    if service.isSome then stuck else pure ()

def waitForTestResourcesDeleted (bgd : BlueGreenDeployment) (ns : String) : Op Unit :=
  match bgd.spec.test with
  | none => pure ()
  | some test => do
    let testName := testInstanceName bgd test.name
    Prog.retry 60 (fun _ => checkTestResourcesGone ns testName) (pure ())
    requireTestResourcesGone bgd ns test.name testName

def cleanupTestResources (bgd : BlueGreenDeployment) (ns : String) : Op Unit := do
  if let some test := bgd.spec.test then
    let testName := testInstanceName bgd test.name
    deleteDeployment ns testName
    deleteResource .service ns testName
    deleteResource .secret ns (verifierAuthSecretName bgd)
  waitForTestResourcesDeleted bgd ns

def cleanupInceptionPoint (ns blueGreenRef : String) (ip : InceptionPoint) : Op Unit := do
  deleteDeployment ns (inceptionInstanceBaseName blueGreenRef ip.name)
  deleteResource .service ns (inceptionServiceName blueGreenRef ip.name)
  deleteResource .configMap ns (inceptionConfigMapName blueGreenRef ip.name)
  deleteResource .secret ns (inceptionAuthSecretName blueGreenRef ip.name)

def cleanupInceptionResources (bgd : BlueGreenDeployment) (ns : String) : Op Unit := do
  Prog.forEach bgd.spec.inceptionPoints (cleanupInceptionPoint ns bgd.metadata.name)
  waitForInceptionResourcesDeleted ns bgd.metadata.name

/-! ## Cleanup of orphans -/

def deleteLabelledDeployments (ns : String) (selector : LabelSelector) : Op Unit := do
  let items ← Op.kube (← Op.ask (.listDeployments ns selector))
  Prog.forEach items fun item => deleteDeployment ns item.metadata.name

def deleteLabelledResources (kind : Kind) (ns : String) (selector : LabelSelector) : Op Unit := do
  let items ← Op.kube (← Op.ask (.listResources kind ns selector))
  Prog.forEach items fun item => deleteResource kind ns item.metadata.name

def cleanupOrphanedBlueGreenResources (ns blueGreenRef : String) : Op Unit := do
  let selector := blueGreenRefSelector blueGreenRef
  deleteLabelledDeployments ns selector
  deleteLabelledResources .service ns selector
  deleteLabelledResources .configMap ns selector
  deleteLabelledResources .secret ns selector
  deleteLabelledResources .pod ns selector
  waitForBlueGreenResourcesDeleted ns blueGreenRef

/-- The selector of everything that carries a rollout reference. -/
def hasBlueGreenRef : LabelSelector := ⟨.empty, ["fluidbg.io/blue-green-ref"]⟩

/-- The references the listed labels carry, inserted into a set. -/
def collectBlueGreenRefs (refs : OrdMap String Unit) (labels : List Labels) : OrdMap String Unit :=
  labels.foldl (fun refs l => match l.get "fluidbg.io/blue-green-ref" with
    | some value => refs.insert value ()
    | none => refs) refs

def blueGreenRefsFromOwnedResources (ns : String) : Op (OrdMap String Unit) := do
  let deployments ← Op.kube (← Op.ask (.listDeployments ns hasBlueGreenRef))
  let refs := collectBlueGreenRefs .empty (deployments.map (·.metadata.labels))
  Prog.foldEach [Kind.service, .configMap, .secret, .pod] refs fun refs kind => do
    let items ← Op.kube (← Op.ask (.listResources kind ns hasBlueGreenRef))
    pure (collectBlueGreenRefs refs (items.map (·.metadata.labels)))

def blueGreenRefsFromOwnedResourcesAll : Op (OrdMap String Unit) := do
  let namespaces ← Op.kube (← Op.ask .listNamespaces)
  Prog.foldEach namespaces OrdMap.empty fun refs ns => do
    let names ← blueGreenRefsFromOwnedResources ns
    pure (refs.insertAll (names.keys.map fun name => (blueGreenStateKey ns name, ())))

end FluidBG
