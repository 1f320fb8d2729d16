import FluidBG.Plugin
/-!
# The objects of an inceptor

`plugins/reconciler.rs`: from a plugin, an inception point and its rollout, the ConfigMap, Secret,
Deployment and Service of the inceptor and the environment variables the plugin injects into the
application and the test.
-/

set_option autoImplicit false

namespace FluidBG

structure ReconcileInceptionContext where
  ns : String
  operatorUrl : String
  testContainerUrl : String
  testDataVerifyPath : Option String
  blueDeploymentName : String
  blueGreenRef : String
  blueGreenUid : String
  authToken : String
  managerInceptorEnv : List EnvVar
  managerConfig : Option Json

structure ContainerEnvInjections where
  green : List EnvVar
  blue : List EnvVar
  test : List EnvVar

structure ReconciledResources where
  configMaps : List Resource
  secrets : List Resource
  deployments : List Deployment
  services : List Resource
  greenEnvInjections : List EnvVar
  blueEnvInjections : List EnvVar
  testEnvInjections : List EnvVar

def securedInceptionConfig (_plugin : InceptionPlugin) (ip : InceptionPoint)
    (context : ReconcileInceptionContext) : Json :=
  context.managerConfig.getD ip.config

/-! ## The template context -/

/-- `value.get(a).and_then(|v| v.get(b))`. -/
def Json.get2 (a b : String) (value : Json) : Option Json :=
  (value.get a).bind (Json.get b)

/-- The proxy and write URLs of the HTTP plugin, added to the fields of its config. -/
def insertHttpPluginUrls (fields : List (String × Json)) (blueGreenRef inceptionPoint : String) :
    List (String × Json) :=
  let map := Json.obj fields
  let serviceName := inceptionServiceName blueGreenRef inceptionPoint
  let inbound := map.get2 "tls" "inbound"
  let httpPort := ((map.get "port").bind Json.asI64).getD 9090
  let httpsPort := ((inbound.bind (Json.get "port")).bind Json.asI64).getD 9443
  let inboundTlsEnabled := ((inbound.bind (Json.get "enabled")).bind Json.asBool).getD false
  let defaultProtocol := if inboundTlsEnabled then "https" else "http"
  let proxyProtocol := ((map.get "proxyProtocol").bind Json.asStr).getD defaultProtocol
  let writeProtocol := ((map.get "writeProtocol").bind Json.asStr).getD proxyProtocol
  let proxyPort := if proxyProtocol = "https" then httpsPort else httpPort
  let writePort := if writeProtocol = "https" then httpsPort else httpPort
  let fields := Json.insertField "proxyUrl"
    (.str s!"{proxyProtocol}://{serviceName}:{proxyPort}") fields
  Json.insertField "writeUrl" (.str s!"{writeProtocol}://{serviceName}:{writePort}") fields

/-- The names every template may use. -/
def commonContext (ip : InceptionPoint) (ns blueGreenRef : String) : List (String × Json) :=
  [("inceptionPoint", .str ip.name),
    ("blueGreenRef", .str blueGreenRef),
    ("namespace", .str ns),
    ("pluginDeploymentName", .str (inceptionInstanceBaseName blueGreenRef ip.name)),
    ("pluginServiceName", .str (inceptionServiceName blueGreenRef ip.name))]

def pluginTemplateContext (ip : InceptionPoint) (ns blueGreenRef : String) : Json :=
  let insertCommon := fun fields => (commonContext ip ns blueGreenRef).foldl
    (fun fields entry => Json.insertField entry.1 entry.2 fields) fields
  match ip.config with
  | .obj fields => .obj (insertHttpPluginUrls (insertCommon fields) blueGreenRef ip.name)
  | _ => .obj (insertCommon [])

/-! ## Injected environment variables -/

def renderEnvInjection (config : Json) (restoreValues : Bool) (envInj : EnvInjection) : EnvVar :=
  let envVarName := ((config.get envInj.nameFromConfig).bind Json.asStr).getD envInj.nameFromConfig
  let template := if restoreValues then envInj.restoreValueTemplate.getD envInj.valueTemplate
    else envInj.valueTemplate
  EnvVar.ofValue envVarName (some (renderConfigTemplate template config))

def renderEnvInjectionSet (injection : Option ContainerInjection) (config : Json)
    (restoreValues : Bool) : List EnvVar :=
  match injection with
  | none => []
  | some injection => injection.env.map (renderEnvInjection config restoreValues)

def renderContainerEnvInjections (plugin : InceptionPlugin) (templateContext : Json)
    (restoreValues : Bool) : ContainerEnvInjections :=
  match plugin.spec.injects with
  | none => ⟨[], [], []⟩
  | some injects =>
    { green := renderEnvInjectionSet injects.greenContainer templateContext restoreValues
      blue := renderEnvInjectionSet injects.blueContainer templateContext restoreValues
      test := renderEnvInjectionSet injects.testContainer templateContext restoreValues }

/-! ## The objects -/

def secretEnvSource (secretName key : String) : SecretKeySelector :=
  ⟨secretName, key, some false⟩

def upsertConfigVolume (volumes : List Volume) (configName : String) : List Volume :=
  if volumes.any fun volume => volume.name = "plugin-config" then volumes
  else volumes ++ [⟨"plugin-config", some configName⟩]

def ensureConfigMount (mounts : List KubeVolumeMount) : List KubeVolumeMount :=
  if mounts.any fun mount => mount.mountPath = "/etc/fluidbg" then mounts
  else mounts ++ [⟨"plugin-config", "/etc/fluidbg", some true⟩]

/-- The labels that tie an object to its inception point. -/
def inceptionLabels (ip : InceptionPoint) (context : ReconcileInceptionContext) :
    List (String × String) :=
  [("fluidbg.io/inception-point", ip.name),
    ("fluidbg.io/blue-green-ref", context.blueGreenRef),
    ("fluidbg.io/blue-green-uid", context.blueGreenUid)]

/-- `operator_url.trim_end_matches('/')`. -/
def trimEndSlashes (s : String) : String :=
  String.ofList (s.toList.reverse.dropWhile (· == '/')).reverse

/-- The environment of the inceptor's container. -/
def inceptorEnvVars (plugin : InceptionPlugin) (ip : InceptionPoint)
    (context : ReconcileInceptionContext) (authSecretName : String) : List EnvVar :=
  [EnvVar.ofValue "FLUIDBG_OPERATOR_URL" (some context.operatorUrl),
    EnvVar.ofValue "FLUIDBG_TESTCASE_REGISTRATION_URL"
      (some (trimEndSlashes context.operatorUrl ++ "/testcases")),
    EnvVar.ofValue "FLUIDBG_TEST_CONTAINER_URL" (some context.testContainerUrl),
    EnvVar.ofValue "FLUIDBG_TESTCASE_VERIFY_PATH_TEMPLATE" context.testDataVerifyPath,
    EnvVar.ofValue "FLUIDBG_INCEPTION_POINT" (some ip.name),
    EnvVar.ofValue "FLUIDBG_BLUE_GREEN_REF" (some context.blueGreenRef),
    EnvVar.ofValue "FLUIDBG_ACTIVE_ROLES" (some (",".intercalate (ip.roles.map pluginRoleName))),
    EnvVar.ofValue "FLUIDBG_CONFIG_PATH" (some "/etc/fluidbg/config.yaml"),
    { name := "FLUIDBG_PLUGIN_AUTH_TOKEN", value := none,
      valueFrom := some (secretEnvSource authSecretName "plugin-auth-token") },
    EnvVar.ofValue "FLUIDBG_INCEPTOR_INFRA_DISABLED"
      (some (if plugin.spec.manager.isSome then "true" else "false"))]
    ++ plugin.spec.inceptor.env
    ++ context.managerInceptorEnv.map fun env =>
      { name := env.name, value := none, valueFrom := some (secretEnvSource authSecretName env.name) }

/-- The Deployment that runs the inceptor. -/
def inceptorDeployment (plugin : InceptionPlugin) (ip : InceptionPoint)
    (context : ReconcileInceptionContext) : Deployment :=
  let name := inceptionInstanceBaseName context.blueGreenRef ip.name
  let labels := Lib.OrdMap.ofList (("app", name) :: inceptionLabels ip context)
  let inceptor := plugin.spec.inceptor
  let container : Container := {
    name := name
    image := some plugin.spec.image
    env := inceptorEnvVars plugin ip context
      (inceptionAuthSecretName context.blueGreenRef ip.name)
    ports := inceptor.ports.map fun p => ⟨some p.name, p.containerPort⟩
    volumeMounts := ensureConfigMount
      (inceptor.volumeMounts.map fun vm => ⟨vm.name, vm.mountPath, vm.readOnly⟩) }
  { metadata := ObjectMeta.new name context.ns labels
    spec := some {
      replicas := none
      matchLabels := labels
      template := {
        metadata := some {
          labels := labels.insertAll inceptor.podLabels.entries
          annotations := inceptor.podAnnotations }
        spec := some {
          containers := [container]
          volumes := upsertConfigVolume inceptor.volumes
            (inceptionConfigMapName context.blueGreenRef ip.name)
          terminationGracePeriodSeconds := some 1
          serviceAccountName := inceptor.serviceAccountName } } }
    status := none }

/-- The Service in front of the inceptor. -/
def inceptorService (plugin : InceptionPlugin) (ip : InceptionPoint)
    (context : ReconcileInceptionContext) : Resource :=
  let deploymentName := inceptionInstanceBaseName context.blueGreenRef ip.name
  { kind := .service
    metadata := ObjectMeta.new (inceptionServiceName context.blueGreenRef ip.name) context.ns
      (Lib.OrdMap.ofList (("app", deploymentName) :: inceptionLabels ip context))
    data := .empty
    service := some {
      selector := .ofList [("app", deploymentName)]
      ports := plugin.spec.inceptor.ports.map fun p =>
        ⟨some p.name, p.containerPort, some p.containerPort⟩ } }

variable (crates : Crates)

/-- `config.yaml`: the rendered template, or the config itself. -/
def inceptorConfigText (plugin : InceptionPlugin) (securedConfig : Json) : String :=
  match plugin.spec.configTemplate with
  | some template =>
    if template = "" then crates.yamlText securedConfig
    else renderConfigTemplate template securedConfig
  | none => crates.yamlText securedConfig

/-- The ConfigMap of the inceptor. -/
def inceptorConfigMap (plugin : InceptionPlugin) (ip : InceptionPoint)
    (context : ReconcileInceptionContext) : Resource where
  kind := .configMap
  metadata := ObjectMeta.new (inceptionConfigMapName context.blueGreenRef ip.name) context.ns
    (.ofList (inceptionLabels ip context))
  data := .ofList [("config.yaml",
    inceptorConfigText crates plugin (securedInceptionConfig plugin ip context))]
  service := none

/-- The Secret with the inceptor's token and the manager's variables. -/
def inceptorSecret (ip : InceptionPoint) (context : ReconcileInceptionContext) : Resource where
  kind := .secret
  metadata := ObjectMeta.new (inceptionAuthSecretName context.blueGreenRef ip.name) context.ns
    (.ofList (inceptionLabels ip context))
  data := .ofList (("plugin-auth-token", context.authToken) ::
    context.managerInceptorEnv.filterMap fun env => env.value.map fun value => (env.name, value))
  service := none

def reconcileInceptionPoint (plugin : InceptionPlugin) (ip : InceptionPoint)
    (context : ReconcileInceptionContext) : Except String ReconciledResources :=
  match validateInceptionPoint crates plugin ip with
  | .error e => .error e
  | .ok () =>
    let injections := renderContainerEnvInjections plugin
      (pluginTemplateContext ip context.ns context.blueGreenRef) false
    .ok {
      configMaps := [inceptorConfigMap crates plugin ip context]
      secrets := [inceptorSecret ip context]
      deployments := [inceptorDeployment plugin ip context]
      services := [inceptorService plugin ip context]
      greenEnvInjections := injections.green
      blueEnvInjections := injections.blue
      testEnvInjections := injections.test }

end FluidBG
