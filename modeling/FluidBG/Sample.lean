import FluidBG.Cluster
/-!
# A small cluster

One object, its application and the pieces a run on fixed inputs is made of. The application
`shop` has an old green and a candidate; there are no plugins.
-/

set_option autoImplicit false

namespace FluidBG.Sample

open Lib

def podSpec : PodSpec where
  containers := [⟨"app", some "shop:2", [], [], []⟩]
  volumes := []
  terminationGracePeriodSeconds := none
  serviceAccountName := none

def deploymentSpec : DeploymentSpec where
  replicas := some 1
  matchLabels := .ofList [("app", "shop")]
  template := ⟨some ⟨.ofList [("app", "shop")], .empty⟩, some podSpec⟩

/-- Half of two cases have to pass. -/
def spec : BlueGreenDeploymentSpec where
  selector := ⟨none, .ofList [("app", "shop")]⟩
  deployment := ⟨none, deploymentSpec⟩
  candidatePatch := none
  inceptionPoints := []
  test := none
  promotion := some ⟨some ⟨some 2, some (1 / 2), none⟩, none, ⟨.hardSwitch, none⟩⟩
  updatePolicy := none

/-- The same with a forced replacement of the active rollout. -/
def forceReplaceSpec : BlueGreenDeploymentSpec :=
  { spec with updatePolicy := some ⟨some .forceReplace⟩ }

/-- The libraries on what the sample hands to them: the snapshot is the only thing that is encoded
and read back. -/
def crates : Crates where
  encodeDeploymentSpec _ := .error "not called without a patch"
  decodeDeploymentSpec _ := .error "not called without a patch"
  yamlText _ := ""
  specYaml _ := .ok "spec"
  specOfYaml _ := .ok spec
  jsonText _ := .ok "\x7b\x7d"
  validatorFor _ := .ok fun _ => none
  signToken claims _ := .ok claims.inceptionPoint
  verifyToken _ _ := .error "unknown token"

def ctx : Ctx where
  crates := crates
  auth := ⟨"fluidbg-system", "fluidbg-auth", "signing-key"⟩
  operatorUrl := "http://fluidbg-operator.fluidbg-system:8090"

def status (phase : BGDPhase) : BlueGreenDeploymentStatus :=
  { BlueGreenDeploymentStatus.default with
    phase := some phase
    generatedDeploymentName := some "shop-x7k2q9"
    observedGeneration := some 1
    rolloutGeneration := some 1 }

def bgd (phase : BGDPhase) : BlueGreenDeployment where
  metadata := ⟨"shop", "default", some "uid-1", some 1, 1, none, [bgdFinalizer]⟩
  spec := spec
  status := some (status phase)

/-- A deployment of the family that is up. -/
def deployment (name green : String) : Deployment where
  metadata := {
    name := name
    ns := "default"
    labels := .ofList [("app", "shop"), ("fluidbg.io/green", green)]
    generation := some 1
    resourceVersion := some 1 }
  spec := some deploymentSpec
  status := some ⟨some 1, some 1, some 1⟩

def testCase (testId : String) (status : TestStatus) : TestCaseRecord where
  testId := testId
  blueGreenRef := "default/shop"
  triggeredAt := 0
  sourceInceptionPoint := "orders"
  timeout := 60000000000
  status := status
  verdict := some (status == .passed)
  verificationMode := .data
  verifyUrl := ""
  verifierAuthToken := ""
  retriesRemaining := 0
  failureMessage := none

/-- The object in a phase, with the old green, the candidate, and these cases. -/
def world (phase : BGDPhase) (records : List TestCaseRecord) : World where
  bgd := some (bgd phase)
  otherBgds := []
  deployments := [deployment "shop-old" "true", deployment "shop-x7k2q9" "false"]
  resources := []
  endpoints := []
  namespaces := ["default"]
  plugins := []
  store := ⟨records⟩
  clock := 1000000000
  nextVersion := 2

/-! ## With an inception point -/

/-- A point whose drain may take a minute. -/
def orders : InceptionPoint where
  name := "orders"
  pluginRef := ⟨"rabbitmq"⟩
  roles := [.duplicator]
  config := .null
  drain := some ⟨some 60⟩

/-- A plugin that only tells how far its drain is. -/
def plugin : InceptionPlugin where
  name := "rabbitmq"
  spec := {
    image := "fluidbg/rabbitmq"
    supportedRoles := [.duplicator]
    roleConstraints := none
    fieldNamespaces := ["queue"]
    configSchema := .null
    configTemplate := none
    inceptor := ⟨[], [], [], [], .empty, .empty, none, none⟩
    lifecycle := some ⟨none, none, none, some "/drain-status", none, none⟩
    manager := none
    injects := none
    features := none }

def signingSecret : Resource where
  kind := .secret
  metadata := ObjectMeta.new "fluidbg-auth" "fluidbg-system" .empty
  data := .ofList [("signing-key", "key")]
  service := none

def pointSpec : BlueGreenDeploymentSpec := { spec with inceptionPoints := [orders] }

/-- The small cluster with the inception point; `drainStartedAt` is in the status. -/
def pointWorld (phase : BGDPhase) (drainStartedAt : Option Timestamp)
    (records : List TestCaseRecord) : World :=
  { world phase records with
    bgd := some { bgd phase with
      spec := pointSpec
      status := some { status phase with drainStartedAt := drainStartedAt } }
    resources := [signingSecret]
    plugins := [plugin] }

/-! ## Pieces of runs -/

abbrev Step := Event BlueGreenDeployment Outcome Move

/-- `n` calls that are served. -/
def served (n : Nat) : List Step := List.replicate n (.answer .ok)

/-- A reconcile whose `n` calls are served. -/
def attempt (n : Nat) : List Step := .start (bgd .pending) :: served n ++ [.stop]

def seconds (n : Nat) : Step := .move (.tick (n * 1000000000))

/-- A reconcile in Draining that asks the plugin after `m` calls and makes `n` more. -/
def drainingAttempt (m : Nat) (answer : HttpAnswer PluginDrainStatusResponse) (n : Nat) :
    List Step :=
  .start (bgd .pending) :: served m ++ .answer (.drainStatus answer) :: served n ++ [.stop]

/-- The candidate's new pods are up. -/
def candidateUp (generation : Int) : Step :=
  .move (.deploymentStatus "default" "shop-x7k2q9" (some ⟨some generation, some 1, some 1⟩))

/-- A reconcile in Promoting, where the candidate comes up after it has been replaced. -/
def promotingAttempt : List Step :=
  .start (bgd .pending) :: served 7 ++ candidateUp 2 :: served 9 ++ [.stop]

/-- Observing, Promoting and Draining without a failing call. -/
def rollout : List Step := attempt 12 ++ promotingAttempt ++ attempt 19

end FluidBG.Sample
