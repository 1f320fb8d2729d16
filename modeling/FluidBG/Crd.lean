import FluidBG.Kube
import Mathlib.Data.Rat.Defs
/-!
# The custom resources

`BlueGreenDeployment` and `InceptionPlugin` as their Rust types in `crd/`, less the fields that
no modelled function reads. Success rates are exact rationals: they enter the controller only
through comparisons.
-/

set_option autoImplicit false

namespace FluidBG

/-! ## InceptionPlugin -/

inductive PluginRole where
  | duplicator
  | splitter
  | combiner
  | observer
  | mock
  | writer
  | consumer
  deriving DecidableEq, Repr

structure ContainerPort where
  name : String
  containerPort : Int
  deriving DecidableEq

structure VolumeMount where
  name : String
  mountPath : String
  readOnly : Option Bool
  deriving DecidableEq

structure ControlPlaneTls where
  enabled : Bool
  port : Option Int
  caCertPath : Option String
  insecureSkipVerify : Bool
  deriving DecidableEq

structure PluginInceptor where
  env : List EnvVar
  volumes : List Volume
  ports : List ContainerPort
  volumeMounts : List VolumeMount
  podLabels : Labels
  podAnnotations : Labels
  serviceAccountName : Option String
  controlPlaneTls : Option ControlPlaneTls
  deriving DecidableEq

structure EnvInjection where
  nameFromConfig : String
  valueTemplate : String
  restoreValueTemplate : Option String
  deriving DecidableEq

structure ContainerInjection where
  env : List EnvInjection
  deriving DecidableEq

structure Injects where
  greenContainer : Option ContainerInjection
  blueContainer : Option ContainerInjection
  testContainer : Option ContainerInjection
  deriving DecidableEq

structure PluginFeatures where
  supportsProgressiveShifting : Bool
  deriving DecidableEq

structure MutuallyExclusiveRoleGroup where
  roles : List PluginRole
  reason : Option String
  deriving DecidableEq

structure PluginRoleConstraints where
  mutuallyExclusive : List MutuallyExclusiveRoleGroup
  deriving DecidableEq

structure PluginLifecycle where
  preparePath : Option String
  activatePath : Option String
  drainPath : Option String
  drainStatusPath : Option String
  cleanupPath : Option String
  trafficShiftPath : Option String
  deriving DecidableEq

structure PluginManager where
  serviceName : String
  ns : Option String
  port : Option Int
  preparePath : Option String
  cleanupPath : Option String
  syncPath : Option String
  controlPlaneTls : Option ControlPlaneTls
  deriving DecidableEq

structure InceptionPluginSpec where
  image : String
  supportedRoles : List PluginRole
  roleConstraints : Option PluginRoleConstraints
  fieldNamespaces : List String
  configSchema : Json
  configTemplate : Option String
  inceptor : PluginInceptor
  lifecycle : Option PluginLifecycle
  manager : Option PluginManager
  injects : Option Injects
  features : Option PluginFeatures

structure InceptionPlugin where
  name : String
  spec : InceptionPluginSpec

/-! ## The spec of a BlueGreenDeployment -/

structure DeploymentRef where
  name : String
  ns : Option String
  deriving DecidableEq

structure ManagedDeploymentSpec where
  ns : Option String
  spec : DeploymentSpec
  deriving DecidableEq

structure DeploymentSelector where
  ns : Option String
  matchLabels : Labels
  deriving DecidableEq

structure PluginRef where
  name : String
  deriving DecidableEq

structure InceptionPointDrainSpec where
  maxWaitSeconds : Option Int
  deriving DecidableEq

structure InceptionPoint where
  name : String
  pluginRef : PluginRef
  roles : List PluginRole
  config : Json
  drain : Option InceptionPointDrainSpec

structure DataVerificationSpec where
  verifyPath : String
  timeoutSeconds : Option Int
  deriving DecidableEq

structure CustomVerificationSpec where
  startPath : String
  verifyPath : String
  timeoutSeconds : Option Int
  retries : Option Int
  deriving DecidableEq

structure TestSpec where
  name : String
  deployment : DeploymentSpec
  service : ServiceSpec
  dataVerification : Option DataVerificationSpec
  customVerification : Option CustomVerificationSpec
  deriving DecidableEq

structure DataPromotionSpec where
  minTestCases : Option Int
  successRate : Option Rat
  timeoutSeconds : Option Int
  deriving DecidableEq

structure CustomPromotionSpec where
  timeoutSeconds : Option Int
  retries : Option Int
  deriving DecidableEq

structure ProgressiveStep where
  trafficPercent : Int
  observeCases : Int
  successRate : Rat
  deriving DecidableEq

/-- `spec.promotion.strategy.progressive`. -/
structure ProgressiveSpec where
  steps : List ProgressiveStep
  rollbackOnStepFailure : Bool
  stepTimeoutMinutes : Option Int
  deriving DecidableEq

inductive StrategyType where
  | hardSwitch
  | progressive
  deriving DecidableEq, Repr

/-- `spec.promotion.strategy`. -/
structure PromotionStrategySpec where
  strategyType : StrategyType
  progressive : Option ProgressiveSpec
  deriving DecidableEq

structure PromotionSpec where
  data : Option DataPromotionSpec
  custom : Option CustomPromotionSpec
  strategy : PromotionStrategySpec
  deriving DecidableEq

inductive ActiveRolloutUpdatePolicy where
  | defer
  | forceReplace
  deriving DecidableEq, Repr

structure UpdatePolicy where
  activeRollout : Option ActiveRolloutUpdatePolicy
  deriving DecidableEq

/-- `candidatePatch` is the JSON encoding of the patch, which omits absent fields. -/
structure BlueGreenDeploymentSpec where
  selector : DeploymentSelector
  deployment : ManagedDeploymentSpec
  candidatePatch : Option Json
  inceptionPoints : List InceptionPoint
  test : Option TestSpec
  promotion : Option PromotionSpec
  updatePolicy : Option UpdatePolicy

/-! ## The status of a BlueGreenDeployment -/

inductive BGDPhase where
  | pending
  | observing
  | promoting
  | draining
  | completed
  | rolledBack
  | invalid
  deriving DecidableEq, Repr

inductive InceptionPointDrainPhase where
  | pending
  | successful
  | timedOutMaybeSuccessful
  deriving DecidableEq, Repr

structure InceptionPointDrainStatus where
  name : String
  phase : InceptionPointDrainPhase
  message : Option String
  completedAt : Option Timestamp
  deriving DecidableEq

inductive ConditionStatus where
  | isTrue
  | isFalse
  | unknown
  deriving DecidableEq, Repr

structure BlueGreenDeploymentCondition where
  conditionType : String
  status : ConditionStatus
  reason : String
  message : String
  observedGeneration : Int
  lastTransitionTime : Timestamp
  deriving DecidableEq

structure BlueGreenDeploymentStatus where
  phase : Option BGDPhase
  generatedDeploymentName : Option String
  observedGeneration : Option Int
  rolloutGeneration : Option Int
  testCasesObserved : Option Int
  testCasesPassed : Option Int
  testCasesFailed : Option Int
  testCasesPending : Option Int
  testCasesTimedOut : Option Int
  currentSuccessRate : Option Rat
  lastFailureMessage : Option String
  currentTrafficPercent : Option Int
  currentStep : Option Int
  drainStartedAt : Option Timestamp
  inceptionPointDrains : List InceptionPointDrainStatus
  conditions : List BlueGreenDeploymentCondition
  deriving DecidableEq

/-- `BlueGreenDeploymentStatus::default`. -/
def BlueGreenDeploymentStatus.default : BlueGreenDeploymentStatus where
  phase := none
  generatedDeploymentName := none
  observedGeneration := none
  rolloutGeneration := none
  testCasesObserved := none
  testCasesPassed := none
  testCasesFailed := none
  testCasesPending := none
  testCasesTimedOut := none
  currentSuccessRate := none
  lastFailureMessage := none
  currentTrafficPercent := none
  currentStep := none
  drainStartedAt := none
  inceptionPointDrains := []
  conditions := []

structure BlueGreenDeploymentMeta where
  name : String
  ns : String
  uid : Option String
  generation : Option Int
  resourceVersion : Nat
  deletionTimestamp : Option Timestamp
  finalizers : List String
  deriving DecidableEq

structure BlueGreenDeployment where
  metadata : BlueGreenDeploymentMeta
  spec : BlueGreenDeploymentSpec
  status : Option BlueGreenDeploymentStatus

namespace BlueGreenDeployment

/-! ## Reading through the optional status

`bgd.status.as_ref().and_then(|s| ..)`, which the controller writes at every use. -/

def phase (bgd : BlueGreenDeployment) : Option BGDPhase :=
  bgd.status.bind (·.phase)

def rolloutGeneration (bgd : BlueGreenDeployment) : Option Int :=
  bgd.status.bind (·.rolloutGeneration)

def observedGeneration (bgd : BlueGreenDeployment) : Option Int :=
  bgd.status.bind (·.observedGeneration)

def generatedDeploymentName (bgd : BlueGreenDeployment) : Option String :=
  bgd.status.bind (·.generatedDeploymentName)

def currentStep (bgd : BlueGreenDeployment) : Option Int :=
  bgd.status.bind (·.currentStep)

def drainStartedAt (bgd : BlueGreenDeployment) : Option Timestamp :=
  bgd.status.bind (·.drainStartedAt)

/-- The recorded drains, none without a status. -/
def inceptionPointDrains (bgd : BlueGreenDeployment) : List InceptionPointDrainStatus :=
  (bgd.status.map (·.inceptionPointDrains)).getD []

end BlueGreenDeployment

/-- The phase a finished rollout rests in. -/
def BGDPhase.IsTerminal (p : BGDPhase) : Prop :=
  p = .completed ∨ p = .rolledBack ∨ p = .invalid

instance (p : BGDPhase) : Decidable p.IsTerminal :=
  inferInstanceAs (Decidable (_ ∨ _))

end FluidBG
