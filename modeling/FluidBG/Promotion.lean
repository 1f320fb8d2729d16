import FluidBG.Strategy
/-!
# The errors of a reconcile, and the promotion decision

`controller/promotion.rs` with the error type of `controller.rs`.
-/

set_option autoImplicit false

namespace FluidBG

/-- `ReconcileError`. -/
inductive ReconcileError where
  | invalidSpec (message : String)
  | store (message : String)
  | stateStore (message : String)
  | lease (message : String)
  | pluginManager (message : String)
  | pluginInceptor (message : String)
  | pluginDrainStatus (message : String)
  | pluginTrafficShift (message : String)
  | auth (message : String)
  | resource (message : String)
  | k8s (err : KubeError)
  deriving DecidableEq, Repr

namespace ReconcileError

/-- `to_string`. -/
def text : ReconcileError → String
  | .invalidSpec message => s!"invalid spec: {message}"
  | .store message => s!"controller error: {message}"
  | .stateStore message => s!"state store error: {message}"
  | .lease message => s!"lease error: {message}"
  | .pluginManager message => s!"plugin manager error: {message}"
  | .pluginInceptor message => s!"plugin inceptor error: {message}"
  | .pluginDrainStatus message => s!"plugin drain status error: {message}"
  | .pluginTrafficShift message => s!"plugin traffic shift error: {message}"
  | .auth message => s!"auth configuration error: {message}"
  | .resource message => s!"resource error: {message}"
  | .k8s err => s!"k8s error: {err.text}"

def diagnosticReason : ReconcileError → String
  | .invalidSpec _ => "InvalidSpec"
  | .store _ => "ControllerError"
  | .stateStore _ => "StateStoreError"
  | .lease _ => "LeaseError"
  | .pluginManager _ => "PluginManagerError"
  | .pluginInceptor _ => "PluginInceptorError"
  | .pluginDrainStatus _ => "PluginDrainStatusError"
  | .pluginTrafficShift _ => "PluginTrafficShiftError"
  | .auth _ => "AuthError"
  | .resource _ => "ResourceError"
  | .k8s _ => "KubernetesApiError"

def isTerminalForGeneration : ReconcileError → Bool
  | .invalidSpec _ => true
  | _ => false

end ReconcileError

def decideCustomPromotion (counts : Counts) (_custom : CustomPromotionSpec) : PromotionAction :=
  if counts.pending > 0 then .continueObserving
  else if counts.failed > 0 ∨ counts.timedOut > 0 then .rollback
  else if counts.passed = 0 then .continueObserving
  else .promote

/-- `promotion_strategy_for(bgd, data)?.decide(counts, current_step)`. -/
def decideDataPromotion (promotion : PromotionSpec) (data : DataPromotionSpec) (counts : Counts)
    (currentStep : Option Int) : Except ReconcileError PromotionAction :=
  match promotion.strategy.strategyType with
  | .hardSwitch => .ok ((HardSwitchStrategy.fromCriteria data).decide counts)
  | .progressive => match promotion.strategy.progressive with
    | some progressive =>
      .ok ((ProgressiveStrategy.fromSteps progressive).decide counts currentStep)
    | none => .error (.invalidSpec "progressive strategy selected without steps")

/-- The two criteria together: a rollback wins, then waiting, and both have to promote. -/
def combineActions : Option PromotionAction → Option PromotionAction →
    Except ReconcileError PromotionAction
  | some .rollback, _ => .ok .rollback
  | _, some .rollback => .ok .rollback
  | some .continueObserving, _ => .ok .continueObserving
  | _, some .continueObserving => .ok .continueObserving
  | some (.advanceStep step trafficPercent), none => .ok (.advanceStep step trafficPercent)
  | some .promote, some .promote => .ok .promote
  | some .promote, none => .ok .promote
  | none, some .promote => .ok .promote
  | none, none => .error (.invalidSpec "promotion must define at least one of data or custom")
  | _, _ => .ok .continueObserving

def decidePromotionAction (bgd : BlueGreenDeployment) (dataCounts customCounts : Counts)
    (currentStep : Option Int) : Except ReconcileError PromotionAction :=
  match bgd.spec.promotion with
  | none => .error (.invalidSpec "blue green deployment is missing promotion spec")
  | some promotion =>
    let customAction := promotion.custom.map (decideCustomPromotion customCounts)
    match promotion.data with
    | none => combineActions none customAction
    | some data => match decideDataPromotion promotion data dataCounts currentStep with
      | .ok dataAction => combineActions (some dataAction) customAction
      | .error e => .error e

/-- The checks of a test against the criteria it feeds. -/
def validateTest (test : TestSpec) (promotion : PromotionSpec) : Except ReconcileError Unit :=
  if test.service.ports = [] then
    .error (.invalidSpec s!"test '{test.name}' service spec must define at least one port")
  else if test.dataVerification = none ∧ test.customVerification = none then
    .error (.invalidSpec
      s!"test '{test.name}' must define at least one of dataVerification or customVerification")
  else if test.dataVerification ≠ none ∧ promotion.data = none then
    .error (.invalidSpec
      s!"test '{test.name}' uses dataVerification but promotion.data is missing")
  else if test.customVerification ≠ none ∧ promotion.custom = none then
    .error (.invalidSpec
      s!"test '{test.name}' uses customVerification but promotion.custom is missing")
  else .ok ()

def validateTestConfiguration (bgd : BlueGreenDeployment) : Except ReconcileError Unit :=
  match bgd.spec.promotion with
  | none =>
    if bgd.spec.test = none then .ok ()
    else .error (.invalidSpec "test requires a promotion spec")
  | some promotion =>
    if promotion.data = none ∧ promotion.custom = none then
      .error (.invalidSpec "promotion must define at least one of data or custom")
    else match bgd.spec.test with
      | none => .ok ()
      | some test => validateTest test promotion

def hasSplitter (bgd : BlueGreenDeployment) : Bool :=
  bgd.spec.inceptionPoints.any fun ip => ip.roles.any (· == .splitter)

def initialSplitterTrafficPercent (bgd : BlueGreenDeployment) : Option Int :=
  if hasSplitter bgd then
    bgd.spec.promotion.bind fun promotion => match promotion.strategy.strategyType with
      | .hardSwitch => some 100
      | .progressive =>
        promotion.strategy.progressive.bind fun progressive =>
          progressive.steps.head?.map (·.trafficPercent)
  else none

end FluidBG
