import FluidBG.Controller.Reconcile
/-!
# Errors that do not end a rollout

An `InvalidSpec` error ends the rollout of a generation: the object becomes Invalid. Any other error
is published and tried again. The code that moves traffic, and all it calls, only ends with errors
of the second kind; there is one lemma here for each function.
-/

set_option autoImplicit false

namespace FluidBG

open Lib

/-- The error is published and the reconcile tried again. -/
def ReconcileError.Recoverable (e : ReconcileError) : Prop := e.isTerminalForGeneration = false

/-- The code does not reject the spec. -/
abbrev Op.Recoverable {α : Type} (p : Op α) : Prop := p.Errors ReconcileError.Recoverable

namespace Op.Recoverable

theorem ask (c : Call) : Op.Recoverable (Op.ask c) := Prog.Errors.ask

theorem kube {α : Type} (r : Except KubeError α) : Op.Recoverable (Op.kube r) := by
  cases r with
  | ok a => trivial
  | error e => exact rfl

theorem stateStore {α : Type} (r : Except StoreError α) : Op.Recoverable (Op.stateStore r) := by
  cases r with
  | ok a => trivial
  | error e => exact rfl

theorem askKube {α β : Type} {c : Call} {f : Answer c → Except KubeError α} {k : α → Op β}
    (hk : ∀ a, Op.Recoverable (k a)) :
    Op.Recoverable (Prog.bind (Op.ask c) fun r => Prog.bind (Op.kube (f r)) k) :=
  (ask c).bind fun _ => (kube _).bind hk

theorem lift {α : Type} {r : Except ReconcileError α} (h : ∀ e, r = .error e → e.Recoverable) :
    Op.Recoverable (Op.lift r) := .of_ofExcept h

theorem getOpt {α : Type} (r : Except KubeError α) : Op.Recoverable (FluidBG.getOpt r) := by
  cases r with
  | ok a => trivial
  | error e => cases e <;> trivial

/-! ## Plugins -/

theorem controlPlaneClient (tls : Option ControlPlaneTls) :
    Op.Recoverable (FluidBG.controlPlaneClient tls) := by
  refine (ask _).bind fun r => ?_
  cases r with
  | ok a => trivial
  | error e => exact rfl

theorem httpTry {α β : Type} {last : Bool} {failed decodeFailed : String → ReconcileError}
    {ok : α → β} (hfailed : ∀ text, (failed text).Recoverable)
    (hdecode : ∀ text, (decodeFailed text).Recoverable) (answer : HttpAnswer α) :
    Op.Recoverable (FluidBG.httpTry last failed decodeFailed ok answer) := by
  cases answer with
  | ok value => trivial
  | statusError text => exact hfailed text
  | decodeError text => exact hdecode text
  | sendError text => cases last with
    | true => exact hfailed text
    | false => exact (ask _).bind fun _ => trivial

theorem withRetries {α β : Type} {attempts : Nat} {send : Op (HttpAnswer α)}
    {failed decodeFailed : String → ReconcileError} {ok : α → β} {exhausted : β}
    (h : Op.Recoverable send) (hfailed : ∀ text, (failed text).Recoverable)
    (hdecode : ∀ text, (decodeFailed text).Recoverable) :
    Op.Recoverable (FluidBG.withRetries attempts send failed decodeFailed ok exhausted) :=
  .retry (fun _ => h.bind fun answer => httpTry hfailed hdecode answer) trivial

theorem readOperatorSigningKey (auth : AuthConfig) :
    Op.Recoverable (FluidBG.readOperatorSigningKey auth) := by
  refine askKube fun secret => ?_
  split
  · split
    · trivial
    · exact rfl
  · exact rfl

theorem signInceptionAuthToken (ctx : Ctx) (ns ref ip : String) (plugin : InceptionPlugin) :
    Op.Recoverable (FluidBG.signInceptionAuthToken ctx ns ref ip plugin) := by
  refine (readOperatorSigningKey _).bind fun _ => askKube fun bgd => ?_
  split
  · exact rfl
  · split
    · trivial
    · exact rfl

theorem invokeInceptorLifecycle (ctx : Ctx) (ref ns ip : String) (plugin : InceptionPlugin)
    (stage : PluginLifecycleStage) :
    Op.Recoverable (FluidBG.invokeInceptorLifecycle ctx ref ns ip plugin stage) := by
  unfold FluidBG.invokeInceptorLifecycle
  split
  · trivial
  · exact (controlPlaneClient _).bind fun _ => (signInceptionAuthToken _ _ _ _ _).bind fun _ =>
      withRetries (ask _) (fun _ => rfl) fun _ => rfl

theorem invokeInceptorTrafficShift (ctx : Ctx) (ref ns ip : String) (plugin : InceptionPlugin)
    (percent : Nat) :
    Op.Recoverable (FluidBG.invokeInceptorTrafficShift ctx ref ns ip plugin percent) :=
  (controlPlaneClient _).bind fun _ => (signInceptionAuthToken _ _ _ _ _).bind fun _ =>
    withRetries (ask _) (fun _ => rfl) fun _ => rfl

theorem rejectManagerTestAssignments (ip : String) (assignments : List PropertyAssignment) :
    Op.Recoverable (Op.lift (FluidBG.rejectManagerTestAssignments ip assignments)) := by
  refine lift fun e h => ?_
  unfold FluidBG.rejectManagerTestAssignments at h
  split at h <;> cases h
  rfl

theorem rejectActivationAssignments (ip : String) (assignments : List PropertyAssignment) :
    Op.Recoverable (Op.lift (FluidBG.rejectActivationAssignments ip assignments)) := by
  refine lift fun e h => ?_
  unfold FluidBG.rejectActivationAssignments at h
  split at h <;> cases h
  rfl

theorem rejectInceptorEnvResponse (ip : String) (env : List InceptorEnvVar) :
    Op.Recoverable (Op.lift (FluidBG.rejectInceptorEnvResponse ip env)) := by
  refine lift fun e h => ?_
  unfold FluidBG.rejectInceptorEnvResponse at h
  split at h <;> cases h
  rfl

/-! ## Objects and waiting -/

theorem waitForDeploymentsReady (ds : List DeploymentIdentity) :
    Op.Recoverable (FluidBG.waitForDeploymentsReady ds) := by
  refine .forEach fun d _ => .retry (fun _ => askKube fun current => ?_) rfl
  split
  · trivial
  · exact (ask _).bind fun _ => trivial

theorem waitForTestServicesReady (bgd : BlueGreenDeployment) (ns : String) :
    Op.Recoverable (FluidBG.waitForTestServicesReady bgd ns) := by
  unfold FluidBG.waitForTestServicesReady
  split
  · trivial
  · refine .retry (fun _ => (ask _).bind fun r => ?_) rfl
    split
    · split
      · trivial
      · exact (ask _).bind fun _ => trivial
    · exact (ask _).bind fun _ => trivial

theorem refuseForeign (name : String) (expected : Labels) (existing : Option Labels) :
    Op.Recoverable (FluidBG.refuseForeign name expected existing) := by
  unfold FluidBG.refuseForeign
  split
  · trivial
  · split
    · trivial
    · exact rfl

theorem applyResource (kind : Kind) (ns name : String) (r : Resource) :
    Op.Recoverable (FluidBG.applyResource kind ns name r) := by
  unfold FluidBG.applyResource
  split
  · exact (ask _).bind fun _ => (getOpt _).bind fun _ => (refuseForeign _ _ _).bind fun _ =>
      askKube fun _ => trivial
  · exact askKube fun _ => trivial

theorem applyDeploymentResource (ns name : String) (d : Deployment) :
    Op.Recoverable (FluidBG.applyDeploymentResource ns name d) := by
  unfold FluidBG.applyDeploymentResource
  split
  · exact (ask _).bind fun _ => (getOpt _).bind fun _ => (refuseForeign _ _ _).bind fun _ =>
      askKube fun _ => trivial
  · exact askKube fun _ => trivial

theorem requireTestName (bgd : BlueGreenDeployment) (kind ns logical runtime : String)
    (expected : Labels) (existing : Option Labels) :
    Op.Recoverable (FluidBG.requireTestName bgd kind ns logical runtime expected existing) := by
  unfold FluidBG.requireTestName
  split
  · trivial
  · split
    · trivial
    · exact rfl

theorem deleteDeployment (ns name : String) :
    Op.Recoverable (FluidBG.deleteDeployment ns name) := by
  refine (ask _).bind fun r => ?_
  rcases r with e | _
  · cases e <;> trivial
  · trivial

/-! ## Computed objects -/

section Computed

variable {d : Deployment} {e : ReconcileError}

theorem labelBoth {f : Labels → Labels} (h : FluidBG.labelBoth d f = .error e) :
    e.Recoverable := by
  unfold FluidBG.labelBoth onTemplateLabels at h
  split at h
  · cases h; rfl
  · split at h <;> cases h
    rfl

theorem applyAssignmentsToDeploymentSpec {spec : DeploymentSpec}
    {assignments : List PropertyAssignment} {target : AssignmentTarget}
    (h : FluidBG.applyAssignmentsToDeploymentSpec spec assignments target = .error e) :
    e.Recoverable := by
  unfold FluidBG.applyAssignmentsToDeploymentSpec at h
  split at h <;> cases h
  rfl

theorem applyFamilyLabelsToDeployment {labels : Labels}
    (h : FluidBG.applyFamilyLabelsToDeployment d labels = .error e) : e.Recoverable := by
  unfold FluidBG.applyFamilyLabelsToDeployment at h
  split at h
  · cases h; rfl
  · exact labelBoth h

theorem labelManifest {bgd : BlueGreenDeployment} {labels : Labels} {isGreen : Bool}
    (h : FluidBG.labelManifest bgd labels isGreen d = .error e) : e.Recoverable := by
  unfold FluidBG.labelManifest at h
  rcases bind_eq_error.mp h with hfamily | ⟨family, _, h⟩
  · exact applyFamilyLabelsToDeployment hfamily
  · rcases bind_eq_error.mp h with hgreen | ⟨green, _, h⟩
    · exact labelBoth hgreen
    · cases isGreen <;> exact labelBoth h

theorem manifestSpec {crates : Crates} {bgd : BlueGreenDeployment} {spec : ManagedDeploymentSpec}
    {isGreen : Bool} {assignments : List PropertyAssignment}
    (h : FluidBG.manifestSpec crates bgd spec isGreen assignments = .error e) :
    e.Recoverable := by
  have hpatch {base : DeploymentSpec}
      (h : deploymentSpecWithTestPatch crates bgd base = .error e) : e.Recoverable := by
    unfold deploymentSpecWithTestPatch at h
    split at h
    · cases h
    · split at h
      · cases h; rfl
      · split at h <;> cases h
        rfl
  unfold FluidBG.manifestSpec at h
  split at h
  · cases h
  · split at h
    · rename_i hfailed
      cases h
      exact hpatch hfailed
    · exact applyAssignmentsToDeploymentSpec h

theorem applyRuntimeIdentitySelector {name : String}
    (h : FluidBG.applyRuntimeIdentitySelector d name = .error e) : e.Recoverable := by
  unfold FluidBG.applyRuntimeIdentitySelector onTemplateLabels at h
  split at h
  · cases h; rfl
  · dsimp only at h
    split at h <;> cases h
    rfl

theorem deploymentManifest {crates : Crates} {bgd : BlueGreenDeployment} {ns : String}
    {spec : ManagedDeploymentSpec} {labels : Labels} {isGreen : Bool}
    {assignments : List PropertyAssignment}
    (h : FluidBG.deploymentManifest crates bgd ns spec labels isGreen assignments = .error e) :
    e.Recoverable := by
  unfold FluidBG.deploymentManifest at h
  rcases bind_eq_error.mp h with hspec | ⟨spec, _, h⟩
  · exact manifestSpec hspec
  · rcases bind_eq_error.mp h with hlabel | ⟨labelled, _, h⟩
    · exact labelManifest hlabel
    · exact applyRuntimeIdentitySelector h

theorem testDeployment {bgd : BlueGreenDeployment} {test : TestSpec} {ns : String}
    {assignments : List PropertyAssignment} {extraEnv : List EnvVar}
    (h : FluidBG.testDeployment bgd test ns assignments extraEnv = .error e) : e.Recoverable := by
  have hextra {spec : DeploymentSpec}
      (h : applyExtraEnvToDeploymentSpec spec extraEnv = .error e) : e.Recoverable := by
    unfold applyExtraEnvToDeploymentSpec at h
    split at h
    · cases h
    · split at h <;> cases h
      rfl
  unfold FluidBG.testDeployment at h
  rcases bind_eq_error.mp h with hspec | ⟨spec, _, h⟩
  · exact applyAssignmentsToDeploymentSpec hspec
  · rcases bind_eq_error.mp h with henv | ⟨spec', _, h⟩
    · exact hextra henv
    · cases h

theorem serviceSpecForTest {test : TestSpec} {labels : Labels}
    (h : FluidBG.serviceSpecForTest test labels = .error e) : e.Recoverable := by
  unfold FluidBG.serviceSpecForTest at h
  split at h <;> cases h
  rfl

theorem patchedDeployment {name : String} {container : Option String}
    {env : List (String × String)}
    (h : FluidBG.patchedDeployment d name container env = .error e) : e.Recoverable := by
  unfold FluidBG.patchedDeployment at h
  split at h
  · cases h; rfl
  · split at h <;> cases h
    rfl

end Computed

/-! ## Rollout -/

theorem applyDeploymentManifest (ctx : Ctx) (bgd : BlueGreenDeployment) (ns : String)
    (spec : ManagedDeploymentSpec) (labels : Labels) (isGreen : Bool)
    (assignments : List PropertyAssignment) :
    Op.Recoverable
      (FluidBG.applyDeploymentManifest ctx bgd ns spec labels isGreen assignments) := by
  refine (lift fun _ h => deploymentManifest h).bind fun d => (ask _).bind fun r => ?_
  rcases r with e | existing
  · cases e with
    | notFound _ => exact askKube fun _ => trivial
    | _ => exact rfl
  · exact askKube fun _ => trivial

theorem ensureDeclaredDeployments (ctx : Ctx) (bgd : BlueGreenDeployment) (ns : String)
    (assignments : List PropertyAssignment) :
    Op.Recoverable (FluidBG.ensureDeclaredDeployments ctx bgd ns assignments) :=
  (applyDeploymentManifest _ _ _ _ _ _ _).bind fun _ => trivial

theorem ensureTestResources (bgd : BlueGreenDeployment) (ns : String)
    (assignments : List PropertyAssignment) (extraEnv : List EnvVar) :
    Op.Recoverable (FluidBG.ensureTestResources bgd ns assignments extraEnv) := by
  have hfree (logicalName testName : String) (labels : Labels) :
      Op.Recoverable (ensureTestNameAvailable bgd ns logicalName testName labels) :=
    (ask _).bind fun _ => (getOpt _).bind fun _ => (requireTestName _ _ _ _ _ _ _).bind
      fun _ => (ask _).bind fun _ => (getOpt _).bind fun _ => requireTestName _ _ _ _ _ _ _
  have hservice (testName : String) (service : Resource) : Op.Recoverable (do
      FluidBG.applyResource .service ns testName service
      pure [(⟨ns, testName⟩ : DeploymentIdentity)]) :=
    (applyResource _ _ _ _).bind fun _ => trivial
  unfold FluidBG.ensureTestResources
  split
  · trivial
  · rename_i test htest
    dsimp only
    refine (hfree _ _ _).bind fun _ => (lift fun _ h => testDeployment h).bind fun _ => ?_
    generalize testInstanceName bgd test.name = testName
    generalize testLabels bgd test.name testName = labels
    exact (applyDeploymentResource _ _ _).bind fun _ =>
      (lift fun _ h => serviceSpecForTest h).bind fun _ => hservice _ _

theorem extraTestEnv (ctx : Ctx) (bgd : BlueGreenDeployment) (ns : String) (tokens : Labels) :
    Op.Recoverable (FluidBG.extraTestEnv ctx bgd ns tokens) := by
  unfold FluidBG.extraTestEnv
  split
  · trivial
  · split
    · exact rfl
    · rename_i tokensJson htokens
      have hsecret (secretName : String) (secret : Resource) : Op.Recoverable (do
          FluidBG.applyResource .secret ns secretName secret
          pure secretName) := (applyResource _ _ _ _).bind fun _ => trivial
      have hensured : Op.Recoverable (ensureVerifierAuthSecret bgd ns tokensJson) := hsecret _ _
      generalize ensureVerifierAuthSecret bgd ns tokensJson = ensured at hensured ⊢
      exact Prog.Errors.bind hensured fun _ => trivial

theorem resolveCurrentGreen (ns : String) (selector : DeploymentSelector) :
    Op.Recoverable (FluidBG.resolveCurrentGreen ns selector) := by
  unfold FluidBG.resolveCurrentGreen
  split
  · exact rfl
  · refine askKube fun ds => ?_
    split
    · trivial
    · refine askKube fun family => ?_
      split
      · exact (lift fun _ h => labelBoth h).bind fun _ => askKube fun _ => trivial
      · exact rfl
      · exact rfl
    · exact rfl

theorem applyAssignments (bgd : BlueGreenDeployment) (ns : String)
    (assignments : List PropertyAssignment) (ignoreMissing : Bool) :
    Op.Recoverable (FluidBG.applyAssignments bgd ns assignments ignoreMissing) := by
  have hgreen : Op.Recoverable (greenForAssignments bgd ns assignments) := by
    unfold greenForAssignments
    split
    · exact (resolveCurrentGreen _ _).bind fun _ => trivial
    · trivial
  have hpatch (name dns : String) (container : Option String) (env : List (String × String)) :
      Op.Recoverable (patchTargetedDeploymentEnv dns name container env ignoreMissing) := by
    refine (ask _).bind fun r => ?_
    rcases r with e | d
    · cases e with
      | notFound _ => cases ignoreMissing <;> trivial
      | _ => exact rfl
    · exact (lift fun _ h => patchedDeployment h).bind fun _ => askKube fun _ => trivial
  exact hgreen.bind fun _ => Prog.Errors.bind (.forEach fun _ _ => hpatch _ _ _ _) fun _ => trivial

theorem startPluginDraining (ctx : Ctx) (bgd : BlueGreenDeployment) (ns : String)
    (targets : List AssignmentTarget) :
    Op.Recoverable (FluidBG.startPluginDraining ctx bgd ns targets) := by
  refine .forEach fun ip _ => askKube fun plugin =>
    (invokeInceptorLifecycle _ _ _ _ _ _).bind fun response => ?_
  dsimp only
  split
  · trivial
  · exact (applyAssignments _ _ _ _).bind fun _ => waitForDeploymentsReady _

theorem applySplitterTrafficPercent (ctx : Ctx) (bgd : BlueGreenDeployment) (ns : String)
    (percent : Int) : Op.Recoverable (FluidBG.applySplitterTrafficPercent ctx bgd ns percent) :=
  .forEach fun _ _ => askKube fun _ => invokeInceptorTrafficShift _ _ _ _ _ _

theorem prepareInceptor (ctx : Ctx) (bgd : BlueGreenDeployment) (ns : String)
    (assignments : List PropertyAssignment) (plan : PreparedInceptionPoint) :
    Op.Recoverable (FluidBG.prepareInceptor ctx bgd ns assignments plan) := by
  refine (waitForDeploymentsReady _).bind fun _ =>
    (invokeInceptorLifecycle _ _ _ _ _ _).bind fun r => ?_
  cases r with
  | none => trivial
  | some response =>
    exact (rejectInceptorEnvResponse _ _).bind fun _ =>
      (rejectManagerTestAssignments _ _).bind fun _ => trivial

theorem activateInceptor (ctx : Ctx) (bgd : BlueGreenDeployment) (ns : String)
    (plan : PreparedInceptionPoint) :
    Op.Recoverable (FluidBG.activateInceptor ctx bgd ns plan) := by
  refine (invokeInceptorLifecycle _ _ _ _ _ _).bind fun r => ?_
  cases r with
  | none => trivial
  | some response =>
    exact (rejectInceptorEnvResponse _ _).bind fun _ => rejectActivationAssignments _ _

theorem applyPreActivation (bgd : BlueGreenDeployment) (ns : String)
    (assignments : List PropertyAssignment) :
    Op.Recoverable (FluidBG.applyPreActivation bgd ns assignments) := by
  unfold FluidBG.applyPreActivation
  split
  · trivial
  · exact (applyAssignments _ _ _ _).bind fun _ => waitForDeploymentsReady _

/-! ## The status -/

theorem patchStatus (bgd : BlueGreenDeployment) (ns : String) (patch : StatusPatch) :
    Op.Recoverable (FluidBG.patchStatus bgd ns patch) := (ask _).bind fun _ => trivial

theorem updateStatusPhase (bgd : BlueGreenDeployment) (ns : String) (phase : BGDPhase) :
    Op.Recoverable (FluidBG.updateStatusPhase bgd ns phase) := by
  refine (ask _).bind fun r => ?_
  cases r with
  | error e => trivial
  | ok latest =>
    dsimp only
    split
    · exact (ask _).bind fun _ => (ask _).bind fun _ => trivial
    · trivial

theorem startDrain (bgd : BlueGreenDeployment) (ns : String) :
    Op.Recoverable (FluidBG.startDrain bgd ns) :=
  (updateStatusPhase _ _ _).bind fun _ => (ask _).bind fun _ => patchStatus _ _ _

theorem beginDrainingAfterRollback (ctx : Ctx) (bgd : BlueGreenDeployment) (ns : String) :
    Op.Recoverable (FluidBG.beginDrainingAfterRollback ctx bgd ns) :=
  (ask _).bind fun _ => (startPluginDraining _ _ _ _).bind fun _ =>
    (deleteDeployment _ _).bind fun _ => ask _

theorem performAction (ctx : Ctx) (bgd : BlueGreenDeployment) (ns : String)
    (action : PromotionAction) : Op.Recoverable (FluidBG.performAction ctx bgd ns action) := by
  cases action with
  | continueObserving => trivial
  | promote => exact updateStatusPhase _ _ _
  | rollback => exact (beginDrainingAfterRollback _ _ _).bind fun _ => startDrain _ _
  | advanceStep step percent =>
    exact (applySplitterTrafficPercent _ _ _ _).bind fun _ => patchStatus _ _ _

end Op.Recoverable

end FluidBG
