import FluidBG.Cluster
/-!
# Footprints

Most of the controller's code has no part in most of its properties. A footprint says which calls a
piece of code can make at all: `Asks` code only reads, asks plugins and waits, `Teardown` code deletes
and looks whether it is gone, `Rewires` code does both and changes Deployments there are, `Upkeep`
code creates no object, and `Work` code may do all of this but leaves the `BlueGreenDeployment`
alone. Every frame argument
about a reconcile rests on the lemmas here, one for each function.
-/

set_option autoImplicit false

namespace FluidBG

open Lib

namespace Call

/-- The call writes the `BlueGreenDeployment`, or marks a point of the code. -/
def TouchesBgd : Call → Prop
  | .replaceStatus _ _ _ => True
  | .patchStatus _ _ _ => True
  | .patchFinalizers _ _ _ => True
  | .note _ => True
  | _ => False

/-- The call writes a Deployment. -/
def TouchesDeployments : Call → Prop
  | .createDeployment _ _ => True
  | .replaceDeployment _ _ _ => True
  | .applyDeployment _ _ _ => True
  | .deleteDeployment _ _ => True
  | _ => False

/-- The call leaves the object alone. -/
def Work (c : Call) : Prop := ¬ c.TouchesBgd

/-- The call puts an accompanying object in place. -/
def PlacesResource : Call → Prop
  | .applyResource _ _ _ _ => True
  | _ => False

/-- The call writes or deletes an accompanying object. -/
def TouchesResources : Call → Prop
  | .applyResource _ _ _ _ => True
  | .deleteResource _ _ _ => True
  | _ => False

/-- The call can create an object. -/
def Creates : Call → Prop
  | .createDeployment _ _ => True
  | .applyDeployment _ _ _ => True
  | .applyResource _ _ _ _ => True
  | _ => False

/-- The call leaves the object alone and creates nothing. -/
def Upkeep (c : Call) : Prop := c.Work ∧ ¬ c.Creates

theorem Upkeep.work {c : Call} (h : c.Upkeep) : c.Work := h.1

/-- The call reads, asks a plugin or waits. -/
def Asks : Call → Prop
  | .getBgd _ _ => True
  | .listBgds => True
  | .getDeployment _ _ => True
  | .listDeployments _ _ => True
  | .getResource _ _ _ => True
  | .listResources _ _ _ => True
  | .getEndpoints _ _ => True
  | .listNamespaces => True
  | .getPlugin _ => True
  | .listPlugins => True
  | .controlPlaneClient _ => True
  | .postManager _ _ _ => True
  | .postManagerSync _ _ _ => True
  | .postInceptor _ _ => True
  | .getDrainStatus _ _ => True
  | .now => True
  | .sleep _ => True
  | _ => False

/-- The call reads from the API server, or waits. -/
def Reads : Call → Prop
  | .getPlugin _ => False
  | .postManager _ _ _ => False
  | .postManagerSync _ _ _ => False
  | .postInceptor _ _ => False
  | .getDrainStatus _ _ => False
  | c => c.Asks

/-- The call reads, or replaces a Deployment. -/
def Patches : Call → Prop
  | .replaceDeployment _ _ _ => True
  | c => c.Reads

/-- The call deletes something, looks whether it is gone, or waits. -/
def Teardown : Call → Prop
  | .getDeployment _ _ => True
  | .listDeployments _ _ => True
  | .getResource _ _ _ => True
  | .listResources _ _ _ => True
  | .deleteDeployment _ _ => True
  | .deleteResource _ _ _ => True
  | .cleanupBlueGreen _ => True
  | .sleep _ => True
  | _ => False

/-- The call asks, takes something down, or replaces a Deployment. -/
def Rewires : Call → Prop
  | .replaceDeployment _ _ _ => True
  | c => c.Asks ∨ c.Teardown

/-- The call reads the object or the clock, or writes the status. -/
def Reports : Call → Prop
  | .getBgd _ _ => True
  | .now => True
  | .replaceStatus _ _ _ => True
  | .patchStatus _ _ _ => True
  | _ => False

/-- The call leaves the object and all Deployments alone and puts nothing in place. -/
def Passive (c : Call) : Prop := ¬ c.TouchesBgd ∧ ¬ c.TouchesDeployments ∧ ¬ c.PlacesResource

theorem Passive.upkeep {c : Call} (h : c.Passive) : c.Upkeep := by
  refine ⟨h.1, fun hc => ?_⟩
  cases c with
  | createDeployment _ _ | applyDeployment _ _ _ => exact h.2.1 trivial
  | applyResource _ _ _ _ => exact h.2.2 trivial
  | _ => exact hc

theorem Reads.asks {c : Call} (h : c.Reads) : c.Asks := by
  cases c <;> first | exact h | exact h.elim

theorem Asks.passive {c : Call} (h : c.Asks) : c.Passive := by
  cases c <;> first | exact ⟨id, id, id⟩ | exact h.elim

theorem Teardown.upkeep {c : Call} (h : c.Teardown) : c.Upkeep := by
  cases c <;> first | exact ⟨id, id⟩ | exact h.elim

theorem Asks.rewires {c : Call} (h : c.Asks) : c.Rewires := by
  cases c <;> first | exact .inl h | exact h.elim

theorem Teardown.rewires {c : Call} (h : c.Teardown) : c.Rewires := by
  cases c <;> first | exact .inr h | exact h.elim

theorem Patches.rewires {c : Call} (h : c.Patches) : c.Rewires := by
  cases c <;> first | exact h.elim | exact .inl h | trivial

theorem Rewires.upkeep {c : Call} (h : c.Rewires) : c.Upkeep := by
  cases c with
  | replaceDeployment _ _ _ => exact ⟨id, id⟩
  | _ =>
    rcases h with hasks | hteardown
    · exact hasks.passive.upkeep
    · exact hteardown.upkeep

end Call

/-- The code reads, asks plugins and waits. -/
abbrev Op.Asks {α : Type} (p : Op α) : Prop := p.Calls Call.Asks

/-- The code reads from the API server and waits, and asks nobody else. -/
abbrev Op.Reads {α : Type} (p : Op α) : Prop := p.Calls Call.Reads

/-- The code reads, and replaces Deployments. -/
abbrev Op.Patches {α : Type} (p : Op α) : Prop := p.Calls Call.Patches

/-- The code takes things down. -/
abbrev Op.Teardown {α : Type} (p : Op α) : Prop := p.Calls Call.Teardown

/-- The code asks, takes down and replaces Deployments. -/
abbrev Op.Rewires {α : Type} (p : Op α) : Prop := p.Calls Call.Rewires

/-- The code writes the status and nothing else. -/
abbrev Op.Reports {α : Type} (p : Op α) : Prop := p.Calls Call.Reports

/-- The code leaves the object and all Deployments alone and puts nothing in place. -/
abbrev Op.Passive {α : Type} (p : Op α) : Prop := p.Calls Call.Passive

/-- The code leaves the object alone and creates nothing. -/
abbrev Op.Upkeep {α : Type} (p : Op α) : Prop := p.Calls Call.Upkeep

/-- The code leaves the object alone. -/
abbrev Op.Work {α : Type} (p : Op α) : Prop := p.Calls Call.Work

theorem Op.Passive.upkeep {α : Type} {p : Op α} (h : Op.Passive p) : Op.Upkeep p :=
  h.mono fun _ => Call.Passive.upkeep

theorem Op.Upkeep.work {α : Type} {p : Op α} (h : Op.Upkeep p) : Op.Work p :=
  h.mono fun _ => Call.Upkeep.work

theorem Op.Passive.work {α : Type} {p : Op α} (h : Op.Passive p) : Op.Work p :=
  h.upkeep.work

theorem Op.Reads.asks {α : Type} {p : Op α} (h : Op.Reads p) : Op.Asks p :=
  h.mono fun _ => Call.Reads.asks

theorem Op.Asks.passive {α : Type} {p : Op α} (h : Op.Asks p) : Op.Passive p :=
  h.mono fun _ => Call.Asks.passive

theorem Op.Asks.upkeep {α : Type} {p : Op α} (h : Op.Asks p) : Op.Upkeep p :=
  h.passive.upkeep

theorem Op.Asks.work {α : Type} {p : Op α} (h : Op.Asks p) : Op.Work p :=
  h.passive.work

theorem Op.Teardown.upkeep {α : Type} {p : Op α} (h : Op.Teardown p) : Op.Upkeep p :=
  h.mono fun _ => Call.Teardown.upkeep

theorem Op.Asks.rewires {α : Type} {p : Op α} (h : Op.Asks p) : Op.Rewires p :=
  h.mono fun _ => Call.Asks.rewires

theorem Op.Teardown.rewires {α : Type} {p : Op α} (h : Op.Teardown p) : Op.Rewires p :=
  h.mono fun _ => Call.Teardown.rewires

theorem Op.Patches.rewires {α : Type} {p : Op α} (h : Op.Patches p) : Op.Rewires p :=
  h.mono fun _ => Call.Patches.rewires

theorem Op.Rewires.upkeep {α : Type} {p : Op α} (h : Op.Rewires p) : Op.Upkeep p :=
  h.mono fun _ => Call.Rewires.upkeep

section Footprints

variable {F : Call → Prop}

theorem kube_calls {α : Type} (r : Except KubeError α) : (Op.kube r).Calls F := by
  cases r <;> trivial

theorem stateStore_calls {α : Type} (r : Except StoreError α) : (Op.stateStore r).Calls F := by
  cases r <;> trivial

theorem lift_calls {α : Type} (r : Except ReconcileError α) : (Op.lift r).Calls F := by
  cases r <;> trivial

/-- Code that goes on with a computed value. -/
theorem liftBind_calls {α β : Type} {r : Except ReconcileError α} {k : α → Op β}
    (h : ∀ a, r = .ok a → (k a).Calls F) : (Prog.bind (Op.lift r) k).Calls F := by
  cases r with
  | ok a => exact h a rfl
  | error e => trivial

theorem getOpt_calls {α : Type} (r : Except KubeError α) : (getOpt r).Calls F := by
  cases r with
  | ok a => trivial
  | error e => cases e <;> trivial

theorem ask_calls {c : Call} (h : F c) : (Op.ask c).Calls F :=
  Prog.Calls.of_ask.mpr h

/-- A call whose error ends the code: the `?` on a request to the API server. -/
theorem askKube_calls {α β : Type} {c : Call} {f : Answer c → Except KubeError α} {k : α → Op β}
    (h : F c) (hk : ∀ a, (k a).Calls F) :
    (Prog.bind (Op.ask c) fun r => Prog.bind (Op.kube (f r)) k).Calls F :=
  (ask_calls h).bind fun _ => (kube_calls _).bind hk

/-- A request with retries makes the calls of one try, and sleeps. -/
theorem withRetries_calls {α β : Type} {attempts : Nat} {send : Op (HttpAnswer α)}
    {failed decodeFailed : String → ReconcileError} {ok : α → β} {exhausted : β}
    (h : send.Calls F) (hsleep : F (.sleep 2)) :
    (withRetries attempts send failed decodeFailed ok exhausted).Calls F := by
  refine .retry (fun i => h.bind fun answer => ?_) trivial
  cases answer with
  | sendError text =>
    cases hlast : decide (i + 1 = attempts) with
    | true => trivial
    | false => exact (ask_calls hsleep).bind fun _ => trivial
  | _ => trivial

end Footprints

/-! ## Status writers -/

namespace Op.Reports

theorem patchStatus (bgd : BlueGreenDeployment) (ns : String) (patch : StatusPatch) :
    Op.Reports (FluidBG.patchStatus bgd ns patch) :=
  (ask_calls trivial).bind fun _ => trivial

theorem updateStatusPhase (bgd : BlueGreenDeployment) (ns : String) (phase : BGDPhase) :
    Op.Reports (FluidBG.updateStatusPhase bgd ns phase) := by
  refine (ask_calls trivial).bind fun latest => ?_
  cases latest with
  | error e => trivial
  | ok latest =>
    dsimp only
    split
    · exact (ask_calls trivial).bind fun _ => (ask_calls trivial).bind fun _ => trivial
    · trivial

theorem updateStatusUpdateDeferred (bgd : BlueGreenDeployment) (ns : String) :
    Op.Reports (FluidBG.updateStatusUpdateDeferred bgd ns) := by
  refine (ask_calls trivial).bind fun latest => ?_
  cases latest with
  | error e => trivial
  | ok latest => exact (ask_calls trivial).bind fun _ => (ask_calls trivial).bind fun _ => trivial

theorem updateStatusReconcileFailure (bgd : BlueGreenDeployment) (ns reason message : String) :
    Op.Reports (FluidBG.updateStatusReconcileFailure bgd ns reason message) := by
  refine (ask_calls trivial).bind fun latest => ?_
  cases latest with
  | error e => trivial
  | ok latest => exact (ask_calls trivial).bind fun _ => (ask_calls trivial).bind fun _ => trivial

theorem updateStatusInvalid (bgd : BlueGreenDeployment) (ns reason message : String) :
    Op.Reports (FluidBG.updateStatusInvalid bgd ns reason message) :=
  (ask_calls trivial).bind fun _ => patchStatus _ _ _

theorem startDrain (bgd : BlueGreenDeployment) (ns : String) :
    Op.Reports (FluidBG.startDrain bgd ns) :=
  (updateStatusPhase _ _ _).bind fun _ => (ask_calls trivial).bind fun _ => patchStatus _ _ _

end Op.Reports

/-! ## Tokens, clients and waiting -/

namespace Op.Reads

theorem controlPlaneClient (tls : Option ControlPlaneTls) :
    Op.Reads (FluidBG.controlPlaneClient tls) := by
  refine (ask_calls trivial).bind fun r => ?_
  cases r <;> trivial

theorem readOperatorSigningKey (auth : AuthConfig) :
    Op.Reads (FluidBG.readOperatorSigningKey auth) := by
  refine askKube_calls trivial fun secret => ?_
  split
  · split <;> trivial
  · trivial

theorem signInceptionAuthToken (ctx : Ctx) (ns ref ip : String) (plugin : InceptionPlugin) :
    Op.Reads (FluidBG.signInceptionAuthToken ctx ns ref ip plugin) := by
  refine (readOperatorSigningKey _).bind fun key => askKube_calls trivial fun bgd => ?_
  split
  · trivial
  · split <;> trivial

theorem signManagerSyncAuthToken (ctx : Ctx) (plugin : InceptionPlugin) :
    Op.Reads (FluidBG.signManagerSyncAuthToken ctx plugin) := by
  refine (readOperatorSigningKey _).bind fun key => ?_
  split <;> trivial

theorem validateInceptionAuthToken (ctx : Ctx) (token : String) :
    Op.Reads (FluidBG.validateInceptionAuthToken ctx token) := by
  refine (readOperatorSigningKey _).bind fun key => ?_
  split <;> trivial

theorem managerClaims (ctx : Ctx) (token : String) :
    Op.Reads (FluidBG.managerClaims ctx token) := by
  refine (validateInceptionAuthToken _ _).result.bind fun r => ?_
  rcases r with err | _ | claims <;> trivial

theorem activeInceptionsForPlugin (name : String) :
    Op.Reads (FluidBG.activeInceptionsForPlugin name) :=
  askKube_calls trivial fun _ => trivial

theorem waitForDeploymentsReady (ds : List DeploymentIdentity) :
    Op.Reads (FluidBG.waitForDeploymentsReady ds) := by
  refine .forEach fun d _ => .retry (fun _ => askKube_calls trivial fun current => ?_) trivial
  split
  · trivial
  · exact (ask_calls trivial).bind fun _ => trivial

theorem refuseForeign (name : String) (expected : Labels) (existing : Option Labels) :
    Op.Reads (FluidBG.refuseForeign name expected existing) := by
  unfold FluidBG.refuseForeign
  split
  · trivial
  · split <;> trivial

end Op.Reads

/-! ## Plugins -/

namespace Op.Asks

theorem ask {c : Call} (h : c.Asks) : Op.Asks (Op.ask c) := ask_calls h

theorem sleep (n : Nat) : Op.Asks (Op.ask (.sleep n)) := ask trivial

theorem now : Op.Asks (Op.ask .now) := ask trivial

theorem getPlugin (name : String) : Op.Asks (Op.ask (.getPlugin name)) := ask trivial

theorem getBgd (ns name : String) : Op.Asks (Op.ask (.getBgd ns name)) := ask trivial

theorem getDeployment (ns name : String) : Op.Asks (Op.ask (.getDeployment ns name)) :=
  ask trivial

theorem listDeployments (ns : String) (selector : LabelSelector) :
    Op.Asks (Op.ask (.listDeployments ns selector)) := ask trivial

theorem getResource (kind : Kind) (ns name : String) :
    Op.Asks (Op.ask (.getResource kind ns name)) := ask trivial

theorem controlPlaneClient (tls : Option ControlPlaneTls) :
    Op.Asks (FluidBG.controlPlaneClient tls) :=
  (Op.Reads.controlPlaneClient tls).asks

theorem withRetries {α β : Type} {attempts : Nat} {send : Op (HttpAnswer α)}
    {failed decodeFailed : String → ReconcileError} {ok : α → β} {exhausted : β}
    (h : Op.Asks send) :
    Op.Asks (FluidBG.withRetries attempts send failed decodeFailed ok exhausted) :=
  withRetries_calls h trivial

theorem readOperatorSigningKey (auth : AuthConfig) :
    Op.Asks (FluidBG.readOperatorSigningKey auth) :=
  (Op.Reads.readOperatorSigningKey auth).asks

theorem signInceptionAuthToken (ctx : Ctx) (ns ref ip : String) (plugin : InceptionPlugin) :
    Op.Asks (FluidBG.signInceptionAuthToken ctx ns ref ip plugin) :=
  (Op.Reads.signInceptionAuthToken ctx ns ref ip plugin).asks

theorem signManagerSyncAuthToken (ctx : Ctx) (plugin : InceptionPlugin) :
    Op.Asks (FluidBG.signManagerSyncAuthToken ctx plugin) :=
  (Op.Reads.signManagerSyncAuthToken ctx plugin).asks

theorem validateInceptionAuthToken (ctx : Ctx) (token : String) :
    Op.Asks (FluidBG.validateInceptionAuthToken ctx token) :=
  (Op.Reads.validateInceptionAuthToken ctx token).asks

theorem managerClaims (ctx : Ctx) (token : String) :
    Op.Asks (FluidBG.managerClaims ctx token) :=
  (Op.Reads.managerClaims ctx token).asks

theorem activeInceptionsForPlugin (name : String) :
    Op.Asks (FluidBG.activeInceptionsForPlugin name) :=
  (Op.Reads.activeInceptionsForPlugin name).asks

theorem invokeInceptorLifecycle (ctx : Ctx) (ref ns ip : String) (plugin : InceptionPlugin)
    (stage : PluginLifecycleStage) :
    Op.Asks (FluidBG.invokeInceptorLifecycle ctx ref ns ip plugin stage) := by
  unfold FluidBG.invokeInceptorLifecycle
  split
  · trivial
  · exact (controlPlaneClient _).bind fun _ => (signInceptionAuthToken _ _ _ _ _).bind fun _ =>
      withRetries (ask trivial)

theorem invokePluginManagerLifecycle (ctx : Ctx) (ref ns : String) (ip : InceptionPoint)
    (plugin : InceptionPlugin) (stage : PluginLifecycleStage) :
    Op.Asks (FluidBG.invokePluginManagerLifecycle ctx ref ns ip plugin stage) := by
  unfold FluidBG.invokePluginManagerLifecycle
  split
  · trivial
  · split
    · trivial
    · exact (signInceptionAuthToken _ _ _ _ _).bind fun _ => (managerClaims _ _).bind fun _ =>
        (activeInceptionsForPlugin _).bind fun _ => (controlPlaneClient _).bind fun _ =>
          withRetries (ask trivial)

theorem invokeInceptorDrainStatus (ctx : Ctx) (ref ns ip : String) (plugin : InceptionPlugin) :
    Op.Asks (FluidBG.invokeInceptorDrainStatus ctx ref ns ip plugin) := by
  unfold FluidBG.invokeInceptorDrainStatus
  split
  · trivial
  · refine (signInceptionAuthToken _ _ _ _ _).bind fun _ => (controlPlaneClient _).bind fun _ =>
      (ask_calls trivial).bind fun answer => ?_
    cases answer <;> trivial

/-! ## Objects and waiting -/

theorem waitForDeploymentsReady (ds : List DeploymentIdentity) :
    Op.Asks (FluidBG.waitForDeploymentsReady ds) :=
  (Op.Reads.waitForDeploymentsReady ds).asks

theorem refuseForeign (name : String) (expected : Labels) (existing : Option Labels) :
    Op.Asks (FluidBG.refuseForeign name expected existing) :=
  (Op.Reads.refuseForeign name expected existing).asks

theorem requireTestName (bgd : BlueGreenDeployment) (kind ns logical runtime : String)
    (expected : Labels) (existing : Option Labels) :
    Op.Asks (FluidBG.requireTestName bgd kind ns logical runtime expected existing) := by
  unfold FluidBG.requireTestName
  split
  · trivial
  · split <;> trivial

theorem ensureTestNameAvailable (bgd : BlueGreenDeployment) (ns logical runtime : String)
    (expected : Labels) :
    Op.Asks (FluidBG.ensureTestNameAvailable bgd ns logical runtime expected) :=
  (getDeployment _ _).bind fun _ => (getOpt_calls _).bind fun _ =>
    (requireTestName _ _ _ _ _ _ _).bind fun _ => (getResource _ _ _).bind fun _ =>
      (getOpt_calls _).bind fun _ => requireTestName _ _ _ _ _ _ _

theorem waitForTestServicesReady (bgd : BlueGreenDeployment) (ns : String) :
    Op.Asks (FluidBG.waitForTestServicesReady bgd ns) := by
  unfold FluidBG.waitForTestServicesReady
  split
  · trivial
  · refine .retry (fun _ => (ask_calls trivial).bind fun r => ?_) trivial
    split
    · split
      · trivial
      · exact (sleep 1).bind fun _ => trivial
    · exact (sleep 1).bind fun _ => trivial

/-! ## Phases -/

theorem validateProgressiveShiftingSupport (bgd : BlueGreenDeployment) :
    Op.Asks (FluidBG.validateProgressiveShiftingSupport bgd) := by
  unfold FluidBG.validateProgressiveShiftingSupport
  split
  · trivial
  · split
    · refine Prog.Calls.bind (.forEach fun ip _ => askKube_calls trivial fun _ => lift_calls _)
        fun _ => ?_
      split <;> trivial
    · trivial

theorem prepareManager (ctx : Ctx) (bgd : BlueGreenDeployment) (ns : String) (ip : InceptionPoint)
    (plugin : InceptionPlugin) : Op.Asks (FluidBG.prepareManager ctx bgd ns ip plugin) := by
  refine (invokePluginManagerLifecycle _ _ _ _ _ _).bind fun r => ?_
  cases r with
  | none => trivial
  | some response => exact (lift_calls _).bind fun _ => trivial

theorem prepareInceptor (ctx : Ctx) (bgd : BlueGreenDeployment) (ns : String)
    (assignments : List PropertyAssignment) (plan : PreparedInceptionPoint) :
    Op.Asks (FluidBG.prepareInceptor ctx bgd ns assignments plan) := by
  refine (waitForDeploymentsReady _).bind fun _ =>
    (invokeInceptorLifecycle _ _ _ _ _ _).bind fun r => ?_
  cases r with
  | none => trivial
  | some response => exact (lift_calls _).bind fun _ => (lift_calls _).bind fun _ => trivial

theorem activateInceptor (ctx : Ctx) (bgd : BlueGreenDeployment) (ns : String)
    (plan : PreparedInceptionPoint) : Op.Asks (FluidBG.activateInceptor ctx bgd ns plan) := by
  refine (invokeInceptorLifecycle _ _ _ _ _ _).bind fun r => ?_
  cases r with
  | none => trivial
  | some response => exact (lift_calls _).bind fun _ => lift_calls _

theorem loadRolloutSpecSnapshot (ctx : Ctx) (bgd : BlueGreenDeployment) (ns : String) :
    Op.Asks (FluidBG.loadRolloutSpecSnapshot ctx bgd ns) := by
  refine (getResource _ _ _).bind fun r => ?_
  cases r with
  | error e => trivial
  | ok snapshot => exact (lift_calls _).bind fun _ => trivial

theorem forceReplaceBgd (ctx : Ctx) (bgd : BlueGreenDeployment) (ns : String) :
    Op.Asks (FluidBG.forceReplaceBgd ctx bgd ns) := by
  refine (loadRolloutSpecSnapshot _ _ _).result.bind fun r => ?_
  cases r <;> trivial

theorem drainStart (bgd : BlueGreenDeployment) : Op.Asks (FluidBG.drainStart bgd) := by
  unfold FluidBG.drainStart
  split
  · trivial
  · exact now

theorem drainStatusOf (ctx : Ctx) (bgd : BlueGreenDeployment) (ns : String) (ip : InceptionPoint) :
    Op.Asks (FluidBG.drainStatusOf ctx bgd ns ip) := by
  refine askKube_calls trivial fun plugin =>
    (invokeInceptorDrainStatus _ _ _ _ _).bind fun r => ?_
  cases r with
  | none => exact now.bind fun _ => trivial
  | some status =>
    dsimp only
    split
    · exact now.bind fun _ => trivial
    · trivial

/-- A turn of the drain loop leaves everything alone, but may mark its own failure. -/
theorem reconcileDrain_calls (ctx : Ctx) (bgd : BlueGreenDeployment) (ns : String) (elapsed : Int)
    (statuses : List InceptionPointDrainStatus) (ip : InceptionPoint) :
    (FluidBG.reconcileDrain ctx bgd ns elapsed statuses ip).Calls fun c =>
      c.Asks ∨ c = .note (.drainStatusFailed bgd ip) := by
  have hasks {α : Type} {p : Op α} (h : Op.Asks p) : p.Calls fun c =>
      c.Asks ∨ c = .note (.drainStatusFailed bgd ip) := h.mono fun _ => .inl
  unfold FluidBG.reconcileDrain
  split
  · trivial
  · split
    · exact hasks (now.bind fun _ => trivial)
    · refine (hasks (drainStatusOf ctx bgd ns ip).result).bind fun r => ?_
      cases r with
      | ok status => trivial
      | error e => exact (ask_calls (.inr rfl)).bind fun _ => trivial

theorem cleanupPlugin (ctx : Ctx) (bgd : BlueGreenDeployment) (ns : String) (ip : InceptionPoint) :
    Op.Asks (FluidBG.cleanupPlugin ctx bgd ns ip) :=
  askKube_calls trivial fun _ => (invokeInceptorLifecycle _ _ _ _ _ _).bind fun _ =>
    (invokePluginManagerLifecycle _ _ _ _ _ _).bind fun _ => trivial

end Op.Asks

/-! ## Code that takes down -/

namespace Op.Teardown

theorem deleteResource (kind : Kind) (ns name : String) :
    Op.Teardown (FluidBG.deleteResource kind ns name) := by
  refine (ask_calls trivial).bind fun r => ?_
  rcases r with e | _
  · cases e <;> trivial
  · trivial

theorem deleteDeployment (ns name : String) : Op.Teardown (FluidBG.deleteDeployment ns name) := by
  refine (ask_calls trivial).bind fun r => ?_
  rcases r with e | _
  · cases e <;> trivial
  · trivial

theorem checkLabelledGone (ns : String) (selector : LabelSelector) :
    Op.Teardown (FluidBG.checkLabelledGone ns selector) := by
  have hcount : Op.Teardown (countLabelled ns selector) :=
    askKube_calls trivial fun _ => askKube_calls trivial fun _ =>
      askKube_calls trivial fun _ => askKube_calls trivial fun _ =>
        askKube_calls trivial fun _ => trivial
  refine hcount.bind fun n => ?_
  split
  · trivial
  · exact (ask_calls trivial).bind fun _ => trivial

theorem waitForTestResourcesDeleted (bgd : BlueGreenDeployment) (ns : String) :
    Op.Teardown (FluidBG.waitForTestResourcesDeleted bgd ns) := by
  unfold FluidBG.waitForTestResourcesDeleted
  split
  · trivial
  · refine Prog.Calls.bind (.retry (fun _ => ?_) trivial) fun _ => ?_
    · refine Prog.Calls.bind (p := testResourcesExist _ _) ?_ fun e => ?_
      · exact (ask_calls trivial).bind fun _ => (getOpt_calls _).bind fun _ =>
          (ask_calls trivial).bind fun _ => (getOpt_calls _).bind fun _ => trivial
      · split
        split
        · trivial
        · exact (ask_calls trivial).bind fun _ => trivial
    · refine (ask_calls trivial).bind fun _ => (getOpt_calls _).bind fun d => ?_
      split
      · trivial
      · refine (ask_calls trivial).bind fun _ => (getOpt_calls _).bind fun s => ?_
        split <;> trivial

theorem cleanupTestResources (bgd : BlueGreenDeployment) (ns : String) :
    Op.Teardown (FluidBG.cleanupTestResources bgd ns) := by
  have hwait := waitForTestResourcesDeleted bgd ns
  unfold FluidBG.cleanupTestResources
  split
  · exact (deleteDeployment _ _).bind fun _ => (deleteResource _ _ _).bind fun _ =>
      (deleteResource _ _ _).bind fun _ => hwait
  · exact hwait

theorem cleanupInceptionResources (bgd : BlueGreenDeployment) (ns : String) :
    Op.Teardown (FluidBG.cleanupInceptionResources bgd ns) :=
  Prog.Calls.bind (.forEach fun _ _ => (deleteDeployment _ _).bind fun _ =>
    (deleteResource _ _ _).bind fun _ =>
      (deleteResource _ _ _).bind fun _ => deleteResource _ _ _) fun _ =>
    .retry (fun _ => checkLabelledGone _ _) trivial

end Op.Teardown

/-! ## Code that changes and deletes -/

namespace Op.Patches

theorem resolveCurrentGreen (ns : String) (selector : DeploymentSelector) :
    Op.Patches (FluidBG.resolveCurrentGreen ns selector) := by
  unfold FluidBG.resolveCurrentGreen
  split
  · trivial
  · refine askKube_calls trivial fun ds => ?_
    split
    · trivial
    · refine askKube_calls trivial fun family => ?_
      split
      · exact (lift_calls _).bind fun _ => askKube_calls trivial fun _ => trivial
      · trivial
      · trivial
    · trivial

theorem patchTargetedDeploymentEnv (ns name : String) (container : Option String)
    (env : List (String × String)) (ignoreMissing : Bool) :
    Op.Patches (FluidBG.patchTargetedDeploymentEnv ns name container env ignoreMissing) := by
  refine (ask_calls trivial).bind fun r => ?_
  rcases r with e | d
  · cases e with
    | notFound _ => cases ignoreMissing <;> trivial
    | _ => trivial
  · exact (lift_calls _).bind fun _ => askKube_calls trivial fun _ => trivial

theorem applyAssignments (bgd : BlueGreenDeployment) (ns : String)
    (assignments : List PropertyAssignment) (ignoreMissing : Bool) :
    Op.Patches (FluidBG.applyAssignments bgd ns assignments ignoreMissing) := by
  have hgreen : Op.Patches (greenForAssignments bgd ns assignments) := by
    unfold greenForAssignments
    split
    · exact (resolveCurrentGreen _ _).bind fun _ => trivial
    · trivial
  exact hgreen.bind fun _ => Prog.Calls.bind
    (.forEach fun _ _ => patchTargetedDeploymentEnv _ _ _ _ _) fun _ => trivial

end Op.Patches

namespace Op.Rewires

theorem resolveCurrentGreen (ns : String) (selector : DeploymentSelector) :
    Op.Rewires (FluidBG.resolveCurrentGreen ns selector) :=
  (Op.Patches.resolveCurrentGreen ns selector).rewires

theorem applyAssignments (bgd : BlueGreenDeployment) (ns : String)
    (assignments : List PropertyAssignment) (ignoreMissing : Bool) :
    Op.Rewires (FluidBG.applyAssignments bgd ns assignments ignoreMissing) :=
  (Op.Patches.applyAssignments bgd ns assignments ignoreMissing).rewires

theorem cleanupRollout (bgd : BlueGreenDeployment) (ns stateKey : String) :
    Op.Rewires (FluidBG.cleanupRollout bgd ns stateKey) :=
  (Op.Teardown.cleanupInceptionResources _ _).rewires.bind fun _ =>
    (Op.Teardown.cleanupTestResources _ _).rewires.bind fun _ =>
    (Op.Teardown.deleteResource _ _ _).rewires.bind fun _ => (ask_calls (.inr trivial)).bind fun _ =>
      (stateStore_calls _).bind fun _ => trivial

theorem startPluginDraining (ctx : Ctx) (bgd : BlueGreenDeployment) (ns : String)
    (targets : List AssignmentTarget) :
    Op.Rewires (FluidBG.startPluginDraining ctx bgd ns targets) := by
  refine .forEach fun ip _ => askKube_calls (.inl trivial) fun plugin =>
    (Op.Asks.invokeInceptorLifecycle _ _ _ _ _ _).rewires.bind fun response => ?_
  dsimp only
  split
  · trivial
  · exact (applyAssignments _ _ _ _).bind fun _ => (Op.Asks.waitForDeploymentsReady _).rewires

theorem deleteCurrentGreen (ns : String) (candidate green : DeploymentRef) :
    Op.Rewires (FluidBG.deleteCurrentGreen ns candidate green) := by
  unfold FluidBG.deleteCurrentGreen
  dsimp only
  split
  · trivial
  · exact (Op.Teardown.deleteDeployment _ _).rewires

theorem resolvePreviousGreenForPromotion (ns : String) (selector : DeploymentSelector)
    (candidate : DeploymentRef) :
    Op.Rewires (FluidBG.resolvePreviousGreenForPromotion ns selector candidate) := by
  unfold FluidBG.resolvePreviousGreenForPromotion
  split
  · trivial
  · exact askKube_calls (.inl trivial) fun _ => lift_calls _

end Op.Rewires

/-! ## Code that shifts traffic -/

namespace Op.Passive

theorem invokeInceptorTrafficShift (ctx : Ctx) (ref ns ip : String) (plugin : InceptionPlugin)
    (percent : Nat) :
    Op.Passive (FluidBG.invokeInceptorTrafficShift ctx ref ns ip plugin percent) :=
  (Op.Asks.controlPlaneClient _).passive.bind fun _ =>
    (Op.Asks.signInceptionAuthToken _ _ _ _ _).passive.bind fun _ =>
      withRetries_calls (ask_calls ⟨id, id, id⟩) ⟨id, id, id⟩

theorem applySplitterTrafficPercent (ctx : Ctx) (bgd : BlueGreenDeployment) (ns : String)
    (percent : Int) : Op.Passive (FluidBG.applySplitterTrafficPercent ctx bgd ns percent) :=
  .forEach fun _ _ => askKube_calls ⟨id, id, id⟩ fun _ => invokeInceptorTrafficShift _ _ _ _ _ _

end Op.Passive

/-! ## Code that creates -/

namespace Op.Work

theorem applyResource (kind : Kind) (ns name : String) (r : Resource) :
    Op.Work (FluidBG.applyResource kind ns name r) := by
  have happly : ∀ _ : Unit, Op.Work (do
      let _ ← Op.kube (← Op.ask (.applyResource kind ns name r))
      (pure () : Op Unit)) := fun _ => askKube_calls id fun _ => trivial
  unfold FluidBG.applyResource
  split
  · exact (ask_calls id).bind fun _ => (getOpt_calls _).bind fun _ =>
      (Op.Asks.refuseForeign _ _ _).work.bind fun _ => happly ()
  · exact happly ()

theorem ensureVerifierAuthSecret (bgd : BlueGreenDeployment) (ns tokensJson : String) :
    Op.Work (FluidBG.ensureVerifierAuthSecret bgd ns tokensJson) :=
  (applyResource _ _ _ _).bind fun _ => trivial

theorem extraTestEnv (ctx : Ctx) (bgd : BlueGreenDeployment) (ns : String) (tokens : Labels) :
    Op.Work (FluidBG.extraTestEnv ctx bgd ns tokens) := by
  unfold FluidBG.extraTestEnv
  split
  · trivial
  · split
    · trivial
    · rename_i tokensJson htokens
      have hsecret := ensureVerifierAuthSecret bgd ns tokensJson
      generalize FluidBG.ensureVerifierAuthSecret bgd ns tokensJson = ensured at hsecret ⊢
      exact hsecret.bind fun _ => trivial

theorem ensureRolloutSpecSnapshot (ctx : Ctx) (bgd : BlueGreenDeployment) (ns : String) :
    Op.Work (FluidBG.ensureRolloutSpecSnapshot ctx bgd ns) := by
  unfold FluidBG.ensureRolloutSpecSnapshot
  split
  · trivial
  · exact applyResource _ _ _ _

theorem applyDeploymentResource (ns name : String) (d : Deployment) :
    Op.Work (FluidBG.applyDeploymentResource ns name d) := by
  have happly : ∀ _ : Unit, Op.Work (do
      let _ ← Op.kube (← Op.ask (.applyDeployment ns name d))
      (pure () : Op Unit)) := fun _ => askKube_calls id fun _ => trivial
  unfold FluidBG.applyDeploymentResource
  split
  · exact (ask_calls id).bind fun _ => (getOpt_calls _).bind fun _ =>
      (Op.Asks.refuseForeign _ _ _).work.bind fun _ => happly ()
  · exact happly ()

theorem applyDeploymentManifest (ctx : Ctx) (bgd : BlueGreenDeployment) (ns : String)
    (spec : ManagedDeploymentSpec) (labels : Labels) (isGreen : Bool)
    (assignments : List PropertyAssignment) :
    Op.Work (FluidBG.applyDeploymentManifest ctx bgd ns spec labels isGreen assignments) := by
  refine (lift_calls _).bind fun d => (ask_calls id).bind fun r => ?_
  rcases r with e | existing
  · cases e with
    | notFound _ => exact askKube_calls id fun _ => trivial
    | _ => trivial
  · exact askKube_calls id fun _ => trivial

theorem ensureDeclaredDeployments (ctx : Ctx) (bgd : BlueGreenDeployment) (ns : String)
    (assignments : List PropertyAssignment) :
    Op.Work (FluidBG.ensureDeclaredDeployments ctx bgd ns assignments) :=
  (applyDeploymentManifest _ _ _ _ _ _ _).bind fun _ => trivial

theorem ensureTestResources (bgd : BlueGreenDeployment) (ns : String)
    (assignments : List PropertyAssignment) (extraEnv : List EnvVar) :
    Op.Work (FluidBG.ensureTestResources bgd ns assignments extraEnv) := by
  have hservice (testName : String) (service : Resource) : Op.Work (do
      FluidBG.applyResource .service ns testName service
      pure [(⟨ns, testName⟩ : DeploymentIdentity)]) :=
    (applyResource _ _ _ _).bind fun _ => trivial
  unfold FluidBG.ensureTestResources
  split
  · trivial
  · rename_i test htest
    have hfree := (Op.Asks.ensureTestNameAvailable bgd ns test.name (testInstanceName bgd test.name)
      (testLabels bgd test.name (testInstanceName bgd test.name))).work
    dsimp only
    -- the name and the labels are only passed on
    generalize testInstanceName bgd test.name = testName at hfree ⊢
    generalize testLabels bgd test.name testName = labels at hfree ⊢
    exact hfree.bind fun _ => (lift_calls _).bind fun _ =>
      (applyDeploymentResource _ _ _).bind fun _ => (lift_calls _).bind fun _ => hservice _ _

theorem bootstrapInitialGreenIfEmpty (ctx : Ctx) (bgd : BlueGreenDeployment) (ns : String) :
    Op.Work (FluidBG.bootstrapInitialGreenIfEmpty ctx bgd ns) := by
  unfold FluidBG.bootstrapInitialGreenIfEmpty
  split
  · trivial
  · refine askKube_calls id fun family => ?_
    split
    · trivial
    · exact (applyDeploymentManifest _ _ _ _ _ _ _).bind fun _ => trivial

theorem prepareInceptionPoint (ctx : Ctx) (bgd : BlueGreenDeployment) (ns testUrl : String)
    (acc : Preparation) (ip : InceptionPoint) :
    Op.Work (FluidBG.prepareInceptionPoint ctx bgd ns testUrl acc ip) := by
  have happly (resources : ReconciledResources) : Op.Work (applyInceptorResources ns resources) :=
    Prog.Calls.bind (.forEach fun _ _ => applyResource _ _ _ _) fun _ =>
      Prog.Calls.bind (.forEach fun _ _ => applyResource _ _ _ _) fun _ =>
        Prog.Calls.bind (.forEach fun _ _ => applyDeploymentResource _ _ _) fun _ =>
          Prog.Calls.bind (.forEach fun _ _ => applyResource _ _ _ _) fun _ =>
            trivial
  exact askKube_calls id fun _ => (lift_calls _).bind fun _ =>
    (Op.Asks.prepareManager _ _ _ _ _).work.bind fun _ =>
      (Op.Asks.signInceptionAuthToken _ _ _ _ _).work.bind fun _ => (lift_calls _).bind fun _ =>
        (happly _).bind fun _ => trivial

theorem ensureInceptionResources (ctx : Ctx) (bgd : BlueGreenDeployment) (ns : String) :
    Op.Work (FluidBG.ensureInceptionResources ctx bgd ns) := by
  have hpre (assignments : List PropertyAssignment) :
      Op.Work (applyPreActivation bgd ns assignments) := by
    unfold applyPreActivation
    split
    · trivial
    · exact (Op.Rewires.applyAssignments _ _ _ _).upkeep.work.bind fun _ => (Op.Asks.waitForDeploymentsReady _).work
  exact (lift_calls _).bind fun _ =>
    Prog.Calls.bind (.foldEach fun _ _ _ => prepareInceptionPoint _ _ _ _ _ _) fun _ =>
      Prog.Calls.bind (.foldEach fun _ _ _ => (Op.Asks.prepareInceptor _ _ _ _ _).work)
        fun _ => (extraTestEnv _ _ _ _).bind fun _ =>
          (ensureDeclaredDeployments _ _ _ _).bind fun _ =>
            (ensureTestResources _ _ _ _).bind fun _ =>
              (Op.Asks.waitForDeploymentsReady _).work.bind fun _ =>
                (Op.Asks.waitForTestServicesReady _ _).work.bind fun _ =>
                  (hpre _).bind fun _ => .forEach fun _ _ =>
                    (Op.Asks.activateInceptor _ _ _ _).work

end Op.Work

/-! ## What a call leaves alone -/

theorem World.respond_world {α : Type} {w w' : World} {o : Outcome} {r : Except KubeError α × World}
    {a : Except KubeError α} (h : w.respond o r = some (a, w')) : w' = w ∨ w' = r.2 := by
  cases o <;> simp [World.respond] at h
  · exact .inr (by rw [h])
  · exact .inl h.2.symm
  · exact .inr h.2.symm

end FluidBG
