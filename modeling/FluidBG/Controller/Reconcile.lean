import FluidBG.Controller.Phases
/-!
# The reconciler

`controller.rs`: one reconcile of a `BlueGreenDeployment`, the cleanup of a deleted one, the sweep
for orphans and the periodic sync of plugin managers. Leases are left out: losing the lease drops
the reconcile between two calls, which a run may do anyway.
-/

set_option autoImplicit false

namespace FluidBG

open Lib

def bgdFinalizer : String := "fluidbg.io/cleanup"

def hasFinalizer (bgd : BlueGreenDeployment) (finalizer : String) : Bool :=
  bgd.metadata.finalizers.any fun value => value = finalizer

def ensureFinalizer (bgd : BlueGreenDeployment) (ns : String) : Op Unit := do
  let _ ← Op.kube (← Op.ask (.patchFinalizers ns bgd.metadata.name [bgdFinalizer]))
  pure ()

def removeFinalizer (bgd : BlueGreenDeployment) (ns : String) : Op Unit := do
  let finalizers := bgd.metadata.finalizers.filter fun value => value ≠ bgdFinalizer
  let _ ← Op.kube (← Op.ask (.patchFinalizers ns bgd.metadata.name finalizers))
  pure ()

/-! ## What a reconcile decides first -/

def rolloutNeedsRestart (bgd : BlueGreenDeployment) (phase : BGDPhase) : Bool :=
  phase.IsTerminal && bgd.metadata.generation.getD 0 > bgd.observedGeneration.getD 0

def activeRolloutHasNewSpecGeneration (bgd : BlueGreenDeployment) (phase : BGDPhase) : Bool :=
  if phase = .completed ∨ phase = .rolledBack then false
  else
    let generation := bgd.metadata.generation.getD 0
    let rolloutGeneration := bgd.rolloutGeneration.getD 0
    rolloutGeneration > 0 && generation > rolloutGeneration

def forceReplaceActiveRollout (bgd : BlueGreenDeployment) : Bool :=
  bgd.spec.updatePolicy.bind (·.activeRollout) = some .forceReplace

def shouldStartForceReplaceRollout (bgd : BlueGreenDeployment) (phase : BGDPhase) : Bool :=
  forceReplaceActiveRollout bgd && activeRolloutHasNewSpecGeneration bgd phase &&
    phase ≠ .draining

/-! ## The snapshot of the rollout's spec -/

/-- The ConfigMap that keeps the spec a rollout started with. -/
def rolloutSpecSnapshot (bgd : BlueGreenDeployment) (ns specYaml : String) : Resource where
  kind := .configMap
  metadata := ObjectMeta.new (rolloutSpecSnapshotName bgd ns) ns
    (.ofList [("fluidbg.io/blue-green-ref", bgd.metadata.name),
      ("fluidbg.io/rollout-snapshot", "true")])
  data := .ofList [("generation", toString (currentRolloutGeneration bgd)),
    ("spec.yaml", specYaml)]
  service := none

def ensureRolloutSpecSnapshot (ctx : Ctx) (bgd : BlueGreenDeployment) (ns : String) : Op Unit :=
  match ctx.crates.specYaml bgd.spec with
  | .error err => .fail (.resource s!"failed to snapshot BGD spec: {err}")
  | .ok spec => applyResource .configMap ns (rolloutSpecSnapshotName bgd ns)
      (rolloutSpecSnapshot bgd ns spec)

/-- The object a deferred rollout goes on with: the live one with the snapshot's spec, whose
update policy the live one overrides when it asks for a forced replacement. -/
def frozenBgd (bgd : BlueGreenDeployment) (spec : BlueGreenDeploymentSpec) : BlueGreenDeployment :=
  { bgd with
    spec := if forceReplaceActiveRollout bgd then
      { spec with updatePolicy := bgd.spec.updatePolicy } else spec }

/-- The spec in the data of a snapshot. -/
def snapshotSpec (ctx : Ctx) (bgd : BlueGreenDeployment) (ns : String) (data : Labels) :
    Except ReconcileError BlueGreenDeploymentSpec :=
  let snapshotName := rolloutSpecSnapshotName bgd ns
  match data.get "spec.yaml" with
  | none => .error (.resource
      s!"BGD '{bgd.metadata.name}' rollout spec snapshot '{snapshotName}' is missing spec.yaml")
  | some specYaml => match ctx.crates.specOfYaml specYaml with
    | .ok spec => .ok spec
    | .error err => .error (.resource
        s!"BGD '{bgd.metadata.name}' rollout spec snapshot '{snapshotName}' could not be parsed: {err}")

def loadRolloutSpecSnapshot (ctx : Ctx) (bgd : BlueGreenDeployment) (ns : String) :
    Op BlueGreenDeployment := do
  let snapshotName := rolloutSpecSnapshotName bgd ns
  match ← Op.ask (.getResource .configMap ns snapshotName) with
  | .error err => .fail (.resource
      s!"BGD '{bgd.metadata.name}' was updated during an active rollout, but rollout spec snapshot '{snapshotName}' could not be loaded: {err.text}")
  | .ok snapshot =>
    let spec ← Op.lift (snapshotSpec ctx bgd ns snapshot.data)
    pure (frozenBgd bgd spec)

def deleteRolloutSpecSnapshot (bgd : BlueGreenDeployment) (ns : String) : Op Unit :=
  deleteResource .configMap ns (rolloutSpecSnapshotName bgd ns)

/-- The two writes that follow the entry of a drain. -/
def startDrain (bgd : BlueGreenDeployment) (ns : String) : Op Unit := do
  updateStatusPhase bgd ns .draining
  updateDrainStartedAt bgd ns

/-! ## Force replace -/

/-- The object a forced replacement drains: the snapshot's, or the live one when the snapshot
cannot be loaded. -/
def forceReplaceBgd (ctx : Ctx) (bgd : BlueGreenDeployment) (ns : String) :
    Op BlueGreenDeployment := do
  match ← (loadRolloutSpecSnapshot ctx bgd ns).result with
  | .ok rolloutBgd => pure rolloutBgd
  | .error (_ : ReconcileError) => pure bgd

def startForceReplaceRollout (ctx : Ctx) (bgd : BlueGreenDeployment) (ns : String) : Op Unit := do
  let rolloutBgd ← forceReplaceBgd ctx bgd ns
  beginDrainingAfterRollback ctx rolloutBgd ns
  startDrain rolloutBgd ns

/-! ## The phases -/

/-- The objects and records of a finished rollout. -/
def cleanupRollout (bgd : BlueGreenDeployment) (ns stateKey : String) : Op Unit := do
  cleanupInceptionResources bgd ns
  cleanupTestResources bgd ns
  deleteRolloutSpecSnapshot bgd ns
  let _ ← Op.stateStore (← Op.ask (.cleanupBlueGreen stateKey))
  pure ()

/-- `rollout_needs_restart`: clean up and start over. -/
def restartRollout (bgd : BlueGreenDeployment) (ns stateKey : String) : Op Unit := do
  cleanupRollout bgd ns stateKey
  resetStatusForNewRollout bgd ns

/-- The Pending arm after the candidate has its name. -/
def startRollout (ctx : Ctx) (bgd : BlueGreenDeployment) (ns : String) : Op Unit := do
  if ← bootstrapInitialGreenIfEmpty ctx bgd ns then
    updateStatusPhase bgd ns .completed
  else
    let _ ← resolveCurrentGreen ns bgd.spec.selector
    validateProgressiveShiftingSupport bgd
    ensureInceptionResources ctx bgd ns
    initializeSplitterTraffic ctx bgd ns
    updateStatusPhase bgd ns .observing

def reconcilePending (ctx : Ctx) (bgd : BlueGreenDeployment) (ns : String) : Op Unit := do
  ensureRolloutGeneration bgd ns
  ensureRolloutSpecSnapshot ctx bgd ns
  match ← ensureGeneratedCandidateName bgd ns with
  | none => pure ()
  | some _ => startRollout ctx bgd ns

/-- What the Observing arm does with a decision. -/
def performAction (ctx : Ctx) (bgd : BlueGreenDeployment) (ns : String) :
    PromotionAction → Op Unit
  | .continueObserving => pure ()
  | .promote => updateStatusPhase bgd ns .promoting
  | .rollback => do
    beginDrainingAfterRollback ctx bgd ns
    startDrain bgd ns
  | .advanceStep step trafficPercent => do
    applySplitterTrafficPercent ctx bgd ns trafficPercent
    updateStatusProgress bgd ns step trafficPercent

def reconcileObserving (ctx : Ctx) (bgd : BlueGreenDeployment) (ns stateKey : String) :
    Op Unit := do
  Op.lift (validateTestConfiguration bgd)
  let counts ← Op.stateStore (← Op.ask (.counts stateKey))
  let dataCounts ← Op.stateStore (← Op.ask (.countsForMode stateKey .data))
  let customCounts ← Op.stateStore (← Op.ask (.countsForMode stateKey .custom))
  let latestFailureMessage ← Op.stateStore (← Op.ask (.latestFailureMessage stateKey))
  updateStatusCounts bgd ns counts (rateOf counts.passed counts.total) latestFailureMessage
  Op.note (.decide bgd dataCounts customCounts)
  let action ← Op.lift (decidePromotionAction bgd dataCounts customCounts bgd.currentStep)
  performAction ctx bgd ns action

def reconcilePromoting (ctx : Ctx) (bgd : BlueGreenDeployment) (ns : String) : Op Unit := do
  let previousGreen ← promote ctx bgd ns
  beginDrainingAfterPromotion ctx bgd ns previousGreen
  startDrain bgd ns

def reconcilePhase (ctx : Ctx) (bgd : BlueGreenDeployment) (ns stateKey : String) :
    BGDPhase → Op Unit
  | .pending => reconcilePending ctx bgd ns
  | .observing => reconcileObserving ctx bgd ns stateKey
  | .promoting => reconcilePromoting ctx bgd ns
  | .draining => reconcileDraining ctx bgd ns stateKey
  | .completed => cleanupRollout bgd ns stateKey
  | .rolledBack => cleanupRollout bgd ns stateKey
  | .invalid => cleanupRollout bgd ns stateKey

/-! ## One reconcile -/

def cleanupDeletedBgd (bgd : BlueGreenDeployment) : Op Unit := do
  let ns := bgd.metadata.ns
  cleanupRollout bgd ns (blueGreenStateKey ns bgd.metadata.name)
  removeFinalizer bgd ns

/-- The object the phases run on: the live one, or the frozen one of a deferred rollout. -/
def rolloutBgd (ctx : Ctx) (bgd : BlueGreenDeployment) (ns : String) (phase : BGDPhase) :
    Op BlueGreenDeployment := do
  if activeRolloutHasNewSpecGeneration bgd phase then
    if !forceReplaceActiveRollout bgd then
      updateStatusUpdateDeferred bgd ns
    loadRolloutSpecSnapshot ctx bgd ns
  else pure bgd

def reconcileLocked (ctx : Ctx) (bgd : BlueGreenDeployment) : Op Unit := do
  Op.note (.reconcile bgd)
  let ns := bgd.metadata.ns
  let stateKey := blueGreenStateKey ns bgd.metadata.name
  let phase := bgd.phase.getD .pending
  if bgd.metadata.deletionTimestamp.isSome then cleanupDeletedBgd bgd
  else if !hasFinalizer bgd bgdFinalizer then ensureFinalizer bgd ns
  else if rolloutNeedsRestart bgd phase then restartRollout bgd ns stateKey
  else if shouldStartForceReplaceRollout bgd phase then startForceReplaceRollout ctx bgd ns
  else
    let bgd ← rolloutBgd ctx bgd ns phase
    reconcilePhase ctx bgd ns stateKey phase

def publishReconcileErrorStatus (bgd : BlueGreenDeployment) (ns : String)
    (error : ReconcileError) : Op Unit :=
  if error.isTerminalForGeneration then
    updateStatusInvalid bgd ns error.diagnosticReason error.text
  else updateStatusReconcileFailure bgd ns error.diagnosticReason error.text

/-- Run `work`; an error is published on the object the reconcile was called with, and returned. -/
def publishingErrors (bgd : BlueGreenDeployment) (work : Op Unit) : Op Unit := do
  match ← work.result with
  | .ok () => pure ()
  | .error error =>
    Op.note (.reconcileFailed error)
    publishReconcileErrorStatus bgd bgd.metadata.ns error
    .fail error

/-- Read the object again and continue with it; a missing one needs no work. -/
def withLatest (bgd : BlueGreenDeployment) (work : BlueGreenDeployment → Op Unit) : Op Unit := do
  match ← Op.ask (.getBgd bgd.metadata.ns bgd.metadata.name) with
  | .ok latest => work latest
  | .error (.notFound _) => pure ()
  | .error e => .fail (.k8s e)

/-- `reconcile`: the controller calls it with the object of its cache. -/
def reconcile (ctx : Ctx) (bgd : BlueGreenDeployment) : Op Unit := do
  Op.note .called
  if bgd.metadata.deletionTimestamp.isSome then
    publishingErrors bgd (withLatest bgd cleanupDeletedBgd)
  else publishingErrors bgd (withLatest bgd (reconcileLocked ctx))

/-! ## The sweep for orphans -/

/-- `key.split_once('/')`. -/
def splitOnce (key : String) : Option (String × String) :=
  let cs := key.toList
  let head := cs.takeWhile (· ≠ '/')
  match cs.drop head.length with
  | _ :: rest => some (String.ofList head, String.ofList rest)
  | [] => none

def splitBlueGreenStateKey (key : String) : Except ReconcileError (String × String) :=
  match splitOnce key with
  | some parts => .ok parts
  | none => .error (.resource s!"state key '{key}' is not namespace-qualified")

def existingBlueGreenKeys : Op (OrdMap String Unit) := do
  let bgds ← Op.kube (← Op.ask .listBgds)
  pure (.ofList (bgds.map fun bgd => (blueGreenStateKey bgd.metadata.ns bgd.metadata.name, ())))

def cleanupSingleOrphanedBlueGreenRef (blueGreenKey : String) : Op Unit := do
  Op.note (.orphan blueGreenKey)
  let (ns, blueGreenRef) ← Op.lift (splitBlueGreenStateKey blueGreenKey)
  cleanupOrphanedBlueGreenResources ns blueGreenRef
  let _ ← Op.stateStore (← Op.ask (.cleanupBlueGreen blueGreenKey))
  pure ()

/-- The references the sweep looks at: the store's and the objects'. -/
def collectOrphanCandidates : Op (OrdMap String Unit) := do
  let refs ← Op.stateStore (← Op.ask .listBlueGreenRefs)
  let owned ← blueGreenRefsFromOwnedResourcesAll
  pure ((OrdMap.ofList (refs.map fun r => (r, ()))).insertAll owned.entries)

/-- `cleanup_orphaned_blue_green_refs`, each key under its own lease. -/
def cleanupOrphanedBlueGreenRefs : Op Unit := do
  let existing ← existingBlueGreenKeys
  let refs ← collectOrphanCandidates
  Prog.forEach refs.keys fun blueGreenRef =>
    if (existing.get blueGreenRef).isSome then pure ()
    else cleanupSingleOrphanedBlueGreenRef blueGreenRef

/-! ## The sync of plugin managers -/

def syncPluginManagers (ctx : Ctx) : Op Unit := do
  let plugins ← Op.kube (← Op.ask .listPlugins)
  Prog.forEach plugins (invokePluginManagerSync ctx)

end FluidBG
