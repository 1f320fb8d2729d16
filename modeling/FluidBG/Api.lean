import FluidBG.Inceptor
import FluidBG.Promotion
import FluidBG.Lib.Prog
/-!
# The calls of the operator

Everything the operator does to something outside its process is one of the calls below: requests
to the API server, to the state store and to plugins, reading the clock, and sleeping. `Op` is the
type of the operator's code: a program over these calls that may end in a `ReconcileError`.

`note` marks a point the code has reached. It stands where the source has no call, nothing answers
to it and the outside does not react; it is there so that statements about runs can name the point.
-/

set_option autoImplicit false

namespace FluidBG

open Lib

/-- A label selector: equalities, and keys that have to be present. -/
structure LabelSelector where
  equals : Labels
  present : List String
  deriving DecidableEq

def LabelSelector.ofLabels (labels : Labels) : LabelSelector := ⟨labels, []⟩

def LabelSelector.Matches (sel : LabelSelector) (labels : Labels) : Prop :=
  labels.Covers sel.equals ∧ ∀ key ∈ sel.present, labels.get key ≠ none

instance (sel : LabelSelector) (labels : Labels) : Decidable (sel.Matches labels) :=
  inferInstanceAs (Decidable (_ ∧ _))

@[simp] theorem LabelSelector.ofLabels_matches (sel labels : Labels) :
    (LabelSelector.ofLabels sel).Matches labels ↔ labels.Covers sel := by
  simp [LabelSelector.ofLabels, LabelSelector.Matches]

structure EndpointSubset where
  addresses : List String
  ports : List Int
  deriving DecidableEq

/-- The merge patches the operator sends to `status`, one for each function that sends one. -/
inductive StatusPatch where
  | rolloutGeneration (generation : Int)
  | reset (generation : Int) (conditions : List BlueGreenDeploymentCondition)
  | invalid (generation : Int) (conditions : List BlueGreenDeploymentCondition)
  | drainStartedAt (time : Timestamp)
  | inceptionPointDrains (statuses : List InceptionPointDrainStatus)
  | generatedDeploymentName (name : String)
  | caseCounts (counts : Counts) (successRate : Rat) (lastFailureMessage : Option String)
  | progress (step trafficPercent : Int)
  deriving DecidableEq

/-- Merging a patch into the status. -/
def StatusPatch.apply (status : BlueGreenDeploymentStatus) :
    StatusPatch → BlueGreenDeploymentStatus
  | .rolloutGeneration generation => { status with rolloutGeneration := some generation }
  | .reset generation conditions =>
    { status with
      phase := some .pending
      generatedDeploymentName := none
      currentStep := none
      currentTrafficPercent := none
      drainStartedAt := none
      inceptionPointDrains := []
      rolloutGeneration := some generation
      observedGeneration := some generation
      conditions := conditions }
  | .invalid generation conditions =>
    { status with
      phase := some .invalid
      observedGeneration := some generation
      conditions := conditions }
  | .drainStartedAt time => { status with drainStartedAt := some time }
  | .inceptionPointDrains statuses => { status with inceptionPointDrains := statuses }
  | .generatedDeploymentName name => { status with generatedDeploymentName := some name }
  | .caseCounts counts successRate lastFailureMessage =>
    { status with
      testCasesPassed := some counts.passed
      testCasesFailed := some counts.failed
      testCasesTimedOut := some counts.timedOut
      testCasesPending := some counts.pending
      testCasesObserved := some counts.total
      currentSuccessRate := some successRate
      lastFailureMessage := lastFailureMessage }
  | .progress step trafficPercent =>
    { status with
      currentStep := some step
      currentTrafficPercent := some trafficPercent }

/-- How a request to a plugin ends. -/
inductive HttpAnswer (α : Type) where
  /-- The request could not be sent, or no response came back. -/
  | sendError (text : String)
  /-- A response with an error status. -/
  | statusError (text : String)
  /-- A response whose body does not decode. -/
  | decodeError (text : String)
  | ok (value : α)

/-- `TestResultResponse`, what a verifier says about a case. -/
structure TestResultResponse where
  passed : Option Bool
  errorMessage : Option String

/-- How the poll of a verifier ends; the status of its response is not looked at. -/
inductive PollAnswer where
  /-- The request could not be sent, or no response came back. -/
  | sendError (text : String)
  /-- A response whose body does not decode. -/
  | unparsable
  | body (response : TestResultResponse)

/-- The way a drain was entered. -/
inductive DrainEntry where
  | promotion
  | rollback
  deriving DecidableEq, Repr

/-- The points of the controller that statements about runs refer to. -/
inductive Note where
  /-- `reconcile` is called. -/
  | called
  /-- `reconcile_locked` starts on this object. -/
  | reconcile (bgd : BlueGreenDeployment)
  /-- `decide_promotion_action` is called. -/
  | decide (bgd : BlueGreenDeployment) (dataCounts customCounts : Counts)
  /-- `promote` is called. -/
  | promote (bgd : BlueGreenDeployment)
  /-- `begin_draining_after_promotion` or `begin_draining_after_rollback` is called. -/
  | beginDraining (entry : DrainEntry) (bgd : BlueGreenDeployment)
  /-- `begin_draining_after_promotion` or `begin_draining_after_rollback` has returned. -/
  | drainStarted (entry : DrainEntry) (bgd : BlueGreenDeployment)
  /-- `finalize_draining` is called after the store counted the cases. -/
  | finalizeDraining (bgd : BlueGreenDeployment) (counts : Counts)
  /-- `reconcile_draining` measures from this start at this time. -/
  | drainMeasured (bgd : BlueGreenDeployment) (drainStartedAt now : Timestamp)
  /-- The loop of `reconcile_draining` could not learn how far this point is. -/
  | drainStatusFailed (bgd : BlueGreenDeployment) (ip : InceptionPoint)
  /-- The loop of `reconcile_draining` has gone through all points. -/
  | drainsAssessed (bgd : BlueGreenDeployment) (statuses : List InceptionPointDrainStatus)
  /-- `publish_reconcile_error_status` is called. -/
  | reconcileFailed (error : ReconcileError)
  /-- `cleanup_single_orphaned_blue_green_ref` is called. -/
  | orphan (blueGreenKey : String)

/-- A call of the operator. -/
inductive Call where
  | getBgd (ns name : String)
  | listBgds
  | replaceStatus (ns name : String) (bgd : BlueGreenDeployment)
  | patchStatus (ns name : String) (patch : StatusPatch)
  | patchFinalizers (ns name : String) (finalizers : List String)
  | getDeployment (ns name : String)
  | listDeployments (ns : String) (selector : LabelSelector)
  | createDeployment (ns : String) (deployment : Deployment)
  | replaceDeployment (ns name : String) (deployment : Deployment)
  | applyDeployment (ns name : String) (deployment : Deployment)
  | deleteDeployment (ns name : String)
  | getResource (kind : Kind) (ns name : String)
  | listResources (kind : Kind) (ns : String) (selector : LabelSelector)
  | applyResource (kind : Kind) (ns name : String) (resource : Resource)
  | deleteResource (kind : Kind) (ns name : String)
  | getEndpoints (ns name : String)
  | listNamespaces
  | getPlugin (name : String)
  | listPlugins
  | controlPlaneClient (tls : Option ControlPlaneTls)
  | postManager (url bearer : String) (request : PluginManagerLifecycleRequest)
  | postManagerSync (url bearer : String) (request : PluginManagerSyncRequest)
  | postInceptor (url bearer : String)
  | getDrainStatus (url bearer : String)
  | postTraffic (url bearer : String) (trafficPercent : Nat)
  | counts (key : String)
  | countsForMode (key : String) (mode : VerificationMode)
  | latestFailureMessage (key : String)
  | cleanupBlueGreen (key : String)
  | listBlueGreenRefs
  | register (run : TestCaseRecord)
  | getCase (key testId : String)
  | listPending
  | setVerdict (key testId : String) (passed : Bool) (failureMessage : Option String)
  | markTimedOut (key testId : String)
  | decrementRetries (key testId : String)
  | pollVerifier (verifyUrl bearer : String)
  | now
  | sleep (seconds : Nat)
  | note (n : Note)

/-- The record a call registers. -/
def Call.registers : Call → Option TestCaseRecord
  | .register run => some run
  | _ => none

/-- What comes back from a call. The body of a manager response is `none` when it is JSON that
does not have the shape of a lifecycle response. -/
@[reducible] def Answer : Call → Type
  | .getBgd _ _ => Except KubeError BlueGreenDeployment
  | .listBgds => Except KubeError (List BlueGreenDeployment)
  | .replaceStatus _ _ _ => Except KubeError Unit
  | .patchStatus _ _ _ => Except KubeError Unit
  | .patchFinalizers _ _ _ => Except KubeError Unit
  | .getDeployment _ _ => Except KubeError Deployment
  | .listDeployments _ _ => Except KubeError (List Deployment)
  | .createDeployment _ _ => Except KubeError Unit
  | .replaceDeployment _ _ _ => Except KubeError Unit
  | .applyDeployment _ _ _ => Except KubeError Unit
  | .deleteDeployment _ _ => Except KubeError Unit
  | .getResource _ _ _ => Except KubeError Resource
  | .listResources _ _ _ => Except KubeError (List Resource)
  | .applyResource _ _ _ _ => Except KubeError Unit
  | .deleteResource _ _ _ => Except KubeError Unit
  | .getEndpoints _ _ => Except KubeError (List EndpointSubset)
  | .listNamespaces => Except KubeError (List String)
  | .getPlugin _ => Except KubeError InceptionPlugin
  | .listPlugins => Except KubeError (List InceptionPlugin)
  | .controlPlaneClient _ => Except String Unit
  | .postManager _ _ _ => HttpAnswer (Option PluginLifecycleResponse)
  | .postManagerSync _ _ _ => HttpAnswer Unit
  | .postInceptor _ _ => HttpAnswer PluginLifecycleResponse
  | .getDrainStatus _ _ => HttpAnswer PluginDrainStatusResponse
  | .postTraffic _ _ _ => HttpAnswer Unit
  | .counts _ => Except StoreError Counts
  | .countsForMode _ _ => Except StoreError Counts
  | .latestFailureMessage _ => Except StoreError (Option String)
  | .cleanupBlueGreen _ => Except StoreError Nat
  | .listBlueGreenRefs => Except StoreError (List String)
  | .register _ => Except StoreError Unit
  | .getCase _ _ => Except StoreError (Option TestCaseRecord)
  | .listPending => Except StoreError (List TestCaseRecord)
  | .setVerdict _ _ _ _ => Except StoreError Unit
  | .markTimedOut _ _ => Except StoreError Unit
  | .decrementRetries _ _ => Except StoreError (Option Int)
  | .pollVerifier _ _ => PollAnswer
  | .now => Timestamp
  | .sleep _ => Unit
  | .note _ => Unit

/-- Operator code. -/
abbrev Op := Prog Call Answer ReconcileError

namespace Op

def ask (c : Call) : Op (Answer c) := Prog.ask c

/-- `?` on the answer of the API server. -/
def kube {α : Type} : Except KubeError α → Op α
  | .ok a => .pure a
  | .error e => .fail (.k8s e)

/-- `.map_err(|e| ReconcileError::StateStore(e.to_string()))?`. -/
def stateStore {α : Type} : Except StoreError α → Op α
  | .ok a => .pure a
  | .error e => .fail (.stateStore e.text)

/-- `?` on a computed value. -/
def lift {α : Type} (r : Except ReconcileError α) : Op α := Prog.ofExcept r

def note (n : Note) : Op Unit := Prog.ask (Call.note n)

end Op

/-! ## What a status patch leaves alone -/

namespace StatusPatch

/-- The patch writes `status.phase`. -/
def SetsPhase : StatusPatch → Prop
  | .reset _ _ => True
  | .invalid _ _ => True
  | _ => False

/-- The patch writes neither the phase nor the start of a drain. -/
def Minor : StatusPatch → Prop
  | .reset _ _ => False
  | .invalid _ _ => False
  | .drainStartedAt _ => False
  | _ => True

/-- The patch writes `status.currentStep`. -/
def SetsStep : StatusPatch → Prop
  | .reset _ _ => True
  | .progress _ _ => True
  | _ => False

theorem Minor.setsPhase {p : StatusPatch} (h : p.Minor) : ¬ p.SetsPhase := by
  cases p with
  | reset _ _ => exact absurd h id
  | invalid _ _ => exact absurd h id
  | _ => exact id

theorem Minor.apply_drainStartedAt {p : StatusPatch} (h : p.Minor)
    (status : BlueGreenDeploymentStatus) :
    (p.apply status).drainStartedAt = status.drainStartedAt := by
  cases p with
  | reset _ _ => exact absurd h id
  | drainStartedAt _ => exact absurd h id
  | _ => rfl

theorem apply_phase {p : StatusPatch} (h : ¬ p.SetsPhase) (status : BlueGreenDeploymentStatus) :
    (p.apply status).phase = status.phase := by
  cases p with
  | reset _ _ => exact absurd trivial h
  | invalid _ _ => exact absurd trivial h
  | _ => rfl

theorem apply_currentStep {p : StatusPatch} (h : ¬ p.SetsStep)
    (status : BlueGreenDeploymentStatus) : (p.apply status).currentStep = status.currentStep := by
  cases p with
  | reset _ _ | progress _ _ => exact absurd trivial h
  | _ => rfl

end StatusPatch

end FluidBG
