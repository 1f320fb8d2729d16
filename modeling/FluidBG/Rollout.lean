import FluidBG.Controller.Deployments
import FluidBG.Lib.Steps
import FluidBG.Lib.System
/-!
# Deployments while they roll out

What is behind the status that `deployment_is_ready` reads: the pods of a Deployment, each made from
some template, and the Deployment controller, which replaces the pods of older templates a few at a
time. The wiring of an application is part of its template, so a pod serves with the wiring it was
made with. A `Fleet` is the Deployments that an operator waits for.
-/

set_option autoImplicit false

namespace FluidBG

open Lib

structure Pod where
  template : PodTemplateSpec
  available : Bool
  deriving DecidableEq

/-- `maxSurge` and `maxUnavailable`, resolved to numbers of pods. -/
structure RollingUpdate where
  maxSurge : Nat
  maxUnavailable : Nat
  deriving DecidableEq

/-- A Deployment, its pods, and the generation for which its controller has computed the status. -/
structure Rollout where
  metadata : ObjectMeta
  generation : Int
  spec : DeploymentSpec
  strategy : RollingUpdate
  pods : List Pod
  observedGeneration : Int
  observedSpec : DeploymentSpec
  behind : observedGeneration ≤ generation
  same : observedGeneration = generation → observedSpec = spec

namespace Rollout

/-- `spec.replicas.unwrap_or(1).max(0)`. -/
def replicas (spec : DeploymentSpec) : Int := max (spec.replicas.getD 1) 0

def desired (r : Rollout) : Int := replicas r.spec

/-- The pods of a template. -/
def updated (template : PodTemplateSpec) (pods : List Pod) : Nat :=
  pods.countP fun pod => pod.template = template

/-- The available pods, of any template. -/
def available (pods : List Pod) : Nat := pods.countP (·.available)

/-- The available pods of the current template. -/
def currentAvailable (r : Rollout) : Nat :=
  r.pods.countP fun pod => pod.template = r.spec.template && pod.available

/-- The available pods of older templates. -/
def olderAvailable (r : Rollout) : Nat :=
  r.pods.countP fun pod => pod.template ≠ r.spec.template && pod.available

/-- What the controller writes into the status: the pods of the template it has observed, and the
available ones of all templates. -/
def status (r : Rollout) : DeploymentStatus where
  observedGeneration := some r.observedGeneration
  updatedReplicas := some (updated r.observedSpec.template r.pods)
  availableReplicas := some (available r.pods)

/-- The object that the API server hands out. -/
def deployment (r : Rollout) : Deployment where
  metadata := { r.metadata with generation := some r.generation }
  spec := some r.spec
  status := some r.status

/-- Enough pods of the current template are available. -/
def RolledOut (r : Rollout) : Prop := r.desired ≤ r.currentAvailable

instance decidableRolledOut (r : Rollout) : Decidable r.RolledOut := inferInstanceAs (Decidable (_ ≤ _))

/-! ## How a rollout goes on -/

inductive Event where
  /-- Somebody writes the spec. -/
  | edit (spec : DeploymentSpec) (strategy : RollingUpdate)
  /-- The controller observes the spec. -/
  | observe
  /-- The controller starts a pod. -/
  | start
  /-- The controller stops a pod. -/
  | stop (i : Nat)
  /-- A pod becomes available, or ceases to be. -/
  | become (i : Nat) (available : Bool)
  /-- A pod is lost. -/
  | lose (i : Nat)
  deriving DecidableEq

/-- A step, where it is possible: there are never more pods than the surge allows, and a pod that is
available is only stopped where enough others are. -/
def step (r : Rollout) : Event → Option Rollout
  | .edit spec strategy => some { r with
      generation := r.generation + 1
      spec := spec
      strategy := strategy
      behind := Int.le_trans r.behind (by omega)
      same := fun h => absurd r.behind (by omega) }
  | .observe => some { r with
      observedGeneration := r.generation
      observedSpec := r.spec
      behind := Int.le_refl _
      same := fun _ => rfl }
  | .start =>
    if r.pods.length < replicas r.observedSpec + r.strategy.maxSurge then
      some { r with pods := r.pods ++ [⟨r.observedSpec.template, false⟩] }
    else none
  | .stop i => match r.pods[i]? with
    | some pod =>
      if pod.available = false ∨
          replicas r.observedSpec < available r.pods + r.strategy.maxUnavailable then
        some { r with pods := r.pods.eraseIdx i }
      else none
    | none => none
  | .become i available =>
    some { r with pods := r.pods.modify i fun pod => { pod with available := available } }
  | .lose i => some { r with pods := r.pods.eraseIdx i }

/-- The Deployment as a transition system. -/
def steps : Steps Rollout Event := ⟨step⟩

end Rollout

/-! ## Waiting for them -/

structure Fleet where
  rollouts : List (DeploymentIdentity × Rollout)
  /-- The Deployments that this attempt has looked at while they were rolled out. -/
  seen : List DeploymentIdentity

namespace Fleet

def find (f : Fleet) (d : DeploymentIdentity) : Option Rollout := f.rollouts.lookup d

/-- How a look ends: with an answer, or with an error. -/
inductive Look where
  | answered
  | failed (e : KubeError)
  deriving DecidableEq

/-- A rollout goes on. -/
def move (f : Fleet) (v : DeploymentIdentity × Rollout.Event) : Option Fleet :=
  (f.find v.1).bind fun r => (r.step v.2).map fun r' =>
    { f with rollouts := f.rollouts.map fun entry =>
        if entry.1 = v.1 then (entry.1, r') else entry }

/-- A look at one Deployment. -/
def look (f : Fleet) (d : DeploymentIdentity) : Look → Except KubeError Deployment × Fleet
  | .answered => match f.find d with
    | some r =>
      (.ok r.deployment, { f with seen := if r.RolledOut then d :: f.seen else f.seen })
    | none => (.error (.notFound "deployments.apps not found"), f)
  | .failed e => (.error e, f)

/-- The outside of an operator that waits. What it does once the wait is over is not served. -/
def machine : Machine Call Answer Fleet Look (DeploymentIdentity × Rollout.Event) where
  serve f c o := match c with
    | .getDeployment ns name => some (f.look ⟨ns, name⟩ o)
    | .sleep _ => some ((), f)
    | _ => none
  move := move
  halt f := { f with seen := [] }

end Fleet

end FluidBG
