import FluidBG.Controller.Status
/-!
# The application's Deployments

`controller/deployments.rs`: finding the current green of a family, labelling, patching
environment variables, waiting for a rollout, and the name of the candidate.
-/

set_option autoImplicit false

namespace FluidBG

open Lib

/-! ## Labels -/

/-- `template.metadata.as_mut().ok_or_else(..)`, then `f` on its labels. -/
def onTemplateLabels (d : Deployment) (f : Labels → Labels) : Except ReconcileError Deployment :=
  match d.spec with
  | none => .error (.store "deployment template metadata missing")
  | some spec => match spec.template.metadata with
    | none => .error (.store "deployment template metadata missing")
    | some md =>
      let template := { spec.template with metadata := some { md with labels := f md.labels } }
      .ok { d with spec := some { spec with template := template } }

/-- `f` on the labels of the deployment itself. -/
def Deployment.mapLabels (d : Deployment) (f : Labels → Labels) : Deployment :=
  { d with metadata := { d.metadata with labels := f d.metadata.labels } }

/-- `f` on the labels of the deployment and of its pods. -/
def labelBoth (d : Deployment) (f : Labels → Labels) : Except ReconcileError Deployment :=
  onTemplateLabels (d.mapLabels f) f

def applyFamilyLabelsToDeployment (d : Deployment) (labels : Labels) :
    Except ReconcileError Deployment :=
  if labels.isEmpty then .error (.store "selector.matchLabels must contain at least one label")
  else labelBoth d fun old => old.insertAll labels.entries

def applyRolloutCandidateLabels (d : Deployment) (bgd : BlueGreenDeployment) :
    Except ReconcileError Deployment :=
  labelBoth d fun old =>
    (old.insert "fluidbg.io/blue-green-ref" bgd.metadata.name).insert "fluidbg.io/blue-green-uid"
      (bgd.metadata.uid.getD "")

def clearRolloutCandidateLabels (d : Deployment) : Except ReconcileError Deployment :=
  labelBoth d fun old =>
    (old.remove "fluidbg.io/blue-green-ref").remove "fluidbg.io/blue-green-uid"

/-- The label value of a green and of any other deployment of the family. -/
def greenValue (isGreen : Bool) : String := if isGreen then "true" else "false"

def setGreenLabel (d : Deployment) (isGreen : Bool) : Except ReconcileError Deployment :=
  labelBoth d fun old => old.insert "fluidbg.io/green" (greenValue isGreen)

/-- The selector of the green deployments of a family. -/
def greenLabels (selector : DeploymentSelector) : Labels :=
  selector.matchLabels.insert "fluidbg.io/green" "true"

/-! ## The current green -/

def resolveCurrentGreen (ns : String) (selector : DeploymentSelector) : Op DeploymentRef := do
  if selector.matchLabels.isEmpty then
    Op.lift (.error (.store "selector.matchLabels must contain at least one label"))
  else
    let greenNamespace := selector.ns.getD ns
    let deployments ← Op.kube (← Op.ask
      (.listDeployments greenNamespace (.ofLabels (greenLabels selector))))
    match deployments with
    | [d] => pure ⟨d.metadata.name, some greenNamespace⟩
    | [] =>
      let family ← Op.kube (← Op.ask
        (.listDeployments greenNamespace (.ofLabels selector.matchLabels)))
      match family with
      | [d] =>
        let adopted ← Op.lift (setGreenLabel d true)
        let _ ← Op.kube (← Op.ask (.replaceDeployment greenNamespace d.metadata.name adopted))
        pure ⟨d.metadata.name, some greenNamespace⟩
      | [] => Op.lift (.error (.store
          s!"selector matched no deployments in namespace '{greenNamespace}'"))
      | found => Op.lift (.error (.store
          s!"selector matched {found.length} deployments in namespace '{greenNamespace}' but none is marked fluidbg.io/green=true; refusing ambiguous adoption"))
    | found => Op.lift (.error (.store
        s!"selector matched {found.length} green deployments in namespace '{greenNamespace}'; expected exactly one"))

/-- `api.delete(..)` where a missing object is no error. -/
def deleteDeployment (ns name : String) : Op Unit := do
  match ← Op.ask (.deleteDeployment ns name) with
  | .ok () => pure ()
  | .error (.notFound _) => pure ()
  | .error e => .fail (.k8s e)

def deleteCurrentGreen (ns : String) (candidate currentGreen : DeploymentRef) : Op Unit :=
  let candidateNamespace := deploymentNamespace candidate ns
  let greenNamespace := deploymentNamespace currentGreen ns
  if candidate.name = currentGreen.name ∧ candidateNamespace = greenNamespace then pure ()
  else deleteDeployment greenNamespace currentGreen.name

/-! ## Environment variables -/

def upsertEnv (env : List EnvVar) (name value : String) : List EnvVar :=
  match env with
  | [] => [EnvVar.ofValue name (some value)]
  | e :: env =>
    if e.name = name then { e with value := some value } :: env
    else e :: upsertEnv env name value

/-- The containers with `f` applied to the environment of those an assignment targets. -/
def onTargetedEnv (containers : List Container) (containerName : Option String)
    (f : List EnvVar → List EnvVar) : List Container :=
  containers.map fun c =>
    if containerName.all (· = c.name) then { c with env := f c.env } else c

/-- The name of a deployment with the container the patch is for. -/
structure DeploymentPatchKey where
  ns : String
  name : String
  containerName : Option String
  deriving DecidableEq

/-- `Ord` of `DeploymentIdentity`: the fields in order. -/
def DeploymentIdentity.lt (a b : DeploymentIdentity) : Bool :=
  a.ns < b.ns || (a.ns = b.ns && a.name < b.name)

instance : LT DeploymentIdentity := ⟨fun a b => a.lt b = true⟩

instance : DecidableLT DeploymentIdentity :=
  fun a b => inferInstanceAs (Decidable (a.lt b = true))

/-- `Ord` of `Option<String>`: nothing comes first. -/
def optionLt : Option String → Option String → Bool
  | none, some _ => true
  | some a, some b => a < b
  | _, _ => false

/-- `Ord` of `DeploymentPatchKey`: the fields in order. -/
def DeploymentPatchKey.lt (a b : DeploymentPatchKey) : Bool :=
  a.ns < b.ns || (a.ns = b.ns && (a.name < b.name ||
    (a.name = b.name && optionLt a.containerName b.containerName)))

instance : LT DeploymentPatchKey := ⟨fun a b => a.lt b = true⟩

instance : DecidableLT DeploymentPatchKey :=
  fun a b => inferInstanceAs (Decidable (a.lt b = true))

/-- The deployment an assignment is for, where there is one. -/
def assignmentIdentity (bgd : BlueGreenDeployment) (ns : String) (greenRef : Option DeploymentRef)
    (target : AssignmentTarget) : Option DeploymentIdentity :=
  match target with
  | .green => greenRef.map fun green => ⟨deploymentNamespace green ns, green.name⟩
  | .blue => some ⟨deploymentNamespace (candidateRef bgd) ns, (candidateRef bgd).name⟩
  | .test => bgd.spec.test.map fun test => ⟨ns, testInstanceName bgd test.name⟩

/-- The patches of `apply_assignments`: for each deployment and container its variables, and the
deployments that are touched. -/
structure GroupedAssignments where
  grouped : OrdMap DeploymentPatchKey (OrdMap String String)
  touched : OrdMap DeploymentIdentity Unit

def GroupedAssignments.add (g : GroupedAssignments) (identity : DeploymentIdentity)
    (assignment : PropertyAssignment) : GroupedAssignments :=
  let key : DeploymentPatchKey := ⟨identity.ns, identity.name, assignment.containerName⟩
  let env := (g.grouped.get key).getD .empty
  { grouped := g.grouped.insert key (env.insert assignment.name assignment.value)
    touched := g.touched.insert identity () }

def groupAssignments (bgd : BlueGreenDeployment) (ns : String) (greenRef : Option DeploymentRef)
    (assignments : List PropertyAssignment) : GroupedAssignments :=
  assignments.foldl (fun g assignment =>
    match assignmentIdentity bgd ns greenRef assignment.target with
    | some identity => g.add identity assignment
    | none => g) ⟨.empty, .empty⟩

/-- The deployment with its environment patched. -/
def patchedDeployment (d : Deployment) (name : String) (containerName : Option String)
    (envOverrides : List (String × String)) : Except ReconcileError Deployment :=
  match d.spec with
  | none => .error (.store s!"deployment '{name}' has no spec")
  | some spec => match spec.template.spec with
    | none => .error (.store s!"deployment '{name}' has no pod template spec")
    | some podSpec =>
      let containers := onTargetedEnv podSpec.containers containerName fun env =>
        envOverrides.foldl (fun env e => upsertEnv env e.1 e.2) env
      let template := { spec.template with spec := some { podSpec with containers := containers } }
      .ok { d with spec := some { spec with template := template } }

def patchTargetedDeploymentEnv (ns name : String) (containerName : Option String)
    (envOverrides : List (String × String)) (ignoreMissing : Bool) : Op Unit := do
  match ← Op.ask (.getDeployment ns name) with
  | .error e =>
    match e with
    | .notFound _ => if ignoreMissing then pure () else .fail (.k8s e)
    | _ => .fail (.k8s e)
  | .ok d =>
    let patched ← Op.lift (patchedDeployment d name containerName envOverrides)
    let _ ← Op.kube (← Op.ask (.replaceDeployment ns name patched))
    pure ()

/-- The current green, resolved only when an assignment is for it. -/
def greenForAssignments (bgd : BlueGreenDeployment) (ns : String)
    (assignments : List PropertyAssignment) : Op (Option DeploymentRef) :=
  if assignments.any fun a => a.target = .green then do
    let green ← resolveCurrentGreen ns bgd.spec.selector
    pure (some green)
  else pure none

def applyAssignments (bgd : BlueGreenDeployment) (ns : String)
    (assignments : List PropertyAssignment) (ignoreMissing : Bool) :
    Op (List DeploymentIdentity) := do
  let greenRef ← greenForAssignments bgd ns assignments
  let g := groupAssignments bgd ns greenRef assignments
  Prog.forEach g.grouped.entries fun entry =>
    patchTargetedDeploymentEnv entry.1.ns entry.1.name entry.1.containerName entry.2.entries
      ignoreMissing
  pure g.touched.keys

/-! ## Readiness -/

def deploymentIsReady (d : Deployment) : Bool :=
  match d.spec, d.status with
  | some spec, some status =>
    let desired := max (spec.replicas.getD 1) 0
    let observedGeneration := status.observedGeneration.getD 0
    let generation := d.metadata.generation.getD 0
    let updated := status.updatedReplicas.getD 0
    let available := status.availableReplicas.getD 0
    observedGeneration ≥ generation && updated ≥ desired && available ≥ desired
  | _, _ => false

/-- One look at a deployment that is being waited for. -/
def checkDeploymentReady (d : DeploymentIdentity) : Op (Option Unit) := do
  let current ← Op.kube (← Op.ask (.getDeployment d.ns d.name))
  if deploymentIsReady current then pure (some ())
  else
    Op.ask (.sleep 2)
    pure none

def waitForDeploymentReady (d : DeploymentIdentity) : Op Unit :=
  Prog.retry 60 (fun _ => checkDeploymentReady d)
    (.fail (.store s!"deployment '{d.ns}/{d.name}' did not become ready after rollout"))

def waitForDeploymentsReady (deployments : List DeploymentIdentity) : Op Unit :=
  Prog.forEach deployments waitForDeploymentReady

/-! ## The name of the candidate -/

/-- The first suffix whose name is free; its name is recorded, and the caller starts again. -/
def tryCandidateSuffixes (bgd : BlueGreenDeployment) (ns deployNamespace : String) :
    List String → Op (Option String)
  | [] => .fail (.store
      "failed to generate a non-colliding deployment name after 32 attempts")
  | suffix :: suffixes => do
    let candidateName := candidateNameWithSuffix bgd.metadata.name suffix
    match ← Op.ask (.getDeployment deployNamespace candidateName) with
    | .ok _ => tryCandidateSuffixes bgd ns deployNamespace suffixes
    | .error (.notFound _) =>
      updateStatusGeneratedDeploymentName bgd ns candidateName
      pure none
    | .error e => .fail (.k8s e)

def ensureGeneratedCandidateName (bgd : BlueGreenDeployment) (ns : String) :
    Op (Option String) :=
  match bgd.generatedDeploymentName with
  | some existing => pure (some existing)
  | none => tryCandidateSuffixes bgd ns (deploymentNamespaceSpec bgd.spec.deployment ns)
      (deterministicCandidateSuffixes (generatedCandidateNameSeed bgd))

end FluidBG
