import FluidBG.Controller.Reconcile
/-!
# The manifest of the application

What `apply_deployment_manifest` sends for a candidate and for a green: where it goes, under which
name, and with which labels.
-/

set_option autoImplicit false

namespace FluidBG

open Lib

variable {d d' : Deployment} {f : Labels → Labels}

theorem onTemplateLabels_metadata (h : onTemplateLabels d f = .ok d') :
    d'.metadata = d.metadata := by
  unfold onTemplateLabels at h
  split at h
  · simp at h
  · split at h
    · simp at h
    · cases h
      rfl

theorem labelBoth_metadata (h : labelBoth d f = .ok d') :
    d'.metadata = { d.metadata with labels := f d.metadata.labels } :=
  onTemplateLabels_metadata h

theorem applyRuntimeIdentitySelector_metadata {name : String}
    (h : applyRuntimeIdentitySelector d name = .ok d') : d'.metadata = d.metadata := by
  unfold applyRuntimeIdentitySelector at h
  split at h
  · simp at h
  · exact onTemplateLabels_metadata (d := { d with spec := some _ }) h

/-- The labels of the manifest. -/
def manifestLabels (bgd : BlueGreenDeployment) (familyLabels : Labels) (isGreen : Bool) : Labels :=
  let labels := (OrdMap.empty.insertAll familyLabels.entries).insert "fluidbg.io/green"
    (greenValue isGreen)
  if isGreen then
    (labels.remove "fluidbg.io/blue-green-ref").remove "fluidbg.io/blue-green-uid"
  else
    (labels.insert "fluidbg.io/blue-green-ref" bgd.metadata.name).insert
      "fluidbg.io/blue-green-uid" (bgd.metadata.uid.getD "")

theorem applyFamilyLabelsToDeployment_metadata {labels : Labels}
    (h : applyFamilyLabelsToDeployment d labels = .ok d') : d'.metadata =
      { d.metadata with labels := d.metadata.labels.insertAll labels.entries } := by
  unfold applyFamilyLabelsToDeployment at h
  split at h
  · simp at h
  · exact labelBoth_metadata h

theorem labelManifest_metadata {bgd : BlueGreenDeployment} {familyLabels : Labels} {isGreen : Bool}
    (hd : d.metadata.labels = .empty) (h : labelManifest bgd familyLabels isGreen d = .ok d') :
    d'.metadata = { d.metadata with labels := manifestLabels bgd familyLabels isGreen } := by
  unfold labelManifest at h
  simp only [bind_eq_ok] at h
  obtain ⟨family, hfamily, green, hgreen, hlast⟩ := h
  have hmeta := labelBoth_metadata (f := fun old =>
    old.insert "fluidbg.io/green" (greenValue isGreen)) hgreen
  rw [applyFamilyLabelsToDeployment_metadata hfamily, hd] at hmeta
  cases isGreen with
  | true => rw [labelBoth_metadata hlast, hmeta]; rfl
  | false => rw [labelBoth_metadata hlast, hmeta]; rfl

/-- **What is sent**: the candidate's name, in the namespace of the deployment spec. -/
theorem deploymentManifest_metadata {crates : Crates} {bgd : BlueGreenDeployment} {ns : String}
    {spec : ManagedDeploymentSpec} {familyLabels : Labels} {isGreen : Bool}
    {assignments : List PropertyAssignment}
    (h : deploymentManifest crates bgd ns spec familyLabels isGreen assignments = .ok d) :
    d.metadata = ObjectMeta.new (candidateRef bgd).name (deploymentNamespaceSpec spec ns)
      (manifestLabels bgd familyLabels isGreen) := by
  unfold deploymentManifest at h
  simp only [bind_eq_ok] at h
  obtain ⟨deploymentSpec, _, labelled, hlabelled, hd⟩ := h
  rw [applyRuntimeIdentitySelector_metadata hd, labelManifest_metadata rfl hlabelled]
  rfl

/-- A candidate carries the reference, a green does not. -/
theorem manifestLabels_ref (bgd : BlueGreenDeployment) (familyLabels : Labels) (isGreen : Bool) :
    (manifestLabels bgd familyLabels isGreen).get "fluidbg.io/blue-green-ref" =
      if isGreen then none else some bgd.metadata.name := by
  cases isGreen with
  | true => simp [manifestLabels, OrdMap.get_remove]
  | false => simp [manifestLabels, OrdMap.get_insert]

end FluidBG
