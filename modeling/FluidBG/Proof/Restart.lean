import FluidBG.Proof.Cleanup
import FluidBG.Sample
/-!
# Starting over

A finished rollout starts over when its spec has changed. What the previous generation has left
behind is deleted by the names of the **new** spec, while the wait that follows looks at the labels.
So an object of an inception point that the new spec does not have holds the restart up for good,
and one of a test that the new spec does not have stays.
-/

set_option autoImplicit false

namespace FluidBG

open Lib

/-! ## The condition -/

/-- The store has no record of the rollout. -/
def World.Forgotten (w : World) (stateKey : String) : Prop :=
  ∀ run ∈ w.store.records, run.blueGreenRef ≠ stateKey

/-- **What the restart needs.** Whatever is left of the old rollout has a name that the new spec
gives to an object too, and so has everything that carries the labels of an inceptor. -/
structure World.Renewable (w : World) (old bgd : BlueGreenDeployment) (ns : String) : Prop where
  labelled : w.Reclaimable bgd ns
  deployments : ∀ d ∈ w.deployments, d.metadata.ns = ns → d.metadata.name ∈ rolloutDeployments old →
    d.metadata.name ∈ rolloutDeployments bgd
  objects : ∀ r ∈ w.objects, r.metadata.ns = ns → (r.kind, r.metadata.name) ∈ rolloutObjects old →
    (r.kind, r.metadata.name) ∈
      rolloutObjects bgd ++ [(.configMap, rolloutSpecSnapshotName bgd ns)]

section Restart

variable {alive : String → Bool} {old bgd : BlueGreenDeployment} {ns stateKey : String}
  {w₀ w : World} {E : ReconcileError → World → Prop}

/-! ## The restart -/

/-- What a restart comes to when it ends: everything of these names is gone. -/
structure Restarted (bgd : BlueGreenDeployment) (ns stateKey : String) (w₀ w : World) : Prop where
  deployments : w.deployments = w₀.deployments.filter fun d =>
    ¬ (d.metadata.ns = ns ∧ d.metadata.name ∈ rolloutDeployments bgd)
  objects : w.objects = w₀.objects.filter fun r =>
    ¬ (r.metadata.ns = ns ∧ (r.kind, r.metadata.name) ∈
      rolloutObjects bgd ++ [(.configMap, rolloutSpecSnapshotName bgd ns)])
  store : w.Forgotten stateKey

theorem Restarted.aged {w' : World} (h : Restarted bgd ns stateKey w₀ w) (hage : Aged w w') :
    Restarted bgd ns stateKey w₀ w' where
  deployments := hage.deployments.trans h.deployments
  objects := hage.objects.trans h.objects
  store run hrun := h.store run (by rwa [hage.store] at hrun)

/-- A status patch touches nothing but the object. -/
theorem Restarted.patchStatus (h : Restarted bgd ns stateKey w₀ w) (name : String)
    (patch : StatusPatch) :
    Restarted bgd ns stateKey w₀ (w.patchStatus ns name patch).2 := by
  unfold World.patchStatus
  split
  · exact h
  · exact ⟨h.deployments, h.objects, h.store⟩

theorem forgotten_of_cleanup {store : MemoryStore} {run : TestCaseRecord}
    (h : run ∈ (store.cleanupBlueGreen stateKey).2.records) : run.blueGreenRef ≠ stateKey := by
  simpa [MemoryStore.cleanupBlueGreen] using (List.mem_filter.mp h).2

/-- **The restart ends**, where everything that is labelled is deleted by name. -/
theorem restartRollout_ends (h : w.Reclaimable bgd ns) :
    (served alive).Spec .free (fun _ => Restarted bgd ns stateKey w) E
      (restartRollout bgd ns stateKey) w := by
  refine Outside.Spec.bind (R := fun _ => Restarted bgd ns stateKey w) ?_ ?_
  · refine (cleanupInceptionResources_served h).bind fun _ w₁ h₁ => ?_
    refine (cleanupTestResources_served h₁).bind fun _ w₂ h₂ => ?_
    refine (h₂.deleteResource _ _).bind fun _ w₃ h₃ => ?_
    refine served_plain trivial rfl ?_
    intro _ w₄ hage
    have hended : Restarted bgd ns stateKey w
        { w₃ with store := (w₃.store.cleanupBlueGreen stateKey).2 } :=
      ⟨h₃.deployments, h₃.objects, fun run hrun => forgotten_of_cleanup hrun⟩
    exact hended.aged hage
  · intro _ w₁ h₁
    refine served_plain trivial rfl ?_
    intro _ w₂ hage₂
    refine served_plain trivial rfl ?_
    intro _ w₃ hage₃
    exact ((h₁.aged hage₂).patchStatus _ _).aged hage₃

theorem restartRollout_fails (h : ¬ w.Reclaimable bgd ns) :
    (served alive).Spec .free (fun _ _ => False) (fun _ _ => True)
      (restartRollout bgd ns stateKey) w := by
  refine Outside.Spec.bind (R := fun _ _ => False) ?_ fun _ _ hfalse => hfalse.elim
  refine Outside.Spec.bind (R := fun _ _ => False) ?_ fun _ _ hfalse => hfalse.elim
  exact (cleanupInceptionResources_fails h).mono (fun _ _ hq => hq) fun _ _ _ => trivial

/-- What is left of the old rollout is what the new spec has no name for. -/
theorem Restarted.removed_iff (h : Restarted bgd ns stateKey w₀ w)
    (hlabelled : w₀.Reclaimable bgd ns) : w.Removed old ns ↔ w₀.Renewable old bgd ns := by
  constructor
  · intro hremoved
    refine ⟨hlabelled, ?_, ?_⟩
    · intro d hd hns hname
      by_contra hkept
      have hleft : d ∈ w.deployments := by
        rw [h.deployments]
        exact List.mem_filter.mpr ⟨hd, by simp [hkept]⟩
      exact hremoved.deployments d hleft hns hname
    · intro r hr hns hname
      by_contra hkept
      have hleft : r ∈ w.objects := by
        rw [h.objects]
        exact List.mem_filter.mpr ⟨hr, decide_eq_true fun hgone => hkept hgone.2⟩
      exact hremoved.objects r hleft hns hname
  · intro hrenewable
    constructor
    · intro d hd hns hname
      rw [h.deployments] at hd
      obtain ⟨hd, hkept⟩ := List.mem_filter.mp hd
      exact of_decide_eq_true hkept ⟨hns, hrenewable.deployments d hd hns hname⟩
    · intro r hr hns hname
      rw [h.objects] at hr
      obtain ⟨hr, hkept⟩ := List.mem_filter.mp hr
      exact of_decide_eq_true hkept ⟨hns, hrenewable.objects r hr hns hname⟩

theorem World.Renewable.aged {w' : World} (h : w.Renewable old bgd ns) (hage : Aged w w') :
    w'.Renewable old bgd ns := by
  obtain ⟨⟨hds, hrs⟩, hdeployments, hobjects⟩ := h
  rw [← hage.deployments] at hds hdeployments
  rw [← hage.objects] at hrs hobjects
  exact ⟨⟨hds, hrs⟩, hdeployments, hobjects⟩

end Restart

section Exact

variable {alive : String → Bool} {old bgd : BlueGreenDeployment} {ns stateKey : String} {w : World}

/-- A restart that always ends well, and removes what the old rollout has left. -/
def Renews (alive : String → Bool) (old bgd : BlueGreenDeployment) (ns stateKey : String)
    (w : World) : Prop :=
  ∀ w', (served alive).Later w w' → (served alive).Spec .free
    (fun _ w'' => w''.Removed old ns ∧ w''.Forgotten stateKey) (fun _ _ => False)
    (restartRollout bgd ns stateKey) w'

theorem Renews.renewable (h : Renews alive old bgd ns stateKey w) : w.Renewable old bgd ns := by
  by_contra hnot
  -- let the pods be collected first, so that every call gets its answer
  obtain ⟨w', hlater, hcollected⟩ : ∃ w', (served alive).Later w w' ∧ w'.Collected :=
    collected_later w
  have hnot' : ¬ w'.Renewable old bgd ns :=
    fun hrenewable => hnot (hrenewable.aged (Aged.of_later hlater).symm)
  refine served_contradiction hcollected (h w' hlater) ?_
  by_cases hlabelled : w'.Reclaimable bgd ns
  · refine (restartRollout_ends hlabelled).mono ?_ fun _ _ he => he
    rintro _ w'' hended ⟨hremoved, -⟩
    exact hnot' ((hended.removed_iff hlabelled).mp hremoved)
  · exact (restartRollout_fails hlabelled).mono (fun _ _ hfalse => hfalse.elim) fun _ _ _ => trivial

theorem World.Renewable.renews (h : w.Renewable old bgd ns) :
    Renews alive old bgd ns stateKey w := by
  intro w' hlater
  have hrenewable := h.aged (Aged.of_later hlater)
  refine (restartRollout_ends hrenewable.labelled).mono ?_ fun _ _ he => he
  intro _ w'' hended
  exact ⟨(hended.removed_iff hrenewable.labelled).mpr hrenewable, hended.store⟩

end Exact

/-- **A restart removes the previous generation**, in a cluster that answers and whatever it has
left behind, exactly when the new spec has the names of all that is left and of all that is
labelled: then every restart ends well, and neither an object of the old spec nor a record is
left. -/
theorem restart_removes_iff (alive : String → Bool) (bgd : BlueGreenDeployment)
    (oldSpec : BlueGreenDeploymentSpec) (w : World) :
    Renews alive { bgd with spec := oldSpec } bgd bgd.metadata.ns
        (blueGreenStateKey bgd.metadata.ns bgd.metadata.name) w ↔
      w.Renewable { bgd with spec := oldSpec } bgd bgd.metadata.ns :=
  ⟨Renews.renewable, World.Renewable.renews⟩

/-! ### A spec that drops its test and its inception point -/

def checks : TestSpec := ⟨"checks", Sample.deploymentSpec, ⟨.empty, [⟨none, 80, none⟩]⟩, none, none⟩

def tested : BlueGreenDeploymentSpec := { Sample.pointSpec with test := some checks }

def untested : BlueGreenDeployment := Sample.bgd .completed

def testedBgd : BlueGreenDeployment := { untested with spec := tested }

def withDeployment (name : String) (labels : Labels) : World :=
  { Sample.world .completed [] with
    deployments := [⟨ObjectMeta.new name "default" labels, some Sample.deploymentSpec, none⟩] }

/-- The Deployment of the test is still there, -/
def testLeft : World :=
  withDeployment (testInstanceName testedBgd "checks")
    (testLabels testedBgd "checks" (testInstanceName testedBgd "checks"))

/-- or that of the inceptor is. -/
def inceptorLeft : World :=
  withDeployment (inceptionInstanceBaseName "shop" "orders")
    (.ofList [(inceptionPointLabel, "orders"), (blueGreenRefLabel, "shop")])

/-- **The new spec has no names for them**: the restart leaves the test, and it waits for the
inceptor without end. -/
theorem leftovers_outlive_restart :
    ¬ Renews (fun _ => true) { untested with spec := tested } untested untested.metadata.ns
        (blueGreenStateKey untested.metadata.ns untested.metadata.name) testLeft ∧
      ¬ Renews (fun _ => true) { untested with spec := tested } untested untested.metadata.ns
        (blueGreenStateKey untested.metadata.ns untested.metadata.name) inceptorLeft := by
  constructor
  · intro h
    have hmade : testInstanceName testedBgd "checks" ∈ rolloutDeployments testedBgd := by
      simp [rolloutDeployments, testDeployments, testedBgd, tested, checks]
    have hname := h.renewable.deployments _ (List.mem_singleton.mpr rfl) rfl hmade
    simp [rolloutDeployments, inceptionDeployments, testDeployments, untested, Sample.bgd,
      Sample.spec] at hname
  · intro h
    have hlabels : OfInceptor "shop"
        (.ofList [(inceptionPointLabel, "orders"), (blueGreenRefLabel, "shop")]) := by
      decide
    have hname := h.renewable.labelled.1 _ (List.mem_singleton.mpr rfl) rfl hlabels
    simp [inceptionDeployments, untested, Sample.bgd, Sample.spec] at hname

end FluidBG
