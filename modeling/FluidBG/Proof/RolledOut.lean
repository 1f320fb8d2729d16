import FluidBG.Rollout
import FluidBG.Sample
/-!
# Ready and rolled out

`deployment_is_ready` compares two numbers of pods with the desired one, each for itself. While pods
of two templates are there, the pods of the current one may all be counted and none of them be
available: the older ones are.
-/

set_option autoImplicit false

namespace FluidBG

open Lib

namespace Rollout

/-! ## One state -/

/-- The older pods make up for current ones that are there and not yet available. -/
def Masked (r : Rollout) : Prop :=
  r.observedGeneration = r.generation ∧ r.desired ≤ updated r.spec.template r.pods ∧
    r.currentAvailable < r.desired ∧ r.desired ≤ r.currentAvailable + r.olderAvailable

instance decidableMasked (r : Rollout) : Decidable r.Masked := inferInstanceAs (Decidable (_ ∧ _))

/-- Every available pod is of the current template or of an older one. -/
theorem available_eq (r : Rollout) : available r.pods = r.currentAvailable + r.olderAvailable := by
  unfold available currentAvailable olderAvailable
  induction r.pods with
  | nil => rfl
  | cons pod pods ih =>
    simp only [List.countP_cons, ih]
    by_cases htemplate : pod.template = r.spec.template
    · simp [htemplate]
      omega
    · simp [htemplate]
      omega

/-- What `deployment_is_ready` compares. -/
theorem ready_iff (r : Rollout) : deploymentIsReady r.deployment = true ↔
    r.generation ≤ r.observedGeneration ∧ r.desired ≤ updated r.observedSpec.template r.pods ∧
      r.desired ≤ available r.pods := by
  simp [deploymentIsReady, deployment, status, desired, replicas, and_assoc]

/-- A status that is up to date counts the pods of the current template. -/
theorem ready_iff_counts (r : Rollout) : deploymentIsReady r.deployment = true ↔
    r.observedGeneration = r.generation ∧ r.desired ≤ updated r.spec.template r.pods ∧
      r.desired ≤ r.currentAvailable + r.olderAvailable := by
  rw [ready_iff, available_eq]
  constructor
  · intro ⟨hobserved, hupdated, havailable⟩
    have heq : r.observedGeneration = r.generation := Int.le_antisymm r.behind hobserved
    rw [r.same heq] at hupdated
    exact ⟨heq, hupdated, by exact_mod_cast havailable⟩
  · intro ⟨heq, hupdated, havailable⟩
    rw [r.same heq]
    exact ⟨heq.ge, hupdated, by exact_mod_cast havailable⟩

/-- **Ready is rolled out**, unless older pods make up for current ones. -/
theorem rolledOut_of_ready_iff (r : Rollout) :
    (deploymentIsReady r.deployment = true → r.RolledOut) ↔ ¬ r.Masked := by
  rw [ready_iff_counts]
  constructor
  · intro h hmasked
    have hrolled : r.desired ≤ r.currentAvailable := h ⟨hmasked.1, hmasked.2.1, hmasked.2.2.2⟩
    exact absurd hmasked.2.2.1 (Int.not_lt.mpr hrolled)
  · intro hmasked h
    by_contra hrolled
    exact hmasked ⟨h.1, h.2.1, Int.not_le.mp hrolled, h.2.2⟩

end Rollout

/-! ## The wait -/

/-- A call of an operator that waits. -/
def Call.Waits : Call → Prop
  | .getDeployment _ _ => True
  | .sleep _ => True
  | _ => False

/-- The Deployment that a call looks at. -/
def Call.looksAt : Call → Option DeploymentIdentity
  | .getDeployment ns name => some ⟨ns, name⟩
  | _ => none

namespace Fleet

/-- No look finds a Deployment whose older pods make up for current ones. -/
def unmasked : Guard Call Fleet Look (DeploymentIdentity × Rollout.Event) where
  call f c _ := ∀ d ∈ c.looksAt, ∀ r ∈ f.find d, ¬ r.Masked
  move _ _ := True

abbrev outside : Outside Call Answer Fleet := machine.outside unmasked

/-- These have been seen rolled out. -/
def Seen (ids : List DeploymentIdentity) (f : Fleet) : Prop := ∀ d ∈ ids, d ∈ f.seen

/-- What is not part of the wait comes after all of them have been seen. -/
def waiting (ids : List DeploymentIdentity) : Contract Call Fleet where
  inv _ := True
  may f c := c.Waits ∨ Seen ids f

variable {ids done : List DeploymentIdentity}

theorem Seen.stable : outside.Stable (Seen done) := by
  intro f f' h hm
  obtain ⟨v, _, hv⟩ := hm
  obtain ⟨r, _, hmoved⟩ := Option.bind_eq_some_iff.mp hv
  obtain ⟨r', _, rfl⟩ := Option.map_eq_some_iff.mp hmoved
  exact h

/-- A look forgets nothing, and what it finds ready it finds rolled out. -/
theorem look_seen {f f' : Fleet} {d : DeploymentIdentity} {a : Except KubeError Deployment}
    (ha : outside.answers f (.getDeployment d.ns d.name) a f') :
    (Seen done f → Seen done f') ∧
      ∀ current, a = .ok current → deploymentIsReady current = true → d ∈ f'.seen := by
  obtain ⟨o, hg, hserve⟩ := ha
  have hlook : f.look ⟨d.ns, d.name⟩ o = (a, f') := Option.some.inj hserve
  cases o with
  | failed e =>
    cases hlook
    exact ⟨id, fun current heq => by cases heq⟩
  | answered =>
    cases hfind : f.find ⟨d.ns, d.name⟩ with
    | none =>
      rw [look, hfind] at hlook
      cases hlook
      exact ⟨id, fun current heq => by cases heq⟩
    | some r =>
      rw [look, hfind] at hlook
      obtain ⟨rfl, rfl⟩ := Prod.mk.inj hlook
      by_cases hrolled : r.RolledOut
      · simp only [hrolled, if_true]
        exact ⟨fun h x hx => List.mem_cons_of_mem _ (h x hx), fun _ _ _ => List.mem_cons_self⟩
      · simp only [hrolled, if_false]
        refine ⟨id, fun current heq hready => ?_⟩
        cases heq
        exact absurd ((r.rolledOut_of_ready_iff).mpr (hg _ rfl r hfind) hready) hrolled

/-- **The wait for one Deployment** ends well only when it has been seen rolled out. -/
theorem waitForDeploymentReady_seen {d : DeploymentIdentity} {f : Fleet} (h : Seen done f) :
    outside.Spec (waiting ids) (fun _ => Seen (done ++ [d])) (fun _ _ => True)
      (waitForDeploymentReady d) f := by
  refine Outside.Spec.retry (P := Seen done) h (fun _ f h => ?_) fun _ _ => trivial
  refine ⟨.inl trivial, fun r f' ha => ⟨trivial, fun f'' hl _ => ?_⟩⟩
  obtain ⟨hkept, hready⟩ := look_seen ha
  have hkept' := Seen.stable.later (hkept h) hl
  cases r with
  | error e => trivial
  | ok current =>
    show outside.Spec _ _ _ (if deploymentIsReady current = true then _ else _) f''
    by_cases hcurrent : deploymentIsReady current = true
    · rw [if_pos hcurrent]
      have hone : Seen [d] f' := fun x hx => List.mem_singleton.mp hx ▸ hready current rfl hcurrent
      have hone' := Seen.stable.later hone hl
      intro x hx
      exact (List.mem_append.mp hx).elim (hkept' x) (hone' x)
    · rw [if_neg hcurrent]
      refine Outside.Spec.bind (R := fun _ => Seen done) (Outside.Spec.ask (.inl trivial) ?_)
        fun _ f h => h
      intro _ f₁ hsleep
      obtain ⟨o, _, hserve⟩ := hsleep
      cases hserve
      exact ⟨trivial, fun f₂ hl _ => Seen.stable.later hkept' hl⟩

theorem waitForDeploymentsReady_seen {f : Fleet} :
    outside.Spec (waiting ids) (fun _ => Seen ids) (fun _ _ => True)
      (waitForDeploymentsReady ids) f := by
  refine Outside.Spec.forEachDone (P := Seen) (fun d hd => by cases hd) fun done d _ f h => ?_
  exact waitForDeploymentReady_seen h

/-- What comes after the wait finds all of them seen. -/
theorem after_wait {next : Op Unit} {f : Fleet} :
    outside.Spec (waiting ids) (fun _ => Seen ids) (fun _ _ => True)
      ((waitForDeploymentsReady ids).bind fun _ => next) f := by
  refine waitForDeploymentsReady_seen.bind fun _ f h => ?_
  refine (Outside.Spec.of_calls (Prog.Calls.any next) Seen.stable h trivial
    (fun _ _ _ _ h => Or.inr h) ?_).mono
    (fun _ _ h => h.1) fun _ _ _ => trivial
  intro f c a f' _ _ h ha
  refine ⟨trivial, ?_⟩
  obtain ⟨o, hg, hserve⟩ := ha
  cases c with
  | getDeployment ns name => exact (look_seen (d := ⟨ns, name⟩) ⟨o, hg, hserve⟩).1 h
  | sleep n =>
    cases hserve
    exact h
  | _ => cases hserve

end Fleet

/-- **Ready means rolled out.** A Deployment that is ready is rolled out exactly where its older pods
do not make up for current ones; and where no look finds them so, an operator that waits for
Deployments does nothing after the wait before it has seen each of them rolled out. -/
theorem ready_means_rolled_out (ids : List DeploymentIdentity) (next : Op Unit)
    (rollouts : List (DeploymentIdentity × Rollout)) :
    (∀ r : Rollout, (deploymentIsReady r.deployment = true → r.RolledOut) ↔ ¬ r.Masked) ∧
    ∀ s, Machine.Run Fleet.machine
        (fun _ : Unit => (waitForDeploymentsReady ids).bind fun _ => next) Fleet.unmasked
        ⟨⟨rollouts, []⟩, none⟩ s →
      (∀ c k, s.running = some (.call c k) → ¬ c.Waits → ∀ d ∈ ids, d ∈ s.world.seen) ∧
      (s.running = some (.pure ()) → ∀ d ∈ ids, d ∈ s.world.seen) := by
  refine ⟨Rollout.rolledOut_of_ready_iff, fun s r => ?_⟩
  have hgood := r.soundTo (K := Fleet.waiting ids) (Q := Fleet.Seen ids) (fun _ _ _ _ => trivial)
    (fun _ _ => trivial) (fun _ _ _ => Fleet.after_wait) (Machine.GoodTo.of_idle trivial)
  constructor
  · intro c k hc hwaits
    have hspec := hgood.2 _ hc s.world .refl trivial
    exact hspec.1.resolve_left hwaits
  · intro hended
    exact hgood.2 _ hended s.world .refl trivial

/-! ## Runs -/

namespace RolledOut

/-- The template of the application with its green wiring. -/
def wired : DeploymentSpec := { FluidBG.Sample.deploymentSpec with
  template := ⟨none, some ⟨[⟨"app", none, [.ofValue "QUEUE" (some "fluidbg-green-in")], [], []⟩],
    [], none, none⟩⟩ }

/-- A Deployment with one pod, which is up, and a surge of one. -/
def settled : Rollout where
  metadata := (FluidBG.Sample.deployment "shop-old" "true").metadata
  generation := 1
  spec := FluidBG.Sample.deploymentSpec
  strategy := ⟨1, 0⟩
  pods := [⟨FluidBG.Sample.deploymentSpec.template, true⟩]
  observedGeneration := 1
  observedSpec := FluidBG.Sample.deploymentSpec
  behind := Int.le_refl _
  same _ := rfl

/-- The wiring changes, and the controller starts a pod with it. -/
def rewired : List Rollout.Event := [.edit wired ⟨1, 0⟩, .observe, .start]

def shop : DeploymentIdentity := ⟨"default", "shop-old"⟩

/-- What an operator does that waits for the shop. -/
def attempt (_ : Unit) : Op Unit :=
  (waitForDeploymentsReady [shop]).bind fun _ =>
    (Op.ask (.postInceptor "http://inceptor/activate" "token")).bind fun _ => .pure ()

/-- It looks once. -/
def looksOnce : List (Lib.Event Unit Fleet.Look (DeploymentIdentity × Rollout.Event)) :=
  [.start (), .answer .answered]

/-- It is about to activate the inceptor; and what it has seen. -/
def outcome (s : Conf Call Answer ReconcileError Fleet) : Bool × List DeploymentIdentity :=
  (match s.running with
    | some (.call (.postInceptor _ _) _) => true
    | _ => false, s.world.seen)

instance decidableUnmasked (f : Fleet) (c : Call) (o : Fleet.Look) :
    Decidable (Fleet.unmasked.call f c o) :=
  inferInstanceAs (Decidable (∀ d ∈ c.looksAt, ∀ r ∈ f.find d, ¬ r.Masked))

instance decidableUnmaskedMove (f : Fleet) (v : DeploymentIdentity × Rollout.Event) :
    Decidable (Fleet.unmasked.move f v) := .isTrue trivial

end RolledOut

def readyMeansRolledOutShopRun : PLift ((Machine.run Fleet.unmasked Fleet.machine RolledOut.attempt
      ⟨⟨[(RolledOut.shop, RolledOut.settled)], []⟩, none⟩
      ((RolledOut.rewired ++ [Rollout.Event.become 1 true]).map (fun v => .move (RolledOut.shop, v)) ++
        RolledOut.looksOnce)).map RolledOut.outcome = some (true, [RolledOut.shop])) :=
  ⟨by decide +kernel⟩

/-- With the pod available an inceptor is activated after the shop has been seen rolled out. -/
theorem ready_means_rolled_out_shop :
    ∃ s : Conf Call Answer ReconcileError Fleet, (RolledOut.outcome s).1 = true ∧
      ∀ d ∈ [RolledOut.shop], d ∈ s.world.seen := by
  have h := readyMeansRolledOutShopRun.down
  obtain ⟨s, r, hs⟩ := Machine.Run.exists_of_run h
  have hpending : (RolledOut.outcome s).1 = true := by rw [hs]
  refine ⟨s, hpending, ?_⟩
  obtain ⟨hcalls, hends⟩ := (ready_means_rolled_out [RolledOut.shop]
    ((Op.ask (.postInceptor "http://inceptor/activate" "token")).bind fun _ => .pure ())
    [(RolledOut.shop, RolledOut.settled)]).2 s r
  simp only [RolledOut.outcome] at hpending
  split at hpending
  · rename_i hrunning
    exact hcalls _ _ hrunning id
  · cases hpending

def readyWithOldPodsReady :
    PLift ((Rollout.steps.run (fun _ _ => True) RolledOut.settled RolledOut.rewired).map
      (fun r => (deploymentIsReady r.deployment, r.desired, r.currentAvailable)) =
        some (true, 1, 0)) :=
  ⟨by decide +kernel⟩

def readyWithOldPodsGoes : PLift ((Machine.run Guard.top Fleet.machine RolledOut.attempt
      ⟨⟨[(RolledOut.shop, RolledOut.settled)], []⟩, none⟩
      (RolledOut.rewired.map (fun v => .move (RolledOut.shop, v)) ++ RolledOut.looksOnce)).map
        RolledOut.outcome = some (true, [])) :=
  ⟨by decide +kernel⟩

/-- A rolling update with a surge of one: the new pod is there and not available, the old one is,
and the Deployment is ready; an operator that waits for it goes on to activate the inceptor. -/
theorem ready_with_old_pods :
    (∃ r, Rollout.steps.Run (fun _ _ => True) RolledOut.settled r ∧
      (deploymentIsReady r.deployment, r.desired, r.currentAvailable) = (true, 1, 0)) ∧
    ∃ s, Machine.Run Fleet.machine RolledOut.attempt Guard.top
        ⟨⟨[(RolledOut.shop, RolledOut.settled)], []⟩, none⟩ s ∧
      RolledOut.outcome s = (true, []) := by
  have hready := readyWithOldPodsReady.down
  have hgoes := readyWithOldPodsGoes.down
  exact ⟨Steps.Run.exists_of_run hready, Machine.Run.exists_of_run hgoes⟩

end FluidBG
