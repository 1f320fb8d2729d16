import FluidBG.Lib.Keyed
import FluidBG.Proof.Footprint
import FluidBG.Proof.NameParts
import FluidBG.Sample
import Mathlib.Data.List.Perm.Basic
import Mathlib.Data.String.Basic
/-!
# Inception points side by side

Everything the operator keeps for an inception point is kept under a string made of its name: four
objects, the address of its inceptor, an entry of the verifier's token map, and a record of its
drain. The points of a rollout stand apart exactly where no two of them come out the same, and
nothing but the names can keep them apart.
-/

set_option autoImplicit false

namespace FluidBG

open Lib

/-! ## The names of the objects -/

theorem stableNameSuffix_length (parts : List String) : (stableNameSuffix parts).length = 12 := by
  rw [stableNameSuffix, hexBytes_length, List.length_take, Sha256.digest_length]
  rfl

/-- The characters of a generated name. -/
def nameChars (head tail : String) (width : Nat) (ref ip : String) : List Char :=
  head.toList ++ (labelOr "ip" ip).toList.take width ++ '-' ::
    ((stableNameSuffix [ref, ip]).toList ++ tail.toList)

section Names

variable {ref a b : String}

theorem instanceName_chars (ref ip : String) :
    (inceptionInstanceBaseName ref ip).toList = nameChars "fluidbg-" "" 42 ref ip := by
  unfold inceptionInstanceBaseName
  simp only [stableNameSuffix_length]
  simp [nameChars, truncateLabel, toString]

theorem serviceName_chars (ref ip : String) :
    (inceptionServiceName ref ip).toList = nameChars "fluidbg-" "-svc" 38 ref ip := by
  unfold inceptionServiceName
  simp only [stableNameSuffix_length]
  simp [nameChars, truncateLabel, toString]

theorem configMapName_chars (ref ip : String) :
    (inceptionConfigMapName ref ip).toList = nameChars "fluidbg-config-" "" 35 ref ip := by
  unfold inceptionConfigMapName
  simp only [stableNameSuffix_length]
  simp [nameChars, truncateLabel, toString]

theorem secretName_chars (ref ip : String) :
    (inceptionAuthSecretName ref ip).toList = nameChars "fluidbg-auth-" "" 37 ref ip := by
  unfold inceptionAuthSecretName
  simp only [stableNameSuffix_length]
  simp [nameChars, truncateLabel, toString]

/-- A generated name gives back the readable part and the piece of the digest. -/
theorem nameChars_inj {head tail : String} {width : Nat}
    (h : nameChars head tail width ref a = nameChars head tail width ref b) :
    (labelOr "ip" a).toList.take width = (labelOr "ip" b).toList.take width ∧
      stableNameSuffix [ref, a] = stableNameSuffix [ref, b] := by
  have hlength : ∀ ip, (stableNameSuffix [ref, ip]).toList.length = 12 := fun ip => by
    rw [String.length_toList, stableNameSuffix_length]
  obtain ⟨hhead, htail⟩ := List.append_inj' h (by simp [hlength])
  obtain ⟨_, hsuffix⟩ := List.cons.inj htail
  exact ⟨List.append_cancel_left hhead, String.toList_inj.mp (List.append_cancel_right hsuffix)⟩

theorem nameChars_congr {head tail : String} {width : Nat}
    (hlabel : (labelOr "ip" a).toList.take width = (labelOr "ip" b).toList.take width)
    (hsuffix : stableNameSuffix [ref, a] = stableNameSuffix [ref, b]) :
    nameChars head tail width ref a = nameChars head tail width ref b := by
  rw [nameChars, nameChars, hlabel, hsuffix]

/-- The names of two points come out the same: their labels agree as far as the shortest name shows
them, and so do the pieces of their digests. -/
def Collide (ref a b : String) : Prop :=
  truncateLabel (labelOr "ip" a) 35 = truncateLabel (labelOr "ip" b) 35 ∧
    stableNameSuffix [ref, a] = stableNameSuffix [ref, b]

/-- The objects of two points have different names. -/
structure PointsApart (ref a b : String) : Prop where
  deployment : inceptionInstanceBaseName ref a ≠ inceptionInstanceBaseName ref b
  service : inceptionServiceName ref a ≠ inceptionServiceName ref b
  configMap : inceptionConfigMapName ref a ≠ inceptionConfigMapName ref b
  secret : inceptionAuthSecretName ref a ≠ inceptionAuthSecretName ref b

theorem Collide.refl (ref a : String) : Collide ref a a := ⟨rfl, rfl⟩

/-- Names that agree in a longer label collide. -/
theorem collide_of_nameChars {head tail : String} {width : Nat} (hwidth : 35 ≤ width)
    (h : nameChars head tail width ref a = nameChars head tail width ref b) : Collide ref a b := by
  obtain ⟨hlabel, hsuffix⟩ := nameChars_inj h
  refine ⟨?_, hsuffix⟩
  have htake := congrArg (List.take 35) hlabel
  rw [List.take_take, List.take_take, Nat.min_eq_left hwidth] at htake
  rw [truncateLabel, truncateLabel, htake]

/-- **The names tell two points apart** exactly where they do not collide. -/
theorem apart_iff : PointsApart ref a b ↔ ¬ Collide ref a b := by
  constructor
  · intro h hcollide
    refine h.configMap (String.toList_inj.mp ?_)
    rw [configMapName_chars, configMapName_chars]
    exact nameChars_congr (String.ofList_injective hcollide.1) hcollide.2
  · intro h
    refine ⟨fun heq => h ?_, fun heq => h ?_, fun heq => h ?_, fun heq => h ?_⟩
    · have hchars := congrArg String.toList heq
      rw [instanceName_chars, instanceName_chars] at hchars
      exact collide_of_nameChars (by omega) hchars
    · have hchars := congrArg String.toList heq
      rw [serviceName_chars, serviceName_chars] at hchars
      exact collide_of_nameChars (by omega) hchars
    · have hchars := congrArg String.toList heq
      rw [configMapName_chars, configMapName_chars] at hchars
      exact collide_of_nameChars (by omega) hchars
    · have hchars := congrArg String.toList heq
      rw [secretName_chars, secretName_chars] at hchars
      exact collide_of_nameChars (by omega) hchars

end Names

/-! ## The address of an inceptor -/

theorem not_dot_of_dashRuns {c : Char} {lastWasDash : Bool} {cs : List Char}
    (h : c ∈ dashRuns lastWasDash cs) : c ≠ '.' := by
  induction cs generalizing lastWasDash with
  | nil => exact absurd h List.not_mem_nil
  | cons ch cs ih =>
    unfold dashRuns at h
    split at h
    · rename_i halnum
      rcases List.mem_cons.mp h with rfl | h
      · intro hdot
        rw [hdot] at halnum
        exact absurd halnum (by decide)
      · exact ih h
    · split at h
      · exact ih h
      · rcases List.mem_cons.mp h with rfl | h
        · decide
        · exact ih h

theorem not_dot_of_label {c : Char} {ip : String} (h : c ∈ (labelOr "ip" ip).toList) : c ≠ '.' := by
  unfold labelOr at h
  dsimp only at h
  split at h
  · intro hdot
    subst hdot
    revert h
    decide
  · rw [sanitizeDnsLabel, String.toList_ofList, trimDashes, List.mem_reverse] at h
    have h' := List.mem_reverse.mp (List.dropWhile_sublist _ |>.subset h)
    exact not_dot_of_dashRuns (List.dropWhile_sublist _ |>.subset h')

theorem digitChar_ne_dot (n : Nat) : Nat.digitChar n ≠ '.' := by
  by_cases hdigit : 16 ≤ n
  · rw [Nat.digitChar_eq_star.mpr hdigit]
    decide
  · have hdigits : ∀ k < 16, Nat.digitChar k ≠ '.' := by decide
    exact hdigits n (by omega)

theorem not_dot_of_hexBytes {c : Char} {bytes : List Nat} (h : c ∈ (hexBytes bytes).toList) :
    c ≠ '.' := by
  have hfold : ∀ (bytes : List Nat) (acc : String), (∀ c ∈ acc.toList, c ≠ '.') →
      ∀ c ∈ ((bytes.map hexByte).foldl (· ++ ·) acc).toList, c ≠ '.' := by
    intro bytes
    induction bytes with
    | nil => intro acc hacc; exact hacc
    | cons b bytes ih =>
      intro acc hacc
      refine ih _ fun c hc => ?_
      rw [String.toList_append, List.mem_append] at hc
      rcases hc with hc | hc
      · exact hacc c hc
      · rw [hexByte, String.toList_ofList] at hc
        rcases List.mem_cons.mp hc with rfl | hc
        · exact digitChar_ne_dot _
        · rw [List.mem_singleton.mp hc]
          exact digitChar_ne_dot _
  exact hfold bytes "" (by simp) c h

/-- The name of a Service is one label. -/
theorem not_dot_of_serviceName {c : Char} {ref ip : String}
    (h : c ∈ (inceptionServiceName ref ip).toList) : c ≠ '.' := by
  rw [serviceName_chars] at h
  rcases List.mem_append.mp h with h | h
  · rcases List.mem_append.mp h with h | h
    · intro hdot
      subst hdot
      revert h
      decide
    · exact not_dot_of_label (List.mem_of_mem_take h)
  · rcases List.mem_cons.mp h with rfl | h
    · decide
    · rcases List.mem_append.mp h with h | h
      · exact not_dot_of_hexBytes h
      · intro hdot
        subst hdot
        revert h
        decide

/-- **The address of an inceptor gives back the name of its Service.** -/
theorem inceptorUrl_inj {plugin plugin' : InceptionPlugin} {ns ref a b path path' : String}
    (h : inceptorUrl plugin ns ref a path = inceptorUrl plugin' ns ref b path') :
    inceptionServiceName ref a = inceptionServiceName ref b := by
  have hhost : ∀ (plugin : InceptionPlugin) (ip path : String), ∃ scheme : List Char,
      (scheme = "http".toList ∨ scheme = "https".toList) ∧
      (inceptorUrl plugin ns ref ip path).toList.takeWhile (· ≠ '.') =
        scheme ++ "://".toList ++ (inceptionServiceName ref ip).toList := by
    intro plugin ip path
    obtain ⟨scheme, hscheme, rest, hurl⟩ : ∃ scheme : List Char,
        (scheme = "http".toList ∨ scheme = "https".toList) ∧ ∃ rest,
          (inceptorUrl plugin ns ref ip path).toList =
            (scheme ++ "://".toList ++ (inceptionServiceName ref ip).toList) ++ '.' :: rest := by
      unfold inceptorUrl controlPlaneUrl
      by_cases htls : plugin.spec.inceptor.controlPlaneTls.any (·.enabled)
      · refine ⟨_, .inr rfl, ?_⟩
        simp [htls, toString]
      · refine ⟨_, .inl rfl, ?_⟩
        simp [htls, toString]
    refine ⟨scheme, hscheme, ?_⟩
    rw [hurl, List.takeWhile_append_of_pos]
    · simp
    · intro c hc
      rw [decide_eq_true_eq]
      rcases List.mem_append.mp hc with hc | hc
      · intro hdot
        subst hdot
        rcases hscheme with rfl | rfl <;> revert hc <;> decide
      · exact not_dot_of_serviceName hc
  obtain ⟨scheme, hscheme, ha⟩ := hhost plugin a path
  obtain ⟨scheme', hscheme', hb⟩ := hhost plugin' b path'
  rw [h, hb] at ha
  apply String.toList_inj.mp
  rcases hscheme with rfl | rfl <;> rcases hscheme' with rfl | rfl <;> simpa using ha.symm

/-! ## What the calls for a point are addressed to -/

/-- The name of an object of a point. -/
def inceptionObjectName (ref point : String) : Kind → Option String
  | .service => some (inceptionServiceName ref point)
  | .configMap => some (inceptionConfigMapName ref point)
  | .secret => some (inceptionAuthSecretName ref point)
  | .pod => none

/-- The call is addressed to an object or an inceptor, or to a manager on behalf of a point. -/
def Call.Addressed : Call → Prop
  | .applyDeployment _ _ _ => True
  | .deleteDeployment _ _ => True
  | .applyResource _ _ _ _ => True
  | .deleteResource _ _ _ => True
  | .postInceptor _ _ => True
  | .getDrainStatus _ _ => True
  | .postTraffic _ _ _ => True
  | .postManager _ _ _ => True
  | _ => False

/-- The call is addressed to an object of this point, to its inceptor, or to a manager on its
behalf. -/
def Call.Addresses (ref ns point : String) : Call → Prop
  | .applyDeployment _ name _ => name = inceptionInstanceBaseName ref point
  | .deleteDeployment _ name => name = inceptionInstanceBaseName ref point
  | .applyResource kind _ name _ => inceptionObjectName ref point kind = some name
  | .deleteResource kind _ name => inceptionObjectName ref point kind = some name
  | .postInceptor url _ => ∃ plugin path, url = inceptorUrl plugin ns ref point path
  | .getDrainStatus url _ => ∃ plugin path, url = inceptorUrl plugin ns ref point path
  | .postTraffic url _ _ => ∃ plugin path, url = inceptorUrl plugin ns ref point path
  | .postManager _ _ request => request.inceptionPoint = point
  | _ => False

/-- Whatever the code addresses is the point's. -/
abbrev Op.Minds {α : Type} (ref ns point : String) (p : Op α) : Prop :=
  p.Calls fun c => c.Addressed → c.Addresses ref ns point

section PointsApart

variable {ref ns a b : String}

/-- No object is that of two points apart. -/
theorem PointsApart.objectName (h : PointsApart ref a b) {kind : Kind} {name : String}
    (ha : inceptionObjectName ref a kind = some name) :
    inceptionObjectName ref b kind ≠ some name := by
  intro hb
  have heq := ha.trans hb.symm
  cases kind with
  | service => exact h.service (Option.some.inj heq)
  | configMap => exact h.configMap (Option.some.inj heq)
  | secret => exact h.secret (Option.some.inj heq)
  | pod => cases ha

/-- **No call is addressed to two points apart.** -/
theorem PointsApart.not_addresses (h : PointsApart ref a b) {c : Call} (ha : c.Addresses ref ns a) :
    ¬ c.Addresses ref ns b := by
  intro hb
  have hurl : ∀ url : String, (∃ plugin path, url = inceptorUrl plugin ns ref a path) →
      ¬ ∃ plugin path, url = inceptorUrl plugin ns ref b path := by
    intro url ha hb
    obtain ⟨plugin, path, rfl⟩ := ha
    obtain ⟨plugin', path', heq⟩ := hb
    exact h.service (inceptorUrl_inj heq)
  cases c with
  | applyDeployment _ name _ => exact h.deployment (ha.symm.trans hb)
  | deleteDeployment _ name => exact h.deployment (ha.symm.trans hb)
  | applyResource kind _ name _ => exact h.objectName ha hb
  | deleteResource kind _ name => exact h.objectName ha hb
  | postInceptor url _ => exact hurl url ha hb
  | getDrainStatus url _ => exact hurl url ha hb
  | postTraffic url _ _ => exact hurl url ha hb
  | postManager _ _ request =>
    obtain rfl : a = b := ha.symm.trans hb
    exact h.deployment rfl
  | _ => exact ha

end PointsApart

namespace Op.Minds

variable {ctx : Ctx} {bgd : BlueGreenDeployment} {ref ns point : String} {plugin : InceptionPlugin}

theorem reads {α : Type} {p : Op α} (hp : Op.Reads p) : Op.Minds ref ns point p :=
  hp.mono fun c hc haddressed => by cases c <;> first | exact hc.elim | exact haddressed.elim

theorem patches {α : Type} {p : Op α} (hp : Op.Patches p) : Op.Minds ref ns point p :=
  hp.mono fun c hc haddressed => by cases c <;> first | exact hc.elim | exact haddressed.elim

theorem getPlugin {α : Type} {name : String} {k : InceptionPlugin → Op α}
    (hk : ∀ plugin, Op.Minds ref ns point (k plugin)) :
    Op.Minds ref ns point
      (Prog.bind (Op.ask (.getPlugin name)) fun r => Prog.bind (Op.kube r) k) := by
  have hask : Op.Minds ref ns point (Op.ask (.getPlugin name)) := ask_calls fun h => h.elim
  exact hask.bind fun _ => (kube_calls _).bind hk

theorem withRetries {α β : Type} {attempts : Nat} {send : Op (HttpAnswer α)}
    {failed decodeFailed : String → ReconcileError} {ok : α → β} {exhausted : β}
    (h : Op.Minds ref ns point send) :
    Op.Minds ref ns point (FluidBG.withRetries attempts send failed decodeFailed ok exhausted) :=
  withRetries_calls h fun h => h.elim

/-! ### The plugin's processes -/

theorem invokeInceptorLifecycle (stage : PluginLifecycleStage) : Op.Minds ref ns point
    (FluidBG.invokeInceptorLifecycle ctx ref ns point plugin stage) := by
  unfold FluidBG.invokeInceptorLifecycle
  split
  · trivial
  · exact (reads (Op.Reads.controlPlaneClient _)).bind fun _ =>
      (reads (Op.Reads.signInceptionAuthToken _ _ _ _ _)).bind fun _ =>
        withRetries (ask_calls fun _ => ⟨_, _, rfl⟩)

theorem invokePluginManagerLifecycle (ip : InceptionPoint) (stage : PluginLifecycleStage) :
    Op.Minds ref ns ip.name
      (FluidBG.invokePluginManagerLifecycle ctx ref ns ip plugin stage) := by
  unfold FluidBG.invokePluginManagerLifecycle
  split
  · trivial
  · split
    · trivial
    · exact (reads (Op.Reads.signInceptionAuthToken _ _ _ _ _)).bind fun _ =>
        (reads (Op.Reads.managerClaims _ _)).bind fun _ =>
          (reads (Op.Reads.activeInceptionsForPlugin _)).bind fun _ =>
            (reads (Op.Reads.controlPlaneClient _)).bind fun _ =>
              withRetries (ask_calls fun _ => rfl)

theorem invokeInceptorDrainStatus : Op.Minds ref ns point
    (FluidBG.invokeInceptorDrainStatus ctx ref ns point plugin) := by
  unfold FluidBG.invokeInceptorDrainStatus
  split
  · trivial
  · refine (reads (Op.Reads.signInceptionAuthToken _ _ _ _ _)).bind fun _ =>
      (reads (Op.Reads.controlPlaneClient _)).bind fun _ =>
        (ask_calls fun _ => ⟨_, _, rfl⟩).bind fun answer => ?_
    cases answer <;> trivial

theorem invokeInceptorTrafficShift (trafficPercent : Nat) : Op.Minds ref ns point
    (FluidBG.invokeInceptorTrafficShift ctx ref ns point plugin trafficPercent) :=
  (reads (Op.Reads.controlPlaneClient _)).bind fun _ =>
    (reads (Op.Reads.signInceptionAuthToken _ _ _ _ _)).bind fun _ =>
      withRetries (ask_calls fun _ => ⟨_, _, rfl⟩)

/-! ### The objects -/

theorem applyResource {kind : Kind} {name : String} {r : Resource}
    (h : inceptionObjectName ref point kind = some name) :
    Op.Minds ref ns point (FluidBG.applyResource kind ns name r) := by
  have happly : ∀ _ : Unit, Op.Minds ref ns point (do
      let _ ← Op.kube (← Op.ask (.applyResource kind ns name r))
      (pure () : Op Unit)) := fun _ => askKube_calls (fun _ => h) fun _ => trivial
  unfold FluidBG.applyResource
  split
  · exact (ask_calls fun h => h.elim).bind fun _ => (getOpt_calls _).bind fun _ =>
      (reads (Op.Reads.refuseForeign _ _ _)).bind fun _ => happly ()
  · exact happly ()

theorem applyDeploymentResource {ns' name : String} {d : Deployment}
    (h : name = inceptionInstanceBaseName ref point) :
    Op.Minds ref ns point (FluidBG.applyDeploymentResource ns' name d) := by
  have happly : ∀ _ : Unit, Op.Minds ref ns point (do
      let _ ← Op.kube (← Op.ask (.applyDeployment ns' name d))
      (pure () : Op Unit)) := fun _ => askKube_calls (fun _ => h) fun _ => trivial
  unfold FluidBG.applyDeploymentResource
  split
  · exact (ask_calls fun h => h.elim).bind fun _ => (getOpt_calls _).bind fun _ =>
      (reads (Op.Reads.refuseForeign _ _ _)).bind fun _ => happly ()
  · exact happly ()

section Objects

variable {crates : Crates} {ip : InceptionPoint} {context : ReconcileInceptionContext}

theorem configMap_name : inceptionObjectName context.blueGreenRef ip.name .configMap =
    some (inceptorConfigMap crates plugin ip context).metadata.name := rfl

theorem secret_name : inceptionObjectName context.blueGreenRef ip.name .secret =
    some (inceptorSecret ip context).metadata.name := rfl

theorem service_name : inceptionObjectName context.blueGreenRef ip.name .service =
    some (inceptorService plugin ip context).metadata.name := rfl

theorem deployment_name : (inceptorDeployment plugin ip context).metadata.name =
    inceptionInstanceBaseName context.blueGreenRef ip.name := rfl

theorem reconciled_objects {resources : ReconciledResources}
    (h : reconcileInceptionPoint crates plugin ip context = .ok resources) :
    resources.configMaps = [inceptorConfigMap crates plugin ip context] ∧
      resources.secrets = [inceptorSecret ip context] ∧
      resources.deployments = [inceptorDeployment plugin ip context] ∧
      resources.services = [inceptorService plugin ip context] := by
  unfold reconcileInceptionPoint at h
  split at h
  · cases h
  · cases h
    exact ⟨rfl, rfl, rfl, rfl⟩

theorem applyInceptorResources (ns : String) {resources : ReconciledResources}
    (h : reconcileInceptionPoint crates plugin ip context = .ok resources) :
    Op.Minds context.blueGreenRef ns ip.name (FluidBG.applyInceptorResources ns resources) := by
  obtain ⟨hconfigMaps, hsecrets, hdeployments, hservices⟩ := reconciled_objects h
  refine Prog.Calls.bind (.forEach fun cm hcm => applyResource ?_) fun _ => ?_
  · rw [hconfigMaps] at hcm
    rw [List.mem_singleton.mp hcm]
    exact configMap_name
  refine Prog.Calls.bind (.forEach fun secret hsecret => applyResource ?_) fun _ => ?_
  · rw [hsecrets] at hsecret
    rw [List.mem_singleton.mp hsecret]
    exact secret_name
  refine Prog.Calls.bind (.forEach fun d hd => applyDeploymentResource ?_) fun _ => ?_
  · rw [hdeployments] at hd
    rw [List.mem_singleton.mp hd]
    exact deployment_name
  refine Prog.Calls.bind (.forEach fun service hservice => applyResource ?_) fun _ => ?_
  · rw [hservices] at hservice
    rw [List.mem_singleton.mp hservice]
    exact service_name
  · exact True.intro

end Objects

/-! ### The turns of a rollout -/

variable {ip : InceptionPoint} {plan : PreparedInceptionPoint}

theorem prepareInceptionPoint (testUrl : String) (acc : Preparation) :
    Op.Minds bgd.metadata.name ns ip.name
      (FluidBG.prepareInceptionPoint ctx bgd ns testUrl acc ip) := by
  refine getPlugin fun plugin => (lift_calls _).bind fun _ => ?_
  have hmanager : Op.Minds bgd.metadata.name ns ip.name
      (prepareManager ctx bgd ns ip plugin) := by
    refine (invokePluginManagerLifecycle ip _).bind fun response => ?_
    cases response with
    | none => trivial
    | some response => exact (lift_calls _).bind fun _ => trivial
  refine hmanager.bind fun manager =>
    (reads (Op.Reads.signInceptionAuthToken _ _ _ _ _)).bind fun token => ?_
  refine liftBind_calls fun resources hresources => ?_
  have hbuilt := mapError_eq_ok.mp hresources
  have happly := applyInceptorResources ns hbuilt
  refine Prog.Calls.bind (p := FluidBG.applyInceptorResources ns resources) ?_ fun ids => ?_
  · exact happly
  · exact True.intro

theorem prepareInceptor (assignments : List PropertyAssignment) :
    Op.Minds bgd.metadata.name ns plan.inceptionPoint.name
      (FluidBG.prepareInceptor ctx bgd ns assignments plan) := by
  refine (reads (Op.Reads.waitForDeploymentsReady _)).bind fun _ =>
    (invokeInceptorLifecycle _).bind fun response => ?_
  cases response with
  | none => trivial
  | some response => exact (lift_calls _).bind fun _ => (lift_calls _).bind fun _ => trivial

theorem activateInceptor : Op.Minds bgd.metadata.name ns plan.inceptionPoint.name
    (FluidBG.activateInceptor ctx bgd ns plan) := by
  refine (invokeInceptorLifecycle _).bind fun response => ?_
  cases response with
  | none => trivial
  | some response => exact (lift_calls _).bind fun _ => lift_calls _

theorem drainInceptionPoint (targets : List AssignmentTarget) : Op.Minds bgd.metadata.name ns ip.name
    (FluidBG.drainInceptionPoint ctx bgd ns targets ip) := by
  refine getPlugin fun plugin => (invokeInceptorLifecycle _).bind fun response => ?_
  dsimp only
  split
  · trivial
  · exact (patches (Op.Patches.applyAssignments _ _ _ _)).bind fun _ =>
      reads (Op.Reads.waitForDeploymentsReady _)

theorem reconcileDrain (elapsed : Int) (statuses : List InceptionPointDrainStatus) :
    Op.Minds bgd.metadata.name ns ip.name
      (FluidBG.reconcileDrain ctx bgd ns elapsed statuses ip) := by
  have hnow : Op.Minds bgd.metadata.name ns ip.name (Op.ask .now) := ask_calls fun h => h.elim
  have hstatus : Op.Minds bgd.metadata.name ns ip.name (drainStatusOf ctx bgd ns ip) := by
    refine getPlugin fun plugin => invokeInceptorDrainStatus.bind fun status => ?_
    cases status with
    | none => exact hnow.bind fun _ => trivial
    | some status =>
      dsimp only
      split
      · exact hnow.bind fun _ => trivial
      · trivial
  unfold FluidBG.reconcileDrain
  split
  · trivial
  · split
    · exact hnow.bind fun _ => trivial
    · refine hstatus.result.bind fun r => ?_
      cases r with
      | ok status => trivial
      | error e => exact (ask_calls fun h => h.elim).bind fun _ => trivial

theorem cleanupPlugin : Op.Minds bgd.metadata.name ns ip.name
    (FluidBG.cleanupPlugin ctx bgd ns ip) :=
  getPlugin fun _ => (invokeInceptorLifecycle _).bind fun _ =>
    (invokePluginManagerLifecycle ip _).bind fun _ => trivial

theorem cleanupInceptionPoint : Op.Minds ref ns ip.name
    (FluidBG.cleanupInceptionPoint ns ref ip) := by
  have hresource : ∀ kind name, inceptionObjectName ref ip.name kind = some name →
      Op.Minds ref ns ip.name (deleteResource kind ns name) := by
    intro kind name h
    refine (ask_calls fun _ => h).bind fun r => ?_
    rcases r with e | _
    · cases e <;> trivial
    · trivial
  have hdeployment : Op.Minds ref ns ip.name
      (deleteDeployment ns (inceptionInstanceBaseName ref ip.name)) := by
    refine (ask_calls fun _ => rfl).bind fun r => ?_
    rcases r with e | _
    · cases e <;> trivial
    · trivial
  exact hdeployment.bind fun _ => (hresource _ _ rfl).bind fun _ =>
    (hresource _ _ rfl).bind fun _ => hresource _ _ rfl

end Op.Minds

/-- Every turn that a phase takes for a point is addressed to that point alone. -/
structure MindsOwn (ctx : Ctx) (bgd : BlueGreenDeployment) (ns : String) (ip : InceptionPoint) :
    Prop where
  prepare : ∀ testUrl acc,
    Op.Minds bgd.metadata.name ns ip.name (prepareInceptionPoint ctx bgd ns testUrl acc ip)
  prepareInceptor : ∀ plan, plan.inceptionPoint = ip → ∀ assignments,
    Op.Minds bgd.metadata.name ns ip.name (FluidBG.prepareInceptor ctx bgd ns assignments plan)
  activate : ∀ plan, plan.inceptionPoint = ip →
    Op.Minds bgd.metadata.name ns ip.name (activateInceptor ctx bgd ns plan)
  shift : ∀ plugin percent, Op.Minds bgd.metadata.name ns ip.name
    (invokeInceptorTrafficShift ctx bgd.metadata.name ns ip.name plugin percent)
  drain : ∀ targets,
    Op.Minds bgd.metadata.name ns ip.name (drainInceptionPoint ctx bgd ns targets ip)
  drainStatus : ∀ elapsed statuses,
    Op.Minds bgd.metadata.name ns ip.name (reconcileDrain ctx bgd ns elapsed statuses ip)
  cleanup : Op.Minds bgd.metadata.name ns ip.name (cleanupPlugin ctx bgd ns ip)
  cleanupObjects : Op.Minds bgd.metadata.name ns ip.name
    (cleanupInceptionPoint ns bgd.metadata.name ip)

theorem mindsOwn (ctx : Ctx) (bgd : BlueGreenDeployment) (ns : String) (ip : InceptionPoint) :
    MindsOwn ctx bgd ns ip where
  prepare := Op.Minds.prepareInceptionPoint
  prepareInceptor _ h := h ▸ Op.Minds.prepareInceptor
  activate _ h := h ▸ Op.Minds.activateInceptor
  shift _ percent := Op.Minds.invokeInceptorTrafficShift percent
  drain := Op.Minds.drainInceptionPoint
  drainStatus := Op.Minds.reconcileDrain
  cleanup := Op.Minds.cleanupPlugin
  cleanupObjects := Op.Minds.cleanupInceptionPoint

/-! ## The tokens of the verifier -/

section Tokens

variable {ctx : Ctx} {bgd : BlueGreenDeployment} {ns : String}

/-- The token was signed for the point and its plugin. -/
def SignedFor (ctx : Ctx) (bgd : BlueGreenDeployment) (ns : String) (ip : InceptionPoint)
    (plugin : InceptionPlugin) (token : String) : Prop :=
  ∃ uid key, ctx.crates.signToken
    (PluginAuthClaims.newWithUid ns bgd.metadata.name uid ip.name plugin.name) key = .ok token

/-- Every point has an entry of its own in the token map, with its own token. -/
structure OwnTokens (ctx : Ctx) (bgd : BlueGreenDeployment) (ns : String)
    (prepared : Preparation) : Prop where
  points : prepared.plans.map (·.inceptionPoint) = bgd.spec.inceptionPoints
  entries : prepared.verifierAuthTokens.keys.Perm (bgd.spec.inceptionPoints.map (·.name))
  token : ∀ plan ∈ prepared.plans, ∃ token,
    prepared.verifierAuthTokens.get plan.inceptionPoint.name = some token ∧
      SignedFor ctx bgd ns plan.inceptionPoint plan.plugin token

theorem signInceptionAuthToken_returns (ip : InceptionPoint) (plugin : InceptionPlugin) :
    (signInceptionAuthToken ctx ns bgd.metadata.name ip.name plugin).Returns
      (SignedFor ctx bgd ns ip plugin) := by
  refine .of_bind fun key => .of_bind fun r => .of_bind fun found => ?_
  cases huid : found.metadata.uid with
  | none => trivial
  | some uid =>
    dsimp only
    cases hsigned : ctx.crates.signToken
        (PluginAuthClaims.newWithUid ns bgd.metadata.name uid ip.name plugin.name) key with
    | error e => trivial
    | ok token => exact ⟨uid, key, hsigned⟩

/-- What a turn of the loop adds. -/
theorem prepareInceptionPoint_returns (testUrl : String) (acc : Preparation) (ip : InceptionPoint) :
    (prepareInceptionPoint ctx bgd ns testUrl acc ip).Returns fun acc' =>
      ∃ plugin deployments token, acc'.plans = acc.plans ++ [⟨ip, plugin, deployments⟩] ∧
        acc'.verifierAuthTokens = acc.verifierAuthTokens.insert ip.name token ∧
        SignedFor ctx bgd ns ip plugin token := by
  refine .of_bind fun r => .of_bind fun plugin => .of_bind fun _ => .of_bind fun manager => ?_
  refine (signInceptionAuthToken_returns ip plugin).bind fun token htoken => ?_
  refine .of_bind fun resources => .of_bind fun deployments => ?_
  exact ⟨plugin, deployments, token, rfl, rfl, htoken⟩

/-- What the loop has collected for the points that are done. -/
structure Collecting (ctx : Ctx) (bgd : BlueGreenDeployment) (ns : String)
    (done : List InceptionPoint) (acc : Preparation) : Prop where
  points : acc.plans.map (·.inceptionPoint) = done
  keys : ∀ name, name ∈ acc.verifierAuthTokens.keys ↔ name ∈ done.map (·.name)
  token : (done.map (·.name)).Nodup → ∀ plan ∈ acc.plans, ∃ token,
    acc.verifierAuthTokens.get plan.inceptionPoint.name = some token ∧
      SignedFor ctx bgd ns plan.inceptionPoint plan.plugin token

theorem Collecting.turn {done : List InceptionPoint} {acc acc' : Preparation} {ip : InceptionPoint}
    {plugin : InceptionPlugin} {deployments : List DeploymentIdentity} {token : String}
    (h : Collecting ctx bgd ns done acc)
    (hplans : acc'.plans = acc.plans ++ [⟨ip, plugin, deployments⟩])
    (htokens : acc'.verifierAuthTokens = acc.verifierAuthTokens.insert ip.name token)
    (hsigned : SignedFor ctx bgd ns ip plugin token) :
    Collecting ctx bgd ns (done ++ [ip]) acc' where
  points := by rw [hplans, List.map_append, h.points]; rfl
  keys name := by
    rw [htokens, OrdMap.mem_keys_iff, OrdMap.get_insert, List.map_append, List.mem_append,
      ← h.keys, OrdMap.mem_keys_iff]
    by_cases hname : ip.name = name
    · simp [hname]
    · simp [hname, Ne.symm hname]
  token hnodup plan hplan := by
    rw [List.map_append, List.map_cons, List.map_nil] at hnodup
    have hdone := hnodup.of_append_left
    have hfresh : ip.name ∉ done.map (·.name) := fun hmem =>
      (List.nodup_append.mp hnodup).2.2 _ hmem _ (List.mem_singleton_self _) rfl
    rw [htokens, OrdMap.get_insert]
    rw [hplans] at hplan
    rcases List.mem_append.mp hplan with hold | hnew
    · have hne : ip.name ≠ plan.inceptionPoint.name := by
        intro heq
        refine hfresh ?_
        rw [heq, ← h.points]
        exact List.mem_map_of_mem (List.mem_map_of_mem hold)
      rw [if_neg hne]
      exact h.token hdone plan hold
    · rw [List.mem_singleton.mp hnew]
      exact ⟨token, if_pos rfl, hsigned⟩

/-- **The loop collects** the points in their order. -/
theorem collecting (testUrl : String) :
    (Prog.foldEach bgd.spec.inceptionPoints Preparation.empty
      (prepareInceptionPoint ctx bgd ns testUrl)).Returns
        (Collecting ctx bgd ns bgd.spec.inceptionPoints) := by
  refine .foldEachDone ⟨rfl, fun name => by simp [Preparation.empty], fun _ plan h => ?_⟩ ?_
  · exact absurd h List.not_mem_nil
  · intro done ip rest _ acc h
    refine (prepareInceptionPoint_returns testUrl acc ip).mono fun acc' hturn => ?_
    obtain ⟨plugin, deployments, token, hplans, htokens, hsigned⟩ := hturn
    exact h.turn hplans htokens hsigned

theorem ownTokens (hnames : (bgd.spec.inceptionPoints.map (·.name)).Nodup) (testUrl : String) :
    (Prog.foldEach bgd.spec.inceptionPoints Preparation.empty
      (prepareInceptionPoint ctx bgd ns testUrl)).Returns (OwnTokens ctx bgd ns) := by
  refine (collecting testUrl).mono fun prepared h => ⟨h.points, ?_, h.token hnames⟩
  exact (List.perm_ext_iff_of_nodup prepared.verifierAuthTokens.nodup hnames).mpr h.keys

end Tokens

/-! ## The records of the drain -/

/-- There is one record for each point, in the order of the points. -/
def RecordsOf (points : List InceptionPoint) (records : List InceptionPointDrainStatus) : Prop :=
  records.map (·.name) = points.map (·.name)

/-- A record that is reused for a point is the one that was written for it. -/
def ReusesOwn (points : List InceptionPoint) : Prop :=
  ∀ records, RecordsOf points records → ∀ (i : Nat) (ip : InceptionPoint), points[i]? = some ip →
    ∀ r, recordedFinalDrain records ip = some r → records[i]? = some r

theorem reusesOwn {points : List InceptionPoint} (hnames : (points.map (·.name)).Nodup) :
    ReusesOwn points := by
  intro records hrecords i ip hip r hr
  have hdistinct : Keyed.Distinct InceptionPointDrainStatus.name records := by
    rw [Keyed.Distinct, hrecords]
    exact hnames
  refine hdistinct.getElem?_of_find? (k := ip.name)
    (p := fun r => decide (r.phase = .successful ∨ r.phase = .timedOutMaybeSuccessful)) ?_ ?_
  · rw [hrecords, List.getElem?_map, hip]
    rfl
  · rw [← hr, recordedFinalDrain]
    simp only [Bool.decide_and]

section Drains

variable {ctx : Ctx} {bgd : BlueGreenDeployment} {ns : String}

/-- A turn of the drain loop writes one record under the name of the point: the recorded one where
there is one that is final. -/
theorem reconcileDrain_writes (elapsed : Int) (statuses : List InceptionPointDrainStatus)
    (ip : InceptionPoint) : (reconcileDrain ctx bgd ns elapsed statuses ip).Returns fun statuses' =>
      ∃ status : InceptionPointDrainStatus, statuses' = statuses ++ [status] ∧
        status.name = ip.name ∧
        ∀ r, recordedFinalDrain bgd.inceptionPointDrains ip = some r → status = r := by
  have hname : (drainStatusOf ctx bgd ns ip).Returns fun status => status.name = ip.name := by
    refine .of_bind fun r => .of_bind fun plugin => .of_bind fun answer => ?_
    cases answer with
    | none => exact .of_bind fun now => rfl
    | some answer =>
      dsimp only
      split
      · exact .of_bind fun now => rfl
      · rfl
  unfold reconcileDrain
  cases hrecorded : recordedFinalDrain bgd.inceptionPointDrains ip with
  | some existing =>
    have hfound := List.find?_some hrecorded
    rw [decide_eq_true_eq] at hfound
    refine ⟨existing, rfl, hfound.1, fun r hr => ?_⟩
    exact Option.some.inj hr
  | none =>
    dsimp only
    split
    · exact .of_bind fun now => ⟨_, rfl, rfl, fun r hr => by cases hr⟩
    · refine hname.result.bind fun r hr => ?_
      cases r with
      | ok status => exact ⟨status, rfl, hr status rfl, fun r hr => by cases hr⟩
      | error e => exact .of_bind fun _ => trivial

/-- **The drain loop** writes one record for each point, and a reused one in the point's place. -/
theorem drains_written (elapsed : Int) :
    (Prog.foldEach bgd.spec.inceptionPoints [] (reconcileDrain ctx bgd ns elapsed)).Returns
      fun written => RecordsOf bgd.spec.inceptionPoints written ∧
        ∀ (i : Nat) (ip : InceptionPoint), bgd.spec.inceptionPoints[i]? = some ip → ∀ r,
          recordedFinalDrain bgd.inceptionPointDrains ip = some r → written[i]? = some r := by
  refine .foldEachDone (P := fun done written => RecordsOf done written ∧
    ∀ (i : Nat) (ip : InceptionPoint), done[i]? = some ip → ∀ r,
      recordedFinalDrain bgd.inceptionPointDrains ip = some r → written[i]? = some r)
    ⟨rfl, fun i ip h => by simp at h⟩ ?_
  intro done ip rest _ written hwritten
  obtain ⟨hrecords, hreused⟩ := hwritten
  refine (reconcileDrain_writes elapsed written ip).mono fun written' hturn => ?_
  obtain ⟨status, rfl, hname, hstatus⟩ := hturn
  have hlength : written.length = done.length := by
    have h := congrArg List.length hrecords
    simpa using h
  constructor
  · rw [RecordsOf, List.map_append, List.map_append, hrecords, List.map_cons, hname]
    rfl
  · intro i ip' hip' r hr
    by_cases hi : i < done.length
    · rw [List.getElem?_append_left hi] at hip'
      rw [List.getElem?_append_left (by omega)]
      exact hreused i ip' hip' r hr
    · rw [List.getElem?_append_right (by omega), List.getElem?_singleton] at hip' ⊢
      rw [hlength]
      by_cases hlast : i - done.length = 0
      · rw [if_pos hlast] at hip' ⊢
        cases hip'
        rw [hstatus r hr]
      · rw [if_neg hlast] at hip'
        cases hip'

end Drains

/-! ## Standing apart -/

/-- No two points share a name of an object, an addressee, an entry of the token map or a record. -/
structure StandAlone (ctx : Ctx) (bgd : BlueGreenDeployment) (ns : String) : Prop where
  names : bgd.spec.inceptionPoints.Pairwise fun a b => PointsApart bgd.metadata.name a.name b.name
  calls : bgd.spec.inceptionPoints.Pairwise fun a b => ∀ c : Call,
    c.Addresses bgd.metadata.name ns a.name → ¬ c.Addresses bgd.metadata.name ns b.name
  tokens : ∀ testUrl, (Prog.foldEach bgd.spec.inceptionPoints Preparation.empty
    (prepareInceptionPoint ctx bgd ns testUrl)).Returns (OwnTokens ctx bgd ns)
  records : ReusesOwn bgd.spec.inceptionPoints

/-- **Inception points stand alone** exactly where no two of them have names that collide.

Whatever their names are, each turn of a phase is addressed to its own point, and a drain loop
writes one record for each point and the reused ones in their place. So what the points share is
what they share by name: points of one name, and points whose labels agree in 35 characters and
whose digests agree in 48 bits. -/
theorem points_stand_alone_iff (ctx : Ctx) (bgd : BlueGreenDeployment) (ns : String) :
    (StandAlone ctx bgd ns ↔ bgd.spec.inceptionPoints.Pairwise fun a b =>
      ¬ Collide bgd.metadata.name a.name b.name) ∧
    (∀ ip, MindsOwn ctx bgd ns ip) ∧
    (∀ elapsed, (Prog.foldEach bgd.spec.inceptionPoints []
      (reconcileDrain ctx bgd ns elapsed)).Returns fun written =>
        RecordsOf bgd.spec.inceptionPoints written ∧
        ∀ (i : Nat) (ip : InceptionPoint), bgd.spec.inceptionPoints[i]? = some ip → ∀ r,
          recordedFinalDrain bgd.inceptionPointDrains ip = some r → written[i]? = some r) := by
  refine ⟨⟨fun h => h.names.imp fun hapart => apart_iff.mp hapart, fun h => ?_⟩,
    mindsOwn ctx bgd ns, drains_written⟩
  have hnames : (bgd.spec.inceptionPoints.map (·.name)).Nodup := by
    rw [List.Nodup, List.pairwise_map]
    refine h.imp ?_
    intro a b hcollide heq
    rw [heq] at hcollide
    exact hcollide (Collide.refl _ _)
  have hapart := h.imp fun hcollide => apart_iff.mpr hcollide
  refine ⟨hapart, hapart.imp ?_, ownTokens hnames, reusesOwn hnames⟩
  intro a b h c ha
  exact h.not_addresses ha

namespace Sample

/-- Two points, one for the orders and one for the payments, with these names. -/
def twoPoints (first second : String) : BlueGreenDeployment :=
  { bgd .pending with spec := { spec with inceptionPoints := [
      { orders with name := first, config := .obj [("duplicator", .obj [])] },
      { orders with name := second, config := .obj [("splitter", .obj [])] }] } }

end Sample

def pointsStandAloneOrdersPaymentsLabels : PLift (truncateLabel (labelOr "ip" "orders") 35 ≠
      truncateLabel (labelOr "ip" "payments") 35) :=
  ⟨by decide +kernel⟩

theorem points_stand_alone_orders_payments :
    StandAlone Sample.ctx (Sample.twoPoints "orders" "payments") "default" := by
  refine (points_stand_alone_iff Sample.ctx (Sample.twoPoints "orders" "payments")
    "default").1.mpr ?_
  have hlabels := pointsStandAloneOrdersPaymentsLabels.down
  refine List.pairwise_pair.mpr fun hcollide => ?_
  exact hlabels hcollide.1

/-- Two points of one name are accepted, get the same Deployment, and the drain of the second one
ends with the record of the first. -/
theorem points_of_one_name_share :
    (∀ ip ∈ (Sample.twoPoints "orders" "orders").spec.inceptionPoints,
      validateInceptionPoint Sample.crates Sample.plugin ip = .ok ()) ∧
    ¬ StandAlone Sample.ctx (Sample.twoPoints "orders" "orders") "default" ∧
    ¬ ReusesOwn (Sample.twoPoints "orders" "orders").spec.inceptionPoints := by
  refine ⟨?_, fun h => ?_, fun h => ?_⟩
  · intro ip hip
    rcases List.mem_cons.mp hip with rfl | hip
    · rfl
    · rw [List.mem_singleton.mp hip]
      rfl
  · exact (List.pairwise_pair.mp h.names).deployment rfl
  · have hsecond := h [⟨"orders", .timedOutMaybeSuccessful, none, none⟩,
      ⟨"orders", .pending, none, none⟩] rfl 1 _ rfl _ rfl
    cases hsecond

end FluidBG
