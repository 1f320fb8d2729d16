import FluidBG.Proof.Cleanup
import FluidBG.Proof.Status
import FluidBG.Sample
/-!
# The end of a drain

Once every inception point has drained or has run out of time, `finalize_draining` tells the
inceptors and the managers that the rollout is over, deletes what the rollout has created, and
writes the terminal phase. The first of these is where it may come to a stop: an inceptor that does
not answer is an error like any other, so the drain of a dead inceptor is over, and yet its rollout
does not end.
-/

set_option autoImplicit false

namespace FluidBG

open Lib

/-! ## Programs that only read -/

/-- In a cluster that answers, the program changes nothing; it returns a value of `ok`, or fails
where `fails` holds. -/
abbrev Op.Decides {α : Type} (alive : String → Bool) (w : World) (p : Op α) (ok : α → Prop)
    (fails : Prop) : Prop :=
  (served alive).Spec .free (fun a w' => Aged w w' ∧ ok a) (fun _ w' => Aged w w' ∧ fails) p w

section Deciding

variable {α β : Type} {alive : String → Bool} {w : World} {ok : α → Prop} {fails : Prop}

theorem Op.Decides.bind {p : Op β} {f : β → Op α} {ok₁ : β → Prop} {fails₁ : Prop}
    (hp : Op.Decides alive w p ok₁ fails₁) (hfails : fails₁ → fails)
    (hf : ∀ b w', Aged w w' → ok₁ b → Op.Decides alive w' (f b) ok fails) :
    Op.Decides alive w (p.bind f) ok fails := by
  refine Outside.Spec.bind (R := fun b w' => Aged w w' ∧ ok₁ b) ?_ ?_
  · refine hp.mono (fun _ _ h => h) ?_
    intro _ w' h
    exact ⟨h.1, hfails h.2⟩
  · rintro b w' ⟨hage, hb⟩
    refine (hf b w' hage hb).mono ?_ ?_
    · intro a w'' h
      exact ⟨hage.trans h.1, h.2⟩
    · intro _ w'' h
      exact ⟨hage.trans h.1, h.2⟩

theorem Op.Decides.pure {a : α} (h : ok a) : Op.Decides alive w (.pure a) ok fails :=
  ⟨.refl w, h⟩

theorem Op.Decides.fail {e : ReconcileError} (h : fails) :
    Op.Decides alive w (.fail e : Op α) ok fails :=
  ⟨.refl w, h⟩

theorem Op.Decides.mono {p : Op α} {ok' : α → Prop} {fails' : Prop}
    (h : Op.Decides alive w p ok fails) (hok : ∀ a, ok a → ok' a) (hfails : fails → fails') :
    Op.Decides alive w p ok' fails' :=
  Outside.Spec.mono h (fun a _ h => ⟨h.1, hok a h.2⟩) fun _ _ h => ⟨h.1, hfails h.2⟩

/-- A read: the rest goes on with the answer in a world of the same age or older. -/
theorem Op.Decides.read {c : Call} {k : Answer c → Op α} {a : Answer c} (hc : c.Plain)
    (hserve : w.serve c .ok = some (a, w))
    (h : ∀ w', Aged w w' → Op.Decides alive w' (k a) ok fails) :
    Op.Decides alive w (.call c k) ok fails := by
  refine served_plain hc hserve ?_
  intro _ w' hage
  refine Outside.Spec.mono (h w' hage) ?_ ?_
  · intro b w'' hb
    exact ⟨hage.trans hb.1, hb.2⟩
  · intro _ w'' hb
    exact ⟨hage.trans hb.1, hb.2⟩

/-- A caught outcome. -/
theorem Op.Decides.result {p : Op β} {ok₁ : β → Prop} {fails₁ : Prop}
    (hp : Op.Decides alive w p ok₁ fails₁) :
    Op.Decides alive w (p.result : Op (Except ReconcileError β))
      (fun r => (∀ b, r = .ok b → ok₁ b) ∧ ∀ e, r = .error e → fails₁) fails := by
  refine Outside.Spec.result (Outside.Spec.mono hp ?_ ?_)
  · rintro b w' ⟨hage, hb⟩
    refine ⟨hage, ?_, ?_⟩
    · rintro b' heq
      cases heq
      exact hb
    · intro e heq
      cases heq
  · rintro e w' ⟨hage, hfails⟩
    refine ⟨hage, ?_, fun _ _ => hfails⟩
    intro b heq
    cases heq

end Deciding

/-! ## Tokens -/

namespace World

/-- The key of the operator, where its Secret has one. -/
def signingKey (w : World) (auth : AuthConfig) : Option String :=
  (w.getResource .secret auth.signingSecretNamespace auth.signingSecretName).toOption.bind
    fun secret => (secret.data.get auth.signingSecretKey).filter fun key => key ≠ ""

/-- The token of an inception point. -/
def signedToken (w : World) (ctx : Ctx) (ns blueGreenRef inceptionPoint : String)
    (plugin : InceptionPlugin) : Option String :=
  (w.signingKey ctx.auth).bind fun key => (w.getBgd ns blueGreenRef).toOption.bind fun bgd =>
    bgd.metadata.uid.bind fun uid =>
      (ctx.crates.signToken
        (.newWithUid ns blueGreenRef uid inceptionPoint plugin.name) key).toOption

/-- The claims that the operator reads back from a token. -/
def checkedClaims (w : World) (ctx : Ctx) (token : String) : Option PluginAuthClaims :=
  (w.signingKey ctx.auth).bind fun key => (ctx.crates.verifyToken token key).toOption

end World

theorem getResource_aged {w w' : World} (hage : Aged w w') {kind : Kind} (hkind : kind ≠ .pod)
    (ns name : String) : w'.getResource kind ns name = w.getResource kind ns name := by
  have hfind : ∀ v : World, (v.resources.find? fun r => World.IsResource kind ns name r) =
      v.objects.find? fun r => World.IsResource kind ns name r := by
    intro v
    rw [World.objects, List.find?_filter]
    congr 1
    funext r
    by_cases hr : r.kind = kind <;> simp [World.IsResource, hr, hkind]
  simp only [World.getResource, hfind, hage.objects]

section Tokens

variable {alive : String → Bool} {w w' : World} {ctx : Ctx}

theorem signingKey_aged (hage : Aged w w') (auth : AuthConfig) :
    w'.signingKey auth = w.signingKey auth := by
  simp only [World.signingKey, getResource_aged hage (show Kind.secret ≠ .pod by simp)]

theorem getBgd_aged (hage : Aged w w') (ns name : String) : w'.getBgd ns name = w.getBgd ns name := by
  simp only [World.getBgd, World.findBgd, hage.bgd]

theorem signedToken_aged (hage : Aged w w') (ns blueGreenRef inceptionPoint : String)
    (plugin : InceptionPlugin) :
    w'.signedToken ctx ns blueGreenRef inceptionPoint plugin =
      w.signedToken ctx ns blueGreenRef inceptionPoint plugin := by
  simp only [World.signedToken, signingKey_aged hage, getBgd_aged hage]

theorem checkedClaims_aged (hage : Aged w w') (token : String) :
    w'.checkedClaims ctx token = w.checkedClaims ctx token := by
  simp only [World.checkedClaims, signingKey_aged hage]

theorem readOperatorSigningKey_decides (auth : AuthConfig) :
    Op.Decides alive w (readOperatorSigningKey auth) (fun key => w.signingKey auth = some key)
      (w.signingKey auth = none) := by
  refine Op.Decides.read trivial rfl fun w' hage => ?_
  unfold World.signingKey
  cases hsecret : w.getResource .secret auth.signingSecretNamespace auth.signingSecretName with
  | error e => exact Op.Decides.fail rfl
  | ok secret =>
    simp only [Op.kube, Prog.bind_def, Prog.pure_bind]
    cases hkey : secret.data.get auth.signingSecretKey with
    | none => exact Op.Decides.fail (by simp [Except.toOption, hkey])
    | some key =>
      by_cases hempty : key = ""
      · subst hempty
        exact Op.Decides.fail (by simp [Except.toOption, hkey])
      · simp only [ne_eq, hempty, not_false_eq_true, if_true]
        exact Op.Decides.pure (by simp [Except.toOption, hkey, hempty])

theorem signInceptionAuthToken_decides (ns blueGreenRef inceptionPoint : String)
    (plugin : InceptionPlugin) :
    Op.Decides alive w (signInceptionAuthToken ctx ns blueGreenRef inceptionPoint plugin)
      (fun token => w.signedToken ctx ns blueGreenRef inceptionPoint plugin = some token)
      (w.signedToken ctx ns blueGreenRef inceptionPoint plugin = none) := by
  refine (readOperatorSigningKey_decides ctx.auth).bind ?_ ?_
  · intro hkey
    simp [World.signedToken, hkey]
  · intro key w₁ hage₁ hkey
    refine Op.Decides.read trivial rfl fun w₂ hage₂ => ?_
    rw [getBgd_aged hage₁]
    unfold World.signedToken
    rw [hkey]
    cases hbgd : w.getBgd ns blueGreenRef with
    | error e => exact Op.Decides.fail rfl
    | ok bgd =>
      simp only [Op.kube, Prog.bind_def, Prog.pure_bind]
      cases huid : bgd.metadata.uid with
      | none => exact Op.Decides.fail (by simp [Except.toOption, huid])
      | some uid =>
        cases hsign : ctx.crates.signToken
            (.newWithUid ns blueGreenRef uid inceptionPoint plugin.name) key with
        | error e =>
          simp only [hsign]
          exact Op.Decides.fail (by simp [Except.toOption, huid, hsign])
        | ok token =>
          simp only [hsign]
          exact Op.Decides.pure (by simp [Except.toOption, huid, hsign])

/-- The claims of a token that the operator has made itself. -/
theorem managerClaims_decides (token : String) :
    Op.Decides alive w (managerClaims ctx token) (fun _ => (w.checkedClaims ctx token).isSome)
      (¬ (w.checkedClaims ctx token).isSome) := by
  have hvalidate : Op.Decides alive w (validateInceptionAuthToken ctx token)
      (fun claims => w.checkedClaims ctx token = claims) (w.checkedClaims ctx token = none) := by
    refine (readOperatorSigningKey_decides ctx.auth).bind ?_ ?_
    · intro hkey
      simp [World.checkedClaims, hkey]
    · intro key w₁ _ hkey
      cases hverify : ctx.crates.verifyToken token key with
      | error e =>
        exact Op.Decides.pure (by simp [World.checkedClaims, hkey, Except.toOption, hverify])
      | ok claims =>
        exact Op.Decides.pure (by simp [World.checkedClaims, hkey, Except.toOption, hverify])
  refine hvalidate.result.bind id ?_
  rintro r w₁ - ⟨hok, herror⟩
  cases r with
  | error e => exact Op.Decides.fail (by simp [herror e rfl])
  | ok claims =>
    have hclaims := hok claims rfl
    cases claims with
    | none => exact Op.Decides.fail (by simp [hclaims])
    | some claims => exact Op.Decides.pure (by simp [hclaims])

end Tokens

/-! ## Telling the plugins -/

section Telling

variable {alive : String → Bool} {w w' : World} {ctx : Ctx}

theorem controlPlaneClient_decides (tls : Option ControlPlaneTls) :
    Op.Decides alive w (controlPlaneClient tls) (fun _ => True) False :=
  Op.Decides.read trivial rfl fun _ _ => Op.Decides.pure trivial

theorem postInceptor_answer {url bearer : String} {o : Outcome}
    {answer : HttpAnswer PluginLifecycleResponse}
    (hg : (serving alive).call w (.postInceptor url bearer) o)
    (h : w.serve (.postInceptor url bearer) o = some (answer, w')) :
    w' = w ∧ answer.succeeded = alive url := by
  cases o with
  | inceptor a =>
    cases h
    exact ⟨rfl, hg⟩
  | _ => cases h

theorem postManager_answer {url bearer : String} {request : PluginManagerLifecycleRequest}
    {o : Outcome} {answer : HttpAnswer (Option PluginLifecycleResponse)}
    (hg : (serving alive).call w (.postManager url bearer request) o)
    (h : w.serve (.postManager url bearer request) o = some (answer, w')) :
    w' = w ∧ answer.succeeded = true := by
  cases o with
  | manager a =>
    cases h
    exact ⟨rfl, hg⟩
  | _ => cases h

/-- **A request with retries** ends well when the inceptor is alive, and only then. -/
theorem postInceptor_decides (url bearer : String) (failed decodeFailed : String → ReconcileError) :
    Op.Decides alive w (withRetries 10 (Op.ask (.postInceptor url bearer)) failed decodeFailed
        (some : PluginLifecycleResponse → Option PluginLifecycleResponse) none)
      (fun _ => alive url = true) (¬ alive url = true) := by
  refine Outside.Spec.retryWithin (P := fun w' => Aged w w') (by omega) (.refl w) ?_
  intro i w₁ hi hage
  refine served_call ?_
  intro o answer w₂ hg hw w₃ hage₃
  obtain ⟨rfl, halive⟩ := postInceptor_answer hg hw
  have hage' : Aged w w₃ := hage.trans hage₃
  cases answer with
  | ok value => exact ⟨hage', halive.symm⟩
  | statusError text => exact ⟨hage', by simp [← halive, HttpAnswer.succeeded]⟩
  | decodeError text => exact ⟨hage', by simp [← halive, HttpAnswer.succeeded]⟩
  | sendError text =>
    by_cases hlast : i + 1 = 10
    · -- the last try gives up
      simp only [httpTry, hlast, decide_true, if_true]
      exact ⟨hage', by simp [← halive, HttpAnswer.succeeded]⟩
    · simp only [httpTry, hlast, decide_false, Bool.false_eq_true, if_false]
      refine served_plain trivial rfl ?_
      intro _ w₄ hage₄
      exact ⟨hage'.trans hage₄, by omega⟩

/-- A manager answers at once. -/
theorem postManager_decides (url bearer : String) (request : PluginManagerLifecycleRequest)
    (failed decodeFailed : String → ReconcileError)
    (ok : Option PluginLifecycleResponse → Option PluginLifecycleResponse) :
    Op.Decides alive w (withRetries 10 (Op.ask (.postManager url bearer request)) failed
      decodeFailed ok none) (fun _ => True) False := by
  refine Outside.Spec.retryFirst (by omega) ?_
  refine served_call ?_
  intro o answer w₂ hg hw w₃ hage₃
  obtain ⟨rfl, hanswered⟩ := postManager_answer hg hw
  cases answer with
  | ok value => exact ⟨_, rfl, hage₃, trivial⟩
  | _ => simp [HttpAnswer.succeeded] at hanswered

/-- **What telling an inceptor needs**, where it is to be told at all: a token, and that it
answers. -/
def InceptorHears (alive : String → Bool) (w : World) (ctx : Ctx) (ns blueGreenRef : String)
    (ip : InceptionPoint) (plugin : InceptionPlugin) : Prop :=
  ∀ path, plugin.spec.lifecycle.bind (·.cleanupPath) = some path →
    (w.signedToken ctx ns blueGreenRef ip.name plugin).isSome ∧
      alive (inceptorUrl plugin ns blueGreenRef ip.name path) = true

/-- And telling the manager, where the plugin has one: a token that the operator can read back. -/
def ManagerHears (w : World) (ctx : Ctx) (ns blueGreenRef : String) (ip : InceptionPoint)
    (plugin : InceptionPlugin) : Prop :=
  plugin.spec.manager.isSome → ∃ token,
    w.signedToken ctx ns blueGreenRef ip.name plugin = some token ∧
      (w.checkedClaims ctx token).isSome

theorem invokeInceptorLifecycle_decides (ns blueGreenRef : String) (ip : InceptionPoint)
    (plugin : InceptionPlugin) :
    Op.Decides alive w (invokeInceptorLifecycle ctx blueGreenRef ns ip.name plugin .cleanup)
      (fun _ => InceptorHears alive w ctx ns blueGreenRef ip plugin)
      (¬ InceptorHears alive w ctx ns blueGreenRef ip plugin) := by
  unfold invokeInceptorLifecycle
  have hpath : (plugin.spec.lifecycle.bind fun lifecycle => lifecyclePath lifecycle .cleanup) =
      plugin.spec.lifecycle.bind (·.cleanupPath) := rfl
  rw [hpath]
  cases hcleanup : plugin.spec.lifecycle.bind (·.cleanupPath) with
  | none => exact Op.Decides.pure fun path h => by simp [hcleanup] at h
  | some path =>
    have hears : InceptorHears alive w ctx ns blueGreenRef ip plugin ↔
        (w.signedToken ctx ns blueGreenRef ip.name plugin).isSome ∧
          alive (inceptorUrl plugin ns blueGreenRef ip.name path) = true := by
      simp [InceptorHears, hcleanup]
    rw [hears]
    refine (controlPlaneClient_decides _).bind False.elim ?_
    intro _ w₁ hage₁ _
    refine (signInceptionAuthToken_decides ns blueGreenRef ip.name plugin).bind ?_ ?_
    · intro hnone
      rw [signedToken_aged hage₁] at hnone
      simp [hnone]
    · intro token w₂ hage₂ htoken
      rw [signedToken_aged hage₁] at htoken
      refine (postInceptor_decides _ _ _ _).mono ?_ ?_
      · intro _ halive
        exact ⟨by simp [htoken], halive⟩
      · intro hdead hears
        exact hdead hears.2

theorem invokePluginManagerLifecycle_decides (ns blueGreenRef : String) (ip : InceptionPoint)
    (plugin : InceptionPlugin) :
    Op.Decides alive w (invokePluginManagerLifecycle ctx blueGreenRef ns ip plugin .cleanup)
      (fun _ => ManagerHears w ctx ns blueGreenRef ip plugin)
      (¬ ManagerHears w ctx ns blueGreenRef ip plugin) := by
  unfold invokePluginManagerLifecycle
  cases hmanager : plugin.spec.manager with
  | none => exact Op.Decides.pure fun h => by simp [hmanager] at h
  | some manager =>
    have hears : ManagerHears w ctx ns blueGreenRef ip plugin ↔
        ∃ token, w.signedToken ctx ns blueGreenRef ip.name plugin = some token ∧
          (w.checkedClaims ctx token).isSome := by
      simp [ManagerHears, hmanager]
    rw [hears]
    refine (signInceptionAuthToken_decides ns blueGreenRef ip.name plugin).bind ?_ ?_
    · intro hnone
      simp [hnone]
    · intro token w₁ hage₁ htoken
      refine (managerClaims_decides token).bind ?_ ?_
      · rw [checkedClaims_aged hage₁]
        rintro hunread ⟨token', htoken', hread⟩
        cases htoken.symm.trans htoken'
        exact hunread hread
      · intro claims w₂ hage₂ hread
        rw [checkedClaims_aged hage₁] at hread
        refine Op.Decides.read trivial rfl fun w₃ hage₃ => ?_
        refine (controlPlaneClient_decides _).bind False.elim ?_
        intro _ w₄ hage₄ _
        exact (postManager_decides _ _ _ _ _ _).mono (fun _ _ => ⟨token, htoken, hread⟩) False.elim

/-- **What the end of a drain needs of a point**: its plugin, and that the plugin can be told. -/
def Tellable (alive : String → Bool) (w : World) (ctx : Ctx) (ns blueGreenRef : String)
    (ip : InceptionPoint) : Prop :=
  ∃ plugin, w.getPlugin ip.pluginRef.name = .ok plugin ∧
    InceptorHears alive w ctx ns blueGreenRef ip plugin ∧
    ManagerHears w ctx ns blueGreenRef ip plugin

theorem Tellable.aged (hage : Aged w w') (ns blueGreenRef : String) (ip : InceptionPoint) :
    Tellable alive w' ctx ns blueGreenRef ip ↔ Tellable alive w ctx ns blueGreenRef ip := by
  simp only [Tellable, InceptorHears, ManagerHears, signedToken_aged hage, checkedClaims_aged hage,
    World.getPlugin, hage.plugins]

theorem cleanupPlugin_decides (bgd : BlueGreenDeployment) (ns : String) (ip : InceptionPoint) :
    Op.Decides alive w (cleanupPlugin ctx bgd ns ip)
      (fun _ => Tellable alive w ctx ns bgd.metadata.name ip)
      (¬ Tellable alive w ctx ns bgd.metadata.name ip) := by
  refine Op.Decides.read trivial rfl fun w₁ hage₁ => ?_
  unfold Tellable
  cases hplugin : w.getPlugin ip.pluginRef.name with
  | error e => exact Op.Decides.fail (by simp)
  | ok plugin =>
    simp only [Except.ok.injEq, exists_eq_left']
    have hsame : InceptorHears alive w₁ ctx ns bgd.metadata.name ip plugin ↔
        InceptorHears alive w ctx ns bgd.metadata.name ip plugin := by
      simp only [InceptorHears, signedToken_aged hage₁]
    refine (invokeInceptorLifecycle_decides ns bgd.metadata.name ip plugin).bind ?_ ?_
    · intro hdeaf hears
      exact hdeaf (hsame.mpr hears.1)
    · intro _ w₂ hage₂ hinceptor
      have hmanager : ManagerHears w₂ ctx ns bgd.metadata.name ip plugin ↔
          ManagerHears w ctx ns bgd.metadata.name ip plugin := by
        simp only [ManagerHears, signedToken_aged (hage₁.trans hage₂),
          checkedClaims_aged (hage₁.trans hage₂)]
      refine (invokePluginManagerLifecycle_decides ns bgd.metadata.name ip plugin).bind ?_ ?_
      · intro hdeaf hears
        exact hdeaf (hmanager.mpr hears.2)
      · intro _ w₃ _ hears
        exact Op.Decides.pure ⟨hsame.mp hinceptor, hmanager.mp hears⟩

/-- **All plugins are told**, or one of them cannot be. -/
theorem cleanupPlugins_decides (bgd : BlueGreenDeployment) (ns : String) :
    Op.Decides alive w (Prog.forEach bgd.spec.inceptionPoints (cleanupPlugin ctx bgd ns))
      (fun _ => ∀ ip ∈ bgd.spec.inceptionPoints, Tellable alive w ctx ns bgd.metadata.name ip)
      (¬ ∀ ip ∈ bgd.spec.inceptionPoints, Tellable alive w ctx ns bgd.metadata.name ip) := by
  refine Outside.Spec.forEachDone (P := fun done w' => Aged w w' ∧
    ∀ ip ∈ done, Tellable alive w ctx ns bgd.metadata.name ip) ⟨.refl w, by simp⟩ ?_
  rintro done ip hip w₁ ⟨hage, hdone⟩
  refine Outside.Spec.mono (cleanupPlugin_decides bgd ns ip) ?_ ?_
  · rintro _ w₂ ⟨hage₂, htold⟩
    refine ⟨hage.trans hage₂, fun ip' hip' => ?_⟩
    rcases List.mem_append.mp hip' with hip' | hip'
    · exact hdone ip' hip'
    · cases List.mem_singleton.mp hip'
      exact (Tellable.aged hage _ _ _).mp htold
  · rintro _ w₂ ⟨hage₂, hdeaf⟩
    exact ⟨hage.trans hage₂, fun hall => hdeaf ((Tellable.aged hage _ _ _).mpr (hall ip hip))⟩

end Telling

/-! ## The end of the drain -/

/-- The phase of the object under this name. -/
def World.storedPhase (w : World) (ns name : String) : Option BGDPhase :=
  (w.findBgd ns name).bind (·.phase)

/-- A world in which only the objects of the rollout's own names are missing. -/
structure Trimmed (bgd : BlueGreenDeployment) (ns : String) (w₀ : World) (ds : List String)
    (rs : List (Kind × String)) (w : World) : Prop where
  deployments : w.deployments = w₀.deployments.filter fun d =>
    ¬ (d.metadata.ns = ns ∧ d.metadata.name ∈ ds)
  objects : w.objects = w₀.objects.filter fun r =>
    ¬ (r.metadata.ns = ns ∧ (r.kind, r.metadata.name) ∈ rs)
  store : w.store = w₀.store
  ownDeployments : ∀ name ∈ ds, name ∈ rolloutDeployments bgd
  ownObjects : ∀ r ∈ rs, r ∈ rolloutObjects bgd

section Ending

variable {alive : String → Bool} {ctx : Ctx} {bgd live latest : BlueGreenDeployment}
  {ns stateKey : String} {w₀ w w' : World} {ds : List String} {rs : List (Kind × String)}
  {E : ReconcileError → World → Prop}

theorem Trimmed.aged (h : Trimmed bgd ns w₀ ds rs w) (hage : Aged w w') :
    Trimmed bgd ns w₀ ds rs w' where
  deployments := hage.deployments.trans h.deployments
  objects := hage.objects.trans h.objects
  store := hage.store.trans h.store
  ownDeployments := h.ownDeployments
  ownObjects := h.ownObjects

theorem Trimmed.of_aged (hage : Aged w w') : Trimmed bgd ns w [] [] w' :=
  ⟨by simp [hage.deployments], by simp [hage.objects], hage.store, by simp, by simp⟩

theorem Swept.trimmed (h : Swept ns w₀ ds rs w) (hds : ∀ name ∈ ds, name ∈ rolloutDeployments bgd)
    (hrs : ∀ r ∈ rs, r ∈ rolloutObjects bgd) : Trimmed bgd ns w₀ ds rs w :=
  ⟨h.deployments, h.objects, h.store, hds, hrs⟩

/-- Where nothing of the rollout was there, nothing is missing. -/
theorem Trimmed.same (h : Trimmed bgd ns w₀ ds rs w) (hremoved : w₀.Removed bgd ns) :
    w.deployments = w₀.deployments ∧ w.objects = w₀.objects ∧ w.store = w₀.store := by
  refine ⟨h.deployments.trans ?_, h.objects.trans ?_, h.store⟩
  · refine List.filter_eq_self.mpr fun d hd => decide_eq_true ?_
    rintro ⟨hns, hname⟩
    exact hremoved.deployments d hd hns (h.ownDeployments _ hname)
  · refine List.filter_eq_self.mpr fun r hr => decide_eq_true ?_
    rintro ⟨hns, hname⟩
    exact hremoved.objects r hr hns (h.ownObjects _ hname)

theorem Trimmed.removed
    (h : Trimmed bgd ns w₀ (rolloutDeployments bgd) (rolloutObjects bgd) w) :
    w.Removed bgd ns := by
  constructor
  · intro d hd hns hname
    rw [h.deployments] at hd
    exact of_decide_eq_true (List.mem_filter.mp hd).2 ⟨hns, hname⟩
  · intro r hr hns hname
    rw [h.objects] at hr
    exact of_decide_eq_true (List.mem_filter.mp hr).2 ⟨hns, hname⟩

/-! ### The phase -/

theorem findBgd_aged (hage : Aged w w') (name : String) : w'.findBgd ns name = w.findBgd ns name := by
  simp only [World.findBgd, hage.bgd]

theorem storedPhase_aged (hage : Aged w w') (name : String) :
    w'.storedPhase ns name = w.storedPhase ns name := by
  simp only [World.storedPhase, findBgd_aged hage]

theorem getBgd_found {name : String} (h : w.findBgd ns name = some latest) :
    w.getBgd ns name = .ok latest := by
  simp [World.getBgd, h]

/-- What is written to the object that was read is stored, with a new version. -/
theorem findBgd_writeBgd {name : String} {b : BlueGreenDeployment}
    (h : w.findBgd ns name = some latest) (hns : b.metadata.ns = latest.metadata.ns)
    (hname : b.metadata.name = latest.metadata.name) :
    (w.writeBgd b).findBgd ns name =
      some { b with metadata := { b.metadata with resourceVersion := w.nextVersion } } := by
  obtain ⟨-, hkey⟩ := Option.filter_eq_some_iff.mp h
  simp only [decide_eq_true_eq] at hkey
  simp [World.findBgd, World.writeBgd, Option.filter, hns, hname, hkey.1, hkey.2]

/-- **The phase write.** Nobody else writes, so it takes place unless it is stale. -/
theorem updateStatusPhase_served (phase : BGDPhase)
    (hstored : w.findBgd ns bgd.metadata.name = some latest) :
    (served alive).Spec .free (fun _ w' => w'.deployments = w.deployments ∧
        w'.objects = w.objects ∧ w'.store = w.store ∧
        w'.storedPhase ns bgd.metadata.name =
          if phaseUpdateIsCurrent latest phase (currentRolloutGeneration bgd) then some phase
          else latest.phase) E
      (updateStatusPhase bgd ns phase) w := by
  refine served_plain trivial rfl ?_
  intro _ w₁ hage₁
  rw [getBgd_found hstored]
  by_cases hcurrent : phaseUpdateIsCurrent latest phase (currentRolloutGeneration bgd) = true
  · simp only [Prog.pure_bind, hcurrent, if_true]
    refine served_plain trivial rfl ?_
    intro _ w₂ hage₂
    have hage := Aged.trans hage₁ hage₂
    have hstored₂ : w₂.findBgd ns bgd.metadata.name = some latest :=
      (findBgd_aged hage _).trans hstored
    refine served_plain trivial rfl ?_
    intro _ w₃ hage₃
    obtain ⟨written, hwritten⟩ : ∃ b, b = withPhase latest phase (currentRolloutGeneration bgd)
        (conditionsForPhase phase (currentRolloutGeneration bgd) w₁.clock) := ⟨_, rfl⟩
    have hreplace : (w₂.replaceStatus ns bgd.metadata.name written).2 = w₂.writeBgd written := by
      simp [World.replaceStatus, hstored₂, hwritten, withPhase]
    have hage₃' : Aged (w₂.writeBgd written) w₃ := by
      rw [← hreplace, hwritten]
      exact hage₃
    have hfound := findBgd_writeBgd (b := written) hstored₂ (by rw [hwritten]; rfl)
      (by rw [hwritten]; rfl)
    refine ⟨hage₃'.deployments.trans hage.deployments, hage₃'.objects.trans hage.objects,
      hage₃'.store.trans hage.store, ?_⟩
    rw [storedPhase_aged hage₃', World.storedPhase, hfound, hwritten]
    rfl
  · simp only [Prog.pure_bind, hcurrent, Bool.false_eq_true, if_false]
    refine ⟨hage₁.deployments, hage₁.objects, hage₁.store, ?_⟩
    rw [storedPhase_aged hage₁, World.storedPhase, hstored]
    rfl

/-- **Finalizing.** Either all plugins are told, the labels refer to nothing else, and the rollout's
objects are gone; or not, and only objects of the rollout are missing. -/
theorem finalizeDraining_served (failures : Bool)
    (hstored : w.findBgd ns bgd.metadata.name = some latest) :
    (served alive).Spec .free
      (fun _ w' => ((∀ ip ∈ bgd.spec.inceptionPoints, Tellable alive w ctx ns bgd.metadata.name ip) ∧
          w.Reclaimable bgd ns) ∧
        Trimmed bgd ns w (rolloutDeployments bgd) (rolloutObjects bgd) w' ∧
        w'.storedPhase ns bgd.metadata.name =
          if phaseUpdateIsCurrent latest (finalPhase bgd failures) (currentRolloutGeneration bgd)
            then some (finalPhase bgd failures) else latest.phase)
      (fun _ w' => ¬ ((∀ ip ∈ bgd.spec.inceptionPoints,
          Tellable alive w ctx ns bgd.metadata.name ip) ∧ w.Reclaimable bgd ns) ∧
        w'.storedPhase ns bgd.metadata.name = latest.phase ∧
        ∃ ds rs, Trimmed bgd ns w ds rs w')
      (finalizeDraining ctx bgd ns failures) w := by
  have hphase : ∀ v : World, v.bgd = w.bgd → v.storedPhase ns bgd.metadata.name = latest.phase := by
    intro v hv
    simp only [World.storedPhase, World.findBgd, hv]
    rw [← World.findBgd, hstored]
    rfl
  refine Outside.Spec.bind (R := fun _ w' => Aged w w' ∧ ∀ ip ∈ bgd.spec.inceptionPoints,
    Tellable alive w ctx ns bgd.metadata.name ip) ?_ ?_
  · refine Outside.Spec.mono (cleanupPlugins_decides bgd ns) (fun _ _ h => h) ?_
    rintro _ w' ⟨hage, hdeaf⟩
    exact ⟨fun h => hdeaf h.1, hphase w' hage.bgd, [], [], .of_aged hage⟩
  · rintro _ w₁ ⟨hage₁, htold⟩
    have hreclaimable : w₁.Reclaimable bgd ns ↔ w.Reclaimable bgd ns := by
      simp only [World.Reclaimable, hage₁.deployments, hage₁.objects]
    by_cases hlabels : w₁.Reclaimable bgd ns
    · refine (cleanupInceptionResources_served hlabels).bind fun _ w₂ h₂ => ?_
      refine (cleanupTestResources_served h₂).bind fun _ w₃ h₃ => ?_
      have hswept := h₃.of_aged hage₁
      have hstored₃ : w₃.findBgd ns bgd.metadata.name = some latest := by
        rw [World.findBgd, hswept.bgd]
        exact hstored
      refine (updateStatusPhase_served _ hstored₃).mono ?_ fun _ _ he => he
      rintro _ w₄ ⟨hdeployments, hobjects, hstore, hwritten⟩
      refine ⟨⟨htold, hreclaimable.mp hlabels⟩, ?_, hwritten⟩
      exact ⟨hdeployments.trans hswept.deployments, hobjects.trans hswept.objects,
        hstore.trans hswept.store, fun _ h => h, fun _ h => h⟩
    · refine Outside.Spec.bind (R := fun _ _ => False) ?_ fun _ _ hfalse => hfalse.elim
      refine (cleanupInceptionResources_fails hlabels).mono (fun _ _ hfalse => hfalse) ?_
      intro _ w₂ h₂
      have hswept := h₂.of_aged hage₁
      refine ⟨fun h => hlabels (hreclaimable.mpr h.2), hphase w₂ hswept.bgd, _, _,
        hswept.trimmed ?_ ?_⟩
      · exact fun _ => List.mem_append_left _
      · exact fun _ => List.mem_append_left _

/-! ### The writes before it -/

/-- A world in which the stored object has been annotated: its phase, its observed generation and
its identity are the same. -/
structure Annotated (ns name : String) (w w' : World) : Prop where
  deployments : w'.deployments = w.deployments
  objects : w'.objects = w.objects
  plugins : w'.plugins = w.plugins
  store : w'.store = w.store
  stored : ∀ live, w.findBgd ns name = some live → ∃ live', w'.findBgd ns name = some live' ∧
    live'.phase = live.phase ∧ live'.observedGeneration = live.observedGeneration ∧
    live'.metadata.uid = live.metadata.uid

theorem Annotated.of_aged (hage : Aged w w') (name : String) : Annotated ns name w w' where
  deployments := hage.deployments
  objects := hage.objects
  plugins := hage.plugins
  store := hage.store
  stored live hlive := ⟨live, (findBgd_aged hage name).trans hlive, rfl, rfl, rfl⟩

theorem Annotated.trans {name : String} {w'' : World} (h : Annotated ns name w w')
    (h' : Annotated ns name w' w'') : Annotated ns name w w'' where
  deployments := h'.deployments.trans h.deployments
  objects := h'.objects.trans h.objects
  plugins := h'.plugins.trans h.plugins
  store := h'.store.trans h.store
  stored live hlive := by
    obtain ⟨live', hlive', hphase, hobserved, huid⟩ := h.stored live hlive
    obtain ⟨live'', hlive'', hphase', hobserved', huid'⟩ := h'.stored live' hlive'
    exact ⟨live'', hlive'', hphase'.trans hphase, hobserved'.trans hobserved, huid'.trans huid⟩

/-- A patch that writes neither the phase nor the observed generation annotates. -/
theorem Annotated.patchStatus {patch : StatusPatch}
    (hpatch : ∀ status, (patch.apply status).phase = status.phase ∧
      (patch.apply status).observedGeneration = status.observedGeneration) (name : String) :
    Annotated ns name w (w.patchStatus ns name patch).2 := by
  cases hfound : w.findBgd ns name with
  | none =>
    have heq : (w.patchStatus ns name patch).2 = w := by simp [World.patchStatus, hfound]
    rw [heq]
    exact .of_aged (.refl w) name
  | some live =>
    have heq : (w.patchStatus ns name patch).2 =
        w.writeBgd { live with status := some (patch.apply (live.status.getD .default)) } := by
      simp [World.patchStatus, hfound]
    rw [heq]
    refine ⟨rfl, rfl, rfl, rfl, ?_⟩
    intro live' hlive'
    cases hfound.symm.trans hlive'
    refine ⟨_, findBgd_writeBgd hfound rfl rfl, ?_, ?_, rfl⟩
    · show (patch.apply (live.status.getD .default)).phase = live.phase
      rw [(hpatch _).1]
      cases hstatus : live.status <;>
        simp [BlueGreenDeployment.phase, hstatus, BlueGreenDeploymentStatus.default]
    · show (patch.apply (live.status.getD .default)).observedGeneration = live.observedGeneration
      rw [(hpatch _).2]
      cases hstatus : live.status <;>
        simp [BlueGreenDeployment.observedGeneration, hstatus, BlueGreenDeploymentStatus.default]

theorem patchStatus_served {patch : StatusPatch}
    (hpatch : ∀ status, (patch.apply status).phase = status.phase ∧
      (patch.apply status).observedGeneration = status.observedGeneration) :
    (served alive).Spec .free (fun _ w' => Annotated ns bgd.metadata.name w w') E
      (patchStatus bgd ns patch) w := by
  refine served_plain trivial rfl ?_
  intro _ w' hage
  exact (Annotated.patchStatus hpatch _).trans (.of_aged hage _)

variable (alive ctx) in
theorem Tellable.annotated {name : String} (h : Annotated ns name w w')
    (hlive : w.findBgd ns name = some live) (ip : InceptionPoint) :
    Tellable alive w' ctx ns name ip ↔ Tellable alive w ctx ns name ip := by
  obtain ⟨live', hlive', -, -, huid⟩ := h.stored live hlive
  have hkey : w'.signingKey ctx.auth = w.signingKey ctx.auth := by
    -- the Secret with the key is one of the other objects
    have hage : Aged { w' with
        bgd := w.bgd, otherBgds := w.otherBgds, deployments := w.deployments,
        plugins := w.plugins, store := w.store } w :=
      ⟨rfl, rfl, rfl, h.objects.symm, rfl, rfl⟩
    exact (signingKey_aged hage ctx.auth).symm
  have htoken : ∀ plugin, w'.signedToken ctx ns name ip.name plugin =
      w.signedToken ctx ns name ip.name plugin := by
    intro plugin
    simp only [World.signedToken, hkey, getBgd_found hlive, getBgd_found hlive', Except.toOption,
      Option.bind_some, huid]
  simp only [Tellable, InceptorHears, ManagerHears, htoken, World.checkedClaims, hkey,
    World.getPlugin, h.plugins]

/-! ### The arm -/

/-- **A finished drain.** The object is stored and Draining, each point is recorded as drained or
timed out, and no case is pending. -/
structure DrainOver (w : World) (bgd live : BlueGreenDeployment) (ns stateKey : String) : Prop where
  stored : w.findBgd ns bgd.metadata.name = some live
  phase : live.phase = some .draining
  recorded : ∀ ip ∈ bgd.spec.inceptionPoints,
    (recordedFinalDrain bgd.inceptionPointDrains ip).isSome
  judged : (w.store.counts stateKey).pending ≤ 0

/-- **What the end of a rollout needs**: every plugin can be told, the labels refer to nothing but
what the spec names, and the phase write is not stale. -/
structure Endable (alive : String → Bool) (w : World) (ctx : Ctx) (bgd live : BlueGreenDeployment)
    (ns : String) : Prop where
  told : ∀ ip ∈ bgd.spec.inceptionPoints, Tellable alive w ctx ns bgd.metadata.name ip
  labelled : w.Reclaimable bgd ns
  current : live.observedGeneration.getD 0 ≤ currentRolloutGeneration bgd

/-- The rollout is over: the terminal phase is stored, and its objects are gone. -/
structure Concluded (bgd : BlueGreenDeployment) (ns : String) (failures : Bool) (w : World) :
    Prop where
  phase : w.storedPhase ns bgd.metadata.name = some (finalPhase bgd failures)
  removed : w.Removed bgd ns

theorem finalPhase_cases (bgd : BlueGreenDeployment) (failures : Bool) :
    finalPhase bgd failures = .completed ∨ finalPhase bgd failures = .rolledBack := by
  unfold finalPhase
  split
  · exact .inr rfl
  · exact .inl rfl

variable (bgd) in
/-- From Draining, a terminal phase is written unless a later generation has been observed. -/
theorem phaseUpdateIsCurrent_final (hphase : latest.phase = some .draining) (failures : Bool)
    (generation : Int) :
    phaseUpdateIsCurrent latest (finalPhase bgd failures) generation = true ↔
      latest.observedGeneration.getD 0 ≤ generation := by
  unfold phaseUpdateIsCurrent phaseTransitionIsCurrent
  rw [hphase]
  by_cases hlater : latest.observedGeneration.getD 0 > generation
  · simp [hlater]
  · by_cases hearlier : latest.observedGeneration.getD 0 < generation
    · simp [hlater, hearlier, le_of_lt hearlier]
    · have hle : latest.observedGeneration.getD 0 ≤ generation := by omega
      rcases finalPhase_cases bgd failures with hfinal | hfinal <;>
        simp [hfinal, hlater, hearlier, hle, BGDPhase.IsTerminal, BGDPhase.rank]

/-- The points that are recorded are not asked again. -/
theorem reconcileDrains_recorded (elapsed : Int) (points : List InceptionPoint)
    (hrecorded : ∀ ip ∈ points, (recordedFinalDrain bgd.inceptionPointDrains ip).isSome) :
    (served alive).Spec .free (fun (statuses : List InceptionPointDrainStatus) w' => Aged w w' ∧
        (statuses.any fun status => status.phase = .pending) = false) E
      (Prog.foldEach points [] (reconcileDrain ctx bgd ns elapsed)) w := by
  refine Outside.Spec.foldEach (P := fun (statuses : List InceptionPointDrainStatus) w' =>
    Aged w w' ∧ (statuses.any fun status => status.phase = .pending) = false) ⟨.refl w, rfl⟩ ?_
  rintro ip hip statuses w' ⟨hage, hstatuses⟩
  obtain ⟨existing, hexisting⟩ := Option.isSome_iff_exists.mp (hrecorded ip hip)
  have hfinal : existing.phase ≠ .pending := by
    have hfound := List.find?_some hexisting
    simp only [Bool.decide_and, Bool.and_eq_true, decide_eq_true_eq] at hfound
    rcases hfound.2 with hphase | hphase <;> simp [hphase]
  unfold reconcileDrain
  rw [hexisting]
  refine ⟨hage, ?_⟩
  simp [hstatuses, hfinal]

/-- The points are all recorded: what is left of the arm works on an object that the first write has
annotated. -/
theorem drainsRecorded_served
    (hrecorded : ∀ ip ∈ bgd.spec.inceptionPoints,
      (recordedFinalDrain bgd.inceptionPointDrains ip).isSome)
    {Q : Unit → World → Prop}
    (h : ∀ w', Annotated ns bgd.metadata.name w w' →
      (served alive).Spec .free Q E (concludeDraining ctx bgd ns stateKey) w') :
    (served alive).Spec .free Q E (reconcileDraining ctx bgd ns stateKey) w := by
  refine Outside.Spec.bind (R := fun _ w' => Aged w w') ?_ ?_
  · unfold drainStart
    cases bgd.drainStartedAt with
    | some time => exact Aged.refl w
    | none => exact served_plain trivial rfl fun _ w' hage => hage
  · intro drainStartedAt w₁ hage₁
    refine served_plain trivial rfl fun _ w₂ hage₂ => ?_
    refine served_plain trivial rfl fun _ w₃ hage₃ => ?_
    refine (reconcileDrains_recorded _ _ hrecorded).bind ?_
    rintro statuses w₄ ⟨hage₄, hfinal⟩
    refine served_plain trivial rfl fun _ w₅ hage₅ => ?_
    have hage : Aged w w₅ := (((hage₁.trans hage₂).trans hage₃).trans hage₄).trans hage₅
    refine (patchStatus_served (fun _ => ⟨rfl, rfl⟩)).bind fun _ w₆ hwritten => ?_
    simp only [hfinal, Bool.false_eq_true, if_false]
    exact h w₆ ((Annotated.of_aged hage _).trans hwritten)

/-- The cases are all judged: what is left is to finalize. -/
theorem casesJudged_served (hjudged : (w.store.counts stateKey).pending ≤ 0)
    {Q : Unit → World → Prop}
    (h : ∀ w', Annotated ns bgd.metadata.name w w' →
      (served alive).Spec .free Q E
        (finalizeDraining ctx bgd ns (w.store.counts stateKey).hasFailure) w') :
    (served alive).Spec .free Q E (concludeDraining ctx bgd ns stateKey) w := by
  refine served_plain trivial rfl fun _ w₁ hage₁ => ?_
  refine served_plain trivial rfl fun _ w₂ hage₂ => ?_
  refine (patchStatus_served (fun _ => ⟨rfl, rfl⟩)).bind fun _ w₃ hwritten => ?_
  have hnone : ¬ (w.store.counts stateKey).pending > 0 := by omega
  simp only [hnone, if_false]
  refine served_plain trivial rfl fun _ w₄ hage₄ => ?_
  exact h w₄ (((Annotated.of_aged (hage₁.trans hage₂) _).trans hwritten).trans (.of_aged hage₄ _))

variable (alive ctx) in
/-- **The Draining arm**, where the drain is over: it concludes the rollout exactly when it can. -/
theorem reconcileDraining_served (h : DrainOver w bgd live ns stateKey) :
    (served alive).Spec .free
      (fun _ w' => Concluded bgd ns (w.store.counts stateKey).hasFailure w' ↔
        Endable alive w ctx bgd live ns)
      (fun _ _ => ¬ Endable alive w ctx bgd live ns)
      (reconcileDraining ctx bgd ns stateKey) w := by
  refine drainsRecorded_served h.recorded fun w₁ h₁ => ?_
  have hcounts : w₁.store.counts stateKey = w.store.counts stateKey := by rw [h₁.store]
  refine casesJudged_served (by rw [hcounts]; exact h.judged) fun w₂ h₂ => ?_
  rw [hcounts]
  have hannotated := h₁.trans h₂
  obtain ⟨live', hlive', hphase, hobserved, -⟩ := hannotated.stored live h.stored
  have htold := Tellable.annotated alive ctx hannotated h.stored
  have hlabelled : w₂.Reclaimable bgd ns ↔ w.Reclaimable bgd ns := by
    simp only [World.Reclaimable, hannotated.deployments, hannotated.objects]
  refine (finalizeDraining_served _ hlive').mono ?_ ?_
  · rintro _ w₃ ⟨⟨hall, hreclaimable⟩, htrimmed, hwritten⟩
    have hcurrent := phaseUpdateIsCurrent_final bgd (hphase.trans h.phase)
      (w.store.counts stateKey).hasFailure (currentRolloutGeneration bgd)
    rw [hobserved] at hcurrent
    constructor
    · rintro ⟨hconcluded, -⟩
      refine ⟨fun ip hip => (htold ip).mp (hall ip hip), hlabelled.mp hreclaimable, ?_⟩
      by_contra hlater
      -- a stale write leaves the object Draining
      rw [hwritten, if_neg fun h => hlater (hcurrent.mp h), hphase, h.phase] at hconcluded
      rcases finalPhase_cases bgd (w.store.counts stateKey).hasFailure with hfinal | hfinal <;>
        simp [hfinal] at hconcluded
    · intro hend
      refine ⟨?_, htrimmed.removed⟩
      rw [hwritten, if_pos (hcurrent.mpr hend.current)]
  · rintro _ w₃ ⟨hstuck, -, -⟩ hend
    exact hstuck ⟨fun ip hip => (htold ip).mpr (hend.told ip hip), hlabelled.mpr hend.labelled⟩

/-! ### The reconcile -/

/-- The object the arm runs on: the stored one, or, where a later spec waits, the one with the spec
of the snapshot. -/
def World.RolloutObject (w : World) (ctx : Ctx) (live bgd : BlueGreenDeployment) : Prop :=
  if activeRolloutHasNewSpecGeneration live .draining then
    ∃ snapshot spec, w.getResource .configMap live.metadata.ns
        (rolloutSpecSnapshotName live live.metadata.ns) = .ok snapshot ∧
      snapshotSpec ctx live live.metadata.ns snapshot.data = .ok spec ∧ bgd = frozenBgd live spec
  else bgd = live

theorem World.RolloutObject.same (h : w.RolloutObject ctx live bgd) :
    bgd.metadata = live.metadata ∧ bgd.status = live.status := by
  unfold World.RolloutObject at h
  split at h
  · obtain ⟨snapshot, spec, -, -, rfl⟩ := h
    exact ⟨rfl, rfl⟩
  · cases h
    exact ⟨rfl, rfl⟩

/-- The conditions of the object are written, and nothing else. -/
theorem updateStatusUpdateDeferred_served
    (hstored : w.findBgd ns bgd.metadata.name = some latest) :
    (served alive).Spec .free (fun _ w' => Annotated ns bgd.metadata.name w w') E
      (updateStatusUpdateDeferred bgd ns) w := by
  refine served_plain trivial rfl fun _ w₁ hage₁ => ?_
  rw [getBgd_found hstored]
  refine served_plain trivial rfl fun _ w₂ hage₂ => ?_
  have hage := hage₁.trans hage₂
  have hstored₂ : w₂.findBgd ns bgd.metadata.name = some latest :=
    (findBgd_aged hage _).trans hstored
  refine served_plain trivial rfl fun _ w₃ hage₃ => ?_
  refine (Annotated.of_aged hage _).trans (.trans ?_ (.of_aged hage₃ _))
  rw [World.replaceStatus, hstored₂]
  simp only [withConditions, if_true]
  refine ⟨rfl, rfl, rfl, rfl, ?_⟩
  intro live' hlive'
  cases hstored₂.symm.trans hlive'
  refine ⟨_, findBgd_writeBgd hstored₂ rfl rfl, ?_, ?_, rfl⟩
  · cases hstatus : latest.status <;>
      simp [BlueGreenDeployment.phase, hstatus, BlueGreenDeploymentStatus.default]
  · cases hstatus : latest.status <;>
      simp [BlueGreenDeployment.observedGeneration, hstatus, BlueGreenDeploymentStatus.default]

theorem Annotated.getResource {name : String} (h : Annotated ns name w w') {kind : Kind}
    (hkind : kind ≠ .pod) (ns' name' : String) :
    w'.getResource kind ns' name' = w.getResource kind ns' name' := by
  -- a world that differs in what is no object
  have hage : Aged { w' with
      bgd := w.bgd, otherBgds := w.otherBgds, deployments := w.deployments,
      plugins := w.plugins, store := w.store } w :=
    ⟨rfl, rfl, rfl, h.objects.symm, rfl, rfl⟩
  exact (getResource_aged hage hkind ns' name').symm

/-- The arm gets the object it is to run on. -/
theorem rolloutBgd_served (hstored : w.findBgd live.metadata.ns live.metadata.name = some live)
    (hobject : w.RolloutObject ctx live bgd) :
    (served alive).Spec .free
      (fun b w' => b = bgd ∧ Annotated live.metadata.ns live.metadata.name w w') E
      (rolloutBgd ctx live live.metadata.ns .draining) w := by
  unfold World.RolloutObject at hobject
  unfold rolloutBgd
  by_cases hlater : activeRolloutHasNewSpecGeneration live .draining = true
  · rw [if_pos hlater] at hobject ⊢
    obtain ⟨snapshot, spec, hsnapshot, hspec, rfl⟩ := hobject
    have hload : ∀ w₁, Annotated live.metadata.ns live.metadata.name w w₁ →
        (served alive).Spec .free (fun b w' => b = frozenBgd live spec ∧
          Annotated live.metadata.ns live.metadata.name w w') E
          (loadRolloutSpecSnapshot ctx live live.metadata.ns) w₁ := by
      intro w₁ hannotated
      refine served_plain trivial rfl fun _ w₂ hage => ?_
      rw [hannotated.getResource (by simp), hsnapshot]
      simp only [Prog.pure_bind, hspec]
      exact ⟨rfl, hannotated.trans (.of_aged hage _)⟩
    by_cases hforce : (!forceReplaceActiveRollout live) = true
    · simp only [hforce, if_true]
      exact (updateStatusUpdateDeferred_served hstored).bind fun _ w₁ hannotated =>
        hload w₁ hannotated
    · simp only [hforce]
      exact hload w (.of_aged (.refl w) _)
  · rw [if_neg hlater] at hobject ⊢
    exact ⟨hobject.symm, .of_aged (.refl w) _⟩

/-- **A finished drain**, as a reconcile finds it: the stored object is Draining and not being
deleted, and the drain of its rollout is over. -/
structure FinishedDrain (w : World) (ctx : Ctx) (live bgd : BlueGreenDeployment) : Prop where
  drain : DrainOver w bgd live live.metadata.ns
    (blueGreenStateKey live.metadata.ns live.metadata.name)
  object : w.RolloutObject ctx live bgd
  wanted : live.metadata.deletionTimestamp.isSome = false
  guarded : hasFinalizer live bgdFinalizer = true

theorem reconcileLocked_draining (h : FinishedDrain w ctx live bgd)
    {Q : Unit → World → Prop}
    (hnext : ∀ w', Annotated live.metadata.ns live.metadata.name w w' →
      (served alive).Spec .free Q E (reconcileDraining ctx bgd live.metadata.ns
        (blueGreenStateKey live.metadata.ns live.metadata.name)) w') :
    (served alive).Spec .free Q E (reconcileLocked ctx live) w := by
  have hphase : live.phase.getD .pending = .draining := by simp [h.drain.phase]
  have hrestart : rolloutNeedsRestart live .draining = false := rfl
  have hforce : shouldStartForceReplaceRollout live .draining = false := by
    simp [shouldStartForceReplaceRollout]
  have hstored : w.findBgd live.metadata.ns live.metadata.name = some live := by
    rw [← h.object.same.1]
    exact h.object.same.1 ▸ h.drain.stored
  refine served_plain trivial rfl fun _ w₁ hage => ?_
  simp only [hphase, h.wanted, h.guarded, hrestart, hforce, Bool.not_true, Bool.false_eq_true,
    if_false]
  have hobject : w₁.RolloutObject ctx live bgd := by
    have hread := getResource_aged hage (show Kind.configMap ≠ .pod by simp)
    simpa only [World.RolloutObject, hread] using h.object
  refine (rolloutBgd_served ((findBgd_aged hage _).trans hstored) hobject).bind ?_
  rintro b w₂ ⟨rfl, hannotated⟩
  exact hnext w₂ ((Annotated.of_aged hage _).trans hannotated)

variable (alive ctx) in
theorem Annotated.endable_iff (h : Annotated ns bgd.metadata.name w w')
    (hlive : w.findBgd ns bgd.metadata.name = some live)
    (hobserved : latest.observedGeneration = live.observedGeneration) :
    Endable alive w' ctx bgd latest ns ↔ Endable alive w ctx bgd live ns := by
  have htold := Tellable.annotated alive ctx h hlive
  have hlabelled : w'.Reclaimable bgd ns ↔ w.Reclaimable bgd ns := by
    simp only [World.Reclaimable, h.deployments, h.objects]
  constructor
  · rintro ⟨hall, hreclaimable, hcurrent⟩
    exact ⟨fun ip hip => (htold ip).mp (hall ip hip), hlabelled.mp hreclaimable,
      hobserved ▸ hcurrent⟩
  · rintro ⟨hall, hreclaimable, hcurrent⟩
    exact ⟨fun ip hip => (htold ip).mpr (hall ip hip), hlabelled.mpr hreclaimable,
      hobserved ▸ hcurrent⟩

/-- The outcome of the rollout that a drain is over for. -/
def World.drainFailed (w : World) (live : BlueGreenDeployment) : Bool :=
  (w.store.counts (blueGreenStateKey live.metadata.ns live.metadata.name)).hasFailure

/-- **A reconcile of a finished drain** concludes the rollout exactly when it can. -/
theorem reconcileLocked_finished (h : FinishedDrain w ctx live bgd) :
    (served alive).Spec .free
      (fun _ w' => Concluded bgd live.metadata.ns (w.drainFailed live) w' ↔
        Endable alive w ctx bgd live live.metadata.ns)
      (fun _ _ => ¬ Endable alive w ctx bgd live live.metadata.ns)
      (reconcileLocked ctx live) w := by
  refine reconcileLocked_draining h fun w₁ hannotated => ?_
  have hname : live.metadata.name = bgd.metadata.name := by rw [h.object.same.1]
  rw [hname] at hannotated
  obtain ⟨live₁, hlive₁, hphase, hobserved, -⟩ := hannotated.stored live h.drain.stored
  have hover : DrainOver w₁ bgd live₁ live.metadata.ns
      (blueGreenStateKey live.metadata.ns live.metadata.name) := by
    refine ⟨hlive₁, hphase.trans h.drain.phase, h.drain.recorded, ?_⟩
    rw [hannotated.store]
    exact h.drain.judged
  have hiff := hannotated.endable_iff alive ctx h.drain.stored hobserved
  have hserved := reconcileDraining_served alive ctx hover
  rw [hannotated.store] at hserved
  refine hserved.mono ?_ ?_
  · intro _ w₂ hconcluded
    exact hconcluded.trans hiff
  · intro _ w₂ hstuck hend
    exact hstuck (hiff.mpr hend)

/-! ### A second time -/

/-- Nothing is left to do: deployments, objects, records and phase are those of before. -/
structure Unchanged (ns name : String) (w w' : World) : Prop where
  deployments : w'.deployments = w.deployments
  objects : w'.objects = w.objects
  store : w'.store = w.store
  phase : w'.storedPhase ns name = w.storedPhase ns name

theorem finalizeDraining_again {failures : Bool} (h : Concluded bgd ns failures w) :
    (served alive).Spec .free (fun _ w' => Unchanged ns bgd.metadata.name w w')
      (fun _ w' => Unchanged ns bgd.metadata.name w w') (finalizeDraining ctx bgd ns failures) w := by
  obtain ⟨latest, hstored, hphase⟩ := Option.bind_eq_some_iff.mp h.phase
  refine (finalizeDraining_served failures hstored).mono ?_ ?_
  · rintro _ w' ⟨-, htrimmed, hwritten⟩
    obtain ⟨hdeployments, hobjects, hstore⟩ := htrimmed.same h.removed
    refine ⟨hdeployments, hobjects, hstore, ?_⟩
    rw [hwritten, h.phase, hphase]
    exact ite_self _
  · rintro _ w' ⟨-, hkept, ds, rs, htrimmed⟩
    obtain ⟨hdeployments, hobjects, hstore⟩ := htrimmed.same h.removed
    refine ⟨hdeployments, hobjects, hstore, ?_⟩
    rw [hkept, h.phase, hphase]

/-! ### When a drain ends -/

theorem FinishedDrain.aged (h : FinishedDrain w ctx live bgd) (hage : Aged w w') :
    FinishedDrain w' ctx live bgd := by
  obtain ⟨⟨hstored, hphase, hrecorded, hjudged⟩, hobject, hwanted, hguarded⟩ := h
  refine ⟨⟨(findBgd_aged hage _).trans hstored, hphase, hrecorded, ?_⟩, ?_, hwanted, hguarded⟩
  · rw [hage.store]
    exact hjudged
  · have hread := getResource_aged hage (show Kind.configMap ≠ .pod by simp)
    simpa only [World.RolloutObject, hread] using hobject

/-- **A drain that ends its rollout.** Every reconcile ends well and concludes the rollout, and to
finalize a concluded rollout again changes nothing, whoever answers then. -/
structure DrainEnds (alive : String → Bool) (w : World) (ctx : Ctx)
    (live bgd : BlueGreenDeployment) : Prop where
  ends : ∀ w', (served alive).Later w w' → (served alive).Spec .free
    (fun _ w'' => Concluded bgd live.metadata.ns (w.drainFailed live) w'') (fun _ _ => False)
    (reconcileLocked ctx live) w'
  again : ∀ (answering : String → Bool) w', Concluded bgd live.metadata.ns (w.drainFailed live) w' →
    (served answering).Spec .free
      (fun _ w'' => Unchanged live.metadata.ns bgd.metadata.name w' w'')
      (fun _ w'' => Unchanged live.metadata.ns bgd.metadata.name w' w'')
      (finalizeDraining ctx bgd live.metadata.ns (w.drainFailed live)) w'

theorem endable_aged (h : FinishedDrain w ctx live bgd) (hage : Aged w w') :
    Endable alive w' ctx bgd live live.metadata.ns ↔
      Endable alive w ctx bgd live live.metadata.ns :=
  (Annotated.of_aged hage _).endable_iff alive ctx h.drain.stored rfl

theorem drainFailed_aged (hage : Aged w w') (live : BlueGreenDeployment) :
    w'.drainFailed live = w.drainFailed live := by
  simp only [World.drainFailed, hage.store]

theorem DrainEnds.endable (h : FinishedDrain w ctx live bgd)
    (hends : DrainEnds alive w ctx live bgd) :
    Endable alive w ctx bgd live live.metadata.ns := by
  by_contra hnot
  -- let the pods be collected first, so that every call gets its answer
  obtain ⟨w', hlater, hcollected⟩ : ∃ w', (served alive).Later w w' ∧ w'.Collected :=
    collected_later w
  have hage := Aged.of_later hlater
  have hnot' : ¬ Endable alive w' ctx bgd live live.metadata.ns :=
    fun hend => hnot ((endable_aged h hage).mp hend)
  refine served_contradiction hcollected (hends.ends w' hlater) ?_
  refine (reconcileLocked_finished (h.aged hage)).mono ?_ fun _ _ _ => trivial
  intro _ w'' hiff hconcluded
  rw [← drainFailed_aged hage] at hconcluded
  exact hnot' (hiff.mp hconcluded)

theorem Endable.drainEnds (h : FinishedDrain w ctx live bgd)
    (hend : Endable alive w ctx bgd live live.metadata.ns) : DrainEnds alive w ctx live bgd where
  ends w' hlater := by
    have hage := Aged.of_later hlater
    have hend' := (endable_aged h hage).mpr hend
    refine (reconcileLocked_finished (h.aged hage)).mono ?_ fun _ _ hstuck => hstuck hend'
    intro _ w'' hiff
    rw [← drainFailed_aged hage]
    exact hiff.mpr hend'
  again _ _ hconcluded := finalizeDraining_again hconcluded

end Ending

/-- **A finished drain ends the rollout**, in a cluster whose API server, store and managers
answer, exactly when every plugin can be told, the labels refer to nothing but what the spec names,
and no later generation has been observed. -/
theorem finished_drain_ends_iff (alive : String → Bool) (ctx : Ctx) (w : World)
    (live bgd : BlueGreenDeployment) (h : FinishedDrain w ctx live bgd) :
    DrainEnds alive w ctx live bgd ↔ Endable alive w ctx bgd live live.metadata.ns :=
  ⟨DrainEnds.endable h, Endable.drainEnds h⟩

/-! ### A point whose inceptor is dead -/

/-- A plugin that wants to be told. -/
def toldPlugin : InceptionPlugin :=
  { Sample.plugin with
    spec := { Sample.plugin.spec with
      lifecycle := some ⟨none, none, none, some "/drain-status", some "/cleanup", none⟩ } }

def drainedStatus : BlueGreenDeploymentStatus :=
  { Sample.status .draining with
    inceptionPointDrains := [⟨"orders", .timedOutMaybeSuccessful, none, some 0⟩] }

def drainedBgd : BlueGreenDeployment :=
  { Sample.bgd .draining with spec := Sample.pointSpec, status := some drainedStatus }

/-- The drain of the point has run out of time. -/
def drainedWorld : World :=
  { Sample.world .draining [] with
    bgd := some drainedBgd
    resources := [Sample.signingSecret]
    plugins := [toldPlugin] }

theorem drainedWorld_finished : FinishedDrain drainedWorld Sample.ctx drainedBgd drainedBgd := by
  refine ⟨⟨rfl, rfl, ?_, by decide⟩, rfl, rfl, by decide⟩
  intro ip hip
  cases List.mem_singleton.mp hip
  rfl

theorem drainedWorld_endable :
    Endable (fun _ => true) drainedWorld Sample.ctx drainedBgd drainedBgd "default" := by
  refine ⟨?_, by constructor <;> decide, by decide⟩
  · intro ip hip
    cases List.mem_singleton.mp hip
    refine ⟨toldPlugin, rfl, ?_, ?_⟩
    · intro path _
      exact ⟨rfl, rfl⟩
    · intro hmanager
      cases hmanager

/-- With an inceptor that answers, the drain ends. -/
theorem finished_drain_ends_answered :
    DrainEnds (fun _ => true) drainedWorld Sample.ctx drainedBgd drainedBgd :=
  (finished_drain_ends_iff _ _ _ _ _ drainedWorld_finished).mpr drainedWorld_endable

/-- **It does not end the rollout of a dead inceptor**, whose drain has run out of time. -/
theorem dead_inceptor_stays_draining :
    ¬ DrainEnds (fun _ => false) drainedWorld Sample.ctx drainedBgd drainedBgd := by
  intro h
  obtain ⟨plugin, hplugin, hinceptor, -⟩ :=
    (h.endable drainedWorld_finished).told Sample.orders (List.mem_singleton.mpr rfl)
  have hfound : drainedWorld.getPlugin Sample.orders.pluginRef.name = .ok toldPlugin := rfl
  cases hfound.symm.trans hplugin
  have hanswers := (hinceptor "/cleanup" rfl).2
  simp at hanswers

end FluidBG
