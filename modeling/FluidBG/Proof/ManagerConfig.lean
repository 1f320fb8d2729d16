import FluidBG.Lifecycle
import FluidBG.Plugins.Nats
import FluidBG.Plugins.Rabbitmq
import FluidBG.Plugins.ServiceBus
import FluidBG.Proof.EffectiveEnv
import FluidBG.Proof.Footprint
import FluidBG.Sample
/-!
# An inceptor behind a manager

What the operator makes of the answer to `prepare`. The config, the variables and the assignments of
the response go to the ConfigMap, to the Secret and the pod, and to the application. A body that is
no response is taken for an empty one, and the inceptor then runs the config of the user.
-/

set_option autoImplicit false

namespace FluidBG

open Lib

/-! ## The response on the wire -/

theorem PropertyAssignment.decode_encode (a : PropertyAssignment) : decode a.encode = some a := by
  obtain ⟨target, kind, name, value, containerName⟩ := a
  cases target <;> cases kind <;> cases containerName <;> rfl

theorem InceptorEnvVar.decode_encode (env : InceptorEnvVar) : decode env.encode = some env := rfl

namespace PluginLifecycleResponse

theorem lookup_encodeVec (key name : String) (xs : List Json) (rest : List (String × Json)) :
    (encodeVec name xs ++ rest).lookup key =
      if key = name ∧ xs ≠ [] then some (.arr xs) else rest.lookup key := by
  cases xs with
  | nil => simp [encodeVec]
  | cons x xs =>
    by_cases hkey : key = name
    · simp [encodeVec, hkey]
    · simp [encodeVec, hkey, List.lookup_cons, beq_eq_false_iff_ne.mpr hkey]

/-- A list that is written out, or left out where it is empty, is read as it was. -/
theorem readVec {α : Type} {d : Serde.Decoder α} {e : α → Json} (h : ∀ a, d (e a) = some a)
    {fields : List (String × Json)} {name : String} {xs : List α}
    (hlookup : fields.lookup name = if xs.map e ≠ [] then some (.arr (xs.map e)) else none) :
    (∃ v, fields.lookup name = some v ∧ Serde.vec d v = some xs) ∨
      fields.lookup name = none ∧ some [] = some xs := by
  rw [hlookup]
  cases xs with
  | nil => exact .inr ⟨rfl, rfl⟩
  | cons x xs => exact .inl ⟨_, if_pos (by simp), Serde.vec_map h _⟩

/-- A config is read as it was written, unless it is `null`, which reads as no config. -/
theorem decode_encode_eq (r : PluginLifecycleResponse) : decode r.encode =
    some { r with config := r.config.bind fun c => if c.isNull then none else some c } := by
  obtain ⟨assignments, inceptorEnv, config⟩ := r
  refine Serde.Fields.visitMap_field (Serde.Fields.visitMap_field
    (Serde.Fields.visitMap_field rfl ?_) ?_) ?_
  · refine readVec PropertyAssignment.decode_encode ?_
    rw [List.append_assoc, lookup_encodeVec]
    have hrest : ((config.map fun config => ("config", config)).toList ++
        encodeVec "inceptorEnv" (inceptorEnv.map InceptorEnvVar.encode)).lookup "assignments" =
          none := by
      cases config <;> cases inceptorEnv <;> rfl
    simp [hrest]
  · refine readVec InceptorEnvVar.decode_encode ?_
    have hnil := lookup_encodeVec "inceptorEnv" "inceptorEnv"
      (inceptorEnv.map InceptorEnvVar.encode) []
    rw [List.append_nil] at hnil
    rw [List.append_assoc, lookup_encodeVec, if_neg (by simp)]
    cases config with
    | none => simpa using hnil
    | some config => simpa [List.lookup_cons] using hnil
  · rw [List.append_assoc, lookup_encodeVec, if_neg (by simp)]
    cases config with
    | none =>
      refine .inr ⟨?_, rfl⟩
      cases inceptorEnv <;> rfl
    | some config =>
      refine .inl ⟨config, rfl, ?_⟩
      cases config <;> rfl

/-- **What a manager sends is what the operator reads**, but for a config that is `null`. -/
theorem decode_encode_iff (r : PluginLifecycleResponse) :
    decode r.encode = some r ↔ r.config ≠ some .null := by
  rw [decode_encode_eq]
  obtain ⟨assignments, inceptorEnv, config⟩ := r
  cases config with
  | none => simp
  | some config => cases config <;> simp [Json.isNull]

end PluginLifecycleResponse

/-! ## One answer -/

/-- What the operator hands on from the answer of a manager, `none` where the body is no response. -/
def preparationOf (ip : InceptionPoint) (answer : Option PluginLifecycleResponse) :
    Except ReconcileError ManagerPreparation :=
  let response := answer.getD .empty
  match rejectManagerTestAssignments ip.name response.assignments with
  | .error e => .error e
  | .ok () =>
    .ok ⟨managerInceptorEnvVars response.inceptorEnv, response.config, response.assignments⟩

/-- Variables of one name have one value. -/
def InceptorEnvVar.Agree (env : List InceptorEnvVar) : Prop :=
  ∀ e ∈ env, ∀ e' ∈ env, e'.name = e.name → e'.value = e.value

/-- The answer is a response with a config, and its variables agree. -/
def Usable (answer : Option PluginLifecycleResponse) : Prop :=
  ∃ response, answer = some response ∧ response.config ≠ none ∧
    InceptorEnvVar.Agree response.inceptorEnv

/-- The answer assigns something to the test, and is turned down for it. -/
def TurnedDown (answer : Option PluginLifecycleResponse) : Prop :=
  ∃ response, answer = some response ∧ ∃ a ∈ response.assignments, a.target = .test

/-- The container of the pod has the variable from the Secret. -/
def Deployment.References (d : Deployment) (secretName name : String) : Prop :=
  ∃ spec pod, d.spec = some spec ∧ spec.template.spec = some pod ∧
    ∃ c ∈ pod.containers, ⟨name, none, some (secretEnvSource secretName name)⟩ ∈ c.env

section Objects

variable (crates : Crates) (plugin : InceptionPlugin) (ip : InceptionPoint) (blueGreenRef : String)

/-- The object that the call applies is built from the response. -/
def Call.Follows (response : PluginLifecycleResponse) : Call → Prop
  | .applyResource .configMap _ _ cm => ∃ config, response.config = some config ∧
      cm.data.get "config.yaml" = some (inceptorConfigText crates plugin config)
  | .applyResource .secret _ _ secret =>
      ∀ env ∈ response.inceptorEnv, secret.data.get env.name = some env.value
  | .applyDeployment _ _ d => ∀ env ∈ response.inceptorEnv,
      d.References (inceptionAuthSecretName blueGreenRef ip.name) env.name
  | _ => True

/-- The calls that apply the objects of an inceptor. -/
def ReconciledResources.calls (ns : String) (resources : ReconciledResources) : List Call :=
  resources.configMaps.map (fun cm => .applyResource .configMap ns cm.metadata.name cm) ++
    resources.secrets.map (fun secret => .applyResource .secret ns secret.metadata.name secret) ++
    resources.deployments.map (fun d => .applyDeployment d.metadata.ns d.metadata.name d) ++
    resources.services.map (fun svc => .applyResource .service ns svc.metadata.name svc)

/-- The answer was a response; its assignments are handed on, and every object is built from it. -/
def RunsManagers (ns : String) (answer : Option PluginLifecycleResponse) (manager : ManagerPreparation)
    (resources : ReconciledResources) : Prop :=
  ∃ response, answer = some response ∧ manager.assignments = response.assignments ∧
    ∀ c ∈ resources.calls ns, c.Follows crates plugin ip blueGreenRef response

end Objects

section Answer

variable {crates : Crates} {plugin : InceptionPlugin} {ip : InceptionPoint}
  {context : ReconcileInceptionContext} {response : PluginLifecycleResponse}
  {resources : ReconciledResources}

/-- What `prepare` hands on of a response that is accepted. -/
theorem preparationOf_some {manager : ManagerPreparation}
    (h : preparationOf ip (some response) = .ok manager) :
    manager = ⟨managerInceptorEnvVars response.inceptorEnv, response.config, response.assignments⟩ ∧
      ∀ a ∈ response.assignments, a.target ≠ .test := by
  simp only [preparationOf, Option.getD_some, rejectManagerTestAssignments] at h
  by_cases htest : response.assignments.any fun a => a.target = .test
  · rw [if_pos htest] at h
    cases h
  · rw [if_neg htest] at h
    cases h
    refine ⟨rfl, fun a ha heq => htest ?_⟩
    exact List.any_eq_true.mpr ⟨a, ha, by simpa using heq⟩

/-- Whatever is not turned down is handed on. -/
theorem exists_preparationOf {answer : Option PluginLifecycleResponse} (h : ¬ TurnedDown answer) :
    ∃ manager, preparationOf ip answer = .ok manager := by
  have haccepts : rejectManagerTestAssignments ip.name (answer.getD .empty).assignments =
      .ok () := by
    unfold rejectManagerTestAssignments
    refine if_neg fun htest => h ?_
    obtain ⟨a, ha, htarget⟩ := List.any_eq_true.mp htest
    cases answer with
    | none => exact absurd ha List.not_mem_nil
    | some response => exact ⟨response, rfl, a, ha, of_decide_eq_true htarget⟩
  simp only [preparationOf, haccepts]
  exact ⟨_, rfl⟩

theorem exists_reconciled (h : validateInceptionPoint crates plugin ip = .ok ()) :
    ∃ resources, reconcileInceptionPoint crates plugin ip context = .ok resources := by
  unfold reconcileInceptionPoint
  rw [h]
  exact ⟨_, rfl⟩

theorem validated_of_reconciled
    (h : reconcileInceptionPoint crates plugin ip context = .ok resources) :
    validateInceptionPoint crates plugin ip = .ok () := by
  unfold reconcileInceptionPoint at h
  split at h
  · cases h
  · assumption

/-- A response that is turned down is not handed on. -/
theorem usable_of_prepared {answer : Option PluginLifecycleResponse} {manager : ManagerPreparation}
    (h : Usable answer ∨ TurnedDown answer) (hmanager : preparationOf ip answer = .ok manager) :
    Usable answer := by
  rcases h with husable | ⟨response, rfl, a, ha, htest⟩
  · exact husable
  · exact absurd htest ((preparationOf_some hmanager).2 a ha)

/-- The variables of a manager that agree are in the Secret. -/
theorem inceptorSecret_get (hagree : InceptorEnvVar.Agree response.inceptorEnv)
    (henv : context.managerInceptorEnv = managerInceptorEnvVars response.inceptorEnv)
    {env : InceptorEnvVar} (hmem : env ∈ response.inceptorEnv) :
    (inceptorSecret ip context).data.get env.name = some env.value := by
  have hentries : (context.managerInceptorEnv.filterMap fun env =>
      env.value.map fun value => (env.name, value)) =
        response.inceptorEnv.map fun env => (env.name, env.value) := by
    rw [henv, managerInceptorEnvVars, List.filterMap_map]
    exact congrFun List.filterMap_eq_map' _
  have hdata : (inceptorSecret ip context).data =
      (OrdMap.empty.insert "plugin-auth-token" context.authToken).insertAll
        (response.inceptorEnv.map fun env => (env.name, env.value)) := by
    rw [← hentries]
    rfl
  rw [hdata]
  refine OrdMap.get_insertAll_of_agree _ (List.mem_map_of_mem hmem) fun entry hentry hkey => ?_
  obtain ⟨other, hother, rfl⟩ := List.mem_map.mp hentry
  exact hagree env hmem other hother hkey

/-- The variables of a manager are variables of the inceptor's container. -/
theorem inceptorDeployment_references
    (henv : context.managerInceptorEnv = managerInceptorEnvVars response.inceptorEnv)
    {env : InceptorEnvVar} (hmem : env ∈ response.inceptorEnv) :
    (inceptorDeployment plugin ip context).References
      (inceptionAuthSecretName context.blueGreenRef ip.name) env.name := by
  refine ⟨_, _, rfl, rfl, _, List.mem_singleton_self _, ?_⟩
  refine List.mem_append_right _ ?_
  rw [henv]
  refine List.mem_map.mpr ⟨EnvVar.ofValue env.name (some env.value), ?_, rfl⟩
  exact List.mem_map_of_mem (f := fun env => EnvVar.ofValue env.name (some env.value)) hmem

theorem configMap_text (hconfig : context.managerConfig = response.config) {config : Json}
    (h : response.config = some config) :
    (inceptorConfigMap crates plugin ip context).data.get "config.yaml" =
      some (inceptorConfigText crates plugin config) := by
  have hsecured : securedInceptionConfig plugin ip context = config := by
    rw [securedInceptionConfig, hconfig, h, Option.getD_some]
  rw [inceptorConfigMap, hsecured]
  rfl

/-- The objects that are built, where they are. -/
theorem reconcileInceptionPoint_calls (h : reconcileInceptionPoint crates plugin ip context =
    .ok resources) (ns : String) {c : Call} : c ∈ resources.calls ns ↔
      c = .applyResource .configMap ns (inceptorConfigMap crates plugin ip context).metadata.name
        (inceptorConfigMap crates plugin ip context) ∨
      c = .applyResource .secret ns (inceptorSecret ip context).metadata.name
        (inceptorSecret ip context) ∨
      c = .applyDeployment (inceptorDeployment plugin ip context).metadata.ns
        (inceptorDeployment plugin ip context).metadata.name (inceptorDeployment plugin ip context) ∨
      c = .applyResource .service ns (inceptorService plugin ip context).metadata.name
        (inceptorService plugin ip context) := by
  unfold reconcileInceptionPoint at h
  split at h
  · cases h
  · cases h
    simp [ReconciledResources.calls]

/-- **The objects of an inceptor** are built from a response with a config whose variables agree. -/
theorem follows_of_usable (hagree : InceptorEnvVar.Agree response.inceptorEnv)
    (hsome : response.config ≠ none)
    (henv : context.managerInceptorEnv = managerInceptorEnvVars response.inceptorEnv)
    (hconfig : context.managerConfig = response.config)
    (h : reconcileInceptionPoint crates plugin ip context = .ok resources) (ns : String) :
    ∀ c ∈ resources.calls ns, c.Follows crates plugin ip context.blueGreenRef response := by
  intro c hc
  obtain ⟨config, hresponse⟩ := Option.ne_none_iff_exists'.mp hsome
  rcases (reconcileInceptionPoint_calls h ns).mp hc with rfl | rfl | rfl | rfl
  · exact ⟨config, hresponse, configMap_text hconfig hresponse⟩
  · exact fun env hmem => inceptorSecret_get hagree henv hmem
  · exact fun env hmem => inceptorDeployment_references henv hmem
  · trivial

/-- **One answer, exactly.** Where the answer is accepted and the objects are built, they are built
from it if and only if it is a response with a config whose variables agree. -/
theorem runsManagers_iff {ns : String} {answer : Option PluginLifecycleResponse}
    {manager : ManagerPreparation} (hmanager : preparationOf ip answer = .ok manager)
    (henv : context.managerInceptorEnv = manager.inceptorEnv)
    (hconfig : context.managerConfig = manager.config)
    (h : reconcileInceptionPoint crates plugin ip context = .ok resources) :
    RunsManagers crates plugin ip context.blueGreenRef ns answer manager resources ↔
      Usable answer := by
  constructor
  · intro ⟨response, hanswer, _, hfollows⟩
    subst hanswer
    obtain ⟨rfl, _⟩ := preparationOf_some hmanager
    refine ⟨response, rfl, ?_, ?_⟩
    · obtain ⟨config, hresponse, _⟩ :=
        hfollows _ ((reconcileInceptionPoint_calls h ns).mpr (.inl rfl))
      rw [hresponse]
      exact Option.some_ne_none config
    · -- the Secret has one value for a name
      intro env hmem other hother hname
      have hsecret := hfollows _ ((reconcileInceptionPoint_calls h ns).mpr (.inr (.inl rfl)))
      have hvalue := hsecret env hmem
      rw [← hname, hsecret other hother] at hvalue
      exact Option.some.inj hvalue
  · intro ⟨response, hanswer, hsome, hagree⟩
    subst hanswer
    obtain ⟨rfl, _⟩ := preparationOf_some hmanager
    exact ⟨response, rfl, rfl, follows_of_usable hagree hsome henv hconfig h ns⟩

end Answer

/-! ## The loop over the inception points -/

/-- What the operator has been told: the plugin it looks after, the answer of its manager with the
inception point it was asked for, and all the assignments that managers have returned. -/
structure Told where
  plugin : Option InceptionPlugin
  answer : Option (String × Option PluginLifecycleResponse)
  returned : List PropertyAssignment

namespace Told

def start : Told := ⟨none, none, []⟩

def see (s : Told) (_ : World) (c : Call) (a : Answer c) (_ : World) : Told :=
  match c, a with
  | .getPlugin _, .ok plugin => ⟨some plugin, none, s.returned⟩
  | .postManager _ _ request, .ok r =>
    ⟨s.plugin, some (request.inceptionPoint, r), s.returned ++ (r.map (·.assignments)).getD []⟩
  | _, _ => s

abbrev machine : Machine Call Answer (World × Told) Outcome Move :=
  cluster.observed see fun _ => start

/-- A manager that answers with a body answers with one in `T`. -/
def answering (T : Option PluginLifecycleResponse → Prop) :
    Guard Call (World × Told) Outcome Move where
  call _ c o := ∀ url bearer request r, c = .postManager url bearer request →
    o = .manager (.ok r) → T r
  move _ _ := True

/-- The body is a response that can be used, or one that is turned down. -/
def Trusted (answer : Option PluginLifecycleResponse) : Prop := Usable answer ∨ TurnedDown answer

abbrev outside (T : Option PluginLifecycleResponse → Prop) : Outside Call Answer (World × Told) :=
  machine.outside (answering T)

/-- An object of an inceptor behind a manager is built from the response for its point. -/
def loyal (ctx : Ctx) (bgd : BlueGreenDeployment) : Contract Call (World × Told) where
  inv _ := True
  may s c := c.Creates → ∀ plugin, s.2.plugin = some plugin → plugin.spec.manager ≠ none →
    ∃ ip ∈ bgd.spec.inceptionPoints, ∃ response, s.2.answer = some (ip.name, some response) ∧
      c.Follows ctx.crates plugin ip bgd.metadata.name response

variable {ctx : Ctx} {bgd : BlueGreenDeployment} {T : Option PluginLifecycleResponse → Prop}
  {s s' : World × Told} {x : Told}

/-- What the operator has been told does not change on its own. -/
theorem stable_eq (P : Told → Prop) : (outside T).Stable fun s => P s.2 := by
  intro s s' h hm
  obtain ⟨v, _, hv⟩ := hm
  obtain ⟨_, hx⟩ := Machine.observed_move hv
  show P s'.2
  rw [hx]
  exact h

theorem see_of_reads {c : Call} {a : Answer c} (hc : c.Reads)
    (ha : (outside T).answers s c a s') : s'.2 = s.2 := by
  obtain ⟨o, _, hserve⟩ := ha
  obtain ⟨_, hx⟩ := Machine.observed_serve hserve
  rw [hx]
  cases c with
  | getPlugin name => exact hc.elim
  | postManager url bearer request => exact hc.elim
  | _ => rfl

/-- Code that only reads leaves things as they were told. -/
theorem reads_keeps {α : Type} {p : Op α} (hp : Op.Reads p) (P : Told → Prop) (h : P s.2) :
    (outside T).Spec (loyal ctx bgd) (fun _ s => P s.2) (fun _ _ => True) p s := by
  refine (Outside.Spec.of_calls hp (stable_eq P) h trivial
    (fun _ _ hc _ _ hcreates => absurd hcreates hc.asks.passive.upkeep.2)
    fun _ _ _ _ hc _ hP ha => ⟨trivial, ?_⟩).mono (fun _ _ h => h.1) fun _ _ _ => trivial
  rw [see_of_reads hc ha]
  exact hP

/-- The answer, as it has been told. -/
def Answered (T : Option PluginLifecycleResponse → Prop) (plugin : InceptionPlugin) (point : String)
    (returned : List PropertyAssignment) (answer : Option PluginLifecycleResponse) (x : Told) :
    Prop :=
  T answer ∧
    x = ⟨some plugin, some (point, answer), returned ++ (answer.map (·.assignments)).getD []⟩

/-- What the answer of a manager tells: its body, or nothing. -/
theorem postManager_told {plugin : InceptionPlugin} {returned : List PropertyAssignment}
    {url bearer : String} {request : PluginManagerLifecycleRequest}
    {answer : HttpAnswer (Option PluginLifecycleResponse)}
    (hx : s.2 = ⟨some plugin, none, returned⟩)
    (ha : (outside T).answers s (.postManager url bearer request) answer s') :
    (∀ r, answer = .ok r → Answered T plugin request.inceptionPoint returned r s'.2) ∧
    ((∀ r, answer ≠ .ok r) → s'.2 = s.2) := by
  obtain ⟨o, hg, hserve⟩ := ha
  obtain ⟨hw, hsee⟩ := Machine.observed_serve hserve
  have hanswer : ∀ r, answer = .ok r → o = .manager (.ok r) := by
    intro r hr
    subst hr
    cases o with
    | manager a =>
      have ha : a = .ok r := (Prod.mk.inj (Option.some.inj hw)).1
      rw [ha]
    | _ => cases hw
  constructor
  · intro r hr
    refine ⟨hg url bearer request r rfl (hanswer r hr), ?_⟩
    rw [hsee, hr, hx]
    rfl
  · intro hnot
    rw [hsee]
    cases answer with
    | ok r => exact absurd rfl (hnot r)
    | _ => rfl

/-- **The request to a manager** ends well with a body, and one that is no response counts as an
empty one. -/
theorem withRetries_told {plugin : InceptionPlugin} {returned : List PropertyAssignment}
    {url bearer : String} {request : PluginManagerLifecycleRequest}
    {failed decodeFailed : String → ReconcileError} (hx : s.2 = ⟨some plugin, none, returned⟩) :
    (outside T).Spec (loyal ctx bgd) (fun o s => ∃ answer, o = some (answer.getD .empty) ∧
        Answered T plugin request.inceptionPoint returned answer s.2) (fun _ _ => True)
      (withRetries 10 (Op.ask (.postManager url bearer request)) failed decodeFailed
        (fun value => some (value.getD .empty)) none) s := by
  refine Outside.Spec.retryWithin (P := fun s => s.2 = ⟨some plugin, none, returned⟩)
    (by omega) hx fun i s hi hx => ?_
  refine ⟨fun hcreates => hcreates.elim, fun answer s' ha => ⟨trivial, fun s'' hl _ => ?_⟩⟩
  obtain ⟨hok, hother⟩ := postManager_told hx ha
  cases answer with
  | statusError text => trivial
  | decodeError text => trivial
  | ok r =>
    obtain ⟨htold, hx'⟩ := hok r rfl
    exact ⟨r, rfl, htold, (stable_eq (T := T) (· = _)).later hx' hl⟩
  | sendError text =>
    have hx' := (stable_eq (T := T) (· = _)).later ((hother nofun).trans hx) hl
    by_cases hlast : i + 1 = 10
    · simp only [httpTry, hlast, decide_true, if_true]
      trivial
    · simp only [httpTry, hlast, decide_false, Bool.false_eq_true, if_false]
      have hsleep : Op.Reads (Op.ask (.sleep 2)) := ask_calls trivial
      refine (reads_keeps hsleep (· = _) hx').bind fun _ s hx => ?_
      exact ⟨hx, by omega⟩

/-- What the operator hands on for a point: what it makes of the answer of its manager, or nothing
where the plugin has none. -/
def Prepared (T : Option PluginLifecycleResponse → Prop) (ip : InceptionPoint)
    (plugin : InceptionPlugin) (returned : List PropertyAssignment) (manager : ManagerPreparation)
    (x : Told) : Prop :=
  (plugin.spec.manager = none ∧ x = ⟨some plugin, none, returned⟩) ∨
  ∃ answer, Answered T plugin ip.name returned answer x ∧ preparationOf ip answer = .ok manager

/-- **What `prepare` hands on** is what the operator makes of the answer, whatever it is. -/
theorem prepareManager_told {ip : InceptionPoint} {plugin : InceptionPlugin}
    {returned : List PropertyAssignment} (hx : s.2 = ⟨some plugin, none, returned⟩) (ns : String) :
    (outside T).Spec (loyal ctx bgd) (fun manager s => Prepared T ip plugin returned manager s.2)
      (fun _ _ => True) (prepareManager ctx bgd ns ip plugin) s := by
  unfold prepareManager invokePluginManagerLifecycle
  cases hmanager : plugin.spec.manager with
  | none => exact .inl ⟨hmanager, hx⟩
  | some manager =>
    refine Outside.Spec.bind (R := fun o s => ∃ answer, o = some (answer.getD .empty) ∧
      Answered T plugin ip.name returned answer s.2) ?_ ?_
    · refine (reads_keeps (Op.Reads.signInceptionAuthToken _ _ _ _ _) (· = _) hx).bind
        fun token s hx => ?_
      refine (reads_keeps (Op.Reads.managerClaims _ _) (· = _) hx).bind fun claims s hx => ?_
      refine (reads_keeps (Op.Reads.activeInceptionsForPlugin _) (· = _) hx).bind
        fun active s hx => ?_
      refine (reads_keeps (Op.Reads.controlPlaneClient _) (· = _) hx).bind fun _ s hx => ?_
      exact withRetries_told hx
    · intro o s ho
      obtain ⟨answer, rfl, htold⟩ := ho
      refine Outside.Spec.ofExcept_bind (fun _ _ => trivial) fun _ haccepts => ?_
      refine .inr ⟨answer, htold, ?_⟩
      simp only [preparationOf, haccepts]

/-- An object is applied where it is built from the response. -/
theorem applyResource_told {kind : Kind} {ns name : String} {r : Resource} (hx : s.2 = x)
    (hmay : ∀ s : World × Told, s.2 = x → (loyal ctx bgd).may s (.applyResource kind ns name r)) :
    (outside T).Spec (loyal ctx bgd) (fun _ s => s.2 = x) (fun _ _ => True)
      (applyResource kind ns name r) s := by
  have happly : ∀ s : World × Told, s.2 = x → (outside T).Spec (loyal ctx bgd) (fun _ s => s.2 = x)
      (fun _ _ => True) (do
        let _ ← Op.kube (← Op.ask (.applyResource kind ns name r))
        (pure () : Op Unit)) s := by
    intro s hx
    refine ⟨hmay s hx, fun a s' ha => ⟨trivial, fun s'' hl _ => ?_⟩⟩
    obtain ⟨o, _, hserve⟩ := ha
    obtain ⟨_, hsee⟩ := Machine.observed_serve hserve
    have hx' : s'.2 = x := hsee.trans hx
    have hx'' := (stable_eq (· = x)).later hx' hl
    cases a with
    | ok _ => exact hx''
    | error e => trivial
  unfold applyResource
  split
  · have hget : Op.Reads (Op.ask (.getResource kind ns name)) := ask_calls trivial
    refine (reads_keeps hget (· = x) hx).bind fun r s hx => ?_
    refine (reads_keeps (getOpt_calls _) (· = x) hx).bind fun existing s hx => ?_
    refine (reads_keeps (Op.Reads.refuseForeign _ _ _) (· = x) hx).bind fun _ s hx => ?_
    exact happly s hx
  · exact happly s hx

theorem applyDeploymentResource_told {ns name : String} {d : Deployment} (hx : s.2 = x)
    (hmay : ∀ s : World × Told, s.2 = x → (loyal ctx bgd).may s (.applyDeployment ns name d)) :
    (outside T).Spec (loyal ctx bgd) (fun _ s => s.2 = x) (fun _ _ => True)
      (applyDeploymentResource ns name d) s := by
  have happly : ∀ s : World × Told, s.2 = x → (outside T).Spec (loyal ctx bgd) (fun _ s => s.2 = x)
      (fun _ _ => True) (do
        let _ ← Op.kube (← Op.ask (.applyDeployment ns name d))
        (pure () : Op Unit)) s := by
    intro s hx
    refine ⟨hmay s hx, fun a s' ha => ⟨trivial, fun s'' hl _ => ?_⟩⟩
    obtain ⟨o, _, hserve⟩ := ha
    obtain ⟨_, hsee⟩ := Machine.observed_serve hserve
    have hx' : s'.2 = x := hsee.trans hx
    have hx'' := (stable_eq (· = x)).later hx' hl
    cases a with
    | ok _ => exact hx''
    | error e => trivial
  unfold applyDeploymentResource
  split
  · have hget : Op.Reads (Op.ask (.getDeployment ns name)) := ask_calls trivial
    refine (reads_keeps hget (· = x) hx).bind fun r s hx => ?_
    refine (reads_keeps (getOpt_calls _) (· = x) hx).bind fun existing s hx => ?_
    refine (reads_keeps (Op.Reads.refuseForeign _ _ _) (· = x) hx).bind fun _ s hx => ?_
    exact happly s hx
  · exact happly s hx

/-- The objects of an inceptor are applied where each of them is built from the response. -/
theorem applyInceptorResources_told {ns : String} {resources : ReconciledResources} (hx : s.2 = x)
    (hmay : ∀ c ∈ resources.calls ns, ∀ s : World × Told, s.2 = x → (loyal ctx bgd).may s c) :
    (outside T).Spec (loyal ctx bgd) (fun _ s => s.2 = x) (fun _ _ => True)
      (applyInceptorResources ns resources) s := by
  refine Outside.Spec.bind (Outside.Spec.forEach (P := fun s => s.2 = x) hx fun cm hcm s hx =>
    applyResource_told hx (hmay _ ?_)) fun _ s hx => ?_
  · simp only [ReconciledResources.calls, List.mem_append]
    exact .inl (.inl (.inl (List.mem_map_of_mem hcm)))
  refine Outside.Spec.bind (Outside.Spec.forEach (P := fun s => s.2 = x) hx fun r hr s hx =>
    applyResource_told hx (hmay _ ?_)) fun _ s hx => ?_
  · simp only [ReconciledResources.calls, List.mem_append]
    exact .inl (.inl (.inr (List.mem_map_of_mem hr)))
  refine Outside.Spec.bind (Outside.Spec.forEach (P := fun s => s.2 = x) hx fun d hd s hx =>
    applyDeploymentResource_told hx (hmay _ ?_)) fun _ s hx => ?_
  · simp only [ReconciledResources.calls, List.mem_append]
    exact .inl (.inr (List.mem_map_of_mem hd))
  refine Outside.Spec.bind (Outside.Spec.forEach (P := fun s => s.2 = x) hx fun r hr s hx =>
    applyResource_told hx (hmay _ ?_)) fun _ s hx => ?_
  · simp only [ReconciledResources.calls, List.mem_append]
    exact .inr (List.mem_map_of_mem hr)
  exact hx

/-- What has been returned is collected, and none of it is for the test. -/
def Collected (acc : Preparation) (x : Told) : Prop :=
  ∀ a ∈ x.returned, a.target ≠ .test ∧ a ∈ acc.preActivationAssignments

/-- **One turn of the loop.** -/
theorem prepareInceptionPoint_told {ip : InceptionPoint} (hip : ip ∈ bgd.spec.inceptionPoints)
    {acc : Preparation} (h : Collected acc s.2) (ns testUrl : String) :
    (outside Trusted).Spec (loyal ctx bgd) (fun acc s => Collected acc s.2) (fun _ _ => True)
      (prepareInceptionPoint ctx bgd ns testUrl acc ip) s := by
  obtain ⟨w, x⟩ := s
  -- the plugin is read, and nothing is known of its manager yet
  refine ⟨fun hcreates => hcreates.elim, fun a s' ha => ⟨trivial, fun s hl _ => ?_⟩⟩
  obtain ⟨o, _, hserve⟩ := ha
  obtain ⟨_, hsee⟩ := Machine.observed_serve hserve
  cases a with
  | error e => trivial
  | ok plugin =>
    have hx : s.2 = ⟨some plugin, none, x.returned⟩ :=
      (stable_eq (· = (⟨some plugin, none, x.returned⟩ : Told))).later hsee hl
    refine Outside.Spec.ofExcept_bind (fun _ _ => trivial) fun _ _ => ?_
    refine (prepareManager_told hx ns).bind fun manager s hprepared => ?_
    refine (reads_keeps (Op.Reads.signInceptionAuthToken _ _ _ _ _)
      (Prepared Trusted ip plugin x.returned manager) hprepared).bind fun token s hprepared => ?_
    refine Outside.Spec.ofExcept_bind (fun _ _ => trivial) fun resources hresources => ?_
    have hbuilt := mapError_eq_ok.mp hresources
    have hmay : ∀ c ∈ resources.calls ns, ∀ s' : World × Told, s'.2 = s.2 →
        (loyal ctx bgd).may s' c := by
      intro c hc s' heq _ plugin' hplugin hmanager
      rw [heq] at hplugin ⊢
      rcases hprepared with ⟨hnone, hx⟩ | ⟨answer, ⟨htrusted, hx⟩, hmanager'⟩
      · rw [hx] at hplugin
        cases hplugin
        exact absurd hnone hmanager
      · rw [hx] at hplugin
        cases hplugin
        obtain ⟨response, rfl, hconfig, hagree⟩ := usable_of_prepared htrusted hmanager'
        obtain ⟨rfl, _⟩ := preparationOf_some hmanager'
        refine ⟨ip, hip, response, by rw [hx], ?_⟩
        exact follows_of_usable hagree hconfig rfl rfl hbuilt ns c hc
    refine (applyInceptorResources_told (x := s.2) rfl hmay).bind fun ids s' heq => ?_
    intro a ha
    rw [heq] at ha
    simp only [List.mem_append]
    rcases hprepared with ⟨_, hx⟩ | ⟨answer, ⟨htrusted, hx⟩, hmanager'⟩
    · rw [hx] at ha
      exact ⟨(h a ha).1, .inl (.inl (h a ha).2)⟩
    · obtain ⟨response, rfl, _, _⟩ := usable_of_prepared htrusted hmanager'
      obtain ⟨rfl, htargets⟩ := preparationOf_some hmanager'
      rw [hx] at ha
      rcases List.mem_append.mp ha with ha | ha
      · exact ⟨(h a ha).1, .inl (.inl (h a ha).2)⟩
      · exact ⟨htargets a ha, .inl (.inr ha)⟩

/-- **The loop.** -/
theorem prepareInceptionPoints_told {acc : Preparation} (h : Collected acc s.2)
    (ns testUrl : String) :
    (outside Trusted).Spec (loyal ctx bgd) (fun acc s => Collected acc s.2) (fun _ _ => True)
      (Prog.foldEach bgd.spec.inceptionPoints acc (prepareInceptionPoint ctx bgd ns testUrl)) s :=
  Outside.Spec.foldEach (P := fun (acc : Preparation) (s : World × Told) => Collected acc s.2) h
    fun _ hip _ _ h => prepareInceptionPoint_told hip h ns testUrl

end Told

/-! ## The assignments -/

/-- What `ensure_inception_resources` does with what the loop has collected. -/
def finishInceptionResources (ctx : Ctx) (bgd : BlueGreenDeployment) (ns : String)
    (prepared : Preparation) : Op Unit := do
  let assignments ← Prog.foldEach prepared.plans prepared.preActivationAssignments
    (prepareInceptor ctx bgd ns)
  let extraEnv ← extraTestEnv ctx bgd ns prepared.verifierAuthTokens
  ensureDeclaredDeployments ctx bgd ns assignments
  let testDeployments ← ensureTestResources bgd ns prepared.testAssignments extraEnv
  waitForDeploymentsReady testDeployments
  waitForTestServicesReady bgd ns
  applyPreActivation bgd ns assignments
  Prog.forEach prepared.plans (activateInceptor ctx bgd ns)

theorem ensureInceptionResources_eq (ctx : Ctx) (bgd : BlueGreenDeployment) (ns : String) :
    ensureInceptionResources ctx bgd ns = (do
      let testUrl ← Op.lift (testContainerUrl bgd ns)
      let prepared ← Prog.foldEach bgd.spec.inceptionPoints Preparation.empty
        (prepareInceptionPoint ctx bgd ns testUrl)
      finishInceptionResources ctx bgd ns prepared) := rfl

/-- The assignment is for the container of the Deployment. -/
def PropertyAssignment.For (bgd : BlueGreenDeployment) (ns : String)
    (greenRef : Option DeploymentRef) (id : DeploymentIdentity) (c : Container)
    (a : PropertyAssignment) : Prop :=
  assignmentIdentity bgd ns greenRef a.target = some id ∧ Admits a.containerName c

/-- Every variable that is assigned for the container has a value that is assigned to it. -/
def Assigns (bgd : BlueGreenDeployment) (ns : String) (greenRef : Option DeploymentRef)
    (id : DeploymentIdentity) (assignments : List PropertyAssignment) (c c' : Container) : Prop :=
  ∀ a ∈ assignments, a.For bgd ns greenRef id c → ∃ b ∈ assignments, b.For bgd ns greenRef id c ∧
    b.name = a.name ∧ (findEnv c'.env a.name).bind (·.value) = some b.value

/-- Every Deployment that was there has the assignments in its containers, for one green. -/
def AllAssigned (bgd : BlueGreenDeployment) (ns : String)
    (assignments : List PropertyAssignment) (before after : World) : Prop :=
  ∀ id cs, Carries id cs before → ∃ greenRef cs', Carries id cs' after ∧
    List.Forall₂ (Assigns bgd ns greenRef id assignments) cs cs'

section Assigned

variable {bgd : BlueGreenDeployment} {ns : String} {greenRef : Option DeploymentRef}
  {id : DeploymentIdentity} {assignments : List PropertyAssignment} {cs : List Container}
  {w : World}

theorem mem_of_lastValue {as : List PropertyAssignment} {name v : String}
    (h : lastValue as name = some v) : ∃ a ∈ as, a.name = name ∧ a.value = v := by
  obtain ⟨a, ha, heq⟩ := List.mem_map.mp (mem_of_assigned h)
  exact ⟨a, ha, (Prod.mk.inj heq).1, (Prod.mk.inj heq).2⟩

theorem assigns_patched (c : Container) : Assigns bgd ns greenRef id assignments c
    { c with env := upsertAll c.env (groupedSettings bgd ns greenRef id assignments c) } := by
  intro a ha hfor
  have hmem : a ∈ (assignmentsFor bgd ns greenRef id assignments).filter fun a =>
      Admits a.containerName c := by
    refine List.mem_filter.mpr ⟨List.mem_filter.mpr ⟨ha, decide_eq_true hfor.1⟩, ?_⟩
    exact decide_eq_true hfor.2
  have hasked : ∃ v, assigned a.name (deploymentSettings bgd ns greenRef id assignments c) =
      some v :=
    exists_assigned ⟨a.setting, List.mem_map_of_mem hmem, rfl⟩
  have hkey : (assigned a.name (groupedSettings bgd ns greenRef id assignments c)).isSome =
      (assigned a.name (deploymentSettings bgd ns greenRef id assignments c)).isSome :=
    groupedSettings_keys c a.name
  obtain ⟨v, hv⟩ := hasked
  rw [hv] at hkey
  obtain ⟨v, hv⟩ := Option.isSome_iff_exists.mp hkey
  have hfound : (findEnv (upsertAll c.env (groupedSettings bgd ns greenRef id assignments c))
      a.name).bind (·.value) = some v := by
    rw [findEnv_upsertAll, hv]
    rfl
  have hvalue := hv
  rw [groupedSettings, assigned_patchesFor] at hvalue
  -- the value is that of an assignment for the container alone, or else of one for all
  rcases Option.or_eq_some_iff.mp hvalue with hown | ⟨_, hall⟩
  · obtain ⟨b, hb, hname, rfl⟩ := mem_of_lastValue hown
    obtain ⟨hb, hcontainer⟩ := List.mem_filter.mp hb
    obtain ⟨hb, hid⟩ := List.mem_filter.mp hb
    refine ⟨b, hb, ⟨of_decide_eq_true hid, ?_⟩, hname, hfound⟩
    simp [Admits, of_decide_eq_true hcontainer]
  · obtain ⟨b, hb, hname, rfl⟩ := mem_of_lastValue hall
    obtain ⟨hb, hcontainer⟩ := List.mem_filter.mp hb
    obtain ⟨hb, hid⟩ := List.mem_filter.mp hb
    refine ⟨b, hb, ⟨of_decide_eq_true hid, ?_⟩, hname, hfound⟩
    simp [Admits, of_decide_eq_true hcontainer]

theorem assigns_patchedContainers (cs : List Container) :
    List.Forall₂ (Assigns bgd ns greenRef id assignments) cs
      (patchedContainers bgd ns greenRef id assignments cs) := by
  rw [patchedContainers_eq, List.forall₂_map_right_iff, List.forall₂_same]
  exact fun c _ => assigns_patched c

/-- Code that only asks leaves the containers alone. -/
theorem Carries.asks {α : Type} {p : Op α} (hp : Op.Asks p) (h : Carries id cs w) :
    quietCluster.Spec anyCall (fun _ w' => Carries id cs w') (fun _ _ => True) p w := by
  have hstable : quietCluster.Stable (Carries id cs) := by
    intro w w' _ hm
    obtain ⟨_, hmoves, _⟩ := hm
    exact hmoves.elim
  refine (Outside.Spec.of_calls hp hstable h trivial (fun _ _ _ _ _ => trivial) fun w c a w' hc _ h ha => ⟨trivial, ?_⟩).mono
    (fun _ _ h => h.1) fun _ _ _ => trivial
  obtain ⟨o, _, hserve⟩ := ha
  have hsame := World.serve_deployments hc.passive.2.1 hserve
  exact ⟨by rw [hsame]; exact h.distinct, by rw [hsame]; exact h.there⟩

/-- What is not looked at can be anything. -/
theorem quiet_any {α : Type} (p : Op α) (w : World) :
    quietCluster.Spec anyCall (fun _ _ => True) (fun _ _ => True) p w :=
  (Outside.Spec.of_calls (P := fun _ => True) (Prog.Calls.any p) (fun _ _ _ _ => trivial) trivial
    trivial (fun _ _ _ _ _ => trivial) fun _ _ _ _ _ _ _ _ => ⟨trivial, trivial⟩).mono
    (fun _ _ _ => trivial) fun _ _ _ => trivial

theorem applyPreActivation_assigns (h : Carries id cs w) :
    quietCluster.Spec anyCall (fun _ w' => ∃ greenRef cs', Carries id cs' w' ∧
        List.Forall₂ (Assigns bgd ns greenRef id assignments) cs cs') (fun _ _ => True)
      (applyPreActivation bgd ns assignments) w := by
  unfold applyPreActivation
  split
  · rename_i hnil
    subst hnil
    exact ⟨none, cs, h, List.forall₂_same.mpr fun c _ a ha => absurd ha (by simp)⟩
  · refine (applyAssignments_leaves h).bind fun touched w₁ hcarries => ?_
    obtain ⟨greenRef, hcarries⟩ := hcarries
    refine (hcarries.asks (Op.Asks.waitForDeploymentsReady touched)).mono
      (fun _ w₂ h₂ => ?_) fun _ _ _ => trivial
    exact ⟨greenRef, _, h₂, assigns_patchedContainers cs⟩

/-- **What the managers have returned reaches the containers** of every Deployment that is there
when it is assigned, together with what the inceptors have returned. -/
theorem finishInceptionResources_assigns (ctx : Ctx) (prepared : Preparation) :
    quietCluster.Spec anyCall (fun _ w' => ∃ assignments w₀,
        (∀ a ∈ prepared.preActivationAssignments, a ∈ assignments) ∧
          AllAssigned bgd ns assignments w₀ w') (fun _ _ => True)
      (finishInceptionResources ctx bgd ns prepared) w := by
  have hcollect : quietCluster.Spec anyCall (fun assignments _ =>
      ∀ a ∈ prepared.preActivationAssignments, a ∈ assignments) (fun _ _ => True)
      (Prog.foldEach prepared.plans prepared.preActivationAssignments
        (prepareInceptor ctx bgd ns)) w := by
    refine Outside.Spec.foldEach (P := fun assignments _ =>
      ∀ a ∈ prepared.preActivationAssignments, a ∈ assignments) (fun _ ha => ha)
      fun plan _ assignments w hall => ?_
    refine (quiet_any _ w).bind fun _ w _ => ?_
    refine (quiet_any _ w).bind fun response w _ => ?_
    cases response with
    | none => exact hall
    | some response =>
      refine (quiet_any _ w).bind fun _ w _ => (quiet_any _ w).bind fun _ w _ => ?_
      exact fun a ha => List.mem_append_left _ (hall a ha)
  refine hcollect.bind fun assignments w hall => ?_
  refine (quiet_any _ w).bind fun _ w _ => (quiet_any _ w).bind fun _ w _ => ?_
  refine (quiet_any _ w).bind fun _ w _ => (quiet_any _ w).bind fun _ w _ => ?_
  refine (quiet_any _ w).bind fun _ w₀ _ => ?_
  have hassigned : quietCluster.Spec anyCall (fun _ w' => AllAssigned bgd ns assignments w₀ w')
      (fun _ _ => True) ((applyPreActivation bgd ns assignments).bind fun _ =>
        Prog.forEach prepared.plans (activateInceptor ctx bgd ns)) w₀ := by
    have hidentities : Nonempty DeploymentIdentity := ⟨⟨ns, ns⟩⟩
    refine Outside.Spec.all fun id => ?_
    refine Outside.Spec.all fun cs => ?_
    by_cases h : Carries id cs w₀
    · refine (applyPreActivation_assigns h).bind fun _ w₁ h₁ => ?_
      obtain ⟨greenRef, cs', h₁, hassigns⟩ := h₁
      have hactivate : Op.Asks (Prog.forEach prepared.plans (activateInceptor ctx bgd ns)) :=
        .forEach fun plan _ => Op.Asks.activateInceptor ctx bgd ns plan
      exact (h₁.asks hactivate).mono (fun _ w₂ h₂ _ => ⟨greenRef, cs', h₂, hassigns⟩)
        fun _ _ _ => trivial
    · exact (quiet_any _ w₀).mono (fun _ _ _ h' => absurd h' h) fun _ _ _ => trivial
  exact hassigned.mono (fun _ w' h => ⟨assignments, w₀, hall, h⟩) fun _ _ _ => trivial

end Assigned

/-! ## The managers of this repository -/

/-- A config is rewritten into `null` where it is `null`. -/
theorem rewriteTempNames_eq_null_iff (names : TempNames) (id : InceptionId) (config : Json) :
    rewriteTempNames names id config = .null ↔ config = .null := by
  cases config with
  | obj fields =>
    obtain ⟨fields', heq, _⟩ := rewriteTempNames_obj names id fields
    simp [heq]
  | null => simp [rewriteTempNames_not_obj]
  | bool b => simp [rewriteTempNames_not_obj]
  | num n => simp [rewriteTempNames_not_obj]
  | str text => simp [rewriteTempNames_not_obj]
  | arr xs => simp [rewriteTempNames_not_obj]

/-- The operator reads the response as the manager sent it, exactly where a config was sent. -/
def PluginLifecycleResponse.ReadBack (req : PluginManagerLifecycleRequest)
    (response : PluginLifecycleResponse) : Prop :=
  decode response.encode = some response ↔ req.config ≠ .null

/-- A response with the config of the request, rewritten. -/
theorem PluginLifecycleResponse.readBack_rewritten (names : TempNames) (id : InceptionId)
    (req : PluginManagerLifecycleRequest) (assignments : List PropertyAssignment)
    (inceptorEnv : List InceptorEnvVar) :
    ReadBack req ⟨assignments, inceptorEnv, some (rewriteTempNames names id req.config)⟩ := by
  rw [ReadBack, decode_encode_iff, ne_eq, Option.some.injEq, rewriteTempNames_eq_null_iff]

section Managers

variable (header : Option String) (req : PluginManagerLifecycleRequest)

theorem Rabbitmq.prepareHandler_readBack (lib : ManagerCrates) (state : Rabbitmq.ManagerState) :
    (Rabbitmq.prepareHandler lib state header req).Returns
      (PluginLifecycleResponse.ReadBack req) := by
  refine .of_bind fun claims => .of_bind fun _ => .of_bind fun _ => .of_bind fun _ => ?_
  refine .of_bind fun inceptorEnv => .of_bind fun _ => ?_
  exact PluginLifecycleResponse.readBack_rewritten _ _ _ _ _

theorem ServiceBus.prepareHandler_readBack (state : ServiceBus.ManagerState) :
    (ServiceBus.prepareHandler state header req).Returns
      (PluginLifecycleResponse.ReadBack req) := by
  refine .of_bind fun claims => .of_bind fun _ => .of_bind fun _ => .of_bind fun _ => ?_
  exact PluginLifecycleResponse.readBack_rewritten _ _ _ _ _

theorem Nats.prepareHandler_readBack (state : Nats.ManagerState) :
    (Nats.prepareHandler state header req).Returns (PluginLifecycleResponse.ReadBack req) := by
  refine .of_bind fun claims => .of_bind fun _ => .of_bind fun _ => .of_bind fun _ => ?_
  refine .of_bind fun _ => ?_
  exact PluginLifecycleResponse.readBack_rewritten _ _ _ _ _

end Managers

/-! ## The config of the manager -/

namespace Sample

/-- A point with a queue of the user's. -/
def ordersQueue : InceptionPoint :=
  { orders with config := .obj [("duplicator", .obj [("inputQueue", .str "orders")])] }

/-- The plugin with a manager. -/
def securingPlugin : InceptionPlugin :=
  { plugin with spec := { plugin.spec with
    manager := some ⟨"fluidbg-manager", none, none, none, none, none, none⟩ } }

/-- The response of a manager that has secured the queue. -/
def securedOrders : PluginLifecycleResponse where
  assignments := [⟨.blue, .env, "ORDERS_QUEUE", "fluidbg-blue-in", none⟩]
  inceptorEnv := [⟨"AMQP_USERNAME", "fluidbg-orders"⟩]
  config := some (.obj [("duplicator", .obj [("inputQueue", .str "orders"),
    ("blueInputQueue", .str "fluidbg-blue-in")])])

/-- The objects of the point are asked for in this context. -/
def ordersContext (manager : ManagerPreparation) : ReconcileInceptionContext :=
  inceptionContext ctx (bgd .pending) "default" "http://shop-tests.default:8080" "orders" manager

end Sample

end FluidBG
