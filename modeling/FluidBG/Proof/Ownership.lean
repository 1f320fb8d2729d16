import FluidBG.Proof.Manifest
import FluidBG.Proof.Reconcile
import FluidBG.Proof.Sweep
import FluidBG.Sample
/-!
# The keys of created objects

The operator creates the objects of a rollout in more than one namespace, and the sweep rebuilds
the key of an object from the namespace it finds it in. Every function that creates something is a
constructor below; all but the candidate go to the namespace of the `BlueGreenDeployment` itself.
-/

set_option autoImplicit false

namespace FluidBG

open Lib

/-- Where an object is put, and the labels it is put there with. -/
structure Placement where
  ns : String
  labels : Labels

def Deployment.placement (d : Deployment) : Placement := ⟨d.metadata.ns, d.metadata.labels⟩

def Resource.placement (r : Resource) : Placement := ⟨r.metadata.ns, r.metadata.labels⟩

/-- The objects of an inceptor, wherever they are kept. -/
def ReconciledResources.placements (resources : ReconciledResources) : List Placement :=
  resources.deployments.map Deployment.placement ++
    (resources.configMaps ++ resources.secrets ++ resources.services).map Resource.placement

/-- What the operator creates while it reconciles `bgd`. -/
inductive CreatedFor (ctx : Ctx) (bgd : BlueGreenDeployment) : Placement → Prop
  /-- The candidate of `ensure_declared_deployments`, or the green of `promote` and of
  `bootstrap_initial_green_if_empty`. -/
  | manifest (isGreen : Bool) (assignments : List PropertyAssignment) (d : Deployment)
      (h : deploymentManifest ctx.crates bgd bgd.metadata.ns bgd.spec.deployment
        bgd.spec.selector.matchLabels isGreen assignments = .ok d) :
      CreatedFor ctx bgd d.placement
  /-- The objects of an inceptor. -/
  | inceptor (plugin : InceptionPlugin) (ip : InceptionPoint) (testUrl authToken : String)
      (manager : ManagerPreparation) (resources : ReconciledResources)
      (h : reconcileInceptionPoint ctx.crates plugin ip
        (inceptionContext ctx bgd bgd.metadata.ns testUrl authToken manager) = .ok resources)
      (p : Placement) (hp : p ∈ resources.placements) : CreatedFor ctx bgd p
  /-- The Deployment and the Service of the test. -/
  | test (test : TestSpec) : CreatedFor ctx bgd
      ⟨bgd.metadata.ns, testLabels bgd test.name (testInstanceName bgd test.name)⟩
  | verifierAuth (tokensJson : String) :
      CreatedFor ctx bgd (verifierAuthSecret bgd bgd.metadata.ns tokensJson).placement
  | snapshot (specYaml : String) :
      CreatedFor ctx bgd (rolloutSpecSnapshot bgd bgd.metadata.ns specYaml).placement

/-- An object that the operator generates. -/
inductive GeneratedObject where
  | deployment (d : Deployment)
  | resource (r : Resource)

def GeneratedObject.metadata : GeneratedObject → ObjectMeta
  | .deployment d => d.metadata
  | .resource r => r.metadata

/-- **What a Pending reconcile generates** for an object: its snapshot, the objects of its inception
points, and those of its test. -/
inductive Generates (ctx : Ctx) (bgd : BlueGreenDeployment) : GeneratedObject → Prop
  | snapshot (specYaml : String) (h : ctx.crates.specYaml bgd.spec = .ok specYaml) :
      Generates ctx bgd (.resource (rolloutSpecSnapshot bgd bgd.metadata.ns specYaml))
  | inceptorDeployment (ip : InceptionPoint) (hip : ip ∈ bgd.spec.inceptionPoints)
      (plugin : InceptionPlugin) (testUrl authToken : String) (manager : ManagerPreparation)
      (resources : ReconciledResources)
      (h : reconcileInceptionPoint ctx.crates plugin ip
        (inceptionContext ctx bgd bgd.metadata.ns testUrl authToken manager) = .ok resources)
      (d : Deployment) (hd : d ∈ resources.deployments) : Generates ctx bgd (.deployment d)
  | inceptorResource (ip : InceptionPoint) (hip : ip ∈ bgd.spec.inceptionPoints)
      (plugin : InceptionPlugin) (testUrl authToken : String) (manager : ManagerPreparation)
      (resources : ReconciledResources)
      (h : reconcileInceptionPoint ctx.crates plugin ip
        (inceptionContext ctx bgd bgd.metadata.ns testUrl authToken manager) = .ok resources)
      (r : Resource) (hr : r ∈ resources.configMaps ++ resources.secrets ++ resources.services) :
      Generates ctx bgd (.resource r)
  | verifierAuth (test : TestSpec) (htest : bgd.spec.test = some test) (tokens : Labels)
      (tokensJson : String) (h : ctx.crates.jsonText tokens = .ok tokensJson) :
      Generates ctx bgd (.resource (verifierAuthSecret bgd bgd.metadata.ns tokensJson))
  | testDeployment (test : TestSpec) (htest : bgd.spec.test = some test)
      (assignments : List PropertyAssignment) (extraEnv : List EnvVar) (d : Deployment)
      (h : testDeployment bgd test bgd.metadata.ns assignments extraEnv = .ok d) :
      Generates ctx bgd (.deployment d)
  | testService (test : TestSpec) (htest : bgd.spec.test = some test) (service : ServiceSpec)
      (h : serviceSpecForTest test
        (testLabels bgd test.name (testInstanceName bgd test.name)) = .ok service) :
      Generates ctx bgd (.resource {
        kind := .service
        metadata := ObjectMeta.new (testInstanceName bgd test.name) bgd.metadata.ns
          (testLabels bgd test.name (testInstanceName bgd test.name))
        data := .empty
        service := some service })

/-! ## The objects of an inceptor and of a test -/

theorem testDeployment_metadata {bgd : BlueGreenDeployment} {test : TestSpec} {ns : String}
    {assignments : List PropertyAssignment} {extraEnv : List EnvVar} {d : Deployment}
    (h : testDeployment bgd test ns assignments extraEnv = .ok d) :
    d.metadata = ObjectMeta.new (testInstanceName bgd test.name) ns
      (testLabels bgd test.name (testInstanceName bgd test.name)) := by
  unfold testDeployment at h
  simp only [bind_eq_ok] at h
  obtain ⟨spec, _, spec', _, hd⟩ := h
  cases hd
  rfl

/-- The labels of an inceptor's objects carry the reference. -/
theorem inceptionLabels_ref (ip : InceptionPoint) (context : ReconcileInceptionContext)
    (name : String) :
    (OrdMap.ofList (inceptionLabels ip context)).get "fluidbg.io/blue-green-ref" =
        some context.blueGreenRef ∧
      (OrdMap.ofList (("app", name) :: inceptionLabels ip context)).get
        "fluidbg.io/blue-green-ref" = some context.blueGreenRef := by
  let e := ("fluidbg.io/blue-green-ref", context.blueGreenRef)
  exact ⟨OrdMap.get_ofList_of_mem (e := e) (by simp [inceptionLabels]) (by simp [inceptionLabels, e]),
    OrdMap.get_ofList_of_mem (e := e) (by simp [inceptionLabels]) (by simp [inceptionLabels, e])⟩

section Inceptor

variable {ctx : Ctx} {plugin : InceptionPlugin} {ip : InceptionPoint}
  {context : ReconcileInceptionContext} {resources : ReconciledResources}

theorem reconcileInceptionPoint_ns
    (h : reconcileInceptionPoint ctx.crates plugin ip context = .ok resources) :
    ∀ p ∈ resources.placements, p.ns = context.ns ∧
      p.labels.get "fluidbg.io/blue-green-ref" = some context.blueGreenRef := by
  unfold reconcileInceptionPoint at h
  split at h
  · simp at h
  · cases h
    intro p hp
    simp only [ReconciledResources.placements, List.map_cons, List.map_nil, List.cons_append,
      List.nil_append, List.mem_cons, List.not_mem_nil, or_false] at hp
    rcases hp with rfl | rfl | rfl | rfl
    · exact ⟨rfl, (inceptionLabels_ref ip context _).2⟩
    · exact ⟨rfl, (inceptionLabels_ref ip context "").1⟩
    · exact ⟨rfl, (inceptionLabels_ref ip context "").1⟩
    · exact ⟨rfl, (inceptionLabels_ref ip context _).2⟩

theorem reconcileInceptionPoint_kinds
    (h : reconcileInceptionPoint ctx.crates plugin ip context = .ok resources) :
    (∀ r ∈ resources.configMaps, r.kind = .configMap) ∧
      (∀ r ∈ resources.secrets, r.kind = .secret) ∧
        ∀ r ∈ resources.services, r.kind = .service := by
  unfold reconcileInceptionPoint at h
  split at h
  · cases h
  · cases h
    simp [inceptorConfigMap, inceptorSecret, inceptorService]

end Inceptor

/-! ## Every creation of a reconcile is one of these -/

/-- What the call puts in place. -/
def Call.placement : Call → Option Placement
  | .createDeployment ns d => some ⟨ns, d.metadata.labels⟩
  | .applyDeployment ns _ d => some ⟨ns, d.metadata.labels⟩
  | .applyResource _ ns _ r => some ⟨ns, r.metadata.labels⟩
  | _ => none

/-- The call puts nothing in place but what `P` allows. -/
def Call.Places (P : Placement → Prop) (c : Call) : Prop := ∀ p ∈ c.placement, P p

/-- The code puts nothing in place but what `P` allows. -/
abbrev Op.Places (P : Placement → Prop) {α : Type} (p : Op α) : Prop := p.Calls (Call.Places P)

/-- What the call puts in place, where it belongs, is the application or what is generated. -/
def Call.Builds (ctx : Ctx) (bgd : BlueGreenDeployment) : Call → Prop
  | .createDeployment ns d => d.metadata.ns = ns ∧ ∃ isGreen assignments,
      deploymentManifest ctx.crates bgd bgd.metadata.ns bgd.spec.deployment
        bgd.spec.selector.matchLabels isGreen assignments = .ok d
  | .applyDeployment ns name d =>
    Generates ctx bgd (.deployment d) ∧ d.metadata.ns = ns ∧ d.metadata.name = name
  | .applyResource kind ns name r =>
    Generates ctx bgd (.resource r) ∧ r.kind = kind ∧ r.metadata.ns = ns ∧ r.metadata.name = name
  | _ => True

/-- The code puts nothing in place but the application and what is generated. -/
abbrev Op.Builds (ctx : Ctx) (bgd : BlueGreenDeployment) {α : Type} (p : Op α) : Prop :=
  p.Calls (Call.Builds ctx bgd)

/-- The call puts nothing in place. -/
def Call.Placeless (c : Call) : Prop := c.placement = none

/-- The code puts nothing in place. -/
abbrev Op.Placeless {α : Type} (p : Op α) : Prop := p.Calls Call.Placeless

namespace Op.Placeless

variable {α : Type} {ctx : Ctx} {bgd : BlueGreenDeployment}

theorem none {c : Call} (h : c.placement = none) : c.Placeless := h

theorem of_call {c : Call} (h : c.Upkeep) : c.Placeless := by
  cases c with
  | createDeployment _ _ | applyDeployment _ _ _ | applyResource _ _ _ _ =>
    exact absurd trivial h.2
  | _ => exact none rfl

theorem of_upkeep {p : Op α} (h : Op.Upkeep p) : Op.Placeless p := h.mono fun _ => of_call

theorem of_asks {p : Op α} (h : Op.Asks p) : Op.Placeless p := of_upkeep h.upkeep

theorem of_reports {p : Op α} (h : Op.Reports p) : Op.Placeless p :=
  h.mono fun c hc => none (by cases c <;> first | rfl | exact hc.elim)

theorem note (n : Note) : Op.Placeless (Op.note n) := ask_calls (none rfl)

theorem places {P : Placement → Prop} {p : Op α} (h : Op.Placeless p) : Op.Places P p := by
  refine h.mono fun c hc q hq => ?_
  rw [hc] at hq
  cases hq

theorem builds {p : Op α} (h : Op.Placeless p) : Op.Builds ctx bgd p := by
  refine h.mono fun c hc => ?_
  cases c with
  | createDeployment _ _ | applyDeployment _ _ _ | applyResource _ _ _ _ => cases hc
  | _ => trivial

/-! ## Code that creates nothing -/

theorem ensureRolloutGeneration (ns : String) :
    Op.Placeless (FluidBG.ensureRolloutGeneration bgd ns) := by
  unfold FluidBG.ensureRolloutGeneration
  split
  · trivial
  · exact of_reports (Op.Reports.patchStatus _ _ _)

theorem initializeSplitterTraffic (ns : String) :
    Op.Placeless (FluidBG.initializeSplitterTraffic ctx bgd ns) := by
  unfold FluidBG.initializeSplitterTraffic
  split
  · trivial
  · exact (of_upkeep (Op.Passive.applySplitterTrafficPercent _ _ _ _).upkeep).bind fun _ =>
      of_reports (Op.Reports.patchStatus _ _ _)

theorem tryCandidateSuffixes (ns deployNamespace : String) (suffixes : List String) :
    Op.Placeless (FluidBG.tryCandidateSuffixes bgd ns deployNamespace suffixes) := by
  induction suffixes with
  | nil => trivial
  | cons suffix suffixes ih =>
    refine (ask_calls (none rfl)).bind fun r => ?_
    rcases r with e | _
    · cases e with
      | notFound _ => exact (of_reports (Op.Reports.patchStatus _ _ _)).bind fun _ => trivial
      | _ => trivial
    · exact ih

theorem ensureGeneratedCandidateName (ns : String) :
    Op.Placeless (FluidBG.ensureGeneratedCandidateName bgd ns) := by
  unfold FluidBG.ensureGeneratedCandidateName
  split
  · trivial
  · exact tryCandidateSuffixes _ _ _

theorem applyPreActivation (ns : String) (assignments : List PropertyAssignment) :
    Op.Placeless (FluidBG.applyPreActivation bgd ns assignments) := by
  unfold FluidBG.applyPreActivation
  split
  · trivial
  · exact (of_upkeep (Op.Rewires.applyAssignments _ _ _ _).upkeep).bind fun _ =>
      of_asks (Op.Asks.waitForDeploymentsReady _)

theorem beginDrainingAfterRollback (ns : String) :
    Op.Placeless (FluidBG.beginDrainingAfterRollback ctx bgd ns) :=
  (note _).bind fun _ => (of_upkeep (Op.Rewires.startPluginDraining _ _ _ _).upkeep).bind fun _ =>
    (of_upkeep (Op.Teardown.deleteDeployment _ _).upkeep).bind fun _ => note _

theorem reconcileObserving (ns stateKey : String) :
    Op.Placeless (FluidBG.reconcileObserving ctx bgd ns stateKey) := by
  refine (lift_calls _).bind fun _ => (ask_calls (none rfl)).bind fun _ =>
    (stateStore_calls _).bind fun _ => (ask_calls (none rfl)).bind fun _ =>
      (stateStore_calls _).bind fun _ => (ask_calls (none rfl)).bind fun _ =>
        (stateStore_calls _).bind fun _ => (ask_calls (none rfl)).bind fun _ =>
          (stateStore_calls _).bind fun _ =>
            (of_reports (Op.Reports.patchStatus _ _ _)).bind fun _ =>
            (note _).bind fun _ => (lift_calls _).bind fun action => ?_
  cases action with
  | continueObserving => trivial
  | promote => exact of_reports (Op.Reports.updateStatusPhase _ _ _)
  | rollback =>
    exact (beginDrainingAfterRollback _).bind fun _ => of_reports (Op.Reports.startDrain _ _)
  | advanceStep step percent =>
    exact (of_upkeep (Op.Passive.applySplitterTrafficPercent _ _ _ _).upkeep).bind fun _ =>
      of_reports (Op.Reports.patchStatus _ _ _)

theorem reconcileDraining (ns stateKey : String) :
    Op.Placeless (FluidBG.reconcileDraining ctx bgd ns stateKey) := by
  have hturn (elapsed : Int) (statuses : List InceptionPointDrainStatus) (ip : InceptionPoint) :
      Op.Placeless (reconcileDrain ctx bgd ns elapsed statuses ip) := by
    refine (Op.Asks.reconcileDrain_calls _ _ _ _ _ _).mono fun c hc => ?_
    rcases hc with hc | rfl
    · exact of_call (Call.Asks.passive hc).upkeep
    · exact none rfl
  have hconclude : Op.Placeless (concludeDraining ctx bgd ns stateKey) := by
    refine (ask_calls (none rfl)).bind fun _ => (stateStore_calls _).bind fun counts =>
      (ask_calls (none rfl)).bind fun _ => (stateStore_calls _).bind fun _ =>
        (of_reports (Op.Reports.patchStatus _ _ _)).bind fun _ => ?_
    split
    · trivial
    · exact (note _).bind fun _ => Prog.Calls.bind
        (.forEach fun _ _ => of_asks (Op.Asks.cleanupPlugin _ _ _ _)) fun _ =>
          (of_upkeep (Op.Teardown.cleanupInceptionResources _ _).upkeep).bind fun _ =>
            (of_upkeep (Op.Teardown.cleanupTestResources _ _).upkeep).bind fun _ =>
              of_reports (Op.Reports.updateStatusPhase _ _ _)
  refine (of_asks (Op.Asks.drainStart _)).bind fun _ => (ask_calls (none rfl)).bind fun _ =>
    (note _).bind fun _ => Prog.Calls.bind (.foldEach fun statuses ip _ => hturn _ statuses ip)
      fun statuses => (note _).bind fun _ =>
        (of_reports (Op.Reports.patchStatus _ _ _)).bind fun _ => ?_
  split
  · trivial
  · exact hconclude

end Op.Placeless

namespace Op.Builds

variable {α : Type} {ctx : Ctx} {bgd : BlueGreenDeployment}

/-! ## Creators -/

theorem of_asks {p : Op α} (h : Op.Asks p) : Op.Builds ctx bgd p :=
  (Op.Placeless.of_asks h).builds

theorem of_upkeep {p : Op α} (h : Op.Upkeep p) : Op.Builds ctx bgd p :=
  (Op.Placeless.of_upkeep h).builds

theorem of_reports {p : Op α} (h : Op.Reports p) : Op.Builds ctx bgd p :=
  (Op.Placeless.of_reports h).builds

theorem applyResource {kind : Kind} {ns name : String} {r : Resource}
    (h : Generates ctx bgd (.resource r)) (hkind : r.kind = kind) (hns : r.metadata.ns = ns)
    (hname : r.metadata.name = name) :
    Op.Builds ctx bgd (FluidBG.applyResource kind ns name r) := by
  have happly : Op.Builds ctx bgd (do
      let _ ← Op.kube (← Op.ask (.applyResource kind ns name r))
      (pure () : Op Unit)) := askKube_calls ⟨h, hkind, hns, hname⟩ fun _ => trivial
  unfold FluidBG.applyResource
  split
  · exact (ask_calls trivial).bind fun _ => (getOpt_calls _).bind fun _ =>
      (of_asks (Op.Asks.refuseForeign _ _ _)).bind fun _ => happly
  · exact happly

theorem applyDeploymentResource {ns name : String} {d : Deployment}
    (h : Generates ctx bgd (.deployment d)) (hns : d.metadata.ns = ns)
    (hname : d.metadata.name = name) :
    Op.Builds ctx bgd (FluidBG.applyDeploymentResource ns name d) := by
  have happly : Op.Builds ctx bgd (do
      let _ ← Op.kube (← Op.ask (.applyDeployment ns name d))
      (pure () : Op Unit)) := askKube_calls ⟨h, hns, hname⟩ fun _ => trivial
  unfold FluidBG.applyDeploymentResource
  split
  · exact (ask_calls trivial).bind fun _ => (getOpt_calls _).bind fun _ =>
      (of_asks (Op.Asks.refuseForeign _ _ _)).bind fun _ => happly
  · exact happly

theorem applyDeploymentManifest (isGreen : Bool) (assignments : List PropertyAssignment) :
    Op.Builds ctx bgd (FluidBG.applyDeploymentManifest ctx bgd bgd.metadata.ns
      bgd.spec.deployment bgd.spec.selector.matchLabels isGreen assignments) := by
  refine liftBind_calls fun d hd => (ask_calls trivial).bind fun r => ?_
  rcases r with e | existing
  · cases e with
    | notFound _ => exact askKube_calls ⟨rfl, isGreen, assignments, hd⟩ fun _ => trivial
    | _ => trivial
  · exact askKube_calls trivial fun _ => trivial

theorem bootstrapInitialGreenIfEmpty : Op.Builds ctx bgd
    (FluidBG.bootstrapInitialGreenIfEmpty ctx bgd bgd.metadata.ns) := by
  unfold FluidBG.bootstrapInitialGreenIfEmpty
  split
  · trivial
  · refine askKube_calls trivial fun family => ?_
    split
    · trivial
    · exact (applyDeploymentManifest true []).bind fun _ => trivial

/-- The objects of an inceptor are named after themselves and applied where they belong. -/
theorem applyInceptorResources {resources : ReconciledResources} {ns : String}
    (hdeployments : ∀ d ∈ resources.deployments, Generates ctx bgd (.deployment d))
    (hresources : ∀ r ∈ resources.configMaps ++ resources.secrets ++ resources.services,
      Generates ctx bgd (.resource r) ∧ r.metadata.ns = ns)
    (hkinds : (∀ r ∈ resources.configMaps, r.kind = .configMap) ∧
      (∀ r ∈ resources.secrets, r.kind = .secret) ∧
        ∀ r ∈ resources.services, r.kind = .service) :
    Op.Builds ctx bgd (FluidBG.applyInceptorResources ns resources) := by
  obtain ⟨hconfigMaps, hsecrets, hservices⟩ := hkinds
  have hat : ∀ r ∈ resources.configMaps ++ resources.secrets ++ resources.services, ∀ kind,
      r.kind = kind → Op.Builds ctx bgd (FluidBG.applyResource kind ns r.metadata.name r) := by
    intro r hr kind hkind
    exact applyResource (hresources r hr).1 hkind (hresources r hr).2 rfl
  refine Prog.Calls.bind (.forEach fun r hr => hat r (by simp [hr]) _ (hconfigMaps r hr))
    fun _ => ?_
  refine Prog.Calls.bind (.forEach fun r hr => hat r (by simp [hr]) _ (hsecrets r hr)) fun _ => ?_
  refine Prog.Calls.bind
    (.forEach fun d hd => applyDeploymentResource (hdeployments d hd) rfl rfl) fun _ => ?_
  exact Prog.Calls.bind (.forEach fun r hr => hat r (by simp [hr]) _ (hservices r hr))
    fun _ => trivial

theorem ensureTestResources (assignments : List PropertyAssignment) (extraEnv : List EnvVar) :
    Op.Builds ctx bgd
      (FluidBG.ensureTestResources bgd bgd.metadata.ns assignments extraEnv) := by
  have happly (testName : String) (service : Resource)
      (h : Generates ctx bgd (.resource service)) (hkind : service.kind = .service)
      (hns : service.metadata.ns = bgd.metadata.ns) (hname : service.metadata.name = testName) :
      Op.Builds ctx bgd (do
        FluidBG.applyResource .service bgd.metadata.ns testName service
        pure [(⟨bgd.metadata.ns, testName⟩ : DeploymentIdentity)]) :=
    (applyResource h hkind hns hname).bind fun _ => trivial
  unfold FluidBG.ensureTestResources
  split
  · trivial
  · rename_i test htest
    refine (of_asks (Op.Asks.ensureTestNameAvailable _ _ _ _ _)).bind fun _ => ?_
    refine liftBind_calls fun d hd => ?_
    have hmeta := testDeployment_metadata hd
    have hns : d.metadata.ns = bgd.metadata.ns := by rw [hmeta]; rfl
    have hname : d.metadata.name = testInstanceName bgd test.name := by rw [hmeta]; rfl
    refine (applyDeploymentResource (.testDeployment test htest assignments extraEnv d hd)
      hns hname).bind fun _ => ?_
    refine liftBind_calls fun service hservice => ?_
    have hgenerated : Generates ctx bgd (.resource _) :=
      .testService test htest service hservice
    exact @happly _ _ hgenerated rfl rfl rfl

theorem extraTestEnv (tokens : Labels) :
    Op.Builds ctx bgd (FluidBG.extraTestEnv ctx bgd bgd.metadata.ns tokens) := by
  unfold FluidBG.extraTestEnv
  split
  · trivial
  · rename_i test htest
    split
    · trivial
    · rename_i tokensJson htokens
      have happly (secretName : String) (secret : Resource)
          (h : Generates ctx bgd (.resource secret)) (hkind : secret.kind = .secret)
          (hns : secret.metadata.ns = bgd.metadata.ns)
          (hname : secret.metadata.name = secretName) : Op.Builds ctx bgd (do
            FluidBG.applyResource .secret bgd.metadata.ns secretName secret
            pure secretName) := (applyResource h hkind hns hname).bind fun _ => trivial
      have hensured : Op.Builds ctx bgd (ensureVerifierAuthSecret bgd bgd.metadata.ns tokensJson) :=
        happly _ _ (.verifierAuth test htest tokens tokensJson htokens) rfl rfl rfl
      generalize ensureVerifierAuthSecret bgd bgd.metadata.ns tokensJson = ensured at hensured ⊢
      exact Prog.Calls.bind hensured fun _ => trivial

theorem ensureRolloutSpecSnapshot :
    Op.Builds ctx bgd (FluidBG.ensureRolloutSpecSnapshot ctx bgd bgd.metadata.ns) := by
  unfold FluidBG.ensureRolloutSpecSnapshot
  split
  · trivial
  · rename_i specYaml hyaml
    exact applyResource (.snapshot specYaml hyaml) rfl rfl rfl

theorem prepareInceptionPoint (testUrl : String) (acc : Preparation) {ip : InceptionPoint}
    (hip : ip ∈ bgd.spec.inceptionPoints) : Op.Builds ctx bgd
      (FluidBG.prepareInceptionPoint ctx bgd bgd.metadata.ns testUrl acc ip) := by
  refine askKube_calls trivial fun plugin => (lift_calls _).bind fun _ =>
    (of_asks (Op.Asks.prepareManager _ _ _ _ _)).bind fun manager =>
      (of_asks (Op.Asks.signInceptionAuthToken _ _ _ _ _)).bind fun authToken =>
        liftBind_calls fun resources h => ?_
  have hok := mapError_eq_ok.mp h
  have hns := reconcileInceptionPoint_ns hok
  refine (applyInceptorResources (fun d hd => ?_) (fun r hr => ⟨?_, ?_⟩)
    (reconcileInceptionPoint_kinds hok)).bind fun _ => trivial
  · exact .inceptorDeployment ip hip plugin testUrl authToken manager resources hok d hd
  · exact .inceptorResource ip hip plugin testUrl authToken manager resources hok r hr
  · exact (hns r.placement (List.mem_append_right _ (List.mem_map_of_mem hr))).1

theorem ensureInceptionResources :
    Op.Builds ctx bgd (FluidBG.ensureInceptionResources ctx bgd bgd.metadata.ns) := by
  refine (lift_calls _).bind fun _ =>
    Prog.Calls.bind (.foldEach fun acc ip hip => prepareInceptionPoint _ acc hip) fun _ => ?_
  refine Prog.Calls.bind (.foldEach fun _ _ _ => of_asks (Op.Asks.prepareInceptor _ _ _ _ _))
    fun _ => (extraTestEnv _).bind fun _ => ?_
  refine Prog.Calls.bind ((applyDeploymentManifest false _).bind fun _ => trivial) fun _ =>
    (ensureTestResources _ _).bind fun _ => ?_
  refine (of_asks (Op.Asks.waitForDeploymentsReady _)).bind fun _ =>
    (of_asks (Op.Asks.waitForTestServicesReady _ _)).bind fun _ => ?_
  exact (Op.Placeless.applyPreActivation _ _).builds.bind fun _ => .forEach fun _ _ =>
    of_asks (Op.Asks.activateInceptor _ _ _ _)

/-! ## Phases -/

theorem reconcilePending :
    Op.Builds ctx bgd (FluidBG.reconcilePending ctx bgd bgd.metadata.ns) := by
  refine (Op.Placeless.ensureRolloutGeneration _).builds.bind fun _ =>
    ensureRolloutSpecSnapshot.bind fun _ =>
      (Op.Placeless.ensureGeneratedCandidateName _).builds.bind fun name => ?_
  cases name with
  | none => trivial
  | some _ =>
    refine bootstrapInitialGreenIfEmpty.bind fun created => ?_
    split
    · exact of_reports (Op.Reports.updateStatusPhase _ _ _)
    · exact (of_upkeep (Op.Rewires.resolveCurrentGreen _ _).upkeep).bind fun _ =>
        (of_asks (Op.Asks.validateProgressiveShiftingSupport _)).bind fun _ =>
          ensureInceptionResources.bind fun _ =>
            (Op.Placeless.initializeSplitterTraffic _).builds.bind fun _ =>
              of_reports (Op.Reports.updateStatusPhase _ _ _)

theorem reconcilePromoting :
    Op.Builds ctx bgd (FluidBG.reconcilePromoting ctx bgd bgd.metadata.ns) := by
  have hnote (n : Note) : Op.Builds ctx bgd (Op.note n) := (Op.Placeless.note n).builds
  exact Prog.Calls.bind ((hnote _).bind fun _ =>
    (of_upkeep (Op.Rewires.resolvePreviousGreenForPromotion _ _ _).upkeep).bind fun _ =>
      (applyDeploymentManifest true []).bind fun _ =>
        (of_asks (Op.Asks.waitForDeploymentsReady _)).bind fun _ => trivial) fun _ =>
    Prog.Calls.bind ((hnote _).bind fun _ =>
      (of_upkeep (Op.Rewires.startPluginDraining _ _ _ _).upkeep).bind fun _ =>
        (of_upkeep (Op.Rewires.deleteCurrentGreen _ _ _).upkeep).bind fun _ => hnote _) fun _ =>
      of_reports (Op.Reports.startDrain _ _)

/-- **A phase creates the application and what is generated for the object**, nothing else. -/
theorem reconcilePhase (stateKey : String) (phase : BGDPhase) :
    Op.Builds ctx bgd (FluidBG.reconcilePhase ctx bgd bgd.metadata.ns stateKey phase) := by
  cases phase with
  | pending => exact reconcilePending
  | observing => exact (Op.Placeless.reconcileObserving _ _).builds
  | promoting => exact reconcilePromoting
  | draining => exact (Op.Placeless.reconcileDraining _ _).builds
  | completed | rolledBack | invalid => exact of_upkeep (Op.Rewires.cleanupRollout _ _ _).upkeep

end Op.Builds

/-- What is generated is created for the object. -/
theorem Generates.createdFor {ctx : Ctx} {bgd : BlueGreenDeployment} {g : GeneratedObject}
    (h : Generates ctx bgd g) : CreatedFor ctx bgd ⟨g.metadata.ns, g.metadata.labels⟩ := by
  cases h with
  | snapshot specYaml => exact .snapshot specYaml
  | inceptorDeployment ip _ plugin testUrl authToken manager resources h d hd =>
    exact .inceptor plugin ip testUrl authToken manager resources h d.placement
      (List.mem_append_left _ (List.mem_map_of_mem hd))
  | inceptorResource ip _ plugin testUrl authToken manager resources h r hr =>
    exact .inceptor plugin ip testUrl authToken manager resources h r.placement
      (List.mem_append_right _ (List.mem_map_of_mem hr))
  | verifierAuth _ _ _ tokensJson => exact .verifierAuth tokensJson
  | testDeployment test _ _ _ d h =>
    show CreatedFor ctx bgd ⟨d.metadata.ns, d.metadata.labels⟩
    rw [testDeployment_metadata h]
    exact .test test
  | testService test => exact .test test

theorem Call.Builds.places {ctx : Ctx} {bgd : BlueGreenDeployment} {c : Call}
    (h : c.Builds ctx bgd) : c.Places (CreatedFor ctx bgd) := by
  intro p hp
  cases c with
  | createDeployment ns d =>
    obtain ⟨rfl, isGreen, assignments, hd⟩ := h
    cases hp
    exact .manifest isGreen assignments d hd
  | applyDeployment ns name d =>
    obtain ⟨hg, rfl, _⟩ := h
    cases hp
    exact hg.createdFor
  | applyResource kind ns name r =>
    obtain ⟨hg, _, rfl, _⟩ := h
    cases hp
    exact hg.createdFor
  | _ => cases hp

/-- **Every object a reconcile creates** is one of `CreatedFor`: for the object it was called with,
or for that object with the spec of a snapshot. -/
theorem reconcileLocked_creates (ctx : Ctx) (bgd : BlueGreenDeployment) :
    Op.Places (fun p => ∃ bgd', SameObject bgd bgd' ∧ CreatedFor ctx bgd' p)
      (reconcileLocked ctx bgd) := by
  have hphase (bgd' : BlueGreenDeployment) (h : SameObject bgd bgd') (stateKey : String)
      (phase : BGDPhase) : Op.Places (fun p => ∃ bgd', SameObject bgd bgd' ∧ CreatedFor ctx bgd' p)
        (reconcilePhase ctx bgd' bgd.metadata.ns stateKey phase) := by
    rw [← h.1]
    exact (Op.Builds.reconcilePhase stateKey phase).mono fun c hc p hp =>
      ⟨bgd', h, hc.places p hp⟩
  have hcleanup (ns stateKey : String) : Op.Placeless (cleanupRollout bgd ns stateKey) :=
    .of_upkeep (Op.Rewires.cleanupRollout _ _ _).upkeep
  have hfrozen (ns : String) (phase : BGDPhase) : Op.Placeless (rolloutBgd ctx bgd ns phase) := by
    unfold rolloutBgd
    split
    · split
      · exact (Op.Placeless.of_reports (Op.Reports.updateStatusUpdateDeferred _ _)).bind fun _ =>
          Op.Placeless.of_asks (Op.Asks.loadRolloutSpecSnapshot _ _ _)
      · exact Op.Placeless.of_asks (Op.Asks.loadRolloutSpecSnapshot _ _ _)
    · trivial
  refine (Op.Placeless.note _).places.bind fun _ => ?_
  dsimp only
  split
  · refine Op.Placeless.places ?_
    exact (hcleanup _ _).bind fun _ => askKube_calls (Op.Placeless.none rfl) fun _ => trivial
  · split
    · exact Op.Placeless.places (askKube_calls (Op.Placeless.none rfl) fun _ => trivial)
    · split
      · refine Op.Placeless.places ?_
        exact (hcleanup _ _).bind fun _ => (ask_calls (Op.Placeless.none rfl)).bind fun _ =>
          Op.Placeless.of_reports (Op.Reports.patchStatus _ _ _)
      · split
        · refine Op.Placeless.places ?_
          exact (Op.Placeless.of_asks (Op.Asks.forceReplaceBgd _ _ _)).bind fun _ =>
            (Op.Placeless.beginDrainingAfterRollback _).bind fun _ =>
              Op.Placeless.of_reports (Op.Reports.startDrain _ _)
        · exact (rolloutBgd_returns ctx bgd _ _).calls_bind (hfrozen _ _).places fun bgd' h =>
            hphase bgd' h _ _

/-! ## The keys of created objects -/

/-- The candidate of `bgd` can be built. -/
def CandidateBuilds (ctx : Ctx) (bgd : BlueGreenDeployment) : Prop :=
  ∃ assignments d, deploymentManifest ctx.crates bgd bgd.metadata.ns bgd.spec.deployment
    bgd.spec.selector.matchLabels false assignments = .ok d

/-- The key the candidate of `bgd` is swept under. -/
def candidateKey (bgd : BlueGreenDeployment) : String :=
  blueGreenStateKey (deploymentNamespaceSpec bgd.spec.deployment bgd.metadata.ns) bgd.metadata.name

/-- **The key of a created object** is the candidate's, or that of the object itself. -/
theorem CreatedFor.ownerKey {ctx : Ctx} {bgd : BlueGreenDeployment} {p : Placement} {key : String}
    (h : CreatedFor ctx bgd p) (hkey : key ∈ FluidBG.ownerKey p.ns p.labels) :
    key = blueGreenStateKey bgd.metadata.ns bgd.metadata.name ∨
      CandidateBuilds ctx bgd ∧ key = candidateKey bgd := by
  have hhome {ns : String} {labels : Labels} (hns : ns = bgd.metadata.ns)
      (href : labels.get "fluidbg.io/blue-green-ref" = some bgd.metadata.name)
      (hk : key ∈ FluidBG.ownerKey ns labels) :
      key = blueGreenStateKey bgd.metadata.ns bgd.metadata.name := by
    rw [FluidBG.ownerKey, href, hns] at hk
    cases hk
    rfl
  cases h with
  | manifest isGreen assignments d hd =>
    have hmeta := deploymentManifest_metadata hd
    simp only [Deployment.placement, hmeta, ObjectMeta.new, FluidBG.ownerKey, manifestLabels_ref]
      at hkey
    cases isGreen with
    | true => simp at hkey
    | false =>
      cases hkey
      exact .inr ⟨⟨assignments, d, hd⟩, rfl⟩
  | inceptor plugin ip testUrl authToken manager resources hr p hp =>
    obtain ⟨hns, href⟩ := reconcileInceptionPoint_ns hr p hp
    exact .inl (hhome hns href hkey)
  | test test =>
    exact .inl (hhome rfl (OrdMap.get_ofList_of_mem
      (e := ("fluidbg.io/blue-green-ref", bgd.metadata.name)) (by simp) (by simp)) hkey)
  | verifierAuth tokensJson =>
    exact .inl (hhome rfl (OrdMap.get_ofList_of_mem
      (e := ("fluidbg.io/blue-green-ref", bgd.metadata.name)) (by simp) (by simp)) hkey)
  | snapshot specYaml =>
    exact .inl (hhome rfl (OrdMap.get_ofList_of_mem
      (e := ("fluidbg.io/blue-green-ref", bgd.metadata.name)) (by simp) (by simp)) hkey)

/-! ## Existing objects and what was created for them -/

/-- A `BlueGreenDeployment` that exists, with the objects the operator has reconciled it as: the
same object, with the specs it has had. -/
structure Tenant where
  bgd : BlueGreenDeployment
  reconciled : List BlueGreenDeployment
  same : ∀ b ∈ reconciled, b.metadata.ns = bgd.metadata.ns ∧ b.metadata.name = bgd.metadata.name

namespace Tenant

def key (t : Tenant) : String := blueGreenStateKey t.bgd.metadata.ns t.bgd.metadata.name

/-- An object in this namespace that still carries the reference it was created with for the
tenant. -/
def Owns (ctx : Ctx) (t : Tenant) (ns : String) (labels : Labels) : Prop :=
  ∃ b ∈ t.reconciled, ∃ p, CreatedFor ctx b p ∧ p.ns = ns ∧ ∃ ref,
    p.labels.get "fluidbg.io/blue-green-ref" = some ref ∧
      labels.get "fluidbg.io/blue-green-ref" = some ref

end Tenant

/-- The object was created for one of the tenants. -/
def Owned (ctx : Ctx) (tenants : List Tenant) (ns : String) (labels : Labels) : Prop :=
  ∃ t ∈ tenants, t.Owns ctx ns labels

/-- The tenants are the `BlueGreenDeployment`s of the cluster. -/
structure World.Hosts (w : World) (tenants : List Tenant) : Prop where
  bgds : w.bgd.toList ++ w.otherBgds = tenants.map (·.bgd)
  distinct : w.Distinct

/-- Nothing that belongs to a tenant in `w` is missing in `w'`. -/
structure World.Spared (w w' : World) (ctx : Ctx) (tenants : List Tenant) : Prop where
  deployments : ∀ d ∈ w.deployments, Owned ctx tenants d.metadata.ns d.metadata.labels →
    d ∈ w'.deployments
  resources : ∀ r ∈ w.resources, Owned ctx tenants r.metadata.ns r.metadata.labels →
    r ∈ w'.resources
  records : ∀ run ∈ w.store.records, run.blueGreenRef ∈ tenants.map Tenant.key →
    run ∈ w'.store.records

/-- **Ownership keys agree** in `w`: of the keys that the sweep collects, those of objects that
were created for a tenant are among the keys that exist, and a sweep during which nothing else
moves deletes nothing that belongs to a tenant. -/
structure World.KeysAgree (w : World) (ctx : Ctx) (tenants : List Tenant) : Prop where
  keys : ∀ existing owned, cluster.Reads .ok existingBlueGreenKeys w existing →
    cluster.Reads .ok blueGreenRefsFromOwnedResourcesAll w owned →
    ∀ ns, ∀ labels ∈ w.labelsIn ns, Owned ctx tenants ns labels →
      ∀ key ∈ ownerKey ns labels, key ∈ owned.keys → key ∈ existing.keys
  spared : ∀ s : Conf Call Answer ReconcileError World,
    Machine.Run cluster (fun _ : Unit => cleanupOrphanedBlueGreenRefs) Guard.still ⟨w, none⟩ s →
    w.Spared s.world ctx tenants

section Agreement

variable {ctx : Ctx} {tenants : List Tenant} {w : World}

theorem World.Hosts.existingKeys (h : w.Hosts tenants) :
    w.existingKeys = tenants.map Tenant.key := by
  rw [World.existingKeys, h.bgds, List.map_map]
  rfl

/-- Where every candidate that can be built has the key of a tenant, so has every owned object. -/
theorem Owned.key_mem {ns : String} {labels : Labels} (h : Owned ctx tenants ns labels)
    (hcandidates : ∀ t ∈ tenants, ∀ b ∈ t.reconciled, CandidateBuilds ctx b →
      candidateKey b ∈ tenants.map Tenant.key) :
    ∃ key, ownerKey ns labels = some key ∧ key ∈ tenants.map Tenant.key := by
  obtain ⟨t, ht, b, hb, p, hcreated, rfl, ref, hp, hl⟩ := h
  have hkey : blueGreenStateKey p.ns ref ∈ ownerKey p.ns p.labels := by simp [ownerKey, hp]
  refine ⟨blueGreenStateKey p.ns ref, by simp [ownerKey, hl], ?_⟩
  rcases hcreated.ownerKey hkey with hhome | ⟨hbuilds, hcandidate⟩
  · rw [hhome, (t.same b hb).1, (t.same b hb).2]
    exact List.mem_map_of_mem ht
  · rw [hcandidate]
    exact hcandidates t ht b hb hbuilds

theorem World.Hosts.keysAgree (h : w.Hosts tenants)
    (hcandidates : ∀ t ∈ tenants, ∀ b ∈ t.reconciled, CandidateBuilds ctx b →
      candidateKey b ∈ tenants.map Tenant.key) : w.KeysAgree ctx tenants where
  keys existing owned hexisting _ ns labels _ howned key hkey _ := by
    obtain ⟨key', hkey', hmem⟩ := howned.key_mem hcandidates
    cases hkey.symm.trans hkey'
    rw [hexisting.unique (w.reads_existing), OrdMap.mem_keys_ofList, List.map_map]
    rw [← h.existingKeys] at hmem
    exact hmem
  spared s r := by
    have hswept := h.distinct.swept r
    rw [h.existingKeys] at hswept
    refine ⟨fun d hd howned => ?_, fun r hr howned => ?_, hswept.keptRecords⟩
    · obtain ⟨key, hkey, hmem⟩ := howned.key_mem hcandidates
      refine hswept.keptDeployments d hd fun key' hkey' => ?_
      cases hkey.symm.trans hkey'
      exact hmem
    · obtain ⟨key, hkey, hmem⟩ := howned.key_mem hcandidates
      refine hswept.keptResources r hr fun key' hkey' => ?_
      cases hkey.symm.trans hkey'
      exact hmem

/-- The cluster with nothing but the tenants and one Deployment. -/
def World.ofTenants (tenants : List Tenant) (d : Deployment) : World where
  bgd := (tenants.map (·.bgd)).head?
  otherBgds := (tenants.map (·.bgd)).tail
  deployments := [d]
  resources := []
  endpoints := []
  namespaces := [d.metadata.ns]
  plugins := []
  store := ⟨[]⟩
  clock := 0
  nextVersion := 1

theorem World.ofTenants_hosts (tenants : List Tenant) (d : Deployment) :
    (World.ofTenants tenants d).Hosts tenants where
  bgds := by cases tenants <;> rfl
  distinct := ⟨by simp [ofTenants], by simp [ofTenants]⟩

/-- A candidate alone in the cluster is collected under its own key. -/
theorem World.KeysAgree.candidateKey_mem {t : Tenant} {b : BlueGreenDeployment} (ht : t ∈ tenants)
    (hb : b ∈ t.reconciled) {assignments : List PropertyAssignment} {d : Deployment}
    (hd : deploymentManifest ctx.crates b b.metadata.ns b.spec.deployment
      b.spec.selector.matchLabels false assignments = .ok d)
    (h : (World.ofTenants tenants d).KeysAgree ctx tenants) :
    candidateKey b ∈ tenants.map Tenant.key := by
  have hns : d.metadata.ns = deploymentNamespaceSpec b.spec.deployment b.metadata.ns := by
    rw [deploymentManifest_metadata hd]
    rfl
  have href : d.metadata.labels.get "fluidbg.io/blue-green-ref" = some b.metadata.name := by
    rw [deploymentManifest_metadata hd]
    exact manifestLabels_ref b _ false
  have hlabels : d.metadata.labels ∈ (World.ofTenants tenants d).labelsIn d.metadata.ns := by
    simp [World.labelsIn, World.ofTenants]
  have howned : Owned ctx tenants d.metadata.ns d.metadata.labels :=
    ⟨t, ht, b, hb, d.placement, .manifest false assignments d hd, rfl, _, href, href⟩
  have hkey : ownerKey d.metadata.ns d.metadata.labels = some (candidateKey b) := by
    rw [ownerKey, href, hns]
    rfl
  have hmem := h.keys _ _ (World.reads_existing _) (World.reads_ownedRefs _) _ _ hlabels howned _
    hkey (World.mem_ownedRefs.mpr ⟨_, by simp [World.ofTenants], _, hlabels, hkey⟩)
  rw [← (World.ofTenants_hosts tenants d).existingKeys]
  simpa [World.existingKeys] using hmem

end Agreement

/-- **Ownership keys agree** for a set of tenants, in whatever cluster hosts them, exactly when the
namespace of every candidate that can be built makes up, with the name of its object, the key of a
tenant. -/
theorem ownership_keys_agree (ctx : Ctx) (tenants : List Tenant) :
    (∀ w : World, w.Hosts tenants → w.KeysAgree ctx tenants) ↔
      ∀ t ∈ tenants, ∀ b ∈ t.reconciled, CandidateBuilds ctx b →
        candidateKey b ∈ tenants.map Tenant.key :=
  ⟨fun h _ ht _ hb ⟨_, d, hd⟩ => (h _ (World.ofTenants_hosts tenants d)).candidateKey_mem ht hb hd,
    fun hcandidates _ hw => hw.keysAgree hcandidates⟩

/-! ## A candidate in a namespace of its own -/

/-- The sample, whose application lives in another namespace than the object. -/
def Sample.awayBgd : BlueGreenDeployment :=
  { bgd .observing with spec := { spec with deployment := ⟨some "apps", deploymentSpec⟩ } }

def Sample.awayTenant : Tenant where
  bgd := Sample.awayBgd
  reconciled := [Sample.awayBgd]
  same := by simp

/-- The sweep takes the candidate of an existing object for an orphan. -/
theorem candidate_key_unknown :
    ¬ ∀ (ctx : Ctx) (tenants : List Tenant) (w : World), w.Hosts tenants →
      w.KeysAgree ctx tenants := by
  intro h
  have hbuilds : ∃ d, deploymentManifest Sample.ctx.crates Sample.awayBgd "default"
      ⟨some "apps", Sample.deploymentSpec⟩ Sample.spec.selector.matchLabels false [] = .ok d :=
    ⟨_, rfl⟩
  obtain ⟨d, hd⟩ := hbuilds
  have hmem := (h Sample.ctx [Sample.awayTenant] _ (World.ofTenants_hosts _ d)).candidateKey_mem
    (t := Sample.awayTenant) (b := Sample.awayBgd) (by simp) (by simp [Sample.awayTenant]) hd
  revert hmem
  decide +kernel

end FluidBG
