import FluidBG.Proof.Footprint
import FluidBG.Proof.Recoverable
import FluidBG.Sample
/-!
# Specs that are rejected too late

The checks of a spec are spread over two phases. Pending looks at the splitters and at each
inception point, and then moves traffic; Observing looks at the test and at the promotion. A spec
that passes the first checks and not the second ones is rejected with its traffic already moved.
-/

set_option autoImplicit false

namespace FluidBG

open Lib

/-! ## What Observing asks of a spec -/

/-- The promotion can come to a decision. -/
structure PromotionSpec.Conclusive (promotion : PromotionSpec) : Prop where
  criteria : promotion.data ≠ none ∨ promotion.custom ≠ none
  steps : promotion.data ≠ none → promotion.strategy.strategyType = .progressive →
    promotion.strategy.progressive ≠ none

/-- The test verifies something, and only what the promotion has criteria for. -/
structure TestSpec.FedBy (test : TestSpec) (promotion : PromotionSpec) : Prop where
  verification : test.dataVerification ≠ none ∨ test.customVerification ≠ none
  data : test.dataVerification ≠ none → promotion.data ≠ none
  custom : test.customVerification ≠ none → promotion.custom ≠ none

/-- There is a promotion that can come to a decision, and the test feeds it. -/
def BlueGreenDeploymentSpec.Conclusive (spec : BlueGreenDeploymentSpec) : Prop :=
  ∃ promotion ∈ spec.promotion, promotion.Conclusive ∧ ∀ test ∈ spec.test, test.FedBy promotion

/-- Observing accepts the spec, whatever the counts and the step are. -/
structure ObservingAccepts (bgd : BlueGreenDeployment) : Prop where
  configuration : validateTestConfiguration bgd = .ok ()
  decision : ∀ dataCounts customCounts step,
    ∃ action, decidePromotionAction bgd dataCounts customCounts step = .ok action

section Observing

variable {bgd : BlueGreenDeployment} {promotion : PromotionSpec}

theorem validateTest_ok_iff {test : TestSpec} :
    validateTest test promotion = .ok () ↔
      test.service.ports ≠ [] ∧ test.FedBy promotion := by
  unfold validateTest
  constructor
  · intro h
    split at h
    · cases h
    · split at h
      · cases h
      · split at h
        · cases h
        · split at h
          · cases h
          · rename_i hports hverification hdata hcustom
            refine ⟨hports, ⟨?_, fun hd hp => hdata ⟨hd, hp⟩, fun hc hp => hcustom ⟨hc, hp⟩⟩⟩
            by_cases hd : test.dataVerification = none
            · exact .inr fun hc => hverification ⟨hd, hc⟩
            · exact .inl hd
  · rintro ⟨hports, hverification, hdata, hcustom⟩
    rw [if_neg hports, if_neg fun h => hverification.elim (· h.1) (· h.2),
      if_neg fun h => hdata h.1 h.2, if_neg fun h => hcustom h.1 h.2]

/-- Two actions of which one is there can be combined. -/
theorem combineActions_ok (data custom : Option PromotionAction)
    (h : data ≠ none ∨ custom ≠ none) : ∃ action, combineActions data custom = .ok action := by
  unfold combineActions
  split
  case h_9 => simp at h
  all_goals exact ⟨_, rfl⟩

theorem decideDataPromotion_ok_iff (data : DataPromotionSpec) (counts : Counts)
    (step : Option Int) :
    (∃ action, decideDataPromotion promotion data counts step = .ok action) ↔
      (promotion.strategy.strategyType = .progressive → promotion.strategy.progressive ≠ none) := by
  unfold decideDataPromotion
  cases promotion.strategy.strategyType with
  | hardSwitch => simp
  | progressive => cases promotion.strategy.progressive <;> simp

/-- **A decision always comes out** when the promotion is conclusive. -/
theorem decision_iff : (∀ dataCounts customCounts step,
    ∃ action, decidePromotionAction bgd dataCounts customCounts step = .ok action) ↔
      ∃ promotion ∈ bgd.spec.promotion, promotion.Conclusive := by
  unfold decidePromotionAction
  cases hp : bgd.spec.promotion with
  | none => simpa using ⟨Counts.zero⟩
  | some promotion =>
    cases hd : promotion.data with
    | none =>
      constructor
      · intro h
        refine ⟨promotion, rfl, .inr fun hc => ?_, fun hne => absurd hd hne⟩
        obtain ⟨action, haction⟩ := h .zero .zero none
        simp [hd, hc, combineActions] at haction
      · rintro ⟨_, hmem, hconclusive⟩ dataCounts customCounts step
        cases hmem
        have hcustom := hconclusive.criteria.resolve_left fun hne => hne hd
        simpa [hd] using combineActions_ok none
          (promotion.custom.map (decideCustomPromotion customCounts))
          (.inr (by simpa using hcustom))
    | some data =>
      constructor
      · intro h
        refine ⟨promotion, rfl, .inl (by simp [hd]), fun _ => ?_⟩
        refine (decideDataPromotion_ok_iff data .zero none).mp ?_
        obtain ⟨action, haction⟩ := h .zero .zero none
        cases hdata : decideDataPromotion promotion data .zero none with
        | ok dataAction => exact ⟨dataAction, rfl⟩
        | error e => simp [hd, hdata] at haction
      · rintro ⟨_, hmem, hconclusive⟩ dataCounts customCounts step
        cases hmem
        obtain ⟨dataAction, hdata⟩ := (decideDataPromotion_ok_iff data dataCounts step).mpr
          (hconclusive.steps (by simp [hd]))
        simpa [hd, hdata] using combineActions_ok (some dataAction)
          (promotion.custom.map (decideCustomPromotion customCounts)) (.inl (by simp))

/-- Observing accepts exactly the conclusive specs, apart from the ports of the test. -/
theorem observingAccepts_iff : ObservingAccepts bgd ↔
    bgd.spec.Conclusive ∧ ∀ test ∈ bgd.spec.test, test.service.ports ≠ [] := by
  constructor
  · rintro ⟨hconfiguration, hdecision⟩
    obtain ⟨promotion, hp, hconclusive⟩ := decision_iff.mp hdecision
    have htest : ∀ test ∈ bgd.spec.test, validateTest test promotion = .ok () := by
      intro test ht
      have hnone : ¬ (promotion.data = none ∧ promotion.custom = none) := fun hnone =>
        hconclusive.criteria.elim (· hnone.1) (· hnone.2)
      rw [Option.mem_def] at hp ht
      simpa only [validateTestConfiguration, hp, if_neg hnone, ht] using hconfiguration
    exact ⟨⟨promotion, hp, hconclusive, fun test ht => (validateTest_ok_iff.mp (htest test ht)).2⟩,
      fun test ht => (validateTest_ok_iff.mp (htest test ht)).1⟩
  · rintro ⟨⟨promotion, hp, hconclusive, htest⟩, hports⟩
    refine ⟨?_, decision_iff.mpr ⟨promotion, hp, hconclusive⟩⟩
    have hnone : ¬ (promotion.data = none ∧ promotion.custom = none) := fun hnone =>
      hconclusive.criteria.elim (· hnone.1) (· hnone.2)
    rw [Option.mem_def] at hp
    simp only [validateTestConfiguration, hp, if_neg hnone]
    cases ht : bgd.spec.test with
    | none => rfl
    | some test => exact validateTest_ok_iff.mpr ⟨hports test ht, htest test ht⟩

/-- A spec that Observing accepts is never rejected by it. -/
theorem Op.Recoverable.reconcileObserving (h : ObservingAccepts bgd) (ctx : Ctx)
    (status : Option BlueGreenDeploymentStatus) (ns stateKey : String) :
    Op.Recoverable (FluidBG.reconcileObserving ctx { bgd with status := status } ns stateKey) := by
  refine (lift fun e he => ?_).bind fun _ => (ask _).bind fun _ => (stateStore _).bind fun _ =>
    (ask _).bind fun _ => (stateStore _).bind fun _ => (ask _).bind fun _ =>
      (stateStore _).bind fun _ => (ask _).bind fun _ => (stateStore _).bind fun _ =>
        (patchStatus _ _ _).bind fun _ => (ask _).bind fun _ => (lift fun e he => ?_).bind
          fun action => performAction _ _ _ _
  · have hok : validateTestConfiguration { bgd with status := status } = .ok () := h.configuration
    rw [hok] at he
    cases he
  · obtain ⟨action, haction⟩ := h.decision _ _ _
    have hok := haction.symm.trans he
    cases hok

end Observing

/-! ## What Pending lets pass -/

/-- The phase that the call writes. -/
def Call.writtenPhase : Call → Option BGDPhase
  | .replaceStatus _ _ bgd => bgd.phase
  | _ => none

/-- A Pending reconcile may get through and write Observing. -/
def PassesPending (ctx : Ctx) (bgd : BlueGreenDeployment) (ns : String) : Prop :=
  ¬ (reconcilePending ctx bgd ns).Calls fun c => c.writtenPhase ≠ some .observing

/-- The code does not write Observing. -/
abbrev Op.Holds {α : Type} (p : Op α) : Prop := p.Calls fun c => c.writtenPhase ≠ some .observing

theorem Op.Work.holds {α : Type} {p : Op α} (h : Op.Work p) : Op.Holds p := by
  refine h.mono fun c hc => ?_
  cases c with
  | replaceStatus _ _ _ => exact absurd trivial hc
  | _ => simp [Call.writtenPhase]

theorem Op.Holds.ask {c : Call} (h : c.writtenPhase = none) : Op.Holds (Op.ask c) :=
  ask_calls (by simp [h])

theorem Op.Holds.patchStatus (bgd : BlueGreenDeployment) (ns : String) (patch : StatusPatch) :
    Op.Holds (FluidBG.patchStatus bgd ns patch) := (ask rfl).bind fun _ => trivial

theorem Op.Holds.updateStatusPhase {phase : BGDPhase} (h : phase ≠ .observing)
    (bgd : BlueGreenDeployment) (ns : String) :
    Op.Holds (FluidBG.updateStatusPhase bgd ns phase) := by
  refine (ask rfl).bind fun latest => ?_
  cases latest with
  | error e => trivial
  | ok latest =>
    dsimp only
    split
    · exact (ask rfl).bind fun _ => (ask_calls (by
        simpa [Call.writtenPhase, withPhase, BlueGreenDeployment.phase] using h)).bind
          fun _ => trivial
    · trivial

theorem Op.Holds.ensureGeneratedCandidateName (bgd : BlueGreenDeployment) (ns : String) :
    Op.Holds (FluidBG.ensureGeneratedCandidateName bgd ns) := by
  have hsuffixes (deployNamespace : String) (suffixes : List String) :
      Op.Holds (tryCandidateSuffixes bgd ns deployNamespace suffixes) := by
    induction suffixes with
    | nil => trivial
    | cons suffix suffixes ih =>
      refine (ask rfl).bind fun r => ?_
      rcases r with e | _
      · cases e with
        | notFound _ => exact (patchStatus _ _ _).bind fun _ => trivial
        | _ => trivial
      · exact ih
  unfold FluidBG.ensureGeneratedCandidateName
  split
  · trivial
  · exact hsuffixes _ _

/-- Without a port there is no URL for the test's container, and nothing is prepared. -/
theorem ensureInceptionResources_of_no_ports (ctx : Ctx) {bgd : BlueGreenDeployment} (ns : String)
    {test : TestSpec} (ht : bgd.spec.test = some test) (hports : test.service.ports = []) :
    ∃ e, ensureInceptionResources ctx bgd ns = .fail e := by
  refine ⟨.store s!"test '{test.name}' service spec must define at least one port", ?_⟩
  simp [ensureInceptionResources, testContainerUrl, ht, testServicePort, hports, Op.lift,
    Prog.ofExcept]

/-- **Pending holds a spec whose test has no port.** -/
theorem PassesPending.ports {ctx : Ctx} {bgd : BlueGreenDeployment} {ns : String}
    (h : PassesPending ctx bgd ns) : ∀ test ∈ bgd.spec.test, test.service.ports ≠ [] := by
  intro test ht hports
  refine h ?_
  obtain ⟨e, hfail⟩ := ensureInceptionResources_of_no_ports ctx ns ht hports
  have hstart : Op.Holds (startRollout ctx bgd ns) := by
    unfold startRollout
    rw [hfail]
    refine (Op.Work.bootstrapInitialGreenIfEmpty _ _ _).holds.bind fun created => ?_
    split
    · exact Op.Holds.updateStatusPhase (by simp) _ _
    · exact (Op.Rewires.resolveCurrentGreen _ _).upkeep.work.holds.bind fun _ =>
        (Op.Asks.validateProgressiveShiftingSupport _).work.holds.bind fun _ => trivial
  have hgeneration : Op.Holds (ensureRolloutGeneration bgd ns) := by
    unfold ensureRolloutGeneration
    split
    · trivial
    · exact Op.Holds.patchStatus _ _ _
  refine hgeneration.bind fun _ => (Op.Work.ensureRolloutSpecSnapshot _ _ _).holds.bind fun _ =>
    (Op.Holds.ensureGeneratedCandidateName _ _).bind fun name => ?_
  cases name with
  | none => trivial
  | some _ => exact hstart

/-! ## What Pending does before it moves traffic -/

/-- The call patches a Deployment, or asks an inceptor to prepare or to work. -/
def Call.MovesTraffic : Call → Prop
  | .replaceDeployment _ _ _ | .postInceptor _ _ => True
  | _ => False

/-- The code moves no traffic. -/
abbrev Op.Still {α : Type} (p : Op α) : Prop := p.Calls fun c => ¬ c.MovesTraffic

namespace Op.Still

theorem ask {c : Call} (h : ¬ c.MovesTraffic) : Op.Still (Op.ask c) := ask_calls h

theorem controlPlaneClient (tls : Option ControlPlaneTls) :
    Op.Still (FluidBG.controlPlaneClient tls) := by
  refine (ask id).bind fun r => ?_
  cases r <;> trivial

theorem readOperatorSigningKey (auth : AuthConfig) :
    Op.Still (FluidBG.readOperatorSigningKey auth) := by
  refine askKube_calls id fun secret => ?_
  split
  · split <;> trivial
  · trivial

theorem signInceptionAuthToken (ctx : Ctx) (ns ref ip : String) (plugin : InceptionPlugin) :
    Op.Still (FluidBG.signInceptionAuthToken ctx ns ref ip plugin) := by
  refine (readOperatorSigningKey _).bind fun key => askKube_calls id fun bgd => ?_
  split
  · trivial
  · split <;> trivial

theorem managerClaims (ctx : Ctx) (token : String) :
    Op.Still (FluidBG.managerClaims ctx token) := by
  have hvalidate : Op.Still (validateInceptionAuthToken ctx token) := by
    refine (readOperatorSigningKey _).bind fun key => ?_
    split <;> trivial
  refine hvalidate.result.bind fun r => ?_
  rcases r with err | _ | claims <;> trivial

theorem prepareManager (ctx : Ctx) (bgd : BlueGreenDeployment) (ns : String) (ip : InceptionPoint)
    (plugin : InceptionPlugin) : Op.Still (FluidBG.prepareManager ctx bgd ns ip plugin) := by
  have hinvoke : Op.Still
      (invokePluginManagerLifecycle ctx bgd.metadata.name ns ip plugin .prepare) := by
    unfold invokePluginManagerLifecycle
    split
    · trivial
    · split
      · trivial
      · exact (signInceptionAuthToken _ _ _ _ _).bind fun _ => (managerClaims _ _).bind fun _ =>
          Prog.Calls.bind (askKube_calls id fun _ => trivial) fun _ =>
            (controlPlaneClient _).bind fun _ => withRetries_calls (ask id) id
  refine hinvoke.bind fun r => ?_
  cases r with
  | none => trivial
  | some response => exact (lift_calls _).bind fun _ => trivial

theorem applyInceptorResources (ns : String) (resources : ReconciledResources) :
    Op.Still (FluidBG.applyInceptorResources ns resources) := by
  have hrefuse (name : String) (expected : Labels) (existing : Option Labels) :
      Op.Still (refuseForeign name expected existing) := by
    unfold refuseForeign
    split
    · trivial
    · split <;> trivial
  have hresource (kind : Kind) (r : Resource) :
      Op.Still (applyResource kind ns r.metadata.name r) := by
    unfold applyResource
    split
    · exact (ask id).bind fun _ => (getOpt_calls _).bind fun _ => (hrefuse _ _ _).bind fun _ =>
        askKube_calls id fun _ => trivial
    · exact askKube_calls id fun _ => trivial
  have hdeployment (d : Deployment) :
      Op.Still (applyDeploymentResource d.metadata.ns d.metadata.name d) := by
    unfold applyDeploymentResource
    split
    · exact (ask id).bind fun _ => (getOpt_calls _).bind fun _ => (hrefuse _ _ _).bind fun _ =>
        askKube_calls id fun _ => trivial
    · exact askKube_calls id fun _ => trivial
  exact Prog.Calls.bind (.forEach fun _ _ => hresource _ _) fun _ =>
    Prog.Calls.bind (.forEach fun _ _ => hresource _ _) fun _ =>
      Prog.Calls.bind (.forEach fun _ _ => hdeployment _) fun _ =>
        Prog.Calls.bind (.forEach fun _ _ => hresource _ _) fun _ => trivial

theorem prepareInceptionPoint (ctx : Ctx) (bgd : BlueGreenDeployment) (ns testUrl : String)
    (acc : Preparation) (ip : InceptionPoint) :
    Op.Still (FluidBG.prepareInceptionPoint ctx bgd ns testUrl acc ip) :=
  askKube_calls id fun _ => (lift_calls _).bind fun _ => (prepareManager _ _ _ _ _).bind fun _ =>
    (signInceptionAuthToken _ _ _ _ _).bind fun _ => (lift_calls _).bind fun _ =>
      (applyInceptorResources _ _).bind fun _ => trivial

end Op.Still

/-- **Pending rejects a spec before it moves traffic**, or not at all: the loop that checks the
inception points comes first. -/
theorem ensureInceptionResources_rejects_early (ctx : Ctx) (bgd : BlueGreenDeployment)
    (ns : String) : (ensureInceptionResources ctx bgd ns).ErrorsAfter Call.MovesTraffic
      ReconcileError.Recoverable := by
  refine .bind (lift_calls _) fun testUrl => .bind (.foldEach fun acc ip _ =>
    Op.Still.prepareInceptionPoint ctx bgd ns testUrl acc ip) fun prepared => ?_
  refine Prog.Errors.after (Prog.Errors.bind
    (.foldEach fun _ _ _ => Op.Recoverable.prepareInceptor _ _ _ _ _) fun assignments => ?_)
  exact (Op.Recoverable.extraTestEnv _ _ _ _).bind fun _ =>
    (Op.Recoverable.ensureDeclaredDeployments _ _ _ _).bind fun _ =>
      (Op.Recoverable.ensureTestResources _ _ _ _).bind fun _ =>
        (Op.Recoverable.waitForDeploymentsReady _).bind fun _ =>
          (Op.Recoverable.waitForTestServicesReady _ _).bind fun _ =>
            (Op.Recoverable.applyPreActivation _ _ _).bind fun _ =>
              .forEach fun _ _ => Op.Recoverable.activateInceptor _ _ _ _

/-! ## No traffic is moved for a spec that is rejected -/

/-- **No late rejection** of `bgd`: a spec that Pending lets pass is accepted by Observing, and
Pending itself rejects nothing once it has moved traffic. -/
structure NoLateRejection (ctx : Ctx) (bgd : BlueGreenDeployment) (ns : String) : Prop where
  observing : PassesPending ctx bgd ns → ObservingAccepts bgd ∧ ∀ status stateKey,
    Op.Recoverable (reconcileObserving ctx { bgd with status := status } ns stateKey)
  pending : (ensureInceptionResources ctx bgd ns).ErrorsAfter Call.MovesTraffic
    ReconcileError.Recoverable

/-- Observing accepts what passed Pending exactly when the spec is conclusive. -/
theorem PassesPending.accepts_iff {ctx : Ctx} {bgd : BlueGreenDeployment} {ns : String}
    (h : PassesPending ctx bgd ns) : ObservingAccepts bgd ↔ bgd.spec.Conclusive := by
  rw [observingAccepts_iff]
  exact and_iff_left h.ports

/-- **No traffic is moved for a spec that is rejected** exactly when the spec has a promotion that
can come to a decision and that its test feeds, or does not pass Pending. -/
theorem no_late_rejection_iff (ctx : Ctx) (bgd : BlueGreenDeployment) (ns : String) :
    NoLateRejection ctx bgd ns ↔ (PassesPending ctx bgd ns → bgd.spec.Conclusive) := by
  constructor
  · intro h hpasses
    exact hpasses.accepts_iff.mp (h.observing hpasses).1
  · intro h
    refine ⟨fun hpasses => ?_, ensureInceptionResources_rejects_early ctx bgd ns⟩
    have haccepts := hpasses.accepts_iff.mpr (h hpasses)
    exact ⟨haccepts, fun status stateKey =>
      Op.Recoverable.reconcileObserving haccepts ctx status ns stateKey⟩

/-! ## A rollout without a promotion -/

/-- The sample in Pending without a promotion. -/
def Sample.unpromoted : BlueGreenDeployment :=
  { bgd .pending with spec := { spec with promotion := none } }

/-- It moves on to Observing, which has no promotion to decide on. -/
theorem unpromoted_passes_pending :
    ¬ ∀ (ctx : Ctx) (bgd : BlueGreenDeployment) (ns : String), NoLateRejection ctx bgd ns := by
  intro h
  have hpasses : PassesPending Sample.ctx Sample.unpromoted "default" := by
    intro hcalls
    have hwrites : ∃ c ∈ cluster.trace .ok
        (reconcilePending Sample.ctx Sample.unpromoted "default")
        { Sample.world .pending [] with bgd := some Sample.unpromoted },
        c.writtenPhase = some .observing := by decide +kernel
    obtain ⟨c, hc, hwritten⟩ := hwrites
    exact Machine.mem_trace hcalls hc hwritten
  obtain ⟨action, haction⟩ :=
    ((h Sample.ctx Sample.unpromoted "default").observing hpasses).1.decision .zero .zero none
  cases haction

end FluidBG
