import FluidBG.Proof.LiveDecisions
import FluidBG.Proof.Criteria
import FluidBG.Plugins.Worker
/-!
# Deadlines

A spec can set three of them: how long a case may stay open, how long the rollout may be observed,
and how long a step may last. None reaches the code that would act on it. The SDK gives every case
two minutes, and a decision looks at the counts and the step only. So a deadline ends an observation
exactly where the counts would have ended it anyway.
-/

set_option autoImplicit false

namespace FluidBG

open Lib

/-! ## What is configured -/

/-- `Duration::seconds`. -/
def nanos (seconds : Int) : Int := seconds * 1000000000

/-- The timeout a spec sets for the cases its test verifies. -/
def BlueGreenDeploymentSpec.caseTimeout (spec : BlueGreenDeploymentSpec) : Option Int :=
  (spec.test.bind (·.dataVerification)).bind (·.timeoutSeconds)

/-- The cases under this key have the timeout the spec sets, if it sets one. -/
def TimesCases (spec : BlueGreenDeploymentSpec) (key : String) (store : MemoryStore) : Prop :=
  ∀ run ∈ store.records, run.blueGreenRef = key →
    ∀ seconds ∈ spec.caseTimeout, run.timeout = nanos seconds

/-- The observation is over by now, or the step is. -/
inductive PromotionSpec.Expired (promotion : PromotionSpec) (timeline : Timeline)
    (now : Timestamp) : Prop where
  | observation (data : DataPromotionSpec) (hdata : promotion.data = some data) (seconds : Int)
      (hseconds : data.timeoutSeconds = some seconds) (since : Timestamp)
      (hsince : timeline.observing = some since) (h : since + nanos seconds ≤ now)
  | step (hstrategy : promotion.strategy.strategyType = .progressive)
      (progressive : ProgressiveSpec)
      (hprogressive : promotion.strategy.progressive = some progressive)
      (minutes : Int) (hminutes : progressive.stepTimeoutMinutes = some minutes)
      (since : Timestamp) (hsince : timeline.step = some since)
      (h : since + nanos (60 * minutes) ≤ now)

/-- The decision is made at a deadline or after it. -/
def Dated.Due (d : Dated) : Prop :=
  ∃ promotion, d.decision.bgd.spec.promotion = some promotion ∧ promotion.Expired d.timeline d.time

/-- The decision ends the observation. -/
def Decision.Ends (d : Decision) : Prop :=
  d.action = .ok .promote ∨ d.action = .ok .rollback

/-- Every decision that is due ends the observation. -/
def EndsOnTime (decisions : List Dated) : Prop := ∀ d ∈ decisions, d.Due → d.decision.Ends

/-! ## What decides instead -/

namespace PromotionSpec

/-- The data sample is complete and meets its rate, at the last step if there are any. -/
def DataPromotes (promotion : PromotionSpec) (data : DataPromotionSpec) (counts : Counts)
    (currentStep : Option Int) : Prop :=
  match promotion.strategy.strategyType with
  | .hardSwitch => counts.Meets (data.minTestCases.getD 100) (data.successRate.getD (98 / 100))
  | .progressive => ∃ progressive, promotion.strategy.progressive = some progressive ∧
      ∀ step ∈ progressive.steps[ProgressiveStrategy.stepIdx currentStep]?,
        progressive.steps[ProgressiveStrategy.stepIdx currentStep + 1]? = none ∧
          counts.Meets step.observeCases step.successRate

/-- The data sample cannot meet its rate any more, or is complete and does not. -/
def DataRollsBack (promotion : PromotionSpec) (data : DataPromotionSpec) (counts : Counts)
    (currentStep : Option Int) : Prop :=
  match promotion.strategy.strategyType with
  | .hardSwitch => (HardSwitchStrategy.fromCriteria data).Early counts ∨
      counts.Fails (data.minTestCases.getD 100) (data.successRate.getD (98 / 100))
  | .progressive => ∃ progressive, promotion.strategy.progressive = some progressive ∧
      ∃ step ∈ progressive.steps[ProgressiveStrategy.stepIdx currentStep]?,
        progressive.rollbackOnStepFailure = true ∧
          ((0 < counts.pending ∧ counts.bestRate < step.successRate) ∨
            counts.Fails step.observeCases step.successRate)

end PromotionSpec

/-- Both criteria are satisfied, as far as they are there. -/
structure Decision.Satisfied (d : Decision) (promotion : PromotionSpec) : Prop where
  data : ∀ data ∈ promotion.data,
    promotion.DataPromotes data d.dataCounts d.bgd.currentStep
  custom : ∀ _ ∈ promotion.custom, d.customCounts.Satisfied
  either : promotion.data ≠ none ∨ promotion.custom ≠ none

/-- One of the criteria is spoiled. -/
inductive Decision.Spoiled (d : Decision) (promotion : PromotionSpec) : Prop where
  | data (data : DataPromotionSpec) (hdata : promotion.data = some data)
      (h : promotion.DataRollsBack data d.dataCounts d.bgd.currentStep)
  | custom (hcustom : promotion.custom ≠ none) (h : d.customCounts.Spoiled)
      (hsteps : promotion.data = none ∨ ¬ promotion.LacksSteps)

/-- **The counts and the step settle the rollout**, whatever the time. -/
def Decision.Settled (d : Decision) : Prop :=
  ∃ promotion, d.bgd.spec.promotion = some promotion ∧
    (d.Satisfied promotion ∨ d.Spoiled promotion)

/-! ## Decisions end where the counts settle -/

section Data

variable {promotion : PromotionSpec} {data : DataPromotionSpec} {counts : Counts}
  {currentStep : Option Int}

theorem HardSwitchStrategy.decide_promote_iff {s : HardSwitchStrategy} (h : counts.Nonneg) :
    s.decide counts = .promote ↔ counts.Meets s.minTestCases s.successRate := by
  rw [s.decide_eq h]
  exact judge_eq_met_iff h (fun he => he.2.2) (by simp) (by simp) (by simp)

theorem HardSwitchStrategy.decide_rollback_iff {s : HardSwitchStrategy} (h : counts.Nonneg) :
    s.decide counts = .rollback ↔
      s.Early counts ∨ counts.Fails s.minTestCases s.successRate := by
  rw [s.decide_eq h, judge_eq_rollback_iff (by simp)]
  simp

namespace ProgressiveStrategy

variable {s : ProgressiveStrategy} {step : ProgressiveStep}

theorem giveUp_eq_rollback_iff : s.giveUp = .rollback ↔ s.rollbackOnStepFailure = true := by
  unfold giveUp
  cases s.rollbackOnStepFailure <;> simp

theorem giveUp_ne_promote : s.giveUp ≠ .promote := by
  unfold giveUp
  split <;> simp

/-- A step promotes where it is met and is the last one. -/
theorem decide_promote_iff (h : counts.Nonneg)
    (hstep : s.steps[stepIdx currentStep]? = some step) :
    s.decide counts currentStep = .promote ↔ s.steps[stepIdx currentStep + 1]? = none ∧
      counts.Meets step.observeCases step.successRate := by
  rw [decide_eq hstep]
  cases hnext : s.steps[stepIdx currentStep + 1]? with
  | none =>
    rw [climb_of_last hnext]
    have hmet : judge (s.Early step counts) step.observeCases step.successRate .promote s.giveUp
        counts = .promote ↔ counts.Meets step.observeCases step.successRate :=
      judge_eq_met_iff h (fun he => he.2.2) (by simp) (by simp) giveUp_ne_promote
    simp [hmet]
  | some next =>
    rw [climb_of_next hnext]
    have hnot : judge (s.Early step counts) step.observeCases step.successRate
        (.advanceStep (asI32 (stepIdx currentStep + 1)) next.trafficPercent) s.giveUp counts ≠
          .promote := by
      unfold judge
      have hgive := s.giveUp_ne_promote
      split
      · simp
      · split
        · simp
        · split
          · simp
          · exact hgive
    simp [hnot]

theorem decide_rollback_iff (hstep : s.steps[stepIdx currentStep]? = some step) :
    s.decide counts currentStep = .rollback ↔ s.rollbackOnStepFailure = true ∧
      ((0 < counts.pending ∧ counts.bestRate < step.successRate) ∨
        counts.Fails step.observeCases step.successRate) := by
  rw [decide_eq hstep, judge_eq_rollback_iff (s.climb_ne_rollback _), giveUp_eq_rollback_iff]
  unfold Early
  tauto

end ProgressiveStrategy

theorem decideDataPromotion_promote_iff (h : counts.Nonneg) :
    decideDataPromotion promotion data counts currentStep = .ok .promote ↔
      promotion.DataPromotes data counts currentStep := by
  unfold decideDataPromotion PromotionSpec.DataPromotes
  cases promotion.strategy.strategyType with
  | hardSwitch =>
    rw [Except.ok.injEq]
    exact HardSwitchStrategy.decide_promote_iff h
  | progressive =>
    cases hp : promotion.strategy.progressive with
    | none => simp
    | some progressive =>
      simp only [Except.ok.injEq, Option.some.injEq, exists_eq_left']
      cases hstep : progressive.steps[ProgressiveStrategy.stepIdx currentStep]? with
      | none =>
        have hpast : (ProgressiveStrategy.fromSteps progressive).decide counts currentStep =
            .promote := ProgressiveStrategy.decide_past hstep
        simp [hpast]
      | some step =>
        have hiff := ProgressiveStrategy.decide_promote_iff (s := .fromSteps progressive) h hstep
        rw [hiff]
        simp [ProgressiveStrategy.fromSteps]

theorem decideDataPromotion_rollback_iff (h : counts.Nonneg) :
    decideDataPromotion promotion data counts currentStep = .ok .rollback ↔
      promotion.DataRollsBack data counts currentStep := by
  unfold decideDataPromotion PromotionSpec.DataRollsBack
  cases promotion.strategy.strategyType with
  | hardSwitch =>
    rw [Except.ok.injEq]
    exact HardSwitchStrategy.decide_rollback_iff h
  | progressive =>
    cases hp : promotion.strategy.progressive with
    | none => simp
    | some progressive =>
      simp only [Except.ok.injEq, Option.some.injEq, exists_eq_left']
      cases hstep : progressive.steps[ProgressiveStrategy.stepIdx currentStep]? with
      | none =>
        have hpast : (ProgressiveStrategy.fromSteps progressive).decide counts currentStep =
            .promote := ProgressiveStrategy.decide_past hstep
        simp [hpast]
      | some step =>
        rw [ProgressiveStrategy.decide_rollback_iff (s := .fromSteps progressive) hstep]
        simp [ProgressiveStrategy.fromSteps]

end Data

section Both

variable {d : Decision} {promotion : PromotionSpec}

theorem Decision.action_promote_iff (hp : d.bgd.spec.promotion = some promotion)
    (h : d.dataCounts.Nonneg) : d.action = .ok .promote ↔ d.Satisfied promotion := by
  unfold Decision.action
  rw [decidePromotionAction_promote hp]
  simp only [decideDataPromotion_promote_iff h, decideCustomPromotion_promote_iff]
  constructor
  · rintro ⟨hdata, hcustom, heither⟩
    exact ⟨hdata, hcustom, heither⟩
  · rintro ⟨hdata, hcustom, heither⟩
    exact ⟨hdata, hcustom, heither⟩

/-- A rollback of either criterion is one of both. -/
theorem combineActions_rollback_some_iff {data : PromotionAction} {custom : Option PromotionAction} :
    combineActions (some data) custom = .ok .rollback ↔
      data = .rollback ∨ custom = some .rollback := by
  cases custom with
  | none => cases data <;> simp [combineActions]
  | some custom =>
    rw [combineActions_rollback_iff]
    simp

theorem combineActions_rollback_none_iff {custom : Option PromotionAction} :
    combineActions none custom = .ok .rollback ↔ custom = some .rollback := by
  cases custom with
  | none => simp [combineActions]
  | some custom => cases custom <;> simp [combineActions]

/-- What a custom criterion that is there makes of spoiled counts. -/
theorem customAction_rollback_iff {custom : Option CustomPromotionSpec} {counts : Counts} :
    custom.map (decideCustomPromotion counts) = some .rollback ↔
      custom ≠ none ∧ counts.Spoiled := by
  cases custom with
  | none => simp
  | some custom =>
    rw [Option.map_some, Option.some.injEq, decideCustomPromotion_rollback_iff]
    simp

theorem Decision.action_rollback_iff (hp : d.bgd.spec.promotion = some promotion)
    (h : d.dataCounts.Nonneg) : d.action = .ok .rollback ↔ d.Spoiled promotion := by
  unfold Decision.action decidePromotionAction
  simp only [hp]
  cases hdata : promotion.data with
  | none =>
    simp only
    rw [combineActions_rollback_none_iff, customAction_rollback_iff]
    constructor
    · rintro ⟨hcustom, hspoiled⟩
      exact .custom hcustom hspoiled (.inl hdata)
    · intro hspoiled
      cases hspoiled with
      | data data hd _ => simp [hdata] at hd
      | custom hcustom hspoiled _ => exact ⟨hcustom, hspoiled⟩
  | some data =>
    simp only
    have hrolls : decideDataPromotion promotion data d.dataCounts d.bgd.currentStep =
        .ok .rollback ↔ promotion.DataRollsBack data d.dataCounts d.bgd.currentStep :=
      decideDataPromotion_rollback_iff h
    have herror : (∃ e, decideDataPromotion promotion data d.dataCounts d.bgd.currentStep =
        .error e) ↔ promotion.LacksSteps := decideDataPromotion_error_iff
    cases haction : decideDataPromotion promotion data d.dataCounts d.bgd.currentStep with
    | error e =>
      -- a strategy without its steps is an error, whatever the custom cases
      have hlacks : promotion.LacksSteps := herror.mp ⟨e, haction⟩
      simp only [reduceCtorEq, false_iff]
      intro hspoiled
      cases hspoiled with
      | data data' hd hback =>
        cases hdata.symm.trans hd
        rw [← hrolls, haction] at hback
        cases hback
      | custom _ _ hsteps =>
        rcases hsteps with hnone | hhas
        · simp [hdata] at hnone
        · exact hhas hlacks
    | ok action =>
      have hhas : ¬ promotion.LacksSteps := by
        intro hlacks
        obtain ⟨e, he⟩ := herror.mpr hlacks
        rw [haction] at he
        cases he
      simp only
      rw [combineActions_rollback_some_iff, customAction_rollback_iff]
      constructor
      · rintro (hback | ⟨hcustom, hspoiled⟩)
        · exact .data data hdata (hrolls.mp (by rw [haction, hback]))
        · exact .custom hcustom hspoiled (.inr hhas)
      · intro hspoiled
        cases hspoiled with
        | data data' hd hback =>
          cases hdata.symm.trans hd
          rw [← hrolls, haction] at hback
          exact .inl (Except.ok.inj hback)
        | custom hcustom hspoiled _ => exact .inr ⟨hcustom, hspoiled⟩

end Both

/-- **A decision ends the observation exactly where the counts and the step settle it.** -/
theorem Decision.ends_iff {d : Decision} (h : d.dataCounts.Nonneg) : d.Ends ↔ d.Settled := by
  unfold Decision.Ends Decision.Settled
  cases hp : d.bgd.spec.promotion with
  | none => simp [Decision.action, decidePromotionAction, hp]
  | some promotion =>
    rw [Decision.action_promote_iff hp h, Decision.action_rollback_iff hp h]
    simp

/-! ## What inceptors register -/

/-- An inceptor can send this registration. -/
def RegisterTestCaseRequest.FromInceptor (req : RegisterTestCaseRequest) : Prop :=
  ∃ (runtime : InceptorRuntime) (testId url : String) (authToken : Option String),
    (runtime.registerTestCase testId).Makes (.register url req authToken)

/-- **Every inceptor asks for two minutes**: the SDK fixes the number. -/
theorem RegisterTestCaseRequest.FromInceptor.timeoutSeconds {req : RegisterTestCaseRequest}
    (h : req.FromInceptor) : req.timeoutSeconds = some 120 := by
  obtain ⟨runtime, testId, url, authToken, hmakes⟩ := h
  have hcalls : (runtime.registerTestCase testId).Calls fun c => ∀ url req authToken,
      c = .register url req authToken → req.timeoutSeconds = some 120 := by
    have hround (answer : Option Nat) : (statusRound answer).Calls fun c => ∀ url req authToken,
        c = WorkCall.register url req authToken → req.timeoutSeconds = some 120 := by
      unfold statusRound
      split
      · split
        · trivial
        · split
          · split <;> trivial
          · trivial
      · trivial
    refine Prog.Calls.bind (Prog.Calls.of_ask.mpr fun _ _ _ h => by cases h) fun now => ?_
    refine .retry (fun _ => Prog.Calls.bind (Prog.Calls.of_ask.mpr ?_) hround) trivial
    intro url req authToken heq
    cases heq
    rfl
  exact hcalls.of_makes hmakes url req authToken rfl

theorem countsForRuns_nonneg (runs : List TestCaseRecord) : (countsForRuns runs).Nonneg := by
  induction runs with
  | nil => constructor <;> decide
  | cons run runs ih =>
    obtain ⟨hpassed, hfailed, htimedOut, hpending⟩ := ih
    rw [countsForRuns_cons]
    constructor <;> cases run.status <;> simp [Counts.add, Counts.ofStatus] <;> omega

/-- Every case has the timeout of the SDK. -/
def twoMinutes : RecordFact where
  holds run := run.timeout = nanos 120
  counts _ counts := counts.Nonneg
  kept _ htimeout h := htimeout.trans h
  merged hexisting h := by
    unfold MemoryStore.mergeRegistration
    simp [hexisting, h]
  counted _ _ _ := countsForRuns_nonneg _

/-! ## Runs -/

/-- An Observing reconcile, a request to the API whose registrations are an inceptor's, a round of
the tracker, and other work. -/
inductive DeadlineJob where
  | observing (ctx : Ctx) (bgd : BlueGreenDeployment)
  | request (ctx : Ctx) (authHeader : Option String) (req : ApiRequest)
      (h : ∀ reg, req = .registerTestCase reg → reg.FromInceptor)
  | pollPending
  | checkTimeouts
  | other (work : Op Unit) (h : Op.Bystander work)

def DeadlineJob.thread : DeadlineJob → Thread Call Answer ReconcileError Unit
  | .observing ctx bgd => ⟨reconcileObserving ctx bgd bgd.metadata.ns bgd.stateKey, ()⟩
  | .request ctx authHeader req _ => ⟨do let _ ← router ctx authHeader req, ()⟩
  | .pollPending => ⟨FluidBG.pollPending, ()⟩
  | .checkTimeouts => ⟨FluidBG.checkTimeouts, ()⟩
  | .other work _ => ⟨work, ()⟩

abbrev DeadlinePool := Pool Call Answer ReconcileError Unit Deciding

/-- What a run of these jobs can lead to, with the clock going on. -/
def Passes (start : Deciding) (s : DeadlinePool) : Prop :=
  Pool.Run decidingCluster DeadlineJob.thread Watch.top ⟨start, []⟩ s

section Runs

variable {start : Deciding} {s : DeadlinePool}

theorem Passes.twoMinutes (hstart : FluidBG.twoMinutes.Throughout start) (h : Passes start s) :
    FluidBG.twoMinutes.Throughout s.world := by
  refine RecordFact.Throughout.of_run hstart (fun job => ?_) h
  cases job with
  | observing ctx bgd => exact .reconcileObserving _
  | request ctx authHeader req hreq =>
    have hrouter : (router ctx authHeader req).Calls FluidBG.twoMinutes.Allows := by
      refine RecordFact.allows_router fun reg hreg claims triggeredAt timeout htimeout => ?_
      rw [(hreq reg hreg).timeoutSeconds] at htimeout
      show timeout = nanos 120
      exact (Except.ok.inj htimeout).symm
    exact .of_calls (hrouter.bind fun _ => trivial)
  | pollPending => exact .of_bystander Op.Bystander.pollPending
  | checkTimeouts => exact .of_bystander Op.Bystander.checkTimeouts
  | other work h => exact .of_bystander h

/-- The cases have the timeout of a spec where there are none, or it is the SDK's. -/
theorem timesCases_iff {spec : BlueGreenDeploymentSpec} {key : String} {store : MemoryStore}
    (h : FluidBG.twoMinutes.Everywhere store) : TimesCases spec key store ↔
      (∀ run ∈ store.records, run.blueGreenRef ≠ key) ∨
        ∀ seconds ∈ spec.caseTimeout, seconds = 120 := by
  constructor
  · intro htimes
    by_cases hnone : ∀ run ∈ store.records, run.blueGreenRef ≠ key
    · exact .inl hnone
    · refine .inr fun seconds hseconds => ?_
      simp only [not_forall, not_not] at hnone
      obtain ⟨run, hrun, hkey⟩ := hnone
      have htimeout := htimes run hrun hkey seconds hseconds
      rw [h run hrun] at htimeout
      unfold nanos at htimeout
      omega
  · intro hor run hrun hkey seconds hseconds
    rcases hor with hnone | hall
    · exact absurd hkey (hnone run hrun)
    · rw [hall seconds hseconds]
      exact h run hrun

/-- **Deadlines do not end an observation.** In every run the cases have the timeout of the spec
exactly where that is two minutes, and the decisions that are due end the observation exactly where
the counts and the step settle it. -/
theorem deadlines_end_iff (hstart : FluidBG.twoMinutes.Throughout start) (h : Passes start s)
    (spec : BlueGreenDeploymentSpec) (key : String) :
    (TimesCases spec key s.world.world.store ↔
      (∀ run ∈ s.world.world.store.records, run.blueGreenRef ≠ key) ∨
        ∀ seconds ∈ spec.caseTimeout, seconds = 120) ∧
    (EndsOnTime s.world.decisions ↔
      ∀ d ∈ s.world.decisions, d.Due → d.decision.Settled) := by
  have hall := h.twoMinutes hstart
  refine ⟨timesCases_iff hall.store, ?_⟩
  unfold EndsOnTime
  refine forall₂_congr fun d hd => imp_congr_right fun _ => ?_
  exact Decision.ends_iff (hall.decisions d hd).data

end Runs

/-! ## An observation that goes on -/

namespace Sample

/-- Half of two cases have to pass, within a minute. -/
def hurried : BlueGreenDeployment :=
  { bgd .observing with
    spec := { spec with
      promotion := some ⟨some ⟨some 2, some (1 / 2), some 60⟩, none, ⟨.hardSwitch, none⟩⟩ } }

/-- The observation has just begun, and there are no cases. -/
def hurriedStart : Deciding where
  world := { world .observing [] with bgd := some hurried }
  timeline := ⟨some 1000000000, some 1000000000⟩
  decisions := []

/-- Two minutes go by before the next reconcile decides. -/
def lateReconcile : List (Pool.Event DeadlineJob Outcome Move) :=
  [.move (.tick 120000000000), .start (.observing ctx hurried), .answer 0 .ok, .answer 0 .ok,
    .answer 0 .ok, .answer 0 .ok, .answer 0 .ok, .answer 0 .ok]

theorem hurriedStart_twoMinutes : twoMinutes.Throughout hurriedStart := by
  constructor
  · intro run hrun
    cases hrun
  · intro d hd
    cases hd

/-- The decision is one to go on, two minutes after the observation began. -/
structure GoesOn (d : Dated) : Prop where
  accepted : validateTestConfiguration d.decision.bgd = .ok ()
  promotion : d.decision.bgd.spec.promotion = hurried.spec.promotion
  action : d.decision.action = .ok .continueObserving
  time : d.time = 121000000000
  since : d.timeline.observing = some 1000000000

instance (d : Dated) : Decidable (GoesOn d) :=
  decidable_of_iff (validateTestConfiguration d.decision.bgd = .ok () ∧
      d.decision.bgd.spec.promotion = hurried.spec.promotion ∧
      d.decision.action = .ok .continueObserving ∧ d.time = 121000000000 ∧
      d.timeline.observing = some 1000000000)
    ⟨fun h => ⟨h.1, h.2.1, h.2.2.1, h.2.2.2.1, h.2.2.2.2⟩,
      fun h => ⟨h.accepted, h.promotion, h.action, h.time, h.since⟩⟩

def lateReconcileGoesOnRun :
    PLift ((Pool.run Watch.top decidingCluster DeadlineJob.thread ⟨hurriedStart, []⟩
      lateReconcile).map (fun s => s.world.decisions.map fun d => decide (GoesOn d)) =
      some [true]) :=
  ⟨by decide +kernel⟩

/-- The late reconcile decides once, and goes on observing. -/
theorem lateReconcile_goesOn : ∃ s, Passes hurriedStart s ∧
    ∃ d, s.world.decisions = [d] ∧ GoesOn d := by
  have h := lateReconcileGoesOnRun.down
  obtain ⟨s, r, hs⟩ := Pool.Run.exists_of_run h
  obtain ⟨d, hd, hgoes⟩ := List.map_eq_singleton_iff.mp hs
  exact ⟨s, r, d, hd, of_decide_eq_true hgoes⟩

end Sample

/-- In the late run the deadlines end nothing, since no case has settled anything. -/
theorem deadlines_end_late : ∃ s, Passes Sample.hurriedStart s ∧ s.world.decisions ≠ [] ∧
    (TimesCases Sample.hurried.spec "default/shop" s.world.world.store ↔
      (∀ run ∈ s.world.world.store.records, run.blueGreenRef ≠ "default/shop") ∨
        ∀ seconds ∈ Sample.hurried.spec.caseTimeout, seconds = 120) ∧
    (EndsOnTime s.world.decisions ↔
      ∀ d ∈ s.world.decisions, d.Due → d.decision.Settled) := by
  obtain ⟨s, h, d, hd, -⟩ := Sample.lateReconcile_goesOn
  refine ⟨s, h, by simp [hd], ?_⟩
  exact deadlines_end_iff Sample.hurriedStart_twoMinutes h Sample.hurried.spec "default/shop"

/-- **An accepted rollout goes on past its deadline**: a minute is allowed, two have gone by, and
the decision is to continue. -/
theorem observation_outlives_deadline :
    ¬ ∀ s, Passes Sample.hurriedStart s → ∀ d ∈ s.world.decisions,
      validateTestConfiguration d.decision.bgd = .ok () → d.Due → d.decision.Ends := by
  intro hall
  obtain ⟨s, h, d, hd, hgoes⟩ := Sample.lateReconcile_goesOn
  have hdue : d.Due := by
    refine ⟨_, hgoes.promotion, .observation ⟨some 2, some (1 / 2), some 60⟩ rfl 60 rfl 1000000000
      hgoes.since ?_⟩
    rw [hgoes.time]
    decide
  have hends := hall s h d (by simp [hd]) hgoes.accepted hdue
  unfold Decision.Ends at hends
  rw [hgoes.action] at hends
  simp at hends

end FluidBG
