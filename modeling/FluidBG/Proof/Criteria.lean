import FluidBG.Proof.Decisions
/-!
# The two criteria together

A promotion has a criterion on data cases, one on custom cases, or both. With both the decision is
a rollback when either rolls back and a promotion when both promote. A custom criterion that is
satisfied should leave the decision to the data criterion, and does so for every action but one:
the climb of a step, which the catch-all of the combination turns into waiting.
-/

set_option autoImplicit false

namespace FluidBG

/-! ## The custom criterion -/

/-- Nothing is pending or went wrong, and something has passed. -/
structure Counts.Satisfied (counts : Counts) : Prop where
  pending : ¬ 0 < counts.pending
  clean : ¬ (0 < counts.failed ∨ 0 < counts.timedOut)
  passed : counts.passed ≠ 0

/-- Nothing is pending, and something went wrong. -/
structure Counts.Spoiled (counts : Counts) : Prop where
  pending : ¬ 0 < counts.pending
  spoiled : 0 < counts.failed ∨ 0 < counts.timedOut

section Custom

variable {counts : Counts} {custom : CustomPromotionSpec}

theorem decideCustomPromotion_promote_iff :
    decideCustomPromotion counts custom = .promote ↔ counts.Satisfied := by
  unfold decideCustomPromotion
  constructor
  · intro h
    split at h
    · cases h
    · split at h
      · cases h
      · split at h
        · cases h
        · rename_i hpending hclean hpassed
          exact ⟨hpending, hclean, hpassed⟩
  · rintro ⟨hpending, hclean, hpassed⟩
    rw [if_neg hpending, if_neg hclean, if_neg hpassed]

theorem decideCustomPromotion_rollback_iff :
    decideCustomPromotion counts custom = .rollback ↔ counts.Spoiled := by
  unfold decideCustomPromotion
  constructor
  · intro h
    split at h
    · cases h
    · split at h
      · rename_i hpending hspoiled
        exact ⟨hpending, hspoiled⟩
      · split at h <;> cases h
  · rintro ⟨hpending, hspoiled⟩
    rw [if_neg hpending, if_pos hspoiled]

end Custom

/-! ## The data criterion -/

section Data

variable {promotion : PromotionSpec} {data : DataPromotionSpec} {counts : Counts}
  {currentStep : Option Int}

/-- The strategy is progressive and its steps are missing. -/
def PromotionSpec.LacksSteps (promotion : PromotionSpec) : Prop :=
  promotion.strategy.strategyType = .progressive ∧ promotion.strategy.progressive = none

/-- The rollout is at a step before the last one, and its sample meets its rate. -/
def PromotionSpec.AtClimb (promotion : PromotionSpec) (counts : Counts)
    (currentStep : Option Int) : Prop :=
  promotion.strategy.strategyType = .progressive ∧
    ∃ progressive ∈ promotion.strategy.progressive,
    ∃ step ∈ progressive.steps[ProgressiveStrategy.stepIdx currentStep]?,
      progressive.steps[ProgressiveStrategy.stepIdx currentStep + 1]? ≠ none ∧
      ¬ (ProgressiveStrategy.fromSteps progressive).Early step counts ∧
      counts.Meets step.observeCases step.successRate

theorem decideDataPromotion_error_iff :
    (∃ e, decideDataPromotion promotion data counts currentStep = .error e) ↔
      promotion.LacksSteps := by
  unfold decideDataPromotion PromotionSpec.LacksSteps
  cases hs : promotion.strategy.strategyType with
  | hardSwitch => simp
  | progressive =>
    cases hp : promotion.strategy.progressive with
    | none => simp
    | some progressive => simp

theorem HardSwitchStrategy.decide_ne_advanceStep (s : HardSwitchStrategy) (counts : Counts)
    (step trafficPercent : Int) : s.decide counts ≠ .advanceStep step trafficPercent := by
  unfold decide
  split
  · simp
  · split
    · simp
    · split <;> simp

/-- A judgement is the action on a met sample only where the sample is met. -/
theorem judge_eq_advanceStep {early : Prop} [Decidable early] {cases : Int} {successRate : Rat}
    {met failed : PromotionAction} {step trafficPercent : Int}
    (hfailed : failed ≠ .advanceStep step trafficPercent)
    (h : judge early cases successRate met failed counts = .advanceStep step trafficPercent) :
    ¬ early ∧ counts.Meets cases successRate ∧ met = .advanceStep step trafficPercent := by
  by_cases he : early
  · rw [judge_early he] at h
    cases h
  · rcases few_or_met_or_fails counts cases successRate with hfew | hmeets | hfails
    · rw [judge_few he hfew] at h
      cases h
    · rw [judge_met he hmeets] at h
      exact ⟨he, hmeets, h⟩
    · rw [judge_failed he hfails] at h
      exact absurd h hfailed

theorem decideDataPromotion_advanceStep_iff :
    (∃ step trafficPercent, decideDataPromotion promotion data counts currentStep =
      .ok (.advanceStep step trafficPercent)) ↔ promotion.AtClimb counts currentStep := by
  unfold decideDataPromotion PromotionSpec.AtClimb
  cases hs : promotion.strategy.strategyType with
  | hardSwitch => simp [HardSwitchStrategy.decide_ne_advanceStep]
  | progressive =>
    cases hp : promotion.strategy.progressive with
    | none => simp
    | some progressive =>
      simp only [Except.ok.injEq, Option.mem_def, Option.some.injEq, exists_eq_left', true_and]
      cases hstep : progressive.steps[ProgressiveStrategy.stepIdx currentStep]? with
      | none =>
        have hpast : (ProgressiveStrategy.fromSteps progressive).decide counts currentStep =
            .promote := ProgressiveStrategy.decide_past hstep
        simp [hpast]
      | some here =>
        rw [ProgressiveStrategy.decide_eq (s := .fromSteps progressive) hstep]
        constructor
        · rintro ⟨step, trafficPercent, hjudge⟩
          have hfailed : (ProgressiveStrategy.fromSteps progressive).giveUp ≠
              .advanceStep step trafficPercent := by
            unfold ProgressiveStrategy.giveUp
            split <;> simp
          obtain ⟨he, hmeets, hclimb⟩ := judge_eq_advanceStep hfailed hjudge
          refine ⟨here, rfl, fun hlast => ?_, he, hmeets⟩
          rw [ProgressiveStrategy.climb_of_last (s := .fromSteps progressive) hlast] at hclimb
          cases hclimb
        · rintro ⟨step, hstep', hnext, he, hmeets⟩
          cases hstep'
          rw [judge_met he hmeets]
          obtain ⟨next, hnext⟩ := Option.ne_none_iff_exists'.mp hnext
          exact ⟨_, _, ProgressiveStrategy.climb_of_next (s := .fromSteps progressive) hnext⟩

end Data

/-! ## Both -/

/-- **The two criteria combine lawfully**: either rolls back, both promote, and a custom criterion
that promotes leaves the decision to the other. -/
structure CombinesLawfully (bgd : BlueGreenDeployment) (dataAction : Except ReconcileError
    PromotionAction) (customAction : PromotionAction) (dataCounts customCounts : Counts)
    (currentStep : Option Int) : Prop where
  rollback : decidePromotionAction bgd dataCounts customCounts currentStep = .ok .rollback ↔
    dataAction = .ok .rollback ∨ customAction = .rollback
  promote : decidePromotionAction bgd dataCounts customCounts currentStep = .ok .promote ↔
    dataAction = .ok .promote ∧ customAction = .promote
  data : customAction = .promote →
    decidePromotionAction bgd dataCounts customCounts currentStep = dataAction

/-- The decision of an object with both criteria. -/
theorem decidePromotionAction_both {bgd : BlueGreenDeployment} {promotion : PromotionSpec}
    {data : DataPromotionSpec} {custom : CustomPromotionSpec} {dataCounts customCounts : Counts}
    {currentStep : Option Int} (hpromotion : bgd.spec.promotion = some promotion)
    (hdata : promotion.data = some data) (hcustom : promotion.custom = some custom) :
    decidePromotionAction bgd dataCounts customCounts currentStep =
      (decideDataPromotion promotion data dataCounts currentStep).bind fun dataAction =>
        combineActions (some dataAction) (some (decideCustomPromotion customCounts custom)) := by
  unfold decidePromotionAction
  simp only [hpromotion, hdata, hcustom, Option.map_some]
  cases decideDataPromotion promotion data dataCounts currentStep <;> rfl

theorem combineActions_rollback_iff {data custom : PromotionAction} :
    combineActions (some data) (some custom) = .ok .rollback ↔
      data = .rollback ∨ custom = .rollback := by
  cases data <;> cases custom <;> simp [combineActions]

theorem combineActions_both_promote_iff {data custom : PromotionAction} :
    combineActions (some data) (some custom) = .ok .promote ↔
      data = .promote ∧ custom = .promote := by
  cases data <;> cases custom <;> simp [combineActions]

/-- A promotion on the custom side is neutral, except for a climb. -/
theorem combineActions_promote_eq_iff {data : PromotionAction} :
    combineActions (some data) (some .promote) = .ok data ↔
      ∀ step trafficPercent, data ≠ .advanceStep step trafficPercent := by
  cases data <;> simp [combineActions]

/-- **The criteria combine lawfully** except where a satisfied custom criterion meets a step to be
climbed; and a strategy without its steps is an error even where custom cases went wrong. -/
theorem combines_lawfully_iff (bgd : BlueGreenDeployment) (promotion : PromotionSpec)
    (data : DataPromotionSpec) (custom : CustomPromotionSpec) (dataCounts customCounts : Counts)
    (currentStep : Option Int) (hpromotion : bgd.spec.promotion = some promotion)
    (hdata : promotion.data = some data) (hcustom : promotion.custom = some custom) :
    CombinesLawfully bgd (decideDataPromotion promotion data dataCounts currentStep)
        (decideCustomPromotion customCounts custom) dataCounts customCounts currentStep ↔
      ¬ (customCounts.Satisfied ∧ promotion.AtClimb dataCounts currentStep) ∧
        ¬ (customCounts.Spoiled ∧ promotion.LacksSteps) := by
  have hboth := @decidePromotionAction_both bgd promotion data custom dataCounts customCounts
    currentStep hpromotion hdata hcustom
  rw [← @decideCustomPromotion_promote_iff customCounts custom,
    ← @decideCustomPromotion_rollback_iff customCounts custom,
    ← @decideDataPromotion_advanceStep_iff promotion data dataCounts currentStep,
    ← @decideDataPromotion_error_iff promotion data dataCounts currentStep]
  cases haction : decideDataPromotion promotion data dataCounts currentStep with
  | error e =>
    rw [haction] at hboth
    have herror : decidePromotionAction bgd dataCounts customCounts currentStep = .error e := hboth
    constructor
    · intro h
      refine ⟨by simp, fun hspoiled => ?_⟩
      have hrollback := h.rollback.mpr (.inr hspoiled.1)
      rw [herror] at hrollback
      cases hrollback
    · rintro ⟨-, hspoiled⟩
      refine ⟨?_, ?_, fun _ => herror⟩
      · rw [herror]
        simp only [reduceCtorEq, false_or, false_iff]
        intro hrollback
        exact hspoiled ⟨hrollback, e, rfl⟩
      · rw [herror]
        simp
  | ok action =>
    rw [haction] at hboth
    have hcombined : decidePromotionAction bgd dataCounts customCounts currentStep =
        combineActions (some action) (some (decideCustomPromotion customCounts custom)) := hboth
    constructor
    · intro h
      refine ⟨?_, by simp⟩
      rintro ⟨hsatisfied, step, trafficPercent, hstep⟩
      have hneutral := h.data hsatisfied
      rw [hcombined, hsatisfied, combineActions_promote_eq_iff] at hneutral
      exact hneutral step trafficPercent (Except.ok.inj hstep)
    · rintro ⟨hclimb, -⟩
      refine ⟨?_, ?_, fun hsatisfied => ?_⟩
      · rw [hcombined, combineActions_rollback_iff]
        simp
      · rw [hcombined, combineActions_both_promote_iff]
        simp
      · rw [hcombined, hsatisfied, combineActions_promote_eq_iff]
        intro step trafficPercent hstep
        exact hclimb ⟨hsatisfied, step, trafficPercent, by rw [hstep]⟩

namespace Sample

/-- Two steps, the first of which is met by a single passed case. -/
def twoSteps : PromotionSpec :=
  ⟨some ⟨none, none, none⟩, some ⟨none, none⟩,
    ⟨.progressive, some ⟨[⟨5, 1, 1 / 2⟩, ⟨100, 2, 1 / 2⟩], true, none⟩⟩⟩

/-- The object with both criteria on it. -/
def twoStepsBgd : BlueGreenDeployment :=
  { bgd .observing with spec := { spec with promotion := some twoSteps } }

end Sample

theorem combines_lawfully_waiting :
    CombinesLawfully Sample.twoStepsBgd
      (decideDataPromotion Sample.twoSteps ⟨none, none, none⟩ ⟨1, 0, 0, 0⟩ none)
      (decideCustomPromotion ⟨1, 0, 0, 1⟩ ⟨none, none⟩) ⟨1, 0, 0, 0⟩ ⟨1, 0, 0, 1⟩ none := by
  refine (combines_lawfully_iff Sample.twoStepsBgd Sample.twoSteps ⟨none, none, none⟩ ⟨none, none⟩
    ⟨1, 0, 0, 0⟩ ⟨1, 0, 0, 1⟩ none rfl rfl rfl).mpr ⟨?_, ?_⟩
  · rintro ⟨hsatisfied, -⟩
    exact hsatisfied.pending (by decide)
  · rintro ⟨hspoiled, -⟩
    exact hspoiled.pending (by decide)

/-- One data case and one custom case have passed: the data criterion would climb, and together
they wait. -/
theorem satisfied_custom_blocks_climb :
    ¬ ∀ (bgd : BlueGreenDeployment) (promotion : PromotionSpec) (data : DataPromotionSpec)
      (custom : CustomPromotionSpec) (dataCounts customCounts : Counts)
      (currentStep : Option Int), bgd.spec.promotion = some promotion →
      promotion.data = some data → promotion.custom = some custom →
      CombinesLawfully bgd (decideDataPromotion promotion data dataCounts currentStep)
        (decideCustomPromotion customCounts custom) dataCounts customCounts currentStep := by
  intro h
  have hlawful := h Sample.twoStepsBgd Sample.twoSteps ⟨none, none, none⟩ ⟨none, none⟩
    ⟨1, 0, 0, 0⟩ ⟨1, 0, 0, 0⟩ none rfl rfl rfl
  have hdata := hlawful.data (by decide)
  exact absurd hdata (by decide +kernel)

end FluidBG
