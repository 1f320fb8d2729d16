import FluidBG.Sample
import Mathlib.Algebra.Order.Field.Basic
/-!
# Promotion and its evidence

A promotion is safe when the cases that are finalized meet every criterion the spec has. The
strategies look at the criteria one by one, and all but one of the ways to `Promote` go through the
comparison they are about. The other is a progressive strategy whose step is past its last one: it
promotes without looking at a single case.
-/

set_option autoImplicit false

namespace FluidBG

/-! ## What counts as evidence -/

/-- Nothing is counted below zero. -/
structure Counts.Nonneg (counts : Counts) : Prop where
  passed : 0 ≤ counts.passed
  failed : 0 ≤ counts.failed
  timedOut : 0 ≤ counts.timedOut
  pending : 0 ≤ counts.pending

/-- Enough cases are finalized, and enough of them have passed. -/
structure Counts.Meets (counts : Counts) (cases : Int) (successRate : Rat) : Prop where
  cases : cases ≤ counts.total
  rate : successRate ≤ rateOf counts.passed counts.total

/-- Every case is finalized, all have passed, and there is one. -/
structure Counts.AllPassed (counts : Counts) : Prop where
  pending : counts.pending = 0
  failed : counts.failed = 0
  timedOut : counts.timedOut = 0
  passed : 1 ≤ counts.passed

/-- The counts meet the step. -/
def ProgressiveStep.MetBy (step : ProgressiveStep) (counts : Counts) : Prop :=
  counts.Meets step.observeCases step.successRate

/-- The counts meet the last step, so there is one. -/
def ProgressiveSpec.MetBy (progressive : ProgressiveSpec) (counts : Counts) : Prop :=
  ∃ step ∈ progressive.steps.getLast?, step.MetBy counts

namespace PromotionSpec

/-- The counts meet the data criterion, which the strategy says how to read. -/
def DataMet (promotion : PromotionSpec) (data : DataPromotionSpec) (counts : Counts) : Prop :=
  match promotion.strategy.strategyType with
  | .hardSwitch => counts.Meets (data.minTestCases.getD 100) (data.successRate.getD (98 / 100))
  | .progressive => ∃ progressive ∈ promotion.strategy.progressive, progressive.MetBy counts

/-- Every success rate the spec configures is above zero. -/
def RatesPositive (promotion : PromotionSpec) : Prop :=
  match promotion.strategy.strategyType with
  | .hardSwitch => ∀ data ∈ promotion.data, 0 < data.successRate.getD (98 / 100)
  | .progressive =>
    ∀ progressive ∈ promotion.strategy.progressive, ∀ step ∈ progressive.steps, 0 < step.successRate

/-- **The evidence for a promotion.** -/
structure Evidence (promotion : PromotionSpec) (dataCounts customCounts : Counts) : Prop where
  data : ∀ data ∈ promotion.data, promotion.DataMet data dataCounts
  custom : ∀ _ ∈ promotion.custom, customCounts.AllPassed
  passed : promotion.RatesPositive → 1 ≤ dataCounts.passed ∨ 1 ≤ customCounts.passed

end PromotionSpec

/-- Whatever is counted, a promotion of the object has its evidence. -/
def PromotesOnEvidence (bgd : BlueGreenDeployment) (currentStep : Option Int) : Prop :=
  ∀ dataCounts customCounts : Counts, dataCounts.Nonneg → customCounts.Nonneg →
    decidePromotionAction bgd dataCounts customCounts currentStep = .ok .promote →
      ∃ promotion ∈ bgd.spec.promotion, promotion.Evidence dataCounts customCounts

/-! ## The strategies one by one -/

theorem rateOf_nonneg {passed total : Int} (h : 0 ≤ passed) : 0 ≤ rateOf passed total := by
  unfold rateOf
  split
  · rename_i htotal
    exact div_nonneg (by exact_mod_cast h) (by exact_mod_cast htotal.le)
  · exact le_refl 0

/-- A positive rate has a passed case behind it. -/
theorem passed_of_rate_pos {passed total : Int} (h : 0 < rateOf passed total) : 1 ≤ passed := by
  unfold rateOf at h
  split at h
  · rename_i htotal
    have htotal' : (0 : Rat) < total := by exact_mod_cast htotal
    have hpassed : (0 : Rat) < passed := by
      have hmul := mul_pos h htotal'
      rwa [div_mul_cancel₀ _ htotal'.ne'] at hmul
    exact_mod_cast hpassed
  · exact absurd h (lt_irrefl 0)

theorem Counts.Meets.passed {counts : Counts} {cases : Int} {successRate : Rat}
    (h : counts.Meets cases successRate) (hrate : 0 < successRate) : 1 ≤ counts.passed :=
  passed_of_rate_pos (hrate.trans_le h.rate)

/-- A hard switch promotes on its criterion alone. -/
theorem HardSwitchStrategy.meets_of_promote {s : HardSwitchStrategy} {counts : Counts}
    (h : s.decide counts = .promote) : counts.Meets s.minTestCases s.successRate := by
  unfold HardSwitchStrategy.decide at h
  split at h
  · cases h
  · split at h
    · cases h
    · rename_i _ hcases
      split at h
      · rename_i hrate
        exact ⟨not_lt.mp hcases, hrate⟩
      · cases h

/-- A progressive strategy promotes past its last step, or on its last step when it is met. -/
theorem ProgressiveStrategy.of_promote {s : ProgressiveStrategy} {counts : Counts}
    {currentStep : Option Int} (h : s.decide counts currentStep = .promote) :
    s.steps.length ≤ stepIdx currentStep ∨ ∃ step ∈ s.steps.getLast?, step.MetBy counts := by
  unfold ProgressiveStrategy.decide at h
  cases hstep : s.steps[stepIdx currentStep]? with
  | none => exact .inl (List.getElem?_eq_none_iff.mp hstep)
  | some step =>
    right
    simp only [hstep] at h
    split at h
    · cases h
    · split at h
      · cases h
      · rename_i _ hcases
        split at h
        · split at h <;> cases h
        · rename_i hrate
          cases hnext : s.steps[stepIdx currentStep + 1]? with
          | some next => simp [hnext] at h
          | none =>
            -- no next step: the current one is the last
            obtain ⟨hlt, _⟩ := List.getElem?_eq_some_iff.mp hstep
            have hend := List.getElem?_eq_none_iff.mp hnext
            have hlast : s.steps.getLast? = some step := by
              rw [List.getLast?_eq_getElem?, ← hstep]
              congr 1
              omega
            exact ⟨step, hlast, not_lt.mp hcases, not_lt.mp hrate⟩

theorem decideCustomPromotion_promote {counts : Counts} (hn : counts.Nonneg)
    {custom : CustomPromotionSpec} (h : decideCustomPromotion counts custom = .promote) :
    counts.AllPassed := by
  unfold decideCustomPromotion at h
  obtain ⟨hpassed, hfailed, htimedOut, hpending⟩ := hn
  split at h
  · cases h
  · split at h
    · cases h
    · split at h
      · cases h
      · rename_i h1 h2 h3
        push Not at h2
        exact ⟨by omega, by omega, by omega, by omega⟩

/-- Two criteria together promote when each of those that are there does. -/
theorem combineActions_promote {data custom : Option PromotionAction} :
    combineActions data custom = .ok .promote ↔
      (∀ action ∈ data, action = .promote) ∧ (∀ action ∈ custom, action = .promote) ∧
        (data ≠ none ∨ custom ≠ none) := by
  rcases data with _ | d <;> rcases custom with _ | c <;> try cases d
  all_goals try cases c
  all_goals simp [combineActions]

/-! ## The step decides -/

/-- Every non-negative count meets the last step. -/
def ProgressiveSpec.LastStepFree (progressive : ProgressiveSpec) : Prop :=
  ∃ step ∈ progressive.steps.getLast?, step.observeCases ≤ 0 ∧ step.successRate ≤ 0

/-- **The step stays among the steps**, where a progressive strategy decides on data: it is one of
them, unless the last one asks for nothing. -/
def StepCovered (bgd : BlueGreenDeployment) (currentStep : Option Int) : Prop :=
  ∀ promotion ∈ bgd.spec.promotion, promotion.data ≠ none →
    promotion.strategy.strategyType = .progressive →
      ∀ progressive ∈ promotion.strategy.progressive,
        ProgressiveStrategy.stepIdx currentStep < progressive.steps.length ∨
          progressive.LastStepFree

theorem Counts.Nonneg.zero : Counts.zero.Nonneg := ⟨le_rfl, le_rfl, le_rfl, le_rfl⟩

theorem Counts.Nonneg.total {counts : Counts} (h : counts.Nonneg) : 0 ≤ counts.total := by
  obtain ⟨hpassed, hfailed, htimedOut, _⟩ := h
  unfold Counts.total
  omega

/-- The last step is met by every count exactly when it is met without a case. -/
theorem ProgressiveSpec.metBy_zero_iff {progressive : ProgressiveSpec} :
    progressive.MetBy .zero ↔ progressive.LastStepFree := by
  have hrate : rateOf Counts.zero.passed Counts.zero.total = 0 := rfl
  constructor
  · rintro ⟨step, hlast, hmet⟩
    exact ⟨step, hlast, hmet.cases, hrate ▸ hmet.rate⟩
  · rintro ⟨step, hlast, hcases, hfree⟩
    exact ⟨step, hlast, hcases, hrate ▸ hfree⟩

theorem ProgressiveSpec.LastStepFree.metBy {progressive : ProgressiveSpec}
    (h : progressive.LastStepFree) {counts : Counts} (hn : counts.Nonneg) :
    progressive.MetBy counts := by
  obtain ⟨step, hlast, hcases, hrate⟩ := h
  exact ⟨step, hlast, hcases.trans hn.total, hrate.trans (rateOf_nonneg hn.passed)⟩

section Decision

variable {promotion : PromotionSpec} {data : DataPromotionSpec} {counts : Counts}
  {currentStep : Option Int}

/-- What a promotion by the data criterion rests on, the step being covered. -/
theorem dataMet_of_promote (hn : counts.Nonneg)
    (hcovered : promotion.strategy.strategyType = .progressive →
      ∀ progressive ∈ promotion.strategy.progressive,
        ProgressiveStrategy.stepIdx currentStep < progressive.steps.length ∨
          progressive.LastStepFree)
    (h : decideDataPromotion promotion data counts currentStep = .ok .promote) :
    promotion.DataMet data counts := by
  unfold decideDataPromotion at h
  unfold PromotionSpec.DataMet
  cases hs : promotion.strategy.strategyType with
  | hardSwitch =>
    simp only [hs, Except.ok.injEq] at h
    exact HardSwitchStrategy.meets_of_promote h
  | progressive =>
    cases hp : promotion.strategy.progressive with
    | none => simp [hs, hp] at h
    | some progressive =>
      simp only [hs, hp, Except.ok.injEq] at h
      refine ⟨progressive, rfl, ?_⟩
      rcases ProgressiveStrategy.of_promote h with hpast | hmet
      · have hfree := (hcovered hs progressive hp).resolve_left (not_lt.mpr hpast)
        exact hfree.metBy hn
      · exact hmet

/-- With positive rates a met data criterion has a passed case. -/
theorem PromotionSpec.DataMet.passed (h : promotion.DataMet data counts)
    (hd : promotion.data = some data) (hrates : promotion.RatesPositive) :
    1 ≤ counts.passed := by
  unfold PromotionSpec.DataMet at h
  unfold PromotionSpec.RatesPositive at hrates
  cases hs : promotion.strategy.strategyType with
  | hardSwitch =>
    simp only [hs] at h hrates
    exact h.passed (hrates data hd)
  | progressive =>
    simp only [hs] at h hrates
    obtain ⟨progressive, hp, step, hlast, hmet⟩ := h
    exact hmet.passed (hrates progressive hp step (List.mem_of_getLast? hlast))

/-- Past the last step the data criterion promotes without a case. -/
theorem decideDataPromotion_past {progressive : ProgressiveSpec}
    (hs : promotion.strategy.strategyType = .progressive)
    (hp : promotion.strategy.progressive = some progressive)
    (hpast : progressive.steps.length ≤ ProgressiveStrategy.stepIdx currentStep) :
    decideDataPromotion promotion data counts currentStep = .ok .promote := by
  unfold decideDataPromotion
  have hnone : progressive.steps[ProgressiveStrategy.stepIdx currentStep]? = none :=
    List.getElem?_eq_none_iff.mpr hpast
  simp [hs, hp, ProgressiveStrategy.fromSteps, ProgressiveStrategy.decide, hnone]

end Decision

/-- A promotion is decided where each criterion that is there promotes. -/
theorem decidePromotionAction_promote {bgd : BlueGreenDeployment} {promotion : PromotionSpec}
    (hp : bgd.spec.promotion = some promotion) {dataCounts customCounts : Counts}
    {currentStep : Option Int} :
    decidePromotionAction bgd dataCounts customCounts currentStep = .ok .promote ↔
      (∀ data ∈ promotion.data,
        decideDataPromotion promotion data dataCounts currentStep = .ok .promote) ∧
      (∀ custom ∈ promotion.custom, decideCustomPromotion customCounts custom = .promote) ∧
      (promotion.data ≠ none ∨ promotion.custom ≠ none) := by
  unfold decidePromotionAction
  simp only [hp]
  cases hd : promotion.data with
  | none =>
    rw [combineActions_promote]
    simp
  | some data =>
    cases hdata : decideDataPromotion promotion data dataCounts currentStep with
    | error e => simp [hdata]
    | ok action =>
      simp only [hdata]
      rw [combineActions_promote]
      simp [hdata]

/-- **Promotion needs evidence** exactly where the step is covered. -/
theorem promotes_on_evidence_iff (bgd : BlueGreenDeployment) (currentStep : Option Int) :
    PromotesOnEvidence bgd currentStep ↔ StepCovered bgd currentStep := by
  constructor
  · intro h promotion hp hdata hs progressive hprogressive
    -- no data case at all, and one custom case that has passed
    by_contra hcovered
    push Not at hcovered
    obtain ⟨hpast, hlast⟩ := hcovered
    have hone : ({ Counts.zero with passed := 1 } : Counts).Nonneg :=
      ⟨zero_le_one, le_rfl, le_rfl, le_rfl⟩
    obtain ⟨_, hp', hevidence⟩ := h .zero { Counts.zero with passed := 1 } .zero hone
      ((decidePromotionAction_promote hp).mpr
        ⟨fun data _ => decideDataPromotion_past hs hprogressive hpast,
          fun _ _ => by simp [decideCustomPromotion, Counts.zero], .inl hdata⟩)
    cases hp.symm.trans hp'
    obtain ⟨data, hd⟩ := Option.ne_none_iff_exists'.mp hdata
    have hmet := hevidence.data data hd
    simp only [PromotionSpec.DataMet, hs] at hmet
    obtain ⟨_, hprogressive', hmet⟩ := hmet
    cases hprogressive.symm.trans hprogressive'
    exact hlast (ProgressiveSpec.metBy_zero_iff.mp hmet)
  · intro h dataCounts customCounts hdataCounts hcustomCounts hpromote
    cases hp : bgd.spec.promotion with
    | none => simp [decidePromotionAction, hp] at hpromote
    | some promotion =>
      obtain ⟨hdata, hcustom, hsome⟩ := (decidePromotionAction_promote hp).mp hpromote
      have hmet : ∀ data ∈ promotion.data, promotion.DataMet data dataCounts := by
        intro data hd
        refine dataMet_of_promote hdataCounts ?_ (hdata data hd)
        exact h promotion hp (by rw [hd]; simp)
      have hall : ∀ _ ∈ promotion.custom, customCounts.AllPassed := by
        intro custom hc
        exact decideCustomPromotion_promote hcustomCounts (hcustom custom hc)
      refine ⟨promotion, rfl, hmet, hall, fun hrates => ?_⟩
      cases hd : promotion.data with
      | some data => exact .inl ((hmet data hd).passed hd hrates)
      | none =>
        obtain ⟨custom, hc⟩ := Option.ne_none_iff_exists'.mp (hsome.resolve_left fun hne => hne hd)
        exact .inr (hall custom hc).passed

/-! ## A progressive strategy without steps -/

/-- The sample with a progressive strategy that lists no steps. -/
def Sample.stepless : BlueGreenDeployment :=
  { bgd .observing with
    spec := { spec with
      promotion := some ⟨some ⟨none, none, none⟩, none, ⟨.progressive, some ⟨[], true, none⟩⟩⟩ } }

/-- It is promoted before the first case is registered. -/
theorem stepless_promotes_without_case : ¬ PromotesOnEvidence Sample.stepless none := by
  intro h
  obtain ⟨promotion, hp, hevidence⟩ := h .zero .zero .zero .zero (by rfl)
  cases hp
  obtain ⟨progressive, hprogressive, step, hlast, _⟩ := hevidence.data _ rfl
  cases hprogressive
  cases hlast

end FluidBG
