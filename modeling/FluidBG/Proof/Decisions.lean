import FluidBG.Proof.Evidence
import Mathlib.Tactic.Linarith
/-!
# The decisions of the strategies

What a hard switch and a progressive strategy decide, as a function of the counts. Both look at
three things: whether enough cases are finalized, whether enough of those have passed, and whether
passing every pending case could still reach the rate. They differ in when they look at the last
one, and that difference is what the statements at the end are about.

A rate is the exact quotient. `bestRate` is the one that is reached when every pending case passes.
-/

set_option autoImplicit false

namespace FluidBG

/-! ## Rates -/

/-- A rate with a case behind it is the quotient. -/
theorem rateOf_of_pos {passed total : Int} (h : 0 < total) :
    rateOf passed total = (passed : Rat) / (total : Rat) := by
  unfold rateOf
  rw [if_pos h]

theorem rateOf_zero (passed : Int) : rateOf passed 0 = 0 := by
  unfold rateOf
  simp

/-- More passed cases of as many raise the rate. -/
theorem rateOf_mono {passed passed' total : Int} (h : passed ≤ passed') :
    rateOf passed total ≤ rateOf passed' total := by
  unfold rateOf
  split
  · rename_i htotal
    have htotal' : (0 : Rat) < (total : Rat) := by exact_mod_cast htotal
    have hpassed : (passed : Rat) ≤ (passed' : Rat) := by exact_mod_cast h
    exact div_le_div_of_nonneg_right hpassed htotal'.le
  · exact le_refl 0

/-- **Passed cases on top raise the rate.** -/
theorem rateOf_add {passed total more : Int} (hpassed : 0 ≤ passed) (htotal : passed ≤ total)
    (hmore : 0 ≤ more) : rateOf passed total ≤ rateOf (passed + more) (total + more) := by
  by_cases hzero : total = 0
  · subst hzero
    rw [rateOf_zero]
    exact rateOf_nonneg (by omega)
  · have hpos : 0 < total := by omega
    rw [rateOf_of_pos hpos, rateOf_of_pos (by omega)]
    have hpos' : (0 : Rat) < (total : Rat) := by exact_mod_cast hpos
    have hsum : (0 : Rat) < ((total + more : Int) : Rat) := by exact_mod_cast (by omega)
    rw [div_le_div_iff₀ hpos' hsum]
    -- both sides share `passed * total`; what is left is `passed * more ≤ more * total`
    have hle : (passed : Rat) ≤ (total : Rat) := by exact_mod_cast htotal
    have hmore' : (0 : Rat) ≤ (more : Rat) := by exact_mod_cast hmore
    have hmul : (passed : Rat) * more ≤ (total : Rat) * more :=
      mul_le_mul_of_nonneg_right hle hmore'
    push_cast
    linarith

/-- **Cases on top that did not pass lower the rate.** -/
theorem rateOf_miss {passed total more : Int} (hpassed : 0 ≤ passed) (htotal : passed ≤ total)
    (hmore : 0 ≤ more) : rateOf passed (total + more) ≤ rateOf passed total := by
  by_cases hzero : total = 0
  · have hnone : passed = 0 := by omega
    subst hzero
    subst hnone
    rw [rateOf_zero]
    unfold rateOf
    split <;> simp
  · have hpos : 0 < total := by omega
    rw [rateOf_of_pos hpos, rateOf_of_pos (by omega)]
    have hpos' : (0 : Rat) < (total : Rat) := by exact_mod_cast hpos
    have hpassed' : (0 : Rat) ≤ (passed : Rat) := by exact_mod_cast hpassed
    have hsum : (total : Rat) ≤ ((total + more : Int) : Rat) := by exact_mod_cast (by omega)
    exact div_le_div_of_nonneg_left hpassed' hpos' hsum

namespace Counts

/-- The rate when every pending case passes. -/
def bestRate (counts : Counts) : Rat :=
  ((counts.passed + counts.pending : Int) : Rat) /
    ((counts.passed + counts.failed + counts.timedOut + counts.pending : Int) : Rat)

/-- Enough cases are finalized, and too few of them have passed. -/
structure Fails (counts : Counts) (cases : Int) (successRate : Rat) : Prop where
  cases : cases ≤ counts.total
  rate : rateOf counts.passed counts.total < successRate

section Nonneg

variable {counts : Counts} (h : counts.Nonneg)

include h

theorem Nonneg.bestTotal : 0 ≤ counts.bestTotal := by
  have htotal := h.total
  have hpending := h.pending
  unfold Counts.bestTotal
  omega

theorem Nonneg.passed_le_total : counts.passed ≤ counts.total := by
  have hfailed := h.failed
  have htimedOut := h.timedOut
  unfold Counts.total
  omega

theorem Nonneg.bestRate_eq :
    counts.bestRate = rateOf (counts.passed + counts.pending) counts.bestTotal := by
  have hbest : counts.passed + counts.failed + counts.timedOut + counts.pending =
      counts.bestTotal := rfl
  unfold bestRate
  rw [hbest]
  by_cases hzero : counts.bestTotal = 0
  · rw [hzero, rateOf_zero]
    simp
  · have hpos := h.bestTotal
    rw [rateOf_of_pos (by omega)]

/-- The best rate is at least the rate there is. -/
theorem Nonneg.rate_le_bestRate : rateOf counts.passed counts.total ≤ counts.bestRate := by
  rw [h.bestRate_eq]
  exact rateOf_add h.passed h.passed_le_total h.pending

end Nonneg

end Counts

/-! ## What both strategies have in common -/

/-- Roll back early, wait for enough cases, and then act on their rate. -/
def judge (early : Prop) [Decidable early] (cases : Int) (successRate : Rat)
    (met failed : PromotionAction) (counts : Counts) : PromotionAction :=
  if early then .rollback
  else if counts.total < cases then .continueObserving
  else if successRate ≤ rateOf counts.passed counts.total then met
  else failed

section Judge

variable {early : Prop} [Decidable early] {cases : Int} {successRate : Rat}
  {met failed : PromotionAction} {counts : Counts}

theorem judge_early (h : early) : judge early cases successRate met failed counts = .rollback := by
  unfold judge
  rw [if_pos h]

theorem judge_few (h : ¬ early) (hcases : counts.total < cases) :
    judge early cases successRate met failed counts = .continueObserving := by
  unfold judge
  rw [if_neg h, if_pos hcases]

theorem judge_met (h : ¬ early) (hmet : counts.Meets cases successRate) :
    judge early cases successRate met failed counts = met := by
  unfold judge
  rw [if_neg h, if_neg (not_lt.mpr hmet.cases), if_pos hmet.rate]

theorem judge_failed (h : ¬ early) (hfails : counts.Fails cases successRate) :
    judge early cases successRate met failed counts = failed := by
  unfold judge
  rw [if_neg h, if_neg (not_lt.mpr hfails.cases), if_neg (not_le.mpr hfails.rate)]

omit [Decidable early] in
/-- Too few cases are finalized, or they decide. -/
theorem few_or_met_or_fails (counts : Counts) (cases : Int) (successRate : Rat) :
    counts.total < cases ∨ counts.Meets cases successRate ∨ counts.Fails cases successRate := by
  by_cases hcases : counts.total < cases
  · exact .inl hcases
  · by_cases hrate : successRate ≤ rateOf counts.passed counts.total
    · exact .inr (.inl ⟨not_lt.mp hcases, hrate⟩)
    · exact .inr (.inr ⟨not_lt.mp hcases, not_le.mp hrate⟩)

theorem judge_eq_rollback_iff (hmet : met ≠ .rollback) :
    judge early cases successRate met failed counts = .rollback ↔
      early ∨ (counts.Fails cases successRate ∧ failed = .rollback) := by
  by_cases hearly : early
  · rw [judge_early hearly]
    simp [hearly]
  · rcases few_or_met_or_fails counts cases successRate with hfew | hmeets | hfails
    · rw [judge_few hearly hfew]
      have hnot : ¬ counts.Fails cases successRate := by
        intro hf
        exact absurd hf.cases (not_le.mpr hfew)
      simp [hearly, hnot]
    · rw [judge_met hearly hmeets]
      have hnot : ¬ counts.Fails cases successRate := by
        intro hf
        exact absurd hf.rate (not_lt.mpr hmeets.rate)
      simp [hearly, hnot, hmet]
    · rw [judge_failed hearly hfails]
      simp [hearly, hfails]

/-- A sample that meets its rate is acted on, since passing the pending cases can only raise it. -/
theorem judge_eq_met_iff (h : counts.Nonneg) (hearly : early → counts.bestRate < successRate)
    (hrollback : met ≠ .rollback) (hcontinue : met ≠ .continueObserving) (hfailed : failed ≠ met) :
    judge early cases successRate met failed counts = met ↔ counts.Meets cases successRate := by
  constructor
  · intro heq
    have hnot : ¬ early := by
      intro he
      rw [judge_early he] at heq
      exact hrollback heq.symm
    rcases few_or_met_or_fails counts cases successRate with hfew | hmeets | hfails
    · rw [judge_few hnot hfew] at heq
      exact absurd heq.symm hcontinue
    · exact hmeets
    · rw [judge_failed hnot hfails] at heq
      exact absurd heq hfailed
  · intro hmeets
    have hnot : ¬ early := by
      intro he
      exact absurd (hmeets.rate.trans h.rate_le_bestRate) (not_le.mpr (hearly he))
    exact judge_met hnot hmeets

end Judge

/-! ## What each strategy decides -/

namespace HardSwitchStrategy

/-- The registered cases are enough, and passing every pending one is not. -/
def Early (s : HardSwitchStrategy) (counts : Counts) : Prop :=
  0 < counts.pending ∧ s.minTestCases ≤ counts.bestTotal ∧ counts.bestRate < s.successRate

instance (s : HardSwitchStrategy) (counts : Counts) : Decidable (s.Early counts) :=
  inferInstanceAs (Decidable (_ ∧ _ ∧ _))

variable {s : HardSwitchStrategy} {counts : Counts}

theorem early_iff (h : counts.Nonneg) :
    counts.pending > 0 ∧ s.hopeless counts = true ↔ s.Early counts := by
  refine and_congr_right fun hp => ?_
  have htotal := h.total
  have hpos : counts.bestTotal ≠ 0 := by
    unfold Counts.bestTotal
    omega
  unfold hopeless bestPossibleRate
  by_cases hfew : counts.bestTotal < s.minTestCases
  · simp [hfew]
  · have hnone : ¬ (counts.bestTotal < s.minTestCases ∨ counts.bestTotal = 0) := by omega
    have hbest : counts.bestRate =
        ((counts.passed + counts.pending : Int) : Rat) / (counts.bestTotal : Rat) := rfl
    rw [if_neg hnone, hbest]
    simp only [not_lt] at hfew
    simp [hfew]

theorem decide_eq (h : counts.Nonneg) : s.decide counts =
    judge (s.Early counts) s.minTestCases s.successRate .promote .rollback counts := by
  unfold decide judge
  simp only [early_iff h, ge_iff_le]

end HardSwitchStrategy

namespace ProgressiveStrategy

/-- The step rolls back, and passing every pending case is not enough for it. -/
def Early (s : ProgressiveStrategy) (step : ProgressiveStep) (counts : Counts) : Prop :=
  0 < counts.pending ∧ s.rollbackOnStepFailure = true ∧ counts.bestRate < step.successRate

instance (s : ProgressiveStrategy) (step : ProgressiveStep) (counts : Counts) :
    Decidable (s.Early step counts) :=
  inferInstanceAs (Decidable (_ ∧ _ ∧ _))

/-- What follows a step whose sample meets its rate. -/
def climb (s : ProgressiveStrategy) (i : Nat) : PromotionAction :=
  match s.steps[i + 1]? with
  | none => .promote
  | some nextStep => .advanceStep (asI32 (i + 1)) nextStep.trafficPercent

/-- What follows a step whose sample does not. -/
def giveUp (s : ProgressiveStrategy) : PromotionAction :=
  if s.rollbackOnStepFailure then .rollback else .continueObserving

variable {s : ProgressiveStrategy} {counts : Counts} {currentStep : Option Int}

theorem climb_of_last {i : Nat} (h : s.steps[i + 1]? = none) : s.climb i = .promote := by
  unfold climb
  rw [h]

theorem climb_of_next {i : Nat} {nextStep : ProgressiveStep} (h : s.steps[i + 1]? = some nextStep) :
    s.climb i = .advanceStep (asI32 (i + 1)) nextStep.trafficPercent := by
  unfold climb
  rw [h]

theorem climb_cases (s : ProgressiveStrategy) (i : Nat) :
    s.climb i = .promote ∨ ∃ step trafficPercent, s.climb i = .advanceStep step trafficPercent := by
  cases h : s.steps[i + 1]? with
  | none => exact .inl (climb_of_last h)
  | some nextStep => exact .inr ⟨_, _, climb_of_next h⟩

theorem climb_ne_rollback (s : ProgressiveStrategy) (i : Nat) : s.climb i ≠ .rollback := by
  rcases s.climb_cases i with h | ⟨step, trafficPercent, h⟩
  · simp [h]
  · simp [h]

theorem climb_ne_continueObserving (s : ProgressiveStrategy) (i : Nat) :
    s.climb i ≠ .continueObserving := by
  rcases s.climb_cases i with h | ⟨step, trafficPercent, h⟩
  · simp [h]
  · simp [h]

theorem bestPossibleRate_eq (counts : Counts) : bestPossibleRate counts = counts.bestRate := by
  have hbest : counts.bestRate =
      ((counts.passed + counts.pending : Int) : Rat) / (counts.bestTotal : Rat) := rfl
  unfold bestPossibleRate
  rw [hbest]
  by_cases hzero : counts.bestTotal = 0
  · rw [if_pos hzero, hzero]
    simp
  · rw [if_neg hzero]

/-- Past its last step a strategy promotes. -/
theorem decide_past (hstep : s.steps[stepIdx currentStep]? = none) :
    s.decide counts currentStep = .promote := by
  unfold decide
  simp only [hstep]

theorem decide_eq {step : ProgressiveStep} (hstep : s.steps[stepIdx currentStep]? = some step) :
    s.decide counts currentStep =
      judge (s.Early step counts) step.observeCases step.successRate
        (s.climb (stepIdx currentStep)) s.giveUp counts := by
  unfold decide judge Early climb giveUp
  simp only [hstep, bestPossibleRate_eq, gt_iff_lt]
  refine if_congr Iff.rfl rfl (if_congr Iff.rfl rfl ?_)
  by_cases hrate : rateOf counts.passed counts.total < step.successRate
  · exact (if_pos hrate).trans (if_neg (not_le.mpr hrate)).symm
  · exact (if_neg hrate).trans (if_pos (not_lt.mp hrate)).symm

end ProgressiveStrategy

end FluidBG
