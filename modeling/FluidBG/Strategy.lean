import FluidBG.Crd
import FluidBG.Store
import Mathlib.Algebra.Order.Ring.Rat
/-!
# Promotion strategies

`strategy/`: what to do next with a rollout, from the counts of its test cases. A `current_step`
is an `i32` that the code casts to `usize`, so a negative one becomes a huge index.
-/

set_option autoImplicit false

namespace FluidBG

inductive PromotionAction where
  | continueObserving
  | promote
  | rollback
  | advanceStep (step trafficPercent : Int)
  deriving DecidableEq, Repr

/-- `passed as f64 / total as f64`, and zero without cases. -/
def rateOf (passed total : Int) : Rat :=
  if total > 0 then (passed : Rat) / (total : Rat) else 0

/-- The finalized cases. -/
def Counts.total (counts : Counts) : Int := counts.passed + counts.failed + counts.timedOut

/-- Every registered case. -/
def Counts.bestTotal (counts : Counts) : Int := counts.total + counts.pending

structure HardSwitchStrategy where
  minTestCases : Int
  successRate : Rat

namespace HardSwitchStrategy

def fromCriteria (criteria : DataPromotionSpec) : HardSwitchStrategy where
  minTestCases := criteria.minTestCases.getD 100
  successRate := criteria.successRate.getD (98 / 100)

def bestPossibleRate (s : HardSwitchStrategy) (counts : Counts) : Option Rat :=
  if counts.bestTotal < s.minTestCases ∨ counts.bestTotal = 0 then none
  else some (((counts.passed + counts.pending : Int) : Rat) / (counts.bestTotal : Rat))

/-- No outcome of the pending cases can reach the threshold. -/
def hopeless (s : HardSwitchStrategy) (counts : Counts) : Bool :=
  match s.bestPossibleRate counts with
  | some rate => rate < s.successRate
  | none => false

def decide (s : HardSwitchStrategy) (counts : Counts) : PromotionAction :=
  if counts.pending > 0 ∧ s.hopeless counts then .rollback
  else if counts.total < s.minTestCases then .continueObserving
  else if rateOf counts.passed counts.total ≥ s.successRate then .promote
  else .rollback

end HardSwitchStrategy

structure ProgressiveStrategy where
  steps : List ProgressiveStep
  rollbackOnStepFailure : Bool

namespace ProgressiveStrategy

def fromSteps (spec : ProgressiveSpec) : ProgressiveStrategy :=
  ⟨spec.steps, spec.rollbackOnStepFailure⟩

def bestPossibleRate (counts : Counts) : Rat :=
  if counts.bestTotal = 0 then 0
  else ((counts.passed + counts.pending : Int) : Rat) / (counts.bestTotal : Rat)

/-- `current_step.unwrap_or(0) as usize`. -/
def stepIdx (currentStep : Option Int) : Nat :=
  ((currentStep.getD 0) % 18446744073709551616).toNat

def decide (s : ProgressiveStrategy) (counts : Counts) (currentStep : Option Int) :
    PromotionAction :=
  let stepIdx := stepIdx currentStep
  match s.steps[stepIdx]? with
  | none => .promote
  | some step =>
    if counts.pending > 0 ∧ s.rollbackOnStepFailure ∧ bestPossibleRate counts < step.successRate
    then .rollback
    else if counts.total < step.observeCases then .continueObserving
    else if rateOf counts.passed counts.total < step.successRate then
      if s.rollbackOnStepFailure then .rollback else .continueObserving
    else match s.steps[stepIdx + 1]? with
      | none => .promote
      | some nextStep => .advanceStep (asI32 (stepIdx + 1)) nextStep.trafficPercent

end ProgressiveStrategy

end FluidBG
