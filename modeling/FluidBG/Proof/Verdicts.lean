import FluidBG.Proof.Decisions
/-!
# Decisions as the verdicts come in

How a decision changes when a pending case is finalized, and how the two strategies compare. Both
may roll back while cases are pending whose passing would still reach the rate, because a complete
sample is judged without them. The progressive strategy looks at the best rate from the first
pending case on, a hard switch only once enough cases are registered; so an early rollback of a
step can be taken back by the last verdict, and one step is not quite a hard switch.
-/

set_option autoImplicit false

namespace FluidBG

/-! ## Rolling back only when hopeless -/

namespace Counts

/-- A complete sample fails, and passing every pending case would reach the rate. -/
structure Recoverable (counts : Counts) (cases : Int) (successRate : Rat) : Prop where
  fails : counts.Fails cases successRate
  best : successRate ≤ counts.bestRate

end Counts

theorem judge_hopeless_iff {early : Prop} [Decidable early] {cases : Int} {successRate : Rat}
    {met : PromotionAction} {counts : Counts} (hearly : early → counts.bestRate < successRate)
    (hmet : met ≠ .rollback) :
    (judge early cases successRate met .rollback counts = .rollback →
      counts.bestRate < successRate) ↔ ¬ counts.Recoverable cases successRate := by
  rw [judge_eq_rollback_iff hmet]
  constructor
  · intro h hrecoverable
    have hlow := h (.inr ⟨hrecoverable.fails, rfl⟩)
    exact absurd hrecoverable.best (not_le.mpr hlow)
  · intro h hrollback
    rcases hrollback with he | ⟨hfails, -⟩
    · exact hearly he
    · by_contra hbest
      exact h ⟨hfails, not_lt.mp hbest⟩

/-- **A rollback is hopeless** exactly where no complete and failing sample has pending cases that
could still make up for it. -/
theorem rollback_hopeless_iff (counts : Counts) (h : counts.Nonneg) :
    (∀ s : HardSwitchStrategy,
      ((s.decide counts = .rollback → counts.bestRate < s.successRate) ↔
        ¬ counts.Recoverable s.minTestCases s.successRate)) ∧
    (∀ (s : ProgressiveStrategy) (currentStep : Option Int) (step : ProgressiveStep),
      s.rollbackOnStepFailure = true →
      s.steps[ProgressiveStrategy.stepIdx currentStep]? = some step →
      ((s.decide counts currentStep = .rollback → counts.bestRate < step.successRate) ↔
        ¬ counts.Recoverable step.observeCases step.successRate)) := by
  constructor
  · intro s
    rw [s.decide_eq h]
    exact judge_hopeless_iff (fun he => he.2.2) (by simp)
  · intro s currentStep step hrollback hstep
    have hfailed : s.giveUp = .rollback := by
      unfold ProgressiveStrategy.giveUp
      rw [if_pos hrollback]
    rw [s.decide_eq hstep, hfailed]
    exact judge_hopeless_iff (fun he => he.2.2) (s.climb_ne_rollback _)

namespace Sample

/-- Half of the cases have to pass, and one is enough. -/
def halfOfOne : HardSwitchStrategy := ⟨1, 1 / 2⟩

/-- The same as a step. -/
def halfOfOneStep : ProgressiveStrategy := ⟨[⟨100, 1, 1 / 2⟩], true⟩

/-- One case has failed, and one is pending. -/
def oneFailedOnePending : Counts := ⟨0, 1, 0, 1⟩

theorem oneFailedOnePending_nonneg : oneFailedOnePending.Nonneg := by
  constructor <;> decide

end Sample

theorem rollback_hopeless_all_failed :
    (Sample.halfOfOne.decide ⟨0, 2, 0, 1⟩ = .rollback → Counts.bestRate ⟨0, 2, 0, 1⟩ < 1 / 2) ∧
    (Sample.halfOfOneStep.decide ⟨0, 2, 0, 1⟩ none = .rollback →
      Counts.bestRate ⟨0, 2, 0, 1⟩ < 1 / 2) := by
  have hnonneg : Counts.Nonneg ⟨0, 2, 0, 1⟩ := by
    constructor <;> decide
  have hnot : ¬ Counts.Recoverable ⟨0, 2, 0, 1⟩ 1 (1 / 2) := by
    intro h
    exact absurd h.best (by decide +kernel)
  obtain ⟨hhard, hprogressive⟩ := rollback_hopeless_iff ⟨0, 2, 0, 1⟩ hnonneg
  exact ⟨(hhard Sample.halfOfOne).mpr hnot,
    (hprogressive Sample.halfOfOneStep none ⟨100, 1, 1 / 2⟩ rfl rfl).mpr hnot⟩

/-- With one case failed and one pending the rate of one half is still in reach. -/
theorem rollback_with_hope :
    ¬ ((∀ (s : HardSwitchStrategy) (counts : Counts), counts.Nonneg →
        s.decide counts = .rollback → counts.bestRate < s.successRate) ∧
      (∀ (s : ProgressiveStrategy) (counts : Counts) (currentStep : Option Int)
        (step : ProgressiveStep), counts.Nonneg → s.rollbackOnStepFailure = true →
        s.steps[ProgressiveStrategy.stepIdx currentStep]? = some step →
        s.decide counts currentStep = .rollback → counts.bestRate < step.successRate)) := by
  intro h
  have hlow := h.1 Sample.halfOfOne Sample.oneFailedOnePending Sample.oneFailedOnePending_nonneg
    (by decide +kernel)
  exact absurd hlow (by decide +kernel)

/-! ## Verdicts -/

namespace Counts

/-- One pending case passes. -/
def pass (counts : Counts) : Counts :=
  { counts with passed := counts.passed + 1, pending := counts.pending - 1 }

/-- One pending case fails. -/
def fail (counts : Counts) : Counts :=
  { counts with failed := counts.failed + 1, pending := counts.pending - 1 }

/-- One pending case times out. -/
def timeOut (counts : Counts) : Counts :=
  { counts with timedOut := counts.timedOut + 1, pending := counts.pending - 1 }

/-- One failed case is a passed one instead. -/
def repair (counts : Counts) : Counts :=
  { counts with passed := counts.passed + 1, failed := counts.failed - 1 }

/-- One more case is pending. -/
def register (counts : Counts) : Counts := { counts with pending := counts.pending + 1 }

/-- One pending case is finalized and has not passed. -/
structure Misses (counts counts' : Counts) : Prop where
  nonneg : counts'.Nonneg
  passed : counts'.passed = counts.passed
  pending : counts'.pending = counts.pending - 1
  total : counts'.total = counts.total + 1

section Verdicts

variable {counts counts' : Counts} {cases : Int} {successRate : Rat}

theorem Nonneg.pass (h : counts.Nonneg) (hp : 1 ≤ counts.pending) : counts.pass.Nonneg := by
  obtain ⟨hpassed, hfailed, htimedOut, hpending⟩ := h
  constructor <;> simp only [Counts.pass] <;> omega

theorem Nonneg.repair (h : counts.Nonneg) (hf : 1 ≤ counts.failed) : counts.repair.Nonneg := by
  obtain ⟨hpassed, hfailed, htimedOut, hpending⟩ := h
  constructor <;> simp only [Counts.repair] <;> omega

theorem Nonneg.register (h : counts.Nonneg) : counts.register.Nonneg := by
  obtain ⟨hpassed, hfailed, htimedOut, hpending⟩ := h
  constructor <;> simp only [Counts.register] <;> omega

theorem misses_fail (h : counts.Nonneg) (hp : 1 ≤ counts.pending) : counts.Misses counts.fail := by
  obtain ⟨hpassed, hfailed, htimedOut, hpending⟩ := h
  refine ⟨?_, rfl, rfl, ?_⟩
  · constructor <;> simp only [fail] <;> omega
  · simp only [fail, total]
    omega

theorem misses_timeOut (h : counts.Nonneg) (hp : 1 ≤ counts.pending) :
    counts.Misses counts.timeOut := by
  obtain ⟨hpassed, hfailed, htimedOut, hpending⟩ := h
  refine ⟨?_, rfl, rfl, ?_⟩
  · constructor <;> simp only [timeOut] <;> omega
  · simp only [timeOut, total]
    omega

/-- A passed case on top keeps a sample that meets its rate. -/
theorem Meets.pass (hmeets : counts.Meets cases successRate) (h : counts.Nonneg) :
    counts.pass.Meets cases successRate := by
  have htotal : counts.pass.total = counts.total + 1 := by
    simp only [Counts.pass, Counts.total]
    omega
  have hcases := hmeets.cases
  refine ⟨by omega, hmeets.rate.trans ?_⟩
  rw [htotal]
  exact rateOf_add h.passed h.passed_le_total (by omega)

theorem total_repair (counts : Counts) : counts.repair.total = counts.total := by
  simp only [Counts.repair, Counts.total]
  omega

theorem bestTotal_repair (counts : Counts) : counts.repair.bestTotal = counts.bestTotal := by
  unfold bestTotal
  rw [total_repair]
  rfl

theorem rate_le_repair (counts : Counts) : rateOf counts.passed counts.total ≤
    rateOf counts.repair.passed counts.repair.total := by
  rw [total_repair]
  refine rateOf_mono ?_
  simp only [Counts.repair]
  omega

theorem Meets.repair (hmeets : counts.Meets cases successRate) :
    counts.repair.Meets cases successRate := by
  refine ⟨?_, hmeets.rate.trans counts.rate_le_repair⟩
  rw [total_repair]
  exact hmeets.cases

/-- What fails with a passed case more has failed without it. -/
theorem Fails.of_repair (hfails : counts.repair.Fails cases successRate) :
    counts.Fails cases successRate := by
  refine ⟨?_, counts.rate_le_repair.trans_lt hfails.rate⟩
  rw [← total_repair]
  exact hfails.cases

theorem bestRate_le_repair (h : counts.Nonneg) (hrepair : counts.repair.Nonneg) :
    counts.bestRate ≤ counts.repair.bestRate := by
  rw [h.bestRate_eq, hrepair.bestRate_eq, bestTotal_repair]
  refine rateOf_mono ?_
  simp only [Counts.repair]
  omega

/-- A sample that fails goes on failing. -/
theorem Misses.fails (hm : counts.Misses counts') (h : counts.Nonneg)
    (hfails : counts.Fails cases successRate) : counts'.Fails cases successRate := by
  have hcases := hfails.cases
  have htotal := hm.total
  refine ⟨by omega, lt_of_le_of_lt ?_ hfails.rate⟩
  rw [hm.passed, htotal]
  exact rateOf_miss h.passed h.passed_le_total (by omega)

theorem Misses.bestTotal (hm : counts.Misses counts') : counts'.bestTotal = counts.bestTotal := by
  have htotal := hm.total
  have hpending := hm.pending
  unfold Counts.bestTotal
  omega

theorem Misses.bestRate_le (hm : counts.Misses counts') (h : counts.Nonneg) :
    counts'.bestRate ≤ counts.bestRate := by
  have hpassed := hm.passed
  have hpending := hm.pending
  rw [hm.nonneg.bestRate_eq, h.bestRate_eq, hm.bestTotal]
  exact rateOf_mono (by omega)

/-- The last pending case leaves the sample with the best rate there was, or a lower one. -/
theorem Misses.rate_le (hm : counts.Misses counts') (h : counts.Nonneg) :
    rateOf counts'.passed counts'.total ≤ counts.bestRate :=
  hm.nonneg.rate_le_bestRate.trans (hm.bestRate_le h)

theorem Nonneg.bestRate_le_register (h : counts.Nonneg) :
    counts.bestRate ≤ counts.register.bestRate := by
  have hpassed := h.passed_le_total
  have hbest : counts.register.bestTotal = counts.bestTotal + 1 := by
    simp only [Counts.register, Counts.bestTotal, Counts.total]
    omega
  have hsum : counts.register.passed + counts.register.pending =
      counts.passed + counts.pending + 1 := by
    simp only [Counts.register]
    omega
  rw [h.bestRate_eq, h.register.bestRate_eq, hbest, hsum]
  refine rateOf_add (Int.add_nonneg h.passed h.pending) ?_ (by omega)
  unfold Counts.bestTotal
  omega

end Verdicts

end Counts

/-! ## Decisions are monotone in the verdicts -/

/-- The rollout goes on: it is promoted, or climbs a step. -/
def PromotionAction.Forward : PromotionAction → Prop
  | .promote => True
  | .advanceStep _ _ => True
  | .rollback => False
  | .continueObserving => False

/-- **One verdict moves a decision its own way.** A passed case takes back nothing that has been
reached, one that did not pass no rollback, and a passed case in place of a failed one neither. -/
structure MonotoneAt (decide : Counts → PromotionAction) (counts : Counts) : Prop where
  pass : (decide counts).Forward → decide counts.pass = decide counts
  fail : decide counts = .rollback → decide counts.fail = .rollback
  timeOut : decide counts = .rollback → decide counts.timeOut = .rollback
  repair_forward : 1 ≤ counts.failed → (decide counts).Forward →
    decide counts.repair = decide counts
  repair_rollback : 1 ≤ counts.failed → decide counts ≠ .rollback →
    decide counts.repair ≠ .rollback

section Monotone

variable {early : Counts → Prop} [DecidablePred early] {cases : Int} {successRate : Rat}
  {met failed : PromotionAction} {counts counts' : Counts}

/-- Only a sample that meets its rate lets the rollout go on. -/
theorem judge_forward (hfailed : ¬ failed.Forward)
    (hforward : (judge (early counts) cases successRate met failed counts).Forward) :
    counts.Meets cases successRate := by
  by_cases he : early counts
  · rw [judge_early he] at hforward
    exact absurd hforward id
  · rcases few_or_met_or_fails counts cases successRate with hfew | hmeets | hfails
    · rw [judge_few he hfew] at hforward
      exact absurd hforward id
    · exact hmeets
    · rw [judge_failed he hfails] at hforward
      exact absurd hforward hfailed

theorem judge_of_meets (h : counts.Nonneg)
    (hearly : ∀ counts : Counts, early counts → counts.bestRate < successRate)
    (hmeets : counts.Meets cases successRate) :
    judge (early counts) cases successRate met failed counts = met := by
  refine judge_met (fun he => ?_) hmeets
  exact absurd (hmeets.rate.trans h.rate_le_bestRate) (not_le.mpr (hearly counts he))

variable (early) in
/-- A rollback stays one when a case is missed, unless the early one was for a sample that the last
pending case leaves incomplete. -/
theorem judge_misses (h : counts.Nonneg) (hm : counts.Misses counts')
    (hearly : ∀ counts : Counts, early counts → counts.bestRate < successRate)
    (hmet : met ≠ .rollback) (hfailed : early counts → failed = .rollback)
    (hkept : early counts → 0 < counts'.pending → early counts')
    (hlast : early counts → counts'.pending = 0 → cases ≤ counts'.total)
    (hrollback : judge (early counts) cases successRate met failed counts = .rollback) :
    judge (early counts') cases successRate met failed counts' = .rollback := by
  rw [judge_eq_rollback_iff hmet] at hrollback ⊢
  rcases hrollback with he | ⟨hfails, hf⟩
  · by_cases hp : 0 < counts'.pending
    · exact .inl (hkept he hp)
    · have hzero : counts'.pending = 0 := by
        have hnonneg := hm.nonneg.pending
        omega
      refine .inr ⟨⟨hlast he hzero, ?_⟩, hfailed he⟩
      exact lt_of_le_of_lt (hm.rate_le h) (hearly counts he)
  · exact .inr ⟨hm.fails h hfails, hf⟩

/-- What is not rolled back is not rolled back with a passed case in place of a failed one. -/
theorem judge_repair (hmet : met ≠ .rollback) (hkept : early counts.repair → early counts)
    (hrollback : judge (early counts) cases successRate met failed counts ≠ .rollback) :
    judge (early counts.repair) cases successRate met failed counts.repair ≠ .rollback := by
  intro hrepaired
  rw [judge_eq_rollback_iff hmet] at hrepaired
  refine hrollback ((judge_eq_rollback_iff hmet).mpr ?_)
  rcases hrepaired with he | ⟨hfails, hf⟩
  · exact .inl (hkept he)
  · exact .inr ⟨hfails.of_repair, hf⟩

variable (early) in
/-- All but the missed cases, which are left to the strategy. -/
theorem MonotoneAt.of_judge {decide : Counts → PromotionAction}
    (hdecide : ∀ counts : Counts, counts.Nonneg →
      decide counts = judge (early counts) cases successRate met failed counts)
    (h : counts.Nonneg) (hp : 1 ≤ counts.pending)
    (hearly : ∀ counts : Counts, early counts → counts.bestRate < successRate)
    (hmet : met.Forward) (hfailed : ¬ failed.Forward)
    (hkept : counts.repair.Nonneg → early counts.repair → early counts)
    (hfail : decide counts = .rollback → decide counts.fail = .rollback)
    (htimeOut : decide counts = .rollback → decide counts.timeOut = .rollback) :
    MonotoneAt decide counts where
  pass := by
    intro hforward
    have hpass := h.pass hp
    rw [hdecide counts h] at hforward ⊢
    rw [hdecide _ hpass]
    have hmeets := judge_forward hfailed hforward
    rw [judge_of_meets h hearly hmeets, judge_of_meets hpass hearly (hmeets.pass h)]
  fail := hfail
  timeOut := htimeOut
  repair_forward := by
    intro hf hforward
    have hrepair := h.repair hf
    rw [hdecide counts h] at hforward ⊢
    rw [hdecide _ hrepair]
    have hmeets := judge_forward hfailed hforward
    rw [judge_of_meets h hearly hmeets, judge_of_meets hrepair hearly hmeets.repair]
  repair_rollback := by
    intro hf hrollback
    have hrepair := h.repair hf
    have hne : met ≠ .rollback := by
      intro heq
      rw [heq] at hmet
      exact hmet
    rw [hdecide counts h] at hrollback
    rw [hdecide _ hrepair]
    exact judge_repair hne (hkept hrepair) hrollback

end Monotone

theorem HardSwitchStrategy.decide_misses {s : HardSwitchStrategy} {counts counts' : Counts}
    (h : counts.Nonneg) (hm : counts.Misses counts') (hrollback : s.decide counts = .rollback) :
    s.decide counts' = .rollback := by
  rw [s.decide_eq h] at hrollback
  rw [s.decide_eq hm.nonneg]
  refine judge_misses s.Early h hm (fun _ he => he.2.2) (by simp) (fun _ => rfl) ?_ ?_
    hrollback
  · intro he hp
    refine ⟨hp, ?_, lt_of_le_of_lt (hm.bestRate_le h) he.2.2⟩
    rw [hm.bestTotal]
    exact he.2.1
  · intro he hzero
    have hcases := he.2.1
    have hbest := hm.bestTotal
    unfold Counts.bestTotal at hcases hbest
    omega

theorem HardSwitchStrategy.monotoneAt (s : HardSwitchStrategy) {counts : Counts}
    (h : counts.Nonneg) (hp : 1 ≤ counts.pending) : MonotoneAt s.decide counts := by
  refine .of_judge s.Early (fun _ hn => s.decide_eq hn) h hp (fun _ he => he.2.2)
    trivial id ?_ (fun hr => decide_misses h (Counts.misses_fail h hp) hr)
    (fun hr => decide_misses h (Counts.misses_timeOut h hp) hr)
  intro hrepair he
  refine ⟨he.1, ?_, lt_of_le_of_lt (Counts.bestRate_le_repair h hrepair) he.2.2⟩
  rw [← Counts.bestTotal_repair]
  exact he.2.1

/-- The last pending case of a step is in the way of its rate, and too few are finalized for the
step to be judged without it. -/
def ProgressiveStrategy.TakesBack (s : ProgressiveStrategy) (currentStep : Option Int)
    (counts : Counts) : Prop :=
  ∃ step ∈ s.steps[stepIdx currentStep]?, s.rollbackOnStepFailure = true ∧
    counts.pending = 1 ∧ counts.total + 1 < step.observeCases ∧
    counts.bestRate < step.successRate

theorem ProgressiveStrategy.decide_misses {s : ProgressiveStrategy} {counts counts' : Counts}
    {currentStep : Option Int} (h : counts.Nonneg) (hm : counts.Misses counts')
    (hnot : ¬ s.TakesBack currentStep counts)
    (hrollback : s.decide counts currentStep = .rollback) :
    s.decide counts' currentStep = .rollback := by
  cases hstep : s.steps[stepIdx currentStep]? with
  | none =>
    rw [s.decide_past hstep] at hrollback
    cases hrollback
  | some step =>
    rw [s.decide_eq hstep] at hrollback ⊢
    refine judge_misses (s.Early step) h hm (fun _ he => he.2.2)
      (s.climb_ne_rollback _) ?_ ?_ ?_ hrollback
    · intro he
      unfold giveUp
      rw [if_pos he.2.1]
    · intro he hp
      exact ⟨hp, he.2.1, lt_of_le_of_lt (hm.bestRate_le h) he.2.2⟩
    · intro he hzero
      have hpending := hm.pending
      have htotal := hm.total
      by_contra hfew
      exact hnot ⟨step, hstep, he.2.1, by omega, by omega, he.2.2⟩

/-- **Every decision of a hard switch is monotone in the verdicts**, and one of a step exactly
where no last pending case takes its rollback back. -/
theorem monotone_verdicts_iff (counts : Counts) (h : counts.Nonneg) (hp : 1 ≤ counts.pending) :
    (∀ s : HardSwitchStrategy, MonotoneAt s.decide counts) ∧
    (∀ (s : ProgressiveStrategy) (currentStep : Option Int),
      (MonotoneAt (fun counts => s.decide counts currentStep) counts ↔
        ¬ s.TakesBack currentStep counts)) := by
  refine ⟨fun s => s.monotoneAt h hp, fun s currentStep => ?_⟩
  constructor
  · rintro hmonotone ⟨step, hstep, hflag, hlast, hfew, hlow⟩
    -- the step rolls back before the last verdict and goes on waiting after it
    have hbefore : s.decide counts currentStep = .rollback := by
      rw [s.decide_eq hstep]
      exact judge_early ⟨by omega, hflag, hlow⟩
    have hafter : s.decide counts.fail currentStep = .continueObserving := by
      have hm := Counts.misses_fail h hp
      have hpending := hm.pending
      have htotal := hm.total
      rw [s.decide_eq hstep]
      refine judge_few (fun he => ?_) (by omega)
      have hpos := he.1
      omega
    have hkept := hmonotone.fail hbefore
    rw [hafter] at hkept
    cases hkept
  · intro hnot
    cases hstep : s.steps[ProgressiveStrategy.stepIdx currentStep]? with
    | none =>
      have hpast : ∀ counts : Counts, s.decide counts currentStep = .promote :=
        fun _ => s.decide_past hstep
      constructor <;> simp [hpast]
    | some step =>
      refine .of_judge (s.Early step) (fun counts _ => s.decide_eq hstep) h hp
        (fun _ he => he.2.2) ?_ ?_ ?_
        (fun hr => s.decide_misses h (Counts.misses_fail h hp) hnot hr)
        (fun hr => s.decide_misses h (Counts.misses_timeOut h hp) hnot hr)
      · rcases s.climb_cases (ProgressiveStrategy.stepIdx currentStep) with hc | ⟨_, _, hc⟩
        · rw [hc]
          trivial
        · rw [hc]
          trivial
      · unfold ProgressiveStrategy.giveUp
        split
        · exact id
        · exact id
      · intro hrepair he
        exact ⟨he.1, he.2.1, lt_of_le_of_lt (Counts.bestRate_le_repair h hrepair) he.2.2⟩

namespace Sample

/-- A step of twenty cases, nearly all of which have to pass. -/
def twentyCases : ProgressiveStrategy := ⟨[⟨5, 20, 99 / 100⟩], true⟩

end Sample

theorem monotone_verdicts_two_pending :
    MonotoneAt Sample.halfOfOne.decide ⟨0, 1, 0, 2⟩ ∧
    MonotoneAt (fun counts => Sample.twentyCases.decide counts none) ⟨0, 1, 0, 2⟩ := by
  have hnonneg : Counts.Nonneg ⟨0, 1, 0, 2⟩ := by
    constructor <;> decide
  obtain ⟨hhard, hprogressive⟩ := monotone_verdicts_iff ⟨0, 1, 0, 2⟩ hnonneg (by decide)
  refine ⟨hhard Sample.halfOfOne, (hprogressive Sample.twentyCases none).mpr ?_⟩
  rintro ⟨step, -, -, hlast, -, -⟩
  exact absurd hlast (by decide)

/-- One case has failed and one is pending: the step rolls back, and after that one fails too it
does not. -/
theorem failure_takes_rollback_back :
    ¬ ((∀ (s : HardSwitchStrategy) (counts : Counts), counts.Nonneg → 1 ≤ counts.pending →
        MonotoneAt s.decide counts) ∧
      (∀ (s : ProgressiveStrategy) (counts : Counts) (currentStep : Option Int), counts.Nonneg →
        1 ≤ counts.pending →
        MonotoneAt (fun counts => s.decide counts currentStep) counts)) := by
  intro h
  have hmonotone := h.2 Sample.twentyCases Sample.oneFailedOnePending none
    Sample.oneFailedOnePending_nonneg (by decide)
  have hkept := hmonotone.fail (by decide +kernel)
  exact absurd hkept (by decide +kernel)

/-! ## One step against a hard switch -/

/-- The strategy of a single step that rolls back. -/
def ProgressiveStrategy.single (trafficPercent observeCases : Int) (successRate : Rat) :
    ProgressiveStrategy :=
  ⟨[⟨trafficPercent, observeCases, successRate⟩], true⟩

theorem ProgressiveStrategy.single_decide_eq {trafficPercent cases : Int} {successRate : Rat}
    {counts : Counts} {currentStep : Option Int} (hstep : currentStep.getD 0 = 0) :
    (single trafficPercent cases successRate).decide counts currentStep =
      judge (0 < counts.pending ∧ counts.bestRate < successRate) cases successRate .promote
        .rollback counts := by
  have hidx : stepIdx currentStep = 0 := by
    unfold stepIdx
    rw [hstep]
    rfl
  have hsome : (single trafficPercent cases successRate).steps[stepIdx currentStep]? =
      some ⟨trafficPercent, cases, successRate⟩ := by
    rw [hidx]
    rfl
  have hclimb : (single trafficPercent cases successRate).climb (stepIdx currentStep) =
      .promote := by
    rw [hidx]
    rfl
  rw [decide_eq hsome, hclimb]
  unfold judge
  simp [Early, single, giveUp]

/-- **A single step decides as a hard switch** except where it rolls back before enough cases are
registered; and there it is the first pending case that makes it roll back. -/
theorem single_step_is_hard_switch_iff (trafficPercent cases : Int) (successRate : Rat)
    (counts : Counts) (currentStep : Option Int) (h : counts.Nonneg)
    (hstep : currentStep.getD 0 = 0) :
    ((ProgressiveStrategy.single trafficPercent cases successRate).decide counts currentStep =
        (⟨cases, successRate⟩ : HardSwitchStrategy).decide counts ↔
      ¬ (0 < counts.pending ∧ counts.bestTotal < cases ∧ counts.bestRate < successRate)) ∧
    (counts.register.bestTotal < cases →
      (((ProgressiveStrategy.single trafficPercent cases successRate).decide counts currentStep =
          .continueObserving →
        (ProgressiveStrategy.single trafficPercent cases successRate).decide counts.register
          currentStep ≠ .rollback) ↔
      ¬ (counts.pending = 0 ∧ counts.register.bestRate < successRate))) := by
  rw [ProgressiveStrategy.single_decide_eq hstep, ProgressiveStrategy.single_decide_eq hstep,
    HardSwitchStrategy.decide_eq h]
  have hpending := h.pending
  constructor
  · by_cases hfew : counts.bestTotal < cases
    · -- the hard switch does not look at the best rate yet, and waits
      have hcases : counts.total < cases := by
        unfold Counts.bestTotal at hfew
        omega
      have hnot : ¬ (⟨cases, successRate⟩ : HardSwitchStrategy).Early counts := by
        intro he
        exact absurd he.2.1 (not_le.mpr hfew)
      rw [judge_few hnot hcases]
      by_cases hlow : 0 < counts.pending ∧ counts.bestRate < successRate
      · rw [judge_early hlow]
        simp [hfew, hlow]
      · rw [judge_few hlow hcases]
        simp only [true_iff]
        intro hdoomed
        exact hlow ⟨hdoomed.1, hdoomed.2.2⟩
    · have hsame : (⟨cases, successRate⟩ : HardSwitchStrategy).Early counts ↔
          0 < counts.pending ∧ counts.bestRate < successRate := by
        simp [HardSwitchStrategy.Early, not_lt.mp hfew]
      simp only [hfew, false_and, and_false, not_false_eq_true, iff_true]
      unfold judge
      simp only [hsame]
  · intro hfew
    have hbest : counts.register.bestTotal = counts.bestTotal + 1 := by
      simp only [Counts.register, Counts.bestTotal, Counts.total]
      omega
    have hcases : counts.total < cases := by
      unfold Counts.bestTotal at hfew hbest
      omega
    have htotal : counts.register.total < cases := hcases
    constructor
    · rintro hkept ⟨hnone, hlow⟩
      -- nothing is pending, so the step waits; the new case makes the best rate count
      refine hkept (judge_few (fun he => ?_) hcases) (judge_early ⟨?_, hlow⟩)
      · omega
      · simp only [Counts.register]
        omega
    · intro hnot hwaits hrollback
      rw [judge_eq_rollback_iff (by simp)] at hrollback
      rcases hrollback with hearly | ⟨hfails, -⟩
      · by_cases hnone : counts.pending = 0
        · exact hnot ⟨hnone, hearly.2⟩
        · have hlow : 0 < counts.pending ∧ counts.bestRate < successRate :=
            ⟨by omega, lt_of_le_of_lt h.bestRate_le_register hearly.2⟩
          rw [judge_early hlow] at hwaits
          cases hwaits
      · exact absurd hfails.cases (not_le.mpr htotal)

theorem single_step_is_hard_switch_all_pending :
    (ProgressiveStrategy.single 5 20 (99 / 100)).decide ⟨0, 0, 0, 1⟩ none =
      (⟨20, 99 / 100⟩ : HardSwitchStrategy).decide ⟨0, 0, 0, 1⟩ := by
  have hnonneg : Counts.Nonneg ⟨0, 0, 0, 1⟩ := by
    constructor <;> decide
  refine (single_step_is_hard_switch_iff 5 20 (99 / 100) ⟨0, 0, 0, 1⟩ none hnonneg rfl).1.mpr ?_
  intro hlow
  exact absurd hlow.2.2 (by decide +kernel)

/-- With one case failed, a second one that is registered rolls the step back and not the hard
switch. -/
theorem first_pending_rolls_step_back :
    ¬ ∀ (trafficPercent cases : Int) (successRate : Rat) (counts : Counts)
      (currentStep : Option Int), 0 ≤ cases → counts.Nonneg → currentStep.getD 0 = 0 →
      (ProgressiveStrategy.single trafficPercent cases successRate).decide counts currentStep =
          (⟨cases, successRate⟩ : HardSwitchStrategy).decide counts ∧
      (counts.register.bestTotal < cases →
        (ProgressiveStrategy.single trafficPercent cases successRate).decide counts currentStep =
          .continueObserving →
        (ProgressiveStrategy.single trafficPercent cases successRate).decide counts.register
          currentStep ≠ .rollback) := by
  intro h
  have hsame := (h 5 20 (99 / 100) Sample.oneFailedOnePending none (by decide)
    Sample.oneFailedOnePending_nonneg rfl).1
  exact absurd hsame (by decide +kernel)

end FluidBG
