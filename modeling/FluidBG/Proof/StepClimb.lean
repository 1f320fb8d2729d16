import FluidBG.Proof.Evidence
import FluidBG.Proof.Reconcile
/-!
# Climbing the steps of a progressive rollout

The step of a rollout is kept in two places: the splitters are sent its percentage, and the status
records its number by a patch that may be lost. The code sends first and records afterwards, so the
splitters are at the recorded step or one ahead of it, and a reconcile whose patch was lost only
sends the same percentage again. The log below keeps what each splitter may have been sent last,
and what every reconcile saw and decided.
-/

set_option autoImplicit false

namespace FluidBG

open Lib

/-! ## What a reconcile may decide on a step -/

namespace BlueGreenDeploymentSpec

/-- The promotion is progressive, over these steps. -/
def Progressive (spec : BlueGreenDeploymentSpec) (steps : List ProgressiveStep) : Prop :=
  ∃ promotion ∈ spec.promotion, promotion.strategy.strategyType = .progressive ∧
    ∃ progressive ∈ promotion.strategy.progressive, progressive.steps = steps

/-- The promotion has a criterion on data. -/
def DecidesOnData (spec : BlueGreenDeploymentSpec) : Prop :=
  ∃ promotion ∈ spec.promotion, promotion.data ≠ none

end BlueGreenDeploymentSpec

/-- What may be decided on step `i`: whoever leaves it upwards has met it. -/
def DecidedOn (steps : List ProgressiveStep) (i : Nat) (counts : Counts) : PromotionAction → Prop
  | .promote => steps.length = i + 1 ∧ ∃ step ∈ steps[i]?, step.MetBy counts
  | .advanceStep step trafficPercent => (∃ met ∈ steps[i]?, met.MetBy counts) ∧
      step = asI32 (i + 1 : Nat) ∧ ∃ next ∈ steps[i + 1]?, trafficPercent = next.trafficPercent
  | .continueObserving => True
  | .rollback => True

theorem asI32_of_lt {n : Nat} (h : n < 2147483648) : asI32 (n : Int) = n := by
  unfold asI32
  omega

/-- The casts of the step to an index and back do nothing among an `i32` of steps. -/
theorem ProgressiveStrategy.stepIdx_eq {currentStep : Option Int} {i : Nat}
    (h : currentStep.getD 0 = i) (hi : i < 2147483648) : stepIdx currentStep = i := by
  unfold stepIdx
  rw [h]
  omega

theorem ProgressiveStrategy.decide_on {s : ProgressiveStrategy} {counts : Counts}
    {currentStep : Option Int} {i : Nat} (hidx : stepIdx currentStep = i)
    (hi : i < s.steps.length) : DecidedOn s.steps i counts (s.decide counts currentStep) := by
  have hstep : s.steps[i]? = some s.steps[i] := List.getElem?_eq_getElem hi
  unfold decide
  simp only [hidx, hstep]
  by_cases hhopeless : counts.pending > 0 ∧ s.rollbackOnStepFailure = true ∧
      bestPossibleRate counts < s.steps[i].successRate
  · rw [if_pos hhopeless]
    trivial
  rw [if_neg hhopeless]
  by_cases hcases : counts.total < s.steps[i].observeCases
  · rw [if_pos hcases]
    trivial
  rw [if_neg hcases]
  by_cases hrate : rateOf counts.passed counts.total < s.steps[i].successRate
  · rw [if_pos hrate]
    cases s.rollbackOnStepFailure <;> trivial
  rw [if_neg hrate]
  have hmet : s.steps[i].MetBy counts := ⟨not_lt.mp hcases, not_lt.mp hrate⟩
  cases hnext : s.steps[i + 1]? with
  | none =>
    have hlast := List.getElem?_eq_none_iff.mp hnext
    exact ⟨by omega, s.steps[i], hstep, hmet⟩
  | some next => exact ⟨⟨s.steps[i], hstep, hmet⟩, rfl, next, hnext, rfl⟩

/-- A criterion on data is never outvoted into a step or a promotion of its own. -/
theorem combineActions_data {data action : PromotionAction} {custom : Option PromotionAction}
    (h : combineActions (some data) custom = .ok action) :
    action = data ∨ action = .rollback ∨ action = .continueObserving := by
  rcases custom with _ | c
  · cases data <;> simp [combineActions] at h <;> simp [h]
  · cases data <;> cases c <;> simp [combineActions] at h <;> simp [← h]

theorem decidePromotionAction_on {bgd : BlueGreenDeployment} {steps : List ProgressiveStep}
    (hprogressive : bgd.spec.Progressive steps) (hdata : bgd.spec.DecidesOnData)
    {dataCounts customCounts : Counts} {currentStep : Option Int} {i : Nat}
    (hstep : currentStep.getD 0 = i) (hi : i < steps.length) (hfew : steps.length ≤ 2147483648)
    {action : PromotionAction}
    (h : decidePromotionAction bgd dataCounts customCounts currentStep = .ok action) :
    DecidedOn steps i dataCounts action := by
  obtain ⟨promotion, hpromotion, htype, progressive, hp, rfl⟩ := hprogressive
  obtain ⟨promotion', hpromotion', hsome⟩ := hdata
  cases Option.mem_unique hpromotion hpromotion'
  obtain ⟨data, hd⟩ := Option.ne_none_iff_exists'.mp hsome
  have hdecide : decideDataPromotion promotion data dataCounts currentStep =
      .ok ((ProgressiveStrategy.fromSteps progressive).decide dataCounts currentStep) := by
    unfold decideDataPromotion
    rw [htype, show promotion.strategy.progressive = some progressive from hp]
  unfold decidePromotionAction at h
  rw [show bgd.spec.promotion = some promotion from hpromotion] at h
  simp only [hd, hdecide] at h
  rcases combineActions_data h with rfl | rfl | rfl
  · have hidx := ProgressiveStrategy.stepIdx_eq hstep (by omega)
    exact ProgressiveStrategy.decide_on (s := .fromSteps progressive) hidx hi
  · trivial
  · trivial

/-! ## The log -/

/-- A decision: the step it was made on, the counts of data, and what it came to. -/
structure StepDecision where
  step : Int
  counts : Counts
  action : Except ReconcileError PromotionAction

structure ClimbLog where
  /-- What each address may have been sent last. -/
  delivered : String → List Nat
  decisions : List StepDecision

namespace ClimbLog

def empty : ClimbLog := ⟨fun _ => [], []⟩

/-- A request that is answered well was the last one. Any other may have arrived or not. -/
def deliver (x : ClimbLog) (url : String) (percent : Nat) (answer : HttpAnswer Unit) : ClimbLog :=
  { x with delivered := Function.update x.delivered url (match answer with
      | .ok _ => [percent]
      | _ => percent :: x.delivered url) }

/-- What the reconcile decides at this point. -/
def decide (x : ClimbLog) (bgd : BlueGreenDeployment) (dataCounts customCounts : Counts) :
    ClimbLog :=
  { x with decisions := x.decisions ++ [⟨bgd.currentStep.getD 0, dataCounts,
      decidePromotionAction bgd dataCounts customCounts bgd.currentStep⟩] }

def see (x : ClimbLog) (_ : World) (c : Call) (a : Answer c) (_ : World) : ClimbLog :=
  match c, a with
  | .postTraffic url _ percent, answer => x.deliver url percent answer
  | .note (.decide bgd dataCounts customCounts), _ => x.decide bgd dataCounts customCounts
  | _, _ => x

/-- The address was sent this percentage last. -/
def Sent (x : ClimbLog) (percent : Nat) (url : String) : Prop :=
  x.delivered url ≠ [] ∧ ∀ sent ∈ x.delivered url, sent = percent

end ClimbLog

/-- The decisions met the first `n` steps, one after the other, each while the rollout was on it. -/
inductive Climbed (steps : List ProgressiveStep) : Nat → List StepDecision → Prop
  | start : Climbed steps 0 []
  | stay {n : Nat} {ds : List StepDecision} (d : StepDecision) :
    Climbed steps n ds → Climbed steps n (ds ++ [d])
  | climb {n : Nat} {ds : List StepDecision} {d : StepDecision} {step : ProgressiveStep} :
    Climbed steps n ds → steps[n]? = some step → d.step = n → step.MetBy d.counts →
    Climbed steps (n + 1) (ds ++ [d])

/-- Every step takes a decision of its own. -/
theorem Climbed.le_length {steps : List ProgressiveStep} {n : Nat} {ds : List StepDecision}
    (h : Climbed steps n ds) : n ≤ ds.length := by
  induction h with
  | start => simp
  | stay d _ ih =>
    simp only [List.length_append, List.length_singleton]
    omega
  | climb _ _ _ _ ih =>
    simp only [List.length_append, List.length_singleton]
    omega

/-- Every decision to promote has met all steps, the last one with its own counts. -/
def PromotesClimbed (steps : List ProgressiveStep) (decisions : List StepDecision) : Prop :=
  ∀ ds d rest, decisions = ds ++ d :: rest → d.action = .ok .promote →
    Climbed steps steps.length (ds ++ [d])

theorem PromotesClimbed.nil (steps : List ProgressiveStep) : PromotesClimbed steps [] := by
  intro ds d rest h
  simp at h

theorem PromotesClimbed.concat {steps : List ProgressiveStep} {decisions : List StepDecision}
    {d : StepDecision} (h : PromotesClimbed steps decisions)
    (hd : d.action = .ok .promote → Climbed steps steps.length (decisions ++ [d])) :
    PromotesClimbed steps (decisions ++ [d]) := by
  intro ds d' rest heq hpromote
  rcases List.eq_nil_or_concat rest with rfl | ⟨rest', last, rfl⟩
  · obtain ⟨rfl, hlast⟩ := List.append_inj' heq rfl
    cases hlast
    exact hd hpromote
  · rw [List.concat_eq_append, ← List.cons_append, ← List.append_assoc] at heq
    obtain ⟨hinit, -⟩ := List.append_inj' heq rfl
    exact h ds d' rest' hinit hpromote

/-! ## What a call and a move leave -/

/-- The object keeps its spec, its name and its step, and the plugins stay. -/
structure World.Steady (w w' : World) : Prop where
  object : ∀ b', w'.bgd = some b' → ∃ b, w.bgd = some b ∧ b'.spec = b.spec ∧
    b'.metadata.ns = b.metadata.ns ∧ b'.metadata.name = b.metadata.name ∧
    b'.currentStep.getD 0 = b.currentStep.getD 0
  plugins : w'.plugins = w.plugins

theorem World.Steady.of_bgd_eq {w w' : World} (h : w'.bgd = w.bgd)
    (hplugins : w'.plugins = w.plugins) : w.Steady w' :=
  ⟨fun b' hb' => ⟨b', h ▸ hb', rfl, rfl, rfl, rfl⟩, hplugins⟩

/-- The call cannot change the step, and the log does not record it. -/
def Call.Level : Call → Prop
  | .postTraffic _ _ _ => False
  | .replaceStatus _ _ _ => False
  | .patchStatus _ _ patch => ¬ patch.SetsStep
  | .note (.decide _ _ _) => False
  | _ => True

/-- The code cannot change the step, and the log does not record it. -/
abbrev Op.Level {α : Type} (p : Op α) : Prop := p.Calls Call.Level

theorem Call.Rewires.level {c : Call} (h : c.Rewires) : c.Level := by
  cases c with
  | postTraffic _ _ _ | replaceStatus _ _ _ | patchStatus _ _ _ => exact (h.elim id id).elim
  | note n => exact (h.elim id id).elim
  | _ => trivial

theorem Op.Rewires.level {α : Type} {p : Op α} (h : Op.Rewires p) : Op.Level p :=
  h.mono fun _ => Call.Rewires.level

theorem World.serve_level {w w' : World} {c : Call} {o : Outcome} {a : Answer c} (hc : c.Level)
    (h : w.serve c o = some (a, w')) : w.Steady w' := by
  have hplugins := (serve_leaves h).plugins
  cases c with
  | postTraffic _ _ _ | replaceStatus _ _ _ => exact hc.elim
  | patchStatus ns name patch =>
    rcases serve_patchStatus h with rfl | ⟨stored, hb, rfl⟩
    · exact .of_bgd_eq rfl rfl
    · refine ⟨fun b' hb' => ⟨stored, hb, ?_⟩, rfl⟩
      cases hb'
      refine ⟨rfl, rfl, rfl, ?_⟩
      show ((patch.apply (stored.status.getD .default)).currentStep).getD 0 = _
      rw [StatusPatch.apply_currentStep hc]
      unfold BlueGreenDeployment.currentStep
      cases stored.status <;> rfl
  | patchFinalizers ns name finalizers =>
    rcases serve_patchFinalizers h with rfl | rfl | ⟨stored, hb, rfl⟩
    · exact .of_bgd_eq rfl rfl
    · exact ⟨fun b' hb' => (by cases hb'), rfl⟩
    · refine ⟨fun b' hb' => ⟨stored, hb, ?_⟩, rfl⟩
      cases hb'
      exact ⟨rfl, rfl, rfl, rfl⟩
  | note n =>
    rw [serve_note h]
    exact .of_bgd_eq rfl rfl
  | _ =>
    refine .of_bgd_eq (serve_work ?_ h) hplugins
    exact fun hwrites => hwrites

/-! ## The runs -/

/-- The cluster with the log. -/
abbrev climbCluster : Machine Call Answer (World × ClimbLog) Outcome Move :=
  cluster.observed ClimbLog.see id

/-- A reconcile of this object is one of Observing, on the spec it has. -/
def Observes (bgd : BlueGreenDeployment) : Prop :=
  Reaches bgd .observing ∧ activeRolloutHasNewSpecGeneration bgd .observing = false

instance (bgd : BlueGreenDeployment) : Decidable (Observes bgd) :=
  inferInstanceAs (Decidable (_ ∧ _))

/-- What a reconcile may find. -/
def Note.Observing : Note → Prop
  | .reconcile bgd => Observes bgd
  | _ => True

instance : (n : Note) → Decidable n.Observing
  | .reconcile bgd => inferInstanceAs (Decidable (Observes bgd))
  | .called | .decide _ _ _ | .promote _ | .beginDraining _ _ | .drainStarted _ _
  | .finalizeDraining _ _ | .drainMeasured _ _ _ | .drainStatusFailed _ _ | .drainsAssessed _ _
  | .reconcileFailed _ | .orphan _ => .isTrue trivial

/-- Neither the spec nor the plugins are edited. -/
def Move.KeepsSpec : Move → Prop
  | .editSpec _ => False
  | .setPlugins _ => False
  | _ => True

instance : (v : Move) → Decidable v.KeepsSpec
  | .editSpec _ | .setPlugins _ => .isFalse id
  | .delete | .tick _ | .register _ | .setVerdict _ _ _ _ | .markTimedOut _ _
  | .deploymentStatus _ _ _ | .setDeployments _ | .setResources _ | .setEndpoints _
  | .setNamespaces _ | .setOtherBgds _ => .isTrue trivial

/-- Runs of Observing reconciles of one spec: any call may fail, and everything outside but the
spec and the plugins may change. -/
def observingOnly : Guard Call (World × ClimbLog) Outcome Move where
  call _ c _ := ∀ n ∈ c.noted, n.Observing
  move _ v := v.KeepsSpec

instance (s : World × ClimbLog) (c : Call) (o : Outcome) : Decidable (observingOnly.call s c o) :=
  inferInstanceAs (Decidable (∀ n ∈ c.noted, n.Observing))

instance (s : World × ClimbLog) (v : Move) : Decidable (observingOnly.move s v) :=
  inferInstanceAs (Decidable v.KeepsSpec)

abbrev climbOutside : Outside Call Answer (World × ClimbLog) := climbCluster.outside observingOnly

theorem climbOutside_answers {s s' : World × ClimbLog} {c : Call} {a : Answer c}
    (h : climbOutside.answers s c a s') : ∃ o, s.1.serve c o = some (a, s'.1) ∧
      (∀ n ∈ c.noted, n.Observing) ∧ s'.2 = s.2.see s.1 c a s'.1 := by
  obtain ⟨o, hguard, hserve⟩ := h
  obtain ⟨hs, hx⟩ := Machine.observed_serve hserve
  exact ⟨o, hs, hguard, hx⟩

theorem World.move_steady {w w' : World} {v : Move} (hv : v.KeepsSpec) (h : w.move v = some w') :
    w.Steady w' := by
  cases v with
  | editSpec _ | setPlugins _ => exact hv.elim
  | delete =>
    simp only [World.move, World.delete, Option.map_eq_some_iff] at h
    obtain ⟨b, hb, rfl⟩ := h
    split
    · exact ⟨fun b' hb' => (by cases hb'), rfl⟩
    · refine ⟨fun b' hb' => ⟨b, hb, ?_⟩, rfl⟩
      cases hb'
      exact ⟨rfl, rfl, rfl, rfl⟩
  | setVerdict r t p m =>
    simp only [World.move] at h
    split at h <;> cases h
    exact .of_bgd_eq rfl rfl
  | markTimedOut r t =>
    simp only [World.move] at h
    split at h <;> cases h
    exact .of_bgd_eq rfl rfl
  | _ =>
    simp only [World.move, Option.some.injEq] at h
    subst h
    exact .of_bgd_eq rfl rfl

theorem ClimbLog.see_level {x : ClimbLog} {w w' : World} {c : Call} {a : Answer c}
    (hc : c.Level) : x.see w c a w' = x := by
  cases c with
  | postTraffic _ _ _ => exact hc.elim
  | note n =>
    cases n with
    | decide _ _ _ => exact hc.elim
    | _ => rfl
  | _ => rfl

/-! ## The course of a rollout -/

/-- What stays the same while a rollout climbs: the object as it was before its first step, the
steps of its spec, and the plugins. -/
structure Course where
  bgd : BlueGreenDeployment
  plugins : List InceptionPlugin
  steps : List ProgressiveStep
  progressive : bgd.spec.Progressive steps
  nonempty : steps ≠ []
  /-- The number of a step is an `i32`. -/
  few : steps.length ≤ 2147483648

namespace Course

variable (course : Course)

/-- Where the splitter of a point is sent its percentages. -/
def splitterUrl (ip : InceptionPoint) : Option String :=
  (course.plugins.find? fun p => p.name = ip.pluginRef.name).map fun plugin =>
    inceptorUrl plugin course.bgd.metadata.ns course.bgd.metadata.name ip.name
      ((plugin.spec.lifecycle.bind (·.trafficShiftPath)).getD "/traffic")

def splitters : List InceptionPoint := course.bgd.spec.inceptionPoints.filter isSplitter

/-- A splitter among these points is reached here. -/
def Serves (points : List InceptionPoint) (url : String) : Prop :=
  ∃ ip ∈ points, course.splitterUrl ip = some url

/-- This is the percentage of step `i` or of the next one, as it is sent. -/
def Percent (i percent : Nat) : Prop :=
  ∃ step, (course.steps[i]? = some step ∨ course.steps[i + 1]? = some step) ∧
    percent = asU8 step.trafficPercent

/-- This is the object of the rollout. -/
structure Is (b : BlueGreenDeployment) : Prop where
  spec : b.spec = course.bgd.spec
  ns : b.metadata.ns = course.bgd.metadata.ns
  name : b.metadata.name = course.bgd.metadata.name

/-- The object, while it is there, is on step `i`, and the plugins are those of the course. -/
structure Stands (i : Nat) (w : World) : Prop where
  object : ∀ b, w.bgd = some b → course.Is b ∧ b.currentStep.getD 0 = i
  plugins : w.plugins = course.plugins

/-- **The rollout is on step `i`.** The splitters are there or one ahead, and the steps below have
been met. -/
structure At (i : Nat) (s : World × ClimbLog) : Prop where
  stands : course.Stands i s.1
  inRange : i < course.steps.length
  delivered : ∀ url, course.Serves course.splitters url →
    s.2.delivered url ≠ [] ∧ ∀ percent ∈ s.2.delivered url, course.Percent i percent
  climbed : Climbed course.steps i s.2.decisions
  promotes : PromotesClimbed course.steps s.2.decisions

/-- The rollout has not been decided on yet. -/
structure Before (s : World × ClimbLog) : Prop where
  stands : course.Stands 0 s.1
  decisions : s.2.decisions = []

variable {course} {i : Nat} {s s' : World × ClimbLog}

theorem Stands.steady {w w' : World} (h : course.Stands i w) (hw : w.Steady w') :
    course.Stands i w' := by
  refine ⟨fun b' hb' => ?_, hw.plugins.trans h.plugins⟩
  obtain ⟨b, hb, hspec, hns, hname, hstep⟩ := hw.object b' hb'
  obtain ⟨his, hi⟩ := h.object b hb
  exact ⟨⟨hspec.trans his.spec, hns.trans his.ns, hname.trans his.name⟩, hstep.trans hi⟩

theorem At.steady (h : course.At i s) (hw : s.1.Steady s'.1) (hx : s'.2 = s.2) :
    course.At i s' := by
  obtain ⟨hstands, hrange, hdelivered, hclimbed, hpromotes⟩ := h
  refine ⟨hstands.steady hw, hrange, ?_, ?_, ?_⟩
  all_goals rw [hx]; assumption

theorem Before.steady (h : course.Before s) (hw : s.1.Steady s'.1)
    (hx : s'.2.decisions = s.2.decisions) : course.Before s' :=
  ⟨h.stands.steady hw, hx.trans h.decisions⟩

theorem move_steady (h : climbOutside.moves s s') : s.1.Steady s'.1 ∧ s'.2 = s.2 := by
  obtain ⟨v, hv, hmove⟩ := h
  obtain ⟨hm, hx⟩ := Machine.observed_move hmove
  exact ⟨World.move_steady hv hm, hx⟩

theorem At.stable : climbOutside.Stable (course.At i) := by
  intro s s' h hm
  obtain ⟨hw, hx⟩ := move_steady hm
  exact h.steady hw hx

theorem Before.stable : climbOutside.Stable course.Before := by
  intro s s' h hm
  obtain ⟨hw, hx⟩ := move_steady hm
  exact h.steady hw (by rw [hx])

/-- What is known of the log alone cannot be undone from outside. -/
theorem log_stable (R : ClimbLog → Prop) : climbOutside.Stable fun s => R s.2 := by
  intro s s' h hm
  rw [(move_steady hm).2]
  exact h

theorem level_steady {c : Call} {a : Answer c} (hc : c.Level)
    (h : climbOutside.answers s c a s') : s.1.Steady s'.1 ∧ s'.2 = s.2 := by
  obtain ⟨o, hserve, -, hx⟩ := climbOutside_answers h
  exact ⟨World.serve_level hc hserve, hx.trans (ClimbLog.see_level hc)⟩

/-! ## Sending a percentage -/

end Course

/-- The call asks, or sends this percentage. -/
def Call.Sends (percent : Nat) (c : Call) : Prop :=
  c.Asks ∨ ∃ url bearer, c = .postTraffic url bearer percent

namespace ClimbLog

variable {x : ClimbLog} {url url' : String} {percent : Nat} {answer : HttpAnswer Unit}

theorem mem_deliver {sent : Nat}
    (h : sent ∈ (x.deliver url percent answer).delivered url') :
    sent = percent ∨ sent ∈ x.delivered url' := by
  unfold deliver at h
  by_cases hurl : url' = url
  · subst hurl
    simp only [Function.update_self] at h
    cases answer with
    | ok v => exact .inl (by simpa using h)
    | _ => simpa using h
  · simp only [Function.update_of_ne hurl] at h
    exact .inr h

theorem deliver_ne_nil (h : x.delivered url' ≠ []) :
    (x.deliver url percent answer).delivered url' ≠ [] := by
  unfold deliver
  by_cases hurl : url' = url
  · subst hurl
    simp only [Function.update_self]
    cases answer <;> simp
  · simp only [Function.update_of_ne hurl]
    exact h

/-- Sending the same percentage again changes nothing. -/
theorem Sent.deliver (h : x.Sent percent url') : (x.deliver url percent answer).Sent percent url' := by
  refine ⟨deliver_ne_nil h.1, fun sent hmem => ?_⟩
  rcases mem_deliver hmem with rfl | hold
  · rfl
  · exact h.2 sent hold

theorem sent_of_ok (v : Unit) : (x.deliver url percent (.ok v)).Sent percent url := by
  unfold ClimbLog.deliver Sent
  simp

end ClimbLog

namespace Course

variable {course : Course} {i : Nat} {s s' : World × ClimbLog}

/-- A request to a splitter changes the log and nothing in the cluster. -/
theorem shift_steady {url bearer : String} {percent : Nat}
    {a : Answer (.postTraffic url bearer percent)}
    (h : climbOutside.answers s (.postTraffic url bearer percent) a s') :
    s.1.Steady s'.1 ∧ s'.2 = s.2.deliver url percent a := by
  obtain ⟨o, hserve, -, hx⟩ := climbOutside_answers h
  have hwork : (Call.postTraffic url bearer percent).Work := id
  exact ⟨.of_bgd_eq (World.serve_work hwork hserve) (World.serve_leaves hserve).plugins, hx⟩

theorem At.deliver {url bearer : String} {percent : Nat}
    {a : Answer (.postTraffic url bearer percent)} (hpercent : course.Percent i percent)
    (h : course.At i s) (ha : climbOutside.answers s (.postTraffic url bearer percent) a s') :
    course.At i s' := by
  obtain ⟨hw, hx⟩ := shift_steady ha
  refine ⟨h.stands.steady hw, h.inRange, fun url' hurl => ?_, ?_, ?_⟩
  · obtain ⟨hne, hall⟩ := h.delivered url' hurl
    rw [hx]
    refine ⟨ClimbLog.deliver_ne_nil hne, fun sent hmem => ?_⟩
    rcases ClimbLog.mem_deliver hmem with rfl | hold
    · exact hpercent
    · exact hall sent hold
  · rw [hx]
    exact h.climbed
  · rw [hx]
    exact h.promotes

/-- `J` holds around the requests that send `percent`, and the contract allows them. -/
structure Delivering (course : Course) (K : Contract Call (World × ClimbLog)) (percent : Nat)
    (J : World × ClimbLog → Prop) : Prop where
  inv : ∀ s, J s → K.inv s
  plugins : ∀ s, J s → s.1.plugins = course.plugins
  stable : climbOutside.Stable J
  step : ∀ s c a s', c.Sends percent → J s → climbOutside.answers s c a s' → J s'
  may : ∀ s c, c.Sends percent → J s → K.may s c

/-- `J` holds, and the addresses of `U` were sent `percent` last. -/
def Sending (J : World × ClimbLog → Prop) (percent : Nat) (U : String → Prop)
    (s : World × ClimbLog) : Prop :=
  J s ∧ ∀ url, U url → s.2.Sent percent url

section Delivering

variable {K : Contract Call (World × ClimbLog)} {percent : Nat} {J : World × ClimbLog → Prop}
  {U : String → Prop} {ctx : Ctx}

theorem Delivering.sending_stable (h : course.Delivering K percent J) :
    climbOutside.Stable (Sending J percent U) :=
  h.stable.and (log_stable fun x => ∀ url, U url → x.Sent percent url)

theorem Delivering.asks {α : Type} (h : course.Delivering K percent J) {p : Op α} (hp : Op.Asks p)
    (hs : Sending J percent U s) :
    climbOutside.Spec K (fun _ => Sending J percent U) (fun _ => J) p s := by
  refine (Outside.Spec.of_calls hp h.sending_stable hs (h.inv s hs.1)
    (fun s c hc _ hj => h.may s c (.inl hc) hj.1) fun s c a s' hc _ hj ha => ?_).mono
      (fun _ _ hq => hq.1) fun _ _ hq => hq.1.1
  have hj' := h.step s c a s' (.inl hc) hj.1 ha
  refine ⟨h.inv s' hj', hj', fun url hurl => ?_⟩
  rw [(level_steady hc.rewires.level ha).2]
  exact hj.2 url hurl

/-- One request: what was sent last stays, and an answer that is well settles its own address. -/
theorem Delivering.post (h : course.Delivering K percent J) {url bearer : String}
    (hs : Sending J percent U s) :
    climbOutside.Spec K (fun (a : HttpAnswer Unit) s => Sending J percent U s ∧
        ∀ v, a = .ok v → s.2.Sent percent url)
      (fun _ => J) (Op.ask (.postTraffic url bearer percent)) s := by
  have hsends : (Call.postTraffic url bearer percent).Sends percent := .inr ⟨url, bearer, rfl⟩
  refine Outside.Spec.ask (h.may s _ hsends hs.1) fun a s' ha => ?_
  have hj' := h.step s _ a s' hsends hs.1 ha
  have hx := (shift_steady ha).2
  have hsent : ∀ url', U url' → s'.2.Sent percent url' := by
    intro url' hurl
    rw [hx]
    exact (hs.2 url' hurl).deliver
  have hown : ∀ v, a = .ok v → s'.2.Sent percent url := by
    rintro v rfl
    rw [hx]
    exact ClimbLog.sent_of_ok v
  refine ⟨h.inv s' hj', fun s'' hl _ => ⟨h.sending_stable.later ⟨hj', hsent⟩ hl, ?_⟩⟩
  exact (log_stable fun x => ∀ v, a = .ok v → x.Sent percent url).later hown hl

/-- **A shift that succeeds has reached its splitter.** -/
theorem Delivering.shift (h : course.Delivering K percent J) {ref ns ip : String}
    {plugin : InceptionPlugin} (hs : Sending J percent U s) :
    climbOutside.Spec K
      (fun _ => Sending J percent fun url => U url ∨ url = inceptorUrl plugin ns ref ip
        ((plugin.spec.lifecycle.bind (·.trafficShiftPath)).getD "/traffic"))
      (fun _ => J) (invokeInceptorTrafficShift ctx ref ns ip plugin percent) s := by
  refine (h.asks (Op.Asks.controlPlaneClient _) hs).bind fun _ s hs =>
    (h.asks (Op.Asks.signInceptionAuthToken _ _ _ _ _) hs).bind fun token s hs => ?_
  -- the tries: the last one does not ask for another
  refine Outside.Spec.retryWithin (P := Sending J percent U) (by decide) hs fun n s hn hs => ?_
  refine (h.post hs).bind fun answer s hs => ?_
  cases answer with
  | ok v =>
    refine ⟨hs.1.1, ?_⟩
    rintro url (hu | rfl)
    · exact hs.1.2 url hu
    · exact hs.2 v rfl
  | statusError text => exact hs.1.1
  | decodeError text => exact hs.1.1
  | sendError text =>
    by_cases hlast : n + 1 = 10
    · rw [show decide (n + 1 = 10) = true by simpa using hlast]
      exact hs.1.1
    · rw [show decide (n + 1 = 10) = false by simpa using hlast]
      refine (h.asks (Op.Asks.sleep 2) hs.1).bind fun _ s hs => ⟨hs, ?_⟩
      omega

/-- A plugin that is read is the one of the course. -/
theorem Delivering.getPlugin {β : Type} (h : course.Delivering K percent J) {name : String}
    {Q : β → World × ClimbLog → Prop} {k : InceptionPlugin → Op β} (hs : Sending J percent U s)
    (hk : ∀ plugin, (course.plugins.find? fun p => p.name = name) = some plugin →
      ∀ s, Sending J percent U s → climbOutside.Spec K Q (fun _ => J) (k plugin) s) :
    climbOutside.Spec K Q (fun _ => J)
      (Prog.bind (Op.ask (.getPlugin name)) fun r => Prog.bind (Op.kube r) k) s := by
  refine ⟨h.may s _ (.inl trivial) hs.1, fun r s' ha => ?_⟩
  have hj' := h.step s _ r s' (.inl trivial) hs.1 ha
  have hlevel : (Call.getPlugin name).Level := trivial
  have hx := (level_steady hlevel ha).2
  refine ⟨h.inv s' hj', fun s'' hl _ => ?_⟩
  have hs'' : Sending J percent U s'' := by
    refine h.sending_stable.later ⟨hj', ?_⟩ hl
    rw [hx]
    exact hs.2
  cases r with
  | error e => exact hs''.1
  | ok plugin =>
    obtain ⟨o, hserve, -, -⟩ := climbOutside_answers ha
    have hfound : s.1.getPlugin name = .ok plugin := congrArg Prod.fst (World.respond_ok hserve)
    unfold World.getPlugin at hfound
    rw [h.plugins s hs.1] at hfound
    refine hk plugin ?_ s'' hs''
    cases hfind : course.plugins.find? fun p => p.name = name with
    | none => simp [hfind, World.notFound] at hfound
    | some found => simpa [hfind] using hfound

/-- **All splitters have been sent the percentage** when the loop over them is through. -/
theorem Delivering.apply {trafficPercent : Int}
    (h : course.Delivering K (asU8 trafficPercent) J) {bgd : BlueGreenDeployment} (his : course.Is bgd) (hs : J s) :
    climbOutside.Spec K
      (fun _ => Sending J (asU8 trafficPercent) (course.Serves course.splitters))
      (fun _ => J) (applySplitterTrafficPercent ctx bgd bgd.metadata.ns trafficPercent) s := by
  have hpoints : bgd.spec.inceptionPoints.filter isSplitter = course.splitters := by
    unfold splitters
    rw [his.spec]
  unfold applySplitterTrafficPercent
  rw [hpoints]
  refine Outside.Spec.forEachDone
    (P := fun done => Sending J (asU8 trafficPercent) (course.Serves done)) ?_ fun done ip _ s hs => ?_
  · refine ⟨hs, ?_⟩
    rintro url ⟨ip, hmem, _⟩
    cases hmem
  refine h.getPlugin hs fun plugin hfound s hs => ?_
  refine (h.shift hs).mono (fun _ s hs => ⟨hs.1, fun url hurl => hs.2 url ?_⟩) fun _ _ he => he
  obtain ⟨ip', hmem, hurl⟩ := hurl
  rcases List.mem_append.mp hmem with hdone | hlast
  · exact .inl ⟨ip', hdone, hurl⟩
  · rw [List.mem_singleton.mp hlast] at hurl
    unfold splitterUrl at hurl
    rw [hfound, Option.map_some, Option.some.injEq] at hurl
    rw [his.ns, his.name]
    exact .inr hurl.symm

end Delivering

/-! ## Before the first step -/

/-- The contract of the initialization: the object has no step yet. -/
abbrev beginning (course : Course) : Contract Call (World × ClimbLog) :=
  ⟨course.Before, fun _ _ => True⟩

theorem Before.sends {percent : Nat} {c : Call} {a : Answer c} (hc : c.Sends percent)
    (h : course.Before s) (ha : climbOutside.answers s c a s') : course.Before s' := by
  rcases hc with hasks | ⟨url, bearer, rfl⟩
  · obtain ⟨hw, hx⟩ := level_steady hasks.rewires.level ha
    exact h.steady hw (by rw [hx])
  · obtain ⟨hw, hx⟩ := shift_steady ha
    exact h.steady hw (by rw [hx]; rfl)

theorem Before.delivering (percent : Nat) :
    course.Delivering (beginning course) percent course.Before where
  inv _ h := h
  plugins _ h := h.stands.plugins
  stable := Before.stable
  step _ _ _ _ hc h ha := h.sends hc ha
  may _ _ _ _ := trivial

/-- A written step is the one the object stands on. A patch that is lost leaves it where it was. -/
theorem Stands.progress {w w' : World} {ns name : String} {step : Nat} {percent : Int}
    {o : Outcome} {a : Except KubeError Unit} (h : course.Stands i w)
    (hserve : w.serve (.patchStatus ns name (.progress step percent)) o = some (a, w')) :
    course.Stands i w' ∨ course.Stands step w' := by
  rcases World.serve_patchStatus hserve with rfl | ⟨stored, hb, rfl⟩
  · exact .inl h
  · refine .inr ⟨fun b' hb' => ?_, h.plugins⟩
    cases hb'
    exact ⟨⟨(h.object stored hb).1.spec, (h.object stored hb).1.ns, (h.object stored hb).1.name⟩,
      rfl⟩

/-- Every splitter has been sent the percentage of the first step. -/
def FirstSent (course : Course) (x : ClimbLog) : Prop :=
  ∀ url, course.Serves course.splitters url →
    ∃ first ∈ course.steps[0]?, x.Sent (asU8 first.trafficPercent) url

/-- What the initialization ends in. -/
def Begun (course : Course) (s : World × ClimbLog) : Prop :=
  course.Before s ∧ course.FirstSent s.2

theorem Begun.stable : climbOutside.Stable course.Begun :=
  Before.stable.and (log_stable course.FirstSent)

theorem initialSplitterTrafficPercent_eq : initialSplitterTrafficPercent course.bgd =
    if course.bgd.spec.inceptionPoints.any isSplitter then
      course.steps[0]?.map (·.trafficPercent) else none := by
  obtain ⟨promotion, hpromotion, htype, progressive, hp, hsteps⟩ := course.progressive
  unfold initialSplitterTrafficPercent
  rw [show course.bgd.spec.promotion = some promotion from hpromotion, Option.bind_some, htype,
    show promotion.strategy.progressive = some progressive from hp]
  simp only [Option.bind_some, hsteps, List.head?_eq_getElem?]
  rfl

theorem initialize_spec {ctx : Ctx} (h : course.Before s) :
    climbOutside.Spec (beginning course) (fun _ => course.Begun) (fun _ _ => True)
      (initializeSplitterTraffic ctx course.bgd course.bgd.metadata.ns) s := by
  unfold initializeSplitterTraffic
  rw [initialSplitterTrafficPercent_eq]
  by_cases hsplit : course.bgd.spec.inceptionPoints.any isSplitter = true
  · rw [if_pos hsplit]
    obtain ⟨first, rest, hcons⟩ := List.exists_cons_of_ne_nil course.nonempty
    have hfirst : course.steps[0]? = some first := by
      rw [hcons]
      rfl
    rw [hfirst, Option.map_some]
    refine (((Before.delivering (asU8 first.trafficPercent)).apply ⟨rfl, rfl, rfl⟩ h).mono
      (fun _ _ hq => hq) fun _ _ _ => trivial).bind fun _ s hs => ?_
    refine ⟨trivial, fun a s' ha => ?_⟩
    obtain ⟨o, hserve, -, hx⟩ := climbOutside_answers ha
    have hbegun : course.Begun s' := by
      refine ⟨⟨?_, by rw [hx]; exact hs.1.decisions⟩, fun url hurl => ⟨first, hfirst, ?_⟩⟩
      · rcases hs.1.stands.progress hserve with h0 | h0 <;> exact h0
      · rw [hx]
        exact hs.2 url hurl
    exact ⟨hbegun.1, fun s'' hl _ => Begun.stable.later hbegun hl⟩
  · rw [if_neg hsplit]
    refine ⟨h, ?_⟩
    rintro url ⟨ip, hmem, -⟩
    -- without a splitter there is nothing to send to
    obtain ⟨hin, hip⟩ := List.mem_filter.mp hmem
    exact absurd (List.any_eq_true.mpr ⟨ip, hin, hip⟩) hsplit

theorem Begun.at (h : course.Begun s) : course.At 0 s := by
  obtain ⟨⟨hstands, hdecisions⟩, hsent⟩ := h
  refine ⟨hstands, List.length_pos_iff.mpr course.nonempty, fun url hurl => ?_, ?_, ?_⟩
  · obtain ⟨first, hfirst, hne, hall⟩ := hsent url hurl
    exact ⟨hne, fun percent hmem => ⟨first, .inl hfirst, hall percent hmem⟩⟩
  · rw [hdecisions]
    exact .start
  · rw [hdecisions]
    exact .nil _

end Course

/-! ## On a step -/

/-- The step of the object stays, or goes up by one. -/
def World.StepsUp (w w' : World) : Prop :=
  ∀ b b', w.bgd = some b → w'.bgd = some b' →
    b'.currentStep.getD 0 = b.currentStep.getD 0 ∨ b'.currentStep.getD 0 = b.currentStep.getD 0 + 1

theorem World.Steady.stepsUp {w w' : World} (h : w.Steady w') : w.StepsUp w' := by
  intro b b' hb hb'
  obtain ⟨b₁, hb₁, -, -, -, hstep⟩ := h.object b' hb'
  rw [hb] at hb₁
  cases hb₁
  exact .inl hstep

namespace Course

variable {course : Course} {i j : Nat} {s s' : World × ClimbLog}

theorem At.stepsUp (h : course.At i s) (h' : course.At j s') (hj : j = i ∨ j = i + 1) :
    s.1.StepsUp s'.1 := by
  intro b b' hb hb'
  rw [(h.stands.object b hb).2, (h'.stands.object b' hb').2]
  rcases hj with rfl | rfl
  · exact .inl rfl
  · exact .inr (by push_cast; rfl)

/-- The contract of Observing: the rollout is on some step, and no call takes it further than to
the next one. -/
abbrev climbing (course : Course) : Contract Call (World × ClimbLog) where
  inv s := ∃ i, course.At i s
  may s c := ∀ a s', climbOutside.answers s c a s' → s.1.StepsUp s'.1

/-- From step `i`, the code stays on it. -/
def Keeps (course : Course) (i : Nat) {α : Type} (p : Op α) : Prop :=
  ∀ s, course.At i s →
    climbOutside.Spec course.climbing (fun _ => course.At i) (fun _ => course.At i) p s

/-- From step `i`, the code ends on some step. -/
def Climbs (course : Course) (i : Nat) {α : Type} (p : Op α) : Prop :=
  ∀ s, course.At i s → climbOutside.Spec course.climbing (fun _ s => ∃ j, course.At j s)
    (fun _ s => ∃ j, course.At j s) p s

section Rules

variable {α β : Type} {ctx : Ctx} {bgd : BlueGreenDeployment}

/-- The rule for one call that keeps the step. -/
theorem keeps_call {c : Call} {k : Answer c → Op α}
    {P : α → World × ClimbLog → Prop} {E : ReconcileError → World × ClimbLog → Prop}
    {R : Answer c → ClimbLog → Prop} (h : course.At i s)
    (hc : ∀ a s', climbOutside.answers s c a s' → course.At i s' ∧ R a s'.2)
    (hk : ∀ a s', course.At i s' → R a s'.2 → climbOutside.Spec course.climbing P E (k a) s') :
    climbOutside.Spec course.climbing P E (Prog.call c k) s := by
  refine ⟨fun a s' ha => h.stepsUp (hc a s' ha).1 (.inl rfl), fun a s' ha => ?_⟩
  obtain ⟨hat, hr⟩ := hc a s' ha
  refine ⟨⟨i, hat⟩, fun s'' hl _ => ?_⟩
  obtain ⟨hat', hr'⟩ := (At.stable.and (log_stable (R a))).later ⟨hat, hr⟩ hl
  exact hk a s'' hat' hr'

theorem Keeps.of_level {p : Op α} (hp : Op.Level p) : course.Keeps i p := by
  induction p with
  | pure a => exact fun _ h => h
  | fail e => exact fun _ h => h
  | call c k ih =>
    intro s h
    refine keeps_call (R := fun _ _ => True) h (fun a s' ha => ⟨?_, trivial⟩) fun a s' hat _ =>
      ih a (hp.2 a) s' hat
    obtain ⟨hw, hx⟩ := level_steady hp.1 ha
    exact h.steady hw hx

theorem Keeps.rewires {p : Op α} (hp : Op.Rewires p) : course.Keeps i p := .of_level hp.level

theorem Keeps.bind {p : Op α} {k : α → Op β} (hp : course.Keeps i p)
    (hk : ∀ a, course.Keeps i (k a)) : course.Keeps i (p.bind k) :=
  fun s h => (hp s h).bind fun a s' h' => hk a s' h'

theorem Keeps.climbs {p : Op α} (h : course.Keeps i p) : course.Climbs i p :=
  fun s hs => (h s hs).mono (fun _ _ h' => ⟨i, h'⟩) fun _ _ h' => ⟨i, h'⟩

theorem Climbs.after {p : Op α} {k : α → Op β} (hp : course.Keeps i p)
    (hk : ∀ a, course.Climbs i (k a)) : course.Climbs i (p.bind k) :=
  fun s h => ((hp s h).mono (fun _ _ h' => h') fun _ _ h' => ⟨i, h'⟩).bind
    fun a s' h' => hk a s' h'

/-- Reading the object gives what the rollout stands on. -/
theorem read_call {ns name : String} {k : Except KubeError BlueGreenDeployment → Op α}
    {P : α → World × ClimbLog → Prop} {E : ReconcileError → World × ClimbLog → Prop}
    (h : course.At i s)
    (herr : ∀ e s', course.At i s' → climbOutside.Spec course.climbing P E (k (.error e)) s')
    (hok : ∀ b, course.Is b → b.currentStep.getD 0 = i → ∀ s', course.At i s' →
      climbOutside.Spec course.climbing P E (k (.ok b)) s') :
    climbOutside.Spec course.climbing P E ((Op.ask (.getBgd ns name)).bind k) s := by
  have hlevel : (Call.getBgd ns name).Level := trivial
  refine keeps_call (R := fun a _ => ∀ b, a = .ok b → course.Is b ∧ b.currentStep.getD 0 = i) h
    (fun a s' ha => ?_) fun a s' hat hread => ?_
  · obtain ⟨hw, hx⟩ := level_steady hlevel ha
    obtain ⟨o, hserve, -, -⟩ := climbOutside_answers ha
    refine ⟨h.steady hw hx, fun b hb => ?_⟩
    exact h.stands.object b ((World.serve_getBgd hserve).2 b hb).1
  · cases a with
    | error e => exact herr e s' hat
    | ok b =>
      obtain ⟨his, hstep⟩ := hread b rfl
      exact hok b his hstep s' hat

theorem Keeps.read {ns name : String} {k : Except KubeError BlueGreenDeployment → Op α}
    (herr : ∀ e, course.Keeps i (k (.error e)))
    (hok : ∀ b, course.Is b → b.currentStep.getD 0 = i → course.Keeps i (k (.ok b))) :
    course.Keeps i ((Op.ask (.getBgd ns name)).bind k) :=
  fun _ h => read_call h herr hok

/-! ## The status writers -/

/-- A status that replaces the one that was read has the same step. -/
theorem Keeps.replace {ns name : String} {b : BlueGreenDeployment}
    (hb : b.currentStep.getD 0 = i) :
    course.Keeps i (Op.ask (.replaceStatus ns name b)) := by
  intro s h
  refine keeps_call (R := fun _ _ => True) h (fun a s' ha => ⟨?_, trivial⟩) fun a s' hat _ => hat
  obtain ⟨o, hserve, -, hx⟩ := climbOutside_answers ha
  have hw : s.1.Steady s'.1 := by
    rcases World.serve_replaceStatus hserve with heq | ⟨stored, hstored, -, heq⟩
    · rw [heq]
      exact .of_bgd_eq rfl rfl
    · rw [heq]
      refine ⟨fun b' hb' => ⟨stored, hstored, ?_⟩, rfl⟩
      cases hb'
      exact ⟨rfl, rfl, rfl, hb.trans (h.stands.object stored hstored).2.symm⟩
  exact h.steady hw hx

theorem withPhase_currentStep (latest : BlueGreenDeployment) (phase : BGDPhase) (generation : Int)
    (conditions : List BlueGreenDeploymentCondition) :
    (withPhase latest phase generation conditions).currentStep = latest.currentStep := by
  unfold BlueGreenDeployment.currentStep withPhase
  cases latest.status <;> rfl

theorem withConditions_currentStep (latest : BlueGreenDeployment)
    (f : List BlueGreenDeploymentCondition → List BlueGreenDeploymentCondition) :
    (withConditions latest f).currentStep = latest.currentStep := by
  unfold BlueGreenDeployment.currentStep withConditions
  cases latest.status <;> rfl

theorem Keeps.skip : course.Keeps i (.pure () : Op Unit) := fun _ h => h

theorem Keeps.now {k : Timestamp → Op α} (hk : ∀ now, course.Keeps i (k now)) :
    course.Keeps i ((Op.ask .now).bind k) :=
  .bind (.rewires Op.Asks.now.rewires) hk

theorem Keeps.patchStatus {ns : String} {patch : StatusPatch} (h : ¬ patch.SetsStep) :
    course.Keeps i (FluidBG.patchStatus bgd ns patch) :=
  .of_level ((ask_calls h).bind fun _ => trivial)

theorem Keeps.updateStatusPhase {ns : String} {phase : BGDPhase} :
    course.Keeps i (FluidBG.updateStatusPhase bgd ns phase) := by
  refine .read (fun _ => .skip) fun latest _ hstep => ?_
  dsimp only
  split
  · refine .now fun now => .bind (.replace ?_) fun _ => .skip
    rw [withPhase_currentStep]
    exact hstep
  · exact .skip

theorem Keeps.startDrain {ns : String} : course.Keeps i (FluidBG.startDrain bgd ns) :=
  .bind .updateStatusPhase fun _ => .now fun _ => .patchStatus id

theorem Keeps.publishReconcileErrorStatus {ns : String} {error : ReconcileError} :
    course.Keeps i (FluidBG.publishReconcileErrorStatus bgd ns error) := by
  unfold FluidBG.publishReconcileErrorStatus
  split
  · exact .now fun now => .patchStatus id
  · refine .read (fun _ => .skip) fun latest _ hstep => ?_
    refine .now fun now => .bind (.replace ?_) fun _ => .skip
    rw [withConditions_currentStep]
    exact hstep

theorem Keeps.beginDrainingAfterRollback {ns : String} :
    course.Keeps i (FluidBG.beginDrainingAfterRollback ctx bgd ns) := by
  refine .bind (.of_level (ask_calls trivial)) fun _ => ?_
  refine .bind (.rewires (Op.Rewires.startPluginDraining _ _ _ _)) fun _ => ?_
  refine .bind (.rewires (Op.Teardown.deleteDeployment _ _).rewires) fun _ => ?_
  exact .of_level (ask_calls trivial)

/-! ## The decision -/

/-- Step `i` has been met, and the splitters are about to be sent the percentage of the next. -/
def Leaving (course : Course) (i : Nat) (s : World × ClimbLog) : Prop :=
  course.At i s ∧ Climbed course.steps (i + 1) s.2.decisions

theorem Leaving.delivering {next : ProgressiveStep} (hnext : course.steps[i + 1]? = some next) :
    course.Delivering course.climbing (asU8 next.trafficPercent) (course.Leaving i) := by
  have hstep : ∀ s c a s', c.Sends (asU8 next.trafficPercent) → course.Leaving i s →
      climbOutside.answers s c a s' → course.Leaving i s' := by
    rintro s c a s' hc ⟨hat, hclimbed⟩ ha
    rcases hc with hasks | ⟨url, bearer, rfl⟩
    · obtain ⟨hw, hx⟩ := level_steady hasks.rewires.level ha
      exact ⟨hat.steady hw hx, by rw [hx]; exact hclimbed⟩
    · refine ⟨hat.deliver ⟨next, .inr hnext, rfl⟩ ha, ?_⟩
      rw [(shift_steady ha).2]
      exact hclimbed
  exact {
    inv := fun s h => ⟨i, h.1⟩
    plugins := fun s h => h.1.stands.plugins
    stable := At.stable.and (log_stable fun x => Climbed course.steps (i + 1) x.decisions)
    step := hstep
    may := fun s c hc h a s' ha => h.1.stepsUp (hstep s c a s' hc h ha).1 (.inl rfl) }

/-- **The note of a decision.** A promotion closes the climb, and a step up continues it. -/
theorem At.decide {dataCounts customCounts : Counts} (hdata : course.bgd.spec.DecidesOnData)
    (his : course.Is bgd) (hstep : bgd.currentStep.getD 0 = i) (h : course.At i s)
    (hw : s.1.Steady s'.1) (hx : s'.2 = s.2.decide bgd dataCounts customCounts) :
    course.At i s' ∧ ∀ step percent,
      decidePromotionAction bgd dataCounts customCounts bgd.currentStep =
        .ok (.advanceStep step percent) → Climbed course.steps (i + 1) s'.2.decisions := by
  have hon {action : PromotionAction} (haction : decidePromotionAction bgd dataCounts customCounts
      bgd.currentStep = .ok action) : DecidedOn course.steps i dataCounts action := by
    refine decidePromotionAction_on ?_ ?_ hstep h.inRange course.few haction
    · rw [his.spec]
      exact course.progressive
    · rw [his.spec]
      exact hdata
  have hclimb (hmet : ∃ step ∈ course.steps[i]?, step.MetBy dataCounts) :
      Climbed course.steps (i + 1) (s.2.decide bgd dataCounts customCounts).decisions := by
    obtain ⟨step, hget, hmet⟩ := hmet
    exact h.climbed.climb hget hstep hmet
  refine ⟨⟨h.stands.steady hw, h.inRange, ?_, ?_, ?_⟩, fun step percent haction => ?_⟩
  · rw [hx]
    exact h.delivered
  · rw [hx]
    exact h.climbed.stay _
  · rw [hx]
    refine h.promotes.concat fun hpromote => ?_
    obtain ⟨hlast, hmet⟩ := hon hpromote
    rw [hlast]
    exact hclimb hmet
  · rw [hx]
    exact hclimb (hon haction).1

theorem Climbs.decide {dataCounts customCounts : Counts} {k : Unit → Op α}
    (hdata : course.bgd.spec.DecidesOnData) (his : course.Is bgd)
    (hstep : bgd.currentStep.getD 0 = i)
    (hk : ∀ s, course.At i s → (∀ step percent,
      decidePromotionAction bgd dataCounts customCounts bgd.currentStep =
        .ok (.advanceStep step percent) → Climbed course.steps (i + 1) s.2.decisions) →
      climbOutside.Spec course.climbing (fun _ s => ∃ j, course.At j s)
        (fun _ s => ∃ j, course.At j s) (k ()) s) :
    course.Climbs i ((Op.note (.decide bgd dataCounts customCounts)).bind k) := by
  intro s h
  refine keeps_call (R := fun _ x => ∀ step percent,
    decidePromotionAction bgd dataCounts customCounts bgd.currentStep =
      .ok (.advanceStep step percent) → Climbed course.steps (i + 1) x.decisions) h
    (fun a s' ha => ?_) fun _ s' hat hclimbed => hk s' hat hclimbed
  obtain ⟨o, hserve, -, hx⟩ := climbOutside_answers ha
  refine h.decide hdata his hstep ?_ hx
  rw [World.serve_note hserve]
  exact .of_bgd_eq rfl rfl

/-- **One step up.** All splitters are sent the next percentage before the step is written, and a
write that is lost leaves the rollout where it was. -/
theorem Leaving.advance {next : ProgressiveStep} (hnext : course.steps[i + 1]? = some next)
    (his : course.Is bgd) (h : course.Leaving i s) :
    climbOutside.Spec course.climbing (fun _ s => ∃ j, course.At j s)
      (fun _ s => ∃ j, course.At j s)
      (performAction ctx bgd bgd.metadata.ns
        (.advanceStep (i + 1 : Nat) next.trafficPercent)) s := by
  have hrange : i + 1 < course.steps.length := (List.getElem?_eq_some_iff.mp hnext).1
  refine (((Leaving.delivering hnext).apply his h).mono (fun _ _ hq => hq)
    fun _ _ he => ⟨i, he.1⟩).bind fun _ s hs => ?_
  obtain ⟨⟨hat, hclimbed⟩, hsent⟩ := hs
  have hwritten : ∀ a s', climbOutside.answers s (.patchStatus bgd.metadata.ns bgd.metadata.name
      (.progress (i + 1 : Nat) next.trafficPercent)) a s' →
      course.At i s' ∨ course.At (i + 1) s' := by
    intro a s' ha
    obtain ⟨o, hserve, -, hx⟩ := climbOutside_answers ha
    change s'.2 = s.2 at hx
    rcases hat.stands.progress hserve with hstay | hup
    · left
      refine ⟨hstay, hat.inRange, ?_, ?_, ?_⟩ <;> rw [hx]
      exacts [hat.delivered, hat.climbed, hat.promotes]
    · right
      refine ⟨hup, hrange, fun url hurl => ?_, ?_, ?_⟩ <;> rw [hx]
      · exact ⟨(hsent url hurl).1, fun percent hmem =>
          ⟨next, .inl hnext, (hsent url hurl).2 percent hmem⟩⟩
      · exact hclimbed
      · exact hat.promotes
  refine ⟨fun a s' ha => ?_, fun a s' ha => ?_⟩
  · rcases hwritten a s' ha with h' | h'
    · exact hat.stepsUp h' (.inl rfl)
    · exact hat.stepsUp h' (.inr rfl)
  · rcases hwritten a s' ha with h' | h'
    · exact ⟨⟨i, h'⟩, fun s'' hl _ => ⟨i, At.stable.later h' hl⟩⟩
    · exact ⟨⟨i + 1, h'⟩, fun s'' hl _ => ⟨i + 1, At.stable.later h' hl⟩⟩

/-! ## One reconcile -/

theorem Climbs.reconcileObserving {stateKey : String} (hdata : course.bgd.spec.DecidesOnData)
    (his : course.Is bgd) (hstep : bgd.currentStep.getD 0 = i) :
    course.Climbs i (FluidBG.reconcileObserving ctx bgd bgd.metadata.ns stateKey) := by
  refine .after (.of_level (lift_calls _)) fun _ => ?_
  refine .after (.of_level (ask_calls trivial)) fun _ => .after (.of_level (stateStore_calls _))
    fun counts => ?_
  refine .after (.of_level (ask_calls trivial)) fun _ => .after (.of_level (stateStore_calls _))
    fun dataCounts => ?_
  refine .after (.of_level (ask_calls trivial)) fun _ => .after (.of_level (stateStore_calls _))
    fun customCounts => ?_
  refine .after (.of_level (ask_calls trivial)) fun _ => .after (.of_level (stateStore_calls _))
    fun latestFailureMessage => ?_
  refine .after (.patchStatus id) fun _ => ?_
  refine .decide hdata his hstep fun s hat hclimbed => ?_
  cases haction : decidePromotionAction bgd dataCounts customCounts bgd.currentStep with
  | error e => exact ⟨i, hat⟩
  | ok action =>
    have hon : DecidedOn course.steps i dataCounts action := by
      refine decidePromotionAction_on ?_ ?_ hstep hat.inRange course.few haction
      · rw [his.spec]
        exact course.progressive
      · rw [his.spec]
        exact hdata
    cases action with
    | continueObserving => exact ⟨i, hat⟩
    | promote => exact (Keeps.climbs .updateStatusPhase) s hat
    | rollback =>
      have hkeeps : course.Keeps i (performAction ctx bgd bgd.metadata.ns .rollback) :=
        .bind .beginDrainingAfterRollback fun _ => .startDrain
      exact hkeeps.climbs s hat
    | advanceStep step trafficPercent =>
      obtain ⟨-, hto, next, hnext, rfl⟩ := hon
      have hrange : i + 1 < course.steps.length := (List.getElem?_eq_some_iff.mp hnext).1
      have hfew := course.few
      rw [asI32_of_lt (by omega)] at hto
      subst hto
      exact Leaving.advance hnext his ⟨hat, hclimbed _ _ haction⟩

/-- A reconcile that finds the phase Observing does what its arm does. -/
theorem reconcileLocked_observes (h : Observes bgd) : FluidBG.reconcileLocked ctx bgd =
    (Op.note (.reconcile bgd)).bind fun _ => FluidBG.reconcileObserving ctx bgd bgd.metadata.ns
      (blueGreenStateKey bgd.metadata.ns bgd.metadata.name) := by
  obtain ⟨⟨hphase, hdeleted, hfinalizer⟩, hcurrent⟩ := h
  have hrestart : rolloutNeedsRestart bgd .observing = false := rfl
  have hforce : shouldStartForceReplaceRollout bgd .observing = false := by
    simp [shouldStartForceReplaceRollout, hcurrent]
  have hbgd : rolloutBgd ctx bgd bgd.metadata.ns .observing = .pure bgd := by
    unfold rolloutBgd
    simp [hcurrent]
  unfold FluidBG.reconcileLocked
  simp [hphase, hdeleted, hfinalizer, hrestart, hforce, hbgd, reconcilePhase]

theorem Climbs.reconcileLocked (hdata : course.bgd.spec.DecidesOnData)
    (his : course.Is bgd) (hstep : bgd.currentStep.getD 0 = i) :
    course.Climbs i (FluidBG.reconcileLocked ctx bgd) := by
  intro s h
  -- the note comes first, and the guard lets nothing but Observing pass it
  refine keeps_call (R := fun _ _ => Observes bgd) h (fun a s' ha => ?_) fun _ s' hat hobs => ?_
  · obtain ⟨o, hserve, hguard, hx⟩ := climbOutside_answers ha
    refine ⟨h.steady ?_ hx, hguard _ rfl⟩
    rw [World.serve_note hserve]
    exact .of_bgd_eq rfl rfl
  · have hrest : FluidBG.reconcileLocked ctx bgd = _ := reconcileLocked_observes hobs
    injection hrest with _ hk
    have harm : course.Climbs i (FluidBG.reconcileObserving ctx bgd bgd.metadata.ns
        (blueGreenStateKey bgd.metadata.ns bgd.metadata.name)) :=
      .reconcileObserving hdata his hstep
    exact (congrFun hk ()) ▸ harm s' hat

theorem Climbs.publishingErrors {work : Op Unit} (h : course.Climbs i work) :
    course.Climbs i (FluidBG.publishingErrors bgd work) := by
  intro s hs
  refine (Outside.Spec.result (Q := fun _ s => ∃ j, course.At j s) ?_).bind fun r s hs => ?_
  · exact h s hs
  obtain ⟨j, hat⟩ := hs
  cases r with
  | ok u => exact ⟨j, hat⟩
  | error e =>
    have hnote : (Call.note (.reconcileFailed e)).Level := trivial
    refine Climbs.after (i := j) (.of_level (ask_calls hnote)) (fun _ => ?_) s hat
    exact .after .publishReconcileErrorStatus fun _ s h => ⟨j, h⟩

theorem Climbs.withLatest {work : BlueGreenDeployment → Op Unit}
    (h : ∀ b, course.Is b → b.currentStep.getD 0 = i → course.Climbs i (work b)) :
    course.Climbs i (FluidBG.withLatest bgd work) := by
  refine fun s hs => read_call hs (fun e s' hat => ?_) fun b his hstep s' hat => ?_
  · cases e <;> exact ⟨i, hat⟩
  · exact h b his hstep s' hat

theorem Keeps.cleanupDeletedBgd : course.Keeps i (FluidBG.cleanupDeletedBgd bgd) := by
  refine .bind (.rewires (Op.Rewires.cleanupRollout _ _ _)) fun _ => ?_
  exact .of_level ((ask_calls trivial).bind fun _ => (kube_calls _).bind fun _ => trivial)

theorem Climbs.reconcile (hdata : course.bgd.spec.DecidesOnData) :
    course.Climbs i (FluidBG.reconcile ctx bgd) := by
  refine .after (.of_level (ask_calls trivial)) fun _ => ?_
  split
  · exact .publishingErrors (.withLatest fun _ _ _ => Keeps.cleanupDeletedBgd.climbs)
  · exact .publishingErrors (.withLatest fun _ his hstep => .reconcileLocked hdata his hstep)

end Rules

/-! ## Runs -/

/-- **The rollout climbs in order**: it is on one of its steps, the splitters are on that step or
the next one, and what was promoted has climbed all of them. -/
structure Climbing (course : Course) (s : World × ClimbLog) : Prop where
  step : ∀ b, s.1.bgd = some b → ∃ i : Nat, b.currentStep.getD 0 = i ∧ i < course.steps.length ∧
    ∀ url, course.Serves course.splitters url →
      s.2.delivered url ≠ [] ∧ ∀ percent ∈ s.2.delivered url, course.Percent i percent
  promotes : PromotesClimbed course.steps s.2.decisions

theorem At.isClimbing (h : course.At i s) : course.Climbing s :=
  ⟨fun b hb => ⟨i, (h.stands.object b hb).2, h.inRange, h.delivered⟩, h.promotes⟩

/-- The initialization, tried as often as it takes. -/
abbrev initialization (course : Course) (ctx : Ctx) (_ : Unit) : Op Unit :=
  initializeSplitterTraffic ctx course.bgd course.bgd.metadata.ns

/-- One step of a run changes the step of the object by at most one. -/
theorem stepsUp_of_step {attempt : BlueGreenDeployment → Op Unit}
    {t t' : Conf Call Answer ReconcileError (World × ClimbLog)}
    {e : Event BlueGreenDeployment Outcome Move}
    (hgood : Machine.Good climbCluster observingOnly course.climbing t)
    (hg : Machine.Meets observingOnly t e) (hs : climbCluster.step attempt t e = some t') :
    t.world.1.StepsUp t'.world.1 := by
  have hsame {w : World} (h : w = t.world.1) : t.world.1.StepsUp w := by
    rw [h]
    exact (World.Steady.of_bgd_eq rfl rfl).stepsUp
  rcases Machine.world_step hs with heq | heq | ⟨v, rfl, hm⟩ | ⟨c, k, o, a, rfl, hr, hv⟩
  · exact hsame (congrArg Prod.fst heq)
  · exact hsame (congrArg Prod.fst heq)
  · exact (move_steady ⟨v, hg, hm⟩).1.stepsUp
  · have hcall : observingOnly.call t.world c o := by
      simpa only [Machine.Meets, hr] using hg
    exact hgood.may hr a t'.world ⟨o, hcall, hv⟩

end Course

/-- **Progressive rollouts climb the steps in order.** -/
theorem climbs_in_order {course : Course} (hdata : course.bgd.spec.DecidesOnData) {ctx : Ctx}
    {w : World} {x : ClimbLog} (hbgd : w.bgd = some course.bgd)
    (hplugins : w.plugins = course.plugins) (hstart : course.bgd.currentStep.getD 0 = 0)
    (hx : x.decisions = []) {s₀ s : Conf Call Answer ReconcileError (World × ClimbLog)}
    (r₀ : Machine.Run climbCluster (course.initialization ctx) observingOnly ⟨(w, x), none⟩ s₀)
    (hended : s₀.running = some (.pure ()))
    (r : Machine.Run climbCluster (reconcile ctx) observingOnly ⟨s₀.world, none⟩ s) :
    (∀ b, s₀.world.1.bgd = some b → b.currentStep.getD 0 = 0) ∧ course.Climbing s.world ∧
      ∀ e s', Machine.Meets observingOnly s e → climbCluster.step (reconcile ctx) s e = some s' →
        s.world.1.StepsUp s'.world.1 := by
  have hbefore : course.Before (w, x) := by
    refine ⟨⟨fun b hb => ?_, hplugins⟩, hx⟩
    rw [hbgd] at hb
    cases hb
    exact ⟨⟨rfl, rfl, rfl⟩, hstart⟩
  have hbegun : course.Begun s₀.world :=
    (r₀.soundTo (K := Course.beginning course) Course.Before.stable (fun _ h => h)
      (fun _ _ h => Course.initialize_spec h) (.of_idle hbefore)).ended hended
  have hgood : Machine.Good climbCluster observingOnly course.climbing s := by
    refine r.sound (K := course.climbing) ?_ (fun _ h => h) (fun cached s hs => ?_)
      (.of_idle ⟨0, hbegun.at⟩)
    · rintro s s' ⟨i, hat⟩ hm
      exact ⟨i, Course.At.stable _ _ hat hm⟩
    · obtain ⟨i, hat⟩ := hs
      exact ((Course.Climbs.reconcile hdata) s hat).mono (fun _ _ _ => trivial) fun _ _ _ => trivial
  refine ⟨fun b hb => (hbegun.1.stands.object b hb).2, ?_, fun e s' hg hs => ?_⟩
  · obtain ⟨i, hat⟩ := hgood.1
    exact hat.isClimbing
  · exact Course.stepsUp_of_step hgood hg hs

/-! ## Runs of the sample -/

namespace Sample

/-- A splitter on the point, and its plugin. -/
def splitter : InceptionPoint := { orders with roles := [.splitter] }

def splitterPlugin : InceptionPlugin :=
  { plugin with spec := { plugin.spec with
      supportedRoles := [.splitter]
      features := some ⟨true⟩ } }

/-- One case for 5 percent of the traffic, and two for all of it. -/
def climbSteps : List ProgressiveStep := [⟨5, 1, 1 / 2⟩, ⟨100, 2, 1 / 2⟩]

/-- The sample with a progressive promotion on these criteria. -/
def climbBgd (data : Option DataPromotionSpec) (custom : Option CustomPromotionSpec) :
    BlueGreenDeployment :=
  { bgd .observing with spec := { spec with
      inceptionPoints := [splitter]
      promotion := some ⟨data, custom, ⟨.progressive, some ⟨climbSteps, true, none⟩⟩⟩ } }

def climbCourse (data : Option DataPromotionSpec) (custom : Option CustomPromotionSpec) :
    Course where
  bgd := climbBgd data custom
  plugins := [splitterPlugin]
  steps := climbSteps
  progressive := ⟨_, rfl, rfl, _, rfl, rfl⟩
  nonempty := by simp [climbSteps]
  few := by simp [climbSteps]

def climbWorld (bgd : BlueGreenDeployment) (records : List TestCaseRecord) : World :=
  { world .observing records with
    bgd := some bgd
    resources := [signingSecret]
    plugins := [splitterPlugin] }

/-- The initialization with one request to the splitter. -/
def climbStart : List (Event Unit Outcome Move) :=
  .start () :: List.replicate 4 (.answer .ok) ++ [.answer (.http (.ok ())), .answer .ok]

/-- An Observing reconcile that sends a percentage, and what becomes of the write of the step. -/
def climbStep (write : Outcome) : List Step :=
  .start (bgd .observing) :: served 13 ++ [.answer (.http (.ok ())), .answer write, .stop]

/-- The initialization, and what the reconciles after it lead to. -/
def climbRun {β : Type} (course : Course) (records : List TestCaseRecord) (events : List Step)
    (f : World × ClimbLog → β) : Option β :=
  (climbCluster.run observingOnly (course.initialization ctx)
    ⟨(climbWorld course.bgd records, .empty), none⟩ climbStart).bind fun s₀ =>
      if s₀.ended then
        (climbCluster.run observingOnly (reconcile ctx) ⟨s₀.world, none⟩ events).map
          fun s => f s.world
      else none

theorem climbRun_exists {β : Type} {course : Course} {records : List TestCaseRecord}
    {events : List Step} {f : World × ClimbLog → β} {y : β}
    (h : climbRun course records events f = some y) : ∃ s₀ s,
      Machine.Run climbCluster (course.initialization ctx) observingOnly
        ⟨(climbWorld course.bgd records, .empty), none⟩ s₀ ∧ s₀.running = some (.pure ()) ∧
      Machine.Run climbCluster (reconcile ctx) observingOnly ⟨s₀.world, none⟩ s ∧
      f s.world = y := by
  obtain ⟨s₀, hs₀, h⟩ := Option.bind_eq_some_iff.mp h
  split at h
  · rename_i hended
    obtain ⟨s, hs, hf⟩ := Option.map_eq_some_iff.mp h
    exact ⟨s₀, s, .of_run .nil hs₀, Conf.running_of_ended hended, .of_run .nil hs, hf⟩
  · cases h

end Sample

def climbsInOrderLostWriteRun :
    PLift (Sample.climbRun (Sample.climbCourse (some ⟨none, none, none⟩) none)
      [Sample.testCase "t1" .passed]
      (Sample.climbStep (.refused "timeout") ++ Sample.climbStep .ok)
      (fun s => s.1.bgd.map (·.currentStep)) = some (some (some 1))) :=
  ⟨by decide +kernel⟩

/-- The write of the second step is lost once, and the next reconcile repeats it. -/
theorem climbs_in_order_lost_write :
    ∃ s : World × ClimbLog, s.1.bgd.map (·.currentStep) = some (some 1) ∧
      (Sample.climbCourse (some ⟨none, none, none⟩) none).Climbing s := by
  have hrun := climbsInOrderLostWriteRun.down
  obtain ⟨s₀, s, r₀, hended, r, hstep⟩ := Sample.climbRun_exists hrun
  have hdata : (Sample.climbCourse (some ⟨none, none, none⟩) none).bgd.spec.DecidesOnData :=
    ⟨_, rfl, by simp⟩
  exact ⟨s.world, hstep, (climbs_in_order hdata rfl rfl rfl rfl r₀ hended r).2.1⟩

/-- Without a criterion on data the steps are not looked at: one custom case promotes at the first
of them. -/
theorem custom_promotes_at_first_step :
    ¬ ∀ (course : Course) (ctx : Ctx) (w : World) (x : ClimbLog)
      (s₀ s : Conf Call Answer ReconcileError (World × ClimbLog)), w.bgd = some course.bgd →
      w.plugins = course.plugins → course.bgd.currentStep.getD 0 = 0 → x.decisions = [] →
      Machine.Run climbCluster (course.initialization ctx) observingOnly ⟨(w, x), none⟩ s₀ →
      s₀.running = some (.pure ()) →
      Machine.Run climbCluster (reconcile ctx) observingOnly ⟨s₀.world, none⟩ s →
      course.Climbing s.world := by
  intro h
  have hrun : Sample.climbRun (Sample.climbCourse none (some ⟨none, none⟩))
      [{ Sample.testCase "t1" .passed with verificationMode := .custom }] (Sample.attempt 9)
      (fun s => s.2.decisions.map fun d => (d.step, d.counts.total, d.action)) =
        some [(0, 0, .ok .promote)] := by decide +kernel
  obtain ⟨s₀, s, r₀, hended, r, hdecisions⟩ := Sample.climbRun_exists hrun
  have hclimbing := h _ _ _ _ _ _ rfl rfl rfl rfl r₀ hended r
  obtain ⟨d, hd, hd'⟩ := List.map_eq_singleton_iff.mp hdecisions
  simp only [Prod.mk.injEq] at hd'
  have hclimbed := hclimbing.promotes [] d [] hd hd'.2.2
  -- one decision cannot have met both steps
  have hsteps : (Sample.climbCourse none (some ⟨none, none⟩)).steps.length = 2 := rfl
  have hle := hclimbed.le_length
  rw [hsteps] at hle
  simp at hle

end FluidBG
