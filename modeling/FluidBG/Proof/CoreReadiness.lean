import FluidBG.Plugins.CoreMode
import FluidBG.Plugins.Sample
import Mathlib.Data.Fintype.Basic
/-!
# Activation in core mode

A request to `/activate` clears the mask and waits until every pipeline has recorded that it has
subscribed. A pipeline records this once, when it subscribes: so the mask says what it should only
as long as no request clears it under a subscription, no pipeline that has recorded leaves under a
request, and a request does not look, or begin to wait, in the middle of a record.
-/

set_option autoImplicit false

namespace FluidBG.Nats

open Lib

/-! ## The mask -/

/-- The request waits for this pipeline. -/
def Expects (roles : List PluginRole) (p : CorePipeline) : Prop :=
  (coreReadinessMask roles).testBit p.bit

instance decidableExpects (roles : List PluginRole) : DecidablePred (Expects roles) :=
  fun p => inferInstanceAs (Decidable ((coreReadinessMask roles).testBit p.bit = true))

theorem coreReadinessMask_lt (roles : List PluginRole) : coreReadinessMask roles < 2 ^ 3 := by
  unfold coreReadinessMask
  split
  · decide
  · split <;> decide

/-- **The check of a request** asks for the bits of its pipelines. -/
theorem coreReady_iff {roles : List PluginRole} {s : CoreState} :
    s.coreReady (coreReadinessMask roles) ↔ ∀ p, Expects roles p → s.mask.testBit p.bit := by
  have hready : s.coreReady (coreReadinessMask roles) ↔
      s.mask &&& coreReadinessMask roles = coreReadinessMask roles := by
    unfold CoreState.coreReady
    simp only [Bool.or_eq_true, decide_eq_true_eq, or_iff_right_iff_imp]
    intro hzero
    rw [hzero, Nat.and_zero]
  rw [hready]
  constructor
  · intro h p hp
    rw [Expects, ← h, Nat.testBit_and, Bool.and_eq_true] at hp
    exact hp.1
  · intro h
    apply Nat.eq_of_testBit_eq
    intro i
    rw [Nat.testBit_and]
    cases hi : (coreReadinessMask roles).testBit i with
    | false => rw [Bool.and_false]
    | true =>
      have hlt : i < 3 := by
        by_contra hge
        have hpow := Nat.pow_le_pow_right (n := 2) (by decide) (Nat.le_of_not_lt hge)
        rw [Nat.testBit_lt_two_pow (Nat.lt_of_lt_of_le (coreReadinessMask_lt roles) hpow)] at hi
        cases hi
      have hpipeline : ∃ p : CorePipeline, p.bit = i := by
        have hcases : i = 0 ∨ i = 1 ∨ i = 2 := by omega
        rcases hcases with rfl | rfl | rfl
        · exact ⟨.input, rfl⟩
        · exact ⟨.greenOutput, rfl⟩
        · exact ⟨.blueOutput, rfl⟩
      obtain ⟨p, rfl⟩ := hpipeline
      rw [h p hi, Bool.and_true]

theorem bit_inj {p q : CorePipeline} (h : p.bit = q.bit) : p = q := by
  cases p <;> cases q <;> first | rfl | cases h

/-- `fetch_or` sets the bit of the pipeline. -/
theorem testBit_record (mask : Nat) (p q : CorePipeline) :
    (mask ||| p.mask).testBit q.bit = (mask.testBit q.bit || decide (p = q)) := by
  rw [Nat.testBit_or, CorePipeline.mask, Nat.testBit_two_pow]
  by_cases h : p = q
  · simp [h]
  · have hbit : p.bit ≠ q.bit := fun heq => h (bit_inj heq)
    simp [h, hbit]

/-! ## Where the tasks are -/

/-- In its receive loop, with a subscription. -/
def PipelinePoint.Receives (point : PipelinePoint) : Prop :=
  point = .loopCheck ∨ point = .polling ∨ point = .processing

/-- It has recorded its subscription, and holds it. -/
def PipelinePoint.Recorded (point : PipelinePoint) : Prop := point = .recorded ∨ point.Receives

/-- The next step of the pipeline leaves its receive loop. -/
def PipelinePoint.Leaves (mode : RuntimeMode) (result : PipelineResult)
    (point : PipelinePoint) : Prop :=
  point = .loopCheck ∧ mode ≠ .active ∨ point = .polling ∧ result = .failed

/-- The request has cleared the mask, and may still succeed. -/
def ActivationPoint.UnderWay (point : ActivationPoint) : Prop :=
  point = .activating ∨ point = .checking ∨ point = .creating ∨ (∃ woken, point = .waiting woken) ∨
    point = .answering true

/-- The request waits for a wake-up, or is about to. -/
def ActivationPoint.Asleep (point : ActivationPoint) : Prop :=
  point = .creating ∨ point = .waiting false

/-- The condition on a step: a request does not clear the mask when a pipeline has recorded its
subscription, and does not check it while one records; a pipeline that has its bit does not leave
under a request, and does not wake others when a request is about to wait. -/
def Undisturbed (roles : List PluginRole) (s : CoreState) : CoreEvent → Prop
  | .activate i =>
    (s.activations[i]? = some .resetting →
      ∀ p, Expects roles p → ¬ (s.pipelines p).Recorded) ∧
    (s.activations[i]? = some .checking → ∀ p, Expects roles p → s.pipelines p ≠ .recorded)
  | .pipeline p result => Expects roles p →
    ((s.pipelines p).Leaves s.mode result → s.mask.testBit p.bit →
      ∀ a ∈ s.activations, ¬ a.UnderWay) ∧
    (s.pipelines p = .recorded → .creating ∉ s.activations)
  | _ => True

/-! ## The invariant -/

structure Ready (roles : List PluginRole) (s : CoreState) : Prop where
  /-- What a pipeline has recorded is in the mask. -/
  recorded : ∀ p, Expects roles p → (s.pipelines p).Recorded → s.mask.testBit p.bit
  /-- Under a request, what is in the mask is true. -/
  held : ∀ a ∈ s.activations, a.UnderWay → ∀ p, Expects roles p → s.mask.testBit p.bit →
    (s.pipelines p).Recorded
  succeeds : .answering true ∈ s.activations → ∀ p, Expects roles p → (s.pipelines p).Receives
  /-- A request that waits has a pipeline to wait for. -/
  asleep : ∀ a ∈ s.activations, a.Asleep → ∃ p, Expects roles p ∧
    (s.mask.testBit p.bit = false ∨ s.pipelines p = .recorded)

section Invariant

variable {state : WorkerState Config} {s s' : CoreState}

theorem Ready.start : Ready state.roles (CoreState.start state) where
  recorded p _ h := by
    have hpoint : (CoreState.start state).pipelines p = .modeCheck ∨
        (CoreState.start state).pipelines p = .returned := by
      unfold CoreState.start
      simp only
      split
      · exact .inl rfl
      · exact .inr rfl
    rcases hpoint with hpoint | hpoint <;>
      simp [PipelinePoint.Recorded, PipelinePoint.Receives, hpoint] at h
  held a h := by simp [CoreState.start] at h
  succeeds h := by simp [CoreState.start] at h
  asleep a h := by simp [CoreState.start] at h

/-- The mode has no part in the invariant. -/
theorem Ready.mode (h : Ready state.roles s) (mode : RuntimeMode) :
    Ready state.roles { s with mode := mode } :=
  ⟨h.recorded, h.held, h.succeeds, h.asleep⟩

/-- A request goes to another point. -/
theorem Ready.goto (h : Ready state.roles s) (i : Nat) {a : ActivationPoint}
    (hunder : a.UnderWay → ∀ p, Expects state.roles p → s.mask.testBit p.bit →
      (s.pipelines p).Recorded)
    (hsucceeds : a = .answering true → ∀ p, Expects state.roles p → (s.pipelines p).Receives)
    (hasleep : a.Asleep → ∃ p, Expects state.roles p ∧
      (s.mask.testBit p.bit = false ∨ s.pipelines p = .recorded)) :
    Ready state.roles { s with activations := s.activations.set i a } where
  recorded := h.recorded
  held b hb := by
    rcases List.mem_or_eq_of_mem_set hb with hb | rfl
    · exact h.held b hb
    · exact hunder
  succeeds hb := by
    rcases List.mem_or_eq_of_mem_set hb with hb | hb
    · exact h.succeeds hb
    · exact hsucceeds hb.symm
  asleep b hb := by
    rcases List.mem_or_eq_of_mem_set hb with hb | rfl
    · exact h.asleep b hb
    · exact hasleep

/-- **A step of a request** keeps the invariant. -/
theorem Ready.stepActivation (h : Ready state.roles s) {i : Nat} {a : ActivationPoint}
    (ha : s.activations[i]? = some a) (hg : Undisturbed state.roles s (.activate i))
    (hs : s.stepActivation state i a = some s') : Ready state.roles s' := by
  have hmem : a ∈ s.activations := List.mem_of_getElem? ha
  cases a with
  | resetting =>
    obtain rfl := Option.some.inj hs
    have hnone := hg.1 ha
    -- no pipeline holds a subscription that it has recorded
    refine ⟨fun p hp hrecorded => absurd hrecorded (hnone p hp), fun b _ _ p hp hbit => ?_,
      fun hb p hp => ?_, fun b hb hasleep => ?_⟩
    · simp at hbit
    · rcases List.mem_or_eq_of_mem_set hb with hb | hb
      · exact absurd (.inr (h.succeeds hb p hp)) (hnone p hp)
      · cases hb
    · rcases List.mem_or_eq_of_mem_set hb with hb | rfl
      · obtain ⟨p, hp, _⟩ := h.asleep b hb hasleep
        exact ⟨p, hp, .inl (Nat.zero_testBit _)⟩
      · simp [ActivationPoint.Asleep] at hasleep
  | activating =>
    obtain rfl := Option.some.inj hs
    refine (h.mode .active).goto i (fun _ => ?_) (by simp) (by simp [ActivationPoint.Asleep])
    exact h.held _ hmem (.inl rfl)
  | checking =>
    obtain rfl := Option.some.inj hs
    have hheld := h.held _ hmem (.inr (.inl rfl))
    refine h.goto i (fun _ => hheld) (fun hready p hp => ?_) (fun hasleep => ?_)
    · have hall : s.coreReady (coreReadinessMask state.roles) := by
        by_contra hnot
        rw [if_neg hnot] at hready
        cases hready
      have hrecorded := hheld p hp (coreReady_iff.mp hall p hp)
      exact hrecorded.resolve_left (hg.2 ha p hp)
    · have hnot : ¬ s.coreReady (coreReadinessMask state.roles) := by
        intro hall
        rw [if_pos hall] at hasleep
        simp [ActivationPoint.Asleep] at hasleep
      rw [coreReady_iff] at hnot
      push Not at hnot
      obtain ⟨p, hp, hbit⟩ := hnot
      exact ⟨p, hp, .inl (by simpa using hbit)⟩
  | creating =>
    obtain rfl := Option.some.inj hs
    refine h.goto i (fun _ => ?_) (by simp) fun _ => h.asleep _ hmem (.inl rfl)
    exact h.held _ hmem (.inr (.inr (.inl rfl)))
  | waiting woken =>
    cases woken with
    | false => cases hs
    | true =>
      obtain rfl := Option.some.inj hs
      refine h.goto i (fun _ => ?_) (by simp) (by simp [ActivationPoint.Asleep])
      exact h.held _ hmem (.inr (.inr (.inr (.inl ⟨true, rfl⟩))))
  | answering ok =>
    obtain rfl := Option.some.inj hs
    exact h.goto i (by simp [ActivationPoint.UnderWay]) (by simp) (by simp [ActivationPoint.Asleep])
  | answered ok => cases hs

/-- Where a pipeline has recorded its subscription after a step, it had before, or it does now. -/
theorem PipelinePoint.recorded_next {point : PipelinePoint} {subject : Bool} {mode : RuntimeMode}
    {result : PipelineResult} :
    ((point.next subject mode result).Recorded ↔
      point = .subscribed ∨ point.Recorded ∧ ¬ point.Leaves mode result) ∧
    (point.next subject mode result = .recorded ↔ point = .subscribed) := by
  unfold PipelinePoint.Recorded PipelinePoint.Receives PipelinePoint.Leaves
  cases point with
  | modeCheck =>
    simp only [PipelinePoint.next]
    split
    · simp
    · split <;> simp
  | connecting | subscribing | loopCheck =>
    simp only [PipelinePoint.next]
    split <;> simp_all
  | polling => cases result <;> simp [PipelinePoint.next]
  | subscribed | recorded | processing | returned => simp [PipelinePoint.next]

section Pipeline

variable {p q : CorePipeline} {result : PipelineResult}

theorem stepPipeline_point : (s.stepPipeline state p result).pipelines p =
    (s.pipelines p).next (hasSubject state p) s.mode result :=
  Function.update_self ..

theorem stepPipeline_other (h : q ≠ p) :
    (s.stepPipeline state p result).pipelines q = s.pipelines q :=
  Function.update_of_ne h ..

/-- Only the pipeline that has subscribed sets a bit, and it sets its own. -/
theorem stepPipeline_bit : (s.stepPipeline state p result).mask.testBit q.bit ↔
    s.mask.testBit q.bit ∨ s.pipelines p = .subscribed ∧ p = q := by
  unfold CoreState.stepPipeline
  by_cases h : s.pipelines p = .subscribed
  · simp only [h, if_true, testBit_record, Bool.or_eq_true, decide_eq_true_eq, true_and]
  · simp [h]

/-- A wake-up changes nothing but who is asleep. -/
theorem of_mem_stepPipeline {a : ActivationPoint}
    (h : a ∈ (s.stepPipeline state p result).activations) :
    ∃ b ∈ s.activations, (a.UnderWay → b.UnderWay) ∧
      (a = .answering true → b = .answering true) ∧
      (a.Asleep → b.Asleep ∧ (s.pipelines p = .recorded → b = .creating)) := by
  unfold CoreState.stepPipeline at h
  simp only at h
  split at h
  · obtain ⟨b, hb, rfl⟩ := List.mem_map.mp h
    refine ⟨b, hb, ?_⟩
    cases b <;>
      simp [ActivationPoint.notify, ActivationPoint.UnderWay, ActivationPoint.Asleep]
  · rename_i hnot
    exact ⟨a, h, id, id, fun hasleep => ⟨hasleep, fun hrecorded => absurd hrecorded hnot⟩⟩

/-- **A step of a pipeline** keeps the invariant. -/
theorem Ready.stepPipeline (h : Ready state.roles s)
    (hg : Undisturbed state.roles s (.pipeline p result)) :
    Ready state.roles (s.stepPipeline state p result) where
  recorded q hq hrecorded := by
    rw [stepPipeline_bit]
    by_cases hqp : q = p
    · subst hqp
      rw [stepPipeline_point, PipelinePoint.recorded_next.1] at hrecorded
      rcases hrecorded with hsubscribed | ⟨hrecorded, _⟩
      · exact .inr ⟨hsubscribed, rfl⟩
      · exact .inl (h.recorded q hq hrecorded)
    · rw [stepPipeline_other hqp] at hrecorded
      exact .inl (h.recorded q hq hrecorded)
  held a ha hunder q hq hbit := by
    obtain ⟨b, hb, hunder', _, _⟩ := of_mem_stepPipeline ha
    rw [stepPipeline_bit] at hbit
    by_cases hqp : q = p
    · subst hqp
      rw [stepPipeline_point, PipelinePoint.recorded_next.1]
      rcases hbit with hbit | ⟨hsubscribed, _⟩
      · refine .inr ⟨h.held b hb (hunder' hunder) q hq hbit, fun hleaves => ?_⟩
        exact (hg hq).1 hleaves hbit b hb (hunder' hunder)
      · exact .inl hsubscribed
    · rw [stepPipeline_other hqp]
      have hbit := hbit.resolve_right fun hset => hqp hset.2.symm
      exact h.held b hb (hunder' hunder) q hq hbit
  succeeds ha q hq := by
    obtain ⟨b, hb, _, hanswer, _⟩ := of_mem_stepPipeline ha
    obtain rfl := hanswer rfl
    have hreceives := h.succeeds hb q hq
    by_cases hqp : q = p
    · subst hqp
      -- it does not leave, since the request has not been answered yet
      have hstays : ¬ (s.pipelines q).Leaves s.mode result := fun hleaves =>
        (hg hq).1 hleaves (h.recorded q hq (.inr hreceives)) _ hb
          (.inr (.inr (.inr (.inr rfl))))
      have hnext : ((s.pipelines q).next (hasSubject state q) s.mode result).Recorded :=
        PipelinePoint.recorded_next.1.mpr (.inr ⟨.inr hreceives, hstays⟩)
      rw [stepPipeline_point]
      refine hnext.resolve_left fun hrecorded => ?_
      rw [PipelinePoint.recorded_next.2] at hrecorded
      rw [hrecorded] at hreceives
      simp [PipelinePoint.Receives] at hreceives
    · rw [stepPipeline_other hqp]
      exact hreceives
  asleep a ha hasleep := by
    obtain ⟨b, hb, _, _, hasleep'⟩ := of_mem_stepPipeline ha
    obtain ⟨hasleep', hcreating⟩ := hasleep' hasleep
    obtain ⟨q, hq, hwaits⟩ := h.asleep b hb hasleep'
    refine ⟨q, hq, ?_⟩
    by_cases hqp : q = p
    · subst hqp
      by_cases hrecorded : s.pipelines q = .recorded
      · exact absurd (hcreating hrecorded ▸ hb) ((hg hq).2 hrecorded)
      · have hbit := hwaits.resolve_right hrecorded
        by_cases hsubscribed : s.pipelines q = .subscribed
        · right
          rw [stepPipeline_point, PipelinePoint.recorded_next.2]
          exact hsubscribed
        · left
          rw [Bool.eq_false_iff, Ne, stepPipeline_bit, hbit]
          simp [hsubscribed]
    · rw [stepPipeline_other hqp, Bool.eq_false_iff, Ne, stepPipeline_bit]
      refine hwaits.imp_left fun hbit => ?_
      rw [hbit]
      simp [Ne.symm hqp]

end Pipeline

/-- **Every step** keeps the invariant. -/
theorem Ready.step (h : Ready state.roles s) {e : CoreEvent} (hg : Undisturbed state.roles s e)
    (hs : s.step state e = some s') : Ready state.roles s' := by
  cases e with
  | request =>
    obtain rfl := Option.some.inj hs
    have hmem : ∀ a ∈ s.activations ++ [.resetting], a ∈ s.activations ∨ a = .resetting := by
      intro a ha
      simpa using ha
    refine ⟨h.recorded, fun a ha hunder => ?_, fun ha => ?_, fun a ha hasleep => ?_⟩
    · rcases hmem a ha with ha | rfl
      · exact h.held a ha hunder
      · simp [ActivationPoint.UnderWay] at hunder
    · rcases hmem _ ha with ha | ha
      · exact h.succeeds ha
      · cases ha
    · rcases hmem a ha with ha | rfl
      · exact h.asleep a ha hasleep
      · simp [ActivationPoint.Asleep] at hasleep
  | activate i =>
    obtain ⟨a, ha, hs⟩ := Option.bind_eq_some_iff.mp hs
    exact h.stepActivation ha hg hs
  | timeout i =>
    simp only [CoreState.step] at hs
    split at hs
    · obtain rfl := Option.some.inj hs
      exact h.goto i (by simp [ActivationPoint.UnderWay]) (by simp)
        (by simp [ActivationPoint.Asleep])
    · cases hs
  | prepare | drain | cleanup =>
    obtain rfl := Option.some.inj hs
    exact h.mode _
  | pipeline p result =>
    simp only [CoreState.step] at hs
    split at hs
    · cases hs
    · obtain rfl := Option.some.inj hs
      exact h.stepPipeline hg

end Invariant

/-! ## The theorem -/

/-- **The handshake.** In a run that is not disturbed, a request succeeds only while all its
pipelines are in their receive loops; and when they all are, the mask says so and no request sleeps
or is about to. -/
theorem core_handshake (state : WorkerState Config) {s : CoreState}
    (r : (coreInceptor state).Run (Undisturbed state.roles) (CoreState.start state) s) :
    (.answering true ∈ s.activations →
      ∀ p, Expects state.roles p → (s.pipelines p).Receives) ∧
    (s.mode = .active → (∀ p, Expects state.roles p → (s.pipelines p).Receives) →
      s.coreReady (coreReadinessMask state.roles) ∧
      .creating ∉ s.activations ∧ .waiting false ∉ s.activations) := by
  have h : Ready state.roles s := r.holds Ready.start fun _ _ _ hready hg hs => hready.step hg hs
  refine ⟨h.succeeds, fun _ hall => ⟨?_, ?_⟩⟩
  · rw [coreReady_iff]
    intro p hp
    exact h.recorded p hp (.inr (hall p hp))
  · have hawake : ∀ a ∈ s.activations, ¬ a.Asleep := by
      intro a ha hasleep
      obtain ⟨p, hp, hwaits⟩ := h.asleep a ha hasleep
      rcases hwaits with hbit | hrecorded
      · rw [h.recorded p hp (.inr (hall p hp))] at hbit
        cases hbit
      · have hreceives := hall p hp
        rw [hrecorded] at hreceives
        simp [PipelinePoint.Receives] at hreceives
    exact ⟨fun hmem => hawake _ hmem (.inl rfl), fun hmem => hawake _ hmem (.inr rfl)⟩

/-! ### Runs of a combiner -/

section Sample

/-- A combiner in core mode. -/
def coreCombiner : WorkerState Config where
  crates := Sample.workerCrates
  config := { Config.empty with
    mode := .core
    combiner := some {
      outputSubject := some "results"
      greenOutputSubject := some "fluidbg.green"
      blueOutputSubject := some "fluidbg.blue"
      greenOutputSubjectEnvVar := none
      blueOutputSubjectEnvVar := none
      temporarySubjectIdentifier := none } }
  roles := [.combiner]
  trafficPercent := 0
  runtime := Sample.workerRuntime

/-- A pipeline connects, subscribes and records it. -/
def subscribes (p : CorePipeline) : List CoreEvent := List.replicate 5 (.pipeline p .ok)

/-- A request that finds both pipelines outside of their loops and waits for them. -/
def firstActivation : List CoreEvent :=
  [.request] ++ List.replicate 4 (.activate 0) ++ subscribes .greenOutput ++
    List.replicate 3 (.activate 0) ++ subscribes .blueOutput ++ List.replicate 2 (.activate 0)

/-- What a run comes to: the mode, whether the mask says ready, where the two pipelines are, and
where the requests are. -/
def outcome (s : CoreState) :
    RuntimeMode × Bool × PipelinePoint × PipelinePoint × List ActivationPoint :=
  (s.mode, s.coreReady (coreReadinessMask coreCombiner.roles), s.pipelines .greenOutput,
    s.pipelines .blueOutput, s.activations)

instance fintypeCorePipeline : Fintype CorePipeline :=
  ⟨{.input, .greenOutput, .blueOutput}, fun p => by cases p <;> decide⟩

instance decidableReceives (point : PipelinePoint) : Decidable point.Receives :=
  inferInstanceAs (Decidable (point = .loopCheck ∨ point = .polling ∨ point = .processing))

instance decidableRecorded (point : PipelinePoint) : Decidable point.Recorded :=
  inferInstanceAs (Decidable (point = .recorded ∨ point.Receives))

instance decidableLeaves (mode : RuntimeMode) (result : PipelineResult) (point : PipelinePoint) :
    Decidable (point.Leaves mode result) :=
  inferInstanceAs (Decidable (point = .loopCheck ∧ mode ≠ .active ∨
    point = .polling ∧ result = .failed))

instance decidableUnderWay (a : ActivationPoint) : Decidable a.UnderWay :=
  inferInstanceAs (Decidable (a = .activating ∨ a = .checking ∨ a = .creating ∨
    (∃ woken, a = .waiting woken) ∨ a = .answering true))

instance decidableUndisturbed (roles : List PluginRole) (s : CoreState) :
    (e : CoreEvent) → Decidable (Undisturbed roles s e)
  | .activate i => inferInstanceAs (Decidable
      ((s.activations[i]? = some .resetting →
        ∀ p, Expects roles p → ¬ (s.pipelines p).Recorded) ∧
      (s.activations[i]? = some .checking → ∀ p, Expects roles p → s.pipelines p ≠ .recorded)))
  | .pipeline p result => inferInstanceAs (Decidable (Expects roles p →
      ((s.pipelines p).Leaves s.mode result → s.mask.testBit p.bit →
        ∀ a ∈ s.activations, ¬ a.UnderWay) ∧
      (s.pipelines p = .recorded → .creating ∉ s.activations)))
  | .request => .isTrue trivial
  | .timeout _ => .isTrue trivial
  | .prepare => .isTrue trivial
  | .drain => .isTrue trivial
  | .cleanup => .isTrue trivial

def coreHandshakeCombinerRun :
    PLift ((Steps.run (coreInceptor coreCombiner) (Undisturbed coreCombiner.roles)
      (CoreState.start coreCombiner) firstActivation).map (·.activations) =
        some [.answering true]) :=
  ⟨by decide +kernel⟩

/-- The request succeeds when both pipelines are in their loops. -/
theorem core_handshake_combiner : ∃ s : CoreState, .answering true ∈ s.activations ∧
    ∀ p, Expects coreCombiner.roles p → (s.pipelines p).Receives := by
  have h := coreHandshakeCombinerRun.down
  obtain ⟨s, r, hs⟩ := Steps.Run.exists_of_run h
  have hmem : .answering true ∈ s.activations := by
    rw [hs]
    exact List.mem_singleton_self _
  exact ⟨s, hmem, (core_handshake coreCombiner r).1 hmem⟩

def coreHandshakeFailsRetried : PLift ((Steps.run (coreInceptor coreCombiner) (fun _ _ => True)
      (CoreState.start coreCombiner) (firstActivation ++ [.activate 0, .request] ++
        List.replicate 4 (.activate 1) ++ [.timeout 1, .activate 1])).map outcome =
      some (.active, false, .loopCheck, .loopCheck, [.answered true, .answered false])) :=
  ⟨by decide +kernel⟩

def coreHandshakeFailsStale : PLift ((Steps.run (coreInceptor coreCombiner) (fun _ _ => True)
      (CoreState.start coreCombiner) ([.request] ++ List.replicate 4 (.activate 0) ++
        subscribes .greenOutput ++ [.pipeline .greenOutput .ok, .pipeline .greenOutput .failed] ++
        subscribes .blueOutput ++ List.replicate 2 (.activate 0))).map outcome =
      some (.active, true, .modeCheck, .loopCheck, [.answering true])) :=
  ⟨by decide +kernel⟩

def coreHandshakeFailsLost : PLift ((Steps.run (coreInceptor coreCombiner) (fun _ _ => True)
      (CoreState.start coreCombiner) ([.request] ++ List.replicate 3 (.activate 0) ++
        subscribes .greenOutput ++ subscribes .blueOutput ++ [.activate 0])).map outcome =
      some (.active, true, .loopCheck, .loopCheck, [.waiting false])) :=
  ⟨by decide +kernel⟩

/-- A request that comes again finds no bit and is refused, while both pipelines receive; a request
succeeds when the subscription of green has ended; and one that looks before the two subscribe, and
waits after it, sleeps. -/
theorem core_handshake_fails :
    (∃ s, (coreInceptor coreCombiner).Run (fun _ _ => True) (CoreState.start coreCombiner) s ∧
      outcome s = (.active, false, .loopCheck, .loopCheck, [.answered true, .answered false])) ∧
    (∃ s, (coreInceptor coreCombiner).Run (fun _ _ => True) (CoreState.start coreCombiner) s ∧
      outcome s = (.active, true, .modeCheck, .loopCheck, [.answering true])) ∧
    ∃ s, (coreInceptor coreCombiner).Run (fun _ _ => True) (CoreState.start coreCombiner) s ∧
      outcome s = (.active, true, .loopCheck, .loopCheck, [.waiting false]) := by
  have hretried := coreHandshakeFailsRetried.down
  have hstale := coreHandshakeFailsStale.down
  have hlost := coreHandshakeFailsLost.down
  exact ⟨Steps.Run.exists_of_run hretried, Steps.Run.exists_of_run hstale,
    Steps.Run.exists_of_run hlost⟩

end Sample

end FluidBG.Nats
