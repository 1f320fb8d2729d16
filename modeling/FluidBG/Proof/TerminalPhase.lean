import FluidBG.Proof.Reconcile
import FluidBG.Sample
/-!
# The phase a drain ends in

`finalize_draining` chooses between Completed and RolledBack from the counts and the update policy
it finds, and no record of how the drain was entered is kept. The observer below keeps that record:
the entry of the drain under way, and for each drain that has ended its entry and its final phase.
-/

set_option autoImplicit false

namespace FluidBG

open Lib

/-- What has been seen of the drains of a run. -/
structure DrainLog where
  /-- The entry that has last returned. -/
  started : Option DrainEntry
  /-- The entry of the drain under way. -/
  entry : Option DrainEntry
  /-- The drains that have ended. -/
  endings : List (Option DrainEntry × BGDPhase)
  deriving DecidableEq, Repr

namespace DrainLog

def empty : DrainLog := ⟨none, none, []⟩

def write (x : DrainLog) (before after : Option BGDPhase) : DrainLog :=
  if before = some .draining then
    if after = some .completed then { x with endings := x.endings ++ [(x.entry, .completed)] }
    else if after = some .rolledBack then
      { x with endings := x.endings ++ [(x.entry, .rolledBack)] }
    else x
  else if after = some .draining then { x with entry := x.started }
  else x

def observer : Observer DrainLog where
  note x _ n := match n with
    | .drainStarted entry _ => { x with started := some entry }
    | _ => x
  write x st st' := x.write (phaseOf st) (phaseOf st')

/-- A drain that completed was entered by a promotion, one that rolled back by a rollback. -/
def Truthful (x : DrainLog) : Prop :=
  ∀ ending ∈ x.endings,
    (ending.2 = .completed → ending.1 = some .promotion) ∧
    (ending.2 = .rolledBack → ending.1 = some .rollback)

/-- What a drain ends in is what it was entered for: after a rollback some case did not pass or
the rollout was force-replaced, and after a promotion neither is so. -/
def Agrees (bgd : BlueGreenDeployment) (counts : Counts) : DrainEntry → Prop
  | .rollback => forceReplaceInterruptedRollout bgd = true ∨ counts.hasFailure = true
  | .promotion => forceReplaceInterruptedRollout bgd = false ∧ counts.hasFailure = false

instance (bgd : BlueGreenDeployment) (counts : Counts) :
    (e : DrainEntry) → Decidable (Agrees bgd counts e)
  | .rollback => inferInstanceAs (Decidable (_ ∨ _))
  | .promotion => inferInstanceAs (Decidable (_ ∧ _))

/-- A drain may be finalized where its entry agrees with the counts and the update policy. -/
def MayNote (s : World × DrainLog) : Note → Prop
  | .finalizeDraining bgd counts => ∀ e ∈ s.2.entry, Agrees bgd counts e
  | _ => True

instance (s : World × DrainLog) : (n : Note) → Decidable (MayNote s n)
  | .finalizeDraining _ _ => inferInstanceAs (Decidable (∀ e ∈ _, _))
  | .called | .reconcile _ | .decide _ _ _ | .promote _ | .beginDraining _ _ | .drainStarted _ _
  | .drainMeasured _ _ _ | .drainStatusFailed _ _ | .drainsAssessed _ _ | .reconcileFailed _
  | .orphan _ => .isTrue trivial

/-- No drain is finalized while the counts and the update policy speak for the other direction. -/
abbrev agreement : Guard Call (World × DrainLog) Outcome Move := notesGuard MayNote

/-! ## The invariant -/

/-- Every ended drain was truthful, and the entry of the one under way is known. -/
def Inv (st : Status) (x : DrainLog) : Prop :=
  x.Truthful ∧ (phaseOf st = some .draining → x.entry ≠ none)

theorem write_same (x : DrainLog) (p : Option BGDPhase) : x.write p p = x := by
  by_cases h : p = some .draining
  · simp [write, h]
  · simp [write, h]

/-- A status write that keeps the phase is invisible. -/
theorem Inv.quiet {st st' : Status} {x : DrainLog} (h : Inv st x) (hp : phaseOf st' = phaseOf st) :
    Inv st' (observer.write x st st') := by
  have hx : observer.write x st st' = x := by
    change x.write (phaseOf st) (phaseOf st') = x
    rw [hp, write_same]
  rw [hx]
  exact ⟨h.1, by rw [hp]; exact h.2⟩

/-- Leaving a phase other than Draining for one other than Draining is invisible. -/
theorem Inv.elsewhere {st st' : Status} {x : DrainLog} (h : Inv st x)
    (hst : phaseOf st ≠ some .draining) (hst' : phaseOf st' ≠ some .draining) :
    Inv st' (observer.write x st st') := by
  have hx : observer.write x st st' = x := by
    change x.write (phaseOf st) (phaseOf st') = x
    simp [write, hst, hst']
  rw [hx]
  exact ⟨h.1, fun hd => absurd hd hst'⟩

/-- The spec error of any phase ends a drain in Invalid, which says nothing about it. -/
theorem Inv.invalid {st st' : Status} {x : DrainLog} (h : Inv st x)
    (hst' : phaseOf st' = some .invalid) : Inv st' (observer.write x st st') := by
  have hx : observer.write x st st' = x := by
    change x.write (phaseOf st) (phaseOf st') = x
    rw [hst']
    unfold write
    split <;> simp
  rw [hx]
  exact ⟨h.1, by simp [hst']⟩

/-- Entering Draining after an entry has returned records the entry. -/
theorem Inv.enter {st st' : Status} {x : DrainLog} (h : Inv st x) (hs : x.started ≠ none)
    (hst' : phaseOf st' = some .draining) : Inv st' (observer.write x st st') := by
  change Inv st' (x.write (phaseOf st) (phaseOf st'))
  rw [hst']
  by_cases hd : phaseOf st = some .draining
  · rw [hd, write_same]
    exact ⟨h.1, fun _ => h.2 hd⟩
  · simp only [write, if_neg hd, if_true]
    exact ⟨h.1, fun _ => hs⟩

/-- **Ending a drain whose entry agrees with the counts is truthful.** -/
theorem Inv.finish {st st' : Status} {x : DrainLog} {bgd : BlueGreenDeployment} {counts : Counts}
    (h : Inv st x) (hagree : ∀ e ∈ x.entry, Agrees bgd counts e)
    (hst' : phaseOf st' = some (finalPhase bgd counts.hasFailure)) :
    Inv st' (observer.write x st st') := by
  by_cases hd : phaseOf st = some .draining
  · obtain ⟨e, he⟩ := Option.ne_none_iff_exists'.mp (h.2 hd)
    have hag := hagree e he
    change Inv st' (x.write (phaseOf st) (phaseOf st'))
    rw [hst', hd]
    cases e with
    | promotion =>
      obtain ⟨hf, hc⟩ := hag
      have hphase : finalPhase bgd counts.hasFailure = .completed := by simp [finalPhase, hf, hc]
      rw [hphase] at hst' ⊢
      refine ⟨fun ending hmem => ?_, by simp [hst']⟩
      rcases List.mem_append.mp hmem with hold | hnew
      · exact h.1 ending hold
      · simp only [List.mem_singleton] at hnew
        subst hnew
        simp [he]
    | rollback =>
      have hphase : finalPhase bgd counts.hasFailure = .rolledBack := by
        rcases hag with hf | hc
        · simp [finalPhase, hf]
        · simp [finalPhase, hc]
      rw [hphase] at hst' ⊢
      refine ⟨fun ending hmem => ?_, by simp [hst']⟩
      rcases List.mem_append.mp hmem with hold | hnew
      · exact h.1 ending hold
      · simp only [List.mem_singleton] at hnew
        subst hnew
        simp [he]
  · refine h.elsewhere hd ?_
    rw [hst']
    unfold finalPhase
    split <;> simp

/-! ## The arms -/

variable {ctx : Ctx} {P : Assertion DrainLog}

/-- The phase the status is in. -/
abbrev Here (p : Option BGDPhase) : Assertion DrainLog := fun st _ => phaseOf st = p

theorem minor_here (p : Option BGDPhase) : KeptByMinor observer Inv (Here p) := by
  intro patch hpatch st x hi hp
  have hphase := phaseOf_minor hpatch.setsPhase st
  exact ⟨hi.quiet hphase, hphase.trans hp⟩

/-- A patch that keeps the phase, after which nothing has to be known. -/
theorem patchLast {patch : StatusPatch} (h : ¬ patch.SetsPhase) (bgd : BlueGreenDeployment)
    (ns : String) :
    Triple observer agreement Inv P (patchStatus bgd ns patch) fun _ _ _ => True :=
  .patchStatus (fun _ _ _ _ => trivial) fun st _ hi _ =>
    ⟨hi.quiet (phaseOf_minor h st), trivial⟩

theorem noteStarted (entry : DrainEntry) (bgd : BlueGreenDeployment) :
    Triple observer agreement Inv P (Op.note (.drainStarted entry bgd)) fun _ _ x =>
      x.started ≠ none :=
  .note fun _ _ _ _ hi _ => ⟨hi, by simp [observer]⟩

/-- The two writes after an entry: the phase, then the start. -/
theorem drainStarts (bgd : BlueGreenDeployment) (ns : String) :
    Triple observer agreement Inv (fun _ x => x.started ≠ none) (startDrain bgd ns)
      fun _ _ _ => True := by
  refine .bind (.updateStatusPhase (Q := fun _ _ => True) (fun _ _ _ _ => trivial)
    fun st x conditions hi hp _ => ⟨hi.enter hp rfl, trivial⟩) fun _ => ?_
  exact .bind .now fun now => patchLast id bgd ns

theorem rollback (bgd : BlueGreenDeployment) (ns : String) :
    Triple observer agreement Inv P
      (do
        beginDrainingAfterRollback ctx bgd ns
        startDrain bgd ns) fun _ _ _ => True :=
  .rollbackArm (B := P) (.noteQuiet fun _ _ => rfl) (fun _ _ _ _ => trivial)
    (noteStarted .rollback bgd) (drainStarts bgd ns)

theorem promoting (bgd : BlueGreenDeployment) (ns : String) :
    Triple observer agreement Inv P (reconcilePromoting ctx bgd ns) fun _ _ _ => True :=
  .promotingArm (N := P) (B := P) (.noteQuiet fun _ _ => rfl) (fun _ _ _ _ => trivial)
    (.noteQuiet fun _ _ => rfl) (fun _ _ _ _ => trivial) (noteStarted .promotion bgd)
    (drainStarts bgd ns)

/-- A write of a phase other than Draining from a phase other than Draining. -/
theorem phaseElsewhere {p : Option BGDPhase} {phase : BGDPhase} (bgd : BlueGreenDeployment)
    (ns : String) (hp : p ≠ some .draining) (hphase : phase ≠ .draining) :
    Triple observer agreement Inv (Here p) (updateStatusPhase bgd ns phase)
      fun _ _ _ => True := by
  refine .updateStatusPhase (fun _ _ _ _ => trivial) fun st x conditions hi hk _ => ?_
  refine ⟨hi.elsewhere (by rw [hk]; exact hp) ?_, trivial⟩
  change some phase ≠ some .draining
  simpa using hphase

theorem pending {p : Option BGDPhase} (hp : p ≠ some .draining) (bgd : BlueGreenDeployment)
    (ns : String) :
    Triple observer agreement Inv (Here p) (reconcilePending ctx bgd ns) fun _ _ _ => True := by
  refine .pendingArm (minor_here p) (fun _ _ _ _ => trivial) bgd ns fun phase hphase => ?_
  refine phaseElsewhere bgd ns hp ?_
  rcases hphase with rfl | rfl <;> simp

theorem observing {p : Option BGDPhase} (hp : p ≠ some .draining) (bgd : BlueGreenDeployment)
    (ns stateKey : String) :
    Triple observer agreement Inv (Here p) (reconcileObserving ctx bgd ns stateKey)
      fun _ _ _ => True := by
  refine .observingArm (minor_here p) (fun _ _ _ _ => trivial) bgd ns stateKey
    (D := fun _ _ => Here p) (fun _ _ => .noteQuiet fun _ _ => rfl) (fun _ _ _ _ _ _ => trivial)
    fun _ _ action _ => ?_
  cases action with
  | continueObserving => exact (Triple.skip ()).drop
  | promote => exact phaseElsewhere bgd ns hp (by simp)
  | rollback => exact rollback bgd ns
  | advanceStep step percent =>
    exact .bind (.work (Op.Passive.applySplitterTrafficPercent _ _ _ _).work) fun _ =>
      patchLast id bgd ns

theorem minor_true : KeptByMinor observer Inv fun _ _ => True :=
  fun _ hpatch st _ hi _ => ⟨hi.quiet (phaseOf_minor hpatch.setsPhase st), trivial⟩

/-- **The Draining arm.** The note of a finalization lets only an agreeing drain through. -/
theorem draining (bgd : BlueGreenDeployment) (ns stateKey : String) :
    Triple observer agreement Inv (fun _ _ => True) (reconcileDraining ctx bgd ns stateKey)
      fun _ _ _ => True := by
  refine .drainingArm minor_true (fun _ _ _ _ => trivial)
    (D := fun counts _ x => ∀ e ∈ x.entry, Agrees bgd counts e)
    (fun counts => .note fun s _ _ hg hi _ => ⟨hi, hg _ rfl⟩) (fun _ _ _ _ _ => trivial)
    (fun counts => ?_) (fun _ _ _ _ => rfl) (fun _ _ _ => rfl) fun _ _ _ => rfl
  exact .updateStatusPhase (fun _ _ _ _ => trivial) fun st x conditions hi hagree _ =>
    ⟨hi.finish hagree rfl, trivial⟩

theorem arms : Arms observer agreement Inv ctx (fun _ _ => True) fun _ => True where
  blind := {
    write := fun st x conditions => by
      change x.write (phaseOf st) (phaseOf (conditioned st conditions)) = x
      rw [phaseOf_conditioned, write_same]
    inv := fun st x conditions hi => ⟨hi.1, by rw [phaseOf_conditioned]; exact hi.2⟩ }
  invalid _ _ _ _ hi := hi.invalid rfl
  called _ _ _ _ hi := ⟨hi, trivial⟩
  note _ _ _ _ _ _ hi _ := ⟨hi, trivial⟩
  known _ _ _ := trivial
  failed _ _ _ _ _ _ hi := hi
  restart bgd hrestart := by
    have hterminal : (bgd.phase.getD .pending).IsTerminal := by
      simp only [rolloutNeedsRestart, Bool.and_eq_true, decide_eq_true_eq] at hrestart
      exact hrestart.1
    refine .bind (.now) fun now => ?_
    refine .patchStatus (fun _ _ _ _ => trivial) fun st x hi hk =>
      ⟨hi.elsewhere (fun hd => ?_) (by simp [phaseOf, StatusPatch.apply]), trivial⟩
    have hphase : bgd.phase = some .draining := hk.1.phase.symm.trans hd
    rw [hphase] at hterminal
    simp [BGDPhase.IsTerminal] at hterminal
  forceReplace live bgd _ _ := rollback bgd live.metadata.ns
  arm live bgd hsame _ _ _ _ := by
    have hphase : live.phase = bgd.phase := hsame.phase.symm
    rw [hphase]
    cases hp : bgd.phase with
    | none =>
      refine (pending (p := none) (by simp) bgd _).pre fun st x _ hk => ?_
      exact hk.1.phase.trans hp
    | some phase =>
      have hhere (h : phase ≠ .draining) : (some phase : Option BGDPhase) ≠ some .draining := by
        simpa using h
      cases phase with
      | pending =>
        refine (pending (hhere (by simp)) bgd _).pre fun st x _ hk => ?_
        exact hk.1.phase.trans hp
      | observing =>
        refine (observing (hhere (by simp)) bgd _ _).pre fun st x _ hk => ?_
        exact hk.1.phase.trans hp
      | promoting => exact promoting bgd _
      | draining => exact (draining bgd _ _).pre fun _ _ _ _ => trivial
      | completed => exact (Triple.work (Op.Rewires.cleanupRollout _ _ _).upkeep.work).drop
      | rolledBack => exact (Triple.work (Op.Rewires.cleanupRollout _ _ _).upkeep.work).drop
      | invalid => exact (Triple.work (Op.Rewires.cleanupRollout _ _ _).upkeep.work).drop

end DrainLog

/-- **A terminal phase tells the truth** in every run that finalizes no drain whose entry
disagrees with the counts and the update policy. -/
theorem terminal_phase_truthful {ctx : Ctx} {w : World}
    (h0 : w.bgd.bind (·.phase) ≠ some .draining)
    {s : Conf Call Answer ReconcileError (World × DrainLog)}
    (r : Machine.Run DrainLog.observer.machine (reconcile ctx) DrainLog.agreement
      ⟨(w, .empty), none⟩ s) : s.world.2.Truthful := by
  have hinit : On DrainLog.Inv (w, DrainLog.empty) := by
    refine ⟨w.bgd.bind (·.status), ⟨fun ending hmem => ?_, fun hd => ?_⟩, fun b hb => ?_⟩
    · simp [DrainLog.empty] at hmem
    · cases hb : w.bgd with
      | none => simp [hb, phaseOf] at hd
      | some b =>
        simp only [hb, Option.bind_some] at h0 hd
        exact absurd hd h0
    · change w.bgd = some b at hb
      rw [hb]
      rfl
  obtain ⟨st, hi, -⟩ := DrainLog.arms.sound hinit r
  exact hi.1

/-! ## Runs of the sample -/

def terminalPhaseTruthfulAllPassedRun :
    PLift ((DrainLog.observer.machine.run DrainLog.agreement (reconcile Sample.ctx)
      ⟨(Sample.world .observing [Sample.testCase "t1" .passed, Sample.testCase "t2" .passed],
        .empty), none⟩ Sample.rollout).map (·.world.2.endings) =
      some [(some .promotion, .completed)]) :=
  ⟨by decide +kernel⟩

theorem terminal_phase_truthful_all_passed :
    ∃ s : Conf Call Answer ReconcileError (World × DrainLog),
      s.world.2.endings = [(some .promotion, .completed)] ∧ s.world.2.Truthful := by
  have hrun := terminalPhaseTruthfulAllPassedRun.down
  obtain ⟨s, r, hs⟩ := Machine.Run.exists_of_run hrun
  exact ⟨s, hs, terminal_phase_truthful (by decide) r⟩

def promotedRolloutRolledBackRun :
    PLift ((DrainLog.observer.machine.run Guard.top (reconcile Sample.ctx)
      ⟨(Sample.world .observing [Sample.testCase "t1" .passed, Sample.testCase "t2" .failed],
        .empty), none⟩ Sample.rollout).map (·.world.2.endings) =
      some [(some .promotion, .rolledBack)]) :=
  ⟨by decide +kernel⟩

/-- A rollout that is promoted with one tolerated failure out of two ends in RolledBack. -/
theorem promoted_rollout_rolled_back :
    ¬ ∀ (ctx : Ctx) (w : World) (s : Conf Call Answer ReconcileError (World × DrainLog)),
      w.bgd.bind (·.phase) ≠ some .draining →
      Machine.Run DrainLog.observer.machine (reconcile ctx) Guard.top ⟨(w, .empty), none⟩ s →
      s.world.2.Truthful := by
  intro h
  have hrun := promotedRolloutRolledBackRun.down
  obtain ⟨s, r, hs⟩ := Machine.Run.exists_of_run hrun
  have htruth := h _ _ s (by decide) r (some .promotion, .rolledBack) (by rw [hs]; simp)
  simp at htruth

end FluidBG
