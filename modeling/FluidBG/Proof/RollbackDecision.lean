import FluidBG.Proof.Reconcile
import FluidBG.Sample
/-!
# The decision to roll back

A rollback is carried out before the phase says so: the inceptors are told to drain and the
candidate is deleted, and only then is Draining written. Until that write is through, the next
reconcile decides again. The observer below remembers the generations whose rollback has been
started, and those that were promoted all the same.
-/

set_option autoImplicit false

namespace FluidBG

open Lib

structure RollbackLog where
  /-- The rollout generations whose rollback has been started. -/
  rolledBack : List Int
  /-- Those among them that entered Promoting, or were promoted, afterwards. -/
  reversed : List Int
  deriving DecidableEq, Repr

namespace RollbackLog

def empty : RollbackLog := ⟨[], []⟩

/-- A generation goes on to be promoted. -/
def promote (x : RollbackLog) (generation : Int) : RollbackLog :=
  if generation ∈ x.rolledBack then { x with reversed := generation :: x.reversed } else x

/-- The generation of the last phase write. -/
def generationOf (st : Status) : Int := (st.bind (·.observedGeneration)).getD 0

def observer : Observer RollbackLog where
  note x _ n := match n with
    | .beginDraining .rollback bgd =>
      { x with rolledBack := currentRolloutGeneration bgd :: x.rolledBack }
    | .promote bgd => x.promote (currentRolloutGeneration bgd)
    | _ => x
  write x st st' :=
    if phaseOf st' = some .promoting ∧ phaseOf st ≠ some .promoting then
      x.promote (generationOf st')
    else x

/-- **A rollback is irrevocable**: no generation whose rollback has been started was promoted. -/
def Irrevocable (x : RollbackLog) : Prop := x.reversed = []

/-- A decision on a generation whose rollback has been started is not to promote, and a reconcile
of such a generation in Promoting still replaces it. -/
def MayNote (s : World × RollbackLog) : Note → Prop
  | .decide bgd dataCounts customCounts => currentRolloutGeneration bgd ∈ s.2.rolledBack →
    decidePromotionAction bgd dataCounts customCounts bgd.currentStep ≠ .ok .promote
  | .reconcile bgd => Reaches bgd .promoting → currentRolloutGeneration bgd ∈ s.2.rolledBack →
    shouldStartForceReplaceRollout bgd .promoting = true
  | _ => True

instance (s : World × RollbackLog) : (n : Note) → Decidable (MayNote s n)
  | .decide _ _ _ => inferInstanceAs (Decidable (_ ∈ _ → _ ≠ _))
  | .reconcile _ => inferInstanceAs (Decidable (_ → _ ∈ _ → _ = _))
  | .called | .promote _ | .beginDraining _ _ | .drainStarted _ _ | .finalizeDraining _ _
  | .drainMeasured _ _ _ | .drainStatusFailed _ _ | .drainsAssessed _ _ | .reconcileFailed _
  | .orphan _ => .isTrue trivial

abbrev steadfast : Guard Call (World × RollbackLog) Outcome Move := notesGuard MayNote

/-! ## The invariant -/

abbrev Inv : Assertion RollbackLog := fun _ x => x.Irrevocable

theorem Irrevocable.promote {x : RollbackLog} {generation : Int} (h : x.Irrevocable)
    (hg : generation ∉ x.rolledBack) : (x.promote generation).Irrevocable := by
  unfold RollbackLog.promote
  rw [if_neg hg]
  exact h

/-- A write that does not enter Promoting is not recorded. -/
theorem write_elsewhere {x : RollbackLog} {st st' : Status}
    (h : phaseOf st' = phaseOf st ∨ phaseOf st' ≠ some .promoting) :
    observer.write x st st' = x := by
  refine if_neg fun hp => ?_
  rcases h with heq | hne
  · exact hp.2 (heq ▸ hp.1)
  · exact hne hp.1

/-! ## The arms -/

variable {ctx : Ctx} {P : Assertion RollbackLog} {R : RollbackLog → Prop}

theorem minor_kept : KeptByMinor observer Inv fun _ x => R x := by
  intro patch hpatch st x hi hr
  dsimp only
  rw [write_elsewhere (.inl (phaseOf_minor hpatch.setsPhase st))]
  exact ⟨hi, hr⟩

theorem patchLast {patch : StatusPatch} (h : ¬ patch.SetsPhase) (bgd : BlueGreenDeployment)
    (ns : String) :
    Triple observer steadfast Inv P (patchStatus bgd ns patch) fun _ _ _ => True :=
  .patchStatus (fun _ _ _ _ => trivial) fun st x hi _ => by
    rw [write_elsewhere (.inl (phaseOf_minor h st))]
    exact ⟨hi, trivial⟩

theorem phaseElsewhere {phase : BGDPhase} (h : phase ≠ .promoting) (bgd : BlueGreenDeployment)
    (ns : String) :
    Triple observer steadfast Inv P (updateStatusPhase bgd ns phase) fun _ _ _ => True := by
  refine .updateStatusPhase (fun _ _ _ _ => trivial) fun st x conditions hi _ _ => ?_
  dsimp only
  rw [write_elsewhere (.inr (by rw [Triple.phaseOf_phased]; simpa using h))]
  exact ⟨hi, trivial⟩

/-- Entering Promoting for a generation whose rollback has not been started. -/
theorem enterPromoting (bgd : BlueGreenDeployment) (ns : String) :
    Triple observer steadfast Inv (fun _ x => currentRolloutGeneration bgd ∉ x.rolledBack)
      (updateStatusPhase bgd ns .promoting) fun _ _ _ => True := by
  refine .updateStatusPhase (fun _ _ _ _ => trivial) fun st x conditions hi hp _ => ⟨?_, trivial⟩
  change (if _ then x.promote (currentRolloutGeneration bgd) else x).Irrevocable
  split
  · exact hi.promote hp
  · exact hi

theorem drainStarts (bgd : BlueGreenDeployment) (ns : String) :
    Triple observer steadfast Inv P (startDrain bgd ns) fun _ _ _ => True :=
  .bind (phaseElsewhere (by simp) bgd ns) fun _ => .bind .now fun _ => patchLast id bgd ns

theorem rollback (bgd : BlueGreenDeployment) (ns : String) :
    Triple observer steadfast Inv P
      (do
        beginDrainingAfterRollback ctx bgd ns
        startDrain bgd ns) fun _ _ _ => True :=
  .rollbackArm (B := fun _ _ => True) (.note fun _ _ _ _ hi _ => ⟨hi, trivial⟩)
    (fun _ _ _ _ => trivial) (.noteQuiet fun _ _ => rfl) (drainStarts bgd ns)

/-- The Promoting arm, for a generation whose rollback has not been started. -/
theorem promoting (bgd : BlueGreenDeployment) (ns : String) :
    Triple observer steadfast Inv (fun _ x => currentRolloutGeneration bgd ∉ x.rolledBack)
      (reconcilePromoting ctx bgd ns) fun _ _ _ => True :=
  .promotingArm (N := fun _ _ => True) (B := fun _ _ => True)
    (.note fun _ _ _ _ hi hp => ⟨Irrevocable.promote hi hp, trivial⟩) (fun _ _ _ _ => trivial)
    (.noteQuiet fun _ _ => rfl) (fun _ _ _ _ => trivial) (.noteQuiet fun _ _ => rfl)
    (drainStarts bgd ns)

/-- **The Observing arm.** A decision to promote is made only where the guard lets it, so the phase
write that follows it is for a generation whose rollback has not been started. -/
theorem observing (bgd : BlueGreenDeployment) (ns stateKey : String) :
    Triple observer steadfast Inv (fun _ _ => True) (reconcileObserving ctx bgd ns stateKey)
      fun _ _ _ => True := by
  refine .observingArm (minor_kept (R := fun _ => True)) (fun _ _ _ _ => trivial) bgd ns stateKey
    (D := fun dataCounts customCounts _ x => currentRolloutGeneration bgd ∈ x.rolledBack →
      decidePromotionAction bgd dataCounts customCounts bgd.currentStep ≠ .ok .promote)
    (fun _ _ => .note fun _ _ _ hg hi _ => ⟨hi, hg _ rfl⟩) (fun _ _ _ _ _ _ => trivial)
    fun _ _ action hdecide => ?_
  cases action with
  | continueObserving => exact (Triple.skip ()).drop
  | promote => exact (enterPromoting bgd ns).pre fun _ _ _ hd hmem => hd hmem hdecide
  | rollback => exact rollback bgd ns
  | advanceStep step percent =>
    exact .bind (.work (Op.Passive.applySplitterTrafficPercent _ _ _ _).work) fun _ =>
      patchLast id bgd ns

theorem draining (bgd : BlueGreenDeployment) (ns stateKey : String) :
    Triple observer steadfast Inv (fun _ _ => True) (reconcileDraining ctx bgd ns stateKey)
      fun _ _ _ => True := by
  refine .drainingArm (minor_kept (R := fun _ => True)) (fun _ _ _ _ => trivial)
    (D := fun _ _ _ => True) (fun _ => .noteQuiet fun _ _ => rfl) (fun _ _ _ _ _ => trivial)
    (fun counts => phaseElsewhere ?_ bgd ns) (fun _ _ _ _ => rfl) (fun _ _ _ => rfl)
    fun _ _ _ => rfl
  unfold finalPhase
  split <;> simp

/-- A reconcile that reaches Promoting for a generation whose rollback has been started replaces
it. -/
def Noted (live : BlueGreenDeployment) (x : RollbackLog) : Prop :=
  Reaches live .promoting → currentRolloutGeneration live ∈ x.rolledBack →
    shouldStartForceReplaceRollout live .promoting = true

theorem arms : Arms observer steadfast Inv ctx Noted fun _ => True where
  blind := {
    write := fun st x conditions => write_elsewhere (.inl (phaseOf_conditioned st conditions))
    inv := fun st x conditions hi => hi }
  invalid st x _ _ hi := by
    dsimp only
    rw [write_elsewhere (.inr (by simp [phaseOf, StatusPatch.apply]))]
    exact hi
  called _ _ _ _ hi := ⟨hi, trivial⟩
  note _ _ _ _ hg _ hi _ := ⟨hi, hg _ rfl⟩
  known _ _ _ := trivial
  failed _ _ _ _ _ _ hi := hi
  restart bgd _ := .bind .now fun _ => .patchStatus (fun _ _ _ _ => trivial) fun st x hi _ => by
    rw [write_elsewhere (.inr (by simp [phaseOf, StatusPatch.apply]))]
    exact ⟨hi, trivial⟩
  forceReplace live bgd _ _ := rollback bgd live.metadata.ns
  arm live bgd hsame hdeleted hfinalizer _ hforce := by
    have hcleanup : Triple observer steadfast Inv (Known bgd (Noted live))
        (cleanupRollout bgd live.metadata.ns
          (blueGreenStateKey live.metadata.ns live.metadata.name)) fun _ _ _ => True :=
      (Triple.work (Op.Rewires.cleanupRollout _ _ _).upkeep.work).drop
    have hpending : Triple observer steadfast Inv (Known bgd (Noted live))
        (reconcilePending ctx bgd live.metadata.ns) fun _ _ _ => True :=
      (Triple.pendingArm (minor_kept (R := fun _ => True)) (fun _ _ _ _ => trivial) bgd _
        fun phase hphase => phaseElsewhere (by rcases hphase with rfl | rfl <;> simp) bgd _).pre
        fun _ _ _ _ => trivial
    cases hp : live.phase with
    | none => exact hpending
    | some phase =>
      cases phase with
      | pending => exact hpending
      | observing => exact (observing bgd _ _).pre fun _ _ _ _ => trivial
      | promoting =>
        refine (promoting bgd _).pre fun st x _ hk hmem => ?_
        rw [hsame.currentRolloutGeneration] at hmem
        have hreplace := hk.2 ⟨hp, hdeleted, hfinalizer⟩ hmem
        rw [hp] at hforce
        simp [hreplace] at hforce
      | draining => exact (draining bgd _ _).pre fun _ _ _ _ => trivial
      | completed => exact hcleanup
      | rolledBack => exact hcleanup
      | invalid => exact hcleanup

end RollbackLog

/-- **A rollback is irrevocable** in every run in which no later decision on its generation is to
promote, and a generation that is being replaced in Promoting stays so. -/
theorem rollback_irrevocable {ctx : Ctx} {w : World}
    {s : Conf Call Answer ReconcileError (World × RollbackLog)}
    (r : Machine.Run RollbackLog.observer.machine (reconcile ctx) RollbackLog.steadfast
      ⟨(w, .empty), none⟩ s) : s.world.2.Irrevocable := by
  have hinit : On RollbackLog.Inv (w, RollbackLog.empty) := by
    refine ⟨w.bgd.bind (·.status), rfl, fun b hb => ?_⟩
    change w.bgd = some b at hb
    rw [hb]
    rfl
  obtain ⟨st, hi, -⟩ := RollbackLog.arms.sound hinit r
  exact hi

/-! ## Runs of the sample -/

/-- Two failed cases start a rollback, and the process stops before the phase is written. -/
def Sample.interruptedRollback : List Sample.Step := Sample.attempt 12

def rollbackIrrevocableResumedRun :
    PLift ((RollbackLog.observer.machine.run RollbackLog.steadfast (reconcile Sample.ctx)
      ⟨(Sample.world .observing [Sample.testCase "t1" .failed, Sample.testCase "t2" .failed],
        .empty), none⟩
      (Sample.interruptedRollback ++ Sample.attempt 17)).map
        (fun s => s.world.1.bgd.bind (·.phase)) = some (some .draining)) :=
  ⟨by decide +kernel⟩

theorem rollback_irrevocable_resumed :
    ∃ s : Conf Call Answer ReconcileError (World × RollbackLog),
      s.world.1.bgd.bind (·.phase) = some .draining ∧ s.world.2.Irrevocable := by
  have hrun := rollbackIrrevocableResumedRun.down
  obtain ⟨s, r, hs⟩ := Machine.Run.exists_of_run hrun
  exact ⟨s, hs, rollback_irrevocable r⟩

def rollbackReversedRun : PLift ((RollbackLog.observer.machine.run Guard.top (reconcile Sample.ctx)
      ⟨(Sample.world .observing [Sample.testCase "t1" .failed, Sample.testCase "t2" .failed,
        Sample.testCase "t3" .observing, Sample.testCase "t4" .observing], .empty), none⟩
      (Sample.interruptedRollback ++ [.move (.setVerdict "default/shop" "t3" true none),
        .move (.setVerdict "default/shop" "t4" true none)] ++ Sample.attempt 12)).map
        (fun s => (s.world.1.deployments.map (·.metadata.name), s.world.2.reversed)) =
      some (["shop-old"], [1])) :=
  ⟨by decide +kernel⟩

/-- Two cases that pass after the candidate has been deleted reverse the decision. -/
theorem rollback_reversed :
    ¬ ∀ (ctx : Ctx) (w : World) (s : Conf Call Answer ReconcileError (World × RollbackLog)),
      Machine.Run RollbackLog.observer.machine (reconcile ctx) Guard.top ⟨(w, .empty), none⟩ s →
      s.world.2.Irrevocable := by
  intro h
  have hrun := rollbackReversedRun.down
  obtain ⟨s, r, hs⟩ := Machine.Run.exists_of_run hrun
  have hnone : s.world.2.reversed = [] := h _ _ s r
  simp [hnone] at hs

end FluidBG
