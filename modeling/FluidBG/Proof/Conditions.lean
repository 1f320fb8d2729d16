import FluidBG.Proof.Reconcile
import FluidBG.Sample
/-!
# The conditions beside the phase

The conditions are built anew with every phase, and are otherwise only edited: a deferral adds its
own, and a transient failure puts `ReconcileFailed` and `Degraded`. Nothing takes a failure's
conditions back before the next phase, and Completed and RolledBack have none. The observer below
remembers whether such a failure has been stored since the phase last changed, which is exactly
when the conditions contradict the phase.
-/

set_option autoImplicit false

namespace FluidBG

open Lib

/-! ## What is documented -/

/-- The status of the condition of a type. -/
def conditionStatus (conditions : List BlueGreenDeploymentCondition) (conditionType : String) :
    Option ConditionStatus :=
  (conditions.find? fun c => c.conditionType = conditionType).map (·.status)

/-- The documented table: `Ready`, `Progressing` and `Degraded` of each phase. -/
def documentedConditions : BGDPhase → ConditionStatus × ConditionStatus × ConditionStatus
  | .pending | .observing | .promoting | .draining => (.isFalse, .isTrue, .isFalse)
  | .completed => (.isTrue, .isFalse, .isFalse)
  | .rolledBack | .invalid => (.isFalse, .isFalse, .isTrue)

/-- The conditions are those of the table, and a failure is reported of an invalid object only. -/
structure BlueGreenDeploymentStatus.Agrees (status : BlueGreenDeploymentStatus) : Prop where
  ready : ∀ phase, status.phase = some phase →
    conditionStatus status.conditions "Ready" = some (documentedConditions phase).1
  progressing : ∀ phase, status.phase = some phase →
    conditionStatus status.conditions "Progressing" = some (documentedConditions phase).2.1
  degraded : ∀ phase, status.phase = some phase →
    conditionStatus status.conditions "Degraded" = some (documentedConditions phase).2.2
  notFailed : conditionStatus status.conditions "ReconcileFailed" = some .isTrue →
    status.phase = some .invalid

/-- No two conditions have one type. -/
def BlueGreenDeploymentStatus.UniqueConditions (status : BlueGreenDeploymentStatus) : Prop :=
  (status.conditions.map (·.conditionType)).Nodup

/-! ## Lists of conditions -/

section Lists

variable {conditions : List BlueGreenDeploymentCondition} {c : BlueGreenDeploymentCondition}

theorem conditionStatus_putCondition (conditionType : String) :
    conditionStatus (putCondition conditions c) conditionType =
      if c.conditionType = conditionType then some c.status
      else conditionStatus conditions conditionType := by
  unfold conditionStatus putCondition
  induction conditions with
  | nil => by_cases h : c.conditionType = conditionType <;> simp [h]
  | cons old conditions ih =>
    by_cases hold : old.conditionType = c.conditionType
    · by_cases h : c.conditionType = conditionType
      · simpa [hold, h] using ih
      · simpa [hold, h] using ih
    · by_cases h : old.conditionType = conditionType
      · have hne : c.conditionType ≠ conditionType := by
          intro heq
          exact hold (h.trans heq.symm)
        simp [h, hne, hne.symm]
      · simpa [hold, h] using ih

theorem putCondition_nodup (h : (conditions.map (·.conditionType)).Nodup) :
    ((putCondition conditions c).map (·.conditionType)).Nodup := by
  unfold putCondition
  rw [List.map_append, List.nodup_append]
  refine ⟨h.sublist (List.filter_sublist.map _), by simp, ?_⟩
  intro x hx y hy
  obtain ⟨old, hold, rfl⟩ := List.mem_map.mp hx
  simp only [List.map_cons, List.map_nil, List.mem_singleton] at hy
  rw [hy]
  simpa using (List.mem_filter.mp hold).2

end Lists

/-! ## What each write leaves -/

theorem conditionsForPhase_unique (phase : BGDPhase) (generation : Int) (now : Timestamp) :
    ((conditionsForPhase phase generation now).map (·.conditionType)).Nodup := by
  cases phase <;> simp [conditionsForPhase, condition]

/-- **A phase write leaves the documented conditions.** -/
theorem BlueGreenDeploymentStatus.Agrees.of_conditionsForPhase {status : BlueGreenDeploymentStatus}
    {phase : BGDPhase} {generation : Int} {now : Timestamp} (hphase : status.phase = some phase)
    (h : status.conditions = conditionsForPhase phase generation now) : status.Agrees := by
  constructor
  · intro phase' hphase'
    rw [hphase, Option.some.injEq] at hphase'
    subst hphase'
    rw [h]
    cases phase <;> rfl
  · intro phase' hphase'
    rw [hphase, Option.some.injEq] at hphase'
    subst hphase'
    rw [h]
    cases phase <;> rfl
  · intro phase' hphase'
    rw [hphase, Option.some.injEq] at hphase'
    subst hphase'
    rw [h]
    cases phase <;> rfl
  · intro hfailed
    rw [h] at hfailed
    cases phase <;> simp [conditionsForPhase, condition, conditionStatus] at hfailed

/-- The table is about the phase and four conditions. -/
theorem BlueGreenDeploymentStatus.Agrees.congr {status status' : BlueGreenDeploymentStatus}
    (h : status.Agrees) (hphase : status'.phase = status.phase)
    (hconditions : ∀ conditionType ∈ ["Ready", "Progressing", "Degraded", "ReconcileFailed"],
      conditionStatus status'.conditions conditionType =
        conditionStatus status.conditions conditionType) : status'.Agrees := by
  constructor
  · intro phase hp
    rw [hconditions _ (by simp)]
    exact h.ready phase (hphase ▸ hp)
  · intro phase hp
    rw [hconditions _ (by simp)]
    exact h.progressing phase (hphase ▸ hp)
  · intro phase hp
    rw [hconditions _ (by simp)]
    exact h.degraded phase (hphase ▸ hp)
  · intro hfailed
    rw [hconditions _ (by simp)] at hfailed
    rw [hphase]
    exact h.notFailed hfailed

theorem agrees_iff_of_same {status status' : BlueGreenDeploymentStatus}
    (hphase : status'.phase = status.phase)
    (hconditions : ∀ conditionType ∈ ["Ready", "Progressing", "Degraded", "ReconcileFailed"],
      conditionStatus status'.conditions conditionType =
        conditionStatus status.conditions conditionType) : status'.Agrees ↔ status.Agrees := by
  constructor
  · intro h
    exact h.congr hphase.symm fun conditionType hmem => (hconditions conditionType hmem).symm
  · intro h
    exact h.congr hphase hconditions

/-- The conditions after a transient failure. -/
def failedConditions (reason message : String) (generation : Int) (now : Timestamp)
    (conditions : List BlueGreenDeploymentCondition) : List BlueGreenDeploymentCondition :=
  putCondition (putCondition conditions
    (condition "ReconcileFailed" .isTrue reason message generation now))
    (condition "Degraded" .isTrue reason message generation now)

section Failure

variable {status : BlueGreenDeploymentStatus} {reason message : String} {generation : Int}
  {now : Timestamp}

/-- **A transient failure contradicts every phase but Invalid.** -/
theorem not_agrees_failed (hphase : status.phase ≠ some .invalid) :
    ¬ BlueGreenDeploymentStatus.Agrees { status with
      conditions := failedConditions reason message generation now status.conditions } := by
  intro h
  refine hphase (h.notFailed ?_)
  show conditionStatus (failedConditions _ _ _ _ _) _ = _
  simp [failedConditions, conditionStatus_putCondition, condition]

theorem BlueGreenDeploymentStatus.Agrees.failed (h : status.Agrees)
    (hphase : status.phase = some .invalid) :
    BlueGreenDeploymentStatus.Agrees { status with
      conditions := failedConditions reason message generation now status.conditions } := by
  have hready := h.ready _ hphase
  have hprogressing := h.progressing _ hphase
  constructor
  · intro phase hp
    have hinvalid : phase = .invalid := by simpa [hphase] using hp.symm
    subst hinvalid
    simpa [failedConditions, conditionStatus_putCondition, condition] using hready
  · intro phase hp
    have hinvalid : phase = .invalid := by simpa [hphase] using hp.symm
    subst hinvalid
    simpa [failedConditions, conditionStatus_putCondition, condition] using hprogressing
  · intro phase hp
    have hinvalid : phase = .invalid := by simpa [hphase] using hp.symm
    subst hinvalid
    simp [failedConditions, conditionStatus_putCondition, condition, documentedConditions]
  · intro _
    exact hphase

end Failure

/-! ## What has been stored since the phase last changed -/

structure Freshness where
  /-- The reconcile under way has failed. -/
  failing : Bool
  /-- A transient failure has been stored since the phase last changed. -/
  stale : Bool
  deriving DecidableEq, Repr

namespace Freshness

def empty : Freshness := ⟨false, false⟩

/-- A failed reconcile stores its failure, or makes the object Invalid. -/
def write (x : Freshness) (before after : Option BGDPhase) : Freshness :=
  if x.failing then { x with stale := after ≠ some .invalid }
  else if after = before then x
  else { x with stale := false }

def observer : Observer Freshness where
  note x _ n := match n with
    | .called => { x with failing := false }
    | .reconcileFailed _ => { x with failing := true }
    | _ => x
  write x st st' := x.write (phaseOf st) (phaseOf st')

/-- The conditions have their own types, and contradict the phase where a failure is in the way. -/
structure Inv (st : Status) (x : Freshness) : Prop where
  unique : (st.getD .default).UniqueConditions
  agrees : (st.getD .default).Agrees ↔ x.stale = false
  invalid : phaseOf st = some .invalid → x.stale = false

theorem phaseOf_eq_getD (st : Status) : phaseOf st = (st.getD .default).phase := by
  cases st <;> rfl

/-- A status with the phase and the conditions that there were. -/
theorem Inv.same {st : Status} {status' : BlueGreenDeploymentStatus} {x : Freshness}
    (h : Inv st x) (hworking : x.failing = false) (hphase : status'.phase = phaseOf st)
    (hconditions : status'.conditions = (st.getD .default).conditions) :
    Inv (some status') (observer.write x st (some status')) := by
  have hx : observer.write x st (some status') = x := by
    show x.write (phaseOf st) status'.phase = x
    simp [write, hworking, hphase]
  rw [hx]
  have hunique := h.unique
  have hagrees : status'.Agrees ↔ (st.getD .default).Agrees :=
    agrees_iff_of_same (hphase.trans (phaseOf_eq_getD st)) fun _ _ => by rw [hconditions]
  refine ⟨?_, hagrees.trans h.agrees, fun hinvalid => h.invalid (hphase.symm.trans hinvalid)⟩
  show (status'.conditions.map (·.conditionType)).Nodup
  rw [hconditions]
  exact hunique

/-- **A new phase comes with its own conditions.** -/
theorem Inv.fresh {st : Status} {status' : BlueGreenDeploymentStatus} {x : Freshness}
    {phase : BGDPhase} {generation : Int} {now : Timestamp} (hworking : x.failing = false)
    (hphase : status'.phase = some phase) (hnew : phaseOf st ≠ some phase)
    (hconditions : status'.conditions = conditionsForPhase phase generation now) :
    Inv (some status') (observer.write x st (some status')) := by
  have hx : observer.write x st (some status') = { x with stale := false } := by
    show x.write (phaseOf st) status'.phase = _
    simp [write, hworking, hphase, Ne.symm hnew]
  rw [hx]
  refine ⟨?_, iff_of_true (.of_conditionsForPhase hphase hconditions) rfl, fun _ => rfl⟩
  show (status'.conditions.map (·.conditionType)).Nodup
  rw [hconditions]
  exact conditionsForPhase_unique phase generation now

/-- A deferral adds a condition that the table does not know. -/
theorem Inv.deferred {st : Status} {x : Freshness} {c : BlueGreenDeploymentCondition}
    (h : Inv st x) (hworking : x.failing = false) (hc : c.conditionType = "UpdateDeferred") :
    Inv (conditioned st (putCondition (st.getD .default).conditions c))
      (observer.write x st (conditioned st (putCondition (st.getD .default).conditions c))) := by
  have hx : observer.write x st (conditioned st (putCondition (st.getD .default).conditions c)) =
      x := by
    show x.write (phaseOf st) (phaseOf (conditioned st _)) = x
    simp [write, hworking, phaseOf_conditioned]
  rw [hx]
  have hagrees : BlueGreenDeploymentStatus.Agrees { st.getD .default with
      conditions := putCondition (st.getD .default).conditions c } ↔ (st.getD .default).Agrees := by
    refine agrees_iff_of_same rfl fun conditionType hmem => ?_
    have hne : c.conditionType ≠ conditionType := by
      intro heq
      rw [← heq, hc] at hmem
      simp at hmem
    rw [conditionStatus_putCondition, if_neg hne]
  refine ⟨putCondition_nodup h.unique, hagrees.trans h.agrees, ?_⟩
  · intro hinvalid
    exact h.invalid (by rwa [phaseOf_conditioned] at hinvalid)

/-- **A stored failure is in the way**, unless the object is Invalid anyway. -/
theorem Inv.failed {st : Status} {x : Freshness} {reason message : String} {generation : Int}
    {now : Timestamp} (h : Inv st x) (hfailing : x.failing = true) :
    let st' := conditioned st (failedConditions reason message generation now
      (st.getD .default).conditions)
    Inv st' (observer.write x st st') := by
  dsimp only
  have hx : observer.write x st (conditioned st (failedConditions reason message generation now
      (st.getD .default).conditions)) = { x with stale := phaseOf st ≠ some .invalid } := by
    show x.write (phaseOf st) (phaseOf (conditioned st _)) = _
    simp [write, hfailing, phaseOf_conditioned]
  rw [hx]
  refine ⟨putCondition_nodup (putCondition_nodup h.unique), ?_, ?_⟩
  · by_cases hphase : phaseOf st = some .invalid
    · have hagrees := h.agrees.mpr (h.invalid hphase)
      refine iff_of_true (hagrees.failed ?_) (by simp [hphase])
      rw [← phaseOf_eq_getD, hphase]
    · refine iff_of_false (not_agrees_failed ?_) (by simp [hphase])
      rwa [← phaseOf_eq_getD]
  · intro hinvalid
    rw [phaseOf_conditioned] at hinvalid
    simp [hinvalid]

/-- The conditions of an invalid object are those of the table, whatever was there. -/
theorem Inv.invalidated {st : Status} {x : Freshness} {reason message : String}
    {generation observed : Int} {now : Timestamp} (hfailing : x.failing = true) :
    let st' := some ((StatusPatch.invalid observed
      [condition "Ready" .isFalse reason message generation now,
        condition "Progressing" .isFalse reason message generation now,
        condition "Degraded" .isTrue reason message generation now,
        condition "ReconcileFailed" .isTrue reason message generation now]).apply
          (st.getD .default))
    Inv st' (observer.write x st st') := by
  dsimp only
  refine ⟨?_, iff_of_true ⟨?_, ?_, ?_, fun _ => rfl⟩ ?_, fun _ => ?_⟩
  · simp [BlueGreenDeploymentStatus.UniqueConditions, StatusPatch.apply, condition]
  · intro phase hphase
    cases hphase
    rfl
  · intro phase hphase
    cases hphase
    rfl
  · intro phase hphase
    cases hphase
    rfl
  · show (x.write (phaseOf st) (some .invalid)).stale = false
    simp [write, hfailing]
  · show (x.write (phaseOf st) (some .invalid)).stale = false
    simp [write, hfailing]

/-! ## The parts of a reconcile -/

variable {ctx : Ctx}

/-- The phase the status is in, while the reconcile has not failed. -/
abbrev Working (p : Option BGDPhase) : Assertion Freshness :=
  fun st x => phaseOf st = p ∧ x.failing = false

/-- What is left at an error. -/
abbrev Unfailed : Assertion Freshness := fun _ x => x.failing = false

theorem write_failing (x : Freshness) (st st' : Status) :
    (observer.write x st st').failing = x.failing := by
  show (x.write (phaseOf st) (phaseOf st')).failing = x.failing
  unfold write
  split
  · rfl
  · split <;> rfl

/-- What does not set the phase does not set the conditions either. -/
theorem apply_conditions {patch : StatusPatch} (h : ¬ patch.SetsPhase)
    (status : BlueGreenDeploymentStatus) :
    (patch.apply status).conditions = status.conditions := by
  cases patch with
  | reset _ _ => exact absurd trivial h
  | invalid _ _ => exact absurd trivial h
  | _ => rfl

theorem patched {p : Option BGDPhase} {patch : StatusPatch} (hpatch : ¬ patch.SetsPhase)
    {st : Status} {x : Freshness} (hi : Inv st x) (hp : Working p st x) :
    let st' := some (patch.apply (st.getD .default))
    Inv st' (observer.write x st st') ∧ Working p st' (observer.write x st st') := by
  have hphase := phaseOf_minor hpatch st
  exact ⟨hi.same hp.2 hphase (apply_conditions hpatch _), hphase.trans hp.1,
    (write_failing x st _).trans hp.2⟩

theorem minor_working (p : Option BGDPhase) : KeptByMinor observer Inv (Working p) :=
  fun _ hpatch _ _ hi hp => patched hpatch.setsPhase hi hp

/-- A write of another phase than that of the status. -/
theorem phaseWrite {p : Option BGDPhase} {phase : BGDPhase} (hp : p ≠ some phase)
    (bgd : BlueGreenDeployment) (ns : String) :
    Triple observer .top Inv (Working p) (updateStatusPhase bgd ns phase)
      (fun _ => Unfailed) Unfailed := by
  refine .updateStatusPhaseAt (fun _ _ _ hx => hx.2) fun st x now hi hx _ => ?_
  exact ⟨.fresh hx.2 rfl (by rw [hx.1]; exact hp) rfl, (write_failing x st _).trans hx.2⟩

theorem patchWrite {p : Option BGDPhase} {patch : StatusPatch} (h : ¬ patch.SetsPhase)
    (bgd : BlueGreenDeployment) (ns : String) :
    Triple observer .top Inv (Working p) (patchStatus bgd ns patch) (fun _ _ _ => True) Unfailed :=
  (Triple.patchStatus (fun _ _ _ hp => hp) fun _ _ hi hp => patched h hi hp).drop

/-- The two writes after an entry: the phase, where it is another, then the start. -/
theorem drainStarts {p : Option BGDPhase} (hp : p ≠ some .draining) (bgd : BlueGreenDeployment)
    (ns : String) :
    Triple observer .top Inv (Working p) (startDrain bgd ns) (fun _ _ _ => True) Unfailed := by
  refine .bind (phaseWrite hp bgd ns) fun _ => .bind .now fun now => ?_
  intro s hs
  -- whichever phase the status has now, the start keeps it
  obtain ⟨st, hworking, hst⟩ := hs
  exact patchWrite (p := phaseOf st) id bgd ns s
    ⟨st, ⟨hworking.1, rfl, hworking.2⟩, hst⟩

theorem unfailed {p : Option BGDPhase} (st : Status) (x : Freshness) (_ : Inv st x)
    (h : Working p st x) : Unfailed st x := h.2

theorem rollback {p : Option BGDPhase} (hp : p ≠ some .draining) (bgd : BlueGreenDeployment)
    (ns : String) :
    Triple observer .top Inv (Working p)
      (do
        beginDrainingAfterRollback ctx bgd ns
        startDrain bgd ns) (fun _ _ _ => True) Unfailed :=
  .rollbackArm (B := Working p) (.noteQuiet (fun _ _ => rfl) unfailed) unfailed
    (.noteQuiet (fun _ _ => rfl) unfailed) (drainStarts hp bgd ns)

theorem promoting {p : Option BGDPhase} (hp : p ≠ some .draining) (bgd : BlueGreenDeployment)
    (ns : String) :
    Triple observer .top Inv (Working p) (reconcilePromoting ctx bgd ns)
      (fun _ _ _ => True) Unfailed :=
  .promotingArm (N := Working p) (B := Working p) (.noteQuiet (fun _ _ => rfl) unfailed) unfailed
    (.noteQuiet (fun _ _ => rfl) unfailed) unfailed (.noteQuiet (fun _ _ => rfl) unfailed)
    (drainStarts hp bgd ns)

theorem pending {p : Option BGDPhase} (hcompleted : p ≠ some .completed)
    (hobserving : p ≠ some .observing) (bgd : BlueGreenDeployment) (ns : String) :
    Triple observer .top Inv (Working p) (reconcilePending ctx bgd ns)
      (fun _ _ _ => True) Unfailed := by
  refine .pendingArm (minor_working p) unfailed bgd ns fun phase hphase => ?_
  rcases hphase with rfl | rfl
  · exact (phaseWrite hcompleted bgd ns).drop
  · exact (phaseWrite hobserving bgd ns).drop

theorem observing (bgd : BlueGreenDeployment) (ns stateKey : String) :
    Triple observer .top Inv (Working (some .observing)) (reconcileObserving ctx bgd ns stateKey)
      (fun _ _ _ => True) Unfailed := by
  refine .observingArm (minor_working _) unfailed bgd ns stateKey
    (D := fun _ _ => Working (some .observing))
    (fun _ _ => .noteQuiet (fun _ _ => rfl) unfailed) (fun _ _ => unfailed) fun _ _ action _ => ?_
  cases action with
  | continueObserving => exact (Triple.skip ()).drop
  | promote => exact (phaseWrite (by simp) bgd ns).drop
  | rollback => exact rollback (by simp) bgd ns
  | advanceStep step percent =>
    exact .bind (.work (Op.Passive.applySplitterTrafficPercent _ _ _ _).work unfailed) fun _ =>
      patchWrite id bgd ns

theorem draining (bgd : BlueGreenDeployment) (ns stateKey : String) :
    Triple observer .top Inv (Working (some .draining)) (reconcileDraining ctx bgd ns stateKey)
      (fun _ _ _ => True) Unfailed := by
  refine .drainingArm (minor_working _) unfailed (D := fun _ => Working (some .draining))
    (fun _ => .noteQuiet (fun _ _ => rfl) unfailed) (fun _ => unfailed) (fun counts => ?_)
    (fun _ _ _ _ => rfl) (fun _ _ _ => rfl) fun _ _ _ => rfl
  refine (phaseWrite ?_ bgd ns).drop
  unfold finalPhase
  split <;> simp

/-- The two ways in which an error is published. -/
theorem publish (bgd : BlueGreenDeployment) (ns : String) (error : ReconcileError) :
    Triple observer .top Inv (fun _ x => x.failing = true)
      (publishReconcileErrorStatus bgd ns error) fun _ _ _ => True := by
  unfold publishReconcileErrorStatus
  split
  · exact .bind .now fun now => .patchStatus (fun _ _ _ _ => trivial) fun st x _ hfailing =>
      ⟨.invalidated hfailing, trivial⟩
  · refine .bind .getBgd fun r => ?_
    cases r with
    | error e => exact (Triple.skip ()).drop
    | ok latest =>
      refine .bind .now fun now => .bind (R := fun _ _ _ => True) ?_ fun _ => .skip ()
      refine (Triple.withConditionsAt (P := fun _ x => x.failing = true) (fun _ _ _ _ => trivial)
        fun st x hi hfailing => ⟨?_, trivial⟩).pre fun st x hi hp => ⟨hp.1, hp.2 latest rfl⟩
      exact hi.failed hfailing

theorem parts : Parts observer .top Inv ctx (fun _ x => x.failing = false)
    (fun x => x.failing = false) fun x => x.failing = true where
  deferred bgd := by
    refine .bind .getBgd fun r => ?_
    cases r with
    | error e => exact (Triple.skip ()).pre fun _ _ _ hp => hp.1
    | ok latest =>
      refine .bind .now fun now =>
        .bind (R := fun _ => Known bgd fun (x : Freshness) => x.failing = false) ?_ fun _ => .skip ()
      refine (Triple.withConditionsAt (P := Known bgd fun (x : Freshness) => x.failing = false)
        (fun _ _ _ hp => hp) fun st x hi hp => ⟨?_, ?_⟩).pre
          fun st x hi hp => ⟨hp.1, hp.2 latest rfl⟩
      · exact hi.deferred hp.2 rfl
      · exact ⟨hp.1.conditioned _, (write_failing x st _).trans hp.2⟩
  publish bgd error := publish bgd _ error
  called s _ st _ hi := ⟨⟨hi.unique, hi.agrees, hi.invalid⟩, rfl⟩
  note bgd s _ st _ _ hi he := ⟨hi, he⟩
  known _ _ hx := hx
  failed error s _ st _ _ hi := ⟨⟨hi.unique, hi.agrees, hi.invalid⟩, rfl⟩
  restart bgd hrestart := by
    have hterminal : (bgd.phase.getD .pending).IsTerminal := by
      simp only [rolloutNeedsRestart, Bool.and_eq_true, decide_eq_true_eq] at hrestart
      exact hrestart.1
    refine .bind (.now (E := Unfailed) (P := Known bgd fun x => x.failing = false)) fun now => ?_
    refine .patchStatus (fun _ _ _ _ => trivial) fun st x hi hk => ⟨.fresh hk.2 rfl ?_ rfl, trivial⟩
    intro hpending
    rw [hk.1.phaseOf] at hpending
    simp [hpending, BGDPhase.IsTerminal] at hterminal
  forceReplace live bgd hsame hforce := by
    have hne : live.phase ≠ some .draining := by
      intro hdraining
      simp [shouldStartForceReplaceRollout, hdraining] at hforce
    refine (rollback (p := live.phase) hne bgd live.metadata.ns).pre fun st x _ hk => ?_
    exact ⟨hk.1.phaseOf.trans hsame.phase, hk.2⟩
  arm live bgd hsame _ _ _ _ := by
    have hworking : ∀ st x, Inv st x → Known bgd (fun x => x.failing = false) st x →
        Working live.phase st x := fun st x _ hk => ⟨hk.1.phaseOf.trans hsame.phase, hk.2⟩
    have hcleanup : Triple observer .top Inv (Known bgd fun x => x.failing = false)
        (cleanupRollout bgd live.metadata.ns
          (blueGreenStateKey live.metadata.ns live.metadata.name)) (fun _ _ _ => True) Unfailed :=
      (Triple.work (Op.Rewires.cleanupRollout _ _ _).upkeep.work fun _ _ _ hk => hk.2).drop
    cases hp : live.phase with
    | none =>
      rw [hp] at hworking
      exact (pending (by simp) (by simp) bgd _).pre hworking
    | some phase =>
      rw [hp] at hworking
      cases phase with
      | pending => exact (pending (by simp) (by simp) bgd _).pre hworking
      | observing => exact (observing bgd _ _).pre hworking
      | promoting => exact (promoting (by simp) bgd _).pre hworking
      | draining => exact (draining bgd _ _).pre hworking
      | completed => exact hcleanup
      | rolledBack => exact hcleanup
      | invalid => exact hcleanup

end Freshness

/-- **The conditions agree with the phase** exactly while no transient failure has been stored
since the phase last changed, and always have types of their own. -/
theorem conditions_agree_iff {ctx : Ctx} {w : World} (h0 : ∀ b ∈ w.bgd, b.status = none)
    {s : Conf Call Answer ReconcileError (World × Freshness)}
    (r : Machine.Run Freshness.observer.machine (reconcile ctx) .top ⟨(w, .empty), none⟩ s) :
    ∀ b ∈ s.world.1.bgd, (b.status.getD .default).UniqueConditions ∧
      ((b.status.getD .default).Agrees ↔ s.world.2.stale = false) := by
  have hinit : On Freshness.Inv (w, Freshness.empty) := by
    refine ⟨none, ⟨by simp [BlueGreenDeploymentStatus.UniqueConditions,
      BlueGreenDeploymentStatus.default], iff_of_true ?_ rfl, fun _ => rfl⟩, h0⟩
    constructor
    · intro phase hphase
      cases hphase
    · intro phase hphase
      cases hphase
    · intro phase hphase
      cases hphase
    · intro hfailed
      cases hfailed
  obtain ⟨st, hi, hst⟩ := Freshness.parts.sound hinit r
  intro b hb
  rw [hst b hb]
  exact ⟨hi.unique, hi.agrees⟩

/-! ## The initial rollout of the sample -/

namespace Sample

/-- The object as the user has created it, in a cluster without its application. -/
def newlyCreated : World :=
  { world .pending [] with
    bgd := some { bgd .pending with status := none }
    deployments := [] }

/-- Two reconciles, from the empty status to Completed. -/
def bootstrap : List Step := attempt 8 ++ attempt 11

/-- A reconcile in Completed that cannot delete a resource, and one without a failing call. -/
def failedUpkeep : List Step :=
  .start (bgd .pending) :: served 4 ++ .answer (.refused "unavailable") :: served 4 ++ [.stop] ++
    .start (bgd .pending) :: served 10

end Sample

def conditionsAgreeWhenBootstrappedRun :
    PLift ((Freshness.observer.machine.run .top (reconcile Sample.ctx)
      ⟨(Sample.newlyCreated, .empty), none⟩ Sample.bootstrap).map (fun s =>
        (s.world.1.bgd.bind (·.phase), s.world.2.stale)) =
      some (some .completed, false)) :=
  ⟨by decide +kernel⟩

theorem conditions_agree_when_bootstrapped :
    ∃ s : Conf Call Answer ReconcileError (World × Freshness), ∃ b ∈ s.world.1.bgd,
      b.phase = some .completed ∧ (b.status.getD .default).Agrees := by
  have hrun := conditionsAgreeWhenBootstrappedRun.down
  obtain ⟨s, r, hs⟩ := Machine.Run.exists_of_run hrun
  simp only [Prod.mk.injEq] at hs
  obtain ⟨b, hb, hphase⟩ := Option.bind_eq_some_iff.mp hs.1
  exact ⟨s, b, hb, hphase, (conditions_agree_iff (by simp [Sample.newlyCreated]) r b hb).2.mpr hs.2⟩

def completedRolloutStaysDegradedRun :
    PLift ((Freshness.observer.machine.run .top (reconcile Sample.ctx)
      ⟨(Sample.newlyCreated, .empty), none⟩ (Sample.bootstrap ++ Sample.failedUpkeep)).map (fun s =>
        (s.ended, s.world.1.bgd.map fun b => (b.phase,
          conditionStatus (b.status.getD .default).conditions "Degraded"))) =
      some (true, some (some .completed, some .isTrue))) :=
  ⟨by decide +kernel⟩

/-- A failure in Completed stays on an object whose later reconciles all go well. -/
theorem completed_rollout_stays_degraded :
    ¬ ∀ (ctx : Ctx) (w : World) (s : Conf Call Answer ReconcileError (World × Freshness)),
      (∀ b ∈ w.bgd, b.status = none) →
      Machine.Run Freshness.observer.machine (reconcile ctx) .top ⟨(w, .empty), none⟩ s →
      s.ended = true → ∀ b ∈ s.world.1.bgd, (b.status.getD .default).UniqueConditions ∧
        (b.status.getD .default).Agrees := by
  intro h
  have hrun := completedRolloutStaysDegradedRun.down
  obtain ⟨s, r, hs⟩ := Machine.Run.exists_of_run hrun
  simp only [Prod.mk.injEq] at hs
  obtain ⟨b, hb, hbs⟩ := Option.map_eq_some_iff.mp hs.2
  simp only [Prod.mk.injEq] at hbs
  have hagrees := (h _ _ s (by simp [Sample.newlyCreated]) r hs.1 b hb).2
  have hphase : (b.status.getD .default).phase = some .completed := by
    rw [← Freshness.phaseOf_eq_getD]
    exact hbs.1
  have hdegraded := hagrees.degraded _ hphase
  rw [hbs.2] at hdegraded
  simp [documentedConditions] at hdegraded

end FluidBG
