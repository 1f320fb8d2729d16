import FluidBG.Proof.Reconcile
import FluidBG.Sample
/-!
# The timeout of a drain

The start of a drain is written after the phase, in a second write that may be lost, and
`reconcile_draining` takes the present where it finds no start. The observer below remembers from
which start, and when, the first reconcile of a drain measured it, and notes as a fault every
reconcile that measures from no recorded instant, from another one, or that does not time out a
point whose time is up.
-/

set_option autoImplicit false

namespace FluidBG

open Lib

inductive DrainFault where
  /-- The start that was used is not recorded in the status. -/
  | unrecorded
  /-- The start that was used is not the one of the first reconcile of this drain. -/
  | moved
  /-- The time of these points was up, and this reconcile did not time them out. -/
  | late (points : List String)
  deriving DecidableEq, Repr

structure DrainClock where
  /-- For the drain under way: when the first reconcile observed it. -/
  observed : Option Timestamp
  /-- The start that the first reconcile that measured it used. -/
  used : Option Timestamp
  /-- The points whose time is up in the reconcile under way. -/
  due : List String
  faults : List DrainFault
  deriving DecidableEq, Repr

namespace DrainClock

def empty : DrainClock := ⟨none, none, [], []⟩

def observe (x : DrainClock) (bgd : BlueGreenDeployment) (clock : Timestamp) : DrainClock :=
  if Reaches bgd .draining then { x with observed := some (x.observed.getD clock) } else x

/-- The points that have not reached their end and whose time is up, counted from the first
reconcile that observed Draining. -/
def dueOf (bgd : BlueGreenDeployment) (observed now : Timestamp) : List String :=
  (bgd.spec.inceptionPoints.filter fun ip =>
    (recordedFinalDrain bgd.inceptionPointDrains ip).isNone &&
      maxWaitSeconds ip * 1000000000 ≤ now - observed).map (·.name)

def measure (x : DrainClock) (bgd : BlueGreenDeployment) (start now : Timestamp) : DrainClock where
  observed := x.observed
  used := some (x.used.getD start)
  due := dueOf bgd (x.observed.getD now) now
  faults := x.faults ++ (if bgd.drainStartedAt = some start then [] else [.unrecorded]) ++
    if x.used.getD start = start then [] else [.moved]

/-- The statuses time the point out. -/
def TimesOut (statuses : List InceptionPointDrainStatus) (name : String) : Prop :=
  ∃ status ∈ statuses, status.name = name ∧ status.phase = .timedOutMaybeSuccessful

instance (statuses : List InceptionPointDrainStatus) (name : String) :
    Decidable (TimesOut statuses name) :=
  inferInstanceAs (Decidable (∃ status ∈ statuses, _ ∧ _))

/-- The points that are due and not timed out are late. -/
def assess (x : DrainClock) (statuses : List InceptionPointDrainStatus) : DrainClock :=
  let missed := x.due.filter fun name => ¬ TimesOut statuses name
  { x with due := [], faults := if missed = [] then x.faults else x.faults ++ [.late missed] }

theorem assess_of_due_nil {x : DrainClock} {statuses : List InceptionPointDrainStatus}
    (h : x.due = []) : x.assess statuses = x := by
  obtain ⟨observed, used, due, faults⟩ := x
  subst h
  rfl

def observer : Observer DrainClock where
  note x w n := match n with
    | .called => { x with due := [] }
    | .reconcile bgd => x.observe bgd w.clock
    | .drainMeasured bgd start now => x.measure bgd start now
    | .drainsAssessed _ statuses => x.assess statuses
    | .reconcileFailed _ => x.assess []
    | _ => x
  write x st st' :=
    if phaseOf st' = phaseOf st then x else { x with observed := none, used := none }

/-- **Drain timeouts fire**: every reconcile of a drain measured from the recorded instant its first
one measured from, and timed out every point whose time was up. -/
def Fires (x : DrainClock) : Prop := x.faults = []

instance (x : DrainClock) : Decidable x.Fires := inferInstanceAs (Decidable (_ = _))

/-- The first reconcile that observes a drain finds its start recorded, and no question about a
drain fails in a reconcile in which the time of some point is up. -/
def MayNote (s : World × DrainClock) : Note → Prop
  | .reconcile bgd => Reaches bgd .draining → s.2.observed = none →
    ∃ t ∈ bgd.drainStartedAt, t ≤ s.1.clock
  | .drainStatusFailed _ _ => s.2.due = []
  | _ => True

instance (s : World × DrainClock) : (n : Note) → Decidable (MayNote s n)
  | .reconcile _ => inferInstanceAs (Decidable (_ → _ = _ → ∃ t ∈ _, _))
  | .drainStatusFailed _ _ => inferInstanceAs (Decidable (_ = _))
  | .called | .decide _ _ _ | .promote _ | .beginDraining _ _ | .drainStarted _ _
  | .finalizeDraining _ _ | .drainMeasured _ _ _ | .drainsAssessed _ _ | .reconcileFailed _
  | .orphan _ => .isTrue trivial

abbrev recorded : Guard Call (World × DrainClock) Outcome Move := notesGuard MayNote

/-! ## The invariant -/

/-- Nothing went wrong, and the start of the drain under way was recorded before it was first
observed, and is the one that has been used. -/
structure Inv (st : Status) (x : DrainClock) : Prop where
  sound : x.faults = []
  start : ∀ observed ∈ x.observed, phaseOf st = some .draining ∧
    ∃ t ∈ st.bind (·.drainStartedAt), t ≤ observed ∧ ∀ u ∈ x.used, u = t
  used : x.observed = none → x.used = none

/-- No drain has been observed yet. -/
structure Idle (x : DrainClock) : Prop where
  observed : x.observed = none
  used : x.used = none
  due : x.due = []

theorem Idle.write {x : DrainClock} (h : Idle x) (st st' : Status) :
    observer.write x st st' = x := by
  obtain ⟨observed, used, due, faults⟩ := x
  obtain ⟨rfl, rfl, -⟩ := h
  exact ite_self _

/-- Before a drain is observed a write changes nothing that matters. -/
theorem Inv.idle {st st' : Status} {x : DrainClock} (h : Inv st x) (hx : Idle x) :
    Inv st' (observer.write x st st') := by
  rw [hx.write]
  exact ⟨h.sound, by simp [hx.observed], h.used⟩

/-- A write of another phase ends the drain. -/
theorem Inv.leave {st st' : Status} {x : DrainClock} (h : Inv st x)
    (hp : phaseOf st' ≠ some .draining) : Inv st' (observer.write x st st') := by
  unfold observer
  dsimp only
  split
  · rename_i hsame
    refine ⟨h.sound, fun observed ho => ?_, h.used⟩
    rw [hsame] at hp
    exact absurd (h.start observed ho).1 hp
  · exact ⟨h.sound, by simp, fun _ => rfl⟩

theorem Inv.keep {st st' : Status} {x : DrainClock} (h : Inv st x)
    (hphase : phaseOf st' = phaseOf st)
    (hstart : st'.bind (·.drainStartedAt) = st.bind (·.drainStartedAt)) :
    observer.write x st st' = x ∧ Inv st' x := by
  refine ⟨if_pos hphase, h.sound, fun observed ho => ?_, h.used⟩
  rw [hphase, hstart]
  exact h.start observed ho

theorem Inv.minor {st : Status} {x : DrainClock} {patch : StatusPatch} (hpatch : patch.Minor)
    (h : Inv st x) :
    observer.write x st (some (patch.apply (st.getD .default))) = x ∧
      Inv (some (patch.apply (st.getD .default))) x := by
  refine h.keep (phaseOf_minor hpatch.setsPhase st) ?_
  change (patch.apply (st.getD .default)).drainStartedAt = _
  rw [hpatch.apply_drainStartedAt]
  cases st <;> rfl

/-! ## Observing and measuring -/

/-- The first reconcile that observes the drain finds its start; the later ones find the same. -/
theorem Inv.observe {st : Status} {x : DrainClock} {bgd : BlueGreenDeployment} {clock : Timestamp}
    (h : Inv st x) (hr : Reads bgd st)
    (hfirst : Reaches bgd .draining → x.observed = none → ∃ t ∈ bgd.drainStartedAt, t ≤ clock) :
    Inv st (x.observe bgd clock) := by
  unfold DrainClock.observe
  split
  · rename_i hobs
    refine ⟨h.sound, fun observed ho => ?_, by simp⟩
    simp only [Option.mem_def, Option.some.injEq] at ho
    cases hx : x.observed with
    | none =>
      obtain ⟨t, ht, hle⟩ := hfirst hobs hx
      rw [hx, Option.getD_none] at ho
      subst ho
      refine ⟨hr.phaseOf.trans hobs.1, t, by rw [hr.drainStartedAt]; exact ht, hle, fun u hu => ?_⟩
      rw [h.used hx] at hu
      simp at hu
    | some o =>
      rw [hx, Option.getD_some] at ho
      subst ho
      exact h.start o hx
  · exact h

/-- Waiting long enough after the first reconcile is waiting long enough after the start. -/
theorem elapsedSeconds_of_observed {start observed now wait : Int} (h : start ≤ observed)
    (hwait : wait * 1000000000 ≤ now - observed) : wait ≤ elapsedSeconds start now := by
  unfold elapsedSeconds
  rcases lt_or_ge (now - start) 0 with hneg | hpos
  · have : wait ≤ 0 := by omega
    exact le_max_of_le_right this
  · rw [Int.tdiv_eq_ediv_of_nonneg hpos]
    omega

/-- The due points are those the loop of `reconcile_draining` times out. -/
def Measured (bgd : BlueGreenDeployment) (elapsed : Int) (x : DrainClock) : Prop :=
  ∀ name ∈ x.due, ∃ ip ∈ bgd.spec.inceptionPoints, ip.name = name ∧
    recordedFinalDrain bgd.inceptionPointDrains ip = none ∧ maxWaitSeconds ip ≤ elapsed

/-- Measuring an observed drain from what its status records is faultless. -/
theorem measure_spec {st : Status} {x : DrainClock} {bgd : BlueGreenDeployment}
    {start now : Timestamp} (h : Inv st x) (hr : Reads bgd st)
    (hstart : ∀ t ∈ bgd.drainStartedAt, t = start) (hobserved : x.observed ≠ none) :
    Inv st (x.measure bgd start now) ∧
      Measured bgd (elapsedSeconds start now) (x.measure bgd start now) := by
  obtain ⟨observed, hx⟩ := Option.ne_none_iff_exists'.mp hobserved
  obtain ⟨hphase, t, ht, hle, hused⟩ := h.start observed hx
  have hrec : bgd.drainStartedAt = some t := hr.drainStartedAt.symm.trans ht
  obtain rfl := hstart t hrec
  have hsame : x.used.getD t = t := by
    cases hu : x.used with
    | none => rfl
    | some u => exact hused u hu
  refine ⟨⟨?_, ?_, ?_⟩, ?_⟩
  · simp [measure, hsame, hrec, h.sound]
  · intro o ho
    obtain rfl : o = observed := by simpa [measure, hx, eq_comm] using ho
    refine ⟨hphase, t, ht, hle, fun u hu => ?_⟩
    simpa [measure, hsame, eq_comm] using hu
  · intro hnone
    exact absurd hnone hobserved
  · intro name hname
    simp only [measure, hx, Option.getD_some, dueOf, List.mem_map, List.mem_filter,
      Bool.and_eq_true, Option.isNone_iff_eq_none, decide_eq_true_eq] at hname
    obtain ⟨ip, ⟨hip, hfinal, hwait⟩, rfl⟩ := hname
    exact ⟨ip, hip, rfl, hfinal, elapsedSeconds_of_observed hle hwait⟩

/-! ## The loop -/

variable {ctx : Ctx}

/-- One turn extends the statuses, and times its point out when the time is up. -/
theorem reconcileDrain_returns (bgd : BlueGreenDeployment) (ns : String) (elapsed : Int)
    (statuses : List InceptionPointDrainStatus) (ip : InceptionPoint) :
    (reconcileDrain ctx bgd ns elapsed statuses ip).Returns fun statuses' =>
      statuses ⊆ statuses' ∧ (recordedFinalDrain bgd.inceptionPointDrains ip = none →
        maxWaitSeconds ip ≤ elapsed → TimesOut statuses' ip.name) := by
  unfold reconcileDrain
  split
  · rename_i existing hfinal
    exact ⟨List.subset_append_left _ _, fun hnone => by simp [hnone] at hfinal⟩
  · split
    · refine .of_bind fun now => ⟨List.subset_append_left _ _, fun _ _ => ?_⟩
      exact ⟨_, List.mem_append_right _ (List.mem_singleton.mpr rfl), rfl, rfl⟩
    · rename_i hlate
      refine .of_bind fun r => ?_
      cases r with
      | ok status => exact ⟨List.subset_append_left _ _, fun _ h => absurd h hlate⟩
      | error e => exact .of_bind fun _ => trivial

/-- **The loop times out every point whose time is up.** -/
theorem loop_returns (bgd : BlueGreenDeployment) (ns : String) (elapsed : Int)
    (points : List InceptionPoint) (statuses : List InceptionPointDrainStatus) :
    (Prog.foldEach points statuses (reconcileDrain ctx bgd ns elapsed)).Returns fun statuses' =>
      statuses ⊆ statuses' ∧ ∀ ip ∈ points, recordedFinalDrain bgd.inceptionPointDrains ip = none →
        maxWaitSeconds ip ≤ elapsed → TimesOut statuses' ip.name := by
  induction points generalizing statuses with
  | nil => exact ⟨List.Subset.refl _, by simp⟩
  | cons ip points ih =>
    refine (reconcileDrain_returns bgd ns elapsed statuses ip).bind fun next hnext => ?_
    refine (ih next).mono fun statuses' hrest => ⟨List.Subset.trans hnext.1 hrest.1, fun ip' hip' => ?_⟩
    rcases List.mem_cons.mp hip' with rfl | hmem
    · intro hfinal hwait
      obtain ⟨status, hmem, hstatus⟩ := hnext.2 hfinal hwait
      exact ⟨status, hrest.1 hmem, hstatus⟩
    · exact hrest.2 ip' hmem

/-! ## The arms -/

/-- The assertion that no drain has been measured. -/
abbrev NotMeasured : Assertion DrainClock := fun _ x => Idle x

/-- The assertion that nothing is due, whatever drain is under way. -/
abbrev NothingDue : Assertion DrainClock := fun _ x => x.due = []

theorem minor_idle : KeptByMinor observer Inv NotMeasured := by
  intro patch hpatch st x hi hx
  dsimp only
  rw [hx.write]
  exact ⟨(Inv.minor hpatch hi).2, hx⟩

theorem minor_due : KeptByMinor observer Inv NothingDue := by
  intro patch hpatch st x hi hx
  obtain ⟨hw, hi'⟩ := hi.minor hpatch
  dsimp only
  rw [hw]
  exact ⟨hi', hx⟩

theorem phaseIdle (bgd : BlueGreenDeployment) (ns : String) (phase : BGDPhase) :
    Triple observer recorded Inv NotMeasured (updateStatusPhase bgd ns phase)
      (fun _ => NotMeasured) NothingDue := by
  refine .updateStatusPhase (fun _ _ _ hx => hx) fun st x conditions hi hx _ => ?_
  exact ⟨hi.idle hx, by rw [hx.write]; exact hx⟩

theorem patchIdle (patch : StatusPatch) (bgd : BlueGreenDeployment) (ns : String) :
    Triple observer recorded Inv NotMeasured (patchStatus bgd ns patch)
      (fun _ => NotMeasured) NothingDue :=
  .patchStatus (fun _ _ _ hx => hx) fun st x hi hx =>
    ⟨hi.idle hx, by rw [hx.write]; exact hx⟩

theorem due_of_idle {st : Status} {x : DrainClock} (_ : Inv st x) (hx : Idle x) : x.due = [] :=
  hx.due

/-- Code that marks nothing, while no drain has been measured. -/
theorem workIdle {α : Type} {p : Op α} (hp : Op.Work p) :
    Triple observer recorded Inv NotMeasured p (fun _ => NotMeasured) NothingDue :=
  .work hp fun _ _ => due_of_idle

theorem noteIdle {n : Note} (h : ∀ x w, observer.note x w n = x) :
    Triple observer recorded Inv NotMeasured (Op.note n) (fun _ => NotMeasured) NothingDue :=
  .noteQuiet h fun _ _ => due_of_idle

/-- The two writes that start a drain leave it unmeasured, whichever of them is lost. -/
theorem drainStarts (bgd : BlueGreenDeployment) (ns : String) :
    Triple observer recorded Inv NotMeasured (startDrain bgd ns) (fun _ _ _ => True) NothingDue :=
  .bind (phaseIdle bgd ns .draining) fun _ => .bind .now fun _ => (patchIdle _ bgd ns).drop

theorem rollback (bgd : BlueGreenDeployment) (ns : String) :
    Triple observer recorded Inv NotMeasured
      (do
        beginDrainingAfterRollback ctx bgd ns
        startDrain bgd ns) (fun _ _ _ => True) NothingDue :=
  .rollbackArm (noteIdle fun _ _ => rfl) (fun _ _ => due_of_idle) (noteIdle fun _ _ => rfl)
    (drainStarts bgd ns)

theorem promoting (bgd : BlueGreenDeployment) (ns : String) :
    Triple observer recorded Inv NotMeasured (reconcilePromoting ctx bgd ns)
      (fun _ _ _ => True) NothingDue :=
  .promotingArm (noteIdle fun _ _ => rfl) (fun _ _ => due_of_idle) (noteIdle fun _ _ => rfl)
    (fun _ _ => due_of_idle) (noteIdle fun _ _ => rfl) (drainStarts bgd ns)

theorem observing (bgd : BlueGreenDeployment) (ns stateKey : String) :
    Triple observer recorded Inv NotMeasured (reconcileObserving ctx bgd ns stateKey)
      (fun _ _ _ => True) NothingDue := by
  refine .observingArm minor_idle (fun _ _ => due_of_idle) bgd ns stateKey
    (D := fun _ _ => NotMeasured) (fun _ _ => noteIdle fun _ _ => rfl)
    (fun _ _ _ _ => due_of_idle) fun _ _ action _ => ?_
  cases action with
  | continueObserving => exact (Triple.skip ()).drop
  | promote => exact (phaseIdle bgd ns .promoting).drop
  | rollback => exact rollback bgd ns
  | advanceStep step percent =>
    exact .bind (workIdle (Op.Passive.applySplitterTrafficPercent _ _ _ _).work) fun _ =>
      (patchIdle _ bgd ns).drop

/-- One turn of the loop fails only where the guard lets its failure be noted. -/
theorem reconcileDrain_triple (bgd : BlueGreenDeployment) (ns : String) (elapsed : Int)
    (statuses : List InceptionPointDrainStatus) (ip : InceptionPoint) {R : DrainClock → Prop} :
    Triple observer recorded Inv (fun _ x => R x) (reconcileDrain ctx bgd ns elapsed statuses ip)
      (fun _ _ x => R x) NothingDue := by
  unfold reconcileDrain
  split
  · exact .skip _
  · split
    · exact .bind .now fun _ => .skip _
    · have hask : Triple observer recorded Inv (fun _ x => R x) (drainStatusOf ctx bgd ns ip)
          (fun _ _ x => R x) fun _ x => R x :=
        .work (Op.Asks.drainStatusOf _ _ _ _).work fun _ _ _ hr => hr
      refine .bind hask.result fun r => ?_
      cases r with
      | ok status => exact .skip _
      | error e =>
        have hnote : Triple observer recorded Inv (fun _ x => R x)
            (Op.note (.drainStatusFailed bgd ip)) (fun _ => NothingDue) NothingDue :=
          .note fun s _ _ hg hi _ => ⟨hi, hg _ rfl⟩
        exact .bind hnote fun _ => .fail e fun _ _ _ hx => hx

theorem conclude (bgd : BlueGreenDeployment) (ns stateKey : String) :
    Triple observer recorded Inv NothingDue (concludeDraining ctx bgd ns stateKey)
      (fun _ _ _ => True) NothingDue := by
  refine .concludeArm minor_due (fun _ _ _ hx => hx) (D := fun _ => NothingDue)
    (fun _ => .noteQuiet (fun _ _ => rfl) fun _ _ _ hx => hx) (fun _ _ _ _ hx => hx)
    fun counts => .updateStatusPhase (fun _ _ _ _ => trivial) fun st x conditions hi _ _ => ?_
  refine ⟨hi.leave ?_, trivial⟩
  rw [Triple.phaseOf_phased]
  unfold finalPhase
  split <;> simp

/-- What the record satisfies once a reconcile is noted. -/
def Noted (live : BlueGreenDeployment) (x : DrainClock) : Prop :=
  x.due = [] ∧ (Reaches live .draining → x.observed ≠ none)

/-- **The Draining arm.** Measuring makes points due, and the loop does not end, with statuses or
with an error, while one of them is not timed out. -/
theorem draining {live bgd : BlueGreenDeployment} (hlive : Reaches live .draining)
    (ns stateKey : String) :
    Triple observer recorded Inv (Known bgd (Noted live))
      (reconcileDraining ctx bgd ns stateKey) (fun _ _ _ => True) NothingDue := by
  have hstart : Triple observer recorded Inv (Known bgd (Noted live)) (drainStart bgd)
      (fun start st x => (∀ t ∈ bgd.drainStartedAt, t = start) ∧ Known bgd (Noted live) st x)
      NothingDue := by
    refine .returns (.work (Op.Asks.drainStart _).work fun _ _ _ hk => hk.2.1) ?_
    unfold drainStart
    cases bgd.drainStartedAt with
    | none => exact fun start t ht => by simp at ht
    | some t => exact fun t' ht' => by cases ht'; rfl
  have hmeasure (start now : Timestamp) : Triple observer recorded Inv
      (fun st x => (∀ t ∈ bgd.drainStartedAt, t = start) ∧ Known bgd (Noted live) st x)
      (Op.note (.drainMeasured bgd start now))
      (fun _ _ x => Measured bgd (elapsedSeconds start now) x) NothingDue :=
    .note fun s o st _ hi hk => measure_spec hi hk.2.1 hk.1 (hk.2.2.2 hlive)
  have hassess (elapsed : Int) (statuses : List InceptionPointDrainStatus) : Triple observer
      recorded Inv (fun _ x => (∀ ip ∈ bgd.spec.inceptionPoints,
        recordedFinalDrain bgd.inceptionPointDrains ip = none → maxWaitSeconds ip ≤ elapsed →
          TimesOut statuses ip.name) ∧ Measured bgd elapsed x)
      (Op.note (.drainsAssessed bgd statuses)) (fun _ => NothingDue) NothingDue := by
    refine .note fun s o st _ hi hm => ⟨?_, rfl⟩
    have hnone : s.2.due.filter (fun name => ¬ TimesOut statuses name) = [] := by
      refine List.filter_eq_nil_iff.mpr fun name hname => ?_
      obtain ⟨ip, hip, rfl, hfinal, hwait⟩ := hm.2 name hname
      simpa using hm.1 ip hip hfinal hwait
    change Inv st (s.2.assess statuses)
    simp only [assess, hnone, if_true]
    exact ⟨hi.sound, hi.start, hi.used⟩
  refine .bind hstart fun start => .bind .now fun now => .bind (hmeasure start now) fun _ => ?_
  refine .bind (.returns (.foldEach fun statuses ip _ =>
    reconcileDrain_triple bgd ns _ statuses ip) (loop_returns bgd ns _ _ [])) fun statuses => ?_
  refine .bind ((hassess (elapsedSeconds start now) statuses).pre
    fun _ _ _ hk => ⟨hk.1.2, hk.2⟩) fun _ => ?_
  refine .bind (.minorPatch minor_due (by trivial) bgd ns) fun _ => ?_
  split
  · exact (Triple.skip ()).drop
  · exact conclude bgd ns stateKey

/-- Away from Draining no drain is observed. -/
theorem idle_of_phase {st : Status} {x : DrainClock} (h : Inv st x)
    (hp : phaseOf st ≠ some .draining) (hdue : x.due = []) : Idle x := by
  have hnone : x.observed = none := by
    cases ho : x.observed with
    | none => rfl
    | some observed => exact absurd (h.start observed ho).1 hp
  exact ⟨hnone, h.used hnone, hdue⟩

theorem arms : Arms observer recorded Inv ctx Noted (fun x => x.due = []) where
  blind := {
    write := fun st x conditions => if_pos (phaseOf_conditioned st conditions)
    inv := fun st x conditions hi => (hi.keep (phaseOf_conditioned st conditions)
      (by cases st <;> rfl)).2 }
  invalid _ _ _ _ hi := hi.leave (by simp [phaseOf, StatusPatch.apply])
  called _ _ _ _ hi := ⟨⟨hi.sound, hi.start, hi.used⟩, rfl⟩
  note bgd s _ _ hg hr hi hx := by
    refine ⟨hi.observe hr (hg _ rfl), ?_, fun hobs => ?_⟩
    · change (s.2.observe bgd s.1.clock).due = []
      unfold DrainClock.observe
      split <;> exact hx
    · change (s.2.observe bgd s.1.clock).observed ≠ none
      simp [DrainClock.observe, if_pos hobs]
  known _ _ hx := hx.1
  failed _ s _ _ _ hx hi := by
    change Inv _ (s.2.assess [])
    rw [assess_of_due_nil hx]
    exact hi
  restart bgd hrestart := by
    refine .bind .now fun _ => .patchStatus (fun _ _ _ _ => trivial) fun st x hi _ => ⟨?_, trivial⟩
    exact hi.leave (by simp [phaseOf, StatusPatch.apply])
  forceReplace live bgd hsame hforce := by
    refine (rollback bgd live.metadata.ns).pre fun st x hi hk => idle_of_phase hi ?_ hk.2.1
    simp only [shouldStartForceReplaceRollout, Bool.and_eq_true, decide_eq_true_eq] at hforce
    rw [hk.1.phaseOf, hsame.phase]
    intro hd
    rw [hd] at hforce
    exact hforce.2 rfl
  arm live bgd hsame hdeleted hfinalizer _ _ := by
    have hidle {α : Type} {p : Op α} {Q : α → Assertion DrainClock}
        (hp : bgd.phase ≠ some .draining)
        (h : Triple observer recorded Inv NotMeasured p Q NothingDue) :
        Triple observer recorded Inv (Known bgd (Noted live)) p Q NothingDue :=
      h.pre fun st x hi hk => idle_of_phase hi (by rw [hk.1.phaseOf]; exact hp) hk.2.1
    have hcleanup : Triple observer recorded Inv (Known bgd (Noted live))
        (cleanupRollout bgd live.metadata.ns
          (blueGreenStateKey live.metadata.ns live.metadata.name)) (fun _ _ _ => True) NothingDue :=
      (Triple.work (Op.Rewires.cleanupRollout _ _ _).upkeep.work fun _ _ _ hk => hk.2.1).drop
    have hpending (hp : bgd.phase ≠ some .draining) :=
      hidle (p := reconcilePending ctx bgd live.metadata.ns) hp
        (.pendingArm minor_idle (fun _ _ => due_of_idle) bgd live.metadata.ns
          fun phase _ => (phaseIdle bgd _ phase).drop)
    rw [← hsame.phase]
    cases hp : bgd.phase with
    | none => exact hpending (by simp [hp])
    | some phase =>
      cases phase with
      | pending => exact hpending (by simp [hp])
      | observing => exact hidle (by simp [hp]) (observing bgd _ _)
      | promoting => exact hidle (by simp [hp]) (promoting bgd _)
      | draining => exact draining ⟨hsame.phase ▸ hp, hdeleted, hfinalizer⟩ _ _
      | completed => exact hcleanup
      | rolledBack => exact hcleanup
      | invalid => exact hcleanup

end DrainClock

def drainTimeoutsFireRecordedRun :
    PLift ((DrainClock.observer.machine.run DrainClock.recorded (reconcile Sample.ctx)
      ⟨(Sample.pointWorld .draining (some 0) [], .empty), none⟩
      (Sample.drainingAttempt 9 (.ok ⟨false, none⟩) 2 ++ Sample.seconds 60 ::
        Sample.attempt 8)).map
        (fun s => s.world.1.bgd.map (·.inceptionPointDrains.map (·.phase))) =
      some (some [.timedOutMaybeSuccessful])) :=
  ⟨by decide +kernel⟩

def drainStartLostRun : PLift ((DrainClock.observer.machine.run Guard.top (reconcile Sample.ctx)
      ⟨(Sample.pointWorld .observing none
        [Sample.testCase "t1" .failed, Sample.testCase "t2" .failed], .empty), none⟩
      (Sample.attempt 16 ++ Sample.drainingAttempt 10 (.sendError "timeout") 5 ++
        Sample.seconds 100 :: Sample.drainingAttempt 10 (.sendError "timeout") 5)).map
        (·.world.2.faults) =
      some [.unrecorded, .unrecorded, .moved, .late ["orders"]]) :=
  ⟨by decide +kernel⟩

end FluidBG
