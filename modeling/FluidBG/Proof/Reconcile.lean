import FluidBG.Proof.Observer
/-!
# One reconcile, and runs of them

The part of a reconcile that is the same for every property: reading the object again, choosing an
arm, the snapshot of a deferred rollout, and publishing an error. `Triple.reconcile` leaves to a
property what it has to say about each arm; `Triple.sound` carries the invariant through a run.
-/

set_option autoImplicit false

namespace FluidBG

open Lib

/-! ## The object a reconcile works on -/

/-- The same object, with the spec it has now or the one of the snapshot. -/
def SameObject (bgd bgd' : BlueGreenDeployment) : Prop :=
  bgd'.metadata = bgd.metadata ∧ bgd'.status = bgd.status

theorem SameObject.refl (bgd : BlueGreenDeployment) : SameObject bgd bgd := ⟨rfl, rfl⟩

theorem SameObject.frozen (bgd : BlueGreenDeployment) (spec : BlueGreenDeploymentSpec) :
    SameObject bgd (frozenBgd bgd spec) := ⟨rfl, rfl⟩

section SameObject

variable {bgd bgd' : BlueGreenDeployment} (h : SameObject bgd bgd')

include h

theorem SameObject.phase : bgd'.phase = bgd.phase := by
  simp [BlueGreenDeployment.phase, h.2]

theorem SameObject.rolloutGeneration : bgd'.rolloutGeneration = bgd.rolloutGeneration := by
  simp [BlueGreenDeployment.rolloutGeneration, h.2]

theorem SameObject.currentRolloutGeneration :
    currentRolloutGeneration bgd' = currentRolloutGeneration bgd := by
  simp [FluidBG.currentRolloutGeneration, h.rolloutGeneration, h.1]

theorem SameObject.candidateName : (candidateRef bgd').name = (candidateRef bgd).name := by
  simp [candidateRef, BlueGreenDeployment.generatedDeploymentName, h.1, h.2]

end SameObject

theorem loadRolloutSpecSnapshot_returns (ctx : Ctx) (bgd : BlueGreenDeployment) (ns : String) :
    (loadRolloutSpecSnapshot ctx bgd ns).Returns (SameObject bgd) := by
  refine .of_bind fun r => ?_
  cases r with
  | error e => trivial
  | ok snapshot => exact .of_bind fun spec => .frozen bgd spec

theorem forceReplaceBgd_returns (ctx : Ctx) (bgd : BlueGreenDeployment) (ns : String) :
    (forceReplaceBgd ctx bgd ns).Returns (SameObject bgd) := by
  refine (loadRolloutSpecSnapshot_returns ctx bgd ns).result.bind fun r hr => ?_
  cases r with
  | error e => exact .refl bgd
  | ok bgd' => exact hr bgd' rfl

theorem rolloutBgd_returns (ctx : Ctx) (bgd : BlueGreenDeployment) (ns : String)
    (phase : BGDPhase) : (rolloutBgd ctx bgd ns phase).Returns (SameObject bgd) := by
  unfold rolloutBgd
  split
  · split
    · exact .of_bind fun _ => loadRolloutSpecSnapshot_returns ctx bgd ns
    · exact loadRolloutSpecSnapshot_returns ctx bgd ns
  · exact .refl bgd

/-- The status is the one `bgd` was read with, as far as a rollout goes by it. -/
structure Reads (bgd : BlueGreenDeployment) (st : Status) : Prop where
  phase : st.bind (·.phase) = bgd.phase
  rolloutGeneration : st.bind (·.rolloutGeneration) = bgd.rolloutGeneration
  observedGeneration : st.bind (·.observedGeneration) = bgd.observedGeneration
  generatedDeploymentName : st.bind (·.generatedDeploymentName) = bgd.generatedDeploymentName
  drainStartedAt : st.bind (·.drainStartedAt) = bgd.drainStartedAt

theorem Reads.phaseOf {bgd : BlueGreenDeployment} {st : Status} (h : Reads bgd st) :
    phaseOf st = bgd.phase := h.phase

theorem Reads.of_eq {bgd : BlueGreenDeployment} {st : Status} (h : bgd.status = st) :
    Reads bgd st := by
  subst h
  exact ⟨rfl, rfl, rfl, rfl, rfl⟩

theorem Reads.same {bgd bgd' : BlueGreenDeployment} {st : Status} (h : Reads bgd st)
    (hs : SameObject bgd bgd') : Reads bgd' st := by
  obtain ⟨h1, h2, h3, h4, h5⟩ := h
  simp only [BlueGreenDeployment.phase, BlueGreenDeployment.rolloutGeneration,
    BlueGreenDeployment.observedGeneration, BlueGreenDeployment.generatedDeploymentName,
    BlueGreenDeployment.drainStartedAt, ← hs.2] at h1 h2 h3 h4 h5
  exact ⟨h1, h2, h3, h4, h5⟩

/-- A status with other conditions. -/
def conditioned (st : Status) (conditions : List BlueGreenDeploymentCondition) : Status :=
  some { st.getD .default with conditions := conditions }

theorem Reads.conditioned {bgd : BlueGreenDeployment} {st : Status} (h : Reads bgd st)
    (conditions : List BlueGreenDeploymentCondition) : Reads bgd (conditioned st conditions) := by
  obtain ⟨h1, h2, h3, h4, h5⟩ := h
  cases st with
  | none => exact ⟨h1, h2, h3, h4, h5⟩
  | some status => exact ⟨h1, h2, h3, h4, h5⟩

theorem phaseOf_conditioned (st : Status) (conditions : List BlueGreenDeploymentCondition) :
    phaseOf (conditioned st conditions) = phaseOf st := by
  cases st <;> rfl

theorem phaseOf_minor {patch : StatusPatch} (h : ¬ patch.SetsPhase) (st : Status) :
    phaseOf (some (patch.apply (st.getD .default))) = phaseOf st := by
  change (patch.apply (st.getD .default)).phase = phaseOf st
  rw [StatusPatch.apply_phase h]
  cases st <;> rfl

/-- A reconcile of this object gets to the arm of this phase, or to a forced replacement. -/
def Reaches (bgd : BlueGreenDeployment) (phase : BGDPhase) : Prop :=
  bgd.phase = some phase ∧ bgd.metadata.deletionTimestamp = none ∧
    hasFinalizer bgd bgdFinalizer = true

instance (bgd : BlueGreenDeployment) (phase : BGDPhase) : Decidable (Reaches bgd phase) :=
  inferInstanceAs (Decidable (_ ∧ _ ∧ _))

/-! ## The skeleton of a reconcile -/

section Skeleton

variable {X : Type} {obs : Observer X} {G : Guard Call (World × X) Outcome Move}
  {I P E : Assertion X} {ctx : Ctx}

/-- The record and the invariant do not see the conditions. -/
structure BlindToConditions (obs : Observer X) (I : Assertion X) : Prop where
  write : ∀ st x conditions, obs.write x st (conditioned st conditions) = x
  inv : ∀ st x conditions, I st x → I (conditioned st conditions) x

theorem Triple.deferred (hb : BlindToConditions obs I)
    (hP : ∀ st x conditions, P st x → P (conditioned st conditions) x)
    (bgd : BlueGreenDeployment) (ns : String) :
    Triple obs G I P (updateStatusUpdateDeferred bgd ns) (fun _ => P) E := by
  refine bind getBgd fun r => ?_
  cases r with
  | error e => exact (skip ()).pre fun _ _ _ hp => hp.1
  | ok latest =>
    refine bind now fun now => bind (R := fun _ => P) ?_ fun _ => skip ()
    refine (withConditions (P := P) (fun _ _ _ hp => hp) fun st x conditions hi hp => ?_).pre
      fun st x hi hp => ⟨hp.1, hp.2 latest rfl⟩
    have hx : obs.write x st (some { st.getD .default with conditions := conditions }) = x :=
      hb.write st x conditions
    dsimp only
    rw [hx]
    exact ⟨hb.inv st x conditions hi, hP st x conditions hp⟩

theorem Triple.reconcileFailure (hb : BlindToConditions obs I) (bgd : BlueGreenDeployment)
    (ns reason message : String) :
    Triple obs G I P (updateStatusReconcileFailure bgd ns reason message) fun _ _ _ => True := by
  refine bind getBgd fun r => ?_
  cases r with
  | error e => exact (skip ()).drop
  | ok latest =>
    refine bind now fun now => bind (R := fun _ _ _ => True) ?_ fun _ => skip ()
    refine (withConditions (P := P) (fun _ _ _ _ => trivial) fun st x conditions hi _ => ?_).pre
      fun st x hi hp => ⟨hp.1, hp.2 latest rfl⟩
    have hx : obs.write x st (some { st.getD .default with conditions := conditions }) = x :=
      hb.write st x conditions
    dsimp only
    rw [hx]
    exact ⟨hb.inv st x conditions hi, trivial⟩

/-- The object without its finalizer: a cleanup writes no status. -/
theorem Triple.cleanupDeleted (bgd : BlueGreenDeployment)
    (hE : ∀ st x, I st x → P st x → E st x) :
    Triple obs G I P (cleanupDeletedBgd bgd) (fun _ => P) E :=
  bind (work (Op.Rewires.cleanupRollout _ _ _).upkeep.work hE) fun _ =>
    bind patchFinalizers fun _ => bind (work (kube_calls _) hE) fun _ => skip ()

/-- What is known of the object before an arm runs on it. -/
abbrev Known (bgd : BlueGreenDeployment) (R : X → Prop) : Assertion X :=
  fun st x => Reads bgd st ∧ R x

/-- What a property says about each part of a reconcile that writes the status. `E` is what the
record satisfies from the call on until an arm says otherwise, and when a reconcile fails; `R` is
what it satisfies once the reconcile of an object has been noted, and `F` once its failure has. -/
structure Parts (obs : Observer X) (G : Guard Call (World × X) Outcome Move) (I : Assertion X)
    (ctx : Ctx) (R : BlueGreenDeployment → X → Prop) (E F : X → Prop) : Prop where
  deferred : ∀ bgd, Triple obs G I (Known bgd (R bgd))
    (updateStatusUpdateDeferred bgd bgd.metadata.ns) (fun _ => Known bgd (R bgd)) fun _ => E
  publish : ∀ bgd error, Triple obs G I (fun _ => F)
    (publishReconcileErrorStatus bgd bgd.metadata.ns error) fun _ _ _ => True
  called : ∀ s o st, G.call s (.note .called) o → I st s.2 →
    I st (obs.note s.2 s.1 .called) ∧ E (obs.note s.2 s.1 .called)
  note : ∀ bgd s o st, G.call s (.note (.reconcile bgd)) o → Reads bgd st → I st s.2 → E s.2 →
    I st (obs.note s.2 s.1 (.reconcile bgd)) ∧ R bgd (obs.note s.2 s.1 (.reconcile bgd))
  known : ∀ bgd x, R bgd x → E x
  failed : ∀ error s o st, G.call s (.note (.reconcileFailed error)) o → E s.2 → I st s.2 →
    I st (obs.note s.2 s.1 (.reconcileFailed error)) ∧ F (obs.note s.2 s.1 (.reconcileFailed error))
  restart : ∀ bgd, rolloutNeedsRestart bgd (bgd.phase.getD .pending) = true →
    Triple obs G I (Known bgd (R bgd)) (resetStatusForNewRollout bgd bgd.metadata.ns)
      (fun _ _ _ => True) fun _ => E
  forceReplace : ∀ live bgd, SameObject live bgd →
    shouldStartForceReplaceRollout live (live.phase.getD .pending) = true →
    Triple obs G I (Known bgd (R live))
      (do
        beginDrainingAfterRollback ctx bgd live.metadata.ns
        startDrain bgd live.metadata.ns) (fun _ _ _ => True) fun _ => E
  arm : ∀ live bgd, SameObject live bgd → live.metadata.deletionTimestamp = none →
    hasFinalizer live bgdFinalizer = true →
    rolloutNeedsRestart live (live.phase.getD .pending) = false →
    shouldStartForceReplaceRollout live (live.phase.getD .pending) = false →
    Triple obs G I (Known bgd (R live))
      (reconcilePhase ctx bgd live.metadata.ns
        (blueGreenStateKey live.metadata.ns live.metadata.name) (live.phase.getD .pending))
      (fun _ _ _ => True) fun _ => E

/-- The same for a property that does not see the conditions, and so neither a deferral nor a
transient failure. -/
structure Arms (obs : Observer X) (G : Guard Call (World × X) Outcome Move) (I : Assertion X)
    (ctx : Ctx) (R : BlueGreenDeployment → X → Prop) (E : X → Prop) : Prop where
  blind : BlindToConditions obs I
  invalid : ∀ st x generation conditions, I st x →
    let st' := some ((StatusPatch.invalid generation conditions).apply (st.getD .default))
    I st' (obs.write x st st')
  called : ∀ s o st, G.call s (.note .called) o → I st s.2 →
    I st (obs.note s.2 s.1 .called) ∧ E (obs.note s.2 s.1 .called)
  note : ∀ bgd s o st, G.call s (.note (.reconcile bgd)) o → Reads bgd st → I st s.2 → E s.2 →
    I st (obs.note s.2 s.1 (.reconcile bgd)) ∧ R bgd (obs.note s.2 s.1 (.reconcile bgd))
  known : ∀ bgd x, R bgd x → E x
  failed : ∀ error s o st, G.call s (.note (.reconcileFailed error)) o → E s.2 → I st s.2 →
    I st (obs.note s.2 s.1 (.reconcileFailed error))
  restart : ∀ bgd, rolloutNeedsRestart bgd (bgd.phase.getD .pending) = true →
    Triple obs G I (Known bgd (R bgd)) (resetStatusForNewRollout bgd bgd.metadata.ns)
      (fun _ _ _ => True) fun _ => E
  forceReplace : ∀ live bgd, SameObject live bgd →
    shouldStartForceReplaceRollout live (live.phase.getD .pending) = true →
    Triple obs G I (Known bgd (R live))
      (do
        beginDrainingAfterRollback ctx bgd live.metadata.ns
        startDrain bgd live.metadata.ns) (fun _ _ _ => True) fun _ => E
  arm : ∀ live bgd, SameObject live bgd → live.metadata.deletionTimestamp = none →
    hasFinalizer live bgdFinalizer = true →
    rolloutNeedsRestart live (live.phase.getD .pending) = false →
    shouldStartForceReplaceRollout live (live.phase.getD .pending) = false →
    Triple obs G I (Known bgd (R live))
      (reconcilePhase ctx bgd live.metadata.ns
        (blueGreenStateKey live.metadata.ns live.metadata.name) (live.phase.getD .pending))
      (fun _ _ _ => True) fun _ => E

variable {R : BlueGreenDeployment → X → Prop} {E F : X → Prop}

theorem Arms.parts (h : Arms obs G I ctx R E) : Parts obs G I ctx R E fun _ => True where
  deferred bgd := .deferred h.blind (fun st x conditions hp => ⟨hp.1.conditioned conditions, hp.2⟩)
    bgd _
  publish bgd error := by
    unfold publishReconcileErrorStatus
    split
    · exact .bind .now fun now =>
        .patchStatus (fun _ _ _ _ => trivial) fun st x hi _ => ⟨h.invalid st x _ _ hi, trivial⟩
    · exact .reconcileFailure h.blind bgd _ _ _
  called := h.called
  note := h.note
  known := h.known
  failed error s o st hg he hi := ⟨h.failed error s o st hg he hi, trivial⟩
  restart := h.restart
  forceReplace := h.forceReplace
  arm := h.arm

theorem Triple.rolloutBgd (h : Parts obs G I ctx R E F) (bgd : BlueGreenDeployment)
    (phase : BGDPhase) :
    Triple obs G I (Known bgd (R bgd)) (FluidBG.rolloutBgd ctx bgd bgd.metadata.ns phase)
      (fun bgd' st x => SameObject bgd bgd' ∧ Known bgd (R bgd) st x) fun _ => E := by
  refine returns ?_ (rolloutBgd_returns ctx bgd _ phase)
  have hload : Triple obs G I (Known bgd (R bgd)) (loadRolloutSpecSnapshot ctx bgd bgd.metadata.ns)
      (fun _ => Known bgd (R bgd)) fun _ => E :=
    work (Op.Asks.loadRolloutSpecSnapshot ctx bgd _).work fun _ x _ hk => h.known bgd x hk.2
  unfold FluidBG.rolloutBgd
  split
  · split
    · exact bind (h.deferred bgd) fun _ => hload
    · exact hload
  · exact skip bgd

theorem Triple.reconcileLocked (h : Parts obs G I ctx R E F) (bgd : BlueGreenDeployment) :
    Triple obs G I (fun st x => bgd.status = st ∧ E x) (reconcileLocked ctx bgd)
      (fun _ _ _ => True) fun _ => E := by
  have hnote : Triple obs G I (fun st x => bgd.status = st ∧ E x) (Op.note (.reconcile bgd))
      (fun _ => Known bgd (R bgd)) fun _ => E := by
    refine note fun s o st hg hi hp => ?_
    obtain ⟨hi', hr⟩ := h.note bgd s o st hg (.of_eq hp.1) hi hp.2
    exact ⟨hi', .of_eq hp.1, hr⟩
  have hE : ∀ st x, I st x → Known bgd (R bgd) st x → E x := fun _ x _ hk => h.known bgd x hk.2
  refine bind hnote fun _ => ?_
  split
  · exact (cleanupDeleted bgd hE).drop
  rename_i hdeleted
  split
  · exact bind patchFinalizers fun _ => bind (work (kube_calls _) hE) fun _ => (skip ()).drop
  rename_i hfinalizer
  dsimp only
  split
  · rename_i hrestart
    exact bind (work (Op.Rewires.cleanupRollout _ _ _).upkeep.work hE) fun _ => h.restart bgd hrestart
  split
  · rename_i _ hforce
    refine bind (returns (work (Op.Asks.forceReplaceBgd ctx bgd _).work hE)
      (forceReplaceBgd_returns ctx bgd _)) fun bgd' s hs => ?_
    obtain ⟨st, ⟨hi, hsame, hk⟩, hst⟩ := hs
    exact h.forceReplace bgd bgd' hsame hforce s ⟨st, ⟨hi, hk.1.same hsame, hk.2⟩, hst⟩
  · rename_i hrestart hforce
    refine bind (rolloutBgd h bgd _) fun bgd' s hs => ?_
    obtain ⟨st, ⟨hi, hsame, hk⟩, hst⟩ := hs
    exact h.arm bgd bgd' hsame (by simpa using hdeleted) (by simpa using hfinalizer)
      (by simpa using hrestart) (by simpa using hforce) s
      ⟨st, ⟨hi, hk.1.same hsame, hk.2⟩, hst⟩

theorem Triple.withLatest {bgd : BlueGreenDeployment} {work : BlueGreenDeployment → Op Unit}
    (h : ∀ latest, Triple obs G I (fun st x => latest.status = st ∧ E x) (work latest)
      (fun _ _ _ => True) fun _ => E) :
    Triple obs G I (fun _ => E) (withLatest bgd work) (fun _ _ _ => True) fun _ => E := by
  refine bind getBgd fun r => ?_
  cases r with
  | ok latest => exact (h latest).pre fun st x _ hp => ⟨hp.2 latest rfl, hp.1⟩
  | error e =>
    cases e with
    | notFound _ => exact (skip ()).drop
    | conflict _ => exact fail _ fun _ _ _ hp => hp.1
    | other _ => exact fail _ fun _ _ _ hp => hp.1

theorem Triple.publishingErrors (h : Parts obs G I ctx R E F) {bgd : BlueGreenDeployment}
    {work : Op Unit} (hw : Triple obs G I (fun _ => E) work (fun _ _ _ => True) fun _ => E) :
    Triple obs G I (fun _ => E) (publishingErrors bgd work) fun _ _ _ => True := by
  refine bind hw.result fun r => ?_
  cases r with
  | ok _ => exact (skip ()).drop
  | error e =>
    have hnote : Triple obs G I (fun _ => E) (Op.note (.reconcileFailed e)) fun _ _ => F :=
      note fun s o st hg hi he => h.failed e s o st hg he hi
    exact bind hnote fun _ => bind (h.publish bgd e) fun _ => fail e

/-- **A whole reconcile keeps the invariant of its parts.** -/
theorem Triple.reconcile (h : Parts obs G I ctx R E F) (bgd : BlueGreenDeployment) :
    Triple obs G I (fun _ _ => True) (reconcile ctx bgd) fun _ _ _ => True := by
  have hcalled : Triple obs G I (fun _ _ => True) (Op.note .called) fun _ _ => E :=
    note fun s o st hg hi _ => h.called s o st hg hi
  refine bind hcalled fun _ => ?_
  split
  · exact publishingErrors h (withLatest fun latest =>
      (cleanupDeleted latest fun _ _ _ hp => hp.2).drop)
  · exact publishingErrors h (withLatest fun latest => reconcileLocked h latest)

/-- **Every run keeps the invariant**, whichever calls fail, wherever a reconcile is cut off, and
whatever the user does in between. -/
theorem Parts.sound (h : Parts obs G I ctx R E F) {w : World} {x : X}
    {s : Conf Call Answer ReconcileError (World × X)} (h0 : On I (w, x))
    (r : Machine.Run obs.machine (FluidBG.reconcile ctx) G ⟨(w, x), none⟩ s) : On I s.world := by
  refine (Machine.Run.sound (K := keeping I) (On.stable I) (fun _ hs => hs) (fun bgd s hs => ?_)
    (Machine.Good.of_idle h0) r).1
  refine (Triple.reconcile h bgd s (hs.mono fun st x hi => ⟨hi, trivial⟩)).mono
    (fun _ _ _ => trivial) fun _ _ _ => trivial

theorem Arms.sound (h : Arms obs G I ctx R E) {w : World} {x : X}
    {s : Conf Call Answer ReconcileError (World × X)} (h0 : On I (w, x))
    (r : Machine.Run obs.machine (FluidBG.reconcile ctx) G ⟨(w, x), none⟩ s) : On I s.world :=
  h.parts.sound h0 r

/-! ## Pending and Observing

What these arms write besides the phase is minor: an assertion that minor patches keep is carried
up to the phase write, and to the note of the decision. -/

/-- A minor patch keeps the assertion. -/
def KeptByMinor (obs : Observer X) (I P : Assertion X) : Prop :=
  ∀ patch : StatusPatch, patch.Minor → ∀ st x, I st x → P st x →
    let st' := some (patch.apply (st.getD .default))
    I st' (obs.write x st st') ∧ P st' (obs.write x st st')

section MinorPatches

variable {F : Assertion X} (h : KeptByMinor obs I P) (hE : ∀ st x, I st x → P st x → F st x)

include h

theorem Triple.minorPatch {patch : StatusPatch} (hp : patch.Minor) (bgd : BlueGreenDeployment)
    (ns : String) : Triple obs G I P (FluidBG.patchStatus bgd ns patch) (fun _ => P) F :=
  patchStatus (fun _ _ _ hp => hp) (h patch hp)

include hE

theorem Triple.ensureGeneratedCandidateName (bgd : BlueGreenDeployment) (ns : String) :
    Triple obs G I P (FluidBG.ensureGeneratedCandidateName bgd ns) (fun _ => P) F := by
  unfold FluidBG.ensureGeneratedCandidateName
  split
  · exact skip _
  · generalize deterministicCandidateSuffixes _ = suffixes
    induction suffixes with
    | nil => exact fail _ hE
    | cons suffix suffixes ih =>
      refine bind (work (Op.Asks.getDeployment _ _).work hE) fun r => ?_
      rcases r with e | d
      · cases e with
        | notFound _ => exact bind (minorPatch h (by trivial) bgd ns) fun _ => skip _
        | conflict _ => exact fail _ hE
        | other _ => exact fail _ hE
      · exact ih

theorem Triple.pendingArm (bgd : BlueGreenDeployment) (ns : String)
    (hphase : ∀ phase, phase = .completed ∨ phase = .observing →
      Triple obs G I P (FluidBG.updateStatusPhase bgd ns phase) (fun _ _ _ => True) F) :
    Triple obs G I P (reconcilePending ctx bgd ns) (fun _ _ _ => True) F := by
  have hgeneration : Triple obs G I P (ensureRolloutGeneration bgd ns) (fun _ => P) F := by
    unfold ensureRolloutGeneration
    split
    · exact skip ()
    · exact minorPatch h (by trivial) bgd ns
  have htraffic : Triple obs G I P (initializeSplitterTraffic ctx bgd ns) (fun _ => P) F := by
    unfold initializeSplitterTraffic
    split
    · exact skip ()
    · exact bind (work (Op.Passive.applySplitterTrafficPercent _ _ _ _).work hE) fun _ =>
        minorPatch h (by trivial) bgd ns
  have hstart : Triple obs G I P (startRollout ctx bgd ns) (fun _ _ _ => True) F := by
    refine bind (work (Op.Work.bootstrapInitialGreenIfEmpty _ _ _) hE) fun created => ?_
    split
    · exact hphase _ (.inl rfl)
    · exact bind (work (Op.Rewires.resolveCurrentGreen _ _).upkeep.work hE) fun _ =>
        bind (work (Op.Asks.validateProgressiveShiftingSupport _).work hE) fun _ =>
          bind (work (Op.Work.ensureInceptionResources _ _ _) hE) fun _ =>
            bind htraffic fun _ => hphase _ (.inr rfl)
  refine bind hgeneration fun _ =>
    bind (work (Op.Work.ensureRolloutSpecSnapshot _ _ _) hE) fun _ =>
      bind (ensureGeneratedCandidateName h hE bgd ns) fun name => ?_
  cases name with
  | none => exact (skip ()).drop
  | some _ => exact hstart

/-- The Observing arm up to the decision. `D` is what is known of a decision once it is noted. -/
theorem Triple.observingArm (bgd : BlueGreenDeployment) (ns stateKey : String)
    {D : Counts → Counts → Assertion X}
    (hdecide : ∀ dataCounts customCounts,
      Triple obs G I P (Op.note (.decide bgd dataCounts customCounts))
        (fun _ => D dataCounts customCounts) F)
    (hD : ∀ dataCounts customCounts st x, I st x → D dataCounts customCounts st x → F st x)
    (haction : ∀ dataCounts customCounts action,
      decidePromotionAction bgd dataCounts customCounts bgd.currentStep = .ok action →
      Triple obs G I (D dataCounts customCounts) (performAction ctx bgd ns action)
        (fun _ _ _ => True) F) :
    Triple obs G I P (reconcileObserving ctx bgd ns stateKey) (fun _ _ _ => True) F := by
  have hstore {c : Call} {α : Type} (f : Answer c → Except StoreError α) (hc : c.Work) {β : Type}
      {k : α → Op β} {Q : β → Assertion X} (hk : ∀ a, Triple obs G I P (k a) Q F) :
      Triple obs G I P ((Op.ask c).bind fun r => (Op.stateStore (f r)).bind k) Q F :=
    bind (work (ask_calls hc) hE) fun r => bind (work (stateStore_calls _) hE) hk
  refine bind (work (lift_calls _) hE) fun _ => ?_
  refine hstore (c := .counts stateKey) id id fun counts => ?_
  refine hstore (c := .countsForMode stateKey .data) id id fun dataCounts => ?_
  refine hstore (c := .countsForMode stateKey .custom) id id fun customCounts => ?_
  refine hstore (c := .latestFailureMessage stateKey) id id fun _ => ?_
  refine bind (minorPatch h (by trivial) bgd ns) fun _ => bind (hdecide dataCounts customCounts)
    fun _ => ?_
  cases hd : decidePromotionAction bgd dataCounts customCounts bgd.currentStep with
  | error e => exact fail e (hD dataCounts customCounts)
  | ok action => exact haction dataCounts customCounts action hd

end MinorPatches

/-! ## Promoting and rolling back

Both end in the same two writes, after the notes that say how the drain was entered. -/

section Entries

variable {N B S F : Assertion X} {bgd : BlueGreenDeployment} {ns : String}

theorem Triple.rollbackArm
    (hbegin : Triple obs G I P (Op.note (.beginDraining .rollback bgd)) (fun _ => B) F)
    (hB : ∀ st x, I st x → B st x → F st x)
    (hstarted : Triple obs G I B (Op.note (.drainStarted .rollback bgd)) (fun _ => S) F)
    (hdrain : Triple obs G I S (startDrain bgd ns) (fun _ _ _ => True) F) :
    Triple obs G I P
      (do
        beginDrainingAfterRollback ctx bgd ns
        startDrain bgd ns) (fun _ _ _ => True) F :=
  bind (bind hbegin fun _ => bind (work (Op.Rewires.startPluginDraining _ _ _ _).upkeep.work hB) fun _ =>
    bind (work (Op.Teardown.deleteDeployment _ _).upkeep.work hB) fun _ => hstarted) fun _ => hdrain

theorem Triple.promotingArm
    (hpromote : Triple obs G I P (Op.note (.promote bgd)) (fun _ => N) F)
    (hN : ∀ st x, I st x → N st x → F st x)
    (hbegin : Triple obs G I N (Op.note (.beginDraining .promotion bgd)) (fun _ => B) F)
    (hB : ∀ st x, I st x → B st x → F st x)
    (hstarted : Triple obs G I B (Op.note (.drainStarted .promotion bgd)) (fun _ => S) F)
    (hdrain : Triple obs G I S (startDrain bgd ns) (fun _ _ _ => True) F) :
    Triple obs G I P (reconcilePromoting ctx bgd ns) (fun _ _ _ => True) F := by
  have hgreen : Triple obs G I P (promote ctx bgd ns) (fun _ => N) F :=
    bind hpromote fun _ => bind (work (Op.Rewires.resolvePreviousGreenForPromotion _ _ _).upkeep.work hN)
      fun _ => bind (work (Op.Work.applyDeploymentManifest _ _ _ _ _ _ _) hN) fun _ =>
        bind (work (Op.Asks.waitForDeploymentsReady _).work hN) fun _ => skip _
  refine bind hgreen fun previousGreen => bind (R := fun _ => S) ?_ fun _ => hdrain
  exact bind hbegin fun _ => bind (work (Op.Rewires.startPluginDraining _ _ _ _).upkeep.work hB) fun _ =>
    bind (work (Op.Rewires.deleteCurrentGreen _ _ _).upkeep.work hB) fun _ => hstarted

end Entries

/-! ## Draining -/

section Draining

variable {F : Assertion X} (h : KeptByMinor obs I P) (hE : ∀ st x, I st x → P st x → F st x)
  {bgd : BlueGreenDeployment} {ns stateKey : String} {D : Counts → Assertion X}
  (hfinalize : ∀ counts,
    Triple obs G I P (Op.note (.finalizeDraining bgd counts)) (fun _ => D counts) F)
  (hD : ∀ counts st x, I st x → D counts st x → F st x)
  (hphase : ∀ counts, Triple obs G I (D counts)
    (FluidBG.updateStatusPhase bgd ns (finalPhase bgd counts.hasFailure)) (fun _ _ _ => True) F)

include h hE hfinalize hD hphase

/-- The end of a drain. `D` is what is known of the counts once its finalization is noted. -/
theorem Triple.concludeArm :
    Triple obs G I P (concludeDraining ctx bgd ns stateKey) (fun _ _ _ => True) F := by
  refine bind (work (ask_calls id) hE) fun _ => bind (work (stateStore_calls _) hE) fun counts => ?_
  refine bind (work (ask_calls id) hE) fun _ => bind (work (stateStore_calls _) hE) fun _ => ?_
  refine bind (minorPatch h (by trivial) bgd ns) fun _ => ?_
  split
  · exact (skip ()).drop
  · refine bind (hfinalize counts) fun _ => ?_
    refine bind (work (.forEach fun _ _ => (Op.Asks.cleanupPlugin _ _ _ _).work) (hD counts))
      fun _ => bind (work (Op.Teardown.cleanupInceptionResources _ _).upkeep.work (hD counts)) fun _ =>
        bind (work (Op.Teardown.cleanupTestResources _ _).upkeep.work (hD counts)) fun _ => hphase counts

/-- The Draining arm for an observer that does not record how the drain is measured. -/
theorem Triple.drainingArm
    (hmeasured : ∀ x w start now, obs.note x w (.drainMeasured bgd start now) = x)
    (hfailed : ∀ x w ip, obs.note x w (.drainStatusFailed bgd ip) = x)
    (hassessed : ∀ x w statuses, obs.note x w (.drainsAssessed bgd statuses) = x) :
    Triple obs G I P (reconcileDraining ctx bgd ns stateKey) (fun _ _ _ => True) F := by
  have hloop (elapsed : Int) : Triple obs G I P
      (Prog.foldEach bgd.spec.inceptionPoints [] (reconcileDrain ctx bgd ns elapsed))
      (fun _ => P) F := by
    refine quiet (.foldEach fun statuses ip _ => ?_) hE
    refine (Op.Asks.reconcileDrain_calls _ _ _ _ _ ip).mono fun c hc => ?_
    exact hc.imp (fun hp => (Call.Asks.passive hp).upkeep.work) fun hn => ⟨_, hn, fun x w => hfailed x w ip⟩
  refine bind (work (Op.Asks.drainStart _).work hE) fun _ => bind now fun _ =>
    bind (noteQuiet (fun x w => hmeasured x w _ _) hE) fun _ => bind (hloop _) fun statuses =>
      bind (noteQuiet (fun x w => hassessed x w _) hE) fun _ =>
        bind (minorPatch h (by trivial) bgd ns) fun _ => ?_
  split
  · exact (skip ()).drop
  · exact concludeArm h hE hfinalize hD hphase

end Draining

end Skeleton

end FluidBG
