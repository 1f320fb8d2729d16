import FluidBG.Proof.Status
/-!
# Observers of the status

Most of what is claimed of whole runs is about two things: the points the code reaches, and how the
status of the object changes. An `Observer` keeps a record `X` of both, and an `Assertion` relates
the status to the record. It holds of a world through the last status the object had, so that
neither a move of the outside nor the removal of the object can break it.

`Triple obs G I P p Q` says that code which starts where `P` holds keeps the invariant `I` after
every call and ends where `Q` holds. The rules follow the shape of the code; those for the status
writers say once what each of them may write.
-/

set_option autoImplicit false

namespace FluidBG

open Lib

/-- A status, where the object has one. -/
abbrev Status := Option BlueGreenDeploymentStatus

/-- A record of the notes and the status writes of a run. -/
structure Observer (X : Type) where
  note : X → World → Note → X
  write : X → Status → Status → X

/-- The phase of a status. -/
def phaseOf (st : Status) : Option BGDPhase := st.bind (·.phase)

/-- A relation between the status and the record. -/
abbrev Assertion (X : Type) := Status → X → Prop

namespace Observer

variable {X : Type}

/-- What one served call adds to the record. -/
def see (obs : Observer X) (x : X) (w : World) (c : Call) (_ : Answer c) (w' : World) : X :=
  match c with
  | .note n => obs.note x w n
  | .replaceStatus _ _ _ => written w w'
  | .patchStatus _ _ _ => written w w'
  | _ => x
where
  written (w w' : World) : X :=
    match w.bgd, w'.bgd with
    | some b, some b' => if w'.nextVersion = w.nextVersion then x else obs.write x b.status b'.status
    | _, _ => x

/-- The cluster with the observer. -/
abbrev machine (obs : Observer X) : Machine Call Answer (World × X) Outcome Move :=
  cluster.observed obs.see id

/-- The outside of the operator with the observer, in runs that meet the guard. -/
abbrev outside (obs : Observer X) (G : Guard Call (World × X) Outcome Move) :
    Outside Call Answer (World × X) :=
  (machine obs).outside G

end Observer

/-- The note a call makes. -/
def Call.noted : Call → Option Note
  | .note n => some n
  | _ => none

/-- The guard that allows a note where `p` holds, and anything else. -/
def notesGuard {X : Type} (p : World × X → Note → Prop) : Guard Call (World × X) Outcome Move where
  call s c _ := ∀ n ∈ c.noted, p s n
  move _ _ := True

section Decidable

variable {X : Type} (p : World × X → Note → Prop) [∀ s n, Decidable (p s n)]

instance (s : World × X) (c : Call) (o : Outcome) : Decidable ((notesGuard p).call s c o) :=
  inferInstanceAs (Decidable (∀ n ∈ c.noted, p s n))

instance (s : World × X) (v : Move) : Decidable ((notesGuard p).move s v) := .isTrue trivial

end Decidable

/-- `P` holds of the record and of the last status the object had. -/
def On {X : Type} (P : Assertion X) (s : World × X) : Prop :=
  ∃ st, P st s.2 ∧ s.1.StatusIs st

theorem On.mono {X : Type} {P Q : Assertion X} {s : World × X} (h : On P s)
    (hPQ : ∀ st x, P st x → Q st x) : On Q s := by
  obtain ⟨st, hp, hst⟩ := h
  exact ⟨st, hPQ st s.2 hp, hst⟩

section Rules

variable {X : Type} {obs : Observer X} {G : Guard Call (World × X) Outcome Move}

theorem Observer.answers {s s' : World × X} {c : Call} {a : Answer c}
    (h : (obs.outside G).answers s c a s') :
    ∃ o, G.call s c o ∧ s.1.serve c o = some (a, s'.1) ∧ s'.2 = obs.see s.2 s.1 c a s'.1 := by
  obtain ⟨o, hg, hserve⟩ := h
  obtain ⟨hs, hx⟩ := Machine.observed_serve hserve
  exact ⟨o, hg, hs, hx⟩

theorem Observer.see_work (x : X) (w : World) {c : Call} (a : Answer c) (w' : World)
    (hc : c.Work) : obs.see x w c a w' = x := by
  cases c with
  | replaceStatus _ _ _ => exact absurd trivial hc
  | patchStatus _ _ _ => exact absurd trivial hc
  | note _ => exact absurd trivial hc
  | _ => rfl

/-- **An assertion about the status and the record survives what happens outside.** -/
theorem On.stable (P : Assertion X) : (obs.outside G).Stable (On P) := by
  rintro s s' ⟨st, hp, hst⟩ ⟨v, -, hmove⟩
  obtain ⟨hm, hx⟩ := Machine.observed_move hmove
  exact ⟨st, hx ▸ hp, hst.move hm⟩

/-- The contract of an invariant of the status and the record. -/
abbrev keeping (I : Assertion X) : Contract Call (World × X) :=
  ⟨On I, fun _ _ => True⟩

/-- Code that starts in `P` keeps `I`, and ends in `Q` or, with an error, in `E`. -/
def Triple (obs : Observer X) (G : Guard Call (World × X) Outcome Move) (I P : Assertion X)
    {α : Type} (p : Op α) (Q : α → Assertion X) (E : Assertion X := fun _ _ => True) : Prop :=
  ∀ s, On (fun st x => I st x ∧ P st x) s →
    (obs.outside G).Spec (keeping I) (fun a => On fun st x => I st x ∧ Q a st x)
      (fun _ => On fun st x => I st x ∧ E st x) p s

namespace Triple

variable {I P P' E E' : Assertion X} {α β : Type}

/-! ## Rules for control flow -/

theorem pure {Q : α → Assertion X} (a : α) : Triple obs G I (Q a) (.pure a) Q E :=
  fun _ h => h

theorem skip (a : α) : Triple obs G I P (.pure a) (fun _ => P) E :=
  fun _ h => h

theorem fail {Q : α → Assertion X} (e : ReconcileError)
    (h : ∀ st x, I st x → P st x → E st x := by exact fun _ _ _ _ => trivial) :
    Triple obs G I P (.fail e) Q E := by
  intro s hs
  rw [Outside.Spec.fail_iff]
  exact hs.mono fun st x hp => ⟨hp.1, h st x hp.1 hp.2⟩

theorem bind {p : Op α} {f : α → Op β} {R : α → Assertion X} {Q : β → Assertion X}
    (hp : Triple obs G I P p R E) (hf : ∀ a, Triple obs G I (R a) (f a) Q E) :
    Triple obs G I P (p.bind f) Q E :=
  fun s h => (hp s h).bind fun a s' h' => hf a s' h'

/-- The rule of consequence. -/
theorem conseq {p : Op α} {Q Q' : α → Assertion X} (h : Triple obs G I P p Q E)
    (hP : ∀ st x, I st x → P' st x → P st x) (hQ : ∀ a st x, I st x → Q a st x → Q' a st x)
    (hE : ∀ st x, I st x → E st x → E' st x) : Triple obs G I P' p Q' E' := by
  intro s hs
  refine (h s (hs.mono fun st x hp => ⟨hp.1, hP st x hp.1 hp.2⟩)).mono (fun a s' ha => ?_)
    fun e s' he => ?_
  · exact ha.mono fun st x hq => ⟨hq.1, hQ a st x hq.1 hq.2⟩
  · exact he.mono fun st x hq => ⟨hq.1, hE st x hq.1 hq.2⟩

theorem pre {p : Op α} {Q : α → Assertion X} (h : Triple obs G I P p Q E)
    (hP : ∀ st x, I st x → P' st x → P st x) : Triple obs G I P' p Q E :=
  h.conseq hP (fun _ _ _ _ hq => hq) fun _ _ _ he => he

theorem post {p : Op α} {Q Q' : α → Assertion X} (h : Triple obs G I P p Q E)
    (hQ : ∀ a st x, I st x → Q a st x → Q' a st x) : Triple obs G I P p Q' E :=
  h.conseq (fun _ _ _ hp => hp) hQ fun _ _ _ he => he

/-- Nothing has to be known at the end. -/
theorem drop {p : Op α} {Q : α → Assertion X} (h : Triple obs G I P p Q E) :
    Triple obs G I P p (fun _ _ _ => True) E :=
  h.post fun _ _ _ _ _ => trivial

/-- Both outcomes of a caught error are known. -/
theorem result {p : Op α} {Q : α → Assertion X} (h : Triple obs G I P p Q E) :
    Triple obs G I P (p.result : Op (Except ReconcileError α))
      (fun r st x => match r with
        | .ok a => Q a st x
        | .error _ => E st x) E' :=
  fun s hs => .result ((h s hs).mono (fun _ _ ha => ha) fun _ _ he => he)

theorem forEach {γ : Type} {xs : List γ} {body : γ → Op Unit}
    (h : ∀ y ∈ xs, Triple obs G I P (body y) (fun _ => P) E) :
    Triple obs G I P (Prog.forEach xs body) (fun _ => P) E :=
  fun _ hs => Outside.Spec.forEach hs fun y hy s' hs' => h y hy s' hs'

theorem foldEach {γ : Type} {xs : List γ} {acc : β} {body : β → γ → Op β}
    (h : ∀ b, ∀ y ∈ xs, Triple obs G I P (body b y) (fun _ => P) E) :
    Triple obs G I P (Prog.foldEach xs acc body) (fun _ => P) E :=
  fun _ hs => Outside.Spec.foldEach hs fun y hy b s' hs' => h b y hy s' hs'

/-! ## Rules for calls -/

/-- The call leaves the object alone, or marks a point that the observer does not record. -/
def Quiet (obs : Observer X) (c : Call) : Prop :=
  c.Work ∨ ∃ n, c = .note n ∧ ∀ x w, obs.note x w n = x

theorem see_quiet {x : X} {w w' : World} {c : Call} {a : Answer c} (hc : Quiet obs c) :
    obs.see x w c a w' = x := by
  rcases hc with hwork | ⟨n, rfl, hn⟩
  · exact Observer.see_work x w a w' hwork
  · exact hn x w

theorem serve_quiet {w w' : World} {c : Call} {o : Outcome} {a : Answer c} (hc : Quiet obs c)
    (h : w.serve c o = some (a, w')) : w'.bgd = w.bgd := by
  rcases hc with hwork | ⟨n, rfl, -⟩
  · exact World.serve_work hwork h
  · rw [World.serve_note h]

/-- **Code that leaves the object alone and marks nothing keeps every assertion.** -/
theorem quiet {p : Op α} (hp : p.Calls (Quiet obs))
    (hE : ∀ st x, I st x → P st x → E st x := by exact fun _ _ _ _ => trivial) :
    Triple obs G I P p (fun _ => P) E := by
  intro s hs
  refine (Outside.Spec.of_calls hp (On.stable _) hs (hs.mono fun _ _ => And.left)
    (fun _ _ _ _ _ => trivial) ?_).mono (fun _ _ h => h.1)
    fun _ _ h => h.1.mono fun st x hp => ⟨hp.1, hE st x hp.1 hp.2⟩
  intro s c a s' hc _ hs ha
  obtain ⟨o, -, hserve, hx⟩ := Observer.answers ha
  have hx' : s'.2 = s.2 := hx.trans (see_quiet hc)
  obtain ⟨st, hp, hst⟩ := hs
  have hst' : s'.1.StatusIs st := hst.of_bgd_eq (serve_quiet hc hserve)
  exact ⟨⟨st, hx' ▸ hp.1, hst'⟩, ⟨st, hx' ▸ hp, hst'⟩⟩

theorem work {p : Op α} (hp : Op.Work p)
    (hE : ∀ st x, I st x → P st x → E st x := by exact fun _ _ _ _ => trivial) :
    Triple obs G I P p (fun _ => P) E :=
  quiet (hp.mono fun _ h => .inl h) hE

/-- Reading the clock. -/
theorem now : Triple obs G I P (Op.ask .now) (fun _ => P) E := by
  intro s hs
  refine Outside.Spec.ask trivial fun a s' ha => ?_
  have hkeep : On (fun st x => I st x ∧ P st x) s' := by
    obtain ⟨o, -, hserve, hx⟩ := Observer.answers ha
    obtain ⟨st, hp, hst⟩ := hs
    have hx' : s'.2 = s.2 := hx
    exact ⟨st, hx' ▸ hp, hst.of_bgd_eq (World.serve_work (c := .now) id hserve)⟩
  exact ⟨hkeep.mono fun _ _ => And.left, fun s'' hl _ => (On.stable _).later hkeep hl⟩

/-- What the code returns is known where it ends. -/
theorem returns {p : Op α} {V : α → Prop} {Q : α → Assertion X} (h : Triple obs G I P p Q E)
    (hv : p.Returns V) : Triple obs G I P p (fun a st x => V a ∧ Q a st x) E := by
  intro s hs
  refine ((h s hs).returns hv).mono (fun a s' ha => ?_) fun _ _ he => he
  exact ha.2.mono fun st x hq => ⟨hq.1, ha.1, hq.2⟩

/-- One call, with what its answer says. -/
theorem ask {c : Call} {Q : Answer c → Assertion X}
    (h : ∀ s o a w' st, G.call s c o → s.1.serve c o = some (a, w') → s.1.StatusIs st →
      I st s.2 → P st s.2 → ∃ st', w'.StatusIs st' ∧
        I st' (obs.see s.2 s.1 c a w') ∧ Q a st' (obs.see s.2 s.1 c a w')) :
    Triple obs G I P (Op.ask c) Q E := by
  intro s hs
  refine Outside.Spec.ask trivial fun a s' ha => ?_
  obtain ⟨o, hg, hserve, hx⟩ := Observer.answers ha
  obtain ⟨st, hp, hst⟩ := hs
  obtain ⟨st', hst', hq⟩ := h s o a s'.1 st hg hserve hst hp.1 hp.2
  rw [← hx] at hq
  refine ⟨⟨st', hq.1, hst'⟩, fun s'' hl _ => ?_⟩
  exact (On.stable fun st x => I st x ∧ Q a st x).later ⟨st', hq, hst'⟩ hl

/-- A note is recorded; the guard may say something about it. -/
theorem note {n : Note} {Q : Assertion X}
    (h : ∀ s o st, G.call s (.note n) o → I st s.2 → P st s.2 →
      I st (obs.note s.2 s.1 n) ∧ Q st (obs.note s.2 s.1 n)) :
    Triple obs G I P (Op.note n) (fun _ => Q) E := by
  refine ask (c := .note n) (Q := fun _ => Q) fun s o a w' st hg hserve hst hi hp => ?_
  rw [World.serve_note hserve]
  exact ⟨st, hst, h s o st hg hi hp⟩

/-- A note that the observer does not record. -/
theorem noteQuiet {n : Note} (h : ∀ x w, obs.note x w n = x)
    (hE : ∀ st x, I st x → P st x → E st x := by exact fun _ _ _ _ => trivial) :
    Triple obs G I P (Op.note n) (fun _ => P) E :=
  quiet (ask_calls (c := .note n) (.inr ⟨n, rfl, h⟩)) hE

/-- The object that is read has the status that is known. -/
theorem getBgd {ns name : String} :
    Triple obs G I P (Op.ask (.getBgd ns name)) (fun r st x =>
      P st x ∧ ∀ b, r = .ok b → b.status = st) E := by
  refine ask fun s o a w' st _ hserve hst hi hp => ?_
  obtain ⟨rfl, hread⟩ := World.serve_getBgd hserve
  exact ⟨st, hst, hi, hp, fun b hb => hst b (hread b hb).1⟩

/-- A call that writes the status either leaves the world as it is, or makes the status `st` into
`f st` and is recorded. -/
theorem statusWrite {c : Call} {Q : Assertion X} {f : Status → Status}
    (hsee : ∀ x w a w', obs.see x w c a w' = Observer.see.written obs x w w')
    (hserve : ∀ {w w' : World} {o : Outcome} {a : Answer c}, w.serve c o = some (a, w') →
      w' = w ∨ ∃ b b', w.bgd = some b ∧ b'.status = f b.status ∧ w' = w.writeBgd b')
    (hkeep : ∀ st x, I st x → P st x → Q st x)
    (hwrite : ∀ st x, I st x → P st x →
      I (f st) (obs.write x st (f st)) ∧ Q (f st) (obs.write x st (f st))) :
    Triple obs G I P (Op.ask c) (fun _ => Q) E := by
  refine ask fun s o a w' st _ hs hst hi hp => ?_
  rw [hsee]
  rcases hserve hs with rfl | ⟨b, b', hb, hb', rfl⟩
  · refine ⟨st, hst, ?_⟩
    have hx : Observer.see.written obs s.2 s.1 s.1 = s.2 := by
      unfold Observer.see.written
      split
      · exact if_pos rfl
      · rfl
    rw [hx]
    exact ⟨hi, hkeep _ _ hi hp⟩
  · have hx : Observer.see.written obs s.2 s.1 (s.1.writeBgd b') = obs.write s.2 st (f st) := by
      simp [Observer.see.written, World.writeBgd, hb, hb', hst b hb]
    rw [hx]
    refine ⟨f st, fun b'' hb'' => ?_, hwrite st s.2 hi hp⟩
    cases hb''
    rw [← hst b hb]
    exact hb'

theorem replaceStatus {ns name : String} {b : BlueGreenDeployment} {Q : Assertion X}
    (hkeep : ∀ st x, I st x → P st x → Q st x)
    (hwrite : ∀ st x, I st x → P st x →
      I b.status (obs.write x st b.status) ∧ Q b.status (obs.write x st b.status)) :
    Triple obs G I P (Op.ask (.replaceStatus ns name b)) (fun _ => Q) E :=
  statusWrite (f := fun _ => b.status) (fun _ _ _ _ => rfl) (fun h => by
    rcases World.serve_replaceStatus h with hw | ⟨stored, hb, -, hw⟩
    · exact .inl hw
    · exact .inr ⟨stored, { stored with status := b.status }, hb, rfl, hw⟩) hkeep hwrite

theorem patchStatus {bgd : BlueGreenDeployment} {ns : String} {patch : StatusPatch}
    {Q : Assertion X} (hkeep : ∀ st x, I st x → P st x → Q st x)
    (hwrite : ∀ st x, I st x → P st x →
      I (some (patch.apply (st.getD .default)))
        (obs.write x st (some (patch.apply (st.getD .default)))) ∧
      Q (some (patch.apply (st.getD .default)))
        (obs.write x st (some (patch.apply (st.getD .default))))) :
    Triple obs G I P (FluidBG.patchStatus bgd ns patch) (fun _ => Q) E :=
  bind (R := fun _ => Q)
    (statusWrite (f := fun st => some (patch.apply (st.getD .default))) (fun _ _ _ _ => rfl)
      (fun h => by
        rcases World.serve_patchStatus h with hw | ⟨stored, hb, hw⟩
        · exact .inl hw
        · exact .inr ⟨stored, _, hb, rfl, hw⟩) hkeep hwrite)
    fun _ => skip ()

theorem patchFinalizers {ns name : String} {finalizers : List String} :
    Triple obs G I P (Op.ask (.patchFinalizers ns name finalizers)) (fun _ => P) E := by
  refine ask fun s o a w' st _ hserve hst hi hp => ⟨st, ?_, hi, hp⟩
  rcases World.serve_patchFinalizers hserve with rfl | rfl | ⟨stored, hb, rfl⟩
  · exact hst
  · exact fun b hb => by simp at hb
  · intro b hb'
    cases hb'
    exact hst stored hb

/-! ## Rules for the status writers -/

/-- The status of a phase write. -/
def phased (st : Status) (phase : BGDPhase) (generation : Int)
    (conditions : List BlueGreenDeploymentCondition) : BlueGreenDeploymentStatus :=
  { st.getD .default with
    phase := some phase
    observedGeneration := some generation
    conditions := conditions }

theorem phaseOf_phased (st : Status) (phase : BGDPhase) (generation : Int)
    (conditions : List BlueGreenDeploymentCondition) :
    phaseOf (some (phased st phase generation conditions)) = some phase := rfl

/-- The phase write: silently nothing, or the phase with the generation of the rollout and its
conditions, and the latter only where the guard lets it through. -/
theorem updateStatusPhaseAt {bgd : BlueGreenDeployment} {ns : String} {phase : BGDPhase}
    {Q : Assertion X} (hkeep : ∀ st x, I st x → P st x → Q st x)
    (hwrite : ∀ st x now, I st x → P st x →
      phaseTransitionIsCurrent (st.bind (·.phase)) ((st.bind (·.observedGeneration)).getD 0) phase
        (currentRolloutGeneration bgd) = true →
      let st' := some (phased st phase (currentRolloutGeneration bgd)
        (conditionsForPhase phase (currentRolloutGeneration bgd) now))
      I st' (obs.write x st st') ∧ Q st' (obs.write x st st')) :
    Triple obs G I P (FluidBG.updateStatusPhase bgd ns phase) (fun _ => Q) E := by
  refine bind getBgd fun r => ?_
  cases r with
  | error e => exact (skip ()).pre fun st x hi hp => hkeep st x hi hp.1
  | ok latest =>
    dsimp only
    split
    · rename_i hguard
      refine bind now fun now => bind (R := fun _ => Q) ?_ fun _ => skip ()
      refine replaceStatus (fun st x hi hp => hkeep st x hi hp.1) fun st x hi hp => ?_
      have hst : latest.status = st := hp.2 latest rfl
      have hw := hwrite st x now hi hp.1 (by rw [← hst]; exact hguard)
      simpa only [withPhase, phased, hst] using hw
    · exact (skip ()).pre fun st x hi hp => hkeep st x hi hp.1

/-- The phase write, for a property that does not look at the conditions. -/
theorem updateStatusPhase {bgd : BlueGreenDeployment} {ns : String} {phase : BGDPhase}
    {Q : Assertion X} (hkeep : ∀ st x, I st x → P st x → Q st x)
    (hwrite : ∀ st x conditions, I st x → P st x →
      phaseTransitionIsCurrent (st.bind (·.phase)) ((st.bind (·.observedGeneration)).getD 0) phase
        (currentRolloutGeneration bgd) = true →
      let st' := some (phased st phase (currentRolloutGeneration bgd) conditions)
      I st' (obs.write x st st') ∧ Q st' (obs.write x st st')) :
    Triple obs G I P (FluidBG.updateStatusPhase bgd ns phase) (fun _ => Q) E :=
  updateStatusPhaseAt hkeep fun st x _ hi hp hguard => hwrite st x _ hi hp hguard

/-- Replacing the conditions of the object that has been read. -/
theorem withConditionsAt {ns name : String} {latest : BlueGreenDeployment} {Q : Assertion X}
    {f : List BlueGreenDeploymentCondition → List BlueGreenDeploymentCondition}
    (hkeep : ∀ st x, I st x → P st x → Q st x)
    (hwrite : ∀ st x, I st x → P st x →
      let st' := some { st.getD .default with conditions := f (st.getD .default).conditions }
      I st' (obs.write x st st') ∧ Q st' (obs.write x st st')) :
    Triple obs G I (fun st x => P st x ∧ latest.status = st)
      (Op.ask (.replaceStatus ns name (FluidBG.withConditions latest f))) (fun _ => Q) E := by
  refine replaceStatus (fun st x hi hp => hkeep st x hi hp.1) fun st x hi hp => ?_
  have hw := hwrite st x hi hp.1
  simpa only [FluidBG.withConditions, hp.2] using hw

theorem withConditions {ns name : String} {latest : BlueGreenDeployment} {Q : Assertion X}
    {f : List BlueGreenDeploymentCondition → List BlueGreenDeploymentCondition}
    (hkeep : ∀ st x, I st x → P st x → Q st x)
    (hwrite : ∀ st x conditions, I st x → P st x →
      let st' := some { st.getD .default with conditions := conditions }
      I st' (obs.write x st st') ∧ Q st' (obs.write x st st')) :
    Triple obs G I (fun st x => P st x ∧ latest.status = st)
      (Op.ask (.replaceStatus ns name (FluidBG.withConditions latest f))) (fun _ => Q) E :=
  withConditionsAt hkeep fun st x hi hp => hwrite st x _ hi hp

end Triple

end Rules

end FluidBG
