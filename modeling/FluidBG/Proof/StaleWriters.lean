import FluidBG.Sample
import FluidBG.Lib.Pool
import FluidBG.Proof.Status
import Mathlib.Order.WithBot
import Mathlib.Data.Prod.Lex
/-!
# Stale writers of the phase

A phase write reads the object, checks its guard on the copy and replaces the status at the version
of the copy. Versions are given out once, so where the replacement succeeds the copy is still what
is stored, and the guard has been checked on the stored object. The two merge patches check nothing;
they keep the order of the phases as long as the guard would have let them pass.
-/

set_option autoImplicit false

namespace FluidBG

open Lib

/-! ## The order of the phases -/

namespace BlueGreenDeployment

/-- The generation whose phase is recorded, as the guard reads it. -/
def phaseGeneration (b : BlueGreenDeployment) : Int := b.observedGeneration.getD 0

/-- The recorded generation and the rank of its phase, below all ranks before the first phase. -/
def standing (b : BlueGreenDeployment) : Int ×ₗ WithBot Nat :=
  toLex (b.phaseGeneration, b.phase.elim ⊥ fun phase => WithBot.some phase.rank)

/-- What may be recorded after what is recorded in `b`. -/
structure Advances (b b' : BlueGreenDeployment) : Prop where
  standing : b.standing ≤ b'.standing
  /-- A terminal phase is the last one of its generation. -/
  terminal : ∀ phase, b.phase = some phase → phase.IsTerminal →
    b'.phaseGeneration = b.phaseGeneration → b'.phase = b.phase

variable {b b' b'' : BlueGreenDeployment}

theorem standing_le_iff : b.standing ≤ b'.standing ↔ b.phaseGeneration < b'.phaseGeneration ∨
    b.phaseGeneration = b'.phaseGeneration ∧
      (b.phase.elim ⊥ fun phase => WithBot.some phase.rank) ≤
        b'.phase.elim ⊥ fun phase => WithBot.some phase.rank :=
  Prod.Lex.toLex_le_toLex

theorem phaseGeneration_le (h : b.standing ≤ b'.standing) :
    b.phaseGeneration ≤ b'.phaseGeneration := by
  rcases standing_le_iff.mp h with hlt | ⟨heq, -⟩
  · exact Int.le_of_lt hlt
  · exact le_of_eq heq

theorem Advances.of_recorded (hphase : b'.phase = b.phase)
    (hgeneration : b'.observedGeneration = b.observedGeneration) : b.Advances b' := by
  have hsame : b'.phaseGeneration = b.phaseGeneration := by
    unfold phaseGeneration
    rw [hgeneration]
  refine ⟨le_of_eq ?_, fun _ _ _ _ => hphase⟩
  unfold BlueGreenDeployment.standing
  rw [hsame, hphase]

theorem Advances.of_status (h : b'.status = b.status) : b.Advances b' := by
  refine .of_recorded ?_ ?_
  · unfold BlueGreenDeployment.phase; rw [h]
  · unfold observedGeneration; rw [h]

theorem Advances.trans (h : b.Advances b') (h' : b'.Advances b'') : b.Advances b'' := by
  refine ⟨h.standing.trans h'.standing, fun phase hphase hterminal hgeneration => ?_⟩
  -- the generation goes up, so it has not moved in between either
  have hmiddle : b'.phaseGeneration = b.phaseGeneration := by
    have hup := phaseGeneration_le h.standing
    have hup' := phaseGeneration_le h'.standing
    omega
  have hkept := h.terminal phase hphase hterminal hmiddle
  rw [← hkept]
  exact h'.terminal phase (hkept.trans hphase) hterminal (hgeneration.trans hmiddle.symm)

end BlueGreenDeployment

/-- **The guard of a phase write is the order of the phases.** -/
theorem phaseUpdateIsCurrent_iff {b b' : BlueGreenDeployment} {phase : BGDPhase}
    (hphase : b'.phase = some phase) :
    phaseUpdateIsCurrent b phase b'.phaseGeneration = true ↔ b.Advances b' := by
  unfold phaseUpdateIsCurrent phaseTransitionIsCurrent
  change (if b.phaseGeneration > b'.phaseGeneration then _ else _) = _ ↔ _
  by_cases hbelow : b.phaseGeneration > b'.phaseGeneration
  · rw [if_pos hbelow]
    refine ⟨fun h => (by cases h), fun h => ?_⟩
    have hup := BlueGreenDeployment.phaseGeneration_le h.standing
    omega
  rw [if_neg hbelow]
  change (if b.phaseGeneration < b'.phaseGeneration then _ else _) = _ ↔ _
  by_cases habove : b.phaseGeneration < b'.phaseGeneration
  · rw [if_pos habove]
    refine ⟨fun _ => ⟨?_, fun _ _ _ hsame => ?_⟩, fun _ => rfl⟩
    · exact BlueGreenDeployment.standing_le_iff.mpr (.inl habove)
    · omega
  rw [if_neg habove]
  have hsame : b.phaseGeneration = b'.phaseGeneration := by omega
  cases hlatest : b.phase with
  | none =>
    refine ⟨fun _ => ⟨?_, fun _ h => ?_⟩, fun _ => rfl⟩
    · refine BlueGreenDeployment.standing_le_iff.mpr (.inr ⟨hsame, ?_⟩)
      rw [hlatest]
      exact bot_le
    · rw [hlatest] at h
      cases h
  | some latest =>
    have hrank : b.standing ≤ b'.standing ↔ latest.rank ≤ phase.rank := by
      rw [BlueGreenDeployment.standing_le_iff, hlatest, hphase]
      simp [hsame]
    dsimp only
    by_cases heq : latest = phase
    · rw [if_pos heq]
      exact ⟨fun _ => ⟨hrank.mpr (by rw [heq]), fun _ _ _ _ => by rw [hphase, hlatest, heq]⟩,
        fun _ => rfl⟩
    rw [if_neg heq]
    by_cases hterminal : latest.IsTerminal
    · rw [if_pos hterminal]
      refine ⟨fun h => (by cases h), fun h => ?_⟩
      have hkept := h.terminal latest hlatest hterminal hsame.symm
      rw [hphase, hlatest] at hkept
      exact absurd (Option.some.inj hkept).symm heq
    · rw [if_neg hterminal]
      refine ⟨fun h => ⟨hrank.mpr (by simpa using h), fun _ h hterm => ?_⟩, fun h => ?_⟩
      · rw [hlatest] at h
        cases h
        exact absurd hterm hterminal
      · simpa using hrank.mp h.standing

/-- What is stored in `w'` may come after what is stored in `w`. -/
def World.Advances (w w' : World) : Prop :=
  ∀ b', w'.bgd = some b' → ∃ b, w.bgd = some b ∧ b.Advances b'

theorem World.Advances.of_bgd_eq {w w' : World} (h : w'.bgd = w.bgd) : w.Advances w' :=
  fun b' hb' => ⟨b', h ▸ hb', .of_status rfl⟩

theorem World.Advances.trans {w w' w'' : World} (h : w.Advances w') (h' : w'.Advances w'') :
    w.Advances w'' := by
  intro b'' hb''
  obtain ⟨b', hb', hadv'⟩ := h' b'' hb''
  obtain ⟨b, hb, hadv⟩ := h b' hb'
  exact ⟨b, hb, hadv.trans hadv'⟩

/-! ## Versions -/

/-- The object has a version that has been given out. -/
def World.Versioned (w : World) : Prop :=
  ∀ b, w.bgd = some b → b.metadata.resourceVersion < w.nextVersion

/-- The object is left alone, or gets a version that was not given out before. -/
def World.Renews (w w' : World) : Prop :=
  w.nextVersion ≤ w'.nextVersion ∧ ∀ b', w'.bgd = some b' → w.bgd = some b' ∨
    w.nextVersion ≤ b'.metadata.resourceVersion ∧ b'.metadata.resourceVersion < w'.nextVersion

/-- `latest` was read: the stored object, as long as it has that version, is `latest`. -/
def World.Known (latest : BlueGreenDeployment) (w : World) : Prop :=
  latest.metadata.resourceVersion < w.nextVersion ∧ ∀ b, w.bgd = some b →
    b.metadata.resourceVersion = latest.metadata.resourceVersion → b = latest

namespace World

variable {w w' : World} {latest : BlueGreenDeployment}

theorem Renews.refl : w.Renews w := ⟨le_refl _, fun _ h => .inl h⟩

theorem Renews.of_bgd_eq (h : w'.bgd = w.bgd) (hv : w.nextVersion ≤ w'.nextVersion) :
    w.Renews w' :=
  ⟨hv, fun _ hb => .inl (h ▸ hb)⟩

theorem Renews.write (b : BlueGreenDeployment) : w.Renews (w.writeBgd b) := by
  refine ⟨Nat.le_succ _, fun b' hb' => .inr ?_⟩
  cases hb'
  exact ⟨le_refl _, Nat.lt_succ_self _⟩

theorem Renews.remove : w.Renews { w with bgd := none } :=
  ⟨le_refl _, fun _ h => by cases h⟩

theorem Renews.versioned (h : w.Renews w') (hw : w.Versioned) : w'.Versioned := by
  intro b' hb'
  rcases h.2 b' hb' with hsame | ⟨-, hnew⟩
  · exact lt_of_lt_of_le (hw b' hsame) h.1
  · exact hnew

theorem Renews.known (h : w.Renews w') (hw : w.Known latest) : w'.Known latest := by
  refine ⟨lt_of_lt_of_le hw.1 h.1, fun b' hb' hversion => ?_⟩
  rcases h.2 b' hb' with hsame | ⟨hnew, -⟩
  · exact hw.2 b' hsame hversion
  · have hold := hw.1
    omega

theorem known_of_read (hw : w.Versioned) (h : w.bgd = some latest) : w.Known latest := by
  refine ⟨hw latest h, fun b hb _ => ?_⟩
  rw [h] at hb
  exact (Option.some.inj hb).symm

/-- Every write of an object takes the next version. -/
theorem serve_nextVersion {c : Call} {o : Outcome} {a : Answer c}
    (h : w.serve c o = some (a, w')) : w.nextVersion ≤ w'.nextVersion := by
  cases c with
  | replaceStatus ns name b =>
    rcases serve_replaceStatus h with rfl | ⟨stored, -, -, rfl⟩
    exacts [le_refl _, Nat.le_succ _]
  | patchStatus ns name patch =>
    rcases serve_patchStatus h with rfl | ⟨stored, -, rfl⟩
    exacts [le_refl _, Nat.le_succ _]
  | patchFinalizers ns name finalizers =>
    rcases serve_patchFinalizers h with rfl | rfl | ⟨stored, -, rfl⟩
    exacts [le_refl _, le_refl _, Nat.le_succ _]
  | createDeployment ns d =>
    rcases respond_world h with rfl | rfl
    · exact le_refl _
    · unfold World.createDeployment
      split
      exacts [le_refl _, Nat.le_succ _]
  | replaceDeployment ns name d =>
    rcases respond_world h with rfl | rfl
    · exact le_refl _
    · unfold World.replaceDeployment
      split
      · exact le_refl _
      · split
        exacts [Nat.le_succ _, le_refl _]
  | applyDeployment ns name d =>
    rcases respond_world h with rfl | rfl
    · exact le_refl _
    · unfold World.applyDeployment
      split <;> exact Nat.le_succ _
  | deleteDeployment ns name =>
    rcases respond_world h with rfl | rfl
    · exact le_refl _
    · unfold World.deleteDeployment
      split <;> exact le_refl _
  | applyResource kind ns name r =>
    rcases respond_world h with rfl | rfl
    · exact le_refl _
    · unfold World.applyResource
      dsimp only
      split <;> exact le_refl _
  | deleteResource kind ns name =>
    rcases respond_world h with rfl | rfl
    · exact le_refl _
    · unfold World.deleteResource
      split <;> exact le_refl _
  | cleanupBlueGreen _ | counts _ | countsForMode _ _ | latestFailureMessage _ | register _
    | getCase _ _ =>
    rcases respondStore_world h with rfl | rfl <;> exact le_refl _
  | listBlueGreenRefs | listPending => rcases respondStore_world h with rfl | rfl <;> exact le_refl _
  | setVerdict _ _ _ _ | markTimedOut _ _ | decrementRetries _ _ =>
    rcases respondStore_world h with rfl | rfl
    · exact le_refl _
    · unfold World.storeResult
      split <;> exact le_refl _
  | pollVerifier _ _ | controlPlaneClient _ | postManager _ _ _ | postManagerSync _ _ _
    | postInceptor _ _ | getDrainStatus _ _ | postTraffic _ _ _ | sleep _ =>
    cases o <;> simp [World.serve] at h
    all_goals simp [h]
  | note n => rw [serve_note h]
  | now =>
    cases o <;> simp [World.serve] at h
    simp [h]
  | _ => rcases respond_world h with rfl | rfl <;> exact le_refl _

theorem serve_renews {c : Call} {o : Outcome} {a : Answer c} (h : w.serve c o = some (a, w')) :
    w.Renews w' := by
  cases c with
  | replaceStatus ns name b =>
    rcases serve_replaceStatus h with rfl | ⟨stored, -, -, rfl⟩
    exacts [.refl, .write _]
  | patchStatus ns name patch =>
    rcases serve_patchStatus h with rfl | ⟨stored, -, rfl⟩
    exacts [.refl, .write _]
  | patchFinalizers ns name finalizers =>
    rcases serve_patchFinalizers h with rfl | rfl | ⟨stored, -, rfl⟩
    exacts [.refl, .remove, .write _]
  | note n => rw [serve_note h]; exact .refl
  | _ =>
    refine .of_bgd_eq (serve_work ?_ h) (serve_nextVersion h)
    exact fun hc => hc

theorem move_renews {v : Move} (h : w.move v = some w') : w.Renews w' := by
  cases v with
  | editSpec spec =>
    obtain ⟨b, -, rfl⟩ := Option.map_eq_some_iff.mp h
    exact .write _
  | delete =>
    obtain ⟨b, -, rfl⟩ := Option.map_eq_some_iff.mp h
    dsimp only
    split
    exacts [.remove, .write _]
  | setVerdict r t p m =>
    simp only [World.move] at h
    split at h <;> cases h
    exact .of_bgd_eq rfl (le_refl _)
  | markTimedOut r t =>
    simp only [World.move] at h
    split at h <;> cases h
    exact .of_bgd_eq rfl (le_refl _)
  | deploymentStatus ns name status => cases h; exact .of_bgd_eq rfl (Nat.le_succ _)
  | setDeployments deployments => cases h; exact .of_bgd_eq rfl (Nat.le_succ _)
  | _ => cases h; exact .of_bgd_eq rfl (le_refl _)

theorem move_advances {v : Move} (h : w.move v = some w') : w.Advances w' := by
  intro b' hb'
  obtain ⟨b, hb, hstatus, -⟩ := move_bgd h hb'
  exact ⟨b, hb, .of_status hstatus⟩

end World

/-! ## Writers -/

/-- The phase a patch writes, and the generation it writes it for. -/
def StatusPatch.phaseWrite : StatusPatch → Option (BGDPhase × Int)
  | .reset generation _ => some (.pending, generation)
  | .invalid generation _ => some (.invalid, generation)
  | _ => none

/-- The call writes no phase. -/
def Call.KeepsPhase : Call → Prop
  | .replaceStatus _ _ _ => False
  | .patchStatus _ _ patch => patch.phaseWrite = none
  | _ => True

/-- What writes the status on a copy of its own, however old, and anything else that writes no
phase. -/
inductive StatusWriter where
  | phase (copy : BlueGreenDeployment) (ns : String) (phase : BGDPhase)
  | reset (copy : BlueGreenDeployment) (ns : String)
  | invalid (copy : BlueGreenDeployment) (ns reason message : String)
  | updateDeferred (copy : BlueGreenDeployment) (ns : String)
  | reconcileFailure (copy : BlueGreenDeployment) (ns reason message : String)
  | other (work : Op Unit) (h : work.Calls Call.KeepsPhase)

def StatusWriter.thread : StatusWriter → Thread Call Answer ReconcileError Unit
  | .phase copy ns requested => ⟨updateStatusPhase copy ns requested, ()⟩
  | .reset copy ns => ⟨resetStatusForNewRollout copy ns, ()⟩
  | .invalid copy ns reason message => ⟨updateStatusInvalid copy ns reason message, ()⟩
  | .updateDeferred copy ns => ⟨updateStatusUpdateDeferred copy ns, ()⟩
  | .reconcileFailure copy ns reason message =>
    ⟨updateStatusReconcileFailure copy ns reason message, ()⟩
  | .other work _ => ⟨work, ()⟩

/-- The cluster, shared by threads that remember nothing. -/
def sharedCluster : Shared Call Answer Unit World Outcome Move where
  serve _ w c o := (w.serve c o).map fun aw => (aw.1, aw.2, ())
  move := World.move

/-- **No merge patch is carried out that the guard of a phase write would refuse.** -/
def currentWatch : Watch Call Unit World Outcome Move where
  call _ _ w c o := match c, o with
    | _, .refused _ => True
    | .patchStatus ns name patch, _ => ∀ stored ∈ w.findBgd ns name, ∀ write ∈ patch.phaseWrite,
        phaseUpdateIsCurrent stored write.1 write.2 = true
    | _, _ => True
  move _ _ _ := True

instance (others : List Unit) (x : Unit) (w : World) (c : Call) (o : Outcome) :
    Decidable (currentWatch.call others x w c o) := by
  unfold currentWatch
  dsimp only
  split
  · exact .isTrue trivial
  · infer_instance
  · exact .isTrue trivial

instance (all : List Unit) (w : World) (v : Move) : Decidable (currentWatch.move all w v) :=
  .isTrue trivial

/-- Where the version still fits, what is written may come after what is stored. -/
def WritesCurrent (_ : Unit) (w : World) : Call → Prop
  | .replaceStatus _ _ b => ∀ stored, w.bgd = some stored →
      b.metadata.resourceVersion = stored.metadata.resourceVersion → stored.Advances b
  | _ => True

abbrev writerDuty : Duty Call Unit World := ⟨World.Versioned, WritesCurrent⟩

section Writers

variable {w w' : World} {latest copy : BlueGreenDeployment}

/-- A patch that writes no phase leaves what is recorded. -/
theorem StatusPatch.apply_keeps {patch : StatusPatch} (h : patch.phaseWrite = none)
    (status : BlueGreenDeploymentStatus) : (patch.apply status).phase = status.phase ∧
      (patch.apply status).observedGeneration = status.observedGeneration := by
  cases patch with
  | reset _ _ => cases h
  | invalid _ _ => cases h
  | _ => exact ⟨rfl, rfl⟩

/-- A patch that writes a phase. -/
theorem StatusPatch.apply_writes {patch : StatusPatch} {phase : BGDPhase} {generation : Int}
    (h : patch.phaseWrite = some (phase, generation)) (status : BlueGreenDeploymentStatus) :
    (patch.apply status).phase = some phase ∧
      (patch.apply status).observedGeneration = some generation := by
  cases patch with
  | reset _ _ => cases h; exact ⟨rfl, rfl⟩
  | invalid _ _ => cases h; exact ⟨rfl, rfl⟩
  | _ => cases h

/-- An absent status is as good as the default one. -/
theorem default_recorded (b : BlueGreenDeployment) :
    (b.status.getD .default).phase = b.phase ∧
      (b.status.getD .default).observedGeneration = b.observedGeneration := by
  unfold BlueGreenDeployment.phase BlueGreenDeployment.observedGeneration
  cases b.status <;> exact ⟨rfl, rfl⟩

theorem patch_advances {stored : BlueGreenDeployment} {patch : StatusPatch}
    (h : ∀ write ∈ patch.phaseWrite, phaseUpdateIsCurrent stored write.1 write.2 = true) :
    stored.Advances { stored with
      status := some (patch.apply (stored.status.getD .default)) } := by
  cases hwrite : patch.phaseWrite with
  | none =>
    obtain ⟨hphase, hgeneration⟩ := StatusPatch.apply_keeps hwrite (stored.status.getD .default)
    obtain ⟨hphase', hgeneration'⟩ := default_recorded stored
    exact .of_recorded (hphase.trans hphase') (hgeneration.trans hgeneration')
  | some write =>
    obtain ⟨phase, generation⟩ := write
    obtain ⟨hphase, hgeneration⟩ := StatusPatch.apply_writes hwrite (stored.status.getD .default)
    have hwritten : BlueGreenDeployment.phase
        { stored with status := some (patch.apply (stored.status.getD .default)) } = some phase :=
      hphase
    refine (phaseUpdateIsCurrent_iff hwritten).mp ?_
    show phaseUpdateIsCurrent stored phase
      ((patch.apply (stored.status.getD .default)).observedGeneration.getD 0) = true
    rw [hgeneration]
    exact h (phase, generation) hwrite

/-- **What one call does to the recorded phase**, where it may be made and meets the condition. -/
theorem serve_advances {others : List Unit} {c : Call} {o : Outcome} {a : Answer c}
    (hmay : WritesCurrent () w c) (hguard : currentWatch.call others () w c o)
    (h : w.serve c o = some (a, w')) : w.Advances w' := by
  cases c with
  | replaceStatus ns name b =>
    rcases World.serve_replaceStatus h with rfl | ⟨stored, hstored, hversion, rfl⟩
    · exact .of_bgd_eq rfl
    · intro b' hb'
      cases hb'
      refine ⟨stored, hstored, (hmay stored hstored hversion).trans (.of_status rfl)⟩
  | patchStatus ns name patch =>
    cases o with
    | refused text =>
      cases h
      exact .of_bgd_eq rfl
    | ok | lost text =>
      cases hfind : w.findBgd ns name with
      | none =>
        simp only [World.serve, World.patchStatus, hfind, World.respond] at h
        cases h
        exact .of_bgd_eq rfl
      | some stored =>
        simp only [World.serve, World.patchStatus, hfind, World.respond] at h
        cases h
        intro b' hb'
        cases hb'
        exact ⟨stored, (World.findBgd_some hfind).1,
          (patch_advances (hguard stored hfind)).trans (.of_status rfl)⟩
    | _ => cases h
  | patchFinalizers ns name finalizers =>
    rcases World.serve_patchFinalizers h with rfl | rfl | ⟨stored, hstored, rfl⟩
    · exact .of_bgd_eq rfl
    · intro b' hb'
      cases hb'
    · intro b' hb'
      cases hb'
      exact ⟨stored, hstored, .of_status rfl⟩
  | note n => rw [World.serve_note h]; exact .of_bgd_eq rfl
  | _ =>
    refine .of_bgd_eq (World.serve_work ?_ h)
    exact fun hc => hc

/-- The code keeps the writers' duty. -/
abbrev Op.Writes (p : Op Unit) (w : World) : Prop :=
  (Pool.outside sharedCluster currentWatch writerDuty).Spec writerDuty.contract
    (fun _ _ => True) (fun _ _ => True) p (w, ())

/-- Whatever the others do, a copy that was read stays known. -/
theorem known_stable : (Pool.outside sharedCluster currentWatch writerDuty).Stable
    fun t => t.1.Known latest := by
  refine Pool.stable ?_ ?_
  · intro all w _ v w' hknown _ _ hmove
    exact (World.move_renews hmove).known hknown
  · intro others w _ y c o a w' y' hknown _ _ _ _ hserve
    obtain ⟨aw, hworld, heq⟩ := Option.map_eq_some_iff.mp hserve
    cases heq
    exact (World.serve_renews hworld).known hknown

/-- The rule for a call: what is known afterwards is known when the next call is made. -/
theorem Op.Writes.call {c : Call} {k : Answer c → Op Unit} (hw : w.Versioned)
    (hmay : WritesCurrent () w c)
    (hk : ∀ a o w', w.serve c o = some (a, w') → w'.Versioned → ∀ w'',
      (∀ latest, w'.Known latest → w''.Known latest) → w''.Versioned → Op.Writes (k a) w'') :
    Op.Writes (.call c k) w := by
  refine ⟨hmay, fun a t hanswer => ?_⟩
  obtain ⟨others, o, -, hserve⟩ := hanswer
  obtain ⟨aw, hworld, heq⟩ := Option.map_eq_some_iff.mp hserve
  obtain ⟨w', x'⟩ := t
  cases heq
  have hversioned := (World.serve_renews hworld).versioned hw
  refine ⟨hversioned, fun t hlater hi => ?_⟩
  exact hk aw.1 o aw.2 hworld hversioned t.1 (fun latest hknown => known_stable.later hknown hlater)
    hi

/-- The last call of a writer. -/
theorem Op.Writes.last {c : Call} {f : Answer c → Unit} (hw : w.Versioned)
    (hmay : WritesCurrent () w c) : Op.Writes (.call c fun a => .pure (f a)) w :=
  .call hw hmay fun _ _ _ _ _ _ _ _ => trivial

/-- A writer that reads the object goes on with a copy it knows. -/
theorem Op.Writes.read {ns name : String} {k : Except KubeError BlueGreenDeployment → Op Unit}
    (hw : w.Versioned) (herror : ∀ e w, Op.Writes (k (.error e)) w)
    (hk : ∀ latest w, w.Versioned → w.Known latest → Op.Writes (k (.ok latest)) w) :
    Op.Writes (.call (.getBgd ns name) k) w := by
  refine .call hw trivial fun a o w' hserve hversioned w'' hknown hversioned' => ?_
  cases a with
  | error e => exact herror e w''
  | ok latest =>
    obtain ⟨rfl, hread⟩ := World.serve_getBgd hserve
    exact hk latest w'' hversioned' (hknown latest (World.known_of_read hw (hread latest rfl).1))

/-- The clock, and then the status of a known copy replaced by one that may come after it. -/
theorem Op.Writes.replace {ns name : String} {written : Timestamp → BlueGreenDeployment}
    (hw : w.Versioned) (hknown : w.Known latest)
    (hversion : ∀ now, (written now).metadata = latest.metadata)
    (hadvances : ∀ now, latest.Advances (written now)) :
    Op.Writes (.call .now fun now =>
      .call (.replaceStatus ns name (written now)) fun _ => .pure ()) w := by
  refine .call hw trivial fun now o w' hserve _ w'' hkept hversioned => ?_
  refine .last hversioned fun stored hstored hsame => ?_
  rw [hversion now] at hsame
  have hlatest := (hkept latest ((World.serve_renews hserve).known hknown)).2 stored hstored
    hsame.symm
  rw [hlatest]
  exact hadvances now

theorem updateStatusPhase_writes (copy : BlueGreenDeployment) (ns : String) (phase : BGDPhase)
    (hw : w.Versioned) : Op.Writes (updateStatusPhase copy ns phase) w := by
  refine .read hw (fun _ _ => trivial) fun latest w' hw' hknown => ?_
  rw [Prog.pure_bind]
  dsimp only
  split
  · rename_i hcurrent
    refine .replace hw' hknown (fun _ => rfl) fun now => ?_
    exact (phaseUpdateIsCurrent_iff rfl).mp hcurrent
  · trivial

/-- A writer of conditions leaves what is recorded. -/
theorem withConditions_advances (f : List BlueGreenDeploymentCondition →
    List BlueGreenDeploymentCondition) : latest.Advances (withConditions latest f) := by
  obtain ⟨hphase, hgeneration⟩ := default_recorded latest
  exact .of_recorded hphase hgeneration

theorem updateStatusUpdateDeferred_writes (copy : BlueGreenDeployment) (ns : String)
    (hw : w.Versioned) : Op.Writes (updateStatusUpdateDeferred copy ns) w := by
  refine .read hw (fun _ _ => trivial) fun latest w' hw' hknown => ?_
  exact .replace hw' hknown (fun _ => rfl) fun _ => withConditions_advances _

theorem updateStatusReconcileFailure_writes (copy : BlueGreenDeployment) (ns reason message : String)
    (hw : w.Versioned) : Op.Writes (updateStatusReconcileFailure copy ns reason message) w := by
  refine .read hw (fun _ _ => trivial) fun latest w' hw' hknown => ?_
  exact .replace hw' hknown (fun _ => rfl) fun _ => withConditions_advances _

/-- The clock, and then a patch. -/
theorem patch_writes {ns name : String} {patch : Timestamp → StatusPatch} (hw : w.Versioned) :
    Op.Writes (.call .now fun now => .call (.patchStatus ns name (patch now)) fun _ => .pure ()) w :=
  .call hw trivial fun _ _ _ _ _ _ _ hversioned => .last hversioned trivial

theorem other_writes {work : Op Unit} (h : work.Calls Call.KeepsPhase) (hw : w.Versioned) :
    Op.Writes work w := by
  induction work generalizing w with
  | pure a => trivial
  | fail e => trivial
  | call c k ih =>
    refine .call hw ?_ fun a _ _ _ _ w'' _ hversioned => ih a (h.2 a) hversioned
    cases c with
    | replaceStatus _ _ _ => exact h.1.elim
    | _ => trivial

theorem statusWriter_writes (writer : StatusWriter) (hw : w.Versioned) :
    Op.Writes writer.thread.prog w := by
  cases writer with
  | phase copy ns requested => exact updateStatusPhase_writes copy ns requested hw
  | reset copy ns => exact patch_writes hw
  | invalid copy ns reason message => exact patch_writes hw
  | updateDeferred copy ns => exact updateStatusUpdateDeferred_writes copy ns hw
  | reconcileFailure copy ns reason message =>
    exact updateStatusReconcileFailure_writes copy ns reason message hw
  | other work h => exact other_writes h hw

end Writers

/-! ## Runs -/

/-- Writers of the status that race. -/
abbrev WriterPool := Pool Call Answer ReconcileError Unit World

theorem writerPool_good {init s : WriterPool} (hidle : init.threads = [])
    (hinit : init.world.Versioned)
    (r : Pool.Run sharedCluster StatusWriter.thread currentWatch init s) :
    Pool.Good sharedCluster currentWatch writerDuty s := by
  obtain ⟨w, threads⟩ := init
  cases hidle
  refine Pool.Run.sound ?_ (fun writer w hw => ?_) (.of_idle hinit) r
  · intro all w v w' hw _ hmove
    exact (World.move_renews hmove).versioned hw
  · exact statusWriter_writes writer hw

/-- What one step does to the recorded phase. -/
theorem step_advances {s s' : WriterPool} {e : Pool.Event StatusWriter Outcome Move}
    (hgood : Pool.Good sharedCluster currentWatch writerDuty s) (hg : Pool.Meets currentWatch s e)
    (hs : s.step sharedCluster StatusWriter.thread e = some s') : s.world.Advances s'.world := by
  cases e with
  | start writer => cases hs; exact .of_bgd_eq rfl
  | stop i => cases hs; exact .of_bgd_eq rfl
  | move v =>
    obtain ⟨w, hmove, rfl⟩ := Option.map_eq_some_iff.mp hs
    exact World.move_advances hmove
  | answer i o =>
    have hserved : s.answer sharedCluster i o = some s' := hs
    obtain ⟨c, k, x, a, w, x', hthread, hserve, rfl⟩ := Pool.answer_eq hserved
    obtain ⟨aw, hworld, heq⟩ := Option.map_eq_some_iff.mp hserve
    cases heq
    have hcall : currentWatch.call (s.beside i) () s.world c o := by
      simpa only [Pool.Meets, hthread] using hg
    have hmay := hgood.may (List.mem_of_getElem? hthread) rfl
    exact serve_advances hmay hcall hworld

/-- **The phase never regresses under stale writers**: in every run in which no merge patch is
carried out that the guard of a phase write would refuse, what is recorded later has a higher
generation, or the same and a phase of no lower rank; and after a terminal phase no other one is
recorded for its generation. -/
theorem phase_never_regresses {init s s' : WriterPool} (hidle : init.threads = [])
    (hinit : init.world.Versioned)
    (r : Pool.Run sharedCluster StatusWriter.thread currentWatch init s)
    (r' : Pool.Run sharedCluster StatusWriter.thread currentWatch s s') :
    s.world.Advances s'.world := by
  induction r' with
  | nil => exact .of_bgd_eq rfl
  | snoc r' e hg hs ih =>
    exact ih.trans (step_advances (writerPool_good hidle hinit (r.trans r')) hg hs)

/-! ## Two replicas start the next rollout -/

/-- The sample after its rollout, with the spec of the next one. -/
def Sample.edited : BlueGreenDeployment :=
  let b := bgd .completed
  { b with metadata := { b.metadata with generation := some 2 } }

/-- The sample after the status was reset for the next rollout. -/
def Sample.restarted : BlueGreenDeployment :=
  { edited with status := some { status .pending with
      observedGeneration := some 2
      rolloutGeneration := some 2 } }

/-- The next rollout is due, and nobody is about to write. -/
def Sample.writersStart : WriterPool := ⟨{ world .completed [] with bgd := some edited }, []⟩

/-- What is recorded of the object. -/
def Sample.recorded (s : WriterPool) : Option (Option BGDPhase × Option Int) :=
  s.world.bgd.map fun b => (b.phase, b.observedGeneration)

/-- Two replicas are about to reset the status. One of them does, and its rollout begins to
observe. -/
def Sample.restart : List (Pool.Event StatusWriter Outcome Move) :=
  [.start (.reset edited "default"), .start (.reset edited "default"),
    .answer 0 .ok, .answer 1 .ok, .answer 0 .ok, .stop 0,
    .start (.phase restarted "default" .observing), .answer 1 .ok, .answer 1 .ok, .answer 1 .ok]

def observingResetToPendingRun :
    PLift (((Pool.run Watch.top sharedCluster StatusWriter.thread Sample.writersStart
      Sample.restart).bind fun s =>
        (Pool.run Watch.top sharedCluster StatusWriter.thread s [.answer 0 .ok]).map fun s' =>
          (Sample.recorded s, Sample.recorded s')) =
      some (some (some .observing, some 2), some (some .pending, some 2))) :=
  ⟨by decide +kernel⟩

/-- **The reset of the other replica takes the rollout back to its beginning.** -/
theorem observing_reset_to_pending :
    ¬ ∀ init s s' : WriterPool, init.threads = [] → init.world.Versioned →
      Pool.Run sharedCluster StatusWriter.thread Watch.top init s →
        Pool.Run sharedCluster StatusWriter.thread Watch.top s s' →
          s.world.Advances s'.world := by
  intro h
  have hrun := observingResetToPendingRun.down
  obtain ⟨s, hs, hrun⟩ := Option.bind_eq_some_iff.mp hrun
  obtain ⟨s', hs', hrecorded⟩ := Option.map_eq_some_iff.mp hrun
  simp only [Prod.mk.injEq] at hrecorded
  obtain ⟨b', hb', hafter⟩ := Option.map_eq_some_iff.mp hrecorded.2
  obtain ⟨b, hb, hbefore⟩ := Option.map_eq_some_iff.mp hrecorded.1
  have hinit : Sample.writersStart.world.Versioned := by
    intro b hb
    cases hb
    decide
  obtain ⟨stored, hstored, hadv⟩ :=
    h _ s s' rfl hinit (.of_run .nil hs) (.of_run .nil hs') b' hb'
  rw [hb] at hstored
  cases hstored
  simp only [Prod.mk.injEq] at hbefore hafter
  have hstanding := hadv.standing
  unfold BlueGreenDeployment.standing BlueGreenDeployment.phaseGeneration at hstanding
  rw [hbefore.1, hbefore.2, hafter.1, hafter.2] at hstanding
  exact absurd hstanding (by decide)

/-- The reset of one replica, the first phase, and a write of another replica that is still at the
last rollout. -/
def Sample.overtakenWrite : List (Pool.Event StatusWriter Outcome Move) :=
  [.start (.reset edited "default"), .answer 0 .ok, .answer 0 .ok,
    .start (.phase restarted "default" .observing), .answer 1 .ok, .answer 1 .ok,
    .start (.phase restarted "default" .pending), .answer 2 .ok, .answer 2 .ok,
    .answer 1 .ok, .answer 2 .ok]

def phaseNeverRegressesOvertakenRun :
    PLift ((Pool.run currentWatch sharedCluster StatusWriter.thread Sample.writersStart
      Sample.overtakenWrite).map Sample.recorded = some (some (some .observing, some 2))) :=
  ⟨by decide +kernel⟩

/-- The write that was overtaken is refused by its version. -/
theorem phase_never_regresses_overtaken : ∃ s s' : WriterPool,
    Sample.recorded s = some (some .completed, some 1) ∧
    Sample.recorded s' = some (some .observing, some 2) ∧ s.world.Advances s'.world := by
  have hrun := phaseNeverRegressesOvertakenRun.down
  obtain ⟨s', r, hs'⟩ := Pool.Run.exists_of_run hrun
  have hinit : Sample.writersStart.world.Versioned := by
    intro b hb
    cases hb
    decide
  exact ⟨_, s', rfl, hs', phase_never_regresses rfl hinit .nil r⟩

end FluidBG
