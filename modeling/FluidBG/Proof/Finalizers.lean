import FluidBG.Controller.Reconcile
import FluidBG.Sample
/-!
# Other finalizers

A BlueGreenDeployment can carry finalizers of other controllers. Both writes of the operator send a
whole list: `ensure_finalizer` a constant one, `remove_finalizer` one made from the object that the
reconcile has read. A run below mixes these writes with the edits of the others.
-/

set_option autoImplicit false

namespace FluidBG

open Lib

/-- The finalizers that are not the operator's. -/
def otherFinalizers (finalizers : List String) : List String :=
  finalizers.filter fun value => value ≠ bgdFinalizer

/-- The cluster, and the object as the reconcile has read it. -/
structure Watched where
  world : World
  copy : BlueGreenDeployment

/-- What happens to the list. -/
inductive FinalizerEvent where
  /-- Another controller adds its finalizer. -/
  | add (finalizer : String)
  /-- Another controller removes its finalizer. -/
  | drop (finalizer : String)
  /-- The object is read. -/
  | read
  | ensure (o : Outcome)
  | remove (o : Outcome)

namespace Watched

/-- The list at the API server. -/
def finalizers (s : Watched) : List String := (s.world.bgd.map (·.metadata.finalizers)).getD []

/-- Another controller writes the list. -/
def edited (s : Watched) (edit : List String → List String) : Option Watched :=
  s.world.bgd.map fun stored =>
    { s with world := s.world.writeBgd { stored with metadata :=
      { stored.metadata with finalizers := edit stored.metadata.finalizers } } }

/-- The program's call ends in the outcome. -/
def executed (s : Watched) (p : Op Unit) (o : Outcome) : Option Watched :=
  (cluster.exec p [o] s.world).map fun r => { s with world := r.2 }

def step (s : Watched) : FinalizerEvent → Option Watched
  | .add finalizer => s.edited (· ++ [finalizer])
  | .drop finalizer => s.edited fun finalizers => finalizers.filter (· ≠ finalizer)
  | .read => s.world.bgd.map fun stored => { s with copy := stored }
  | .ensure o => s.executed (ensureFinalizer s.copy s.copy.metadata.ns) o
  | .remove o => s.executed (removeFinalizer s.copy s.copy.metadata.ns) o

def run (s : Watched) : List FinalizerEvent → Option Watched
  | [] => some s
  | e :: events => (s.step e).bind fun s' => s'.run events

/-- A write that reaches the object. -/
def Carried (s : Watched) (o : Outcome) : Prop :=
  (o = .ok ∨ ∃ text, o = .lost text) ∧
    (s.world.findBgd s.copy.metadata.ns s.copy.metadata.name).isSome

/-- What the others' own edits make of their finalizers. -/
def edit (others : List String) : FinalizerEvent → List String
  | .add finalizer => others ++ otherFinalizers [finalizer]
  | .drop finalizer => others.filter (· ≠ finalizer)
  | _ => others

/-- The operator's own finalizer is there after one write, and gone after the other. -/
def OwnWritten (s : Watched) (e : FinalizerEvent) (s' : Watched) : Prop :=
  match e with
  | .ensure o => s.Carried o → bgdFinalizer ∈ s'.finalizers
  | .remove o => s.Carried o → bgdFinalizer ∉ s'.finalizers
  | _ => True

/-- **Only its own finalizer is the operator's**: along the run, it is written as it should, and
the others are what the edits of the others make of them. -/
def Preserves (s : Watched) (others : List String) : List FinalizerEvent → Prop
  | [] => otherFinalizers s.finalizers = others
  | e :: events => otherFinalizers s.finalizers = others ∧
      ∀ s', s.step e = some s' → s.OwnWritten e s' ∧ s'.Preserves (edit others e) events

/-- A write that leaves the others alone: there are none when the constant list is sent, and they
have not changed since the object was read when its list is sent. -/
def Fits (s : Watched) : FinalizerEvent → Prop
  | .ensure o => s.Carried o → otherFinalizers s.finalizers = []
  | .remove o => s.Carried o →
      otherFinalizers s.finalizers = otherFinalizers s.copy.metadata.finalizers
  | _ => True

/-- Every write of the run fits. -/
def AllFit (s : Watched) : List FinalizerEvent → Prop
  | [] => True
  | e :: events => s.Fits e ∧ ∀ s', s.step e = some s' → s'.AllFit events

/-! ## One step -/

section Step

variable {s s' : Watched}

theorem otherFinalizers_append (a b : List String) :
    otherFinalizers (a ++ b) = otherFinalizers a ++ otherFinalizers b := List.filter_append ..

theorem edited_spec {f : List String → List String} (h : s.edited f = some s') :
    s'.finalizers = f s.finalizers := by
  obtain ⟨stored, hstored, rfl⟩ := Option.map_eq_some_iff.mp h
  simp [finalizers, hstored, World.writeBgd]

/-- The program of both writes: a patch with a whole list. -/
def written (s : Watched) (list : List String) : Op Unit := do
  let _ ← Op.kube (← Op.ask (.patchFinalizers s.copy.metadata.ns s.copy.metadata.name list))
  pure ()

theorem executed_world {list : List String} {o : Outcome}
    (h : s.executed (s.written list) o = some s') : ∃ a,
      s.world.serve (.patchFinalizers s.copy.metadata.ns s.copy.metadata.name list) o =
        some (a, s'.world) := by
  obtain ⟨r, hr, rfl⟩ := Option.map_eq_some_iff.mp h
  have hcall : s.written list =
      .call (.patchFinalizers s.copy.metadata.ns s.copy.metadata.name list)
        fun a => (Op.kube a).bind fun _ => .pure () := rfl
  rw [hcall, Machine.exec] at hr
  split at hr
  · rename_i a w hserve
    refine ⟨a, hserve.trans ?_⟩
    cases a with
    | ok _ =>
      cases hr
      rfl
    | error e =>
      cases hr
      rfl
  · cases hr

theorem patchFinalizers_finalizers {w : World} {ns name : String} {list : List String}
    (copy : BlueGreenDeployment) :
    (w.findBgd ns name = none ∧ (w.patchFinalizers ns name list).2 = w) ∨
      ((w.findBgd ns name).isSome ∧
        (⟨(w.patchFinalizers ns name list).2, copy⟩ : Watched).finalizers = list) := by
  unfold World.patchFinalizers
  cases hfind : w.findBgd ns name with
  | none => exact .inl ⟨rfl, rfl⟩
  | some stored =>
    refine .inr ⟨rfl, ?_⟩
    dsimp only
    split
    · rename_i hgone
      rw [hgone.2]
      rfl
    · rfl

/-- A write that reaches the object puts its list there, and any other changes nothing. -/
theorem executed_spec {l : List String} {o : Outcome}
    (h : s.executed (s.written l) o = some s') :
    s'.copy = s.copy ∧ (¬ s.Carried o ∧ s'.finalizers = s.finalizers ∨
      s.Carried o ∧ s'.finalizers = l) := by
  obtain ⟨a, hserve⟩ := executed_world h
  obtain ⟨r, -, rfl⟩ := Option.map_eq_some_iff.mp h
  refine ⟨rfl, ?_⟩
  have heffect := @patchFinalizers_finalizers s.world s.copy.metadata.ns s.copy.metadata.name l
    s.copy
  have hreached : o = .ok ∨ (∃ text, o = .lost text) →
      r.2 = (s.world.patchFinalizers s.copy.metadata.ns s.copy.metadata.name l).2 := by
    rintro (rfl | ⟨text, rfl⟩)
    · exact (Prod.mk.inj (Option.some.inj hserve)).2.symm
    · exact (Prod.mk.inj (Option.some.inj hserve)).2.symm
  by_cases ho : o = .ok ∨ ∃ text, o = .lost text
  · rcases heffect with ⟨hnone, hsame⟩ | ⟨hsome, hlist⟩
    · refine .inl ⟨fun hcarried => ?_, ?_⟩
      · rw [Carried, hnone] at hcarried
        cases hcarried.2
      · rw [finalizers, finalizers, hreached ho, hsame]
    · refine .inr ⟨⟨ho, hsome⟩, ?_⟩
      rw [hreached ho]
      exact hlist
  · refine .inl ⟨fun hcarried => ho hcarried.1, ?_⟩
    cases o with
    | ok => exact absurd (.inl rfl) ho
    | lost text => exact absurd (.inr ⟨text, rfl⟩) ho
    | refused text =>
      rw [finalizers, finalizers, ← (Prod.mk.inj (Option.some.inj hserve)).2]
    | _ => cases hserve

/-- A write that reaches the object is a step. -/
theorem step_of_carried {l : List String} {o : Outcome} (h : s.Carried o) :
    ∃ s', s.executed (s.written l) o = some s' := by
  have hserve : ∃ r, cluster.serve s.world
      (.patchFinalizers s.copy.metadata.ns s.copy.metadata.name l) o = some r := by
    rcases h.1 with rfl | ⟨text, rfl⟩
    · exact ⟨_, rfl⟩
    · exact ⟨_, rfl⟩
  obtain ⟨⟨a, w⟩, hserve⟩ := hserve
  have hcall : s.written l =
      .call (.patchFinalizers s.copy.metadata.ns s.copy.metadata.name l)
        fun a => (Op.kube a).bind fun _ => .pure () := rfl
  unfold executed
  rw [hcall, Machine.exec, hserve]
  cases a with
  | ok _ => exact ⟨_, rfl⟩
  | error e => exact ⟨_, rfl⟩

theorem bgdFinalizer_not_mem (list : List String) : bgdFinalizer ∉ otherFinalizers list := by
  intro h
  simpa using (List.mem_filter.mp h).2

theorem step_ownWritten {e : FinalizerEvent} (h : s.step e = some s') : s.OwnWritten e s' := by
  cases e with
  | ensure o =>
    intro hcarried
    rcases (executed_spec (l := [bgdFinalizer]) h).2 with ⟨hnot, -⟩ | ⟨-, hlist⟩
    · exact absurd hcarried hnot
    · rw [hlist]
      exact List.mem_cons_self
  | remove o =>
    intro hcarried
    rcases (executed_spec (l := otherFinalizers s.copy.metadata.finalizers) h).2
      with ⟨hnot, -⟩ | ⟨-, hlist⟩
    · exact absurd hcarried hnot
    · rw [hlist]
      exact bgdFinalizer_not_mem _
  | _ => trivial

theorem otherFinalizers_idem (list : List String) :
    otherFinalizers (otherFinalizers list) = otherFinalizers list := by
  simp [otherFinalizers]

/-- **A step that fits** changes the others as their own edit does, and only such a step. -/
theorem step_others_iff {e : FinalizerEvent} (h : s.step e = some s') :
    otherFinalizers s'.finalizers = edit (otherFinalizers s.finalizers) e ↔ s.Fits e := by
  cases e with
  | add finalizer =>
    refine iff_of_true ?_ trivial
    rw [edited_spec (f := (· ++ [finalizer])) h, otherFinalizers_append]
    rfl
  | drop finalizer =>
    refine iff_of_true ?_ trivial
    rw [edited_spec (f := fun finalizers => finalizers.filter (· ≠ finalizer)) h]
    simp only [otherFinalizers, edit, List.filter_filter, Bool.and_comm]
  | read =>
    refine iff_of_true ?_ trivial
    obtain ⟨stored, -, rfl⟩ := Option.map_eq_some_iff.mp h
    rfl
  | ensure o =>
    rcases (executed_spec (l := [bgdFinalizer]) h).2 with ⟨hnot, hsame⟩ | ⟨hcarried, hlist⟩
    · refine iff_of_true ?_ fun hcarried => absurd hcarried hnot
      rw [hsame]
      rfl
    · have hown : otherFinalizers [bgdFinalizer] = [] := by simp [otherFinalizers]
      rw [hlist, hown]
      exact ⟨fun heq _ => heq.symm, fun hfit => (hfit hcarried).symm⟩
  | remove o =>
    rcases (executed_spec (l := otherFinalizers s.copy.metadata.finalizers) h).2
      with ⟨hnot, hsame⟩ | ⟨hcarried, hlist⟩
    · refine iff_of_true ?_ fun hcarried => absurd hcarried hnot
      rw [hsame]
      rfl
    · rw [hlist, otherFinalizers_idem]
      exact ⟨fun heq _ => heq.symm, fun hfit => (hfit hcarried).symm⟩

/-- A write that does not fit is a step. -/
theorem fits_of_stuck {e : FinalizerEvent} (h : s.step e = none) : s.Fits e := by
  cases e with
  | ensure o =>
    intro hcarried
    obtain ⟨s', hs⟩ := step_of_carried (l := [bgdFinalizer]) hcarried
    exact absurd (h.symm.trans hs) (by simp)
  | remove o =>
    intro hcarried
    obtain ⟨s', hs⟩ := step_of_carried
      (l := otherFinalizers s.copy.metadata.finalizers) hcarried
    exact absurd (h.symm.trans hs) (by simp)
  | _ => trivial

end Step

theorem Preserves.others {s : Watched} {others : List String} {events : List FinalizerEvent}
    (h : s.Preserves others events) : otherFinalizers s.finalizers = others := by
  cases events with
  | nil => exact h
  | cons e events => exact h.1

end Watched

/-- **Other finalizers are preserved**, in any run of the operator's writes and the others' edits,
exactly where no write sends a list that leaves one of them out or brings one back. -/
theorem other_finalizers_survive_iff (s : Watched) (events : List FinalizerEvent) :
    s.Preserves (otherFinalizers s.finalizers) events ↔ s.AllFit events := by
  induction events generalizing s with
  | nil => exact iff_of_true rfl trivial
  | cons e events ih =>
    constructor
    · intro ⟨_, hstep⟩
      have hfits : ∀ s', s.step e = some s' → s.Fits e := by
        intro s' hs
        exact (Watched.step_others_iff hs).mp (hstep s' hs).2.others
      refine ⟨?_, fun s' hs => ?_⟩
      · cases hs : s.step e with
        | none => exact Watched.fits_of_stuck hs
        | some s' => exact hfits s' hs
      · have hrest := (hstep s' hs).2
        rw [← hrest.others] at hrest
        exact (ih s').mp hrest
    · intro ⟨hfit, hrest⟩
      refine ⟨rfl, fun s' hs => ⟨Watched.step_ownWritten hs, ?_⟩⟩
      rw [← (Watched.step_others_iff hs).mpr hfit]
      exact (ih s').mpr (hrest s' hs)

def Sample.protectedBgd : BlueGreenDeployment :=
  let bgd := Sample.bgd .pending
  { bgd with metadata := { bgd.metadata with finalizers := ["example.com/backup"] } }

/-- An object that another controller protects. -/
def Sample.protectedObject : Watched where
  world := { Sample.world .pending [] with bgd := some Sample.protectedBgd }
  copy := Sample.protectedBgd

/-- The protection is gone when the operator adds its own finalizer. -/
theorem ensure_drops_protection :
    ¬ ∀ (s : Watched) (events : List FinalizerEvent),
      s.Preserves (otherFinalizers s.finalizers) events := by
  intro h
  have hcarried : Sample.protectedObject.Carried .ok := ⟨.inl rfl, by decide +kernel⟩
  obtain ⟨s', hs⟩ := Watched.step_of_carried (l := [bgdFinalizer]) hcarried
  have hothers := ((h Sample.protectedObject [.ensure .ok]).2 s' hs).2.others
  rcases (Watched.executed_spec hs).2 with ⟨hnot, -⟩ | ⟨-, hlist⟩
  · exact hnot hcarried
  · rw [hlist] at hothers
    revert hothers
    decide +kernel

end FluidBG
