import FluidBG.Proof.Sweep
import FluidBG.Proof.Status
import FluidBG.Sample
/-!
# Orphans and live objects

A sweep lists the `BlueGreenDeployment`s once, collects references, and then deletes what belongs
to the references it did not find in the list. Anything may happen between two of its calls. The
observer below remembers what the sweep under way found existing, which key it is cleaning up, and
for which existing objects something was deleted.
-/

set_option autoImplicit false

namespace FluidBG

open Lib

structure SweepLog where
  /-- The keys that existed when the sweep listed the objects. -/
  listed : List String
  /-- The key that is being cleaned up. -/
  current : Option String
  /-- The keys of objects that existed when something of theirs was deleted. -/
  harmed : List String
  deriving DecidableEq, Repr

namespace SweepLog

def empty : SweepLog := ⟨[], none, []⟩

/-- Something is deleted for the current key. -/
def delete (x : SweepLog) (w : World) : SweepLog :=
  { x with harmed := (x.current.filter fun key => key ∈ w.existingKeys).toList ++ x.harmed }

def see (x : SweepLog) (w : World) (c : Call) (_ : Answer c) (_ : World) : SweepLog :=
  match c with
  | .listBgds => { x with listed := w.existingKeys }
  | .note (.orphan key) => { x with current := some key }
  | .deleteDeployment _ _ => x.delete w
  | .deleteResource _ _ _ => x.delete w
  | .cleanupBlueGreen _ => { x.delete w with current := none }
  | _ => x

/-- A sweep that has ended or crashed cleans up nothing. -/
def halted (x : SweepLog) : SweepLog := { x with current := none }

abbrev machine : Machine Call Answer (World × SweepLog) Outcome Move :=
  cluster.observed see halted

/-- **No live object is harmed.** -/
def Harmless (x : SweepLog) : Prop := x.harmed = []

instance (x : SweepLog) : Decidable x.Harmless := inferInstanceAs (Decidable (_ = _))

/-- The key whose cleanup the call marks. -/
def orphanOf : Call → Option String
  | .note (.orphan key) => some key
  | _ => none

/-- No object is created for a key between the listing and the end of the key's cleanup: when the
cleanup begins, an object that exists existed when the sweep listed the objects, and until it is
over none comes into existence. -/
def uncreated : Guard Call (World × SweepLog) Outcome Move where
  call s c _ := ∀ key ∈ orphanOf c, key ∈ s.1.existingKeys → key ∈ s.2.listed
  move s v := ∀ key ∈ s.2.current, ∀ w ∈ s.1.move v,
    key ∈ w.existingKeys → key ∈ s.1.existingKeys

instance (s : World × SweepLog) (c : Call) (o : Outcome) : Decidable (uncreated.call s c o) :=
  inferInstanceAs (Decidable (∀ key ∈ orphanOf c, _ → _))

instance (s : World × SweepLog) (v : Move) : Decidable (uncreated.move s v) :=
  inferInstanceAs (Decidable (∀ key ∈ s.2.current, ∀ w ∈ s.1.move v, _ → _))

/-! ## The invariant -/

/-- Nothing was harmed, and the key that is being cleaned up does not exist. -/
structure Inv (s : World × SweepLog) : Prop where
  harmless : s.2.Harmless
  current : ∀ key ∈ s.2.current, key ∉ s.1.existingKeys

abbrev outside : Outside Call Answer (World × SweepLog) := machine.outside uncreated

abbrev keeping : Contract Call (World × SweepLog) := ⟨Inv, fun _ _ => True⟩

theorem Inv.delete {w : World} {x : SweepLog} (h : Inv (w, x)) : x.delete w = x := by
  obtain ⟨listed, current, harmed⟩ := x
  cases current with
  | none => rfl
  | some key =>
    have hkey : key ∉ w.existingKeys := h.current key rfl
    simp [SweepLog.delete, Option.filter, hkey]

/-- Where nothing comes into existence under the current key, the invariant stays. -/
theorem Inv.of_keys {w w' : World} {x : SweepLog} (h : Inv (w, x))
    (hkeys : ∀ key ∈ x.current, key ∈ w'.existingKeys → key ∈ w.existingKeys) : Inv (w', x) :=
  ⟨h.harmless, fun key hkey hex => h.current key hkey (hkeys key hkey hex)⟩

theorem Inv.stable : outside.Stable Inv := by
  rintro ⟨w, x⟩ ⟨w', x'⟩ h ⟨v, hg, hmove⟩
  obtain ⟨hm, hx⟩ := Machine.observed_move hmove
  dsimp only at hm hx
  subst hx
  exact h.of_keys fun key hkey => hg key hkey w' hm

/-! ## The calls of a sweep -/

/-- The calls a sweep makes once it has listed the objects as `existing`. -/
def Sweeps (existing : OrdMap String Unit) : Call → Prop
  | .deleteDeployment _ _ | .deleteResource _ _ _ | .cleanupBlueGreen _ => True
  | .note n => ∀ key ∈ orphanOf (.note n), key ∉ existing.keys
  | .listBgds => False
  | c => c.ReadOnly

/-- What the sweep under way found existing is in `existing`. -/
def Listed (existing : OrdMap String Unit) (s : World × SweepLog) : Prop :=
  ∀ key ∈ s.2.listed, key ∈ existing.keys

theorem Listed.stable (existing : OrdMap String Unit) : outside.Stable (Listed existing) := by
  rintro s s' h ⟨v, _, hmove⟩
  rw [Listed, (Machine.observed_move hmove).2]
  exact h

theorem deleteDeployment_existingKeys (w : World) (ns name : String) :
    (w.deleteDeployment ns name).2.existingKeys = w.existingKeys := by
  unfold World.deleteDeployment
  split <;> rfl

theorem deleteResource_existingKeys (w : World) (kind : Kind) (ns name : String) :
    (w.deleteResource kind ns name).2.existingKeys = w.existingKeys := by
  unfold World.deleteResource
  split <;> rfl

/-- A call that deletes for a key that does not exist harms nobody. -/
theorem Inv.deleted {w w' : World} {x : SweepLog} (h : Inv (w, x))
    (hkeys : w'.existingKeys = w.existingKeys) : Inv (w', x.delete w) := by
  rw [h.delete]
  exact h.of_keys fun _ _ hex => hkeys ▸ hex

/-- **Step lemma**: one call of a sweep. -/
theorem step {existing : OrdMap String Unit} {s s' : World × SweepLog} {c : Call} {a : Answer c}
    (hc : Sweeps existing c) (hi : Inv s) (hl : Listed existing s)
    (h : outside.answers s c a s') : Inv s' ∧ Listed existing s' := by
  obtain ⟨w, x⟩ := s
  obtain ⟨w', x'⟩ := s'
  obtain ⟨o, hg, hserve⟩ := h
  obtain ⟨hs, hx⟩ := Machine.observed_serve hserve
  change w.serve c o = some (a, w') at hs
  have hread (hr : c.ReadOnly) : w' = w := hr.serve hs
  dsimp only at hx
  subst hx
  cases c with
  | deleteDeployment ns name =>
    refine ⟨hi.deleted ?_, hl⟩
    rcases World.respond_world hs with rfl | rfl
    exacts [rfl, deleteDeployment_existingKeys w ns name]
  | deleteResource kind ns name =>
    refine ⟨hi.deleted ?_, hl⟩
    rcases World.respond_world hs with rfl | rfl
    exacts [rfl, deleteResource_existingKeys w kind ns name]
  | cleanupBlueGreen key =>
    refine ⟨⟨?_, by simp [see]⟩, hl⟩
    change (x.delete w).Harmless
    rw [hi.delete]
    exact hi.harmless
  | note n =>
    have hw : w' = w := hread trivial
    subst hw
    cases n with
    | orphan key =>
      refine ⟨⟨hi.harmless, fun key' hkey' hex => ?_⟩, hl⟩
      cases hkey'
      exact hc key rfl (hl key (hg key rfl hex))
    | _ => exact ⟨hi, hl⟩
  | listDeployments _ _ | listResources _ _ _ | listNamespaces | listBlueGreenRefs | sleep _ =>
    have hw : w' = w := hread hc
    subst hw
    exact ⟨hi, hl⟩
  | _ => exact absurd hc id

/-! ## The code of a sweep -/

section Code

variable {existing : OrdMap String Unit}

theorem countLabelled_calls (ns : String) (selector : LabelSelector) :
    (countLabelled ns selector).Calls (Sweeps existing) :=
  askKube_calls trivial fun _ => askKube_calls trivial fun _ => askKube_calls trivial fun _ =>
    askKube_calls trivial fun _ => askKube_calls trivial fun _ => trivial

theorem cleanupOrphanedBlueGreenResources_calls (ns ref : String) :
    (cleanupOrphanedBlueGreenResources ns ref).Calls (Sweeps existing) := by
  have hdeployments (selector : LabelSelector) :
      (deleteLabelledDeployments ns selector).Calls (Sweeps existing) := by
    refine askKube_calls trivial fun items => .forEach fun item _ =>
      (ask_calls trivial).bind fun r => ?_
    rcases r with e | _
    · cases e <;> trivial
    · trivial
  have hresources (kind : Kind) (selector : LabelSelector) :
      (deleteLabelledResources kind ns selector).Calls (Sweeps existing) := by
    refine askKube_calls trivial fun items => .forEach fun item _ =>
      (ask_calls trivial).bind fun r => ?_
    rcases r with e | _
    · cases e <;> trivial
    · trivial
  refine (hdeployments _).bind fun _ => (hresources _ _).bind fun _ => (hresources _ _).bind fun _ =>
    (hresources _ _).bind fun _ => (hresources _ _).bind fun _ =>
      .retry (fun _ => (countLabelled_calls _ _).bind fun n => ?_) trivial
  split
  · trivial
  · exact (ask_calls trivial).bind fun _ => trivial

theorem cleanupSingleOrphanedBlueGreenRef_calls {key : String} (h : key ∉ existing.keys) :
    (cleanupSingleOrphanedBlueGreenRef key).Calls (Sweeps existing) := by
  have hnote : Sweeps existing (.note (.orphan key)) := by
    intro key' hkey'
    cases hkey'
    exact h
  exact (ask_calls hnote).bind fun _ => (lift_calls _).bind fun parts =>
    (cleanupOrphanedBlueGreenResources_calls _ _).bind fun _ => (ask_calls trivial).bind fun _ =>
      (stateStore_calls _).bind fun _ => trivial

theorem collectOrphanCandidates_calls : collectOrphanCandidates.Calls (Sweeps existing) := by
  refine (ask_calls trivial).bind fun _ => (stateStore_calls _).bind fun _ =>
    Prog.Calls.bind ?_ fun _ => trivial
  refine askKube_calls trivial fun _ => .foldEach fun _ ns _ => Prog.Calls.bind ?_ fun _ => trivial
  exact askKube_calls trivial fun _ => .foldEach fun _ _ _ => askKube_calls trivial fun _ => trivial

/-- Once the objects are listed, only keys outside the list are cleaned up. -/
theorem afterListing_calls :
    (do
      let refs ← collectOrphanCandidates
      Prog.forEach refs.keys fun ref =>
        if (existing.get ref).isSome then pure ()
        else cleanupSingleOrphanedBlueGreenRef ref : Op Unit).Calls (Sweeps existing) := by
  refine collectOrphanCandidates_calls.bind fun refs => .forEach fun ref _ => ?_
  split
  · trivial
  · rename_i hmissing
    exact cleanupSingleOrphanedBlueGreenRef_calls fun h => hmissing (OrdMap.mem_keys_iff.mp h)

end Code

/-- Listing the objects records what exists. -/
theorem existingBlueGreenKeys_spec {s : World × SweepLog} (hi : Inv s) :
    outside.Spec keeping (fun existing s => Listed existing s ∧ Inv s) (fun _ _ => True)
      existingBlueGreenKeys s := by
  refine .bind (R := fun r s => (∀ bgds, r = .ok bgds → ∀ key ∈ s.2.listed,
    key ∈ bgds.map fun b => blueGreenStateKey b.metadata.ns b.metadata.name) ∧ Inv s)
    (.ask trivial fun r s' h => ?_) fun r s' hr => ?_
  · obtain ⟨o, -, hserve⟩ := h
    obtain ⟨hs, hx⟩ := Machine.observed_serve hserve
    have hw : s'.1 = s.1 := Call.ReadOnly.serve (c := .listBgds) trivial hs
    have hi' : Inv s' := by
      refine ⟨hx ▸ hi.harmless, fun key hkey hex => ?_⟩
      rw [hx] at hkey
      exact hi.current key hkey (hw ▸ hex)
    refine ⟨hi', fun s'' hl hi'' => ⟨fun bgds hbgds key hkey => ?_, hi''⟩⟩
    have hlisted : s''.2.listed = s.1.existingKeys := by
      have hkeep := Outside.Stable.later (O := outside)
        (P := fun t => t.2.listed = s.1.existingKeys) ?_ (w := s') (by rw [hx]; rfl) hl
      · exact hkeep
      · rintro t t' ht ⟨v, _, hmove⟩
        rw [(Machine.observed_move hmove).2]
        exact ht
    subst hbgds
    cases o <;> simp [cluster, World.serve, World.respond] at hs
    rw [hlisted] at hkey
    rw [← hs.1]
    exact hkey
  · cases r with
    | error e => trivial
    | ok bgds =>
      refine ⟨fun key hkey => ?_, hr.2⟩
      simpa [OrdMap.mem_keys_ofList] using hr.1 bgds rfl key hkey

/-- **A sweep keeps the invariant**, wherever it is cut off. -/
theorem cleanupOrphanedBlueGreenRefs_spec {s : World × SweepLog} (hi : Inv s) :
    outside.Spec keeping (fun _ _ => True) (fun _ _ => True) cleanupOrphanedBlueGreenRefs s :=
  (existingBlueGreenKeys_spec hi).bind fun existing _ h =>
    (Outside.Spec.of_calls afterListing_calls (Listed.stable existing) h.1 h.2
      (fun _ _ _ _ _ => trivial) fun _ _ _ _ hc hi hl ha => step hc hi hl ha).mono
      (fun _ _ _ => trivial) fun _ _ _ => trivial

end SweepLog

/-- **A sweep harms no live object** in every run in which no object is created for a key between
the listing and the end of that key's cleanup. -/
theorem orphan_cleanup_harmless {w : World}
    {s : Conf Call Answer ReconcileError (World × SweepLog)}
    (r : Machine.Run SweepLog.machine (fun _ : Unit => cleanupOrphanedBlueGreenRefs)
      SweepLog.uncreated ⟨(w, .empty), none⟩ s) : s.world.2.Harmless :=
  (Machine.Run.sound (K := SweepLog.keeping) SweepLog.Inv.stable
    (fun _ h => ⟨h.harmless, by simp [SweepLog.machine, Machine.observed, SweepLog.halted]⟩)
    (fun _ _ hi => SweepLog.cleanupOrphanedBlueGreenRefs_spec hi)
    (.of_idle (w := (w, SweepLog.empty)) ⟨rfl, by simp [SweepLog.empty]⟩) r).1.harmless

/-! ## Runs of the sample -/

/-- The candidate of `default/shop`, with the labels it is created with. -/
def Sample.labelledCandidate : Deployment where
  metadata := { (deployment "shop-x7k2q9" "false").metadata with
    labels := .ofList [("app", "shop"), ("fluidbg.io/green", "false"),
      ("fluidbg.io/blue-green-ref", "shop"), ("fluidbg.io/blue-green-uid", "uid-1")] }
  spec := some deploymentSpec
  status := none

/-- The cluster without the object, which has been deleted by force. -/
def Sample.orphanWorld (deployments : List Deployment) : World :=
  { world .observing [] with bgd := none, deployments := deployments }

/-- A sweep with something happening after `n` of its calls, and `m` more calls. -/
def Sample.sweep (n : Nat) (moves : List Move) (m : Nat) : List (Event Unit Outcome Move) :=
  .start () :: List.replicate n (.answer .ok) ++ moves.map .move ++
    List.replicate m (.answer .ok) ++ [.stop]

def orphanCleanupHarmlessRecreatedRun : PLift ((SweepLog.machine.run SweepLog.uncreated
      (fun _ : Unit => cleanupOrphanedBlueGreenRefs)
      ⟨(Sample.orphanWorld [Sample.labelledCandidate], .empty), none⟩
      (Sample.sweep 21 [.setOtherBgds [Sample.bgd .pending]] 0)).map
        (·.world.1.deployments) = some []) :=
  ⟨by decide +kernel⟩

/-- The candidate is cleaned up, and the object is created again after that. -/
theorem orphan_cleanup_harmless_recreated :
    ∃ s : Conf Call Answer ReconcileError (World × SweepLog),
      s.world.1.deployments = [] ∧ s.world.2.Harmless := by
  have hrun := orphanCleanupHarmlessRecreatedRun.down
  obtain ⟨s, r, hs⟩ := Machine.Run.exists_of_run hrun
  exact ⟨s, hs, orphan_cleanup_harmless r⟩

def liveCandidateDeletedRun :
    PLift ((SweepLog.machine.run Guard.top (fun _ : Unit => cleanupOrphanedBlueGreenRefs)
      ⟨(Sample.orphanWorld [], .empty), none⟩
      (Sample.sweep 1 [.setOtherBgds [Sample.bgd .pending],
        .setDeployments [Sample.labelledCandidate]] 10)).map
        (fun s => (s.world.1.existingKeys, s.world.1.deployments, s.world.2.harmed)) =
      some (["default/shop"], [], ["default/shop"])) :=
  ⟨by decide +kernel⟩

/-- An object created after the sweep has listed the objects loses its candidate. -/
theorem live_candidate_deleted :
    ¬ ∀ (w : World) (s : Conf Call Answer ReconcileError (World × SweepLog)),
      Machine.Run SweepLog.machine (fun _ : Unit => cleanupOrphanedBlueGreenRefs) Guard.top
        ⟨(w, .empty), none⟩ s → s.world.2.Harmless := by
  intro h
  have hrun := liveCandidateDeletedRun.down
  obtain ⟨s, r, hs⟩ := Machine.Run.exists_of_run hrun
  have hnone : s.world.2.harmed = [] := h _ s r
  simp [hnone] at hs

end FluidBG
