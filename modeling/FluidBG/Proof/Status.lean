import FluidBG.Proof.Footprint
/-!
# The object under the operator's hands

What a call and a move can do to the `BlueGreenDeployment`, said once. The user changes the spec
and deletes the object; the status is written by the operator alone, so between two calls of a
reconcile it stays what it was. `StatusIs` is the assertion that follows a status through a
reconcile; it is vacuous once the object is gone.
-/

set_option autoImplicit false

namespace FluidBG

open Lib

/-- The object, while it is there, has the status `st`. -/
def World.StatusIs (st : Option BlueGreenDeploymentStatus) (w : World) : Prop :=
  ∀ b, w.bgd = some b → b.status = st

/-- The object that is there. -/
def World.Has (b : BlueGreenDeployment) (w : World) : Prop := w.bgd = some b

theorem World.StatusIs.of_bgd_eq {st : Option BlueGreenDeploymentStatus} {w w' : World}
    (h : w.StatusIs st) (heq : w'.bgd = w.bgd) : w'.StatusIs st :=
  fun b hb => h b (heq ▸ hb)

/-! ## Calls -/

theorem World.respondStore_world {α : Type} {w w' : World} {o : Outcome}
    {r : Except StoreError α × World} {a : Except StoreError α}
    (h : w.respondStore o r = some (a, w')) : w' = w ∨ w' = r.2 := by
  cases o <;> simp [World.respondStore] at h
  · exact .inr (by rw [h])
  · exact .inl h.2.symm
  · exact .inr h.2.symm

/-- A success that is answered is the server's. -/
theorem World.respond_ok {α : Type} {w w' : World} {o : Outcome} {r : Except KubeError α × World}
    {a : α} (h : w.respond o r = some (.ok a, w')) : r = (.ok a, w') := by
  cases o <;> simp [World.respond] at h
  exact h

theorem World.createDeployment_bgd (w : World) (ns : String) (d : Deployment) :
    (w.createDeployment ns d).2.bgd = w.bgd := by
  unfold World.createDeployment
  split <;> rfl

theorem World.replaceDeployment_bgd (w : World) (ns name : String) (d : Deployment) :
    (w.replaceDeployment ns name d).2.bgd = w.bgd := by
  unfold World.replaceDeployment
  split
  · rfl
  · split <;> rfl

theorem World.applyDeployment_bgd (w : World) (ns name : String) (d : Deployment) :
    (w.applyDeployment ns name d).2.bgd = w.bgd := by
  unfold World.applyDeployment
  split <;> rfl

theorem World.deleteDeployment_bgd (w : World) (ns name : String) :
    (w.deleteDeployment ns name).2.bgd = w.bgd := by
  unfold World.deleteDeployment
  split <;> rfl

theorem World.applyResource_bgd (w : World) (kind : Kind) (ns name : String) (r : Resource) :
    (w.applyResource kind ns name r).2.bgd = w.bgd := by
  unfold World.applyResource
  dsimp only
  split <;> rfl

theorem World.deleteResource_bgd (w : World) (kind : Kind) (ns name : String) :
    (w.deleteResource kind ns name).2.bgd = w.bgd := by
  unfold World.deleteResource
  split <;> rfl

theorem World.storeResult_bgd {α : Type} (w : World) (r : Except StoreError (α × MemoryStore)) :
    (w.storeResult r).2.bgd = w.bgd := by
  cases r <;> rfl

/-- **A call of `Work` leaves the object alone.** -/
theorem World.serve_work {w w' : World} {c : Call} {o : Outcome} {a : Answer c} (hc : c.Work)
    (h : w.serve c o = some (a, w')) : w'.bgd = w.bgd := by
  cases c with
  | replaceStatus _ _ _ => exact absurd trivial hc
  | patchStatus _ _ _ => exact absurd trivial hc
  | patchFinalizers _ _ _ => exact absurd trivial hc
  | note _ => exact absurd trivial hc
  | createDeployment ns d =>
    rcases World.respond_world h with rfl | rfl
    exacts [rfl, w.createDeployment_bgd ns d]
  | replaceDeployment ns name d =>
    rcases World.respond_world h with rfl | rfl
    exacts [rfl, w.replaceDeployment_bgd ns name d]
  | applyDeployment ns name d =>
    rcases World.respond_world h with rfl | rfl
    exacts [rfl, w.applyDeployment_bgd ns name d]
  | deleteDeployment ns name =>
    rcases World.respond_world h with rfl | rfl
    exacts [rfl, w.deleteDeployment_bgd ns name]
  | applyResource kind ns name r =>
    rcases World.respond_world h with rfl | rfl
    exacts [rfl, w.applyResource_bgd kind ns name r]
  | deleteResource kind ns name =>
    rcases World.respond_world h with rfl | rfl
    exacts [rfl, w.deleteResource_bgd kind ns name]
  | cleanupBlueGreen key => rcases World.respondStore_world h with rfl | rfl <;> rfl
  | counts _ => rcases World.respondStore_world h with rfl | rfl <;> rfl
  | countsForMode _ _ => rcases World.respondStore_world h with rfl | rfl <;> rfl
  | latestFailureMessage _ => rcases World.respondStore_world h with rfl | rfl <;> rfl
  | listBlueGreenRefs => rcases World.respondStore_world h with rfl | rfl <;> rfl
  | register _ => rcases World.respondStore_world h with rfl | rfl <;> rfl
  | getCase _ _ => rcases World.respondStore_world h with rfl | rfl <;> rfl
  | listPending => rcases World.respondStore_world h with rfl | rfl <;> rfl
  | setVerdict _ _ _ _ =>
    rcases World.respondStore_world h with rfl | rfl
    exacts [rfl, w.storeResult_bgd _]
  | markTimedOut _ _ =>
    rcases World.respondStore_world h with rfl | rfl
    exacts [rfl, w.storeResult_bgd _]
  | decrementRetries _ _ =>
    rcases World.respondStore_world h with rfl | rfl
    exacts [rfl, w.storeResult_bgd _]
  | pollVerifier _ _ =>
    cases o <;> simp [World.serve] at h
    rw [h.2]
  | controlPlaneClient _ =>
    cases o <;> simp [World.serve] at h
    all_goals rw [h.2]
  | postManager _ _ _ =>
    cases o <;> simp [World.serve] at h
    rw [h.2]
  | postManagerSync _ _ _ =>
    cases o <;> simp [World.serve] at h
    rw [h.2]
  | postInceptor _ _ =>
    cases o <;> simp [World.serve] at h
    rw [h.2]
  | getDrainStatus _ _ =>
    cases o <;> simp [World.serve] at h
    rw [h.2]
  | postTraffic _ _ _ =>
    cases o <;> simp [World.serve] at h
    rw [h.2]
  | now =>
    cases o <;> simp [World.serve] at h
    rw [h.2]
  | sleep _ =>
    cases o <;> simp [World.serve] at h
    rw [h]
  | _ => rcases World.respond_world h with rfl | rfl <;> rfl

theorem World.findBgd_some {w : World} {ns name : String} {b : BlueGreenDeployment}
    (h : w.findBgd ns name = some b) :
    w.bgd = some b ∧ b.metadata.ns = ns ∧ b.metadata.name = name := by
  unfold World.findBgd at h
  simpa [Option.filter_eq_some_iff] using h

/-- Reading the object gives the object that is there. -/
theorem World.serve_getBgd {w w' : World} {ns name : String} {o : Outcome}
    {a : Except KubeError BlueGreenDeployment}
    (h : w.serve (.getBgd ns name) o = some (a, w')) :
    w' = w ∧ ∀ b, a = .ok b → w.bgd = some b ∧ b.metadata.ns = ns ∧ b.metadata.name = name := by
  cases o <;> simp only [World.serve, World.respond, Option.some.injEq, Prod.mk.injEq,
    reduceCtorEq] at h
  · refine ⟨h.2.symm, fun b hb => ?_⟩
    rw [← h.1] at hb
    unfold World.getBgd at hb
    cases hf : w.findBgd ns name with
    | none =>
      rw [hf] at hb
      simp [World.notFound] at hb
    | some b' =>
      rw [hf] at hb
      cases hb
      exact findBgd_some hf
  · refine ⟨h.2.symm, fun b hb => ?_⟩
    rw [← h.1] at hb
    simp at hb
  · refine ⟨h.2.symm, fun b hb => ?_⟩
    rw [← h.1] at hb
    simp at hb

/-- Replacing the status changes nothing, or puts the sent status in place of the one that has
been read. -/
theorem World.serve_replaceStatus {w w' : World} {ns name : String} {b : BlueGreenDeployment}
    {o : Outcome} {a : Except KubeError Unit}
    (h : w.serve (.replaceStatus ns name b) o = some (a, w')) :
    w' = w ∨ ∃ stored, w.bgd = some stored ∧
      b.metadata.resourceVersion = stored.metadata.resourceVersion ∧
      w' = w.writeBgd { stored with status := b.status } := by
  rcases World.respond_world h with rfl | rfl
  · exact .inl rfl
  · unfold World.replaceStatus
    cases hf : w.findBgd ns name with
    | none => exact .inl rfl
    | some stored =>
      by_cases hv : b.metadata.resourceVersion = stored.metadata.resourceVersion
      · exact .inr ⟨stored, (findBgd_some hf).1, hv, by simp only [if_pos hv]⟩
      · exact .inl (by simp only [if_neg hv])

/-- A status patch changes nothing, or is merged into the status that is there. -/
theorem World.serve_patchStatus {w w' : World} {ns name : String} {patch : StatusPatch}
    {o : Outcome} {a : Except KubeError Unit}
    (h : w.serve (.patchStatus ns name patch) o = some (a, w')) :
    w' = w ∨ ∃ stored, w.bgd = some stored ∧
      w' = w.writeBgd { stored with
        status := some (patch.apply (stored.status.getD .default)) } := by
  rcases World.respond_world h with rfl | rfl
  · exact .inl rfl
  · unfold World.patchStatus
    cases hf : w.findBgd ns name with
    | none => exact .inl rfl
    | some stored => exact .inr ⟨stored, (findBgd_some hf).1, rfl⟩

/-- Patching the finalizers keeps the status, or removes the object. -/
theorem World.serve_patchFinalizers {w w' : World} {ns name : String} {finalizers : List String}
    {o : Outcome} {a : Except KubeError Unit}
    (h : w.serve (.patchFinalizers ns name finalizers) o = some (a, w')) :
    w' = w ∨ w' = { w with bgd := none } ∨ ∃ stored, w.bgd = some stored ∧
      w' = w.writeBgd
        { stored with metadata := { stored.metadata with finalizers := finalizers } } := by
  rcases World.respond_world h with rfl | rfl
  · exact .inl rfl
  · unfold World.patchFinalizers
    cases hf : w.findBgd ns name with
    | none => exact .inl rfl
    | some stored =>
      dsimp only
      split
      · exact .inr (.inl rfl)
      · exact .inr (.inr ⟨stored, (findBgd_some hf).1, rfl⟩)

theorem World.serve_note {w w' : World} {n : Note} {o : Outcome} {a : Unit}
    (h : w.serve (.note n) o = some (a, w')) : w' = w := by
  cases o <;> simp [World.serve] at h
  exact h.symm

/-- A call leaves the object its identity, and does not take its deletion back. -/
theorem World.serve_bgd {w w' : World} {c : Call} {o : Outcome} {a : Answer c}
    (h : w.serve c o = some (a, w'))
    {b' : BlueGreenDeployment} (hb : w'.bgd = some b') :
    ∃ b, w.bgd = some b ∧ b'.metadata.ns = b.metadata.ns ∧ b'.metadata.name = b.metadata.name ∧
      b'.metadata.uid = b.metadata.uid ∧
      b'.metadata.deletionTimestamp = b.metadata.deletionTimestamp := by
  cases c with
  | replaceStatus ns name b =>
    rcases serve_replaceStatus h with rfl | ⟨stored, hstored, -, rfl⟩
    · exact ⟨b', hb, rfl, rfl, rfl, rfl⟩
    · cases hb
      exact ⟨stored, hstored, rfl, rfl, rfl, rfl⟩
  | patchStatus ns name patch =>
    rcases serve_patchStatus h with rfl | ⟨stored, hstored, rfl⟩
    · exact ⟨b', hb, rfl, rfl, rfl, rfl⟩
    · cases hb
      exact ⟨stored, hstored, rfl, rfl, rfl, rfl⟩
  | patchFinalizers ns name finalizers =>
    rcases serve_patchFinalizers h with rfl | rfl | ⟨stored, hstored, rfl⟩
    · exact ⟨b', hb, rfl, rfl, rfl, rfl⟩
    · cases hb
    · cases hb
      exact ⟨stored, hstored, rfl, rfl, rfl, rfl⟩
  | note n => rw [serve_note h] at hb; exact ⟨b', hb, rfl, rfl, rfl, rfl⟩
  | _ =>
    refine ⟨b', ?_, rfl, rfl, rfl, rfl⟩
    rw [← hb]
    refine (serve_work ?_ h).symm
    exact fun hc => hc

/-- At most the object, the Deployments, the other objects and the store have changed. -/
def World.Leaves (w w' : World) : Prop :=
  ∃ bgd deployments resources store nextVersion, w' = { w with
    bgd := bgd
    deployments := deployments
    resources := resources
    store := store
    nextVersion := nextVersion }

theorem World.Leaves.refl (w : World) : w.Leaves w := ⟨_, _, _, _, _, rfl⟩

theorem World.Leaves.plugins {w w' : World} (h : w.Leaves w') : w'.plugins = w.plugins := by
  obtain ⟨_, _, _, _, _, rfl⟩ := h
  rfl

theorem World.storeResult_leaves {α : Type} (w : World)
    (r : Except StoreError (α × MemoryStore)) : w.Leaves (w.storeResult r).2 := by
  cases r <;> exact ⟨_, _, _, _, _, rfl⟩

/-- **No call touches anything else.** -/
theorem World.serve_leaves {w w' : World} {c : Call} {o : Outcome} {a : Answer c}
    (h : w.serve c o = some (a, w')) : w.Leaves w' := by
  cases c with
  | replaceStatus ns name b =>
    rcases serve_replaceStatus h with rfl | ⟨stored, -, -, rfl⟩
    exacts [.refl _, ⟨_, _, _, _, _, rfl⟩]
  | patchStatus ns name patch =>
    rcases serve_patchStatus h with rfl | ⟨stored, -, rfl⟩
    exacts [.refl _, ⟨_, _, _, _, _, rfl⟩]
  | patchFinalizers ns name finalizers =>
    rcases serve_patchFinalizers h with rfl | rfl | ⟨stored, -, rfl⟩
    exacts [.refl _, ⟨_, _, _, _, _, rfl⟩, ⟨_, _, _, _, _, rfl⟩]
  | createDeployment ns d =>
    rcases respond_world h with rfl | rfl
    · exact .refl _
    · unfold World.createDeployment
      split <;> exact ⟨_, _, _, _, _, rfl⟩
  | replaceDeployment ns name d =>
    rcases respond_world h with rfl | rfl
    · exact .refl _
    · unfold World.replaceDeployment
      split
      · exact .refl w
      · split <;> exact ⟨_, _, _, _, _, rfl⟩
  | applyDeployment ns name d =>
    rcases respond_world h with rfl | rfl
    · exact .refl _
    · unfold World.applyDeployment
      split <;> exact ⟨_, _, _, _, _, rfl⟩
  | deleteDeployment ns name =>
    rcases respond_world h with rfl | rfl
    · exact .refl _
    · unfold World.deleteDeployment
      split <;> exact ⟨_, _, _, _, _, rfl⟩
  | applyResource kind ns name r =>
    rcases respond_world h with rfl | rfl
    · exact .refl _
    · unfold World.applyResource
      dsimp only
      split <;> exact ⟨_, _, _, _, _, rfl⟩
  | deleteResource kind ns name =>
    rcases respond_world h with rfl | rfl
    · exact .refl _
    · unfold World.deleteResource
      split <;> exact ⟨_, _, _, _, _, rfl⟩
  | setVerdict _ _ _ _ | markTimedOut _ _ | decrementRetries _ _ =>
    rcases respondStore_world h with rfl | rfl
    exacts [.refl _, w.storeResult_leaves _]
  | cleanupBlueGreen _ | counts _ | countsForMode _ _ | latestFailureMessage _
  | listBlueGreenRefs | register _ | getCase _ _ | listPending =>
    rcases respondStore_world h with rfl | rfl
    exacts [.refl _, ⟨_, _, _, _, _, rfl⟩]
  | pollVerifier _ _ | controlPlaneClient _ | postManager _ _ _ | postManagerSync _ _ _
  | postInceptor _ _ | getDrainStatus _ _ | postTraffic _ _ _ | now | sleep _ | note _ =>
    cases o <;> cases h
    all_goals exact .refl _
  | _ =>
    rcases respond_world h with rfl | rfl
    exacts [.refl _, .refl _]

/-- **No other call changes the accompanying objects.** -/
theorem World.serve_resources {w w' : World} {c : Call} {o : Outcome} {a : Answer c}
    (hc : ¬ c.TouchesResources) (h : w.serve c o = some (a, w')) : w'.resources = w.resources := by
  cases c with
  | applyResource _ _ _ _ | deleteResource _ _ _ => exact absurd trivial hc
  | replaceStatus ns name b =>
    rcases serve_replaceStatus h with rfl | ⟨stored, -, -, rfl⟩ <;> rfl
  | patchStatus ns name patch =>
    rcases serve_patchStatus h with rfl | ⟨stored, -, rfl⟩ <;> rfl
  | patchFinalizers ns name finalizers =>
    rcases serve_patchFinalizers h with rfl | rfl | ⟨stored, -, rfl⟩ <;> rfl
  | createDeployment ns d =>
    rcases respond_world h with rfl | rfl
    · rfl
    · unfold World.createDeployment
      split <;> rfl
  | replaceDeployment ns name d =>
    rcases respond_world h with rfl | rfl
    · rfl
    · unfold World.replaceDeployment
      split
      · rfl
      · split <;> rfl
  | applyDeployment ns name d =>
    rcases respond_world h with rfl | rfl
    · rfl
    · unfold World.applyDeployment
      split <;> rfl
  | deleteDeployment ns name =>
    rcases respond_world h with rfl | rfl
    · rfl
    · unfold World.deleteDeployment
      split <;> rfl
  | setVerdict _ _ _ _ | markTimedOut _ _ | decrementRetries _ _ =>
    rcases respondStore_world h with rfl | rfl
    · rfl
    · unfold World.storeResult
      split <;> rfl
  | cleanupBlueGreen _ | counts _ | countsForMode _ _ | latestFailureMessage _
  | listBlueGreenRefs | register _ | getCase _ _ | listPending =>
    rcases respondStore_world h with rfl | rfl <;> rfl
  | pollVerifier _ _ | controlPlaneClient _ | postManager _ _ _ | postManagerSync _ _ _
  | postInceptor _ _ | getDrainStatus _ _ | postTraffic _ _ _ | now | sleep _ | note _ =>
    cases o <;> cases h
    all_goals rfl
  | _ => rcases respond_world h with rfl | rfl <;> rfl

theorem World.getResource_eq_ok {w : World} {kind : Kind} {ns name : String} {r : Resource} :
    w.getResource kind ns name = .ok r ↔
      w.resources.find? (fun r => World.IsResource kind ns name r) = some r := by
  unfold World.getResource
  cases h : w.resources.find? (fun r => World.IsResource kind ns name r) with
  | none => simp [World.notFound]
  | some r' => simp

section Finding

variable {w : World} {kind kind' : Kind} {ns ns' name name' : String}

/-- An object is not found under two names. -/
theorem World.IsResource.unique {r : Resource} (h : World.IsResource kind' ns' name' r)
    (h' : World.IsResource kind ns name r) : kind' = kind ∧ ns' = ns ∧ name' = name :=
  ⟨h.1.symm.trans h'.1, h.2.1.symm.trans h'.2.1, h.2.2.symm.trans h'.2.2⟩

/-- Writing an object changes nothing under another name. -/
theorem World.applyResource_find (r : Resource) (hne : ¬ (kind' = kind ∧ ns' = ns ∧ name' = name)) :
    (w.applyResource kind' ns' name' r).2.resources.find?
        (fun r => World.IsResource kind ns name r) =
      w.resources.find? (fun r => World.IsResource kind ns name r) := by
  have hother (s : Resource) (hkey : World.IsResource kind' ns' name' s) :
      ¬ World.IsResource kind ns name s := fun h => hne (hkey.unique h)
  unfold World.applyResource
  dsimp only
  split
  · rw [List.find?_append, List.find?_singleton, if_neg, Option.or_none]
    simpa using hother _ ⟨rfl, rfl, rfl⟩
  · rename_i stored _
    induction w.resources with
    | nil => rfl
    | cons s rs ih =>
      rw [List.map_cons]
      by_cases hkey : World.IsResource kind' ns' name' s
      · rw [if_pos hkey, List.find?_cons_of_neg (by simpa using hother _ ⟨rfl, rfl, rfl⟩),
          List.find?_cons_of_neg (by simpa using hother s hkey), ih]
      · rw [if_neg hkey, List.find?_cons, List.find?_cons, ih]

/-- Deleting an object puts none in place. -/
theorem World.deleteResource_find {r : Resource}
    (h : (w.deleteResource kind' ns' name').2.resources.find?
      (fun r => World.IsResource kind ns name r) = some r) :
      w.resources.find? (fun r => World.IsResource kind ns name r) = some r := by
  unfold World.deleteResource at h
  split at h
  · exact h
  · dsimp only at h
    rw [List.find?_filter] at h
    have hfound := List.find?_some h
    simp only [decide_eq_true_eq] at hfound
    rw [← h]
    congr 1
    funext s
    by_cases hkey : World.IsResource kind ns name s
    · have hkept : ¬ World.IsResource kind' ns' name' s := by
        intro h'
        obtain ⟨rfl, rfl, rfl⟩ := h'.unique hkey
        exact hfound.1 hfound.2
      simp [hkey, hkept]
    · simp [hkey]

end Finding

/-- **An object that can be read was there before**, unless the call has put it there. -/
theorem World.getResource_of_serve {w w' : World} {c : Call} {o : Outcome} {a : Answer c}
    {kind : Kind} {ns name : String} {r : Resource} (h : w.serve c o = some (a, w'))
    (hc : ∀ r', c ≠ .applyResource kind ns name r')
    (hr : w'.getResource kind ns name = .ok r) : w.getResource kind ns name = .ok r := by
  rw [World.getResource_eq_ok] at hr ⊢
  by_cases htouches : c.TouchesResources
  · cases c with
    | applyResource kind' ns' name' placed =>
      rcases respond_world h with rfl | rfl
      · exact hr
      · rwa [World.applyResource_find] at hr
        rintro ⟨rfl, rfl, rfl⟩
        exact hc placed rfl
    | deleteResource kind' ns' name' =>
      rcases respond_world h with rfl | rfl
      · exact hr
      · exact World.deleteResource_find hr
    | _ => exact htouches.elim
  · rwa [World.serve_resources htouches h] at hr

/-! ## Moves -/

/-- Between two calls the object may be edited or deleted; its status and its identity stay, and a
new spec is a new generation. -/
theorem World.move_bgd {w w' : World} {v : Move} (h : w.move v = some w')
    {b' : BlueGreenDeployment} (hb : w'.bgd = some b') :
    ∃ b, w.bgd = some b ∧ b'.status = b.status ∧ b'.metadata.ns = b.metadata.ns ∧
      b'.metadata.name = b.metadata.name ∧ b'.metadata.uid = b.metadata.uid ∧
      b.metadata.generation.getD 0 ≤ b'.metadata.generation.getD 0 ∧
      (b'.metadata.generation.getD 0 = b.metadata.generation.getD 0 → b'.spec = b.spec) := by
  have hsame (heq : w'.bgd = w.bgd) : ∃ b, w.bgd = some b ∧ b'.status = b.status ∧
      b'.metadata.ns = b.metadata.ns ∧ b'.metadata.name = b.metadata.name ∧
      b'.metadata.uid = b.metadata.uid ∧
      b.metadata.generation.getD 0 ≤ b'.metadata.generation.getD 0 ∧
      (b'.metadata.generation.getD 0 = b.metadata.generation.getD 0 → b'.spec = b.spec) :=
    ⟨b', heq ▸ hb, rfl, rfl, rfl, rfl, le_refl _, fun _ => rfl⟩
  cases v with
  | editSpec spec =>
    simp only [World.move, World.editSpec, Option.map_eq_some_iff] at h
    obtain ⟨b, hw, rfl⟩ := h
    cases hb
    exact ⟨b, hw, rfl, rfl, rfl, rfl, by simp, by simp⟩
  | delete =>
    simp only [World.move, World.delete, Option.map_eq_some_iff] at h
    obtain ⟨b, hw, rfl⟩ := h
    split at hb
    · simp at hb
    · cases hb
      exact ⟨b, hw, rfl, rfl, rfl, rfl, by simp, fun _ => rfl⟩
  | setVerdict r t p m =>
    simp only [World.move] at h
    split at h <;> simp at h
    exact hsame (by rw [← h])
  | markTimedOut r t =>
    simp only [World.move] at h
    split at h <;> simp at h
    exact hsame (by rw [← h])
  | _ =>
    simp only [World.move, Option.some.injEq] at h
    exact hsame (by rw [← h])

theorem World.StatusIs.move {st : Option BlueGreenDeploymentStatus} {w w' : World} {v : Move}
    (hst : w.StatusIs st) (h : w.move v = some w') : w'.StatusIs st := by
  intro b' hb'
  obtain ⟨b, hb, hstatus, -⟩ := World.move_bgd h hb'
  rw [hstatus, hst b hb]

end FluidBG
