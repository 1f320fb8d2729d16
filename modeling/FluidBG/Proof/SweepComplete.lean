import FluidBG.Proof.Ownership
/-!
# What a sweep leaves

A sweep that comes to its end has removed every object and every record whose key is not the key of
an existing `BlueGreenDeployment`, and nothing else. The keys are made of a namespace and a name.
The labels also tell the uid, and so does the check before a generated resource is applied. Where an
object has been replaced by another of the same name, the sweep takes the leftovers of the old one
for those of the new one, and the new one is refused the names they sit on.
-/

set_option autoImplicit false

namespace FluidBG

open Lib

namespace World

/-- The objects there are. -/
def bgds (w : World) : List BlueGreenDeployment := w.bgd.toList ++ w.otherBgds

/-- `w` is `w₀` with some objects and records missing. -/
structure Within (w₀ w : World) : Prop where
  bgds : w.bgds = w₀.bgds
  namespaces : w.namespaces = w₀.namespaces
  deployments : ∀ d ∈ w.deployments, d ∈ w₀.deployments
  resources : ∀ r ∈ w.resources, r ∈ w₀.resources
  records : ∀ run ∈ w.store.records, run ∈ w₀.store.records

theorem Within.refl (w : World) : Within w w := by
  constructor
  · rfl
  · rfl
  · intro d h
    exact h
  · intro r h
    exact h
  · intro run h
    exact h

theorem Within.trans {w₀ w₁ w₂ : World} (h : Within w₀ w₁) (h' : Within w₁ w₂) :
    Within w₀ w₂ where
  bgds := h'.bgds.trans h.bgds
  namespaces := h'.namespaces.trans h.namespaces
  deployments d hd := h.deployments d (h'.deployments d hd)
  resources r hr := h.resources r (h'.resources r hr)
  records run hrun := h.records run (h'.records run hrun)

theorem Within.existingKeys {w₀ w : World} (h : Within w₀ w) :
    w.existingKeys = w₀.existingKeys := by
  unfold World.existingKeys
  rw [show w.bgd.toList ++ w.otherBgds = w₀.bgd.toList ++ w₀.otherBgds from h.bgds]

/-- Nothing is left under the key. -/
structure Clear (key : String) (w : World) : Prop where
  deployments : ∀ d ∈ w.deployments, ownerKey d.metadata.ns d.metadata.labels ≠ some key
  resources : ∀ r ∈ w.resources, ownerKey r.metadata.ns r.metadata.labels ≠ some key
  records : ∀ run ∈ w.store.records, run.blueGreenRef ≠ key

theorem Clear.within {key : String} {w w' : World} (h : Clear key w) (hw : Within w w') :
    Clear key w' where
  deployments d hd := h.deployments d (hw.deployments d hd)
  resources r hr := h.resources r (hw.resources r hr)
  records run hrun := h.records run (hw.records run hrun)

/-- Every object lives in a namespace that is listed, and the names of namespaces have no slash. -/
structure Housed (w : World) : Prop where
  deployments : ∀ d ∈ w.deployments, d.metadata.ns ∈ w.namespaces
  resources : ∀ r ∈ w.resources, r.metadata.ns ∈ w.namespaces
  slashless : ∀ ns ∈ w.namespaces, '/' ∉ ns.toList

theorem Housed.within {w₀ w : World} (h : Housed w₀) (hw : Within w₀ w) : Housed w := by
  constructor
  · intro d hd
    rw [hw.namespaces]
    exact h.deployments d (hw.deployments d hd)
  · intro r hr
    rw [hw.namespaces]
    exact h.resources r (hw.resources r hr)
  · rw [hw.namespaces]
    exact h.slashless

end World

/-! ## Steps of a sweep -/

/-- The call deletes something. -/
def Call.Deletes : Call → Prop
  | .deleteDeployment _ _ | .deleteResource _ _ _ | .cleanupBlueGreen _ => True
  | _ => False

/-- The call reads, deletes or waits. -/
def Call.Trims (c : Call) : Prop := c.ReadOnly ∨ c.Deletes

theorem World.within_deleteDeployment (w : World) (ns name : String) :
    World.Within w (w.deleteDeployment ns name).2 := by
  unfold World.deleteDeployment
  split
  · exact .refl w
  · exact { World.Within.refl w with deployments := fun d hd => List.mem_of_mem_filter hd }

theorem World.within_deleteResource (w : World) (kind : Kind) (ns name : String) :
    World.Within w (w.deleteResource kind ns name).2 := by
  unfold World.deleteResource
  split
  · exact .refl w
  · exact { World.Within.refl w with resources := fun r hr => List.mem_of_mem_filter hr }

theorem World.within_cleanupBlueGreen (w : World) (key : String) :
    World.Within w { w with store := (w.store.cleanupBlueGreen key).2 } :=
  { World.Within.refl w with records := fun _ hrun => List.mem_of_mem_filter hrun }

theorem Call.Deletes.serve {c : Call} (h : c.Deletes) {w w' : World} {o : Outcome} {a : Answer c}
    (hs : w.serve c o = some (a, w')) : World.Within w w' := by
  cases c with
  | deleteDeployment ns name =>
    rcases World.respond_world hs with rfl | rfl
    · exact .refl w'
    · exact w.within_deleteDeployment ns name
  | deleteResource kind ns name =>
    rcases World.respond_world hs with rfl | rfl
    · exact .refl w'
    · exact w.within_deleteResource kind ns name
  | cleanupBlueGreen key =>
    cases o <;> simp [World.serve, World.respondStore] at hs
    · exact hs.2 ▸ w.within_cleanupBlueGreen key
    · exact hs.2 ▸ .refl w
    · exact hs.2 ▸ w.within_cleanupBlueGreen key
  | _ => exact h.elim

/-- **A step of a sweep only removes.** -/
theorem Call.Trims.serve {c : Call} (h : c.Trims) {w w' : World} {o : Outcome} {a : Answer c}
    (hs : w.serve c o = some (a, w')) : World.Within w w' := by
  rcases h with hread | hdeletes
  · rw [hread.serve hs]
    exact .refl w
  · exact hdeletes.serve hs

/-- What holds of a sweep by itself: it only removes. -/
abbrev trimming (w₀ : World) : Contract Call World := ⟨World.Within w₀, fun _ _ => True⟩

section Programs

variable {w₀ w : World} {α β : Type}

/-- Code of a sweep leads from a world to one within it. -/
theorem trims_spec {p : Op α} (hp : p.Calls Call.Trims) (hw : World.Within w₀ w) :
    (cluster.outside Guard.still).Spec (trimming w₀) (fun _ => World.Within w)
      (fun _ => World.Within w) p w := by
  have hstable : (cluster.outside Guard.still).Stable (World.Within w) :=
    fun _ _ _ hm => absurd hm.choose_spec.1 id
  refine (Outside.Spec.of_calls hp hstable (.refl w) hw (fun _ _ _ _ _ => trivial)
    fun w₁ c a w₂ hc hi h ⟨o, _, hs⟩ => ?_).mono (fun _ _ h => h.1) fun _ _ h => h.1
  have hstep := hc.serve hs
  exact ⟨hi.trans hstep, h.trans hstep⟩

/-- Undisturbed from `w`, the code changes nothing, and what it returns meets `V`. -/
def Finds (w₀ w : World) (p : Op α) (V : α → Prop) : Prop :=
  (cluster.outside Guard.still).Spec (trimming w₀) (fun a w' => w' = w ∧ V a) (fun _ _ => True) p w

namespace Finds

theorem pure {V : α → Prop} {a : α} (h : V a) : Finds w₀ w (.pure a) V := ⟨rfl, h⟩

theorem bind {V : α → Prop} {U : β → Prop} {p : Op α} {f : α → Op β} (hp : Finds w₀ w p V)
    (hf : ∀ a, V a → Finds w₀ w (f a) U) : Finds w₀ w (p.bind f) U := by
  refine Outside.Spec.bind hp fun a w' h => ?_
  obtain ⟨rfl, ha⟩ := h
  exact hf a ha

theorem mono {V U : α → Prop} {p : Op α} (hp : Finds w₀ w p V) (h : ∀ a, V a → U a) :
    Finds w₀ w p U :=
  Outside.Spec.mono hp (fun a _ ha => ⟨ha.1, h a ha.2⟩) fun _ _ h => h

/-- A call that reads. -/
theorem ask {c : Call} {V : Answer c → Prop} (hw : World.Within w₀ w) (hc : c.ReadOnly)
    (h : ∀ o a w', w.serve c o = some (a, w') → V a) : Finds w₀ w (Op.ask c) V := by
  refine Outside.Spec.ask trivial fun a w' ⟨o, _, hs⟩ => ?_
  have hsame := hc.serve hs
  subst hsame
  refine ⟨hw, fun w'' hl _ => ?_⟩
  rw [Machine.later_still hl]
  exact ⟨rfl, h o a w' hs⟩

/-- The value of a request that may not fail. -/
theorem kube {V : α → Prop} {r : Except KubeError α} (h : ∀ a, r = .ok a → V a) :
    Finds w₀ w (Op.kube r) V := by
  cases r with
  | ok a => exact ⟨rfl, h a rfl⟩
  | error e => exact trivial

theorem stateStore {V : α → Prop} {r : Except StoreError α} (h : ∀ a, r = .ok a → V a) :
    Finds w₀ w (Op.stateStore r) V := by
  cases r with
  | ok a => exact ⟨rfl, h a rfl⟩
  | error e => exact trivial

/-- A loop whose turns read computes the fold of what they find. -/
theorem foldEach {xs : List α} {acc : β} {body : β → α → Op β} {f : β → α → β}
    (h : ∀ b, ∀ x ∈ xs, Finds w₀ w (body b x) (· = f b x)) :
    Finds w₀ w (Prog.foldEach xs acc body) (· = xs.foldl f acc) := by
  induction xs generalizing acc with
  | nil => exact ⟨rfl, rfl⟩
  | cons x xs ih =>
    refine (h acc x (by simp)).bind fun b hb => ?_
    subst hb
    exact ih fun b y hy => h b y (by simp [hy])

end Finds

end Programs

/-! ## What the sweep finds -/

/-- An answer of the API server that is not an error is what the cluster says. -/
theorem World.respond_value {α : Type} {w w' : World} {o : Outcome} {v x : α}
    {r : Except KubeError α} (hs : w.respond o (.ok v, w) = some (r, w')) (hx : r = .ok x) :
    x = v := by
  subst hx
  cases o <;> simp [World.respond] at hs
  exact hs.1.symm

section Finding

variable {w₀ w : World} {α β : Type}

/-- A request to the API server that only reads. -/
theorem Finds.read {c : Call} {f : Answer c → Except KubeError α} {value : α} {k : α → Op β}
    {U : β → Prop} (hw : World.Within w₀ w) (hc : c.ReadOnly)
    (hvalue : ∀ o r w', w.serve c o = some (r, w') → ∀ x, f r = .ok x → x = value)
    (hk : Finds w₀ w (k value) U) :
    Finds w₀ w (Prog.bind (Op.ask c) fun r => Prog.bind (Op.kube (f r)) k) U := by
  refine Finds.bind (V := fun r => ∀ x, f r = .ok x → x = value) (.ask hw hc hvalue) fun r hr => ?_
  refine Finds.bind (.kube hr) fun x hx => ?_
  subst hx
  exact hk

theorem finds_existing (hw : World.Within w₀ w) : Finds w₀ w existingBlueGreenKeys
    fun existing => ∀ key, key ∈ existing.keys ↔ key ∈ w.existingKeys := by
  refine Finds.read hw trivial (fun _ _ _ hs _ hx => World.respond_value hs hx) ?_
  refine .pure fun key => ?_
  rw [OrdMap.mem_keys_ofList, List.map_map]
  rfl

/-- **The references in a namespace**, of the objects of every kind. -/
theorem finds_refsIn (hw : World.Within w₀ w) (ns : String) :
    Finds w₀ w (blueGreenRefsFromOwnedResources ns) (· = w.refsIn ns) := by
  refine Finds.read hw trivial (fun _ _ _ hs _ hx => World.respond_value hs hx) ?_
  refine Finds.foldEach fun refs kind _ => ?_
  exact Finds.read hw trivial (fun _ _ _ hs _ hx => World.respond_value hs hx) (.pure rfl)

theorem finds_ownedRefs (hw : World.Within w₀ w) :
    Finds w₀ w blueGreenRefsFromOwnedResourcesAll (· = w.ownedRefs) := by
  refine Finds.read hw trivial (fun _ _ _ hs _ hx => World.respond_value hs hx) ?_
  refine Finds.foldEach fun refs ns _ => ?_
  refine (finds_refsIn hw ns).bind fun names hnames => ?_
  subst hnames
  exact .pure rfl

/-- **The candidates of a sweep**: the keys of the records, and those of the objects. -/
theorem finds_candidates (hw : World.Within w₀ w) : Finds w₀ w collectOrphanCandidates
    fun refs => (∀ run ∈ w.store.records, run.blueGreenRef ∈ refs.keys) ∧
      ∀ key ∈ w.ownedRefs.keys, key ∈ refs.keys := by
  refine Finds.bind (V := fun r => ∀ refs, r = .ok refs → refs = w.store.listBlueGreenRefs.keys) ?_
    fun r hr => ?_
  · refine .ask hw trivial fun o r w' hs refs hrefs => ?_
    subst hrefs
    cases o <;> simp [World.serve, World.respondStore] at hs
    exact hs.1.symm
  refine Finds.bind (.stateStore hr) fun refs hrefs => ?_
  subst hrefs
  refine (finds_ownedRefs hw).bind fun owned howned => ?_
  subst howned
  refine .pure ⟨fun run hrun => ?_, fun key hkey => ?_⟩
  · refine OrdMap.mem_keys_insertAll.mpr (.inl ?_)
    rw [OrdMap.mem_keys_ofList, List.map_map]
    refine List.mem_map.mpr ⟨run.blueGreenRef, ?_, rfl⟩
    unfold MemoryStore.listBlueGreenRefs
    rw [OrdMap.mem_keys_ofList, List.map_map]
    exact List.mem_map.mpr ⟨run, hrun, rfl⟩
  · exact OrdMap.mem_keys_insertAll.mpr (.inr hkey)

end Finding

/-! ## What the sweep clears -/

/-- Nothing in the namespace carries the reference. -/
structure World.Bare (ns ref : String) (w : World) : Prop where
  deployments : ∀ d ∈ w.deployments, d.metadata.ns = ns →
    d.metadata.labels.get "fluidbg.io/blue-green-ref" ≠ some ref
  resources : ∀ r ∈ w.resources, r.metadata.ns = ns →
    r.metadata.labels.get "fluidbg.io/blue-green-ref" ≠ some ref

section Clearing

variable {w₀ w : World} {ns ref key : String}

/-- The number of objects that carry the labels. -/
def World.labelled (w : World) (ns : String) (selector : LabelSelector) : Nat :=
  (selectDeployments w.deployments ns selector).length +
    (selectResources w.resources .service ns selector).length +
    (selectResources w.resources .configMap ns selector).length +
    (selectResources w.resources .secret ns selector).length +
    (selectResources w.resources .pod ns selector).length

theorem finds_countLabelled (hw : World.Within w₀ w) (ns : String) (selector : LabelSelector) :
    Finds w₀ w (countLabelled ns selector) (· = w.labelled ns selector) := by
  refine Finds.read hw trivial (fun _ _ _ hs _ hx => World.respond_value hs hx) ?_
  refine Finds.read hw trivial (fun _ _ _ hs _ hx => World.respond_value hs hx) ?_
  refine Finds.read hw trivial (fun _ _ _ hs _ hx => World.respond_value hs hx) ?_
  refine Finds.read hw trivial (fun _ _ _ hs _ hx => World.respond_value hs hx) ?_
  refine Finds.read hw trivial (fun _ _ _ hs _ hx => World.respond_value hs hx) ?_
  exact .pure rfl

theorem World.bare_of_labelled (h : w.labelled ns (blueGreenRefSelector ref) = 0) :
    w.Bare ns ref := by
  unfold World.labelled at h
  constructor
  · intro d hd hns href
    have hmem : d ∈ selectDeployments w.deployments ns (blueGreenRefSelector ref) := by
      refine List.mem_filter.mpr ⟨hd, ?_⟩
      simp [hns, blueGreenRefSelector_matches, href]
    have hpos := List.length_pos_of_mem hmem
    omega
  · intro r hr hns href
    have hmem : r ∈ selectResources w.resources r.kind ns (blueGreenRefSelector ref) := by
      refine List.mem_filter.mpr ⟨hr, ?_⟩
      simp [hns, blueGreenRefSelector_matches, href]
    have hpos := List.length_pos_of_mem hmem
    cases hkind : r.kind <;> rw [hkind] at hpos <;> omega

/-- **The wait ends well only when nothing is left.** -/
theorem wait_finds (hw : World.Within w₀ w) (ns ref : String) :
    Finds w₀ w (waitForBlueGreenResourcesDeleted ns ref) fun _ => w.Bare ns ref := by
  refine Outside.Spec.retry (P := (· = w)) rfl (fun _ w' heq => ?_) fun _ _ => trivial
  subst heq
  refine Outside.Spec.bind (finds_countLabelled hw ns (blueGreenRefSelector ref)) fun n w' h => ?_
  obtain ⟨rfl, rfl⟩ := h
  by_cases hzero : w'.labelled ns (blueGreenRefSelector ref) = 0
  · rw [if_pos hzero]
    exact ⟨rfl, World.bare_of_labelled hzero⟩
  · rw [if_neg hzero]
    have hsleep : Finds w₀ w' (Op.ask (.sleep 1)) fun _ => True :=
      .ask hw trivial fun _ _ _ _ => trivial
    refine Outside.Spec.bind hsleep fun _ w'' h => ?_
    exact h.1

/-- The parts of a key come apart again where the namespace has no slash. -/
theorem split_key (hns : '/' ∉ ns.toList) (ref : String) :
    splitBlueGreenStateKey (blueGreenStateKey ns ref) = .ok (ns, ref) := by
  have hlist : (blueGreenStateKey ns ref).toList = ns.toList ++ '/' :: ref.toList := by
    simp [blueGreenStateKey, toString]
  have htake : (ns.toList ++ '/' :: ref.toList).takeWhile (· ≠ '/') = ns.toList := by
    rw [List.takeWhile_append_of_pos]
    · simp
    · intro c hc
      simp only [ne_eq, decide_eq_true_eq]
      intro heq
      subst heq
      exact hns hc
  unfold splitBlueGreenStateKey splitOnce
  simp only [hlist, htake, List.drop_left]
  simp

/-- What is bare of the reference has nothing under the key. -/
theorem World.Bare.deployments_key (h : w.Bare ns ref) (hw : w.Housed)
    (hsplit : splitBlueGreenStateKey key = .ok (ns, ref)) :
    (∀ d ∈ w.deployments, ownerKey d.metadata.ns d.metadata.labels ≠ some key) ∧
      ∀ r ∈ w.resources, ownerKey r.metadata.ns r.metadata.labels ≠ some key := by
  have hparts {ns' : String} {labels : Labels} (hslash : '/' ∉ ns'.toList)
      (howner : ownerKey ns' labels = some key) :
      ns' = ns ∧ labels.get "fluidbg.io/blue-green-ref" = some ref := by
    obtain ⟨ref', href, hkey⟩ := Option.map_eq_some_iff.mp howner
    rw [← hkey, split_key hslash] at hsplit
    cases hsplit
    exact ⟨rfl, href⟩
  constructor
  · intro d hd howner
    obtain ⟨hns, href⟩ := hparts (hw.slashless _ (hw.deployments d hd)) howner
    exact h.deployments d hd hns href
  · intro r hr howner
    obtain ⟨hns, href⟩ := hparts (hw.slashless _ (hw.resources r hr)) howner
    exact h.resources r hr hns href

/-! ### The deletions -/

theorem deleteDeployment_trims (ns name : String) :
    (deleteDeployment ns name).Calls Call.Trims := by
  refine (ask_calls (.inr trivial)).bind fun r => ?_
  rcases r with e | _
  · cases e <;> trivial
  · trivial

theorem deleteResource_trims (kind : Kind) (ns name : String) :
    (deleteResource kind ns name).Calls Call.Trims := by
  refine (ask_calls (.inr trivial)).bind fun r => ?_
  rcases r with e | _
  · cases e <;> trivial
  · trivial

theorem deleteLabelledResources_trims (kind : Kind) (ns : String) (selector : LabelSelector) :
    (deleteLabelledResources kind ns selector).Calls Call.Trims :=
  askKube_calls (.inl trivial) fun _ => .forEach fun _ _ => deleteResource_trims _ _ _

/-- The rule for deletions before other code. -/
theorem trims_bind {α β : Type} {p : Op α} {k : α → Op β} {Q : β → World → Prop}
    (hp : p.Calls Call.Trims) (hw : World.Within w₀ w)
    (hk : ∀ a w', World.Within w w' → World.Within w₀ w' →
      (cluster.outside Guard.still).Spec (trimming w₀) Q (fun _ _ => True) (k a) w') :
    (cluster.outside Guard.still).Spec (trimming w₀) Q (fun _ _ => True) (p.bind k) w := by
  refine Outside.Spec.bind ((trims_spec hp hw).mono (fun _ _ h => h) fun _ _ _ => trivial) ?_
  intro a w' h
  exact hk a w' h (hw.trans h)

/-- Dropping the records under a key, where the objects are gone already. -/
theorem cleanupRecords_clears (hw : World.Within w₀ w)
    (hdeployments : ∀ d ∈ w.deployments, ownerKey d.metadata.ns d.metadata.labels ≠ some key)
    (hresources : ∀ r ∈ w.resources, ownerKey r.metadata.ns r.metadata.labels ≠ some key) :
    (cluster.outside Guard.still).Spec (trimming w₀)
      (fun _ w' => World.Within w w' ∧ w'.Clear key) (fun _ _ => True)
      (do
        let _ ← Op.stateStore (← Op.ask (.cleanupBlueGreen key))
        (pure () : Op Unit)) w := by
  refine ⟨trivial, fun r w' ⟨o, _, hs⟩ => ?_⟩
  have hwithin : World.Within w w' := Call.Deletes.serve (c := .cleanupBlueGreen key) trivial hs
  refine ⟨hw.trans hwithin, fun w'' hl _ => ?_⟩
  rw [Machine.later_still hl]
  cases r with
  | error e => trivial
  | ok removed =>
    -- an answer that is no error tells that the records are gone
    refine ⟨hwithin, fun d hd => hdeployments d (hwithin.deployments d hd),
      fun r hr => hresources r (hwithin.resources r hr), fun run hrun href => ?_⟩
    change w.serve (.cleanupBlueGreen key) o = some (.ok removed, w') at hs
    cases o <;> simp [World.serve, World.respondStore] at hs
    rw [← hs.2] at hrun
    have hkept := (List.mem_filter.mp hrun).2
    simp [href] at hkept

/-- **The cleanup of one key clears it.** -/
theorem cleanupSingle_clears (hhoused : w₀.Housed) (hw : World.Within w₀ w) (key : String) :
    (cluster.outside Guard.still).Spec (trimming w₀)
      (fun _ w' => World.Within w w' ∧ w'.Clear key) (fun _ _ => True)
      (cleanupSingleOrphanedBlueGreenRef key) w := by
  have hnote : (Op.note (.orphan key)).Calls Call.Trims := ask_calls (.inl trivial)
  refine trims_bind hnote hw fun _ w₁ h₁ hw₁ => ?_
  cases hsplit : splitBlueGreenStateKey key with
  | error e => trivial
  | ok parts =>
    obtain ⟨ns, ref⟩ := parts
    have hdeployments : (deleteLabelledDeployments ns (blueGreenRefSelector ref)).Calls
        Call.Trims :=
      askKube_calls (.inl trivial) fun _ => .forEach fun _ _ => deleteDeployment_trims _ _
    show (cluster.outside Guard.still).Spec _ _ _ (Prog.bind
      (cleanupOrphanedBlueGreenResources ns ref) _) w₁
    refine Outside.Spec.bind (R := fun _ w' => World.Within w w' ∧ w'.Bare ns ref) ?_ ?_
    · unfold cleanupOrphanedBlueGreenResources
      refine trims_bind hdeployments hw₁ fun _ w₂ h₂ hw₂ => ?_
      refine trims_bind (deleteLabelledResources_trims _ _ _) hw₂ fun _ w₃ h₃ hw₃ => ?_
      refine trims_bind (deleteLabelledResources_trims _ _ _) hw₃ fun _ w₄ h₄ hw₄ => ?_
      refine trims_bind (deleteLabelledResources_trims _ _ _) hw₄ fun _ w₅ h₅ hw₅ => ?_
      refine trims_bind (deleteLabelledResources_trims _ _ _) hw₅ fun _ w₆ h₆ hw₆ => ?_
      refine Outside.Spec.mono (wait_finds hw₆ ns ref) (fun _ w₇ h => ?_) fun _ _ h => h
      obtain ⟨rfl, hbare⟩ := h
      exact ⟨h₁.trans (h₂.trans (h₃.trans (h₄.trans (h₅.trans h₆)))), hbare⟩
    · intro _ w₂ h
      obtain ⟨h₂, hbare⟩ := h
      have hw₂ := hw.trans h₂
      have hgone := hbare.deployments_key (hhoused.within hw₂) hsplit
      refine (cleanupRecords_clears hw₂ hgone.1 hgone.2).mono (fun _ _ h => ?_) fun _ _ h => h
      exact ⟨h₂.trans h.1, h.2⟩

/-- What is left has the key of an existing object, or none. -/
structure World.Neat (w : World) : Prop where
  deployments : ∀ d ∈ w.deployments, ∀ key ∈ ownerKey d.metadata.ns d.metadata.labels,
    key ∈ w.existingKeys
  resources : ∀ r ∈ w.resources, ∀ key ∈ ownerKey r.metadata.ns r.metadata.labels,
    key ∈ w.existingKeys
  records : ∀ run ∈ w.store.records, run.blueGreenRef ∈ w.existingKeys

/-- Where the candidates that are no keys of existing objects are clear, nothing else is left. -/
theorem World.Within.neat {w' : World} {refs : List String} (h : World.Within w w')
    (hhoused : w.Housed) (hrecords : ∀ run ∈ w.store.records, run.blueGreenRef ∈ refs)
    (howned : ∀ key ∈ w.ownedRefs.keys, key ∈ refs)
    (hclear : ∀ key ∈ refs, key ∉ w.existingKeys → w'.Clear key) : w'.Neat := by
  have hlabels (ns : String) (labels : Labels) (hns : ns ∈ w.namespaces)
      (hl : labels ∈ w.labelsIn ns) : ∀ key ∈ ownerKey ns labels, key ∈ refs := by
    intro key hkey
    exact howned key (World.mem_ownedRefs.mpr ⟨ns, hns, labels, hl, hkey⟩)
  constructor
  · intro d hd key hkey
    have hd₀ := h.deployments d hd
    rw [h.existingKeys]
    by_contra hgone
    refine (hclear key ?_ hgone).deployments d hd hkey
    refine hlabels _ _ (hhoused.deployments d hd₀) ?_ key hkey
    exact List.mem_append_left _ (List.mem_map_of_mem (List.mem_filter.mpr ⟨hd₀, by simp⟩))
  · intro r hr key hkey
    have hr₀ := h.resources r hr
    rw [h.existingKeys]
    by_contra hgone
    refine (hclear key ?_ hgone).resources r hr hkey
    refine hlabels _ _ (hhoused.resources r hr₀) ?_ key hkey
    exact List.mem_append_right _ (List.mem_map_of_mem (List.mem_filter.mpr ⟨hr₀, by simp⟩))
  · intro run hrun
    rw [h.existingKeys]
    by_contra hgone
    exact (hclear _ (hrecords run (h.records run hrun)) hgone).records run hrun rfl

/-- **A sweep that ends has left nothing** but what has the key of an existing object. -/
theorem sweep_neat (hhoused : w₀.Housed) (hw : World.Within w₀ w) :
    (cluster.outside Guard.still).Spec (trimming w₀)
      (fun _ w' => World.Within w₀ w' ∧ w'.Neat) (fun _ _ => True)
      cleanupOrphanedBlueGreenRefs w := by
  refine Outside.Spec.bind (finds_existing hw) fun existing w' h => ?_
  obtain ⟨rfl, hexisting⟩ := h
  refine Outside.Spec.bind (finds_candidates hw) fun refs w'' h => ?_
  obtain ⟨rfl, hrecords, howned⟩ := h
  -- after each turn the keys that are done are clear, unless they are kept
  refine Outside.Spec.mono (Outside.Spec.forEachDone
    (P := fun done w => World.Within w'' w ∧ ∀ key ∈ done, key ∉ w''.existingKeys → w.Clear key)
    ⟨.refl w'', by simp⟩ fun done key _ w h => ?_) (fun _ w h => ?_) fun _ _ h => h
  · obtain ⟨hwithin, hclear⟩ := h
    by_cases hkept : (existing.get key).isSome
    · rw [if_pos hkept]
      refine ⟨hwithin, fun key' hkey' hgone => ?_⟩
      rcases List.mem_append.mp hkey' with hdone | hnow
      · exact hclear key' hdone hgone
      · rw [List.mem_singleton.mp hnow] at hgone
        exact absurd ((hexisting key).mp (OrdMap.mem_keys_iff.mpr hkept)) hgone
    · rw [if_neg hkept]
      refine Outside.Spec.mono (cleanupSingle_clears hhoused (hw.trans hwithin) key)
        (fun _ w' h => ?_) fun _ _ h => h
      refine ⟨hwithin.trans h.1, fun key' hkey' hgone => ?_⟩
      rcases List.mem_append.mp hkey' with hdone | hnow
      · exact (hclear key' hdone hgone).within h.1
      · rw [List.mem_singleton.mp hnow]
        exact h.2
  · exact ⟨hw.trans h.1, h.1.neat (hhoused.within hw) hrecords howned h.2⟩

/-- **Run lemma**: what is left where a sweep has ended. -/
theorem World.Housed.neat (hhoused : w₀.Housed) {s : Conf Call Answer ReconcileError World}
    (r : Machine.Run cluster (fun _ : Unit => cleanupOrphanedBlueGreenRefs) Guard.still
      ⟨w₀, none⟩ s) (hended : s.ended = true) : World.Within w₀ s.world ∧ s.world.Neat :=
  (r.soundTo (K := trimming w₀) (fun _ _ _ hm => absurd hm.choose_spec.1 id) (fun _ hw => hw)
    (fun _ _ hw => sweep_neat hhoused hw) (.of_idle (World.Within.refl w₀))).ended
      (Conf.running_of_ended hended)

end Clearing

end FluidBG
