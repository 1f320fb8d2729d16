import FluidBG.Proof.Footprint
/-!
# The sweep for orphans

What `cleanup_orphaned_blue_green_refs` reads and what it deletes. An object is swept under the key
made of the namespace it lives in and the reference it carries. While nothing else moves, a sweep
deletes no object and no record whose key is the key of an existing `BlueGreenDeployment`.
-/

set_option autoImplicit false

namespace FluidBG

open Lib

/-- The key an object is swept under. -/
def ownerKey (ns : String) (labels : Labels) : Option String :=
  (labels.get "fluidbg.io/blue-green-ref").map (blueGreenStateKey ns)

namespace World

/-- The keys of the `BlueGreenDeployment`s there are. -/
def existingKeys (w : World) : List String :=
  (w.bgd.toList ++ w.otherBgds).map fun b => blueGreenStateKey b.metadata.ns b.metadata.name

/-- The labels of the objects in a namespace. -/
def labelsIn (w : World) (ns : String) : List Labels :=
  (w.deployments.filter fun d => d.metadata.ns = ns).map (·.metadata.labels) ++
    (w.resources.filter fun r => r.metadata.ns = ns).map (·.metadata.labels)

/-! ## What a sweep reads -/

/-- The references that the objects of one kind carry. -/
def resourceRefs (w : World) (ns : String) (refs : OrdMap String Unit) (kind : Kind) :
    OrdMap String Unit :=
  collectBlueGreenRefs refs
    ((selectResources w.resources kind ns hasBlueGreenRef).map (·.metadata.labels))

def refsIn (w : World) (ns : String) : OrdMap String Unit :=
  [Kind.service, .configMap, .secret, .pod].foldl (w.resourceRefs ns)
    (collectBlueGreenRefs .empty
      ((selectDeployments w.deployments ns hasBlueGreenRef).map (·.metadata.labels)))

def ownedRefs (w : World) : OrdMap String Unit :=
  w.namespaces.foldl (fun refs ns => refs.insertAll
    ((w.refsIn ns).keys.map fun name => (blueGreenStateKey ns name, ()))) .empty

theorem reads_existing (w : World) : cluster.Reads .ok existingBlueGreenKeys w
    (.ofList ((w.bgd.toList ++ w.otherBgds).map fun b =>
      (blueGreenStateKey b.metadata.ns b.metadata.name, ()))) := rfl

theorem reads_ownedRefs (w : World) :
    cluster.Reads .ok blueGreenRefsFromOwnedResourcesAll w w.ownedRefs := by
  have hkind (ns : String) (refs : OrdMap String Unit) (kind : Kind) :
      cluster.Reads .ok
        (do
          let items ← Op.kube (← Op.ask (.listResources kind ns hasBlueGreenRef))
          pure (collectBlueGreenRefs refs (items.map (·.metadata.labels))))
        w (w.resourceRefs ns refs kind) := rfl
  have hin (ns : String) : cluster.Reads .ok (blueGreenRefsFromOwnedResources ns) w (w.refsIn ns) :=
    .bind (.ask rfl) (.bind .pure (.foldEach fun refs kind _ => hkind ns refs kind))
  exact .bind (.ask rfl) (.bind .pure (.foldEach fun _ ns _ => (hin ns).bind .pure))

@[simp] theorem mem_collectBlueGreenRefs {refs : OrdMap String Unit} {labels : List Labels}
    {ref : String} : ref ∈ (collectBlueGreenRefs refs labels).keys ↔
      ref ∈ refs.keys ∨ ∃ l ∈ labels, l.get "fluidbg.io/blue-green-ref" = some ref := by
  induction labels generalizing refs with
  | nil => simp [collectBlueGreenRefs]
  | cons l labels ih =>
    cases h : l.get "fluidbg.io/blue-green-ref" with
    | none =>
      have hstep : collectBlueGreenRefs refs (l :: labels) = collectBlueGreenRefs refs labels := by
        simp only [collectBlueGreenRefs, List.foldl_cons, h]
      simp [hstep, ih, h]
    | some value =>
      have hstep : collectBlueGreenRefs refs (l :: labels) =
          collectBlueGreenRefs (refs.insert value ()) labels := by
        simp only [collectBlueGreenRefs, List.foldl_cons, h]
      rw [hstep, ih]
      simp only [OrdMap.mem_keys_insert, List.mem_cons, exists_eq_or_imp, h, Option.some.injEq]
      tauto

theorem hasBlueGreenRef_matches {labels : Labels} :
    hasBlueGreenRef.Matches labels ↔ labels.get "fluidbg.io/blue-green-ref" ≠ none := by
  simp [hasBlueGreenRef, LabelSelector.Matches, OrdMap.Covers, OrdMap.empty]

theorem mem_resourceRefs {w : World} {ns ref : String} {refs : OrdMap String Unit} {kind : Kind} :
    ref ∈ (w.resourceRefs ns refs kind).keys ↔ ref ∈ refs.keys ∨ ∃ r ∈ w.resources,
      r.kind = kind ∧ r.metadata.ns = ns ∧
        r.metadata.labels.get "fluidbg.io/blue-green-ref" = some ref := by
  simp only [resourceRefs, mem_collectBlueGreenRefs, selectResources, List.mem_map,
    List.mem_filter, hasBlueGreenRef_matches, decide_eq_true_eq]
  constructor
  · rintro (h | ⟨l, ⟨r, ⟨hr, hkind, hns, -⟩, rfl⟩, hl⟩)
    · exact .inl h
    · exact .inr ⟨r, hr, hkind, hns, hl⟩
  · rintro (h | ⟨r, hr, hkind, hns, hl⟩)
    · exact .inl h
    · exact .inr ⟨_, ⟨r, ⟨hr, hkind, hns, by simp [hl]⟩, rfl⟩, hl⟩

/-- A sweep finds the reference of every Deployment and of every other object. -/
theorem mem_refsIn {w : World} {ns ref : String} : ref ∈ (w.refsIn ns).keys ↔
    ∃ labels ∈ w.labelsIn ns, labels.get "fluidbg.io/blue-green-ref" = some ref := by
  simp only [refsIn, List.foldl_cons, List.foldl_nil, mem_resourceRefs, mem_collectBlueGreenRefs,
    selectDeployments, labelsIn, List.mem_map, List.mem_filter, List.mem_append,
    hasBlueGreenRef_matches, decide_eq_true_eq, OrdMap.keys_empty, List.not_mem_nil, false_or]
  constructor
  · rintro ((((⟨l, ⟨d, ⟨hd, hns, -⟩, rfl⟩, hl⟩ | h) | h) | h) | h)
    · exact ⟨_, .inl ⟨d, ⟨hd, hns⟩, rfl⟩, hl⟩
    all_goals
      obtain ⟨r, hr, -, hns, hl⟩ := h
      exact ⟨_, .inr ⟨r, ⟨hr, hns⟩, rfl⟩, hl⟩
  · rintro ⟨l, ⟨d, ⟨hd, hns⟩, rfl⟩ | ⟨r, ⟨hr, hns⟩, rfl⟩, hl⟩
    · exact .inl (.inl (.inl (.inl ⟨_, ⟨d, ⟨hd, hns, by simp [hl]⟩, rfl⟩, hl⟩)))
    · cases hkind : r.kind with
      | service => exact .inl (.inl (.inl (.inr ⟨r, hr, hkind, hns, hl⟩)))
      | configMap => exact .inl (.inl (.inr ⟨r, hr, hkind, hns, hl⟩))
      | secret => exact .inl (.inr ⟨r, hr, hkind, hns, hl⟩)
      | pod => exact .inr ⟨r, hr, hkind, hns, hl⟩

/-- **The keys a sweep collects** are those of the objects in the namespaces that are listed. -/
theorem mem_ownedRefs {w : World} {key : String} : key ∈ w.ownedRefs.keys ↔
    ∃ ns ∈ w.namespaces, ∃ labels ∈ w.labelsIn ns, ownerKey ns labels = some key := by
  suffices ∀ (namespaces : List String) (refs : OrdMap String Unit),
      key ∈ (namespaces.foldl (fun refs ns => refs.insertAll
        ((w.refsIn ns).keys.map fun name => (blueGreenStateKey ns name, ()))) refs).keys ↔
      key ∈ refs.keys ∨ ∃ ns ∈ namespaces, ∃ labels ∈ w.labelsIn ns,
        ownerKey ns labels = some key by
    simpa [ownedRefs] using this w.namespaces .empty
  intro namespaces
  induction namespaces with
  | nil => simp
  | cons ns namespaces ih =>
    intro refs
    have hhere : (∃ name ∈ (w.refsIn ns).keys, blueGreenStateKey ns name = key) ↔
        ∃ labels ∈ w.labelsIn ns, ownerKey ns labels = some key := by
      simp only [mem_refsIn, ownerKey, Option.map_eq_some_iff]
      constructor
      · rintro ⟨name, ⟨l, hl, hname⟩, hkey⟩
        exact ⟨l, hl, name, hname, hkey⟩
      · rintro ⟨l, hl, name, hname, hkey⟩
        exact ⟨name, ⟨l, hl, hname⟩, hkey⟩
    rw [List.foldl_cons, ih, OrdMap.mem_keys_insertAll, List.map_map, List.exists_mem_cons_iff,
      ← hhere]
    simp only [List.mem_map, Function.comp_apply]
    exact or_assoc

/-! ## What a sweep deletes -/

/-- No two objects of a kind share a name. -/
structure Distinct (w : World) : Prop where
  deployments : ∀ d ∈ w.deployments, ∀ d' ∈ w.deployments, d.identity = d'.identity → d = d'
  resources : ∀ r ∈ w.resources, ∀ r' ∈ w.resources, r.kind = r'.kind →
    r.metadata.ns = r'.metadata.ns → r.metadata.name = r'.metadata.name → r = r'

/-- `w` is `w₀` with some objects and records missing, but none without a key or with a key in
`kept`, which are the keys of the `BlueGreenDeployment`s. -/
structure Swept (kept : List String) (w₀ w : World) : Prop where
  existing : w.existingKeys = kept
  deployments : ∀ d ∈ w.deployments, d ∈ w₀.deployments
  resources : ∀ r ∈ w.resources, r ∈ w₀.resources
  keptDeployments : ∀ d ∈ w₀.deployments,
    (∀ key ∈ ownerKey d.metadata.ns d.metadata.labels, key ∈ kept) → d ∈ w.deployments
  keptResources : ∀ r ∈ w₀.resources,
    (∀ key ∈ ownerKey r.metadata.ns r.metadata.labels, key ∈ kept) → r ∈ w.resources
  keptRecords : ∀ run ∈ w₀.store.records, run.blueGreenRef ∈ kept → run ∈ w.store.records

theorem Swept.refl (w : World) : Swept w.existingKeys w w where
  existing := rfl
  deployments _ h := h
  resources _ h := h
  keptDeployments _ h _ := h
  keptResources _ h _ := h
  keptRecords _ h _ := h

variable {kept : List String} {w₀ w w' : World} {o : Outcome}

/-- Deleting a Deployment whose key is not kept. -/
theorem Swept.deleteDeployment {ns name : String} (h : Swept kept w₀ w)
    (hns : ∀ d ∈ w₀.deployments, d.metadata.ns = ns → d.metadata.name = name →
      ∃ key ∈ ownerKey d.metadata.ns d.metadata.labels, key ∉ kept) :
    Swept kept w₀ (w.deleteDeployment ns name).2 := by
  unfold World.deleteDeployment
  split
  · exact h
  · refine { h with
      deployments := fun d hd => h.deployments d (List.mem_of_mem_filter hd)
      keptDeployments := fun d hd hk => ?_ }
    refine List.mem_filter.mpr ⟨h.keptDeployments d hd hk, ?_⟩
    simp only [decide_eq_true_eq]
    intro hat
    obtain ⟨key, hkey, hnot⟩ := hns d hd hat.1 hat.2
    exact hnot (hk key hkey)

/-- Deleting another object whose key is not kept. -/
theorem Swept.deleteResource {kind : Kind} {ns name : String} (h : Swept kept w₀ w)
    (hns : ∀ r ∈ w₀.resources, IsResource kind ns name r →
      ∃ key ∈ ownerKey r.metadata.ns r.metadata.labels, key ∉ kept) :
    Swept kept w₀ (w.deleteResource kind ns name).2 := by
  unfold World.deleteResource
  split
  · exact h
  · refine { h with
      resources := fun r hr => h.resources r (List.mem_of_mem_filter hr)
      keptResources := fun r hr hk => ?_ }
    refine List.mem_filter.mpr ⟨h.keptResources r hr hk, ?_⟩
    simp only [decide_eq_true_eq]
    intro hat
    obtain ⟨key, hkey, hnot⟩ := hns r hr hat
    exact hnot (hk key hkey)

/-- Dropping the records under a key that is not kept. -/
theorem Swept.cleanupBlueGreen {key : String} (h : Swept kept w₀ w) (hkey : key ∉ kept) :
    Swept kept w₀ { w with store := (w.store.cleanupBlueGreen key).2 } := by
  refine { h with
    existing := h.existing
    deployments := h.deployments
    resources := h.resources
    keptDeployments := h.keptDeployments
    keptResources := h.keptResources
    keptRecords := fun run hrun hk => ?_ }
  refine List.mem_filter.mpr ⟨h.keptRecords run hrun hk, ?_⟩
  simp only [decide_eq_true_eq]
  exact fun heq => hkey (heq ▸ hk)

end World

theorem blueGreenRefSelector_matches {ref : String} {labels : Labels} :
    (blueGreenRefSelector ref).Matches labels ↔
      labels.get "fluidbg.io/blue-green-ref" = some ref := by
  constructor
  · intro h
    exact (LabelSelector.ofLabels_matches _ _).mp h ("fluidbg.io/blue-green-ref", ref)
      (OrdMap.mem_of_get (OrdMap.get_insert_self _ _ _))
  · intro h
    refine (LabelSelector.ofLabels_matches _ _).mpr fun e he => ?_
    rw [List.mem_singleton.mp he]
    exact h

/-- The call reads, waits or marks a point of the code. -/
def Call.ReadOnly : Call → Prop
  | .listBgds | .listDeployments _ _ | .listResources _ _ _ | .listNamespaces | .listBlueGreenRefs
  | .sleep _ | .note _ => True
  | _ => False

theorem Call.ReadOnly.serve {c : Call} (h : c.ReadOnly) {w w' : World} {o : Outcome} {a : Answer c}
    (hs : w.serve c o = some (a, w')) : w' = w := by
  cases c with
  | listBgds | listDeployments _ _ | listResources _ _ _ | listNamespaces =>
    rcases World.respond_world hs with rfl | rfl <;> rfl
  | listBlueGreenRefs => cases o <;> simp [World.serve, World.respondStore] at hs <;> exact hs.2.symm
  | sleep _ | note _ => cases o <;> simp [World.serve] at hs; exact hs.symm
  | _ => exact absurd h id

/-- What a sweep has to keep while nothing else moves. -/
abbrev sweeping (kept : List String) (w₀ : World) : Contract Call World :=
  ⟨World.Swept kept w₀, fun _ _ => True⟩

/-- The code deletes nothing with a key in `kept`, and what it returns meets `Q`. -/
def Keeps (kept : List String) (w₀ : World) {α : Type} (p : Op α)
    (Q : α → Prop := fun _ => True) : Prop :=
  ∀ w, World.Swept kept w₀ w → (cluster.outside Guard.still).Spec (sweeping kept w₀)
    (fun a w => Q a ∧ World.Swept kept w₀ w) (fun _ => World.Swept kept w₀) p w

namespace Keeps

variable {kept : List String} {w₀ : World} {α β : Type}

theorem pure {Q : α → Prop} {a : α} (h : Q a) : Keeps kept w₀ (.pure a) Q :=
  fun _ hw => ⟨h, hw⟩

theorem bind {Q : α → Prop} {R : β → Prop} {p : Op α} {f : α → Op β} (hp : Keeps kept w₀ p Q)
    (hf : ∀ a, Q a → Keeps kept w₀ (f a) R) : Keeps kept w₀ (p.bind f) R :=
  fun w hw => (hp w hw).bind fun a w h => hf a h.1 w h.2

theorem mono {Q R : α → Prop} {p : Op α} (hp : Keeps kept w₀ p Q) (h : ∀ a, Q a → R a) :
    Keeps kept w₀ p R :=
  fun w hw => (hp w hw).mono (fun a _ hq => ⟨h a hq.1, hq.2⟩) fun _ _ h => h

theorem forEach {xs : List α} {body : α → Op Unit} (h : ∀ x ∈ xs, Keeps kept w₀ (body x)) :
    Keeps kept w₀ (Prog.forEach xs body) :=
  fun _ hw => (Outside.Spec.forEach hw fun x hx w hw =>
    (h x hx w hw).mono (fun _ _ hq => hq.2) fun _ _ h => h).mono
      (fun _ _ h => ⟨trivial, h⟩) fun _ _ h => h

theorem lift {Q : α → Prop} {r : Except ReconcileError α} (h : ∀ a, r = .ok a → Q a) :
    Keeps kept w₀ (Op.lift r) Q := by
  intro w hw
  cases r with
  | ok a => exact ⟨h a rfl, hw⟩
  | error e => exact hw

theorem kube {Q : α → Prop} {r : Except KubeError α} (h : ∀ a, r = .ok a → Q a) :
    Keeps kept w₀ (Op.kube r) Q := by
  intro w hw
  cases r with
  | ok a => exact ⟨h a rfl, hw⟩
  | error e => exact hw

/-- One call: while nothing moves, the world it is answered in is the one that goes on. -/
theorem ask {c : Call} {Q : Answer c → Prop} (h : ∀ w o a w', World.Swept kept w₀ w →
    w.serve c o = some (a, w') → Q a ∧ World.Swept kept w₀ w') : Keeps kept w₀ (Op.ask c) Q := by
  refine fun w hw => .ask trivial fun a w' ⟨o, _, hs⟩ => ?_
  obtain ⟨hq, hw'⟩ := h w o a w' hw hs
  refine ⟨hw', fun w'' hl _ => ?_⟩
  rw [Machine.later_still hl]
  exact ⟨hq, hw'⟩

/-- Code that only reads. -/
theorem readOnly {p : Op α} (h : p.Calls Call.ReadOnly) : Keeps kept w₀ p := by
  intro w hw
  have hstable : (cluster.outside Guard.still).Stable fun _ => True := fun _ _ _ _ => trivial
  refine (Outside.Spec.of_calls h hstable trivial hw (fun _ _ _ _ _ => trivial)
    fun w c a w' hc hi _ ⟨o, _, hs⟩ => ⟨?_, trivial⟩).mono (fun _ _ h => h) fun _ _ h => h.2
  rw [hc.serve hs]
  exact hi

/-! ## The code of a sweep -/

theorem deleteDeployment {ns name : String}
    (h : ∀ d ∈ w₀.deployments, d.metadata.ns = ns → d.metadata.name = name →
      ∃ key ∈ ownerKey d.metadata.ns d.metadata.labels, key ∉ kept) :
    Keeps kept w₀ (FluidBG.deleteDeployment ns name) := by
  refine .bind (.ask (Q := fun _ => True) fun w o a w' hw hs => ⟨trivial, ?_⟩) fun r _ => ?_
  · rcases World.respond_world hs with rfl | rfl
    · exact hw
    · exact hw.deleteDeployment h
  · rcases r with e | _
    · cases e <;> exact .readOnly (by trivial)
    · exact .pure trivial

theorem deleteResource {kind : Kind} {ns name : String}
    (h : ∀ r ∈ w₀.resources, World.IsResource kind ns name r →
      ∃ key ∈ ownerKey r.metadata.ns r.metadata.labels, key ∉ kept) :
    Keeps kept w₀ (FluidBG.deleteResource kind ns name) := by
  refine .bind (.ask (Q := fun _ => True) fun w o a w' hw hs => ⟨trivial, ?_⟩) fun r _ => ?_
  · rcases World.respond_world hs with rfl | rfl
    · exact hw
    · exact hw.deleteResource h
  · rcases r with e | _
    · cases e <;> exact .readOnly (by trivial)
    · exact .pure trivial

/-- An object that carries a reference is swept under the key of its namespace and reference. -/
theorem ownerKey_of_matches {ns ref : String} {labels : Labels}
    (h : (blueGreenRefSelector ref).Matches labels) :
    ownerKey ns labels = some (blueGreenStateKey ns ref) := by
  simp [ownerKey, blueGreenRefSelector_matches.mp h]

theorem deleteLabelledDeployments (hd : w₀.Distinct) {ns ref : String}
    (hkey : blueGreenStateKey ns ref ∉ kept) :
    Keeps kept w₀ (FluidBG.deleteLabelledDeployments ns (blueGreenRefSelector ref)) := by
  have hlist : Keeps kept w₀ (Op.ask (.listDeployments ns (blueGreenRefSelector ref))) fun r =>
      ∀ items, r = .ok items → ∀ d ∈ items, d ∈ w₀.deployments ∧ d.metadata.ns = ns ∧
        (blueGreenRefSelector ref).Matches d.metadata.labels := by
    refine .ask fun w o a w' hw hs => ⟨fun items hitems d hd => ?_, ?_⟩
    · subst hitems
      cases o <;> simp [World.serve, World.respond] at hs
      rw [← hs.1] at hd
      have hmem := List.mem_filter.mp hd
      simp only [decide_eq_true_eq] at hmem
      exact ⟨hw.deployments d hmem.1, hmem.2⟩
    · rw [Call.ReadOnly.serve (by trivial) hs]
      exact hw
  refine .bind hlist fun r hr => .bind (.kube hr) fun items hitems => .forEach fun d hitem => ?_
  obtain ⟨hmem, hns, hmatches⟩ := hitems d hitem
  refine .deleteDeployment fun d' hd' hns' hname => ?_
  have heq : d' = d := hd.deployments d' hd' d hmem (by
    simp only [Deployment.identity, hns', hname, hns])
  subst heq
  rw [hns, ownerKey_of_matches hmatches]
  exact ⟨_, rfl, hkey⟩

theorem deleteLabelledResources (hd : w₀.Distinct) {kind : Kind} {ns ref : String}
    (hkey : blueGreenStateKey ns ref ∉ kept) :
    Keeps kept w₀ (FluidBG.deleteLabelledResources kind ns (blueGreenRefSelector ref)) := by
  have hlist : Keeps kept w₀ (Op.ask (.listResources kind ns (blueGreenRefSelector ref))) fun r =>
      ∀ items, r = .ok items → ∀ x ∈ items, x ∈ w₀.resources ∧ x.kind = kind ∧
        x.metadata.ns = ns ∧ (blueGreenRefSelector ref).Matches x.metadata.labels := by
    refine .ask fun w o a w' hw hs => ⟨fun items hitems x hx => ?_, ?_⟩
    · subst hitems
      cases o <;> simp [World.serve, World.respond] at hs
      rw [← hs.1] at hx
      have hmem := List.mem_filter.mp hx
      simp only [decide_eq_true_eq] at hmem
      exact ⟨hw.resources x hmem.1, hmem.2⟩
    · rw [Call.ReadOnly.serve (by trivial) hs]
      exact hw
  refine .bind hlist fun r hr => .bind (.kube hr) fun items hitems => .forEach fun x hitem => ?_
  obtain ⟨hmem, hkind, hns, hmatches⟩ := hitems x hitem
  refine .deleteResource fun x' hx' hsame => ?_
  obtain ⟨hkind', hns', hname⟩ := hsame
  have heq : x' = x := hd.resources x' hx' x hmem (hkind'.trans hkind.symm) (hns'.trans hns.symm)
    hname
  subst heq
  rw [hns, ownerKey_of_matches hmatches]
  exact ⟨_, rfl, hkey⟩

theorem cleanupOrphanedBlueGreenResources (hd : w₀.Distinct) {ns ref : String}
    (hkey : blueGreenStateKey ns ref ∉ kept) :
    Keeps kept w₀ (FluidBG.cleanupOrphanedBlueGreenResources ns ref) := by
  have hcount : (countLabelled ns (blueGreenRefSelector ref)).Calls Call.ReadOnly :=
    askKube_calls trivial fun _ => askKube_calls trivial fun _ => askKube_calls trivial fun _ =>
      askKube_calls trivial fun _ => askKube_calls trivial fun _ => trivial
  have hwait : (waitForBlueGreenResourcesDeleted ns ref).Calls Call.ReadOnly := by
    refine .retry (fun _ => hcount.bind fun n => ?_) trivial
    split
    · trivial
    · exact (ask_calls trivial).bind fun _ => trivial
  exact .bind (deleteLabelledDeployments hd hkey) fun _ _ =>
    .bind (deleteLabelledResources hd hkey) fun _ _ =>
      .bind (deleteLabelledResources hd hkey) fun _ _ =>
        .bind (deleteLabelledResources hd hkey) fun _ _ =>
          .bind (deleteLabelledResources hd hkey) fun _ _ => .readOnly hwait

/-- The text before the first slash, the slash and the rest. -/
theorem takeWhile_slash {cs : List Char} {c : Char} {rest : List Char}
    (h : cs.drop (cs.takeWhile (· ≠ '/')).length = c :: rest) :
    cs.takeWhile (· ≠ '/') ++ '/' :: rest = cs := by
  induction cs with
  | nil => simp at h
  | cons a cs ih =>
    by_cases ha : a = '/'
    · subst ha
      simp at h
      simp [h.2]
    · simp only [ne_eq, ha, not_false_eq_true, decide_true, List.takeWhile_cons_of_pos,
        List.length_cons, List.drop_succ_cons] at h ⊢
      exact congrArg (a :: ·) (ih h)

/-- The parts of a key make up the key. -/
theorem key_of_split {key ns ref : String} (h : splitBlueGreenStateKey key = .ok (ns, ref)) :
    blueGreenStateKey ns ref = key := by
  unfold splitBlueGreenStateKey splitOnce at h
  dsimp only at h
  cases hd : key.toList.drop (key.toList.takeWhile (· ≠ '/')).length with
  | nil =>
    rw [hd] at h
    simp at h
  | cons c rest =>
    rw [hd] at h
    simp only [Except.ok.injEq, Prod.mk.injEq] at h
    obtain ⟨rfl, rfl⟩ := h
    refine String.toList_inj.mp ?_
    simpa [blueGreenStateKey, toString] using takeWhile_slash hd

theorem cleanupSingleOrphanedBlueGreenRef (hd : w₀.Distinct) {key : String} (hkey : key ∉ kept) :
    Keeps kept w₀ (FluidBG.cleanupSingleOrphanedBlueGreenRef key) := by
  refine .bind (.readOnly (ask_calls trivial)) fun _ _ =>
    .bind (.lift (Q := fun parts => blueGreenStateKey parts.1 parts.2 = key) fun parts hparts =>
      key_of_split hparts) fun parts hparts => ?_
  refine .bind (cleanupOrphanedBlueGreenResources hd (hparts ▸ hkey)) fun _ _ => ?_
  refine .bind (.ask (Q := fun _ => True) fun w o a w' hw hs => ⟨trivial, ?_⟩) fun r _ => ?_
  · cases o <;> simp [World.serve, World.respondStore] at hs
    · exact hs.2 ▸ hw.cleanupBlueGreen hkey
    · exact hs.2 ▸ hw
    · exact hs.2 ▸ hw.cleanupBlueGreen hkey
  · cases r <;> exact .readOnly (by trivial)

theorem existingBlueGreenKeys :
    Keeps kept w₀ FluidBG.existingBlueGreenKeys fun existing => ∀ key ∈ kept, key ∈ existing.keys := by
  have hlist : Keeps kept w₀ (Op.ask .listBgds) fun r => ∀ bgds, r = .ok bgds →
      bgds.map (fun b => blueGreenStateKey b.metadata.ns b.metadata.name) = kept := by
    refine .ask fun w o a w' hw hs => ⟨fun bgds hbgds => ?_, ?_⟩
    · subst hbgds
      cases o <;> simp [World.serve, World.respond] at hs
      rw [← hs.1]
      exact hw.existing
    · rw [Call.ReadOnly.serve (by trivial) hs]
      exact hw
  refine .bind hlist fun r hr => .bind (.kube hr) fun bgds hbgds => .pure fun key hkey => ?_
  rw [← hbgds] at hkey
  simpa [OrdMap.mem_keys_ofList] using hkey

/-- **A sweep of a cluster in which nothing else moves** deletes nothing with the key of an
existing object. -/
theorem cleanupOrphanedBlueGreenRefs (hd : w₀.Distinct) :
    Keeps kept w₀ FluidBG.cleanupOrphanedBlueGreenRefs := by
  have hcollect : collectOrphanCandidates.Calls Call.ReadOnly := by
    refine (ask_calls trivial).bind fun _ => (stateStore_calls _).bind fun _ =>
      Prog.Calls.bind ?_ fun _ => trivial
    refine askKube_calls trivial fun _ => .foldEach fun _ ns _ => Prog.Calls.bind ?_ fun _ => trivial
    exact askKube_calls trivial fun _ => .foldEach fun _ _ _ => askKube_calls trivial fun _ => trivial
  refine .bind existingBlueGreenKeys fun existing hexisting =>
    .bind (.readOnly hcollect) fun refs _ => .forEach fun key _ => ?_
  split
  · exact .pure trivial
  · rename_i hmissing
    refine cleanupSingleOrphanedBlueGreenRef hd fun hkept => hmissing ?_
    exact OrdMap.mem_keys_iff.mp (hexisting key hkept)

end Keeps

/-- **Run lemma of the sweep.** -/
theorem World.Distinct.swept {w₀ : World} (hd : w₀.Distinct)
    {s : Conf Call Answer ReconcileError World}
    (r : Machine.Run cluster (fun _ : Unit => cleanupOrphanedBlueGreenRefs) Guard.still
      ⟨w₀, none⟩ s) : World.Swept w₀.existingKeys w₀ s.world :=
  (Machine.Run.sound (K := sweeping w₀.existingKeys w₀) (fun _ _ _ hm => absurd hm.choose_spec.1 id)
    (fun _ hw => hw) (fun _ w hw => (Keeps.cleanupOrphanedBlueGreenRefs hd w hw).mono
      (fun _ _ _ => trivial) fun _ _ _ => trivial) (.of_idle (World.Swept.refl w₀)) r).1

end FluidBG
