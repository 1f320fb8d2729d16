import FluidBG.Cluster
import FluidBG.Lib.Loops
/-!
# Cleaning up

`cleanup_inception_resources` and `cleanup_test_resources` delete objects by the names that the spec
in hand gives them, and wait for the objects of the rollout by label. What this comes to is seen in
a cluster that answers: the API server, the store and the managers serve their calls, nobody else
writes, and the pods of a Deployment go when it has gone.
-/

set_option autoImplicit false

namespace FluidBG

open Lib

/-! ## A cluster that answers -/

def inceptionPointLabel : String := "fluidbg.io/inception-point"

def blueGreenRefLabel : String := "fluidbg.io/blue-green-ref"

namespace World

/-- A pod of an inceptor without the Deployment of the inceptor. -/
def Orphaned (w : World) (r : Resource) : Prop :=
  r.kind = .pod ∧ r.metadata.labels.get inceptionPointLabel ≠ none ∧
    ∀ d ∈ w.deployments, d.metadata.ns = r.metadata.ns →
      d.metadata.labels.get blueGreenRefLabel = r.metadata.labels.get blueGreenRefLabel →
      d.metadata.labels.get inceptionPointLabel ≠ r.metadata.labels.get inceptionPointLabel

instance (w : World) (r : Resource) : Decidable (w.Orphaned r) :=
  inferInstanceAs (Decidable (_ ∧ _ ∧ ∀ d ∈ w.deployments, _ → _ → _))

/-- The objects that are not pods. -/
def objects (w : World) : List Resource := w.resources.filter fun r => r.kind ≠ .pod

end World

/-- The request has succeeded. -/
def HttpAnswer.succeeded {α : Type} : HttpAnswer α → Bool
  | .ok _ => true
  | _ => false

/-- The API server, the store and the managers answer, and the inceptors where they are alive. The
pods of a Deployment that is gone are collected before pods are listed. Nothing else moves but the
clock. -/
def serving (alive : String → Bool) : Guard Call World Outcome Move where
  call w c o := match c, o with
    | .postInceptor url _, .inceptor answer => answer.succeeded = alive url
    | .postManager _ _ _, .manager answer => answer.succeeded = true
    | .postManagerSync _ _ _, .http _ => True
    | .getDrainStatus _ _, .drainStatus _ => True
    | .postTraffic _ _ _, .http _ => True
    | .pollVerifier _ _, .verifier _ => True
    | .listResources .pod _ _, .ok => ∀ r ∈ w.resources, ¬ w.Orphaned r
    | _, .ok => True
    | _, _ => False
  move w v := match v with
    | .setResources rs => rs = w.resources.filter fun r => ¬ w.Orphaned r
    | .tick _ => True
    | _ => False

abbrev served (alive : String → Bool) : Outside Call Answer World := cluster.outside (serving alive)

/-- What passes by itself: time, and the pods that are collected. -/
structure Aged (w w' : World) : Prop where
  bgd : w'.bgd = w.bgd
  otherBgds : w'.otherBgds = w.otherBgds
  deployments : w'.deployments = w.deployments
  objects : w'.objects = w.objects
  plugins : w'.plugins = w.plugins
  store : w'.store = w.store

theorem Aged.refl (w : World) : Aged w w := ⟨rfl, rfl, rfl, rfl, rfl, rfl⟩

theorem Aged.symm {w w' : World} (h : Aged w w') : Aged w' w :=
  ⟨h.bgd.symm, h.otherBgds.symm, h.deployments.symm, h.objects.symm, h.plugins.symm, h.store.symm⟩

theorem Aged.trans {w w' w'' : World} (h : Aged w w') (h' : Aged w' w'') : Aged w w'' where
  bgd := h'.bgd.trans h.bgd
  otherBgds := h'.otherBgds.trans h.otherBgds
  deployments := h'.deployments.trans h.deployments
  objects := h'.objects.trans h.objects
  plugins := h'.plugins.trans h.plugins
  store := h'.store.trans h.store

section Serving

variable {alive : String → Bool} {w : World}

theorem Aged.of_later {w' : World} (h : (served alive).Later w w') : Aged w w' := by
  induction h with
  | refl => exact .refl w
  | tail _ hm ih =>
    obtain ⟨v, hg, hv⟩ := hm
    refine ih.trans ?_
    cases v with
    | tick nanos =>
      cases hv
      exact ⟨rfl, rfl, rfl, rfl, rfl, rfl⟩
    | setResources rs =>
      cases hv
      cases (hg : rs = _)
      refine ⟨rfl, rfl, rfl, ?_, rfl, rfl⟩
      -- an orphan is a pod, so no other object is lost
      simp only [World.objects, List.filter_filter]
      refine List.filter_congr fun r _ => ?_
      by_cases hpod : r.kind = .pod
      · simp [hpod]
      · simp [hpod, World.Orphaned]
    | _ => exact (hg : False).elim

variable {α : Type} {Q : α → World → Prop} {E : ReconcileError → World → Prop}

/-- The rule for a call, in a cluster that answers. -/
theorem served_call {c : Call} {k : Answer c → Op α}
    (h : ∀ o a w₁, (serving alive).call w c o → w.serve c o = some (a, w₁) → ∀ w', Aged w₁ w' →
      (served alive).Spec .free Q E (k a) w') :
    (served alive).Spec .free Q E (.call c k) w := by
  refine ⟨trivial, fun a w₁ ha => ⟨trivial, fun w' hl _ => ?_⟩⟩
  obtain ⟨o, hg, hw⟩ := ha
  exact h o a w₁ hg hw w' (.of_later hl)

/-- A call that the API server, the store or the operator itself answers. -/
def Call.Plain : Call → Prop
  | .postInceptor _ _ => False
  | .postManager _ _ _ => False
  | .postManagerSync _ _ _ => False
  | .getDrainStatus _ _ => False
  | .postTraffic _ _ _ => False
  | .pollVerifier _ _ => False
  | _ => True

theorem Call.Plain.ok {c : Call} {o : Outcome} (hc : c.Plain) (h : (serving alive).call w c o) :
    o = .ok := by
  simp only [serving] at h
  split at h <;> first | exact hc.elim | rfl | exact h.elim

/-- The rule for a call that the API server, the store or the clock answers. -/
theorem served_plain {c : Call} {k : Answer c → Op α} {r : Answer c × World} (hc : c.Plain)
    (hserve : w.serve c .ok = some r)
    (h : (serving alive).call w c .ok → ∀ w', Aged r.2 w' →
      (served alive).Spec .free Q E (k r.1) w') :
    (served alive).Spec .free Q E (.call c k) w := by
  refine served_call ?_
  intro o a w₁ hg hw w' hage
  cases hc.ok hg
  cases hserve.symm.trans hw
  exact h hg w' hage

/-- No inceptor's pod has outlived its Deployment. -/
def World.Collected (w : World) : Prop := ∀ r ∈ w.resources, ¬ w.Orphaned r

theorem collected_later (w : World) : ∃ w', (served alive).Later w w' ∧ w'.Collected := by
  refine ⟨{ w with resources := w.resources.filter fun r => ¬ w.Orphaned r },
    .single ⟨.setResources _, rfl, rfl⟩, ?_⟩
  intro r hr
  -- the Deployments are the same, so what is not an orphan does not become one
  have hkept : ¬ w.Orphaned r := by simpa using (List.mem_filter.mp hr).2
  exact hkept

/-- Every call gets an answer. -/
theorem served_answers (w : World) (c : Call) (hw : w.Collected) :
    ∃ a w', (served alive).answers w c a w' := by
  have hplain : ∀ r, (serving alive).call w c .ok → w.serve c .ok = some r →
      ∃ a w', (served alive).answers w c a w' :=
    fun r hg hr => ⟨r.1, r.2, .ok, hg, hr⟩
  cases c with
  | postInceptor url bearer =>
    cases halive : alive url with
    | true => exact ⟨.ok .empty, w, .inceptor (.ok .empty), halive.symm, rfl⟩
    | false => exact ⟨.sendError "", w, .inceptor (.sendError ""), halive.symm, rfl⟩
  | postManager url bearer request => exact ⟨.ok none, w, .manager (.ok none), rfl, rfl⟩
  | postManagerSync url bearer request => exact ⟨.ok (), w, .http (.ok ()), trivial, rfl⟩
  | getDrainStatus url bearer =>
    exact ⟨.sendError "", w, .drainStatus (.sendError ""), trivial, rfl⟩
  | postTraffic url bearer percent => exact ⟨.ok (), w, .http (.ok ()), trivial, rfl⟩
  | pollVerifier url bearer => exact ⟨.unparsable, w, .verifier .unparsable, trivial, rfl⟩
  | listResources kind ns selector =>
    cases kind with
    | pod => exact hplain _ hw rfl
    | _ => exact hplain _ trivial rfl
  | _ => exact hplain _ trivial rfl

/-- A program cannot always end well and never do so. -/
theorem served_contradiction {p : Op α} (hw : w.Collected)
    (h : (served alive).Spec .free Q (fun _ _ => False) p w)
    (h' : (served alive).Spec .free (fun a w => ¬ Q a w) (fun _ _ => True) p w) : False := by
  refine Outside.Spec.absurd collected_later served_answers hw ((h.and h').mono ?_ ?_)
  · exact fun _ _ hq => hq.2 hq.1
  · exact fun _ _ he => he.1

end Serving

/-! ## Deleting by name -/

/-- The world without the Deployments and the objects of these names. -/
structure Swept (ns : String) (w₀ : World) (ds : List String) (rs : List (Kind × String))
    (w : World) : Prop where
  bgd : w.bgd = w₀.bgd
  otherBgds : w.otherBgds = w₀.otherBgds
  plugins : w.plugins = w₀.plugins
  store : w.store = w₀.store
  deployments : w.deployments = w₀.deployments.filter fun d =>
    ¬ (d.metadata.ns = ns ∧ d.metadata.name ∈ ds)
  objects : w.objects = w₀.objects.filter fun r =>
    ¬ (r.metadata.ns = ns ∧ (r.kind, r.metadata.name) ∈ rs)

section Sweeping

variable {alive : String → Bool} {ns : String} {w₀ w : World} {ds : List String}
  {rs : List (Kind × String)} {E : ReconcileError → World → Prop}

theorem Swept.refl (ns : String) (w : World) : Swept ns w [] [] w :=
  ⟨rfl, rfl, rfl, rfl, by simp, by simp⟩

theorem Swept.aged {w' : World} (h : Swept ns w₀ ds rs w) (hage : Aged w w') :
    Swept ns w₀ ds rs w' where
  bgd := hage.bgd.trans h.bgd
  otherBgds := hage.otherBgds.trans h.otherBgds
  plugins := hage.plugins.trans h.plugins
  store := hage.store.trans h.store
  deployments := hage.deployments.trans h.deployments
  objects := hage.objects.trans h.objects

theorem Swept.of_aged {w₁ : World} (h : Swept ns w₁ ds rs w) (hage : Aged w₀ w₁) :
    Swept ns w₀ ds rs w := by
  obtain ⟨hbgd, hothers, hplugins, hstore, hdeployments, hobjects⟩ := h
  rw [hage.deployments] at hdeployments
  rw [hage.objects] at hobjects
  exact ⟨hbgd.trans hage.bgd, hothers.trans hage.otherBgds, hplugins.trans hage.plugins,
    hstore.trans hage.store, hdeployments, hobjects⟩

theorem Swept.dropDeployment {w' : World} (h : Swept ns w₀ ds rs w) (name : String)
    (hw : w' = { w with deployments := World.dropDeployment w.deployments ns name }) :
    Swept ns w₀ (ds ++ [name]) rs w' := by
  subst hw
  refine ⟨h.bgd, h.otherBgds, h.plugins, h.store, ?_, h.objects⟩
  show World.dropDeployment w.deployments ns name = _
  rw [h.deployments, World.dropDeployment, List.filter_filter]
  refine List.filter_congr fun d _ => ?_
  by_cases hns : d.metadata.ns = ns <;> by_cases hname : d.metadata.name = name <;>
    simp [hns, hname]

theorem Swept.dropResource {w' : World} (h : Swept ns w₀ ds rs w) (kind : Kind) (name : String)
    (hw : w' = { w with
      resources := w.resources.filter fun r => ¬ World.IsResource kind ns name r }) :
    Swept ns w₀ ds (rs ++ [(kind, name)]) w' := by
  subst hw
  refine ⟨h.bgd, h.otherBgds, h.plugins, h.store, h.deployments, ?_⟩
  show (w.resources.filter _).filter _ = _
  have hobjects : w.objects.filter (fun r => ¬ World.IsResource kind ns name r) =
      (w.resources.filter fun r => ¬ World.IsResource kind ns name r).filter
        fun r => r.kind ≠ .pod := by
    simp only [World.objects, List.filter_filter]
    exact List.filter_congr fun r _ => Bool.and_comm _ _
  rw [← hobjects, h.objects, List.filter_filter]
  refine List.filter_congr fun r _ => ?_
  by_cases hns : r.metadata.ns = ns <;> by_cases hkind : r.kind = kind <;>
    by_cases hname : r.metadata.name = name <;>
    simp [World.IsResource, hns, hkind, hname]

theorem dropDeployment_of_none {xs : List Deployment} {name : String}
    (h : World.findDeployment xs ns name = none) : World.dropDeployment xs ns name = xs := by
  refine List.filter_eq_self.mpr fun d hd => ?_
  have hnot := List.find?_eq_none.mp h d hd
  simpa [imp_iff_not_or] using hnot

/-- A Deployment is deleted, whether or not it is there. -/
theorem Swept.deleteDeployment (h : Swept ns w₀ ds rs w) (name : String) :
    (served alive).Spec .free (fun _ => Swept ns w₀ (ds ++ [name]) rs) E
      (FluidBG.deleteDeployment ns name) w := by
  refine served_plain (r := w.deleteDeployment ns name) trivial rfl ?_
  intro _ w' hage
  cases hfound : World.findDeployment w.deployments ns name with
  | none =>
    have heq : w.deleteDeployment ns name = (World.notFound name, w) := by
      simp [World.deleteDeployment, hfound]
    rw [heq] at hage ⊢
    refine Swept.aged (h.dropDeployment name ?_) hage
    rw [dropDeployment_of_none hfound]
  | some d =>
    have heq : w.deleteDeployment ns name =
        (.ok (), { w with deployments := World.dropDeployment w.deployments ns name }) := by
      simp [World.deleteDeployment, hfound]
    rw [heq] at hage ⊢
    exact (h.dropDeployment name rfl).aged hage

/-- An object is deleted, whether or not it is there. -/
theorem Swept.deleteResource (h : Swept ns w₀ ds rs w) (kind : Kind) (name : String) :
    (served alive).Spec .free (fun _ => Swept ns w₀ ds (rs ++ [(kind, name)])) E
      (FluidBG.deleteResource kind ns name) w := by
  refine served_plain (r := w.deleteResource kind ns name) trivial rfl ?_
  intro _ w' hage
  cases hfound : w.resources.find? fun r => World.IsResource kind ns name r with
  | none =>
    have heq : w.deleteResource kind ns name = (World.notFound name, w) := by
      simp [World.deleteResource, hfound]
    rw [heq] at hage ⊢
    refine Swept.aged (h.dropResource kind name ?_) hage
    have hself : (w.resources.filter fun r => ¬ World.IsResource kind ns name r) = w.resources := by
      refine List.filter_eq_self.mpr fun r hr => ?_
      simpa using List.find?_eq_none.mp hfound r hr
    rw [hself]
  | some d =>
    have heq : w.deleteResource kind ns name = (.ok (), { w with
        resources := w.resources.filter fun r => ¬ World.IsResource kind ns name r }) := by
      simp [World.deleteResource, hfound]
    rw [heq] at hage ⊢
    exact (h.dropResource kind name rfl).aged hage

end Sweeping

/-! ## Waiting by label -/

/-- The labels of an object of an inceptor of this rollout. -/
def OfInceptor (blueGreenRef : String) (labels : Labels) : Prop :=
  labels.get blueGreenRefLabel = some blueGreenRef ∧ labels.get inceptionPointLabel ≠ none

instance (blueGreenRef : String) (labels : Labels) : Decidable (OfInceptor blueGreenRef labels) :=
  inferInstanceAs (Decidable (_ ∧ _))

/-- The selector of `wait_for_inception_resources_deleted`. -/
def inceptionSelector (blueGreenRef : String) : LabelSelector :=
  { blueGreenRefSelector blueGreenRef with present := [inceptionPointLabel] }

theorem inceptionSelector_matches (blueGreenRef : String) (labels : Labels) :
    (inceptionSelector blueGreenRef).Matches labels ↔ OfInceptor blueGreenRef labels := by
  have hcovers : labels.Covers (.ofList [(blueGreenRefLabel, blueGreenRef)]) ↔
      labels.get blueGreenRefLabel = some blueGreenRef := by
    rw [OrdMap.covers_iff]
    constructor
    · intro h
      exact h blueGreenRefLabel blueGreenRef (by simp [OrdMap.ofList, OrdMap.insertAll])
    · intro h key value hget
      by_cases hkey : blueGreenRefLabel = key
      · subst hkey
        simp only [OrdMap.ofList, OrdMap.insertAll, List.foldl_cons, List.foldl_nil,
          OrdMap.get_insert_self, Option.some.injEq] at hget
        rw [h, hget]
      · simp [OrdMap.ofList, OrdMap.insertAll, OrdMap.get_insert_of_ne _ _ hkey] at hget
  simp only [LabelSelector.Matches, inceptionSelector, List.mem_singleton, forall_eq, OfInceptor]
  exact and_congr_left fun _ => hcovers

/-- No Deployment and no object of an inceptor of this rollout is left. -/
def World.InceptionsGone (w : World) (ns blueGreenRef : String) : Prop :=
  (∀ d ∈ w.deployments, d.metadata.ns = ns → ¬ OfInceptor blueGreenRef d.metadata.labels) ∧
    ∀ r ∈ w.objects, r.metadata.ns = ns → ¬ OfInceptor blueGreenRef r.metadata.labels

section Waiting

variable {alive : String → Bool} {ns blueGreenRef : String} {w : World}
  {E : ReconcileError → World → Prop}

theorem selectDeployments_nil {ds : List Deployment} :
    (World.selectDeployments ds ns (inceptionSelector blueGreenRef)).length = 0 ↔
      ∀ d ∈ ds, d.metadata.ns = ns → ¬ OfInceptor blueGreenRef d.metadata.labels := by
  simp [World.selectDeployments, inceptionSelector_matches]

theorem selectResources_nil {xs : List Resource} {kind : Kind} :
    (World.selectResources xs kind ns (inceptionSelector blueGreenRef)).length = 0 ↔
      ∀ r ∈ xs, r.kind = kind → r.metadata.ns = ns →
        ¬ OfInceptor blueGreenRef r.metadata.labels := by
  simp [World.selectResources, inceptionSelector_matches]

/-- A list of objects looks past the pods. -/
theorem selectResources_objects {kind : Kind} (hkind : kind ≠ .pod) (sel : LabelSelector) :
    World.selectResources w.resources kind ns sel = World.selectResources w.objects kind ns sel := by
  simp only [World.selectResources, World.objects, List.filter_filter]
  refine List.filter_congr fun r _ => ?_
  by_cases hr : r.kind = kind <;> simp [hr, hkind]

/-- Where no Deployment of an inceptor is left, its pods have been collected. -/
theorem no_pods (hcollected : ∀ r ∈ w.resources, ¬ w.Orphaned r)
    (hgone : ∀ d ∈ w.deployments, d.metadata.ns = ns →
      ¬ OfInceptor blueGreenRef d.metadata.labels) :
    (World.selectResources w.resources .pod ns (inceptionSelector blueGreenRef)).length = 0 := by
  refine selectResources_nil.mpr ?_
  rintro r hr hpod hns ⟨href, hpoint⟩
  refine hcollected r hr ⟨hpod, hpoint, ?_⟩
  intro d hd hdns hdref hdpoint
  exact hgone d hd (hdns.trans hns) ⟨hdref.trans href, by rw [hdpoint]; exact hpoint⟩

/-- **The count.** It is zero exactly when nothing of the inceptors is left. -/
theorem countLabelled_served :
    (served alive).Spec .free
      (fun n w' => Aged w w' ∧ (n = 0 ↔ w.InceptionsGone ns blueGreenRef)) E
      (countLabelled ns (inceptionSelector blueGreenRef)) w := by
  unfold countLabelled
  refine served_plain trivial rfl ?_
  intro _ w₁ h₁
  refine served_plain trivial rfl ?_
  intro _ w₂ h₂
  refine served_plain trivial rfl ?_
  intro _ w₃ h₃
  refine served_plain trivial rfl ?_
  intro _ w₄ h₄
  refine served_plain trivial rfl ?_
  intro hcollected w₅ h₅
  have a₁ : Aged w w₁ := h₁
  have a₂ : Aged w w₂ := a₁.trans h₂
  have a₃ : Aged w w₃ := a₂.trans h₃
  have a₄ : Aged w w₄ := a₃.trans h₄
  refine ⟨a₄.trans h₅, ?_⟩
  have hpods : (∀ d ∈ w.deployments, d.metadata.ns = ns →
      ¬ OfInceptor blueGreenRef d.metadata.labels) →
      (World.selectResources w₄.resources .pod ns (inceptionSelector blueGreenRef)).length = 0 := by
    intro hgone
    rw [← a₄.deployments] at hgone
    exact no_pods hcollected hgone
  show (World.selectDeployments w.deployments ns _).length +
    (World.selectResources w₁.resources .service ns _).length +
    (World.selectResources w₂.resources .configMap ns _).length +
    (World.selectResources w₃.resources .secret ns _).length +
    (World.selectResources w₄.resources .pod ns _).length = 0 ↔ _
  rw [selectResources_objects (by simp), selectResources_objects (by simp),
    selectResources_objects (by simp), a₁.objects, a₂.objects, a₃.objects]
  constructor
  · intro hzero
    refine ⟨selectDeployments_nil.mp (by omega), ?_⟩
    intro r hr
    have hkind : r.kind ≠ .pod := by simpa [World.objects] using (List.mem_filter.mp hr).2
    cases hk : r.kind with
    | service => exact selectResources_nil.mp (by omega) r hr hk
    | configMap => exact selectResources_nil.mp (by omega) r hr hk
    | secret => exact selectResources_nil.mp (by omega) r hr hk
    | pod => exact absurd hk hkind
  · rintro ⟨hdeployments, hobjects⟩
    have hnil : ∀ kind, (World.selectResources w.objects kind ns
        (inceptionSelector blueGreenRef)).length = 0 :=
      fun kind => selectResources_nil.mpr fun r hr _ => hobjects r hr
    have hd := selectDeployments_nil.mpr hdeployments
    have hp := hpods hdeployments
    have h₁ := hnil .service
    have h₂ := hnil .configMap
    have h₃ := hnil .secret
    omega

theorem World.InceptionsGone.aged {w' : World} (hage : Aged w w') :
    w'.InceptionsGone ns blueGreenRef ↔ w.InceptionsGone ns blueGreenRef := by
  unfold World.InceptionsGone
  rw [hage.deployments, hage.objects]

theorem checkLabelledGone_served :
    (served alive).Spec .free (fun o w' => Aged w w' ∧
        (o = some () ↔ w.InceptionsGone ns blueGreenRef)) E
      (checkLabelledGone ns (inceptionSelector blueGreenRef)) w := by
  refine countLabelled_served.bind ?_
  rintro n w' ⟨hage, hn⟩
  by_cases hzero : n = 0
  · rw [if_pos hzero]
    exact ⟨hage, by simpa using hn.mp hzero⟩
  · rw [if_neg hzero]
    refine served_plain trivial rfl ?_
    intro _ w'' hage'
    exact ⟨hage.trans hage', by simpa using fun h => hzero (hn.mpr h)⟩

/-- The wait ends when nothing of the inceptors is left, -/
theorem wait_ends (h : w.InceptionsGone ns blueGreenRef) :
    (served alive).Spec .free (fun _ w' => Aged w w') E
      (waitForInceptionResourcesDeleted ns blueGreenRef) w := by
  refine Outside.Spec.retryFirst (by omega) (checkLabelledGone_served.mono ?_ fun _ _ he => he)
  rintro o w' ⟨hage, ho⟩
  exact ⟨(), ho.mpr h, hage⟩

/-- and fails when something is. -/
theorem wait_fails (h : ¬ w.InceptionsGone ns blueGreenRef) :
    (served alive).Spec .free (fun _ _ => False) (fun _ w' => Aged w w')
      (waitForInceptionResourcesDeleted ns blueGreenRef) w := by
  refine Outside.Spec.retryNever (P := fun w' => Aged w w') (.refl w) ?_ fun _ hage => hage
  intro i w' hage
  refine checkLabelledGone_served.mono ?_ fun _ _ he => he
  rintro o w'' ⟨hage', ho⟩
  have hnot : o ≠ some () := fun heq => h ((World.InceptionsGone.aged hage).mp (ho.mp heq))
  refine ⟨?_, hage.trans hage'⟩
  cases o with
  | none => rfl
  | some u => exact absurd rfl hnot

end Waiting

/-! ## The two cleanups -/

/-- The names of the Deployments of the inceptors that a spec has, -/
def inceptionDeployments (bgd : BlueGreenDeployment) : List String :=
  bgd.spec.inceptionPoints.map fun ip => inceptionInstanceBaseName bgd.metadata.name ip.name

/-- and of their other objects. -/
def inceptorObjects (blueGreenRef : String) (ip : InceptionPoint) : List (Kind × String) :=
  [(.service, inceptionServiceName blueGreenRef ip.name),
    (.configMap, inceptionConfigMapName blueGreenRef ip.name),
    (.secret, inceptionAuthSecretName blueGreenRef ip.name)]

def inceptionObjects (bgd : BlueGreenDeployment) : List (Kind × String) :=
  bgd.spec.inceptionPoints.flatMap (inceptorObjects bgd.metadata.name)

def testDeployments (bgd : BlueGreenDeployment) : List String :=
  bgd.spec.test.toList.map fun test => testInstanceName bgd test.name

def testObjects (bgd : BlueGreenDeployment) : List (Kind × String) :=
  bgd.spec.test.toList.flatMap fun test =>
    [(.service, testInstanceName bgd test.name), (.secret, verifierAuthSecretName bgd)]

/-- Whatever carries the labels of an inceptor of this rollout has a name that the spec gives to
one of its inceptors. -/
def World.Reclaimable (w : World) (bgd : BlueGreenDeployment) (ns : String) : Prop :=
  (∀ d ∈ w.deployments, d.metadata.ns = ns → OfInceptor bgd.metadata.name d.metadata.labels →
    d.metadata.name ∈ inceptionDeployments bgd) ∧
  ∀ r ∈ w.objects, r.metadata.ns = ns → OfInceptor bgd.metadata.name r.metadata.labels →
    (r.kind, r.metadata.name) ∈ inceptionObjects bgd

/-- The names of the Deployments that a rollout of this spec creates, the candidate apart. -/
def rolloutDeployments (bgd : BlueGreenDeployment) : List String :=
  inceptionDeployments bgd ++ testDeployments bgd

/-- The names of the other objects it creates for its inception points and its test. -/
def rolloutObjects (bgd : BlueGreenDeployment) : List (Kind × String) :=
  inceptionObjects bgd ++ testObjects bgd

/-- Nothing that the rollout of this spec has created is left. -/
structure World.Removed (w : World) (old : BlueGreenDeployment) (ns : String) : Prop where
  deployments : ∀ d ∈ w.deployments, d.metadata.ns = ns → d.metadata.name ∉ rolloutDeployments old
  objects : ∀ r ∈ w.objects, r.metadata.ns = ns → (r.kind, r.metadata.name) ∉ rolloutObjects old

section Cleanup

variable {alive : String → Bool} {bgd : BlueGreenDeployment} {ns : String} {w₀ w : World}
  {ds : List String} {rs : List (Kind × String)} {E : ReconcileError → World → Prop}

theorem cleanupInceptionPoint_served (h : Swept ns w₀ ds rs w) (blueGreenRef : String)
    (ip : InceptionPoint) :
    (served alive).Spec .free (fun _ => Swept ns w₀
      (ds ++ [inceptionInstanceBaseName blueGreenRef ip.name])
      (rs ++ inceptorObjects blueGreenRef ip)) E
      (cleanupInceptionPoint ns blueGreenRef ip) w := by
  unfold cleanupInceptionPoint
  refine (h.deleteDeployment _).bind fun _ w₁ h₁ => ?_
  refine (h₁.deleteResource _ _).bind fun _ w₂ h₂ => ?_
  refine (h₂.deleteResource _ _).bind fun _ w₃ h₃ => ?_
  refine (h₃.deleteResource _ _).mono ?_ fun _ _ he => he
  intro _ w₄ h₄
  simpa [inceptorObjects] using h₄

/-- A loop each turn of which deletes some names. -/
theorem sweepEach {β : Type} (xs : List β) (body : β → Op Unit) (name : β → String)
    (objects : β → List (Kind × String))
    (hbody : ∀ x ds rs w', Swept ns w ds rs w' → (served alive).Spec .free
      (fun _ => Swept ns w (ds ++ [name x]) (rs ++ objects x)) E (body x) w') :
    (served alive).Spec .free (fun _ => Swept ns w (xs.map name) (xs.flatMap objects)) E
      (Prog.forEach xs body) w := by
  refine Outside.Spec.forEachDone (P := fun done => Swept ns w (done.map name)
    (done.flatMap objects)) (.refl ns w) ?_
  intro done x _ w' h
  simp only [List.map_append, List.map_cons, List.map_nil, List.flatMap_append,
    List.flatMap_cons, List.flatMap_nil, List.append_nil]
  exact hbody x _ _ w' h

/-- The deletions of `cleanup_inception_resources`. -/
theorem deleteInceptions_served (bgd : BlueGreenDeployment) (w : World) :
    (served alive).Spec .free
      (fun _ => Swept ns w (inceptionDeployments bgd) (inceptionObjects bgd)) E
      (Prog.forEach bgd.spec.inceptionPoints (cleanupInceptionPoint ns bgd.metadata.name)) w := by
  refine sweepEach bgd.spec.inceptionPoints (cleanupInceptionPoint ns bgd.metadata.name)
    (fun ip => inceptionInstanceBaseName bgd.metadata.name ip.name)
    (inceptorObjects bgd.metadata.name) ?_
  intro ip ds rs w' h
  exact cleanupInceptionPoint_served h bgd.metadata.name ip

/-- What is left is what has another name. -/
theorem Swept.inceptionsGone
    (h : Swept ns w₀ (inceptionDeployments bgd) (inceptionObjects bgd) w) :
    w.InceptionsGone ns bgd.metadata.name ↔ w₀.Reclaimable bgd ns := by
  unfold World.InceptionsGone World.Reclaimable
  rw [h.deployments, h.objects]
  simp only [List.mem_filter, decide_eq_true_eq, not_and, and_imp]
  constructor
  · rintro ⟨hdeployments, hobjects⟩
    constructor
    · intro d hd hns hlabels
      by_contra hname
      exact hdeployments d hd (fun _ => hname) hns hlabels
    · intro r hr hns hlabels
      by_contra hname
      exact hobjects r hr (fun _ => hname) hns hlabels
  · rintro ⟨hdeployments, hobjects⟩
    constructor
    · intro d hd hname hns hlabels
      exact hname hns (hdeployments d hd hns hlabels)
    · intro r hr hname hns hlabels
      exact hname hns (hobjects r hr hns hlabels)

/-- **The cleanup of the inceptors** ends exactly when no label refers to anything that it does not
delete by name. -/
theorem cleanupInceptionResources_served (h : w.Reclaimable bgd ns) :
    (served alive).Spec .free
      (fun _ => Swept ns w (inceptionDeployments bgd) (inceptionObjects bgd)) E
      (cleanupInceptionResources bgd ns) w := by
  refine (deleteInceptions_served bgd w).bind fun _ w₁ h₁ => ?_
  refine (wait_ends (h₁.inceptionsGone.mpr h)).mono ?_ fun _ _ he => he
  intro _ w₂ hage
  exact h₁.aged hage

theorem cleanupInceptionResources_fails (h : ¬ w.Reclaimable bgd ns) :
    (served alive).Spec .free (fun _ _ => False)
      (fun _ => Swept ns w (inceptionDeployments bgd) (inceptionObjects bgd))
      (cleanupInceptionResources bgd ns) w := by
  refine (deleteInceptions_served bgd w).bind fun _ w₁ h₁ => ?_
  refine (wait_fails fun hgone => h (h₁.inceptionsGone.mp hgone)).mono (fun _ _ hq => hq) ?_
  intro _ w₂ hage
  exact h₁.aged hage

/-- Nothing of these names is left. -/
theorem Swept.getDeployment (h : Swept ns w₀ ds rs w) {name : String} (hname : name ∈ ds) :
    w.getDeployment ns name = World.notFound name := by
  have hnone : World.findDeployment w.deployments ns name = none := by
    refine List.find?_eq_none.mpr fun d hd => ?_
    rw [h.deployments] at hd
    have hnot := (List.mem_filter.mp hd).2
    simp only [not_and, decide_eq_true_eq] at hnot ⊢
    rintro hns rfl
    exact hnot hns hname
  simp [World.getDeployment, hnone]

theorem Swept.getResource (h : Swept ns w₀ ds rs w) {kind : Kind} (hkind : kind ≠ .pod)
    {name : String} (hname : (kind, name) ∈ rs) :
    w.getResource kind ns name = World.notFound name := by
  have hnone : (w.resources.find? fun r => World.IsResource kind ns name r) = none := by
    refine List.find?_eq_none.mpr fun r hr => ?_
    intro hfound
    obtain ⟨rfl, hns, rfl⟩ := of_decide_eq_true hfound
    have hobject : r ∈ w.objects := List.mem_filter.mpr ⟨hr, by simpa using hkind⟩
    rw [h.objects] at hobject
    have hnot := (List.mem_filter.mp hobject).2
    simp only [not_and, decide_eq_true_eq] at hnot
    exact hnot hns hname
  simp [World.getResource, hnone]

theorem testResourcesExist_served (h : Swept ns w₀ ds rs w) {name : String} (hd : name ∈ ds)
    (hr : (.service, name) ∈ rs) :
    (served alive).Spec .free (fun r w' => r = (false, false) ∧ Swept ns w₀ ds rs w') E
      (testResourcesExist ns name) w := by
  refine served_plain trivial rfl ?_
  intro _ w₁ h₁
  rw [h.getDeployment hd]
  have hs₁ : Swept ns w₀ ds rs w₁ := h.aged h₁
  refine served_plain trivial rfl ?_
  intro _ w₂ h₂
  rw [hs₁.getResource (by simp) hr]
  exact ⟨rfl, hs₁.aged h₂⟩

/-- The wait for the test ends at once. -/
theorem waitForTest_served (h : Swept ns w₀ ds rs w) (hd : ∀ name ∈ testDeployments bgd, name ∈ ds)
    (hr : ∀ r ∈ testObjects bgd, r ∈ rs) :
    (served alive).Spec .free (fun _ => Swept ns w₀ ds rs) E
      (waitForTestResourcesDeleted bgd ns) w := by
  unfold waitForTestResourcesDeleted
  cases htest : bgd.spec.test with
  | none => exact h
  | some test =>
    have hname : testInstanceName bgd test.name ∈ ds := hd _ (by simp [testDeployments, htest])
    have hservice : (Kind.service, testInstanceName bgd test.name) ∈ rs :=
      hr _ (by simp [testObjects, htest])
    refine Outside.Spec.bind (R := fun _ => Swept ns w₀ ds rs) ?_ ?_
    · refine Outside.Spec.retryFirst (by omega) ?_
      refine (testResourcesExist_served h hname hservice).bind ?_
      rintro _ w₁ ⟨rfl, h₁⟩
      exact ⟨(), rfl, h₁⟩
    · intro _ w₁ h₁
      refine served_plain trivial rfl ?_
      intro _ w₂ hage₂
      rw [h₁.getDeployment hname]
      have h₂ := h₁.aged hage₂
      refine served_plain trivial rfl ?_
      intro _ w₃ hage₃
      rw [h₂.getResource (by simp) hservice]
      exact h₂.aged hage₃

/-- **The cleanup of the test** always ends. -/
theorem cleanupTestResources_served (h : Swept ns w₀ ds rs w) :
    (served alive).Spec .free
      (fun _ => Swept ns w₀ (ds ++ testDeployments bgd) (rs ++ testObjects bgd)) E
      (cleanupTestResources bgd ns) w := by
  have hwait : ∀ w₁, Swept ns w₀ (ds ++ testDeployments bgd) (rs ++ testObjects bgd) w₁ →
      (served alive).Spec .free
        (fun _ => Swept ns w₀ (ds ++ testDeployments bgd) (rs ++ testObjects bgd)) E
        (waitForTestResourcesDeleted bgd ns) w₁ := fun w₁ h₁ =>
    waitForTest_served h₁ (fun _ => List.mem_append_right _) fun _ => List.mem_append_right _
  unfold cleanupTestResources
  cases htest : bgd.spec.test with
  | none => exact hwait w (by simpa [testDeployments, testObjects, htest] using h)
  | some test =>
    refine (h.deleteDeployment _).bind fun _ w₁ h₁ => ?_
    refine (h₁.deleteResource _ _).bind fun _ w₂ h₂ => ?_
    refine (h₂.deleteResource _ _).bind fun _ w₃ h₃ => ?_
    exact hwait w₃ (by simpa [testDeployments, testObjects, htest] using h₃)

end Cleanup

end FluidBG
