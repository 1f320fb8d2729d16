import FluidBG.Proof.Status
/-!
# The green Deployments of a family

A family is the Deployments of one namespace that carry the labels of a selector; production is
those of them that are marked green. What a call does to the Deployments is said once as
`Rewrites`: one name may get new labels or go away, everything else stays. Which Deployments are
green afterwards is then read off the labels that were written.
-/

set_option autoImplicit false

namespace FluidBG

open Lib

/-- The Deployments of a namespace that carry these labels. -/
structure Family where
  ns : String
  labels : Labels

/-- The family of an object in the namespace `ns`. -/
def DeploymentSelector.family (selector : DeploymentSelector) (ns : String) : Family :=
  ⟨selector.ns.getD ns, selector.matchLabels⟩

namespace Family

variable {f : Family} {ds ds' : List Deployment} {n : String}

/-- These labels mark a member of the family as green. -/
def Green (f : Family) (labels : Labels) : Prop :=
  labels.Covers f.labels ∧ labels.get "fluidbg.io/green" = some "true"

instance (f : Family) (labels : Labels) : Decidable (f.Green labels) :=
  inferInstanceAs (Decidable (_ ∧ _))

/-- The names of the green members. -/
def greens (f : Family) (ds : List Deployment) : List String :=
  (ds.filter fun d => d.metadata.ns = f.ns ∧ f.Green d.metadata.labels).map (·.metadata.name)

theorem mem_greens : n ∈ f.greens ds ↔
    ∃ d ∈ ds, d.identity = ⟨f.ns, n⟩ ∧ f.Green d.metadata.labels := by
  simp only [greens, List.mem_map, List.mem_filter, decide_eq_true_eq]
  constructor
  · rintro ⟨d, ⟨hd, hns, hgreen⟩, rfl⟩
    exact ⟨d, hd, by simp [Deployment.identity, hns], hgreen⟩
  · rintro ⟨d, hd, hid, hgreen⟩
    simp only [Deployment.identity, DeploymentIdentity.mk.injEq] at hid
    exact ⟨d, ⟨hd, hid.1, hgreen⟩, hid.2⟩

/-- Where no two Deployments share a name, no green is listed twice. -/
theorem greens_nodup (h : (ds.map Deployment.identity).Nodup) : (f.greens ds).Nodup := by
  have hfiltered := h.sublist (List.filter_sublist
    (p := fun d => decide (d.metadata.ns = f.ns ∧ f.Green d.metadata.labels)) |>.map _)
  rw [List.nodup_map_iff_inj_on (h.of_map _ |>.filter _)] at hfiltered
  refine (List.nodup_map_iff_inj_on (h.of_map _ |>.filter _)).mpr fun d hd d' hd' hname => ?_
  refine hfiltered d hd d' hd' ?_
  have hns := (of_decide_eq_true (List.mem_filter.mp hd).2).1
  have hns' := (of_decide_eq_true (List.mem_filter.mp hd').2).1
  simp [Deployment.identity, hns, hns', hname]

/-- Once some member is green, the operator's selector for greens finds exactly the greens. -/
theorem covers_greenLabels {selector : DeploymentSelector} {ns : String} {labels₀ labels : Labels}
    (h : (selector.family ns).Green labels₀) :
    labels.Covers (greenLabels selector) ↔ (selector.family ns).Green labels := by
  simp only [greenLabels, Green, DeploymentSelector.family, OrdMap.covers_iff, OrdMap.get_insert]
  constructor
  · intro hall
    have hgreen := hall "fluidbg.io/green" "true" (by simp)
    refine ⟨fun k v hkv => ?_, hgreen⟩
    by_cases hk : "fluidbg.io/green" = k
    · -- the selector may name the mark itself, but only as what the member has
      subst hk
      have hv := OrdMap.covers_iff.mp h.1 _ _ hkv
      rw [h.2] at hv
      rwa [← hv]
    · exact hall k v (by rwa [if_neg hk])
  · rintro ⟨hall, hgreen⟩ k v hkv
    by_cases hk : "fluidbg.io/green" = k
    · subst hk
      rw [if_pos rfl] at hkv
      rwa [← hkv]
    · rw [if_neg hk] at hkv
      exact hall k v hkv

theorem names_selectGreens {selector : DeploymentSelector} {ns : String} {ds : List Deployment}
    (h : (selector.family ns).greens ds ≠ []) :
    (World.selectDeployments ds (selector.ns.getD ns) (.ofLabels (greenLabels selector))).map
      (·.metadata.name) = (selector.family ns).greens ds := by
  obtain ⟨n, hn⟩ := List.exists_mem_of_ne_nil _ h
  obtain ⟨d₀, -, -, hgreen⟩ := mem_greens.mp hn
  unfold World.selectDeployments greens
  simp only [LabelSelector.ofLabels_matches, covers_greenLabels hgreen]
  rfl

end Family

/-! ## What is written -/

/-- Only the Deployment under this identity differs, and its labels meet `P`. -/
structure Rewrites (id : DeploymentIdentity) (P : Labels → Prop) (ds ds' : List Deployment) :
    Prop where
  own : ∀ d ∈ ds', d.identity = id → P d.metadata.labels
  others : ∀ d, d.identity ≠ id → (d ∈ ds' ↔ d ∈ ds)
  distinct : (ds.map Deployment.identity).Nodup → (ds'.map Deployment.identity).Nodup

namespace Rewrites

variable {f : Family} {id : DeploymentIdentity} {P : Labels → Prop} {ds ds' : List Deployment}
  {n : String}

/-- Which of the others are green does not change. -/
theorem mem_greens_of_ne (h : Rewrites id P ds ds') (hne : ⟨f.ns, n⟩ ≠ id) :
    n ∈ f.greens ds' ↔ n ∈ f.greens ds := by
  simp only [Family.mem_greens]
  refine exists_congr fun d => ?_
  by_cases hd : d.identity = ⟨f.ns, n⟩
  · rw [h.others d (hd ▸ hne)]
  · simp [hd]

/-- Whoever is written green is green. -/
theorem mem_greens_own (h : Rewrites ⟨f.ns, n⟩ P ds ds') (hP : ∀ labels, P labels → f.Green labels)
    (hd : ∃ d ∈ ds', d.identity = ⟨f.ns, n⟩) : n ∈ f.greens ds' := by
  obtain ⟨d, hd, hid⟩ := hd
  exact Family.mem_greens.mpr ⟨d, hd, hid, hP _ (h.own d hd hid)⟩

end Rewrites

theorem findDeployment_none {ds : List Deployment} {ns name : String}
    (h : World.findDeployment ds ns name = none) : ∀ d ∈ ds, d.identity ≠ ⟨ns, name⟩ := by
  intro d hd hid
  have hno := List.find?_eq_none.mp h d hd
  simp only [Deployment.identity, DeploymentIdentity.mk.injEq] at hid
  exact hno (by simpa using hid)

theorem findDeployment_some {ds : List Deployment} {ns name : String} {d : Deployment}
    (h : World.findDeployment ds ns name = some d) : d ∈ ds ∧ d.identity = ⟨ns, name⟩ := by
  refine ⟨List.mem_of_find?_eq_some h, ?_⟩
  have hp := List.find?_some h
  simp only [decide_eq_true_eq] at hp
  simp [Deployment.identity, hp]

/-- A Deployment that is added. -/
theorem Rewrites.append {ds : List Deployment} {d : Deployment}
    (hfresh : ∀ d' ∈ ds, d'.identity ≠ d.identity) :
    Rewrites d.identity (· = d.metadata.labels) ds (ds ++ [d]) where
  own d' hd' hid := by
    rcases List.mem_append.mp hd' with hold | hnew
    · exact absurd hid (hfresh d' hold)
    · rw [List.mem_singleton.mp hnew]
  others d' hne := by
    have hd : d' ≠ d := fun heq => hne (heq ▸ rfl)
    simp [hd]
  distinct hn := by
    rw [List.map_append, List.nodup_append]
    refine ⟨hn, List.nodup_singleton _, ?_⟩
    rintro id hid id' hid' rfl
    obtain ⟨d', hd', rfl⟩ := List.mem_map.mp hid
    exact hfresh d' hd' (List.mem_singleton.mp hid')

/-- A Deployment that is changed where it is. -/
theorem Rewrites.map {ds : List Deployment} {ns name : String} {P : Labels → Prop}
    {g : Deployment → Deployment} (hid : ∀ d, (g d).identity = d.identity)
    (hP : ∀ d ∈ ds, d.identity = ⟨ns, name⟩ → P (g d).metadata.labels) :
    Rewrites ⟨ns, name⟩ P ds (World.mapDeployment ds ns name g) := by
  have hkeep (d : Deployment) : (if d.metadata.ns = ns ∧ d.metadata.name = name then g d
      else d).identity = d.identity := by
    split
    · exact hid d
    · rfl
  have hown {d : Deployment} : d.identity = ⟨ns, name⟩ ↔
      d.metadata.ns = ns ∧ d.metadata.name = name := by
    simp [Deployment.identity]
  refine ⟨fun d hd hdid => ?_, fun d hne => ?_, fun hn => ?_⟩
  · obtain ⟨d₀, hd₀, rfl⟩ := List.mem_map.mp hd
    rw [hkeep] at hdid
    rw [if_pos (hown.mp hdid)]
    exact hP d₀ hd₀ hdid
  · constructor
    · intro hd
      obtain ⟨d₀, hd₀, rfl⟩ := List.mem_map.mp hd
      rw [hkeep] at hne
      rwa [if_neg fun h => hne (hown.mpr h)]
    · intro hd
      exact List.mem_map.mpr ⟨d, hd, if_neg fun h => hne (hown.mpr h)⟩
  · have heq : (World.mapDeployment ds ns name g).map Deployment.identity =
        ds.map Deployment.identity := by
      rw [World.mapDeployment, List.map_map]
      exact List.map_congr_left fun d _ => hkeep d
    rwa [heq]

/-- A Deployment that is taken away. -/
theorem Rewrites.drop {ds : List Deployment} {ns name : String} :
    Rewrites ⟨ns, name⟩ (fun _ => False) ds (World.dropDeployment ds ns name) where
  own d hd hid := by
    have hkept := (List.mem_filter.mp hd).2
    simp only [Deployment.identity, DeploymentIdentity.mk.injEq] at hid
    simp [hid] at hkept
  others d hne := by
    simp only [Deployment.identity, ne_eq, DeploymentIdentity.mk.injEq] at hne
    simp only [World.dropDeployment, List.mem_filter, hne, not_false_eq_true, decide_true,
      and_true]
  distinct hn := hn.sublist (List.filter_sublist.map _)

namespace World

variable {w w' : World} {o : Outcome}

/-- What a list of Deployments is answered with. -/
theorem serve_listDeployments {ns : String} {selector : LabelSelector} {ds : List Deployment}
    (h : w.serve (.listDeployments ns selector) o = some (.ok ds, w')) :
    ds = selectDeployments w.deployments ns selector := by
  have hr := respond_ok h
  simp only [Prod.mk.injEq, Except.ok.injEq] at hr
  exact hr.1.symm

/-- The Deployment that is read is there. -/
theorem serve_getDeployment {ns name : String} {d : Deployment}
    (h : w.serve (.getDeployment ns name) o = some (.ok d, w')) :
    d ∈ w.deployments ∧ d.identity = ⟨ns, name⟩ := by
  have hr := congrArg Prod.fst (respond_ok h)
  simp only [getDeployment] at hr
  cases hf : findDeployment w.deployments ns name with
  | none => simp [hf, notFound] at hr
  | some stored =>
    simp only [hf, Except.ok.injEq] at hr
    exact hr ▸ findDeployment_some hf

/-- The answer is the server's, or an error that may hide what the server did. -/
theorem respond_cases {α : Type} {r : Except KubeError α × World} {a : Except KubeError α}
    (h : w.respond o r = some (a, w')) :
    (w' = r.2 ∧ a = r.1) ∨ ((w' = w ∨ w' = r.2) ∧ ∃ text, a = .error (.other text)) := by
  cases o <;> simp only [respond, Option.some.injEq, reduceCtorEq] at h
  · subst h
    exact .inl ⟨rfl, rfl⟩
  · cases h
    exact .inr ⟨.inl rfl, _, rfl⟩
  · cases h
    exact .inr ⟨.inr rfl, _, rfl⟩

/-- A write that fails at the server is not answered well; any other has been carried out unless
it was refused. -/
theorem respond_write {r : Except KubeError Unit × World} {a : Except KubeError Unit}
    {P : World → Prop} (h : w.respond o r = some (a, w'))
    (hr : (r.2 = w ∧ r.1 ≠ .ok ()) ∨ P r.2) : (w' = w ∧ a ≠ .ok ()) ∨ P w' := by
  rcases respond_cases h with ⟨rfl, rfl⟩ | ⟨rfl | rfl, text, rfl⟩
  · exact hr
  · exact .inl ⟨rfl, by simp⟩
  · rcases hr with ⟨heq, -⟩ | hp
    · exact .inl ⟨heq, by simp⟩
    · exact .inr hp

/-- The Deployment under this identity has been written: it is there, with labels in `P`. -/
def Wrote (id : DeploymentIdentity) (P : Labels → Prop) (w w' : World) : Prop :=
  Rewrites id P w.deployments w'.deployments ∧ ∃ d ∈ w'.deployments, d.identity = id

/-- A creation adds the Deployment, or fails. -/
theorem serve_createDeployment {ns : String} {d : Deployment} {a : Except KubeError Unit}
    (h : w.serve (.createDeployment ns d) o = some (a, w')) : (w' = w ∧ a ≠ .ok ()) ∨
      Wrote ⟨ns, d.metadata.name⟩ (· = d.metadata.labels) w w' := by
  refine respond_write h ?_
  unfold createDeployment
  cases hf : findDeployment w.deployments ns d.metadata.name with
  | some d₀ => exact .inl ⟨rfl, by simp⟩
  | none =>
    exact .inr ⟨.append (d := newDeployment d ns w.nextVersion) (findDeployment_none hf),
      newDeployment d ns w.nextVersion, by simp, rfl⟩

/-- A replacement puts the labels that were sent, or fails. -/
theorem serve_replaceDeployment {ns name : String} {d : Deployment} {a : Except KubeError Unit}
    (h : w.serve (.replaceDeployment ns name d) o = some (a, w')) : (w' = w ∧ a ≠ .ok ()) ∨
      Wrote ⟨ns, name⟩ (· = d.metadata.labels) w w' := by
  refine respond_write h ?_
  unfold replaceDeployment
  cases hf : findDeployment w.deployments ns name with
  | none => exact .inl ⟨rfl, by simp [notFound]⟩
  | some stored =>
    dsimp only
    split
    · obtain ⟨hmem, hid⟩ := findDeployment_some hf
      refine .inr ⟨.map (fun _ => rfl) fun _ _ _ => rfl,
        updatedDeployment stored d.metadata.labels d.spec w.nextVersion, ?_, hid⟩
      refine List.mem_map.mpr ⟨stored, hmem, if_pos ?_⟩
      simpa [Deployment.identity] using hid
    · exact .inl ⟨rfl, by simp⟩

/-- A deletion takes the Deployment away; answered well, or with its absence, it is not there. -/
theorem serve_deleteDeployment {ns name : String} {a : Except KubeError Unit}
    (h : w.serve (.deleteDeployment ns name) o = some (a, w')) :
    (w' = w ∨ Rewrites ⟨ns, name⟩ (fun _ => False) w.deployments w'.deployments) ∧
      ((∀ text, a ≠ .error (.other text)) → ∀ d ∈ w'.deployments, d.identity ≠ ⟨ns, name⟩) := by
  cases hf : findDeployment w.deployments ns name with
  | none =>
    have hr : w.deleteDeployment ns name = (notFound name, w) := by simp [deleteDeployment, hf]
    have hw : w' = w := by
      rcases respond_world h with rfl | rfl
      · rfl
      · rw [hr]
    subst hw
    exact ⟨.inl rfl, fun _ => findDeployment_none hf⟩
  | some d₀ =>
    have hr : (w.deleteDeployment ns name).2.deployments =
        dropDeployment w.deployments ns name := by simp [deleteDeployment, hf]
    have hdrop : Rewrites ⟨ns, name⟩ (fun _ => False) w.deployments
        (w.deleteDeployment ns name).2.deployments := hr ▸ .drop
    rcases respond_cases h with ⟨rfl, rfl⟩ | ⟨rfl | rfl, text, rfl⟩
    · exact ⟨.inr hdrop, fun _ d hd hid => hdrop.own d hd hid⟩
    · exact ⟨.inl rfl, fun hne => absurd rfl (hne text)⟩
    · exact ⟨.inr hdrop, fun hne => absurd rfl (hne text)⟩

end World

/-- A call that writes none leaves the Deployments alone. -/
theorem World.serve_deployments {w w' : World} {c : Call} {o : Outcome} {a : Answer c}
    (hc : ¬ c.TouchesDeployments) (h : w.serve c o = some (a, w')) :
    w'.deployments = w.deployments := by
  cases c with
  | createDeployment _ _ | replaceDeployment _ _ _ | applyDeployment _ _ _
  | deleteDeployment _ _ => exact absurd trivial hc
  | replaceStatus ns name b =>
    rcases serve_replaceStatus h with rfl | ⟨stored, -, -, rfl⟩ <;> rfl
  | patchStatus ns name patch =>
    rcases serve_patchStatus h with rfl | ⟨stored, -, rfl⟩ <;> rfl
  | patchFinalizers ns name finalizers =>
    rcases serve_patchFinalizers h with rfl | rfl | ⟨stored, -, rfl⟩ <;> rfl
  | applyResource kind ns name r =>
    rcases respond_world h with rfl | rfl
    · rfl
    · unfold World.applyResource
      dsimp only
      split <;> rfl
  | deleteResource kind ns name =>
    rcases respond_world h with rfl | rfl
    · rfl
    · unfold World.deleteResource
      split <;> rfl
  | setVerdict key testId passed failureMessage =>
    rcases respondStore_world h with rfl | rfl
    · rfl
    · cases w.store.setVerdict key testId passed failureMessage <;> rfl
  | markTimedOut key testId =>
    rcases respondStore_world h with rfl | rfl
    · rfl
    · cases w.store.markTimedOut key testId <;> rfl
  | decrementRetries key testId =>
    rcases respondStore_world h with rfl | rfl
    · rfl
    · cases w.store.decrementRetries key testId <;> rfl
  | cleanupBlueGreen _ | counts _ | countsForMode _ _ | latestFailureMessage _
  | listBlueGreenRefs | register _ | getCase _ _ | listPending =>
    rcases respondStore_world h with rfl | rfl <;> rfl
  | pollVerifier _ _ | controlPlaneClient _ | postManager _ _ _ | postManagerSync _ _ _
  | postInceptor _ _ | getDrainStatus _ _ | postTraffic _ _ _ | now | sleep _ | note _ =>
    cases o <;> cases h
    all_goals rfl
  | _ => rcases respond_world h with rfl | rfl <;> rfl

/-- Unless somebody else sets the Deployments, they keep their names and labels. -/
theorem World.move_greens {w w' : World} {v : Move} (hv : ∀ ds, v ≠ .setDeployments ds)
    (hm : w.move v = some w') :
    ((w.deployments.map Deployment.identity).Nodup →
      (w'.deployments.map Deployment.identity).Nodup) ∧
    ∀ (f : Family) (n : String), n ∈ f.greens w'.deployments ↔ n ∈ f.greens w.deployments := by
  have hsame {w'' : World} (heq : w''.deployments = w.deployments) :
      ((w.deployments.map Deployment.identity).Nodup →
        (w''.deployments.map Deployment.identity).Nodup) ∧
      ∀ (f : Family) (n : String), n ∈ f.greens w''.deployments ↔ n ∈ f.greens w.deployments := by
    rw [heq]
    exact ⟨id, fun _ _ => Iff.rfl⟩
  cases v with
  | setDeployments ds => exact absurd rfl (hv ds)
  | deploymentStatus ns name status =>
    cases hm
    have hrewrites : Rewrites ⟨ns, name⟩ (fun _ => True) w.deployments
        (mapDeployment w.deployments ns name fun d => { d with
          status := status
          metadata := { d.metadata with resourceVersion := some w.nextVersion } }) :=
      .map (fun _ => rfl) fun _ _ _ => trivial
    refine ⟨hrewrites.distinct, fun f n => ?_⟩
    -- a report leaves the labels alone
    simp only [Family.mem_greens, World.mapDeployment, List.mem_map]
    constructor
    · rintro ⟨d', ⟨d, hd, rfl⟩, hid, hgreen⟩
      refine ⟨d, hd, ?_, ?_⟩
      · split at hid <;> exact hid
      · split at hgreen <;> exact hgreen
    · rintro ⟨d, hd, hid, hgreen⟩
      refine ⟨_, ⟨d, hd, rfl⟩, ?_, ?_⟩
      · split <;> exact hid
      · split <;> exact hgreen
  | editSpec spec =>
    simp only [World.move, World.editSpec, Option.map_eq_some_iff] at hm
    obtain ⟨b, -, rfl⟩ := hm
    exact hsame rfl
  | delete =>
    simp only [World.move, World.delete, Option.map_eq_some_iff] at hm
    obtain ⟨b, -, rfl⟩ := hm
    split <;> exact hsame rfl
  | setVerdict r t p m =>
    simp only [World.move] at hm
    split at hm <;> cases hm
    exact hsame rfl
  | markTimedOut r t =>
    simp only [World.move] at hm
    split at hm <;> cases hm
    exact hsame rfl
  | _ =>
    simp only [World.move, Option.some.injEq] at hm
    subst hm
    exact hsame rfl

end FluidBG
