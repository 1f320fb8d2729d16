import FluidBG.Proof.Greens
import FluidBG.Proof.Manifest
import FluidBG.Sample
/-!
# Handing production over

An attempt of the Promoting arm looks which Deployments are green, makes the candidate one of them,
waits for it, and only then deletes the other. Nothing records how far an attempt came: the next
one infers the previous green from what it finds, which is the old green, the old green and the
candidate, or the candidate alone. That these three are all there is to find is the invariant
below, and an attempt that is cut off anywhere leaves it behind.
-/

set_option autoImplicit false

namespace FluidBG

open Lib

/-- What stays the same while a promotion is tried again. -/
structure Handover where
  /-- The namespace of the `BlueGreenDeployment`. -/
  ns : String
  selector : DeploymentSelector
  candidate : DeploymentRef
  /-- The green when Promoting is entered. -/
  previous : String
  sameNamespace : deploymentNamespace candidate ns = selector.ns.getD ns

namespace Handover

variable (h : Handover)

def family : Family := h.selector.family h.ns

def identity : DeploymentIdentity := ⟨h.family.ns, h.candidate.name⟩

/-- An object the arm runs on, live or frozen. The rest of its spec may differ from one attempt to
the next. -/
structure Is (bgd : BlueGreenDeployment) : Prop where
  ns : bgd.metadata.ns = h.ns
  selector : bgd.spec.selector = h.selector
  candidate : candidateRef bgd = h.candidate

abbrev Job := { bgd : BlueGreenDeployment // h.Is bgd }

def attempt (ctx : Ctx) (job : h.Job) : Op Unit :=
  reconcilePromoting ctx job.val job.val.metadata.ns

/-- The labels of the selector are not those the operator takes off a green. -/
def Unreserved : Prop :=
  h.selector.matchLabels.get "fluidbg.io/blue-green-ref" = none ∧
    h.selector.matchLabels.get "fluidbg.io/blue-green-uid" = none

/-- Promoting is entered: one Deployment of the family is green. -/
structure Entered (w : World) : Prop where
  distinct : (w.deployments.map Deployment.identity).Nodup
  greens : h.family.greens w.deployments = [h.previous]
  phase : ∀ bgd, w.bgd = some bgd → bgd.phase ≠ some .draining

/-! ## The runs -/

/-- Has the attempt seen the candidate ready since it last wrote it? -/
def see (ready : Bool) (_ : World) (c : Call) (a : Answer c) (_ : World) : Bool :=
  match c, a with
  | .getDeployment ns name, .ok d =>
    ready || (decide (⟨ns, name⟩ = h.identity) && deploymentIsReady d)
  | .createDeployment ns d, _ => ready && decide (⟨ns, d.metadata.name⟩ ≠ h.identity)
  | .replaceDeployment ns name _, _ => ready && decide (⟨ns, name⟩ ≠ h.identity)
  | .applyDeployment ns name _, _ => ready && decide (⟨ns, name⟩ ≠ h.identity)
  | .deleteDeployment ns name, _ => ready && decide (⟨ns, name⟩ ≠ h.identity)
  | _, _ => ready

/-- The cluster beside what the attempt has seen; the next attempt has to look for itself. -/
abbrev machine : Machine Call Answer (World × Bool) Outcome Move :=
  cluster.observed h.see fun _ => false

/-- Nobody else changes who is green, and no two Deployments share a name. -/
def Leaves (ds : List Deployment) : Move → Prop
  | .setDeployments ds' => (ds'.map Deployment.identity).Nodup ∧
      (h.family.greens ds').Perm (h.family.greens ds)
  | _ => True

instance (ds : List Deployment) : (v : Move) → Decidable (h.Leaves ds v)
  | .setDeployments _ => inferInstanceAs (Decidable (_ ∧ _))
  | .editSpec _ | .delete | .tick _ | .register _ | .setVerdict _ _ _ _ | .markTimedOut _ _
  | .deploymentStatus _ _ _ | .setResources _ | .setEndpoints _ | .setNamespaces _
  | .setPlugins _ | .setOtherBgds _ => .isTrue trivial

def guard : Guard Call (World × Bool) Outcome Move where
  call _ _ _ := True
  move s v := h.Leaves s.1.deployments v

instance (s : World × Bool) (c : Call) (o : Outcome) : Decidable (h.guard.call s c o) :=
  .isTrue trivial

instance (s : World × Bool) (v : Move) : Decidable (h.guard.move s v) :=
  inferInstanceAs (Decidable (h.Leaves _ v))

abbrev outside : Outside Call Answer (World × Bool) := h.machine.outside h.guard

/-! ## The invariant -/

/-- What every attempt finds, wherever the one before was cut off. -/
structure Going (w : World) : Prop where
  distinct : (w.deployments.map Deployment.identity).Nodup
  within : ∀ n ∈ h.family.greens w.deployments, n = h.previous ∨ n = h.candidate.name
  nonempty : h.family.greens w.deployments ≠ []
  drained : ∀ bgd, w.bgd = some bgd → bgd.phase = some .draining →
    ∀ n ∈ h.family.greens w.deployments, n = h.candidate.name

/-- What may be deleted: the previous green, once the candidate has taken over. -/
def MayDelete (s : World × Bool) (ns name : String) : Prop :=
  ns = h.family.ns ∧ name = h.previous ∧ name ≠ h.candidate.name ∧
    h.candidate.name ∈ h.family.greens s.1.deployments ∧ s.2 = true

abbrev contract : Contract Call (World × Bool) where
  inv s := h.Going s.1
  may s c := ∀ ns name, c = .deleteDeployment ns name → h.MayDelete s ns name

variable {h} {w w' : World}

theorem Entered.going (he : h.Entered w) : h.Going w where
  distinct := he.distinct
  within n hn := by
    rw [he.greens] at hn
    exact .inl (List.mem_singleton.mp hn)
  nonempty := by simp [he.greens]
  drained bgd hb hp := absurd hp (he.phase bgd hb)

/-- The invariant only looks at who is green and at the phase. -/
theorem Going.of_greens (hw : h.Going w) (hd : (w'.deployments.map Deployment.identity).Nodup)
    (hgreens : ∀ n, n ∈ h.family.greens w'.deployments ↔ n ∈ h.family.greens w.deployments)
    (hphase : ∀ bgd', w'.bgd = some bgd' → bgd'.phase = some .draining →
      ∃ bgd, w.bgd = some bgd ∧ bgd.phase = some .draining) : h.Going w' where
  distinct := hd
  within n hn := hw.within n ((hgreens n).mp hn)
  nonempty := by
    obtain ⟨n, hn⟩ := List.exists_mem_of_ne_nil _ hw.nonempty
    exact List.ne_nil_of_mem ((hgreens n).mpr hn)
  drained bgd' hb' hp n hn := by
    obtain ⟨bgd, hb, hp⟩ := hphase bgd' hb' hp
    exact hw.drained bgd hb hp n ((hgreens n).mp hn)

/-! ## Telling the previous green -/

theorem candidateSeen_iff {greenNamespace ns : String} {ds : List Deployment}
    {candidate : DeploymentRef} (hns : deploymentNamespace candidate ns = greenNamespace) :
    candidateSeen greenNamespace ds candidate ns = true ↔
      candidate.name ∈ ds.map (·.metadata.name) := by
  simp [candidateSeen, hns]

theorem previousGreens_eq {greenNamespace ns : String} {ds : List Deployment}
    {candidate : DeploymentRef} (hns : deploymentNamespace candidate ns = greenNamespace) :
    previousGreens greenNamespace ds candidate ns =
      ((ds.map (·.metadata.name)).filter (· ≠ candidate.name)).map fun n =>
        ⟨n, some greenNamespace⟩ := by
  simp [previousGreens, hns, List.filter_map, Function.comp_def]

/-- What is deleted after this resolution: every green is the candidate or `current`. -/
structure Resolved (h : Handover) (names : List String) (current : DeploymentRef) : Prop where
  within : ∀ n ∈ names, n = h.candidate.name ∨ n = current.name
  name : current.name = h.previous ∨ current.name = h.candidate.name
  ns : deploymentNamespace current h.ns = h.family.ns

/-- **Whoever is found green, the previous green can be told.** -/
theorem resolves (h : Handover) {ds : List Deployment} (hn : (ds.map (·.metadata.name)).Nodup)
    (hwithin : ∀ n ∈ ds.map (·.metadata.name), n = h.previous ∨ n = h.candidate.name)
    (hne : ds.map (·.metadata.name) ≠ []) :
    ∃ current, selectPreviousGreenForPromotion h.family.ns ds h.candidate h.ns = .ok current ∧
      h.Resolved (ds.map (·.metadata.name)) current := by
  have hns : deploymentNamespace h.candidate h.ns = h.family.ns := h.sameNamespace
  generalize hnames : ds.map (·.metadata.name) = names at hn hwithin hne
  have hothers : names.filter (· ≠ h.candidate.name) = [] ∨
      names.filter (· ≠ h.candidate.name) = [h.previous] := by
    have hall : ∀ n ∈ names.filter (· ≠ h.candidate.name), n = h.previous := by
      intro n hmem
      obtain ⟨hin, hnot⟩ := List.mem_filter.mp hmem
      exact (hwithin n hin).resolve_right (of_decide_eq_true hnot)
    have hnodup := hn.filter (· ≠ h.candidate.name)
    generalize names.filter (· ≠ h.candidate.name) = others at hall hnodup
    match others with
    | [] => exact .inl rfl
    | [n] => exact .inr (by rw [hall n (by simp)])
    | n :: m :: _ =>
      have hnm : n = m := (hall n (by simp)).trans (hall m (by simp)).symm
      simp [hnm] at hnodup
  have hsplit : ∀ n ∈ names, n = h.candidate.name ∨ n ∈ names.filter (· ≠ h.candidate.name) := by
    intro n hin
    by_cases hc : n = h.candidate.name
    · exact .inl hc
    · exact .inr (List.mem_filter.mpr ⟨hin, by simpa using hc⟩)
  unfold selectPreviousGreenForPromotion
  rw [previousGreens_eq hns, hnames]
  rcases hothers with hnone | hone
  · -- the candidate is alone
    rw [hnone] at hsplit ⊢
    obtain ⟨n, hin⟩ := List.exists_mem_of_ne_nil _ hne
    have hcand : h.candidate.name ∈ names := by
      rcases hsplit n hin with rfl | hbad
      · exact hin
      · simp at hbad
    rw [(candidateSeen_iff hns).mpr (hnames ▸ hcand)]
    refine ⟨h.candidate, rfl, fun n hin => ?_, .inr rfl, hns⟩
    rcases hsplit n hin with hc | hbad
    · exact .inl hc
    · simp at hbad
  · -- the previous green is there, with the candidate or without it
    rw [hone] at hsplit ⊢
    refine ⟨⟨h.previous, some h.family.ns⟩, ?_, fun n hin => ?_, .inl rfl, rfl⟩
    · cases candidateSeen h.family.ns ds h.candidate h.ns <;> rfl
    · exact (hsplit n hin).imp_right List.mem_singleton.mp

theorem Going.resolves (hw : h.Going w) : ∃ current,
    selectPreviousGreenForPromotion h.family.ns (World.selectDeployments w.deployments h.family.ns
      (.ofLabels (greenLabels h.selector))) h.candidate h.ns = .ok current ∧
      h.Resolved (h.family.greens w.deployments) current := by
  have hnames := Family.names_selectGreens hw.nonempty
  have hresolved := @Handover.resolves h
    (World.selectDeployments w.deployments h.family.ns (.ofLabels (greenLabels h.selector)))
  rw [show World.selectDeployments w.deployments h.family.ns (.ofLabels (greenLabels h.selector)) =
    World.selectDeployments w.deployments (h.selector.ns.getD h.ns)
      (.ofLabels (greenLabels h.selector)) from rfl, hnames] at hresolved
  exact hresolved (Family.greens_nodup hw.distinct) hw.within hw.nonempty

/-! ## How far an attempt is -/

/-- Besides the candidate at most `current` is green; with the flags, the candidate is, and has
been seen ready. -/
structure Stage (h : Handover) (current : String) (green ready : Bool) (s : World × Bool) :
    Prop where
  going : h.Going s.1
  within : ∀ n ∈ h.family.greens s.1.deployments, n = h.candidate.name ∨ n = current
  promoted : green = true → h.candidate.name ∈ h.family.greens s.1.deployments
  seen : ready = true → s.2 = true

variable {s s' : World × Bool} {current : String} {green ready : Bool}

theorem Stage.of_greens (hs : h.Stage current green ready s) (hgoing : h.Going s'.1)
    (hgreens : ∀ n, n ∈ h.family.greens s'.1.deployments ↔ n ∈ h.family.greens s.1.deployments)
    (hready : s.2 = true → s'.2 = true) : h.Stage current green ready s' where
  going := hgoing
  within n hn := hs.within n ((hgreens n).mp hn)
  promoted hg := (hgreens _).mpr (hs.promoted hg)
  seen hr := hready (hs.seen hr)

theorem move_greens {v : Move} (hw : h.Going w) (hv : h.Leaves w.deployments v)
    (hm : w.move v = some w') : (w'.deployments.map Deployment.identity).Nodup ∧
      ∀ n, n ∈ h.family.greens w'.deployments ↔ n ∈ h.family.greens w.deployments := by
  cases v with
  | setDeployments ds =>
    cases hm
    exact ⟨hv.1, fun n => hv.2.mem_iff⟩
  | _ =>
    obtain ⟨hdistinct, hgreens⟩ := World.move_greens (by simp) hm
    exact ⟨hdistinct hw.distinct, hgreens h.family⟩

theorem moves_going (hw : h.Going s.1) (hm : h.outside.moves s s') : h.Going s'.1 ∧
    (∀ n, n ∈ h.family.greens s'.1.deployments ↔ n ∈ h.family.greens s.1.deployments) ∧
    s'.2 = s.2 := by
  obtain ⟨v, hv, hmove⟩ := hm
  obtain ⟨hm, hx⟩ := Machine.observed_move hmove
  obtain ⟨hdistinct, hgreens⟩ := move_greens hw hv hm
  refine ⟨hw.of_greens hdistinct hgreens fun bgd' hb' hp => ?_, hgreens, hx⟩
  obtain ⟨bgd, hb, hstatus, -⟩ := World.move_bgd hm hb'
  exact ⟨bgd, hb, by rwa [BlueGreenDeployment.phase, ← hstatus]⟩

theorem Stage.stable : h.outside.Stable (h.Stage current green ready) := by
  intro s s' hs hm
  obtain ⟨hgoing, hgreens, hx⟩ := moves_going hs.going hm
  exact hs.of_greens hgoing hgreens fun hr => hx.trans hr

theorem answers_iff {c : Call} {a : Answer c} (ha : h.outside.answers s c a s') :
    (∃ o, s.1.serve c o = some (a, s'.1)) ∧ s'.2 = h.see s.2 s.1 c a s'.1 := by
  obtain ⟨o, -, hserve⟩ := ha
  obtain ⟨hs, hx⟩ := Machine.observed_serve hserve
  exact ⟨⟨o, hs⟩, hx⟩

/-- Whoever writes no Deployment does not unsee the candidate. -/
theorem see_mono {c : Call} {a : Answer c} (hc : ¬ c.TouchesDeployments) (hr : s.2 = true) :
    h.see s.2 s.1 c a w' = true := by
  cases c with
  | createDeployment _ _ | replaceDeployment _ _ _ | applyDeployment _ _ _
  | deleteDeployment _ _ => exact absurd trivial hc
  | getDeployment ns name => cases a <;> simp [see, hr]
  | _ => exact hr

/-- A call that writes neither a Deployment nor the object. -/
theorem Stage.passive_call {c : Call} {a : Answer c} (hc : c.Passive)
    (hs : h.Stage current green ready s) (ha : h.outside.answers s c a s') :
    h.Stage current green ready s' := by
  obtain ⟨⟨o, hserve⟩, hx⟩ := answers_iff ha
  have hd := World.serve_deployments hc.2.1 hserve
  have hb := World.serve_work hc.upkeep.work hserve
  have hgreens : ∀ n, n ∈ h.family.greens s'.1.deployments ↔
      n ∈ h.family.greens s.1.deployments := fun n => by rw [hd]
  refine hs.of_greens (hs.going.of_greens (hd ▸ hs.going.distinct) hgreens fun bgd' hb' hp =>
    ⟨bgd', hb ▸ hb', hp⟩) hgreens fun hr => ?_
  rw [hx]
  exact see_mono hc.2.1 hr

theorem Stage.passive {α : Type} {p : Op α} (hp : Op.Passive p)
    (hs : h.Stage current green ready s) : h.outside.Spec h.contract
      (fun _ => h.Stage current green ready) (fun _ _ => True) p s := by
  refine (Outside.Spec.of_calls hp Stage.stable hs hs.going (fun s c hc _ _ ns name heq => ?_)
    fun s c a s' hc _ hs ha => ?_).mono (fun _ _ hq => hq.1) fun _ _ _ => trivial
  · subst heq
    exact absurd trivial hc.2.1
  · have hs' := hs.passive_call hc ha
    exact ⟨hs'.going, hs'⟩

theorem Stage.asks {α : Type} {p : Op α} (hp : Op.Asks p)
    (hs : h.Stage current green ready s) : h.outside.Spec h.contract
      (fun _ => h.Stage current green ready) (fun _ _ => True) p s :=
  hs.passive hp.passive

/-! ## The candidate becomes green -/

/-- Once the candidate has been written with labels that make it green, it is. -/
theorem Stage.wrote {P : Labels → Prop} (hP : ∀ labels, P labels → h.family.Green labels)
    (hs : h.Stage current green ready s) (hw : World.Wrote h.identity P s.1 s'.1)
    (hb : s'.1.bgd = s.1.bgd) : h.Stage current true false s' := by
  obtain ⟨hrewrites, hthere⟩ := hw
  have hgreen : h.candidate.name ∈ h.family.greens s'.1.deployments :=
    hrewrites.mem_greens_own hP hthere
  have hold : ∀ n ∈ h.family.greens s'.1.deployments,
      n = h.candidate.name ∨ n ∈ h.family.greens s.1.deployments := by
    intro n hn
    by_cases hc : n = h.candidate.name
    · exact .inl hc
    · refine .inr ((hrewrites.mem_greens_of_ne ?_).mp hn)
      simpa [identity] using hc
  refine ⟨⟨hrewrites.distinct hs.going.distinct, fun n hn => ?_, List.ne_nil_of_mem hgreen,
    fun bgd hbgd hp n hn => ?_⟩, fun n hn => ?_, fun _ => hgreen, fun hr => by cases hr⟩
  · rcases hold n hn with hc | hin
    · exact .inr hc
    · exact hs.going.within n hin
  · rcases hold n hn with hc | hin
    · exact hc
    · exact hs.going.drained bgd (hb ▸ hbgd) hp n hin
  · rcases hold n hn with hc | hin
    · exact .inl hc
    · exact hs.within n hin

/-- What is sent for a green makes it green. -/
theorem Going.manifest_green (hu : h.Unreserved) (hw : h.Going w) (bgd : BlueGreenDeployment) :
    h.family.Green (manifestLabels bgd h.selector.matchLabels true) := by
  obtain ⟨n, hn⟩ := List.exists_mem_of_ne_nil _ hw.nonempty
  obtain ⟨d₀, -, -, hcovers, hmark⟩ := Family.mem_greens.mp hn
  have hfamily : ∀ k v, h.family.labels.get k = some v →
      (OrdMap.empty.insertAll h.family.labels.entries).get k = some v :=
    OrdMap.covers_iff.mp (OrdMap.insertAll_covers _ _)
  refine ⟨OrdMap.covers_iff.mpr fun k v hkv => ?_, by
    simp [manifestLabels, OrdMap.get_remove, greenValue]⟩
  -- the two labels that are taken off are not in the selector
  have href : "fluidbg.io/blue-green-ref" ≠ k := by
    rintro rfl
    exact absurd (hkv.symm.trans hu.1) (by simp)
  have huid : "fluidbg.io/blue-green-uid" ≠ k := by
    rintro rfl
    exact absurd (hkv.symm.trans hu.2) (by simp)
  simp only [manifestLabels, if_pos, OrdMap.get_remove, if_neg href, if_neg huid,
    OrdMap.get_insert, greenValue]
  by_cases hk : "fluidbg.io/green" = k
  · subst hk
    rw [if_pos rfl]
    exact (hmark.symm.trans (OrdMap.covers_iff.mp hcovers _ _ hkv))
  · rw [if_neg hk]
    exact hfamily k v hkv

/-- A write of the candidate with green labels, which an answer of `ok` says has been made. -/
theorem Stage.write (hs : h.Stage current green ready s) (c : Call) (ok : Answer c → Prop)
    {labels : Labels} (hc : c.Work) (hdelete : ∀ ns name, c ≠ .deleteDeployment ns name)
    (hlabels : h.family.Green labels)
    (hserve : ∀ w o a w', World.serve w c o = some (a, w') →
      (w' = w ∧ ¬ ok a) ∨ World.Wrote h.identity (· = labels) w w') :
    h.outside.Spec h.contract (fun a s => ok a → h.Stage current true false s)
      (fun _ _ => True) (Op.ask c) s := by
  refine Outside.Spec.ask (fun ns name heq => absurd heq (hdelete ns name)) fun a s' ha => ?_
  obtain ⟨⟨o, hv⟩, hx⟩ := answers_iff ha
  rcases hserve _ o a _ hv with ⟨hsame, hfailed⟩ | hwrote
  · refine ⟨?_, fun s'' _ _ hok => absurd hok hfailed⟩
    show h.Going s'.1
    rw [hsame]
    exact hs.going
  · have hs' := hs.wrote (fun _ hl => hl ▸ hlabels) hwrote (World.serve_work hc hv)
    exact ⟨hs'.going, fun s'' hl _ _ => Stage.stable.later hs' hl⟩

variable {ctx : Ctx} {bgd : BlueGreenDeployment}

theorem Stage.applyGreen (hu : h.Unreserved) (hj : h.Is bgd)
    (hs : h.Stage current green ready s) : h.outside.Spec h.contract
      (fun id s => id = h.identity ∧ h.Stage current true false s) (fun _ _ => True)
      (applyDeploymentManifest ctx bgd bgd.metadata.ns bgd.spec.deployment
        bgd.spec.selector.matchLabels true []) s := by
  refine Outside.Spec.ofExcept_bind (fun _ _ => trivial) fun d hd => ?_
  have hmeta := deploymentManifest_metadata hd
  have hname : d.metadata.name = h.candidate.name := by
    rw [hmeta, ← hj.candidate]
    rfl
  have hns : d.metadata.ns = h.family.ns := by
    rw [hmeta, hj.ns]
    refine Eq.trans ?_ h.sameNamespace
    rw [← hj.candidate]
    rfl
  have hlabels : h.family.Green d.metadata.labels := by
    rw [hmeta, hj.selector]
    exact hs.going.manifest_green hu bgd
  have hid : (⟨d.metadata.ns, d.metadata.name⟩ : DeploymentIdentity) = h.identity := by
    rw [hns, hname]
    rfl
  have hwritten (r : Except KubeError Unit) {s : World × Bool}
      (hs : r = .ok () → h.Stage current true false s) :
      h.outside.Spec h.contract (fun id s => id = h.identity ∧ h.Stage current true false s)
        (fun _ _ => True) (Prog.bind (Op.kube r) fun _ =>
          (pure ⟨d.metadata.ns, d.metadata.name⟩ : Op DeploymentIdentity)) s := by
    cases r with
    | ok u => exact ⟨hid, hs rfl⟩
    | error e => trivial
  refine (hs.asks (Op.Asks.getDeployment _ _)).bind fun r s hs => ?_
  cases r with
  | ok existing =>
    refine (hs.write (.replaceDeployment d.metadata.ns d.metadata.name _) (· = .ok ()) id
      (fun _ _ => by simp) hlabels fun w o a w' hv => ?_).bind fun r s hs => hwritten r hs
    have hserved := World.serve_replaceDeployment hv
    rwa [hid] at hserved
  | error e =>
    cases e with
    | notFound text =>
      refine (hs.write (.createDeployment d.metadata.ns d) (· = .ok ()) id
        (fun _ _ => by simp) hlabels fun w o a w' hv => ?_).bind fun r s hs => hwritten r hs
      exact hid ▸ World.serve_createDeployment hv
    | conflict text => trivial
    | other text => trivial

/-! ## Waiting for the candidate -/

/-- **When the wait is over, the candidate has been seen ready.** -/
theorem Stage.await (hs : h.Stage current green ready s) : h.outside.Spec h.contract
    (fun _ => h.Stage current green true) (fun _ _ => True)
    (waitForDeploymentReady h.identity) s := by
  refine Outside.Spec.retry (P := h.Stage current green ready) hs (fun _ s hs => ?_)
    fun _ _ => trivial
  refine ⟨fun ns name heq => (by cases heq), fun r s' ha => ?_⟩
  have hs' := hs.passive_call (c := .getDeployment h.identity.ns h.identity.name) ⟨id, id, id⟩ ha
  have hseen : ∀ d, r = .ok d → deploymentIsReady d = true → h.Stage current green true s' := by
    rintro d rfl hready
    refine ⟨hs'.going, hs'.within, hs'.promoted, fun _ => ?_⟩
    obtain ⟨-, hx⟩ := answers_iff ha
    simp [hx, see, hready]
  refine ⟨hs'.going, fun s'' hl _ => ?_⟩
  cases r with
  | error e => trivial
  | ok d =>
    by_cases hready : deploymentIsReady d = true
    · have hnow := Stage.stable.later (hseen d rfl hready) hl
      show h.outside.Spec h.contract _ _ (if deploymentIsReady d = true then _ else _) s''
      rw [if_pos hready]
      exact hnow
    · have hlater := Stage.stable.later hs' hl
      show h.outside.Spec h.contract _ _ (if deploymentIsReady d = true then _ else _) s''
      rw [if_neg hready]
      exact (hlater.asks (Op.Asks.sleep 2)).bind fun _ s hs => hs

theorem Stage.awaitAll {ids : List DeploymentIdentity} (hids : ∀ id ∈ ids, id = h.identity)
    (hne : ids ≠ []) (hs : h.Stage current green ready s) : h.outside.Spec h.contract
      (fun _ => h.Stage current green true) (fun _ _ => True) (waitForDeploymentsReady ids) s := by
  cases ids with
  | nil => exact absurd rfl hne
  | cons id rest =>
    refine Outside.Spec.bind (hids id (by simp) ▸ hs.await) fun _ s hs => ?_
    refine Outside.Spec.forEach hs fun id' hmem s hs => ?_
    exact hids id' (by simp [hmem]) ▸ hs.await

/-! ## Restoring the candidate's wiring -/

/-- The patches are all for the candidate. -/
structure ForCandidate (h : Handover) (g : GroupedAssignments) : Prop where
  grouped : ∀ key ∈ g.grouped.keys, (⟨key.ns, key.name⟩ : DeploymentIdentity) = h.identity
  touched : ∀ id ∈ g.touched.keys, id = h.identity

theorem ForCandidate.add {g : GroupedAssignments} (hg : h.ForCandidate g)
    (assignment : PropertyAssignment) : h.ForCandidate (g.add h.identity assignment) := by
  constructor
  · intro key hkey
    rcases OrdMap.mem_keys_insert.mp hkey with rfl | hold
    · rfl
    · exact hg.grouped key hold
  · intro id hid
    rcases OrdMap.mem_keys_insert.mp hid with rfl | hold
    · rfl
    · exact hg.touched id hold

theorem groupAssignments_blue (hj : h.Is bgd) {assignments : List PropertyAssignment}
    (hblue : ∀ a ∈ assignments, a.target = .blue) :
    h.ForCandidate (groupAssignments bgd bgd.metadata.ns none assignments) ∧
      (assignments ≠ [] →
        (groupAssignments bgd bgd.metadata.ns none assignments).touched.keys ≠ []) := by
  have hid : assignmentIdentity bgd bgd.metadata.ns none .blue = some h.identity := by
    simp only [assignmentIdentity, hj.ns, hj.candidate, identity]
    rw [show deploymentNamespace h.candidate h.ns = h.family.ns from h.sameNamespace]
  constructor
  · refine List.foldlRecOn assignments _ ⟨by simp, by simp⟩ fun g hg a ha => ?_
    rw [hblue a ha, hid]
    exact hg.add a
  · intro hne
    obtain ⟨a, rest, rfl⟩ := List.exists_cons_of_ne_nil hne
    -- the first one touches the candidate, and no later one forgets it
    have hfirst : h.identity ∈
        (groupAssignments bgd bgd.metadata.ns none [a]).touched.keys := by
      simp [groupAssignments, hblue a, hid, GroupedAssignments.add]
    refine List.ne_nil_of_mem (a := h.identity) ?_
    refine List.foldlRecOn (motive := fun (g : GroupedAssignments) => h.identity ∈ g.touched.keys)
      rest _ hfirst fun g hg a' ha' => ?_
    rw [hblue a' (by simp [ha']), hid]
    exact OrdMap.mem_keys_insert.mpr (.inr hg)

/-- A patch of the candidate leaves it green, and unseen. -/
theorem Stage.patch {containerName : Option String} {env : List (String × String)}
    {ignoreMissing : Bool} (hs : h.Stage current true ready s) (hmissing : ignoreMissing = false) :
    h.outside.Spec h.contract (fun _ => h.Stage current true false) (fun _ _ => True)
      (patchTargetedDeploymentEnv h.identity.ns h.identity.name containerName env ignoreMissing)
      s := by
  subst hmissing
  refine ⟨fun ns name heq => (by cases heq), fun r s' ha => ?_⟩
  have hs' := hs.passive_call (c := .getDeployment h.identity.ns h.identity.name) ⟨id, id, id⟩ ha
  have hread : ∀ d, r = .ok d → h.family.Green d.metadata.labels := by
    rintro d rfl
    obtain ⟨⟨o, hv⟩, -⟩ := answers_iff ha
    obtain ⟨hmem, hid⟩ := World.serve_getDeployment hv
    -- the candidate is green, and no other Deployment has its name
    obtain ⟨d', hmem', hid', hgreen⟩ := Family.mem_greens.mp (hs.promoted rfl)
    have heq : d = d' :=
      List.inj_on_of_nodup_map hs.going.distinct hmem hmem' (hid.trans hid'.symm)
    exact heq ▸ hgreen
  refine ⟨hs'.going, fun s'' hl _ => ?_⟩
  have hs'' := Stage.stable.later hs' hl
  rcases r with e | d
  · cases e <;> trivial
  · refine Outside.Spec.ofExcept_bind (fun _ _ => trivial) fun patched hpatched => ?_
    have hmeta : patched.metadata = d.metadata := by
      unfold patchedDeployment at hpatched
      split at hpatched
      · cases hpatched
      · split at hpatched
        · cases hpatched
        · cases hpatched
          rfl
    refine (hs''.write (.replaceDeployment h.identity.ns h.identity.name patched) (· = .ok ()) id
      (fun _ _ => by simp) (hread d rfl) fun w o a w' hv => ?_).bind fun r s hs => ?_
    · exact hmeta ▸ World.serve_replaceDeployment hv
    · cases r with
      | ok u => exact hs rfl
      | error e => trivial

theorem Stage.weaken (hs : h.Stage current green ready s) : h.Stage current green false s :=
  ⟨hs.going, hs.within, hs.promoted, fun hr => by cases hr⟩

/-- The assignments of a drain are for the candidate alone. -/
theorem Stage.assign (hj : h.Is bgd) {assignments : List PropertyAssignment}
    (hblue : ∀ a ∈ assignments, a.target = .blue) (hne : assignments ≠ [])
    (hs : h.Stage current true ready s) : h.outside.Spec h.contract
      (fun ids s => (∀ id ∈ ids, id = h.identity) ∧ ids ≠ [] ∧ h.Stage current true false s)
      (fun _ _ => True) (applyAssignments bgd bgd.metadata.ns assignments false) s := by
  obtain ⟨hcandidate, htouched⟩ := groupAssignments_blue hj hblue
  have hnogreen : greenForAssignments bgd bgd.metadata.ns assignments = .pure none := by
    unfold greenForAssignments
    rw [if_neg]
    · rfl
    · simp only [List.any_eq_true, not_exists, not_and, decide_eq_true_eq]
      intro a ha hgreen
      rw [hblue a ha] at hgreen
      cases hgreen
  unfold applyAssignments
  rw [hnogreen]
  show h.outside.Spec _ _ _ (Prog.bind (Prog.forEach
    (groupAssignments bgd bgd.metadata.ns none assignments).grouped.entries _) _) s
  refine Outside.Spec.bind (Outside.Spec.forEach hs.weaken fun entry hentry s hs => ?_)
    fun _ s hs => ⟨hcandidate.touched, htouched hne, hs⟩
  have hkey := hcandidate.grouped entry.1 (List.mem_map_of_mem hentry)
  have hpatch : h.outside.Spec h.contract (fun _ => h.Stage current true false) (fun _ _ => True)
      (patchTargetedDeploymentEnv h.identity.ns h.identity.name entry.1.containerName
        entry.2.entries false) s := hs.patch rfl
  rwa [← hkey] at hpatch

/-- **Draining the points leaves the candidate green and seen ready.** -/
theorem Stage.drain (hj : h.Is bgd) (hs : h.Stage current true true s) :
    h.outside.Spec h.contract (fun _ => h.Stage current true true) (fun _ _ => True)
      (startPluginDraining ctx bgd bgd.metadata.ns [.blue]) s := by
  refine Outside.Spec.forEach hs fun ip _ s hs => ?_
  refine (hs.asks (Op.Asks.getPlugin _)).bind fun r s hs => (hs.asks (kube_calls r)).bind
    fun plugin s hs => (hs.asks (Op.Asks.invokeInceptorLifecycle _ _ _ _ _ _)).bind
      fun response s hs => ?_
  dsimp only
  split
  · exact hs
  · rename_i hne
    refine (hs.assign hj (fun a ha => ?_) hne).bind fun ids s hids => ?_
    · simpa [filterAssignments] using (List.mem_filter.mp ha).2
    · exact hids.2.2.awaitAll hids.1 hids.2.1

/-! ## The arm -/

theorem Going.stage (hw : h.Going s.1) : h.Stage h.previous false false s :=
  ⟨hw, fun n hn => (hw.within n hn).symm, fun hg => (by cases hg), fun hr => (by cases hr)⟩

theorem Stage.note (hs : h.Stage current green ready s) (n : Note) : h.outside.Spec h.contract
    (fun _ => h.Stage current green ready) (fun _ _ => True) (Op.note n) s := by
  refine Outside.Spec.ask (fun ns name heq => by cases heq) fun a s' ha => ?_
  obtain ⟨⟨o, hv⟩, hx⟩ := answers_iff ha
  have hs' : h.Stage current green ready s' := by
    rw [show s' = s from Prod.ext (World.serve_note hv) hx]
    exact hs
  exact ⟨hs'.going, fun s'' hl _ => Stage.stable.later hs' hl⟩

theorem Stage.resolve (hj : h.Is bgd) (hs : h.Stage current false false s) :
    h.outside.Spec h.contract
      (fun found s => ((found.name = h.previous ∨ found.name = h.candidate.name) ∧
        deploymentNamespace found h.ns = h.family.ns) ∧ h.Stage found.name false false s)
      (fun _ _ => True)
      (resolvePreviousGreenForPromotion bgd.metadata.ns bgd.spec.selector (candidateRef bgd)) s := by
  rw [hj.ns, hj.selector, hj.candidate]
  unfold resolvePreviousGreenForPromotion
  split
  · trivial
  refine ⟨fun ns name heq => (by cases heq), fun r s' ha => ?_⟩
  have hs' := hs.passive_call (c := .listDeployments (h.selector.ns.getD h.ns)
    (.ofLabels (greenLabels h.selector))) ⟨id, id, id⟩ ha
  refine ⟨hs'.going, fun s'' hl _ => ?_⟩
  cases r with
  | error e => trivial
  | ok ds =>
    obtain ⟨⟨o, hv⟩, -⟩ := answers_iff ha
    -- the list is what is green at this moment
    have hds := World.serve_listDeployments hv
    have hd : s'.1.deployments = s.1.deployments := World.serve_deployments id hv
    obtain ⟨found, hselect, hresolved⟩ := hs'.going.resolves
    have hstage : h.Stage found.name false false s' :=
      ⟨hs'.going, hresolved.within, fun hg => (by cases hg), fun hr => (by cases hr)⟩
    show h.outside.Spec h.contract _ _ (Op.lift (selectPreviousGreenForPromotion
      (h.selector.ns.getD h.ns) ds h.candidate h.ns)) s''
    rw [hds, ← hd]
    unfold family DeploymentSelector.family at hselect
    rw [hselect]
    exact ⟨⟨hresolved.name, hresolved.ns⟩, Stage.stable.later hstage hl⟩

/-- **The previous green goes, and the candidate is alone.** -/
theorem Stage.deleteGreen {found : DeploymentRef} (hj : h.Is bgd)
    (hname : found.name = h.previous ∨ found.name = h.candidate.name)
    (hns : deploymentNamespace found h.ns = h.family.ns)
    (hs : h.Stage found.name true true s) : h.outside.Spec h.contract
      (fun _ => h.Stage h.candidate.name true false) (fun _ _ => True)
      (deleteCurrentGreen bgd.metadata.ns (candidateRef bgd) found) s := by
  rw [hj.ns, hj.candidate]
  have hcandidate : deploymentNamespace h.candidate h.ns = h.family.ns := h.sameNamespace
  unfold deleteCurrentGreen
  dsimp only
  rw [hcandidate, hns]
  split
  · rename_i hsame
    -- the candidate was the only green already
    refine ⟨hs.going, fun n hn => .inl ?_, hs.promoted, fun hr => by cases hr⟩
    rcases hs.within n hn with hc | hf
    · exact hc
    · exact hf.trans hsame.1.symm
  · rename_i hother
    have hne : found.name ≠ h.candidate.name := fun heq => hother ⟨heq.symm, rfl⟩
    refine ⟨fun ns name heq => ?_, fun r s' ha => ?_⟩
    · cases heq
      exact ⟨rfl, hname.resolve_right hne, hne, hs.promoted rfl, hs.seen rfl⟩
    · obtain ⟨⟨o, hv⟩, -⟩ := answers_iff ha
      have hb : s'.1.bgd = s.1.bgd := World.serve_work (c := .deleteDeployment _ _) id hv
      obtain ⟨hkept, hgone⟩ := World.serve_deleteDeployment hv
      have hothers : ∀ n, n ≠ found.name →
          (n ∈ h.family.greens s'.1.deployments ↔ n ∈ h.family.greens s.1.deployments) := by
        intro n hn
        rcases hkept with heq | hrewrites
        · rw [heq]
        · exact hrewrites.mem_greens_of_ne (by simpa using hn)
      have hsub : ∀ n ∈ h.family.greens s'.1.deployments,
          n ∈ h.family.greens s.1.deployments := by
        intro n hn
        rcases hkept with heq | hrewrites
        · exact heq ▸ hn
        · by_cases hf : n = found.name
          · subst hf
            obtain ⟨d, hd, hid, -⟩ := Family.mem_greens.mp hn
            exact (hrewrites.own d hd hid).elim
          · exact (hothers n hf).mp hn
      have hpromoted := (hothers _ hne.symm).mpr (hs.promoted rfl)
      have hdistinct : (s'.1.deployments.map Deployment.identity).Nodup := by
        rcases hkept with heq | hrewrites
        · exact heq ▸ hs.going.distinct
        · exact hrewrites.distinct hs.going.distinct
      have hgoing : h.Going s'.1 := ⟨hdistinct, fun n hn => hs.going.within n (hsub n hn),
        List.ne_nil_of_mem hpromoted,
        fun bgd hbgd hp n hn => hs.going.drained bgd (hb ▸ hbgd) hp n (hsub n hn)⟩
      have halone (hanswer : ∀ text, r ≠ .error (.other text)) :
          h.Stage h.candidate.name true false s' := by
        refine ⟨hgoing, fun n hn => .inl ?_, fun _ => hpromoted, fun hr => by cases hr⟩
        rcases hs.within n (hsub n hn) with hc | hf
        · exact hc
        · subst hf
          obtain ⟨d, hd, hid, -⟩ := Family.mem_greens.mp hn
          exact absurd hid (hgone hanswer d hd)
      refine ⟨hgoing, fun s'' hl _ => ?_⟩
      rcases r with e | u
      · cases e with
        | notFound text => exact Stage.stable.later (halone (by simp)) hl
        | conflict text => trivial
        | other text => trivial
      · exact Stage.stable.later (halone (by simp)) hl

/-- Where the candidate is alone, the status may say what it likes. -/
theorem Stage.report {α : Type} {p : Op α} (hp : Op.Reports p)
    (hs : h.Stage h.candidate.name true false s) : h.outside.Spec h.contract
      (fun _ => h.Stage h.candidate.name true false) (fun _ _ => True) p s := by
  have hwrites {c : Call} (hc : c.Reports) : ¬ c.TouchesDeployments := by
    cases c <;> first | exact id | exact hc.elim
  refine (Outside.Spec.of_calls hp Stage.stable hs hs.going (fun s c hc _ _ ns name heq => ?_)
    fun s c a s' hc _ hs ha => ?_).mono (fun _ _ hq => hq.1) fun _ _ _ => trivial
  · subst heq
    exact hc.elim
  · obtain ⟨⟨o, hv⟩, -⟩ := answers_iff ha
    have hd := World.serve_deployments (hwrites hc) hv
    have hgoing : h.Going s'.1 := by
      refine ⟨hd ▸ hs.going.distinct, hd ▸ hs.going.within, hd ▸ hs.going.nonempty,
        fun bgd _ _ n hn => ?_⟩
      rw [hd] at hn
      exact (hs.within n hn).elim id id
    exact ⟨hgoing, hgoing, hd ▸ hs.within, hd ▸ hs.promoted, fun hr => by cases hr⟩

/-- **An attempt of the arm**, from whatever the ones before have left. -/
theorem attempt_spec (hu : h.Unreserved) (job : h.Job) (hw : h.Going s.1) :
    h.outside.Spec h.contract (fun _ _ => True) (fun _ _ => True) (h.attempt ctx job) s := by
  obtain ⟨bgd, hj⟩ := job
  refine Outside.Spec.bind (R := fun found s =>
    ((found.name = h.previous ∨ found.name = h.candidate.name) ∧
      deploymentNamespace found h.ns = h.family.ns) ∧ h.Stage found.name true true s) ?_
    fun found s hfound => ?_
  · -- `promote`
    refine (hw.stage.note _).bind fun _ s hs => (hs.resolve hj).bind fun found s hfound => ?_
    refine (hfound.2.applyGreen hu hj).bind fun id s hid => ?_
    have hids : ∀ id' ∈ [id], id' = h.identity := by simp [hid.1]
    exact (hid.2.awaitAll hids (by simp)).bind fun _ s hs => ⟨hfound.1, hs⟩
  · -- draining
    refine Outside.Spec.bind (R := fun _ => h.Stage h.candidate.name true false) ?_
      fun _ s hs => (hs.report (Op.Reports.startDrain _ _)).mono (fun _ _ _ => trivial)
        fun _ _ _ => trivial
    refine (hfound.2.note _).bind fun _ s hs => (hs.drain hj).bind fun _ s hs => ?_
    exact (hs.deleteGreen hj hfound.1.1 hfound.1.2).bind fun _ s hs => hs.note _

/-! ## The runs of the arm -/

theorem run_good (hu : h.Unreserved) (he : h.Entered w)
    {s : Conf Call Answer ReconcileError (World × Bool)}
    (r : Machine.Run h.machine (h.attempt ctx) h.guard ⟨(w, false), none⟩ s) :
    Machine.Good h.machine h.guard h.contract s := by
  refine r.sound (fun s s' hs hm => (moves_going hs hm).1) (fun _ hs => hs)
    (fun job s hs => attempt_spec hu job hs) (.of_idle he.going)

/-- What holds at every point of a promotion. -/
structure Safe (h : Handover) (s : Conf Call Answer ReconcileError (World × Bool)) : Prop where
  /-- Only the previous green is deleted, where the candidate is green and seen ready. -/
  deletes : ∀ ns name k, s.running = some (.call (.deleteDeployment ns name) k) →
    h.MayDelete s.world ns name
  /-- An attempt that lists the greens here can tell the previous one. -/
  resolvable : ∃ current, selectPreviousGreenForPromotion h.family.ns
    (World.selectDeployments s.world.1.deployments h.family.ns
      (.ofLabels (greenLabels h.selector))) h.candidate h.ns = .ok current
  drained : ∀ bgd, s.world.1.bgd = some bgd → bgd.phase = some .draining →
    h.family.greens s.world.1.deployments = [h.candidate.name]

/-- **Promotion is safe to cut off and to try again**, wherever its attempts stop and whatever the
rest of the cluster does meanwhile. -/
theorem promotion_resumes (hu : h.Unreserved) (he : h.Entered w)
    {s : Conf Call Answer ReconcileError (World × Bool)}
    (r : Machine.Run h.machine (h.attempt ctx) h.guard ⟨(w, false), none⟩ s) : h.Safe s := by
  have hgood := run_good hu he r
  have hgoing : h.Going s.world.1 := hgood.1
  refine ⟨fun ns name k hr => hgood.may hr ns name rfl, ?_, fun bgd hb hp => ?_⟩
  · obtain ⟨current, hselect, -⟩ := hgoing.resolves
    exact ⟨current, hselect⟩
  · have hall := hgoing.drained bgd hb hp
    have hnodup := Family.greens_nodup (f := h.family) hgoing.distinct
    have hne := hgoing.nonempty
    generalize h.family.greens s.world.1.deployments = greens at hall hnodup hne
    match greens with
    | [] => exact absurd rfl hne
    | [n] => rw [hall n (by simp)]
    | n :: m :: _ =>
      have hnm : n = m := (hall n (by simp)).trans (hall m (by simp)).symm
      simp [hnm] at hnodup

end Handover

/-! ## A promotion cut off once -/

namespace Sample

/-- The handover of the small cluster, with these labels in the selector. -/
def handover (matchLabels : Labels) : Handover where
  ns := "default"
  selector := ⟨none, matchLabels⟩
  candidate := ⟨"shop-x7k2q9", none⟩
  previous := "shop-old"
  sameNamespace := rfl

/-- The object in Promoting, with these labels in its selector. -/
def promotingBgd (matchLabels : Labels) : BlueGreenDeployment :=
  { bgd .promoting with spec := { spec with selector := ⟨none, matchLabels⟩ } }

def handoverJob (matchLabels : Labels) : (handover matchLabels).Job :=
  ⟨promotingBgd matchLabels, rfl, rfl, rfl⟩

/-- The old green and the candidate, both with these labels besides the mark. -/
def handoverWorld (matchLabels : Labels) : World :=
  { world .promoting [] with
    bgd := some (promotingBgd matchLabels)
    deployments := [deployment "shop-old" "true", deployment "shop-x7k2q9" "false"].map fun d =>
      d.mapLabels fun labels => labels.insertAll matchLabels.entries }

/-- An attempt that is cut off after the candidate was made green, and one that goes through. -/
def handoverRun (matchLabels : Labels) : List (Event (handover matchLabels).Job Outcome Move) :=
  .start (handoverJob matchLabels) :: List.replicate 4 (.answer .ok) ++ [.stop] ++
  .start (handoverJob matchLabels) :: List.replicate 4 (.answer .ok) ++
  [.move (.deploymentStatus "default" "shop-x7k2q9" (some ⟨some 2, some 1, some 1⟩))] ++
  List.replicate 9 (.answer .ok) ++ [.stop]

/-- The phase, all Deployments and the greens of the family. -/
def handoverEnd (matchLabels : Labels)
    (s : Conf Call Answer ReconcileError (World × Bool)) :
    Option BGDPhase × List String × List String :=
  (s.world.1.bgd.bind (·.phase), s.world.1.deployments.map (·.metadata.name),
    (handover matchLabels).family.greens s.world.1.deployments)

/-- Where the two attempts lead. -/
def handoverResult (matchLabels : Labels) : Option (Option BGDPhase × List String × List String) :=
  (Machine.run (handover matchLabels).guard (handover matchLabels).machine
    ((handover matchLabels).attempt ctx) ⟨(handoverWorld matchLabels, false), none⟩
    (handoverRun matchLabels)).map (handoverEnd matchLabels)

theorem handover_entered (matchLabels : Labels)
    (h : (handover matchLabels).family.greens (handoverWorld matchLabels).deployments =
      ["shop-old"]) : (handover matchLabels).Entered (handoverWorld matchLabels) where
  distinct := by
    show [(⟨"default", "shop-old"⟩ : DeploymentIdentity), ⟨"default", "shop-x7k2q9"⟩].Nodup
    simp
  greens := h
  phase := by
    rintro b ⟨⟩ hphase
    cases hphase

def shopLabels : Labels := .ofList [("app", "shop")]

def refLabels : Labels := .ofList [("fluidbg.io/blue-green-ref", "shop")]

end Sample

def Handover.promotionResumesCutOffRun : PLift (Sample.handoverResult Sample.shopLabels =
      some (some .draining, ["shop-x7k2q9"], ["shop-x7k2q9"])) :=
  ⟨by decide +kernel⟩

theorem Handover.promotion_resumes_cut_off : ∃ s,
    Sample.handoverEnd Sample.shopLabels s =
      (some .draining, ["shop-x7k2q9"], ["shop-x7k2q9"]) ∧
    (Sample.handover Sample.shopLabels).Safe s := by
  have hrun := Handover.promotionResumesCutOffRun.down
  obtain ⟨s, r, hs⟩ := Machine.Run.exists_of_run hrun
  have hentered := Sample.handover_entered Sample.shopLabels (by decide +kernel)
  exact ⟨s, hs, Handover.promotion_resumes ⟨rfl, rfl⟩ hentered r⟩

def Handover.reservedLabelLosesGreenRun : PLift (Sample.handoverResult Sample.refLabels =
      some (some .draining, ["shop-x7k2q9"], [])) :=
  ⟨by decide +kernel⟩

/-- A selector with a label the operator takes off loses the candidate when it becomes green, and
the old green is deleted all the same. -/
theorem Handover.reserved_label_loses_green :
    ¬ ∀ (h : Handover) (ctx : Ctx) (w : World)
      (s : Conf Call Answer ReconcileError (World × Bool)), h.Entered w →
      Machine.Run h.machine (h.attempt ctx) h.guard ⟨(w, false), none⟩ s → h.Safe s := by
  intro hall
  have hrun := Handover.reservedLabelLosesGreenRun.down
  obtain ⟨s, r, hs⟩ := Machine.Run.exists_of_run hrun
  have hentered := Sample.handover_entered Sample.refLabels (by decide +kernel)
  have hsafe := hall _ _ _ s hentered r
  simp only [Sample.handoverEnd, Prod.mk.injEq] at hs
  obtain ⟨bgd, hb, hp⟩ := Option.bind_eq_some_iff.mp hs.1
  -- Draining is reached, but nobody is green
  have hgreens := hsafe.drained bgd hb hp
  rw [hs.2.2] at hgreens
  cases hgreens

end FluidBG
