import FluidBG.Lib.Trace
import FluidBG.Proof.SweepComplete
/-!
# The leftovers of a replaced object

What a sweep is for: that nothing is left of the objects that are gone, and that the names the
operator generates are free for the objects there are. An object tells whom it belongs to by its
labels, the name and the uid; a record does not, so whom it was registered for is said by a map
beside the cluster.
-/

set_option autoImplicit false

namespace FluidBG

open Lib

namespace World

/-- The pair of labels belongs to an existing object. -/
def Lives (w : World) (ref uid : String) : Prop :=
  ∃ b ∈ w.bgds, b.metadata.name = ref ∧ b.metadata.uid = some uid

/-- The labels carry a pair that belongs to no existing object. -/
def LeftOver (w : World) (labels : Labels) : Prop :=
  ∃ ref uid, labels.get "fluidbg.io/blue-green-ref" = some ref ∧
    labels.get "fluidbg.io/blue-green-uid" = some uid ∧ ¬ w.Lives ref uid

/-- The record was registered for an object that is gone; `origin` tells the uid of that object. -/
def Unclaimed (w : World) (origin : TestCaseRecord → String) (run : TestCaseRecord) : Prop :=
  ¬ ∃ b ∈ w.bgds, blueGreenStateKey b.metadata.ns b.metadata.name = run.blueGreenRef ∧
    b.metadata.uid = some (origin run)

variable {w₀ w : World}

theorem Within.leftOver (h : Within w₀ w) {labels : Labels} :
    w.LeftOver labels ↔ w₀.LeftOver labels := by
  unfold LeftOver Lives
  rw [h.bgds]

theorem Within.unclaimed (h : Within w₀ w) {origin : TestCaseRecord → String}
    {run : TestCaseRecord} : w.Unclaimed origin run ↔ w₀.Unclaimed origin run := by
  unfold Unclaimed
  rw [h.bgds]

/-- An object that is left over is swept under a key. -/
theorem LeftOver.ownerKey {labels : Labels} (h : w.LeftOver labels) (ns : String) :
    ∃ key, ownerKey ns labels = some key := by
  obtain ⟨ref, _, href, _⟩ := h
  exact ⟨blueGreenStateKey ns ref, by simp [FluidBG.ownerKey, href]⟩

end World

/-! ## Generated objects -/

namespace GeneratedObject

/-- `apply_resource` where the object belongs. -/
def apply : GeneratedObject → Op Unit
  | .deployment d => applyDeploymentResource d.metadata.ns d.metadata.name d
  | .resource r => applyResource r.kind r.metadata.ns r.metadata.name r

/-- The labels of what has the name of the object already. -/
def existing (g : GeneratedObject) (w : World) : Option Labels :=
  match g with
  | .deployment d =>
    (World.findDeployment w.deployments d.metadata.ns d.metadata.name).map (·.metadata.labels)
  | .resource r => (w.resources.find? fun stored =>
      World.IsResource r.kind r.metadata.ns r.metadata.name stored).map (·.metadata.labels)

/-- `ensure_apply_target_available` refuses the object. -/
def Refused (g : GeneratedObject) (w : World) : Prop :=
  ∃ message w', cluster.eval .ok g.apply w = some (.error (.resource message), w')

end GeneratedObject

section Refusal

variable {α : Type} {w : World}

/-- The request for what has the name, and the check against it. -/
theorem eval_ensureAvailable {c : Call} {f : Answer c → Except KubeError α}
    {labels : α → Labels} {answer : Answer c} {stored : Option α} {name : String}
    {expected : Labels} {rest : Op Unit} (hs : w.serve c .ok = some (answer, w))
    (hstored : getOpt (f answer) = .pure stored) :
    cluster.eval .ok (Prog.bind (Op.ask c) fun r => Prog.bind (getOpt (f r)) fun existing =>
        Prog.bind (refuseForeign name expected (existing.map labels)) fun _ => rest) w =
      cluster.eval .ok
        (Prog.bind (refuseForeign name expected (stored.map labels)) fun _ => rest) w := by
  have hask : cluster.eval .ok (Op.ask c) w = some (.ok answer, w) := Machine.Reads.ask hs
  have hget : cluster.eval .ok (getOpt (f answer)) w = some (.ok stored, w) := by
    rw [hstored]
    rfl
  rw [Machine.eval_bind hask, Machine.eval_bind hget]

/-- The request that applies an object is not refused by the check. -/
theorem eval_apply_ne {c : Call} {f : Answer c → Except KubeError Unit} {message : String}
    {w' : World} : cluster.eval .ok (Prog.bind (Op.ask c) fun r =>
      Prog.bind (Op.kube (f r)) fun _ => (pure () : Op Unit)) w ≠
        some (.error (.resource message), w') := by
  intro h
  cases hs : w.serve c .ok with
  | none =>
    have hnone : cluster.serve w c .ok = none := hs
    simp [Op.ask, Prog.ask, Prog.bind, Machine.eval, hnone] at h
  | some answered =>
    obtain ⟨r, w₁⟩ := answered
    have hask : cluster.eval .ok (Op.ask c) w = some (.ok r, w₁) := by
      have hserve : cluster.serve w c .ok = some (r, w₁) := hs
      simp [Op.ask, Prog.ask, Machine.eval, hserve]
    rw [Machine.eval_bind hask] at h
    cases hr : f r with
    | ok _ =>
      rw [hr] at h
      cases h
    | error e =>
      rw [hr] at h
      cases h

/-- The check refuses exactly what is there and is not owned. -/
theorem refuses_iff {stored : Option Labels} {name : String} {expected : Labels} {rest : Op Unit}
    (hrest : ∀ message w', cluster.eval .ok rest w ≠ some (.error (.resource message), w')) :
    (∃ message w', cluster.eval .ok (Prog.bind (refuseForeign name expected stored) fun _ => rest) w
        = some (.error (.resource message), w')) ↔
      ∃ labels ∈ stored, ownedBy expected labels = false := by
  cases stored with
  | none =>
    constructor
    · intro ⟨message, w', h⟩
      exact absurd h (hrest message w')
    · intro ⟨labels, h, _⟩
      cases h
  | some labels =>
    unfold refuseForeign
    by_cases hown : ownedBy expected labels = true
    · simp only [hown, if_true]
      constructor
      · intro ⟨message, w', h⟩
        exact absurd h (hrest message w')
      · intro ⟨labels', hmem, hnot⟩
        cases hmem
        rw [hown] at hnot
        cases hnot
    · simp only [hown]
      constructor
      · intro _
        exact ⟨labels, rfl, by simpa using hown⟩
      · intro _
        exact ⟨_, w, rfl⟩

/-- Code that looks up what has the name, checks it and applies the object. -/
theorem checked_iff {p : Op Unit} {c e : Call} {f : Answer c → Except KubeError α}
    {g : Answer e → Except KubeError Unit} {labels : α → Labels} {answer : Answer c}
    {stored : Option α} {name : String} {expected : Labels}
    (hp : p = Prog.bind (Op.ask c) fun r => Prog.bind (getOpt (f r)) fun existing =>
      Prog.bind (refuseForeign name expected (existing.map labels)) fun _ =>
        Prog.bind (Op.ask e) fun r => Prog.bind (Op.kube (g r)) fun _ => (pure () : Op Unit))
    (hs : w.serve c .ok = some (answer, w)) (hstored : getOpt (f answer) = .pure stored) :
    (∃ message w', cluster.eval .ok p w = some (.error (.resource message), w')) ↔
      ∃ there ∈ stored.map labels, ownedBy expected there = false := by
  rw [hp, eval_ensureAvailable hs hstored]
  exact refuses_iff fun _ _ => eval_apply_ne

/-- **What is refused**: an object whose name is taken by one that is not owned. -/
theorem GeneratedObject.refused_iff {g : GeneratedObject}
    (href : (g.metadata.labels.get "fluidbg.io/blue-green-ref").isSome) :
    g.Refused w ↔ ∃ labels ∈ g.existing w, ownedBy g.metadata.labels labels = false := by
  cases g with
  | deployment d =>
    refine checked_iff (f := id) (g := id) (e := .applyDeployment _ _ _)
      (c := .getDeployment d.metadata.ns d.metadata.name) (if_pos href) rfl ?_
    unfold World.getDeployment
    cases World.findDeployment w.deployments d.metadata.ns d.metadata.name <;> rfl
  | resource r =>
    refine checked_iff (f := id) (g := id) (e := .applyResource _ _ _ _)
      (c := .getResource r.kind r.metadata.ns r.metadata.name) (if_pos href) rfl ?_
    unfold World.getResource
    cases w.resources.find? fun stored =>
      World.IsResource r.kind r.metadata.ns r.metadata.name stored <;> rfl

end Refusal

theorem testLabels_ref (bgd : BlueGreenDeployment) (logicalName runtimeName : String) :
    (testLabels bgd logicalName runtimeName).get "fluidbg.io/blue-green-ref" =
      some bgd.metadata.name :=
  OrdMap.get_ofList_of_mem (e := ("fluidbg.io/blue-green-ref", bgd.metadata.name)) (by simp)
    (by simp)

/-- Every generated object carries the reference. -/
theorem Generates.ref {ctx : Ctx} {bgd : BlueGreenDeployment} {g : GeneratedObject}
    (h : Generates ctx bgd g) :
    g.metadata.labels.get "fluidbg.io/blue-green-ref" = some bgd.metadata.name := by
  cases h with
  | snapshot specYaml =>
    exact OrdMap.get_ofList_of_mem (e := ("fluidbg.io/blue-green-ref", bgd.metadata.name))
      (by simp) (by simp)
  | inceptorDeployment ip _ plugin testUrl authToken manager resources h d hd =>
    exact (reconcileInceptionPoint_ns h d.placement
      (List.mem_append_left _ (List.mem_map_of_mem hd))).2
  | inceptorResource ip _ plugin testUrl authToken manager resources h r hr =>
    exact (reconcileInceptionPoint_ns h r.placement
      (List.mem_append_right _ (List.mem_map_of_mem hr))).2
  | verifierAuth =>
    exact OrdMap.get_ofList_of_mem (e := ("fluidbg.io/blue-green-ref", bgd.metadata.name))
      (by simp) (by simp)
  | testDeployment test _ _ _ d h =>
    show d.metadata.labels.get _ = _
    rw [testDeployment_metadata h]
    exact testLabels_ref bgd test.name _
  | testService test => exact testLabels_ref bgd test.name _

namespace World

/-- **What a sweep is for**: nothing is left over, and no object is refused the names of what is
generated for it. -/
structure SweptClean (ctx : Ctx) (origin : TestCaseRecord → String) (w : World) : Prop where
  deployments : ∀ d ∈ w.deployments, ¬ w.LeftOver d.metadata.labels
  resources : ∀ r ∈ w.resources, ¬ w.LeftOver r.metadata.labels
  records : ∀ run ∈ w.store.records, ¬ w.Unclaimed origin run
  admits : ∀ b ∈ w.bgds, ∀ g, Generates ctx b g → ¬ g.Refused w

/-- Nothing that is to go has the key of an existing object. -/
structure ToldApart (ctx : Ctx) (origin : TestCaseRecord → String) (w : World) : Prop where
  deployments : ∀ d ∈ w.deployments, w.LeftOver d.metadata.labels →
    ∀ key ∈ ownerKey d.metadata.ns d.metadata.labels, key ∉ w.existingKeys
  resources : ∀ r ∈ w.resources, w.LeftOver r.metadata.labels →
    ∀ key ∈ ownerKey r.metadata.ns r.metadata.labels, key ∉ w.existingKeys
  records : ∀ run ∈ w.store.records, w.Unclaimed origin run → run.blueGreenRef ∉ w.existingKeys
  /-- What has the name of a generated object and is not owned. -/
  places : ∀ b ∈ w.bgds, ∀ g, Generates ctx b g → ∀ labels ∈ g.existing w,
    ownedBy g.metadata.labels labels = false →
      ∃ key ∈ ownerKey g.metadata.ns labels, key ∉ w.existingKeys

end World

section Clean

variable {w₀ w : World} {g : GeneratedObject} {labels : Labels}

/-- Something in the cluster has the name of the object, and these labels. -/
def GeneratedObject.Taken (g : GeneratedObject) (w : World) (labels : Labels) : Prop :=
  match g with
  | .deployment d => ∃ there ∈ w.deployments, there.metadata.ns = d.metadata.ns ∧
      there.metadata.name = d.metadata.name ∧ there.metadata.labels = labels
  | .resource r => ∃ there ∈ w.resources,
      World.IsResource r.kind r.metadata.ns r.metadata.name there ∧ there.metadata.labels = labels

theorem GeneratedObject.taken_of_existing (h : g.existing w = some labels) :
    g.Taken w labels := by
  cases g with
  | deployment d =>
    obtain ⟨there, hthere, hlabels⟩ := Option.map_eq_some_iff.mp h
    have hname := List.find?_some hthere
    simp only [decide_eq_true_eq] at hname
    exact ⟨there, List.mem_of_find?_eq_some hthere, hname.1, hname.2, hlabels⟩
  | resource r =>
    obtain ⟨there, hthere, hlabels⟩ := Option.map_eq_some_iff.mp h
    have hname := List.find?_some hthere
    simp only [decide_eq_true_eq] at hname
    exact ⟨there, List.mem_of_find?_eq_some hthere, hname, hlabels⟩

/-- Where names are distinct, what has the name is what is found under it. -/
theorem World.Distinct.existing (hd : w.Distinct) (h : g.Taken w labels) :
    g.existing w = some labels := by
  cases g with
  | deployment d =>
    obtain ⟨there, hmem, hns, hname, hlabels⟩ := h
    have hsome : (World.findDeployment w.deployments d.metadata.ns d.metadata.name).isSome := by
      rw [World.findDeployment, List.find?_isSome]
      exact ⟨there, hmem, by simp [hns, hname]⟩
    obtain ⟨found, hfound⟩ := Option.isSome_iff_exists.mp hsome
    have hat := List.find?_some hfound
    simp only [decide_eq_true_eq] at hat
    have heq : found = there := by
      refine hd.deployments found (List.mem_of_find?_eq_some hfound) there hmem ?_
      simp [Deployment.identity, hat.1, hat.2, hns, hname]
    show (World.findDeployment _ _ _).map _ = _
    rw [hfound, heq, ← hlabels]
    rfl
  | resource r =>
    obtain ⟨there, hmem, ⟨hkind, hns, hname⟩, hlabels⟩ := h
    have hsome : (w.resources.find? fun stored =>
        World.IsResource r.kind r.metadata.ns r.metadata.name stored).isSome := by
      rw [List.find?_isSome]
      exact ⟨there, hmem, by simp [World.IsResource, hkind, hns, hname]⟩
    obtain ⟨found, hfound⟩ := Option.isSome_iff_exists.mp hsome
    have hat := List.find?_some hfound
    simp only [decide_eq_true_eq] at hat
    have heq : found = there := hd.resources found (List.mem_of_find?_eq_some hfound) there hmem
      (hat.1.trans hkind.symm) (hat.2.1.trans hns.symm) (hat.2.2.trans hname.symm)
    show (w.resources.find? _).map _ = _
    rw [hfound, heq, ← hlabels]
    rfl

theorem GeneratedObject.Taken.within (h : g.Taken w labels) (hw : World.Within w₀ w) :
    g.Taken w₀ labels := by
  cases g with
  | deployment d =>
    obtain ⟨there, hmem, hat⟩ := h
    exact ⟨there, hw.deployments there hmem, hat⟩
  | resource r =>
    obtain ⟨there, hmem, hat⟩ := h
    exact ⟨there, hw.resources there hmem, hat⟩

/-- What a sweep keeps still has its name. -/
theorem GeneratedObject.Taken.kept {kept : List String} (h : g.Taken w₀ labels)
    (hs : World.Swept kept w₀ w) (hkey : ∀ key ∈ ownerKey g.metadata.ns labels, key ∈ kept) :
    g.Taken w labels := by
  cases g with
  | deployment d =>
    obtain ⟨there, hmem, hns, hname, hlabels⟩ := h
    subst hlabels
    refine ⟨there, hs.keptDeployments there hmem ?_, hns, hname, rfl⟩
    rw [hns]
    exact hkey
  | resource r =>
    obtain ⟨there, hmem, hat, hlabels⟩ := h
    subst hlabels
    refine ⟨there, hs.keptResources there hmem ?_, hat, rfl⟩
    rw [hat.2.1]
    exact hkey

theorem World.Neat.taken (h : w.Neat) (htaken : g.Taken w labels) :
    ∀ key ∈ ownerKey g.metadata.ns labels, key ∈ w.existingKeys := by
  cases g with
  | deployment d =>
    obtain ⟨there, hmem, hns, _, hlabels⟩ := htaken
    subst hlabels
    have hkeys := h.deployments there hmem
    rw [hns] at hkeys
    exact hkeys
  | resource r =>
    obtain ⟨there, hmem, hat, hlabels⟩ := htaken
    subst hlabels
    have hkeys := h.resources there hmem
    rw [hat.2.1] at hkeys
    exact hkeys

variable {ctx : Ctx} {origin : TestCaseRecord → String}

/-- What remains where nothing hides behind the key of an existing object. -/
theorem World.ToldApart.sweptClean (h : w₀.ToldApart ctx origin) (hd : w₀.Distinct)
    (hw : World.Within w₀ w) (hneat : w.Neat) : w.SweptClean ctx origin where
  deployments d hmem hleft := by
    obtain ⟨key, hkey⟩ := hleft.ownerKey d.metadata.ns
    have hgone := h.deployments d (hw.deployments d hmem) (hw.leftOver.mp hleft) key hkey
    rw [← hw.existingKeys] at hgone
    exact hgone (hneat.deployments d hmem key hkey)
  resources r hmem hleft := by
    obtain ⟨key, hkey⟩ := hleft.ownerKey r.metadata.ns
    have hgone := h.resources r (hw.resources r hmem) (hw.leftOver.mp hleft) key hkey
    rw [← hw.existingKeys] at hgone
    exact hgone (hneat.resources r hmem key hkey)
  records run hmem hleft := by
    have hgone := h.records run (hw.records run hmem) (hw.unclaimed.mp hleft)
    rw [← hw.existingKeys] at hgone
    exact hgone (hneat.records run hmem)
  admits b hb g hg hrefused := by
    have href : (g.metadata.labels.get "fluidbg.io/blue-green-ref").isSome := by simp [hg.ref]
    obtain ⟨labels, hlabels, hforeign⟩ := (GeneratedObject.refused_iff href).mp hrefused
    have htaken := GeneratedObject.taken_of_existing hlabels
    rw [hw.bgds] at hb
    obtain ⟨key, hkey, hgone⟩ := h.places b hb g hg labels
      (hd.existing (htaken.within hw)) hforeign
    rw [← hw.existingKeys] at hgone
    exact hgone (hneat.taken htaken key hkey)

/-- What a sweep has left clean had nothing to hide. -/
theorem World.SweptClean.toldApart (h : w.SweptClean ctx origin) (hd : w.Distinct)
    (hw : World.Within w₀ w) (hs : World.Swept w₀.existingKeys w₀ w) :
    w₀.ToldApart ctx origin where
  deployments d hmem hleft key hkey hkept := by
    refine h.deployments d (hs.keptDeployments d hmem fun key' hkey' => ?_) (hw.leftOver.mpr hleft)
    cases hkey.symm.trans hkey'
    exact hkept
  resources r hmem hleft key hkey hkept := by
    refine h.resources r (hs.keptResources r hmem fun key' hkey' => ?_) (hw.leftOver.mpr hleft)
    cases hkey.symm.trans hkey'
    exact hkept
  records run hmem hleft hkept :=
    h.records run (hs.keptRecords run hmem hkept) (hw.unclaimed.mpr hleft)
  places b hb g hg labels hlabels hforeign := by
    by_contra hnone
    have href : (g.metadata.labels.get "fluidbg.io/blue-green-ref").isSome := by simp [hg.ref]
    refine h.admits b (hw.bgds ▸ hb) g hg ((GeneratedObject.refused_iff href).mpr ?_)
    refine ⟨labels, hd.existing ?_, hforeign⟩
    refine (GeneratedObject.taken_of_existing hlabels).kept hs fun key hkey => ?_
    by_contra hgone
    exact hnone ⟨key, hkey, hgone⟩

theorem World.Within.distinct (hw : World.Within w₀ w) (hd : w₀.Distinct) : w.Distinct where
  deployments d hmem d' hmem' h :=
    hd.deployments d (hw.deployments d hmem) d' (hw.deployments d' hmem') h
  resources r hmem r' hmem' hkind hns hname :=
    hd.resources r (hw.resources r hmem) r' (hw.resources r' hmem') hkind hns hname

end Clean

/-- **A sweep misses nothing exactly when nothing hides behind the key of an existing object.** In
any cluster in which nothing else moves and in which a sweep has come to its end: nothing is left
over and no existing object is refused what is generated for it if and only if, before the sweep,
no object or record that was left over, and nothing foreign under the name of a generated object,
was kept under a key that an existing object has. -/
theorem sweep_misses_nothing_iff (ctx : Ctx) (origin : TestCaseRecord → String) {w₀ : World}
    (hd : w₀.Distinct) (hhoused : w₀.Housed) {s : Conf Call Answer ReconcileError World}
    (r : Machine.Run cluster (fun _ : Unit => cleanupOrphanedBlueGreenRefs) Guard.still
      ⟨w₀, none⟩ s) (hended : s.ended = true) :
    s.world.SweptClean ctx origin ↔ w₀.ToldApart ctx origin := by
  obtain ⟨hw, hneat⟩ := hhoused.neat r hended
  constructor
  · intro h
    exact h.toldApart (hw.distinct hd) hw (hd.swept r)
  · intro h
    exact h.sweptClean hd hw hneat

/-! ## Two leftovers -/

/-- A Service and a record of an object with this name and uid, beside the object `default/shop`,
whose uid is another. -/
def Sample.leftWorld (name uid : String) : World :=
  { world .pending [{ testCase "case-1" .triggered with
      blueGreenRef := blueGreenStateKey "default" name }] with
    resources := [{
      kind := .service
      metadata := ObjectMeta.new "fluidbg-orders-svc" "default"
        (.ofList [("fluidbg.io/blue-green-ref", name), ("fluidbg.io/blue-green-uid", uid)])
      data := .empty
      service := none }] }

theorem Sample.leftWorld_distinct (name uid : String) : (leftWorld name uid).Distinct where
  deployments := by simp [leftWorld, world, Deployment.identity, deployment]
  resources := by simp [leftWorld]

theorem Sample.leftWorld_housed (name uid : String) : (leftWorld name uid).Housed where
  deployments := by simp [leftWorld, world, deployment]
  resources := by simp [leftWorld, world, ObjectMeta.new]
  slashless := by
    intro ns hns
    rw [List.mem_singleton.mp hns]
    decide

/-- Where the name is another, nothing hides. -/
theorem Sample.leftWorld_toldApart :
    (leftWorld "old" "uid-0").ToldApart ctx (fun _ => "uid-0") where
  deployments d hd hleft := by
    obtain ⟨ref, _, href, _⟩ := hleft
    simp only [leftWorld, world, List.mem_cons, List.not_mem_nil, or_false] at hd
    have hnone : d.metadata.labels.get "fluidbg.io/blue-green-ref" = none := by
      rcases hd with rfl | rfl <;> decide
    rw [hnone] at href
    cases href
  resources r hr _ key hkey := by
    rw [List.mem_singleton.mp hr] at hkey
    cases hkey
    decide
  records run hrun _ := by
    rw [List.mem_singleton.mp hrun]
    decide
  places b hb g hg labels hlabels := by
    have heq : b = bgd .pending := List.mem_singleton.mp hb
    subst heq
    -- without points and test only the snapshot is generated, and that is no Service
    cases hg with
    | snapshot specYaml => cases hlabels
    | inceptorDeployment _ hip => cases hip
    | inceptorResource _ hip => cases hip
    | verifierAuth _ htest => cases htest
    | testDeployment _ htest => cases htest
    | testService _ htest => cases htest

def sweepMissesNothingSampleRun :
    PLift ((Machine.run Guard.still cluster (fun _ : Unit => cleanupOrphanedBlueGreenRefs)
      ⟨Sample.leftWorld "old" "uid-0", none⟩
      (.start () :: List.replicate 21 (.answer .ok))).map Conf.ended = some true) :=
  ⟨by decide +kernel⟩

/-- A sweep of the leftovers of `default/old`. -/
theorem sweep_misses_nothing_sample : ∃ s : Conf Call Answer ReconcileError World,
    Machine.Run cluster (fun _ : Unit => cleanupOrphanedBlueGreenRefs) Guard.still
      ⟨Sample.leftWorld "old" "uid-0", none⟩ s ∧ s.ended = true ∧
        s.world.SweptClean Sample.ctx (fun _ => "uid-0") := by
  have h := sweepMissesNothingSampleRun.down
  obtain ⟨s, r, hs⟩ := Machine.Run.exists_of_run h
  refine ⟨s, r, hs, ?_⟩
  exact (sweep_misses_nothing_iff _ _ (Sample.leftWorld_distinct _ _) (Sample.leftWorld_housed _ _)
    r hs).mpr Sample.leftWorld_toldApart

def replacedObjectLeftRun :
    PLift ((Machine.run Guard.still cluster (fun _ : Unit => cleanupOrphanedBlueGreenRefs)
      ⟨Sample.leftWorld "shop" "uid-0", none⟩
      (.start () :: List.replicate 8 (.answer .ok))).map
        (fun s => (s.ended,
          decide (s.world.resources = (Sample.leftWorld "shop" "uid-0").resources),
          s.world.bgds.map fun b => b.metadata.uid)) = some (true, true, [some "uid-1"])) :=
  ⟨by decide +kernel⟩

/-- **The sweep keeps the leftovers of a replaced object.** The Service of the old `default/shop` is
there when the sweep has ended. -/
theorem replaced_object_left :
    ¬ ∀ (ctx : Ctx) (origin : TestCaseRecord → String) (w₀ : World)
      (s : Conf Call Answer ReconcileError World), w₀.Distinct → w₀.Housed →
      Machine.Run cluster (fun _ : Unit => cleanupOrphanedBlueGreenRefs) Guard.still ⟨w₀, none⟩ s →
      s.ended = true → s.world.SweptClean ctx origin := by
  intro hclaim
  have h := replacedObjectLeftRun.down
  obtain ⟨s, r, hs⟩ := Machine.Run.exists_of_run h
  simp only [Prod.mk.injEq, decide_eq_true_eq] at hs
  obtain ⟨hended, hresources, huids⟩ := hs
  have hclean := hclaim Sample.ctx (fun _ => "uid-0") _ s (Sample.leftWorld_distinct _ _)
    (Sample.leftWorld_housed _ _) r hended
  have hservice := hclean.resources
  rw [hresources] at hservice
  refine hservice _ (List.mem_singleton_self _) ⟨"shop", "uid-0", by decide, by decide, ?_⟩
  intro ⟨b, hb, _, huid⟩
  have hmem := List.mem_map_of_mem (f := fun b : BlueGreenDeployment => b.metadata.uid) hb
  rw [huids, huid] at hmem
  revert hmem
  decide

end FluidBG
