import FluidBG.Proof.Manifest
import FluidBG.Proof.Status
import FluidBG.Sample
/-!
# Whose Deployments a reconcile touches

The operator addresses a Deployment in two ways: by what a selector has listed, or by a name that it
has generated. A generated name is looked up once, when it is chosen, and used for the rest of the
rollout; nothing ties the Deployment that is found under it to the one the operator has created. So
a Deployment of somebody else is safe from the operator as long as it is under no generated name.
-/

set_option autoImplicit false

namespace FluidBG

open Lib

/-! ## Touching -/

/-- The Deployment that a call replaces, patches or deletes where there is one. -/
def Call.touches : Call → Option DeploymentIdentity
  | .replaceDeployment ns name _ => some ⟨ns, name⟩
  | .applyDeployment ns name _ => some ⟨ns, name⟩
  | .deleteDeployment ns name => some ⟨ns, name⟩
  | _ => none

/-- The names under which the operator itself addresses the Deployments of a rollout: the
candidate's, the test's and the inceptors'. -/
def generatedIdentities (bgd : BlueGreenDeployment) : List DeploymentIdentity :=
  let ns := bgd.metadata.ns
  ⟨deploymentNamespace (candidateRef bgd) ns, (candidateRef bgd).name⟩ ::
    ((bgd.spec.test.map fun test => ⟨ns, testInstanceName bgd test.name⟩).toList ++
      bgd.spec.inceptionPoints.map fun ip =>
        ⟨ns, inceptionInstanceBaseName bgd.metadata.name ip.name⟩)

/-! ## What the operator has seen and done -/

/-- What a reconcile has been told. -/
structure Knowledge where
  /-- The objects it has read, live or frozen. -/
  read : List BlueGreenDeployment
  /-- What `spec.selector` of one of them has led to. -/
  resolved : List DeploymentIdentity
  /-- The last list of greens was empty, so that the one Deployment of the family is the green. -/
  greenless : Bool

namespace Knowledge

/-- The frozen objects that a snapshot makes of those that were read. -/
def frozen (ctx : Ctx) (l : Knowledge) (ns name : String) (data : Labels) :
    List BlueGreenDeployment :=
  l.read.filterMap fun bgd =>
    if bgd.metadata.ns = ns ∧ rolloutSpecSnapshotName bgd ns = name then
      match snapshotSpec ctx bgd ns data with
      | .ok spec => some (frozenBgd bgd spec)
      | .error _ => none
    else none

/-- The list is one that an object asks for, with the labels that `f` makes of its selector. -/
def Selects (l : Knowledge) (f : DeploymentSelector → Labels) (ns : String)
    (selector : LabelSelector) : Prop :=
  ∃ bgd ∈ l.read, ns = bgd.spec.selector.ns.getD bgd.metadata.ns ∧
    selector = .ofLabels (f bgd.spec.selector)

instance (l : Knowledge) (f : DeploymentSelector → Labels) (ns : String)
    (selector : LabelSelector) : Decidable (l.Selects f ns selector) :=
  inferInstanceAs (Decidable (∃ bgd ∈ l.read, _ ∧ _))

/-- The names of a list. -/
def listed (ns : String) (found : List Deployment) : List DeploymentIdentity :=
  found.map fun d => ⟨ns, d.metadata.name⟩

/-- What the operator learns from an answer. -/
def learn (ctx : Ctx) (l : Knowledge) (c : Call) (a : Answer c) : Knowledge :=
  match c, a with
  | .getBgd _ _, .ok bgd => { l with read := bgd :: l.read }
  | .getResource .configMap ns name, .ok snapshot =>
    { l with read := l.frozen ctx ns name snapshot.data ++ l.read }
  | .listDeployments ns selector, .ok found =>
    if l.Selects greenLabels ns selector then
      { l with resolved := listed ns found ++ l.resolved, greenless := found.isEmpty }
    else if l.Selects (·.matchLabels) ns selector ∧ l.greenless ∧ found.length = 1 then
      { l with resolved := listed ns found ++ l.resolved }
    else l
  | _, _ => l

end Knowledge

structure Ledger where
  known : Knowledge
  /-- The Deployments that are there because the operator has created them. -/
  created : List DeploymentIdentity

namespace Ledger

/-- The operator has not yet read or created anything. -/
def blank : Ledger := ⟨⟨[], [], false⟩, []⟩

/-- A call of the operator has led from these Deployments to those. -/
def served (l : Ledger) (ds ds' : List Deployment) : Ledger :=
  { l with created := (ds'.map Deployment.identity).filter fun id =>
      id ∈ l.created ∨ id ∉ ds.map Deployment.identity }

/-- The Deployments have become these without the operator. -/
def moved (l : Ledger) (ds' : List Deployment) : Ledger :=
  { l with created := l.created.filter fun id => id ∈ ds'.map Deployment.identity }

/-- An attempt is over. -/
def halted (l : Ledger) : Ledger := { blank with created := l.created }

end Ledger

/-- The cluster, with the ledger kept beside it. -/
def attended (ctx : Ctx) : Machine Call Answer (World × Ledger) Outcome Move where
  serve s c o := (s.1.serve c o).map fun answer =>
    (answer.1, answer.2, { s.2 with known := s.2.known.learn ctx c answer.1 }.served
      s.1.deployments answer.2.deployments)
  move s v := (s.1.move v).map fun w => (w, s.2.moved w.deployments)
  halt s := (s.1, s.2.halted)

/-- **What the frame needs of the steps of a run**, for a set of names. Where a Deployment is found
under a generated name and no selector has listed it, the name is one of them; and nobody else
creates a Deployment under one of them. -/
def apart (names : DeploymentIdentity → Prop) : Guard Call (World × Ledger) Outcome Move where
  call s c _ := ∀ id ∈ c.touches, id ∈ s.1.deployments.map Deployment.identity →
    id ∉ s.2.known.resolved → (∃ bgd ∈ s.2.known.read, id ∈ generatedIdentities bgd) → names id
  move s v := match v with
    | .setDeployments ds => ∀ d ∈ ds, names d.identity →
        d.identity ∈ s.1.deployments.map Deployment.identity
    | _ => True

section Evaluation

variable (names : DeploymentIdentity → Prop) [DecidablePred names]

instance (s : World × Ledger) (c : Call) (o : Outcome) : Decidable ((apart names).call s c o) :=
  inferInstanceAs (Decidable (∀ id ∈ c.touches, _ ∈ s.1.deployments.map Deployment.identity →
    _ ∉ s.2.known.resolved → (∃ bgd ∈ s.2.known.read, _ ∈ generatedIdentities bgd) → names id))

instance (s : World × Ledger) : (v : Move) → Decidable ((apart names).move s v)
  | .setDeployments ds => inferInstanceAs (Decidable (∀ d ∈ ds, names d.identity →
      d.identity ∈ s.1.deployments.map Deployment.identity))
  | .editSpec _ | .delete | .tick _ | .register _ | .setVerdict _ _ _ _ | .markTimedOut _ _
  | .deploymentStatus _ _ _ | .setResources _ | .setEndpoints _ | .setNamespaces _
  | .setPlugins _ | .setOtherBgds _ => .isTrue trivial

end Evaluation

/-- The Deployment that the pending call touches. -/
def touching (s : Conf Call Answer ReconcileError (World × Ledger)) : Option DeploymentIdentity :=
  match s.running with
  | some (.call c _) => c.touches
  | _ => none

/-- A Deployment that is about to be touched was resolved through the selector, or is the
operator's. -/
def TouchesOwn (s : Conf Call Answer ReconcileError (World × Ledger)) : Prop :=
  ∀ id, touching s = some id → id ∈ s.world.1.deployments.map Deployment.identity →
    id ∈ s.world.2.known.resolved ∨ id ∈ s.world.2.created

/-- The Deployments under these names are the operator's. -/
def Attended (names : DeploymentIdentity → Prop) (s : World × Ledger) : Prop :=
  ∀ d ∈ s.1.deployments, names d.identity → d.identity ∈ s.2.created

/-- The Deployment was resolved through the selector, or is under a generated name. -/
def Knowledge.Addresses (l : Knowledge) (id : DeploymentIdentity) : Prop :=
  id ∈ l.resolved ∨ ∃ bgd ∈ l.read, id ∈ generatedIdentities bgd

abbrev frame (names : DeploymentIdentity → Prop) : Contract Call (World × Ledger) where
  inv := Attended names
  may s c := ∀ id, c.touches = some id → s.2.known.Addresses id

/-- The operator has learnt at least as much. -/
structure Knowledge.Within (l l' : Knowledge) : Prop where
  read : l.read ⊆ l'.read
  resolved : l.resolved ⊆ l'.resolved

section Steps

variable {ctx : Ctx} {names : DeploymentIdentity → Prop} {s s' : World × Ledger}
  {l l' l'' : Knowledge} {c : Call} {id : DeploymentIdentity}

namespace Knowledge

theorem Within.refl (l : Knowledge) : l.Within l := ⟨fun _ h => h, fun _ h => h⟩

theorem Within.trans (h : l.Within l') (h' : l'.Within l'') : l.Within l'' :=
  ⟨fun _ hb => h'.read (h.read hb), fun _ hid => h'.resolved (h.resolved hid)⟩

theorem Addresses.within (h : l.Addresses id) (hl : l.Within l') : l'.Addresses id := by
  rcases h with h | ⟨bgd, hbgd, hid⟩
  · exact .inl (hl.resolved h)
  · exact .inr ⟨bgd, hl.read hbgd, hid⟩

theorem learn_within (ctx : Ctx) (l : Knowledge) (c : Call) (a : Answer c) :
    l.Within (l.learn ctx c a) := by
  unfold learn
  split
  · exact ⟨fun _ h => List.mem_cons_of_mem _ h, fun _ h => h⟩
  · exact ⟨fun _ h => List.mem_append_right _ h, fun _ h => h⟩
  · split
    · exact ⟨fun _ h => h, fun _ h => List.mem_append_right _ h⟩
    · split
      · exact ⟨fun _ h => h, fun _ h => List.mem_append_right _ h⟩
      · exact .refl l
  · exact .refl l

end Knowledge

/-- A call of the operator makes the Deployments that it creates the operator's. -/
theorem Attended.serve {o : Outcome} {a : Answer c} (h : Attended names s)
    (hserve : (attended ctx).serve s c o = some (a, s')) :
    Attended names s' ∧ s'.2.known = s.2.known.learn ctx c a := by
  obtain ⟨⟨a', w'⟩, hw, heq⟩ := Option.map_eq_some_iff.mp hserve
  cases heq
  refine ⟨fun d hd hname => ?_, rfl⟩
  simp only [Ledger.served, List.mem_filter, List.mem_map, decide_eq_true_eq]
  refine ⟨⟨d, hd, rfl⟩, ?_⟩
  by_cases hold : ∃ d₀ ∈ s.1.deployments, d₀.identity = d.identity
  · obtain ⟨d₀, hd₀, hid⟩ := hold
    left
    rw [← hid]
    exact h d₀ hd₀ (hid ▸ hname)
  · exact .inr hold

/-- What others do creates no Deployment under the names. -/
theorem Attended.move {v : Move} (h : Attended names s) (hguard : (apart names).move s v)
    (hmove : (attended ctx).move s v = some s') :
    Attended names s' ∧ s'.2.known = s.2.known := by
  obtain ⟨w', hw, rfl⟩ := Option.map_eq_some_iff.mp hmove
  refine ⟨fun d hd hname => ?_, rfl⟩
  simp only [Ledger.moved, List.mem_filter, List.mem_map, decide_eq_true_eq]
  refine ⟨?_, d, hd, rfl⟩
  have hkept : d.identity ∈ s.1.deployments.map Deployment.identity := by
    cases v with
    | setDeployments ds =>
      cases hw
      exact hguard d hd hname
    | deploymentStatus ns name status =>
      cases hw
      obtain ⟨d₀, hd₀, rfl⟩ := List.mem_map.mp hd
      refine List.mem_map.mpr ⟨d₀, hd₀, ?_⟩
      split <;> rfl
    | editSpec spec =>
      obtain ⟨b, -, rfl⟩ := Option.map_eq_some_iff.mp hw
      exact List.mem_map_of_mem hd
    | delete =>
      obtain ⟨b, -, rfl⟩ := Option.map_eq_some_iff.mp hw
      split at hd <;> exact List.mem_map_of_mem hd
    | setVerdict r t p m =>
      simp only [World.move] at hw
      split at hw <;> cases hw
      exact List.mem_map_of_mem hd
    | markTimedOut r t =>
      simp only [World.move] at hw
      split at hw <;> cases hw
      exact List.mem_map_of_mem hd
    | _ =>
      simp only [World.move, Option.some.injEq] at hw
      subst hw
      exact List.mem_map_of_mem hd
  obtain ⟨d₀, hd₀, hid⟩ := List.mem_map.mp hkept
  rw [← hid]
  exact h d₀ hd₀ (hid ▸ hname)

end Steps

/-! ## The code -/

/-- What the operator meets. -/
abbrev attendedOutside (ctx : Ctx) (names : DeploymentIdentity → Prop) :
    Outside Call Answer (World × Ledger) :=
  (attended ctx).outside (apart names)

/-- The code touches only what the ledger addresses, and ends in `Q` unless it fails. -/
abbrev Op.Frames {α : Type} (ctx : Ctx) (names : DeploymentIdentity → Prop) (p : Op α)
    (Q : α → World × Ledger → Prop) (s : World × Ledger) : Prop :=
  (attendedOutside ctx names).Spec (frame names)
    (fun a s' => Attended names s' ∧ s.2.known.Within s'.2.known ∧ Q a s')
    (fun _ s' => Attended names s' ∧ s.2.known.Within s'.2.known) p s

section Code

variable {ctx : Ctx} {names : DeploymentIdentity → Prop} {s : World × Ledger} {α β : Type}

/-- Nothing that goes on outside changes what the operator has learnt. -/
theorem Op.Frames.later {s' : World × Ledger} (h : (attendedOutside ctx names).Later s s')
    (hi : Attended names s) : Attended names s' ∧ s'.2.known = s.2.known := by
  induction h with
  | refl => exact ⟨hi, rfl⟩
  | tail _ hmoves ih =>
    obtain ⟨v, hguard, hmove⟩ := hmoves
    obtain ⟨hi', hknown⟩ := ih.1.move hguard hmove
    exact ⟨hi', hknown.trans ih.2⟩

/-- The rule for a call. -/
theorem Op.Frames.call {c : Call} {k : Answer c → Op α} {Q : α → World × Ledger → Prop}
    (hi : Attended names s) (hmay : ∀ id, c.touches = some id → s.2.known.Addresses id)
    (hk : ∀ a s', Attended names s' → s'.2.known = s.2.known.learn ctx c a →
      Op.Frames ctx names (k a) Q s') :
    Op.Frames ctx names (.call c k) Q s := by
  refine ⟨hmay, fun a s' hanswer => ?_⟩
  obtain ⟨o, -, hserve⟩ := hanswer
  obtain ⟨hi', hknown⟩ := hi.serve hserve
  refine ⟨hi', fun s'' hlater hi'' => ?_⟩
  have hknown' : s''.2.known = s.2.known.learn ctx c a :=
    (Op.Frames.later hlater hi').2.trans hknown
  have hwithin : s.2.known.Within s''.2.known := hknown' ▸ s.2.known.learn_within ctx c a
  exact (hk a s'' hi'' hknown').mono (fun b t h => ⟨h.1, hwithin.trans h.2.1, h.2.2⟩)
    fun e t h => ⟨h.1, hwithin.trans h.2⟩

theorem Op.Frames.bind {p : Op α} {f : α → Op β} {R : α → World × Ledger → Prop}
    {Q : β → World × Ledger → Prop} (hp : Op.Frames ctx names p R s)
    (hf : ∀ a s', Attended names s' → s.2.known.Within s'.2.known → R a s' →
      Op.Frames ctx names (f a) Q s') :
    Op.Frames ctx names (p.bind f) Q s := by
  refine Outside.Spec.bind (hp.mono (fun _ _ h => h) fun _ _ h => h) fun a s' h => ?_
  obtain ⟨hi', hwithin, hr⟩ := h
  exact (hf a s' hi' hwithin hr).mono (fun b t h => ⟨h.1, hwithin.trans h.2.1, h.2.2⟩)
    fun e t h => ⟨h.1, hwithin.trans h.2⟩

theorem Op.Frames.pure {a : α} {Q : α → World × Ledger → Prop} (hi : Attended names s)
    (h : Q a s) : Op.Frames ctx names (.pure a) Q s := ⟨hi, .refl _, h⟩

theorem Op.Frames.fail {e : ReconcileError} {Q : α → World × Ledger → Prop}
    (hi : Attended names s) : Op.Frames ctx names (.fail e) Q s := ⟨hi, .refl _⟩

/-- Code that touches only such Deployments as the ledger addresses from the start. -/
theorem Op.Frames.of_calls {P : DeploymentIdentity → Prop} {p : Op α}
    (hp : p.Calls fun c => ∀ id, c.touches = some id → P id) (hi : Attended names s)
    (hP : ∀ id, P id → s.2.known.Addresses id) : Op.Frames ctx names p (fun _ _ => True) s := by
  induction p generalizing s with
  | pure a => exact .pure hi trivial
  | fail e => exact .fail hi
  | call c k ih =>
    refine Op.Frames.call hi (fun id hid => hP id (hp.1 id hid)) fun a s' hi' hknown => ?_
    refine ih a (hp.2 a) hi' fun id hid => (hP id hid).within ?_
    rw [hknown]
    exact s.2.known.learn_within ctx c a

/-- A call that touches no Deployment writes none. -/
theorem Call.touches_eq_none {c : Call} (h : ¬ c.TouchesDeployments) : c.touches = none := by
  cases c <;> first | rfl | exact absurd trivial h

/-- Code that touches no Deployment. -/
theorem Op.Frames.of_calm {p : Op α} (hp : p.Calls fun c => ¬ c.TouchesDeployments)
    (hi : Attended names s) : Op.Frames ctx names p (fun _ _ => True) s := by
  refine Op.Frames.of_calls (P := fun _ => False) (hp.mono fun c hc id hid => ?_) hi
    fun _ h => h.elim
  rw [c.touches_eq_none hc] at hid
  cases hid

end Code

/-! ## Code that keeps to the generated names -/

/-- The call touches no Deployment but one under a generated name of the object. -/
def Call.Generated (bgd : BlueGreenDeployment) (c : Call) : Prop :=
  ∀ id, c.touches = some id → id ∈ generatedIdentities bgd

/-- The code touches no Deployment but those under the generated names of the object. -/
abbrev Op.Generated {α : Type} (bgd : BlueGreenDeployment) (p : Op α) : Prop :=
  p.Calls (Call.Generated bgd)

section Generated

variable {bgd : BlueGreenDeployment} {ctx : Ctx} {ns name : String} {α : Type}

theorem candidate_generated (bgd : BlueGreenDeployment) :
    (⟨deploymentNamespace (candidateRef bgd) bgd.metadata.ns, (candidateRef bgd).name⟩ :
      DeploymentIdentity) ∈ generatedIdentities bgd := by
  simp [generatedIdentities]

theorem test_generated {test : TestSpec} (h : bgd.spec.test = some test) :
    (⟨bgd.metadata.ns, testInstanceName bgd test.name⟩ : DeploymentIdentity) ∈
      generatedIdentities bgd := by
  simp [generatedIdentities, h]

theorem inceptor_generated {ip : InceptionPoint} (h : ip ∈ bgd.spec.inceptionPoints) :
    (⟨bgd.metadata.ns, inceptionInstanceBaseName bgd.metadata.name ip.name⟩ :
      DeploymentIdentity) ∈ generatedIdentities bgd := by
  simp only [generatedIdentities, List.mem_cons, List.mem_append, List.mem_map]
  exact .inr (.inr ⟨ip, h, rfl⟩)

theorem Call.Generated.of_calm {c : Call} (h : ¬ c.TouchesDeployments) : c.Generated bgd := by
  intro id hid
  rw [c.touches_eq_none h] at hid
  cases hid

theorem deleteDeployment_touches (ns name : String) :
    (deleteDeployment ns name).Calls fun c => ∀ id, c.touches = some id → id = ⟨ns, name⟩ := by
  refine (ask_calls fun id hid => ?_).bind fun r => ?_
  · cases hid
    rfl
  · rcases r with e | _
    · cases e <;> trivial
    · trivial

namespace Op.Generated

theorem asks {p : Op α} (h : Op.Asks p) : Op.Generated bgd p :=
  h.mono fun _ hc => .of_calm hc.passive.2.1

theorem passive {p : Op α} (h : Op.Passive p) : Op.Generated bgd p :=
  h.mono fun _ hc => .of_calm hc.2.1

theorem reports {p : Op α} (h : Op.Reports p) : Op.Generated bgd p := by
  refine h.mono fun c hc => .of_calm fun ht => ?_
  cases c <;> first | exact hc | exact ht

theorem note (n : Note) : Op.Generated bgd (Op.note n) := ask_calls nofun

theorem deleteDeployment
    (h : (⟨ns, name⟩ : DeploymentIdentity) ∈ generatedIdentities bgd) :
    Op.Generated bgd (FluidBG.deleteDeployment ns name) := by
  refine Prog.Calls.mono (fun c hc id hid => ?_) (deleteDeployment_touches ns name)
  rw [hc id hid]
  exact h

theorem deleteResource (kind : Kind) (ns name : String) :
    Op.Generated bgd (FluidBG.deleteResource kind ns name) := by
  refine (ask_calls nofun).bind fun r => ?_
  rcases r with e | _
  · cases e <;> trivial
  · trivial

theorem applyResource (kind : Kind) (ns name : String) (r : Resource) :
    Op.Generated bgd (FluidBG.applyResource kind ns name r) := by
  have hread : Call.Generated bgd (.getResource kind ns name) := by
    intro id hid
    cases hid
  have happly : Call.Generated bgd (.applyResource kind ns name r) := by
    intro id hid
    cases hid
  unfold FluidBG.applyResource
  split
  · exact (ask_calls hread).bind fun _ => (getOpt_calls _).bind fun _ =>
      (asks (Op.Asks.refuseForeign _ _ _)).bind fun _ => askKube_calls happly fun _ => trivial
  · exact askKube_calls happly fun _ => trivial

theorem applyDeploymentResource {d : Deployment}
    (h : (⟨ns, name⟩ : DeploymentIdentity) ∈ generatedIdentities bgd) :
    Op.Generated bgd (FluidBG.applyDeploymentResource ns name d) := by
  have hread : Call.Generated bgd (.getDeployment ns name) := by
    intro id hid
    cases hid
  have happly : Call.Generated bgd (.applyDeployment ns name d) := by
    intro id hid
    cases hid
    exact h
  unfold FluidBG.applyDeploymentResource
  split
  · exact (ask_calls hread).bind fun _ => (getOpt_calls _).bind fun _ =>
      (asks (Op.Asks.refuseForeign _ _ _)).bind fun _ => askKube_calls happly fun _ => trivial
  · exact askKube_calls happly fun _ => trivial

/-- Whatever Deployment has the candidate's name, the manifest replaces it. -/
theorem applyDeploymentManifest (ctx : Ctx) (bgd : BlueGreenDeployment) (isGreen : Bool)
    (assignments : List PropertyAssignment) : Op.Generated bgd
      (FluidBG.applyDeploymentManifest ctx bgd bgd.metadata.ns bgd.spec.deployment
        bgd.spec.selector.matchLabels isGreen assignments) := by
  refine liftBind_calls fun d hd => ?_
  have hmeta := deploymentManifest_metadata hd
  have hid : (⟨d.metadata.ns, d.metadata.name⟩ : DeploymentIdentity) ∈
      generatedIdentities bgd := by
    rw [hmeta]
    exact candidate_generated bgd
  refine (ask_calls nofun).bind fun r => ?_
  rcases r with e | existing
  · cases e with
    | notFound _ => exact askKube_calls nofun fun _ => trivial
    | _ => trivial
  · refine askKube_calls (fun id heq => ?_) fun _ => trivial
    cases heq
    exact hid

theorem cleanupTestResources (bgd : BlueGreenDeployment) :
    Op.Generated bgd (FluidBG.cleanupTestResources bgd bgd.metadata.ns) := by
  have hwait : Op.Generated bgd (waitForTestResourcesDeleted bgd bgd.metadata.ns) := by
    unfold waitForTestResourcesDeleted
    split
    · trivial
    · refine Prog.Calls.bind (.retry (fun _ => ?_) trivial) fun _ => ?_
      · refine Prog.Calls.bind (p := testResourcesExist _ _) ?_ fun e => ?_
        · exact (ask_calls nofun).bind fun _ => (getOpt_calls _).bind fun _ =>
            (ask_calls nofun).bind fun _ => (getOpt_calls _).bind fun _ => trivial
        · split
          split
          · trivial
          · exact (ask_calls nofun).bind fun _ => trivial
      · refine (ask_calls nofun).bind fun _ => (getOpt_calls _).bind fun d => ?_
        split
        · trivial
        · refine (ask_calls nofun).bind fun _ => (getOpt_calls _).bind fun s => ?_
          split <;> trivial
  unfold FluidBG.cleanupTestResources
  split
  · rename_i test htest
    exact (deleteDeployment (test_generated htest)).bind fun _ => (deleteResource _ _ _).bind
      fun _ => (deleteResource _ _ _).bind fun _ => hwait
  · exact hwait

theorem cleanupInceptionResources (bgd : BlueGreenDeployment) :
    Op.Generated bgd (FluidBG.cleanupInceptionResources bgd bgd.metadata.ns) := by
  refine Prog.Calls.bind (.forEach fun ip hip => ?_) fun _ => .retry (fun _ => ?_) trivial
  · exact (deleteDeployment (inceptor_generated hip)).bind fun _ => (deleteResource _ _ _).bind
      fun _ => (deleteResource _ _ _).bind fun _ => deleteResource _ _ _
  · refine Prog.Calls.bind (p := countLabelled _ _) (askKube_calls nofun fun _ =>
      askKube_calls nofun fun _ => askKube_calls nofun fun _ => askKube_calls nofun fun _ =>
        askKube_calls nofun fun _ => trivial) fun n => ?_
    split
    · trivial
    · exact (ask_calls nofun).bind fun _ => trivial

theorem cleanupRollout (bgd : BlueGreenDeployment) (stateKey : String) :
    Op.Generated bgd (FluidBG.cleanupRollout bgd bgd.metadata.ns stateKey) :=
  (cleanupInceptionResources bgd).bind fun _ => (cleanupTestResources bgd).bind fun _ =>
    (deleteResource _ _ _).bind fun _ => (ask_calls nofun).bind fun _ =>
      (stateStore_calls _).bind fun _ => trivial

/-! ### Preparing a rollout -/

theorem ensureDeclaredDeployments (ctx : Ctx) (bgd : BlueGreenDeployment)
    (assignments : List PropertyAssignment) : Op.Generated bgd
      (FluidBG.ensureDeclaredDeployments ctx bgd bgd.metadata.ns assignments) :=
  (applyDeploymentManifest ctx bgd false assignments).bind fun _ => trivial

theorem bootstrapInitialGreenIfEmpty (ctx : Ctx) (bgd : BlueGreenDeployment) :
    Op.Generated bgd (FluidBG.bootstrapInitialGreenIfEmpty ctx bgd bgd.metadata.ns) := by
  unfold FluidBG.bootstrapInitialGreenIfEmpty
  split
  · trivial
  · refine askKube_calls nofun fun family => ?_
    split
    · trivial
    · exact (applyDeploymentManifest ctx bgd true []).bind fun _ => trivial

theorem ensureTestResources (bgd : BlueGreenDeployment) (assignments : List PropertyAssignment)
    (extraEnv : List EnvVar) : Op.Generated bgd
      (FluidBG.ensureTestResources bgd bgd.metadata.ns assignments extraEnv) := by
  have hservice (testName : String) (service : Resource) : Op.Generated bgd (do
      FluidBG.applyResource .service bgd.metadata.ns testName service
      pure [(⟨bgd.metadata.ns, testName⟩ : DeploymentIdentity)]) :=
    (applyResource _ _ _ _).bind fun _ => trivial
  unfold FluidBG.ensureTestResources
  split
  · trivial
  · rename_i test htest
    have hown := test_generated htest
    dsimp only
    -- of the name only its place among the generated ones matters
    generalize testInstanceName bgd test.name = testName at hown ⊢
    generalize testLabels bgd test.name testName = labels
    exact (asks (Op.Asks.ensureTestNameAvailable _ _ _ _ _)).bind fun _ =>
      (lift_calls _).bind fun _ => (applyDeploymentResource hown).bind fun _ =>
        (lift_calls _).bind fun _ => hservice _ _

/-- The one Deployment among the objects of an inceptor has the inceptor's name. -/
theorem applyInceptorResources {crates : Crates} {plugin : InceptionPlugin} {ip : InceptionPoint}
    {context : ReconcileInceptionContext} {resources : ReconciledResources}
    (hip : ip ∈ bgd.spec.inceptionPoints) (hns : context.ns = bgd.metadata.ns)
    (href : context.blueGreenRef = bgd.metadata.name)
    (h : reconcileInceptionPoint crates plugin ip context = .ok resources) :
    Op.Generated bgd (FluidBG.applyInceptorResources bgd.metadata.ns resources) := by
  have hown : ∀ d ∈ resources.deployments,
      (⟨d.metadata.ns, d.metadata.name⟩ : DeploymentIdentity) ∈ generatedIdentities bgd := by
    intro d hd
    unfold reconcileInceptionPoint at h
    split at h
    · cases h
    · cases h
      obtain rfl : d = inceptorDeployment plugin ip context := by simpa using hd
      have hgenerated := inceptor_generated hip
      rw [← hns, ← href] at hgenerated
      exact hgenerated
  exact Prog.Calls.bind (.forEach fun _ _ => applyResource _ _ _ _) fun _ =>
    Prog.Calls.bind (.forEach fun _ _ => applyResource _ _ _ _) fun _ =>
      Prog.Calls.bind (.forEach fun d hd => applyDeploymentResource (hown d hd)) fun _ =>
        Prog.Calls.bind (.forEach fun _ _ => applyResource _ _ _ _) fun _ => trivial

theorem prepareInceptionPoint {testUrl : String} {acc : Preparation} {ip : InceptionPoint}
    (hip : ip ∈ bgd.spec.inceptionPoints) : Op.Generated bgd
      (FluidBG.prepareInceptionPoint ctx bgd bgd.metadata.ns testUrl acc ip) := by
  refine askKube_calls nofun fun _ => (lift_calls _).bind fun _ =>
    (asks (Op.Asks.prepareManager _ _ _ _ _)).bind fun _ =>
      (asks (Op.Asks.signInceptionAuthToken _ _ _ _ _)).bind fun _ =>
        liftBind_calls fun resources hresources => ?_
  exact (applyInceptorResources hip rfl rfl (mapError_eq_ok.mp hresources)).bind fun _ => trivial

theorem extraTestEnv (ctx : Ctx) (bgd : BlueGreenDeployment) (tokens : Labels) :
    Op.Generated bgd (FluidBG.extraTestEnv ctx bgd bgd.metadata.ns tokens) := by
  unfold FluidBG.extraTestEnv
  split
  · trivial
  · split
    · trivial
    · rename_i tokensJson htokens
      have hsecret (secretName : String) (secret : Resource) : Op.Generated bgd (do
          FluidBG.applyResource .secret bgd.metadata.ns secretName secret
          pure secretName) := (applyResource _ _ _ _).bind fun _ => trivial
      have hensured : Op.Generated bgd
          (ensureVerifierAuthSecret bgd bgd.metadata.ns tokensJson) := hsecret _ _
      generalize ensureVerifierAuthSecret bgd bgd.metadata.ns tokensJson = ensured at hensured ⊢
      exact Prog.Calls.bind hensured fun _ => trivial

/-! ### Status, snapshot and name -/

theorem ensureRolloutGeneration (bgd : BlueGreenDeployment) (ns : String) :
    Op.Generated bgd (FluidBG.ensureRolloutGeneration bgd ns) := by
  unfold FluidBG.ensureRolloutGeneration
  split
  · trivial
  · exact reports (Op.Reports.patchStatus _ _ _)

theorem ensureRolloutSpecSnapshot (ctx : Ctx) (bgd : BlueGreenDeployment) (ns : String) :
    Op.Generated bgd (FluidBG.ensureRolloutSpecSnapshot ctx bgd ns) := by
  unfold FluidBG.ensureRolloutSpecSnapshot
  split
  · trivial
  · exact applyResource _ _ _ _

theorem tryCandidateSuffixes {deployNs : String} {suffixes : List String} :
    Op.Generated bgd (FluidBG.tryCandidateSuffixes bgd ns deployNs suffixes) := by
  induction suffixes with
  | nil => trivial
  | cons suffix suffixes ih =>
    refine (ask_calls nofun).bind fun r => ?_
    rcases r with e | _
    · cases e with
      | notFound _ => exact (reports (Op.Reports.patchStatus _ _ _)).bind fun _ => trivial
      | _ => trivial
    · exact ih

theorem ensureGeneratedCandidateName (bgd : BlueGreenDeployment) (ns : String) :
    Op.Generated bgd (FluidBG.ensureGeneratedCandidateName bgd ns) := by
  unfold FluidBG.ensureGeneratedCandidateName
  split
  · trivial
  · exact tryCandidateSuffixes

theorem validateProgressiveShiftingSupport (bgd : BlueGreenDeployment) :
    Op.Generated bgd (FluidBG.validateProgressiveShiftingSupport bgd) := by
  unfold FluidBG.validateProgressiveShiftingSupport
  split
  · trivial
  · split
    · refine Prog.Calls.bind (p := validateSplitters bgd)
        (.forEach fun _ _ => askKube_calls nofun fun _ => lift_calls _) fun _ => ?_
      split <;> trivial
    · trivial

theorem initializeSplitterTraffic (ctx : Ctx) (bgd : BlueGreenDeployment) (ns : String) :
    Op.Generated bgd (FluidBG.initializeSplitterTraffic ctx bgd ns) := by
  unfold FluidBG.initializeSplitterTraffic
  split
  · trivial
  · exact (passive (Op.Passive.applySplitterTrafficPercent _ _ _ _)).bind fun _ =>
      reports (Op.Reports.patchStatus _ _ _)

/-- The arm of a drain deletes the objects of the test and of the inceptors. -/
theorem reconcileDraining (ctx : Ctx) (bgd : BlueGreenDeployment) (stateKey : String) :
    Op.Generated bgd (FluidBG.reconcileDraining ctx bgd bgd.metadata.ns stateKey) := by
  have hturn (elapsed : Int) (statuses : List InceptionPointDrainStatus) (ip : InceptionPoint) :
      Op.Generated bgd
        (FluidBG.reconcileDrain ctx bgd bgd.metadata.ns elapsed statuses ip) := by
    refine (Op.Asks.reconcileDrain_calls ctx bgd bgd.metadata.ns elapsed statuses ip).mono
      fun c hc => .of_calm ?_
    rcases hc with hc | rfl
    · exact hc.passive.2.1
    · exact id
  have hconclude : Op.Generated bgd
      (concludeDraining ctx bgd bgd.metadata.ns stateKey) := by
    refine (ask_calls nofun).bind fun _ => (stateStore_calls _).bind fun counts =>
      (ask_calls nofun).bind fun _ => (stateStore_calls _).bind fun _ =>
        (reports (Op.Reports.patchStatus _ _ _)).bind fun _ => ?_
    split
    · trivial
    · refine (note _).bind fun _ => Prog.Calls.bind (.forEach fun ip _ => ?_) fun _ =>
        (cleanupInceptionResources bgd).bind fun _ => (cleanupTestResources bgd).bind fun _ =>
          reports (Op.Reports.updateStatusPhase _ _ _)
      exact asks (Op.Asks.cleanupPlugin _ _ _ _)
  refine (asks (Op.Asks.drainStart _)).bind fun _ => (ask_calls nofun).bind fun _ =>
    (note _).bind fun _ => Prog.Calls.bind (.foldEach fun ip _ _ => hturn _ _ _) fun statuses =>
      (note _).bind fun _ => (reports (Op.Reports.patchStatus _ _ _)).bind fun _ => ?_
  split
  · trivial
  · exact hconclude

end Op.Generated

end Generated

/-! ## Code that uses what a selector has listed -/

section Listed

variable {ctx : Ctx} {names : DeploymentIdentity → Prop} {s : World × Ledger}
  {bgd : BlueGreenDeployment} {α β : Type}

/-- What every arm starts from. -/
structure InHand (names : DeploymentIdentity → Prop) (bgd : BlueGreenDeployment)
    (s : World × Ledger) : Prop where
  attended : Attended names s
  read : bgd ∈ s.2.known.read

/-- The rule for code that keeps to the generated names. -/
theorem Op.Frames.generated {p : Op α} (hp : Op.Generated bgd p) (h : InHand names bgd s) :
    Op.Frames ctx names p (fun _ _ => True) s :=
  Op.Frames.of_calls hp h.attended fun _ hid => .inr ⟨bgd, h.read, hid⟩

/-- Code, and then code that knows the object still. -/
theorem Op.Frames.andThen {p : Op α} {f : α → Op β} {R : α → World × Ledger → Prop}
    {Q : β → World × Ledger → Prop} (hp : Op.Frames ctx names p R s) (h : InHand names bgd s)
    (hf : ∀ a s', InHand names bgd s' → R a s' → Op.Frames ctx names (f a) Q s') :
    Op.Frames ctx names (p.bind f) Q s :=
  hp.bind fun a s' hi' hwithin hr => hf a s' ⟨hi', hwithin.read h.read⟩ hr

/-- Code that keeps to the generated names first, and other code after it. -/
theorem Op.Frames.after {p : Op α} {f : α → Op β} {Q : β → World × Ledger → Prop}
    (hp : Op.Generated bgd p) (h : InHand names bgd s)
    (hf : ∀ a s', InHand names bgd s' → Op.Frames ctx names (f a) Q s') :
    Op.Frames ctx names (p.bind f) Q s :=
  (Op.Frames.generated hp h).andThen h fun a s' h' _ => hf a s' h'

/-- The loop rule. -/
theorem Op.Frames.forEach {xs : List β} {body : β → Op Unit} (hi : Attended names s)
    (h : ∀ x ∈ xs, ∀ s', Attended names s' → s.2.known.Within s'.2.known →
      Op.Frames ctx names (body x) (fun _ _ => True) s') :
    Op.Frames ctx names (Prog.forEach xs body) (fun _ _ => True) s := by
  have hloop : (attendedOutside ctx names).Spec (frame names)
      (fun _ s' => Attended names s' ∧ s.2.known.Within s'.2.known)
      (fun _ s' => Attended names s' ∧ s.2.known.Within s'.2.known) (Prog.forEach xs body) s := by
    refine Outside.Spec.forEach ⟨hi, .refl _⟩ fun x hx s' hs' => ?_
    exact (h x hx s' hs'.1 hs'.2).mono (fun _ _ ht => ⟨ht.1, hs'.2.trans ht.2.1⟩)
      fun _ _ ht => ⟨ht.1, hs'.2.trans ht.2⟩
  exact hloop.mono (fun _ _ hs' => ⟨hs'.1, hs'.2, trivial⟩) fun _ _ hs' => hs'

/-- The rule for a caught outcome. -/
theorem Op.Frames.result {p : Op α} {Q : α → World × Ledger → Prop}
    (hp : Op.Frames ctx names p Q s) : Op.Frames ctx names p.result
      (fun r s' => ∀ a, r = .ok a → Q a s') s := by
  refine Outside.Spec.result (hp.mono (fun a s' h => ⟨h.1, h.2.1, ?_⟩)
    fun e s' h => ⟨h.1, h.2, nofun⟩)
  intro a' heq
  cases heq
  exact h.2.2

/-- The rule for a list. -/
theorem Op.Frames.list {ns : String} {selector : LabelSelector} {f : List Deployment → Op α}
    {Q : α → World × Ledger → Prop} (hi : Attended names s)
    (hf : ∀ ds s', Attended names s' →
      s'.2.known = s.2.known.learn ctx (.listDeployments ns selector) (.ok ds) →
        Op.Frames ctx names (f ds) Q s') :
    Op.Frames ctx names
      (Prog.bind (Op.ask (.listDeployments ns selector)) fun r => Prog.bind (Op.kube r) f) Q s := by
  refine Op.Frames.call hi nofun fun r s' hi' hknown => ?_
  cases r with
  | error e => exact .fail hi'
  | ok ds => exact hf ds s' hi' hknown

section Learning

variable {l : Knowledge} {found : List Deployment}

theorem Knowledge.learn_greens (hb : bgd ∈ l.read) :
    l.learn ctx (.listDeployments (bgd.spec.selector.ns.getD bgd.metadata.ns)
        (.ofLabels (greenLabels bgd.spec.selector))) (.ok found) =
      { l with
        resolved := listed (bgd.spec.selector.ns.getD bgd.metadata.ns) found ++ l.resolved
        greenless := found.isEmpty } := by
  have hselects : l.Selects greenLabels (bgd.spec.selector.ns.getD bgd.metadata.ns)
      (.ofLabels (greenLabels bgd.spec.selector)) := ⟨bgd, hb, rfl, rfl⟩
  simp only [learn, if_pos hselects]

theorem Knowledge.mem_learn_greens {d : Deployment} (hb : bgd ∈ l.read) (hd : d ∈ found) :
    (⟨bgd.spec.selector.ns.getD bgd.metadata.ns, d.metadata.name⟩ : DeploymentIdentity) ∈
      (l.learn ctx (.listDeployments (bgd.spec.selector.ns.getD bgd.metadata.ns)
        (.ofLabels (greenLabels bgd.spec.selector))) (.ok found)).resolved := by
  rw [learn_greens hb]
  exact List.mem_append_left _ (List.mem_map_of_mem hd)

/-- Where nobody is green, the one Deployment of the family is resolved. -/
theorem Knowledge.mem_learn_family {d : Deployment} (hb : bgd ∈ l.read)
    (hgreenless : l.greenless = true) :
    (⟨bgd.spec.selector.ns.getD bgd.metadata.ns, d.metadata.name⟩ : DeploymentIdentity) ∈
      (l.learn ctx (.listDeployments (bgd.spec.selector.ns.getD bgd.metadata.ns)
        (.ofLabels bgd.spec.selector.matchLabels)) (.ok [d])).resolved := by
  have hselects : l.Selects (·.matchLabels) (bgd.spec.selector.ns.getD bgd.metadata.ns)
      (.ofLabels bgd.spec.selector.matchLabels) := ⟨bgd, hb, rfl, rfl⟩
  by_cases hgreen : l.Selects greenLabels (bgd.spec.selector.ns.getD bgd.metadata.ns)
      (.ofLabels bgd.spec.selector.matchLabels)
  · simp [learn, if_pos hgreen, listed]
  · simp [learn, if_neg hgreen, hselects, hgreenless, listed]

end Learning

/-- A reference to a Deployment that the selector has led to. -/
def Resolves (ns : String) (ref : DeploymentRef) (s : World × Ledger) : Prop :=
  (⟨deploymentNamespace ref ns, ref.name⟩ : DeploymentIdentity) ∈ s.2.known.resolved

/-- Only a Deployment of the family is adopted. -/
theorem resolveCurrentGreen_frames (h : InHand names bgd s) :
    Op.Frames ctx names (resolveCurrentGreen bgd.metadata.ns bgd.spec.selector)
      (Resolves bgd.metadata.ns) s := by
  unfold resolveCurrentGreen
  split
  · exact .fail h.attended
  · refine Op.Frames.list h.attended fun ds s' hi' hknown => ?_
    split
    · rename_i d
      refine .pure hi' ?_
      show _ ∈ s'.2.known.resolved
      rw [hknown]
      exact Knowledge.mem_learn_greens h.read (List.mem_singleton_self d)
    · -- nothing is green yet, and the family is looked at
      rw [Knowledge.learn_greens h.read] at hknown
      refine Op.Frames.list hi' fun family s'' hi'' hknown' => ?_
      split
      · rename_i d
        have hd : (⟨bgd.spec.selector.ns.getD bgd.metadata.ns, d.metadata.name⟩ :
            DeploymentIdentity) ∈ s''.2.known.resolved := by
          rw [hknown', hknown]
          exact Knowledge.mem_learn_family h.read rfl
        refine Outside.Spec.ofExcept_bind (fun _ _ => ⟨hi'', .refl _⟩) fun adopted _ => ?_
        refine Op.Frames.call hi'' (fun id hid => ?_) fun r t hit hknown'' => ?_
        · cases hid
          exact .inl hd
        · cases r with
          | error e => exact .fail hit
          | ok u =>
            refine .pure hit ?_
            show _ ∈ t.2.known.resolved
            rw [hknown'']
            exact (s''.2.known.learn_within ctx _ _).resolved hd
      · exact .fail hi''
      · exact .fail hi''
    · exact .fail hi'

/-- The green that an assignment is for was listed. -/
theorem greenForAssignments_frames {assignments : List PropertyAssignment}
    (h : InHand names bgd s) :
    Op.Frames ctx names (greenForAssignments bgd bgd.metadata.ns assignments)
      (fun green s' => ∀ ref, green = some ref → Resolves bgd.metadata.ns ref s') s := by
  unfold greenForAssignments
  split
  · refine (resolveCurrentGreen_frames h).bind fun green s' hi' _ hgreen => .pure hi' ?_
    intro ref heq
    cases heq
    exact hgreen
  · exact .pure h.attended nofun

theorem assignmentIdentity_addresses {greenRef : Option DeploymentRef} {target : AssignmentTarget}
    {id : DeploymentIdentity} (hb : bgd ∈ s.2.known.read)
    (hgreen : ∀ ref, greenRef = some ref → Resolves bgd.metadata.ns ref s)
    (h : assignmentIdentity bgd bgd.metadata.ns greenRef target = some id) :
    s.2.known.Addresses id := by
  cases target with
  | green =>
    obtain ⟨ref, href, rfl⟩ := Option.map_eq_some_iff.mp h
    exact .inl (hgreen ref href)
  | blue =>
    cases h
    exact .inr ⟨bgd, hb, candidate_generated bgd⟩
  | test =>
    obtain ⟨test, htest, rfl⟩ := Option.map_eq_some_iff.mp h
    exact .inr ⟨bgd, hb, test_generated htest⟩

/-- Every patch of the assignments is for a Deployment that some assignment is for. -/
theorem groupAssignments_keys {P : DeploymentIdentity → Prop} {ns : String}
    {greenRef : Option DeploymentRef} {assignments : List PropertyAssignment}
    (h : ∀ target id, assignmentIdentity bgd ns greenRef target = some id → P id) :
    ∀ key ∈ (groupAssignments bgd ns greenRef assignments).grouped.keys, P ⟨key.ns, key.name⟩ := by
  refine List.foldlRecOn (motive := fun (g : GroupedAssignments) =>
    ∀ key ∈ g.grouped.keys, P ⟨key.ns, key.name⟩) assignments _ (by simp) fun g hg a _ => ?_
  intro key hkey
  split at hkey
  · rename_i identity hidentity
    rcases OrdMap.mem_keys_insert.mp hkey with rfl | hold
    · exact h a.target identity hidentity
    · exact hg key hold
  · exact hg key hkey

theorem patchTargetedDeploymentEnv_touches (ns name : String) (container : Option String)
    (env : List (String × String)) (ignoreMissing : Bool) :
    (patchTargetedDeploymentEnv ns name container env ignoreMissing).Calls
      fun c => ∀ id, c.touches = some id → id = ⟨ns, name⟩ := by
  refine (ask_calls nofun).bind fun r => ?_
  rcases r with e | d
  · cases e with
    | notFound _ => cases ignoreMissing <;> trivial
    | _ => trivial
  · refine (lift_calls _).bind fun _ => askKube_calls (fun id hid => ?_) fun _ => trivial
    cases hid
    rfl

theorem applyAssignments_frames {assignments : List PropertyAssignment} {ignoreMissing : Bool}
    (h : InHand names bgd s) : Op.Frames ctx names
      (applyAssignments bgd bgd.metadata.ns assignments ignoreMissing) (fun _ _ => True) s := by
  refine (greenForAssignments_frames h).andThen h fun greenRef s' h' hgreen => ?_
  refine Op.Frames.bind (R := fun _ _ => True)
    (.forEach h'.attended fun entry hentry t hit hwithin => ?_) fun _ t hit _ _ => .pure hit trivial
  have haddressed : s'.2.known.Addresses ⟨entry.1.ns, entry.1.name⟩ :=
    groupAssignments_keys (P := s'.2.known.Addresses)
      (fun _ _ => assignmentIdentity_addresses h'.read hgreen) entry.1
      (List.mem_map_of_mem hentry)
  exact Op.Frames.of_calls (patchTargetedDeploymentEnv_touches _ _ _ _ _) hit
    fun id hid => hid ▸ haddressed.within hwithin

theorem startPluginDraining_frames {targets : List AssignmentTarget} (h : InHand names bgd s) :
    Op.Frames ctx names (startPluginDraining ctx bgd bgd.metadata.ns targets) (fun _ _ => True)
      s := by
  refine .forEach h.attended fun ip _ s₁ hi₁ hwithin => ?_
  have h₁ : InHand names bgd s₁ := ⟨hi₁, hwithin.read h.read⟩
  refine Op.Frames.after (ask_calls nofun) h₁ fun r s₂ h₂ => ?_
  refine Op.Frames.after (kube_calls r) h₂ fun plugin s₃ h₃ => ?_
  refine Op.Frames.after (.asks (Op.Asks.invokeInceptorLifecycle _ _ _ _ _ _)) h₃
    fun response s₄ h₄ => ?_
  dsimp only
  split
  · exact .pure h₄.attended trivial
  · exact (applyAssignments_frames h₄).andThen h₄ fun ids s₅ h₅ _ =>
      .generated (.asks (Op.Asks.waitForDeploymentsReady _)) h₅

/-! ### The arms -/

theorem ensureInceptionResources_frames (h : InHand names bgd s) : Op.Frames ctx names
    (ensureInceptionResources ctx bgd bgd.metadata.ns) (fun _ _ => True) s := by
  refine Op.Frames.after (lift_calls _) h fun testUrl s₁ h₁ => ?_
  refine Op.Frames.after (.foldEach fun ip acc hip => Op.Generated.prepareInceptionPoint hip) h₁
    fun prepared s₂ h₂ => ?_
  refine Op.Frames.after
    (.foldEach fun _ _ _ => Op.Generated.asks (Op.Asks.prepareInceptor _ _ _ _ _)) h₂
    fun assignments s₃ h₃ => ?_
  refine Op.Frames.after (Op.Generated.extraTestEnv ctx bgd _) h₃ fun extraEnv s₄ h₄ => ?_
  refine Op.Frames.after (Op.Generated.ensureDeclaredDeployments ctx bgd _) h₄ fun _ s₅ h₅ => ?_
  refine Op.Frames.after (Op.Generated.ensureTestResources bgd _ _) h₅
    fun testDeployments s₆ h₆ => ?_
  refine Op.Frames.after (Op.Generated.asks (Op.Asks.waitForDeploymentsReady _)) h₆
    fun _ s₇ h₇ => ?_
  refine Op.Frames.after (Op.Generated.asks (Op.Asks.waitForTestServicesReady _ _)) h₇
    fun _ s₈ h₈ => ?_
  have hpre : Op.Frames ctx names (applyPreActivation bgd bgd.metadata.ns assignments)
      (fun _ _ => True) s₈ := by
    unfold applyPreActivation
    split
    · exact .pure h₈.attended trivial
    · exact (applyAssignments_frames h₈).andThen h₈ fun _ s₉ h₉ _ =>
        .generated (Op.Generated.asks (Op.Asks.waitForDeploymentsReady _)) h₉
  exact hpre.andThen h₈ fun _ s₉ h₉ _ => .generated
    (.forEach fun _ _ => Op.Generated.asks (Op.Asks.activateInceptor _ _ _ _)) h₉

theorem reconcilePending_frames (h : InHand names bgd s) : Op.Frames ctx names
    (reconcilePending ctx bgd bgd.metadata.ns) (fun _ _ => True) s := by
  refine Op.Frames.after (Op.Generated.ensureRolloutGeneration bgd _) h fun _ s₁ h₁ => ?_
  refine Op.Frames.after (Op.Generated.ensureRolloutSpecSnapshot ctx bgd _) h₁
    fun _ s₂ h₂ => ?_
  refine Op.Frames.after (Op.Generated.ensureGeneratedCandidateName bgd _) h₂
    fun recorded s₃ h₃ => ?_
  cases recorded with
  | none => exact .pure h₃.attended trivial
  | some _ =>
    refine Op.Frames.after (Op.Generated.bootstrapInitialGreenIfEmpty ctx bgd) h₃
      fun bootstrapped s₄ h₄ => ?_
    cases bootstrapped with
    | true => exact .generated (Op.Generated.reports (Op.Reports.updateStatusPhase _ _ _)) h₄
    | false =>
      refine (resolveCurrentGreen_frames h₄).andThen h₄ fun _ s₅ h₅ _ => ?_
      refine Op.Frames.after (Op.Generated.validateProgressiveShiftingSupport bgd) h₅
        fun _ s₆ h₆ => ?_
      refine (ensureInceptionResources_frames h₆).andThen h₆ fun _ s₇ h₇ _ => ?_
      exact .generated ((Op.Generated.initializeSplitterTraffic ctx bgd _).bind fun _ =>
        Op.Generated.reports (Op.Reports.updateStatusPhase _ _ _)) h₇

/-- A rollback deletes what is under the candidate's name. -/
theorem beginDrainingAfterRollback_frames (h : InHand names bgd s) : Op.Frames ctx names
    (beginDrainingAfterRollback ctx bgd bgd.metadata.ns) (fun _ _ => True) s := by
  refine Op.Frames.after (Op.Generated.note _) h fun _ s₁ h₁ => ?_
  refine (startPluginDraining_frames h₁).andThen h₁ fun _ s₂ h₂ _ => ?_
  exact .generated ((Op.Generated.deleteDeployment (candidate_generated bgd)).bind fun _ =>
    Op.Generated.note _) h₂

theorem performAction_frames {action : PromotionAction} (h : InHand names bgd s) :
    Op.Frames ctx names (performAction ctx bgd bgd.metadata.ns action) (fun _ _ => True) s := by
  cases action with
  | continueObserving => exact .pure h.attended trivial
  | promote => exact .generated (Op.Generated.reports (Op.Reports.updateStatusPhase _ _ _)) h
  | rollback =>
    exact (beginDrainingAfterRollback_frames h).andThen h fun _ s' h' _ =>
      .generated (Op.Generated.reports (Op.Reports.startDrain _ _)) h'
  | advanceStep step trafficPercent =>
    exact .generated ((Op.Generated.passive (Op.Passive.applySplitterTrafficPercent _ _ _ _)).bind
      fun _ => Op.Generated.reports (Op.Reports.patchStatus _ _ _)) h

theorem reconcileObserving_frames {stateKey : String} (h : InHand names bgd s) : Op.Frames ctx names
    (reconcileObserving ctx bgd bgd.metadata.ns stateKey) (fun _ _ => True) s := by
  refine Op.Frames.after (lift_calls _) h fun _ s₁ h₁ => ?_
  refine Op.Frames.after (ask_calls nofun) h₁ fun r s₂ h₂ => ?_
  refine Op.Frames.after (stateStore_calls r) h₂ fun counts s₃ h₃ => ?_
  refine Op.Frames.after (ask_calls nofun) h₃ fun r s₄ h₄ => ?_
  refine Op.Frames.after (stateStore_calls r) h₄ fun dataCounts s₅ h₅ => ?_
  refine Op.Frames.after (ask_calls nofun) h₅ fun r s₆ h₆ => ?_
  refine Op.Frames.after (stateStore_calls r) h₆ fun customCounts s₇ h₇ => ?_
  refine Op.Frames.after (ask_calls nofun) h₇ fun r s₈ h₈ => ?_
  refine Op.Frames.after (stateStore_calls r) h₈ fun message s₉ h₉ => ?_
  refine Op.Frames.after (Op.Generated.reports (Op.Reports.patchStatus _ _ _)) h₉
    fun _ t ht => ?_
  refine Op.Frames.after (Op.Generated.note _) ht fun _ t₁ ht₁ => ?_
  exact Op.Frames.after (lift_calls _) ht₁ fun action t₂ ht₂ => performAction_frames ht₂

/-- The previous green is one that the selector has listed, unless it is the candidate itself. -/
theorem promote_frames (h : InHand names bgd s) :
    Op.Frames ctx names (promote ctx bgd bgd.metadata.ns)
      (fun found s' => Resolves bgd.metadata.ns found s' ∨ found = candidateRef bgd) s := by
  have hresolve {s : World × Ledger} (h : InHand names bgd s) : Op.Frames ctx names
      (resolvePreviousGreenForPromotion bgd.metadata.ns bgd.spec.selector (candidateRef bgd))
      (fun found s' => Resolves bgd.metadata.ns found s' ∨ found = candidateRef bgd) s := by
    unfold resolvePreviousGreenForPromotion
    split
    · exact .fail h.attended
    refine Op.Frames.list h.attended fun ds s' hi' hknown => ?_
    cases hselect : selectPreviousGreenForPromotion
        (bgd.spec.selector.ns.getD bgd.metadata.ns) ds (candidateRef bgd) bgd.metadata.ns with
    | error e => exact .fail hi'
    | ok found =>
      refine .pure hi' ?_
      have hprevious : ∀ ref ∈ previousGreens (bgd.spec.selector.ns.getD bgd.metadata.ns) ds
          (candidateRef bgd) bgd.metadata.ns, Resolves bgd.metadata.ns ref s' := by
        intro ref href
        obtain ⟨d, hd, rfl⟩ := List.mem_map.mp href
        show _ ∈ s'.2.known.resolved
        rw [hknown]
        exact Knowledge.mem_learn_greens h.read (List.mem_filter.mp hd).1
      unfold selectPreviousGreenForPromotion at hselect
      split at hselect <;> cases hselect
      · rename_i hone
        exact .inl (hprevious found (hone ▸ List.mem_singleton_self found))
      · exact .inr rfl
      · rename_i hone
        exact .inl (hprevious found (hone ▸ List.mem_singleton_self found))
  refine Op.Frames.after (Op.Generated.note _) h fun _ s₁ h₁ => ?_
  refine (hresolve h₁).andThen h₁ fun found s₂ h₂ hfound => ?_
  refine Op.Frames.bind (.generated (Op.Generated.applyDeploymentManifest ctx bgd true []) h₂)
    fun id s₃ hi₃ hw₃ _ => ?_
  refine Op.Frames.bind (.generated (Op.Generated.asks (Op.Asks.waitForDeploymentsReady [id]))
    ⟨hi₃, hw₃.read h₂.read⟩) fun _ s₄ hi₄ hw₄ _ => .pure hi₄ ?_
  exact hfound.imp (fun hresolved => hw₄.resolved (hw₃.resolved hresolved)) fun hsame => hsame

theorem deleteCurrentGreen_frames {found : DeploymentRef} (hi : Attended names s)
    (hfound : Resolves bgd.metadata.ns found s ∨ found = candidateRef bgd) :
    Op.Frames ctx names (deleteCurrentGreen bgd.metadata.ns (candidateRef bgd) found)
      (fun _ _ => True) s := by
  unfold deleteCurrentGreen
  dsimp only
  split
  · exact .pure hi trivial
  · rename_i hother
    rcases hfound with hresolved | rfl
    · refine Op.Frames.of_calls (deleteDeployment_touches _ _) hi fun id hid => ?_
      exact .inl (hid ▸ hresolved)
    · exact absurd ⟨rfl, rfl⟩ hother

theorem reconcilePromoting_frames (h : InHand names bgd s) : Op.Frames ctx names
    (reconcilePromoting ctx bgd bgd.metadata.ns) (fun _ _ => True) s := by
  refine (promote_frames h).andThen h fun found s₁ h₁ hfound => ?_
  have hdrain : Op.Frames ctx names
      (beginDrainingAfterPromotion ctx bgd bgd.metadata.ns found) (fun _ _ => True) s₁ := by
    refine Op.Frames.bind (.generated (Op.Generated.note _) h₁) fun _ s₂ hi₂ hw₂ _ => ?_
    refine Op.Frames.bind (startPluginDraining_frames ⟨hi₂, hw₂.read h₁.read⟩)
      fun _ s₃ hi₃ hw₃ _ => ?_
    have hfound₃ : Resolves bgd.metadata.ns found s₃ ∨ found = candidateRef bgd :=
      hfound.imp (fun hresolved => hw₃.resolved (hw₂.resolved hresolved)) id
    refine (deleteCurrentGreen_frames hi₃ hfound₃).bind fun _ s₄ hi₄ _ _ => ?_
    exact .of_calm (ask_calls id) hi₄
  exact hdrain.andThen h₁ fun _ s₂ h₂ _ =>
    .generated (Op.Generated.reports (Op.Reports.startDrain _ _)) h₂

theorem reconcilePhase_frames {stateKey : String} (phase : BGDPhase) (h : InHand names bgd s) :
    Op.Frames ctx names (reconcilePhase ctx bgd bgd.metadata.ns stateKey phase) (fun _ _ => True)
      s := by
  cases phase with
  | pending => exact reconcilePending_frames h
  | observing => exact reconcileObserving_frames h
  | promoting => exact reconcilePromoting_frames h
  | draining => exact .generated (Op.Generated.reconcileDraining ctx bgd stateKey) h
  | completed | rolledBack | invalid => exact .generated (Op.Generated.cleanupRollout bgd _) h

/-! ### One reconcile -/

/-- The object of a snapshot is the one that was read, with another spec. -/
theorem loadRolloutSpecSnapshot_frames (h : InHand names bgd s) :
    Op.Frames ctx names (loadRolloutSpecSnapshot ctx bgd bgd.metadata.ns)
      (fun b s' => b ∈ s'.2.known.read ∧ b.metadata = bgd.metadata) s := by
  refine Op.Frames.call h.attended nofun fun r s' hi' hknown => ?_
  cases r with
  | error e => exact .fail hi'
  | ok snapshot =>
    refine Outside.Spec.ofExcept_bind (fun _ _ => ⟨hi', .refl _⟩) fun spec hspec => ?_
    refine Op.Frames.pure hi' ⟨?_, rfl⟩
    rw [hknown]
    refine List.mem_append_left _ (List.mem_filterMap.mpr ⟨bgd, h.read, ?_⟩)
    rw [if_pos ⟨rfl, rfl⟩, hspec]

theorem rolloutBgd_frames (phase : BGDPhase) (h : InHand names bgd s) :
    Op.Frames ctx names (rolloutBgd ctx bgd bgd.metadata.ns phase)
      (fun b s' => b ∈ s'.2.known.read ∧ b.metadata = bgd.metadata) s := by
  unfold rolloutBgd
  split
  · split
    · exact Op.Frames.after (Op.Generated.reports (Op.Reports.updateStatusUpdateDeferred _ _)) h
        fun _ s' h' => loadRolloutSpecSnapshot_frames h'
    · exact loadRolloutSpecSnapshot_frames h
  · exact .pure h.attended ⟨h.read, rfl⟩

/-- A forced replacement starts the drain under the candidate's name, recorded or not. -/
theorem startForceReplaceRollout_frames (h : InHand names bgd s) : Op.Frames ctx names
    (startForceReplaceRollout ctx bgd bgd.metadata.ns) (fun _ _ => True) s := by
  have hchoose : Op.Frames ctx names (forceReplaceBgd ctx bgd bgd.metadata.ns)
      (fun b s' => b ∈ s'.2.known.read ∧ b.metadata = bgd.metadata) s := by
    refine (loadRolloutSpecSnapshot_frames h).result.andThen h fun r s' h' hloaded => ?_
    cases r with
    | ok b => exact .pure h'.attended (hloaded b rfl)
    | error e => exact .pure h'.attended ⟨h'.read, rfl⟩
  refine hchoose.bind fun b s₁ hi₁ _ hb => ?_
  have h₁ : InHand names b s₁ := ⟨hi₁, hb.1⟩
  rw [← hb.2]
  exact (beginDrainingAfterRollback_frames h₁).andThen h₁ fun _ s₂ h₂ _ =>
    .generated (Op.Generated.reports (Op.Reports.startDrain _ _)) h₂

theorem cleanupDeletedBgd_frames (h : InHand names bgd s) :
    Op.Frames ctx names (cleanupDeletedBgd bgd) (fun _ _ => True) s :=
  .generated ((Op.Generated.cleanupRollout bgd _).bind fun _ =>
    askKube_calls nofun fun _ => trivial) h

theorem reconcileLocked_frames (h : InHand names bgd s) :
    Op.Frames ctx names (reconcileLocked ctx bgd) (fun _ _ => True) s := by
  refine Op.Frames.after (Op.Generated.note _) h fun _ s₁ h₁ => ?_
  dsimp only
  split
  · exact cleanupDeletedBgd_frames h₁
  split
  · exact .generated (askKube_calls nofun fun _ => trivial) h₁
  split
  · refine .generated ((Op.Generated.cleanupRollout bgd _).bind fun _ => ?_) h₁
    exact (ask_calls nofun).bind fun _ => Op.Generated.reports (Op.Reports.patchStatus _ _ _)
  split
  · exact startForceReplaceRollout_frames h₁
  · refine (rolloutBgd_frames _ h₁).bind fun b s₂ hi₂ _ hb => ?_
    rw [← hb.2]
    exact reconcilePhase_frames _ ⟨hi₂, hb.1⟩

/-- **One reconcile** touches only Deployments that the selector has listed or that are under a
generated name. -/
theorem reconcile_frames (bgd : BlueGreenDeployment) (hi : Attended names s) :
    Op.Frames ctx names (reconcile ctx bgd) (fun _ _ => True) s := by
  have hlatest {s : World × Ledger} (hi : Attended names s)
      {work : BlueGreenDeployment → Op Unit} (hwork : ∀ latest s', InHand names latest s' →
        Op.Frames ctx names (work latest) (fun _ _ => True) s') :
      Op.Frames ctx names (withLatest bgd work) (fun _ _ => True) s := by
    refine Op.Frames.call hi nofun fun r s' hi' hknown => ?_
    rcases r with e | latest
    · cases e with
      | notFound _ => exact .pure hi' trivial
      | _ => exact .fail hi'
    · refine hwork latest s' ⟨hi', ?_⟩
      rw [hknown]
      exact List.mem_cons_self
  have hpublish {s : World × Ledger} {work : Op Unit}
      (hwork : Op.Frames ctx names work (fun _ _ => True) s) :
      Op.Frames ctx names (publishingErrors bgd work) (fun _ _ => True) s := by
    refine hwork.result.bind fun r s' hi' _ _ => ?_
    rcases r with e | _
    · have hreport : (publishReconcileErrorStatus bgd bgd.metadata.ns e).Calls
          fun c => ¬ c.TouchesDeployments := by
        have hreports : Op.Reports (publishReconcileErrorStatus bgd bgd.metadata.ns e) := by
          unfold publishReconcileErrorStatus
          split
          · exact Op.Reports.updateStatusInvalid _ _ _ _
          · exact Op.Reports.updateStatusReconcileFailure _ _ _ _
        refine hreports.mono fun c hc ht => ?_
        cases c <;> first | exact hc | exact ht
      exact .of_calm ((ask_calls id).bind fun _ => hreport.bind fun _ => trivial) hi'
    · exact .pure hi' trivial
  refine Op.Frames.bind (.of_calm (ask_calls id) hi) fun _ s₁ hi₁ _ _ => ?_
  split
  · exact hpublish (hlatest hi₁ fun _ _ h => cleanupDeletedBgd_frames h)
  · exact hpublish (hlatest hi₁ fun _ _ h => reconcileLocked_frames h)

end Listed

/-! ## Every run -/

theorem attended_stable {ctx : Ctx} {names : DeploymentIdentity → Prop} :
    (attendedOutside ctx names).Stable (Attended names) := by
  rintro s s' hi ⟨v, hguard, hmove⟩
  exact (hi.move hguard hmove).1

/-- **Only the operator's own Deployments are touched**, and those of the family, as long as nobody
else has one under a name by which the operator finds a Deployment. Reconciles may fail and be cut
off anywhere, status writes may be lost, and others may do what they like besides. -/
theorem touches_own {ctx : Ctx} {names : DeploymentIdentity → Prop} {w : World}
    {s : Conf Call Answer ReconcileError (World × Ledger)} {o : Outcome}
    (hfree : ∀ d ∈ w.deployments, ¬ names d.identity)
    (hrun : Machine.Run (attended ctx) (reconcile ctx) (apart names)
      ⟨(w, .blank), none⟩ s)
    (hnext : Machine.Meets (J := BlueGreenDeployment) (apart names) s (.answer o)) :
    TouchesOwn s := by
  have hinit : Attended names (w, .blank) := fun d hd hname => absurd hname (hfree d hd)
  have hgood : Machine.Good (attended ctx) (apart names) (frame names) s :=
    Machine.Run.sound attended_stable (fun _ h => h)
      (fun bgd s h => (reconcile_frames bgd h).mono (fun _ _ _ => trivial) fun _ _ _ => trivial)
      (.of_idle hinit) hrun
  intro id htouch hthere
  cases hrunning : s.running with
  | none => simp [touching, hrunning] at htouch
  | some p =>
    cases p with
    | pure _ => simp [touching, hrunning] at htouch
    | fail _ => simp [touching, hrunning] at htouch
    | call c k =>
      simp only [touching, hrunning] at htouch
      by_cases hresolved : id ∈ s.world.2.known.resolved
      · exact .inl hresolved
      · -- nothing but a generated name leads there, and what is under it is the operator's
        have haddressed := hgood.may hrunning id htouch
        simp only [Machine.Meets, hrunning] at hnext
        have hname : names id :=
          hnext id htouch hthere hresolved (haddressed.resolve_left hresolved)
        obtain ⟨d, hd, rfl⟩ := List.mem_map.mp hthere
        exact .inr (hgood.1 d hd hname)

/-! ## Two runs -/

namespace Sample

/-- The candidate is not there yet. -/
def candidateWorld : World :=
  { world .pending [] with deployments := [deployment "shop-old" "true"] }

/-- A reconcile is cut off after it has created the candidate, and the next one finds it. -/
def candidateRun : List Step :=
  .start (bgd .pending) :: served 9 ++ [.stop] ++ .start (bgd .pending) :: served 8

def candidateName (id : DeploymentIdentity) : Prop := id = ⟨"default", "shop-x7k2q9"⟩

instance : DecidablePred candidateName := fun id => inferInstanceAs (Decidable (id = _))

/-- The object is new, and somebody has a Deployment `shop-pending`. -/
def neighbourWorld : World :=
  { world .pending [] with
    bgd := some { bgd .pending with status := none }
    deployments := [deployment "shop-old" "true",
      (deployment "shop-pending" "false").mapLabels fun _ => .empty] }

/-- A reconcile is cut off after it has recorded the generation, and an edit asks for a forced
replacement. -/
def neighbourRun : List Step :=
  .start (bgd .pending) :: served 4 ++ [.stop, .move (.editSpec forceReplaceSpec)] ++
  .start (bgd .pending) :: served 5

/-- What is about to be touched, whether it is there, and what was listed and created. -/
def touchingEnd (s : Conf Call Answer ReconcileError (World × Ledger)) :
    Option DeploymentIdentity × List DeploymentIdentity × List DeploymentIdentity ×
      List DeploymentIdentity :=
  (touching s, s.world.1.deployments.map Deployment.identity, s.world.2.known.resolved,
    s.world.2.created)

end Sample

def touchesOwnCandidateFree :
    PLift (∀ d ∈ Sample.candidateWorld.deployments, ¬ Sample.candidateName d.identity) :=
  ⟨by decide +kernel⟩

/-- The second reconcile is about to replace the candidate that the first one has created. -/
theorem touches_own_candidate : ∃ s : Conf Call Answer ReconcileError (World × Ledger),
    touching s = some ⟨"default", "shop-x7k2q9"⟩ ∧
    (⟨"default", "shop-x7k2q9"⟩ : DeploymentIdentity) ∈
      s.world.1.deployments.map Deployment.identity ∧ TouchesOwn s := by
  have hrun : (Machine.run (apart Sample.candidateName) (attended Sample.ctx)
      (reconcile Sample.ctx) ⟨(Sample.candidateWorld, .blank), none⟩ Sample.candidateRun).map
      (fun s => (Sample.touchingEnd s,
        decide (Machine.Meets (J := BlueGreenDeployment) (apart Sample.candidateName) s
          (.answer .ok)))) =
      some ((some ⟨"default", "shop-x7k2q9"⟩,
        [⟨"default", "shop-old"⟩, ⟨"default", "shop-x7k2q9"⟩], [⟨"default", "shop-old"⟩],
        [⟨"default", "shop-x7k2q9"⟩]), true) := by decide +kernel
  obtain ⟨s, r, hs⟩ := Machine.Run.exists_of_run hrun
  simp only [Sample.touchingEnd, Prod.mk.injEq, decide_eq_true_eq] at hs
  obtain ⟨⟨htouch, hthere, -, -⟩, hnext⟩ := hs
  have hfree := touchesOwnCandidateFree.down
  refine ⟨s, htouch, ?_, touches_own hfree r hnext⟩
  simp [hthere]

def neighbourDeletedRun : PLift ((Machine.run Guard.top (attended Sample.ctx) (reconcile Sample.ctx)
      ⟨(Sample.neighbourWorld, .blank), none⟩ Sample.neighbourRun).map Sample.touchingEnd =
      some (some ⟨"default", "shop-pending"⟩,
        [⟨"default", "shop-old"⟩, ⟨"default", "shop-pending"⟩], [], [])) :=
  ⟨by decide +kernel⟩

/-- A forced replacement before the candidate has a name deletes `shop-pending`, whoever owns
it. -/
theorem neighbour_deleted :
    ¬ ∀ (ctx : Ctx) (w : World) (s : Conf Call Answer ReconcileError (World × Ledger)),
      Machine.Run (attended ctx) (reconcile ctx) Guard.top ⟨(w, .blank), none⟩ s →
      TouchesOwn s := by
  intro hall
  have hrun := neighbourDeletedRun.down
  obtain ⟨s, r, hs⟩ := Machine.Run.exists_of_run hrun
  simp only [Sample.touchingEnd, Prod.mk.injEq] at hs
  obtain ⟨htouch, hthere, hresolved, hcreated⟩ := hs
  have howned := hall _ _ s r ⟨"default", "shop-pending"⟩ htouch (by simp [hthere])
  simp [hresolved, hcreated] at howned

end FluidBG
