import FluidBG.Plugins.Requests
import FluidBG.Plugins.Sample
import FluidBG.Proof.DerivedQueues
/-!
# Sweeps and the inceptions that are alive

A manager sweeps with an inventory that was made when the request was. An inception that has been
prepared since, or whose entry has changed since, is not in it, and loses what `prepare` has created
for it. No sweep takes anything from a living inception as long as the inventory accounts for what
the sweep has listed: the names in the inventory are derived as those of `prepare` are.
-/

set_option autoImplicit false

namespace FluidBG

open Lib

/-! ## The condition -/

/-- The names of a manager: which of them its sweep looks at, which an inventory keeps, and which
`prepare` derives for an inception and which it takes from the application. -/
structure ManagedNames (N : Type) where
  temporary : N → Bool
  active : List ActiveInception → List N
  derived : InceptionId → List String → Json → List N
  supplied : InceptionId → List String → Json → List N

namespace ManagedNames

variable {N : Type} (names : ManagedNames N)

def derivedFor (req : PluginManagerLifecycleRequest) : List N :=
  names.derived req.inceptionId req.roles req.config

def suppliedFor (req : PluginManagerLifecycleRequest) : List N :=
  names.supplied req.inceptionId req.roles req.config

/-- What a request may create. -/
def managed : ManagerRequest → List N
  | .lifecycle _ _ req => names.derivedFor req ++ names.suppliedFor req
  | .sync _ _ => []

/-- The inventory has the inception, with roles and a configuration that the object goes with. -/
def ListedFor (inventory : List ActiveInception) (id : InceptionId) (n : N) : Prop :=
  ∃ e ∈ inventory, e.inceptionId = id ∧ n ∈ names.derived id e.roles e.config

/-- The inventory accounts for an object that was created for an inception: the inception is in it,
or the object is the application's own, and no sweep would take it for one of an inception that is
not in the inventory. -/
def Accounts (inventory : List ActiveInception) (req : PluginManagerLifecycleRequest) (n : N) :
    Prop :=
  (n ∈ names.derivedFor req → names.ListedFor inventory req.inceptionId n) ∧
    (n ∉ names.derivedFor req → names.temporary n → n ∈ names.active inventory)

/-- A sweep with this inventory, which has listed these objects, deletes the object. -/
structure Sweeps (inventory : List ActiveInception) (listed : List N) (n : N) : Prop where
  listed : n ∈ listed
  temporary : names.temporary n
  unaccounted : n ∉ names.active inventory

variable [DecidableEq N]

instance (inventory : List ActiveInception) (id : InceptionId) (n : N) :
    Decidable (names.ListedFor inventory id n) :=
  inferInstanceAs (Decidable (∃ e ∈ inventory, _))

instance (inventory : List ActiveInception) (req : PluginManagerLifecycleRequest) (n : N) :
    Decidable (names.Accounts inventory req n) :=
  inferInstanceAs (Decidable (_ ∧ _))

end ManagedNames

namespace Manager

variable {C : Type} {A : C → Type} {S N : Type} [DecidableEq N] (M : Manager C A S N)
  (names : ManagedNames N)

/-- **What a living inception needs of the steps of a run.** Where a sweep deletes something, the
inventory accounts for all that it has listed of the inceptions that are prepared and alive. -/
def accounted : Watch (RequestCall C) (RequestMemory N) (ManagedWorld S N) RequestOutcome
    (ManagedMove S) where
  call _ x w c _ := match c, x.listed with
    | .server c, some listed => (M.deletes c).isSome → ∀ p ∈ w.prepared, w.Alive p →
        ∀ n ∈ p.created, n ∈ listed → names.Accounts x.request.inventory p.request n
    | _, _ => True
  move _ _ _ := True

instance (others : List (RequestMemory N)) (x : RequestMemory N) (w : ManagedWorld S N)
    (o : RequestOutcome) : (c : RequestCall C) →
      Decidable ((M.accounted names).call others x w c o)
  | .compose | .done => .isTrue trivial
  | .server c => match h : x.listed with
    | some listed => decidable_of_iff ((M.deletes c).isSome → ∀ p ∈ w.prepared, w.Alive p →
        ∀ n ∈ p.created, n ∈ listed → names.Accounts x.request.inventory p.request n)
        (by simp only [accounted, h])
    | none => .isTrue (by simp only [accounted, h])

instance (all : List (RequestMemory N)) (w : ManagedWorld S N) (v : ManagedMove S) :
    Decidable ((M.accounted names).move all w v) := .isTrue trivial

/-! ## What a request keeps to -/

/-- The calls of a request: it creates what it manages, and from its first list on it deletes only
what its sweep does. -/
def May (x : RequestMemory N) : RequestCall C → Prop
  | .compose => x.created = []
  | .server c => (∀ n, M.creates c = some n → n ∈ names.managed x.request) ∧
      ∀ listed, x.listed = some listed → ∀ n, M.deletes c = some n →
        names.Sweeps x.request.inventory listed n
  | .done => True

/-- A program of the manager keeps to this from `x` on, and ends with a memory of `Q`. -/
abbrev Follows {α : Type} (Q : α → RequestMemory N → Prop) (p : Prog C A StatusCode α)
    (x : RequestMemory N) : Prop :=
  Pool.Follows M.requests (M.May names) Q
    (p.lift RequestCall.server fun _ a => a : Prog (RequestCall C) (RequestAnswer A) StatusCode α) x

/-- What is known of a manager: it removes an object only by deleting it, the names of an inventory
are derived as those of a request, and its handlers keep to the calls of a request. -/
structure Lawful : Prop where
  removes : ∀ server c o n, n ∈ M.objects server → n ∉ M.objects (M.serve server c o).2 →
    M.deletes c = some n
  protects : ∀ inventory id n, names.ListedFor inventory id n → n ∈ names.active inventory
  handles : ∀ x, x.listed = none → M.Follows names (fun _ _ => True) (M.handle x.request) x

/-- No sweep takes anything from an inception that is alive. -/
def Spares : Prop :=
  ∀ bgds server (s : Pool (RequestCall C) (RequestAnswer A) StatusCode (RequestMemory N)
    (ManagedWorld S N)), Pool.Run M.requests M.thread (M.accounted names)
      ⟨⟨bgds, server, [], [], []⟩, []⟩ s → s.world.lost = []

/-! ## Every run -/

/-- Nothing was lost, and what was created for a request is its own. -/
structure Sound (w : ManagedWorld S N) (xs : List (RequestMemory N)) : Prop where
  lost : w.lost = []
  created : ∀ x ∈ xs, x.created ⊆ names.managed x.request
  prepared : ∀ p ∈ w.prepared, p.created ⊆ names.derivedFor p.request ++ names.suppliedFor p.request

variable {M names} {w w' : ManagedWorld S N} {x x' : RequestMemory N}

/-- A step of a sweep takes nothing from the living. -/
theorem Lawful.losses_eq_nil (hM : M.Lawful names)
    {others : List (RequestMemory N)} {c : C} {o : RequestOutcome}
    (hmay : M.May names x (.server c)) (hg : (M.accounted names).call others x w (.server c) o) :
    M.losses w x (M.serve w.server c o.call).2 = [] := by
  unfold losses
  split
  · rename_i hlisted
    obtain ⟨listed, hlisted⟩ := Option.isSome_iff_exists.mp hlisted
    refine List.filter_eq_nil_iff.mpr fun n hn hgone => ?_
    simp only [decide_eq_true_eq] at hgone
    obtain ⟨hgone, p, hp, halive, hcreated⟩ := hgone
    have hdeletes := hM.removes _ _ _ _ hn hgone
    have hsweeps := hmay.2 listed hlisted n hdeletes
    simp only [accounted, hlisted] at hg
    have haccounts := hg (by simp [hdeletes]) p hp halive n hcreated hsweeps.listed
    -- what was derived is in the inventory again, and the rest the condition speaks of
    by_cases hderived : n ∈ names.derivedFor p.request
    · exact hsweeps.unaccounted (hM.protects _ _ _ (haccounts.1 hderived))
    · exact hsweeps.unaccounted (haccounts.2 hderived hsweeps.temporary)
  · rfl

theorem Lawful.keeps (hM : M.Lawful names) : Pool.Keeps M.requests (M.accounted names)
    (M.May names) (fun request => (M.thread request).memory) (Sound names) where
  start w xs request hs := by
    refine { hs with created := fun x hx => ?_ }
    rcases List.mem_append.mp hx with hx | hx
    · exact hs.created x hx
    · cases List.mem_singleton.mp hx
      exact List.nil_subset _
  stop w xs i hs := { hs with created := fun x hx => hs.created x (List.mem_of_mem_eraseIdx hx) }
  move w xs v w' hs _ hmove := by
    cases v <;> cases hmove <;> exact { hs with }
  call w xs i x c o a w' x' hs hx hmay hg hserve := by
    have hmem : x ∈ xs := List.mem_of_getElem? hx
    have hothers : ∀ y, (∀ z ∈ xs, z.created ⊆ names.managed z.request) → y ∈ xs.set i x' →
        x'.created ⊆ names.managed x'.request → y.created ⊆ names.managed y.request := by
      intro y hall hy hx'
      rcases List.mem_or_eq_of_mem_set hy with hy | rfl
      · exact hall y hy
      · exact hx'
    cases c with
    | compose =>
      have hcreated : x.created = [] := hmay
      simp only [requests, serveRequest] at hserve
      split at hserve
      · cases hserve
        refine { hs with created := fun y hy => hothers y hs.created hy ?_ }
        simp [hcreated]
      · split at hserve
        · cases hserve
          refine { hs with created := fun y hy => hothers y hs.created hy ?_ }
          simp [hcreated]
        · cases hserve
    | server c =>
      cases hserve
      refine ⟨?_, fun y hy => hothers y hs.created hy ?_, hs.prepared⟩
      · show M.losses w x (M.serve w.server c o.call).2 ++ w.lost = []
        rw [hM.losses_eq_nil hmay hg, hs.lost]
        rfl
      · intro n hn
        rcases List.mem_append.mp hn with hn | hn
        · exact hmay.1 n (Option.mem_toList.mp hn)
        · exact hs.created x hmem hn
    | done =>
      cases hserve
      have hcreated := hs.created x hmem
      refine ⟨?_, fun y hy => hothers y hs.created hy hcreated, fun p hp => ?_⟩
      · unfold ManagedWorld.respond
        split <;> exact hs.lost
      · unfold ManagedWorld.respond at hp
        split at hp
        · rename_i header req hrequest
          rcases List.mem_cons.mp hp with rfl | hp
          · rw [hrequest] at hcreated
            exact hcreated
          · exact hs.prepared p hp
        · exact hs.prepared p (List.mem_filter.mp hp).1
        · exact hs.prepared p hp

/-- **A lawful manager spares the living**, in every run that meets the condition. -/
theorem Lawful.spares (hM : M.Lawful names) : M.Spares names := by
  intro bgds server s r
  refine (Pool.Run.keeps (I := Sound names) hM.keeps (fun request => ?_) ?_ r).1.lost
  · -- a request is handled with the memory that `compose` leaves
    refine Pool.Follows.call rfl fun w o request' w' x' hserve => ?_
    have hnext : x'.request = request' ∧ x'.listed = none := by
      simp only [requests, serveRequest] at hserve
      split at hserve
      · cases hserve
        exact ⟨rfl, rfl⟩
      · split at hserve
        · cases hserve
          exact ⟨rfl, rfl⟩
        · cases hserve
    obtain ⟨hrequest, hlisted⟩ := hnext
    have hhandles := hM.handles x' hlisted
    rw [hrequest] at hhandles
    have hrest : Pool.Follows M.requests (M.May names) (fun _ _ => True)
        (((M.handle request').lift RequestCall.server fun _ a => a :
          Prog (RequestCall C) (RequestAnswer A) StatusCode Unit).bind fun _ =>
            Prog.ask RequestCall.done) x' :=
      Pool.Follows.bind hhandles fun _ y _ =>
        ⟨trivial, fun _ _ _ => ⟨trivial, fun _ _ _ => trivial⟩⟩
    exact hrest
  · exact ⟨rfl, by simp, by simp⟩

/-! ## The rules for handlers -/

section Rules

variable {request : ManagerRequest} {α β : Type}

theorem Follows.bind {Q : β → RequestMemory N → Prop} {R : α → RequestMemory N → Prop}
    {p : Prog C A StatusCode α} {f : α → Prog C A StatusCode β} (hp : M.Follows names R p x)
    (hf : ∀ a x', R a x' → M.Follows names Q (f a) x') : M.Follows names Q (p.bind f) x := by
  unfold Follows
  rw [Prog.lift_bind]
  exact Pool.Follows.bind hp hf

theorem Follows.ofExcept_bind {Q : β → RequestMemory N → Prop} {r : Except StatusCode α}
    {f : α → Prog C A StatusCode β} (h : ∀ a, r = .ok a → M.Follows names Q (f a) x) :
    M.Follows names Q ((Prog.ofExcept r).bind f) x := by
  cases r with
  | ok a => exact h a rfl
  | error e => trivial

/-- A call that creates only what the request manages, and lists nothing. -/
def Works (M : Manager C A S N) (names : ManagedNames N) (request : ManagerRequest) (c : C) :
    Prop :=
  (∀ n, M.creates c = some n → n ∈ names.managed request) ∧ ∀ a, M.lists c a = none

/-- Before the sweep a handler may delete what it likes. -/
theorem Follows.works {p : Prog C A StatusCode α} (hp : p.Calls (M.Works names request))
    (hx : x.request = request ∧ x.listed = none) :
    M.Follows names (fun _ x' => x'.request = request ∧ x'.listed = none) p x := by
  refine Pool.Follows.of_calls
    (F := fun (c : RequestCall C) => ∃ c', c = .server c' ∧ M.Works names request c')
    (P := fun (x : RequestMemory N) => x.request = request ∧ x.listed = none) ?_ hx ?_ ?_
  · exact Prog.Calls.lift (hp.mono fun c hc => ⟨c, rfl, hc⟩)
  · rintro x _ ⟨c, rfl, hworks⟩ ⟨rfl, hlisted⟩
    refine ⟨hworks.1, fun listed hsome => ?_⟩
    rw [hlisted] at hsome
    cases hsome
  · rintro x w _ o a w' x' ⟨c, rfl, hworks⟩ ⟨rfl, hlisted⟩ hserve
    cases hserve
    refine ⟨rfl, ?_⟩
    simp only [saw, hworks.2, hlisted]

/-- A sweep has begun, and has listed at least these objects. -/
structure Sweeping (request : ManagerRequest) (objects : List N) (x : RequestMemory N) : Prop where
  request : x.request = request
  listed : ∃ listed, x.listed = some listed ∧ objects ⊆ listed

omit [DecidableEq N] in
theorem Sweeping.none {objects : List N} (h : Sweeping request objects x) : Sweeping request [] x :=
  ⟨h.request, h.listed.imp fun _ hl => ⟨hl.1, List.nil_subset _⟩⟩

/-- A sweep deletes what it has listed and finds unaccounted for. -/
theorem Follows.sweeping {objects : List N} {p : Prog C A StatusCode α}
    (hp : p.Calls fun c => M.Works names request c ∧ ∀ n, M.deletes c = some n →
      names.Sweeps request.inventory objects n) (hx : Sweeping request objects x) :
    M.Follows names (fun _ => Sweeping request objects) p x := by
  refine Pool.Follows.of_calls
    (F := fun (c : RequestCall C) => ∃ c', c = .server c' ∧ M.Works names request c' ∧
      ∀ n, M.deletes c' = some n → names.Sweeps request.inventory objects n)
    (P := Sweeping request objects) ?_ hx ?_ ?_
  · exact Prog.Calls.lift (hp.mono fun c hc => ⟨c, rfl, hc⟩)
  · rintro x _ ⟨c, rfl, hworks, hdeletes⟩ ⟨rfl, listed, hlisted, hsub⟩
    refine ⟨hworks.1, fun listed' hlisted' n hn => ?_⟩
    rw [hlisted] at hlisted'
    cases hlisted'
    have hsweeps := hdeletes n hn
    exact ⟨hsub hsweeps.listed, hsweeps.temporary, hsweeps.unaccounted⟩
  · rintro x w _ o a w' x' ⟨c, rfl, hworks, -⟩ ⟨rfl, listed, hlisted, hsub⟩ hserve
    cases hserve
    refine ⟨rfl, listed, ?_, hsub⟩
    simp only [saw, hworks.2, hlisted]

/-- A list, with which a sweep begins or goes on. -/
theorem Follows.list {Q : α → RequestMemory N → Prop} {c : C} {k : A c → Prog C A StatusCode α}
    (hc : M.creates c = none ∧ M.deletes c = none) (hx : x.request = request)
    (hk : ∀ a x', x'.request = request →
      (∀ objects, M.lists c a = some objects → Sweeping request objects x') →
        M.Follows names Q (k a) x') : M.Follows names Q (.call c k) x := by
  refine Pool.Follows.call ?_ fun w o a w' x' hserve => ?_
  · refine ⟨fun n hn => ?_, fun _ _ n hn => ?_⟩
    · rw [hc.1] at hn
      cases hn
    · rw [hc.2] at hn
      cases hn
  · cases hserve
    refine hk _ _ hx fun objects hlists => ⟨hx, objects ++ x.listed.getD [], ?_,
      List.subset_append_left objects _⟩
    have hlists' : M.lists c (M.serve w.server c o.call).1 = some objects := hlists
    simp only [saw, hlists']

end Rules

end Manager

/-! ## The claims of a request -/

theorem inceptionId_of_matching {req : PluginManagerLifecycleRequest} {claims : PluginAuthClaims}
    (h : ensureRequestMatchesClaims req claims = .ok ()) :
    claims.inceptionId = req.inceptionId := by
  unfold ensureRequestMatchesClaims at h
  split at h
  · rename_i hmatch
    simp only [managerRequestMatchesClaims, Bool.and_eq_true, decide_eq_true_eq] at hmatch
    obtain ⟨⟨⟨⟨hns, href⟩, hip⟩, -⟩, huid⟩ := hmatch
    simp [PluginAuthClaims.inceptionId, PluginManagerLifecycleRequest.inceptionId, hns, href, hip,
      huid]
  · cases h

/-- What a call leaves alone is there whatever becomes of the call. -/
theorem CallOutcome.mem_answer {α W N : Type} {f : W → List N} {o : CallOutcome} {a : α}
    {w after : W} {n : N} (hn : n ∈ f w) (hafter : n ∈ f after) :
    n ∈ f (o.answer a w after).2 := by
  cases o with
  | ok => exact hafter
  | refused => exact hn
  | lost => exact hafter

/-! ## NATS -/

namespace Nats

/-- The configuration of an inception that has streams. -/
def streamsConfig (id : InceptionId) (config : Json) : Option Config :=
  (Config.decode (rewriteTempSubjects id config)).filter fun config => !config.mode.isCore

def derivedStreams (id : InceptionId) (roles : List String) (config : Json) : List String :=
  (streamsConfig id config).toList.flatMap fun config =>
    (temporarySubjects (parseRoles roles) config).map streamName

def suppliedStreams (id : InceptionId) (roles : List String) (config : Json) : List String :=
  (streamsConfig id config).toList.flatMap fun config =>
    ((subjectRoles.filter (hasRole (parseRoles roles))).filterMap config.baseSubject).map streamName

def names : ManagedNames String where
  temporary stream := "fbg_fluidbg".toList.isPrefixOf stream.toList
  active := activeStreamNames
  derived := derivedStreams
  supplied := suppliedStreams

theorem activeStreamNames_eq (inventory : List ActiveInception) : activeStreamNames inventory =
    inventory.flatMap fun e => derivedStreams e.inceptionId e.roles e.config := by
  unfold activeStreamNames derivedStreams streamsConfig
  congr 1
  funext e
  cases Config.decode (rewriteTempSubjects e.inceptionId e.config) with
  | none => rfl
  | some config => cases hmode : config.mode.isCore <;> simp [hmode, Option.filter_some]

section Handlers

variable {state : ManagerState} {request : ManagerRequest} {x : RequestMemory String}

/-- The streams that `prepare` asks for. -/
theorem mem_managed {req : PluginManagerLifecycleRequest} {claims : PluginAuthClaims}
    {subject : String} (hid : claims.inceptionId = req.inceptionId)
    (hmode : (securedConfigFromClaims claims req).2.mode.isCore = false)
    (hsubject : subject ∈
      managedSubjects (parseRoles req.roles) (securedConfigFromClaims claims req).2) :
    streamName subject ∈ names.derivedFor req ++ names.suppliedFor req := by
  unfold securedConfigFromClaims at hmode hsubject
  rw [hid] at hmode hsubject
  simp only [names, ManagedNames.derivedFor, ManagedNames.suppliedFor, derivedStreams,
    suppliedStreams, streamsConfig]
  cases hread : Config.decode (rewriteTempSubjects req.inceptionId req.config) with
  | none =>
    -- the default configuration has no subjects
    simp only [hread, Option.getD_none, managedSubjects, List.mem_flatMap] at hsubject
    obtain ⟨role, -, hrole⟩ := hsubject
    cases role <;> simp [Config.baseSubject, Config.tempSubjects, Config.empty] at hrole
  | some config =>
    simp only [hread, Option.getD_some] at hmode hsubject
    simp only [managedSubjects, List.mem_flatMap, List.mem_append, Option.mem_toList] at hsubject
    obtain ⟨role, hrole, hsubject⟩ := hsubject
    simp only [Option.filter_some, hmode, Bool.not_false, if_true, Option.toList_some,
      List.flatMap_cons, List.flatMap_nil, List.append_nil, List.mem_append, List.mem_map,
      List.mem_filterMap]
    rcases hsubject with hbase | htemp
    · exact .inr ⟨subject, ⟨role, hrole, hbase⟩, rfl⟩
    · exact .inl ⟨subject, List.mem_flatMap.mpr ⟨role, hrole, htemp⟩, rfl⟩

theorem works_connect (url : String) : (connect url).Calls ((manager state).Works names request) :=
  ⟨⟨nofun, fun _ => rfl⟩, fun a => by cases a <;> trivial⟩

theorem works_reconcileStreams {roles : List PluginRole} {config : Config} {create : Bool}
    (h : create = true → config.mode.isCore = false → ∀ subject ∈ managedSubjects roles config,
      streamName subject ∈ names.managed request) :
    (reconcileStreams state roles config create).Calls ((manager state).Works names request) := by
  unfold reconcileStreams
  split
  · trivial
  · rename_i hmode
    refine (works_connect _).bind fun _ => ?_
    split
    · rename_i hcreate
      refine .forEach fun subject hsubject => ⟨⟨fun n hn => ?_, fun _ => rfl⟩, fun a => ?_⟩
      · cases hn
        exact h hcreate (by simpa using hmode) subject hsubject
      · cases a <;> trivial
    · exact .forEach fun subject _ => ⟨⟨nofun, fun _ => rfl⟩, fun _ => trivial⟩

theorem follows_garbageCollect (hx : x.request = request ∧ x.listed = none) :
    (manager state).Follows names (fun _ _ => True)
      (garbageCollectTempStreams state request.inventory) x := by
  refine Manager.Follows.bind (Manager.Follows.works (works_connect _) hx) fun _ x₁ hx₁ => ?_
  refine Manager.Follows.bind (R := fun streams => Manager.Sweeping request streams)
    (Manager.Follows.list ⟨rfl, rfl⟩ hx₁.1 fun a x₂ _ hlisted => ?_) fun streams x₂ hx₂ => ?_
  · cases a with
    | ok streams => exact hlisted streams rfl
    | error u => trivial
  · refine (Manager.Follows.sweeping (.forEach fun stream hstream => ?_) hx₂).mono
      (fun _ _ _ => trivial) fun _ _ _ => trivial
    split
    · rename_i hswept
      refine ⟨⟨⟨nofun, fun _ => rfl⟩, fun n hn => ?_⟩, fun _ => trivial⟩
      cases hn
      exact ⟨hstream, hswept.1, hswept.2⟩
    · trivial

theorem lawful (state : ManagerState) : (manager state).Lawful names where
  removes streams c o n hn hgone := by
    cases c with
    | getOrCreateStream settings =>
      refine absurd (CallOutcome.mem_answer (f := id) hn ?_) hgone
      show n ∈ if settings.name ∈ streams then streams else streams ++ [settings.name]
      split
      · exact hn
      · exact List.mem_append_left _ hn
    | deleteStream name =>
      by_cases hname : n = name
      · rw [hname]
        rfl
      · refine absurd (CallOutcome.mem_answer (f := id) hn ?_) hgone
        exact List.mem_filter.mpr ⟨hn, by simpa using hname⟩
    | connect url => exact absurd (CallOutcome.mem_answer (f := id) hn hn) hgone
    | streamNames => exact absurd (CallOutcome.mem_answer (f := id) hn hn) hgone
  protects inventory id n hlisted := by
    obtain ⟨e, he, rfl, hn⟩ := hlisted
    show n ∈ activeStreamNames inventory
    rw [activeStreamNames_eq]
    exact List.mem_flatMap.mpr ⟨e, he, hn⟩
  handles x hx := by
    cases hrequest : x.request with
    | lifecycle kind header req =>
      have hinventory : req.activeInceptions = x.request.inventory := by rw [hrequest]; rfl
      cases kind with
      | prepare =>
        refine Manager.Follows.bind (R := fun _ _ => True) ?_ fun _ _ _ => trivial
        refine Manager.Follows.ofExcept_bind fun claims _ => ?_
        refine Manager.Follows.ofExcept_bind fun _ hmatch => ?_
        refine Manager.Follows.ofExcept_bind fun _ _ => ?_
        have hworks : (reconcileStreams state (parseRoles req.roles)
            (securedConfigFromClaims claims req).2 true).Calls
              ((manager state).Works names x.request) := by
          refine works_reconcileStreams fun _ hmode subject hsubject => ?_
          rw [hrequest]
          exact mem_managed (inceptionId_of_matching hmatch) hmode hsubject
        refine Manager.Follows.bind (Manager.Follows.works hworks ⟨rfl, hx⟩) fun _ x₁ hx₁ => ?_
        rw [hinventory]
        exact (follows_garbageCollect hx₁).bind fun _ _ _ => trivial
      | cleanup =>
        refine Manager.Follows.ofExcept_bind fun claims _ => ?_
        refine Manager.Follows.ofExcept_bind fun _ _ => ?_
        have hworks : (reconcileStreams state (parseRoles req.roles)
            (securedConfigFromClaims claims req).2 false).Calls
              ((manager state).Works names x.request) :=
          works_reconcileStreams fun hcreate => by cases hcreate
        refine Manager.Follows.bind (Manager.Follows.works hworks ⟨rfl, hx⟩) fun _ x₁ hx₁ => ?_
        rw [hinventory]
        exact follows_garbageCollect hx₁
    | sync header req =>
      have hinventory : req.activeInceptions = x.request.inventory := by rw [hrequest]; rfl
      refine Manager.Follows.ofExcept_bind fun claims _ => ?_
      refine Manager.Follows.ofExcept_bind fun _ _ => ?_
      rw [hinventory]
      exact follows_garbageCollect ⟨rfl, hx⟩

end Handlers

end Nats

/-! ## The queue plugins -/

section Queues

variable {D : Type} (decl : Serde.Decoder D) (default : D)

/-- The temporary queues of an inception and their shadows. -/
def derivedQueues (id : InceptionId) (roles : List String) (config : Json) : List String :=
  let config := QueueConfig.decodeOrDefault decl default (rewriteQueueTempNames id config)
  withShadows config (managedTempQueueNames (parseRoles roles) config)

/-- The shadows of its base queues. -/
def suppliedQueues (id : InceptionId) (roles : List String) (config : Json) : List String :=
  let config := QueueConfig.decodeOrDefault decl default (rewriteQueueTempNames id config)
  (baseShadowQueueNames (parseRoles roles) config).filterMap (shadowQueueName config)

variable {decl default}

theorem mem_activeQueueNames {inventory : List ActiveInception} {e : ActiveInception}
    {queue : String} (he : e ∈ inventory)
    (hqueue : queue ∈ derivedQueues decl default e.inceptionId e.roles e.config) :
    queue ∈ activeQueueNames decl default inventory :=
  List.mem_flatMap.mpr ⟨e, he, hqueue⟩

/-- The queues that `prepare` asks for, where the claims are those of the request. -/
theorem mem_derivedQueues {req : PluginManagerLifecycleRequest} {claims : PluginAuthClaims}
    {queue : String} (hid : claims.inceptionId = req.inceptionId)
    (hqueue : queue ∈ managedTempQueueNames (parseRoles req.roles)
      (securedConfigFromClaims decl default claims req).2) :
    queue ∈ derivedQueues decl default req.inceptionId req.roles req.config ∧
      ∀ shadow, shadowQueueName (securedConfigFromClaims decl default claims req).2 queue =
        some shadow → shadow ∈ derivedQueues decl default req.inceptionId req.roles req.config := by
  unfold securedConfigFromClaims at hqueue ⊢
  rw [hid] at hqueue ⊢
  exact ⟨List.mem_append_left _ hqueue, fun shadow hshadow =>
    List.mem_append_right _ (List.mem_filterMap.mpr ⟨queue, hqueue, hshadow⟩)⟩

theorem mem_suppliedQueues {req : PluginManagerLifecycleRequest} {claims : PluginAuthClaims}
    {queue shadow : String} (hid : claims.inceptionId = req.inceptionId)
    (hqueue : queue ∈ baseShadowQueueNames (parseRoles req.roles)
      (securedConfigFromClaims decl default claims req).2)
    (hshadow : shadowQueueName (securedConfigFromClaims decl default claims req).2 queue =
      some shadow) : shadow ∈ suppliedQueues decl default req.inceptionId req.roles req.config := by
  unfold securedConfigFromClaims at hqueue hshadow
  rw [hid] at hqueue hshadow
  exact List.mem_filterMap.mpr ⟨queue, hqueue, hshadow⟩

end Queues

/-! ## RabbitMQ -/

namespace Rabbitmq

def names : ManagedNames BrokerObject where
  temporary
    | .user name => "fbg-rmq-".toList.isPrefixOf name.toList
    | .queue name => "fluidbg-".toList.isPrefixOf name.toList
  active inventory := (inventory.map scopedUsernameFromActive).map .user ++
    (activeQueueNames inventory).map .queue
  derived id roles config := .user (scopedUsernameParts id) ::
    (derivedQueues QueueDeclarationConfig.decode .empty id roles config).map .queue
  supplied id roles config :=
    (suppliedQueues QueueDeclarationConfig.decode .empty id roles config).map .queue

section Handlers

variable {lib : ManagerCrates} {state : ManagerState} {request : ManagerRequest}
  {x : RequestMemory BrokerObject}

theorem works_openChannel (amqpUrl : String) :
    (openChannel amqpUrl).Calls ((manager lib state).Works names request) :=
  (calls_ask (Prog.Calls.of_ask.mpr ⟨nofun, fun _ => rfl⟩)).bind fun _ =>
    calls_ask (Prog.Calls.of_ask.mpr ⟨nofun, fun _ => rfl⟩)

theorem works_declareQueue {queue : String} (declaration : QueueDeclarationConfig)
    (h : .queue queue ∈ names.managed request) :
    (declareQueue queue declaration).Calls ((manager lib state).Works names request) := by
  unfold declareQueue
  split
  · refine calls_ask (Prog.Calls.of_ask.mpr ⟨fun n hn => ?_, fun _ => rfl⟩)
    cases hn
    exact h
  · trivial

theorem works_deleteQueue (queue : String) :
    (deleteQueue queue).Calls ((manager lib state).Works names request) :=
  ⟨⟨nofun, fun _ => rfl⟩, fun _ => trivial⟩

theorem works_createTempQueue {config : Config} {queue : String}
    (h : .queue queue ∈ names.managed request)
    (hshadow : ∀ shadow, shadowQueueName config queue = some shadow →
      .queue shadow ∈ names.managed request) :
    (createTempQueue config queue).Calls ((manager lib state).Works names request) := by
  unfold createTempQueue
  split
  · rename_i shadow hname
    exact (works_declareQueue _ (hshadow shadow hname)).bind fun _ => works_declareQueue _ h
  · exact works_declareQueue _ h

theorem works_deleteTempQueue (config : Config) (queue : String) :
    (deleteTempQueue config queue).Calls ((manager lib state).Works names request) := by
  refine (works_deleteQueue _).bind fun _ => ?_
  split
  · exact works_deleteQueue _
  · trivial

theorem works_createBaseShadows {roles : List PluginRole} {config : Config}
    (h : ∀ queue ∈ baseShadowQueueNames roles config, ∀ shadow,
      shadowQueueName config queue = some shadow → .queue shadow ∈ names.managed request) :
    (createBaseShadows roles config).Calls ((manager lib state).Works names request) := by
  unfold createBaseShadows
  split
  · trivial
  · refine .forEach fun queue hqueue => ?_
    split
    · rename_i shadow hname
      exact works_declareQueue _ (h queue hqueue shadow hname)
    · trivial

/-- What `prepare` declares is the request's. -/
theorem works_create {req : PluginManagerLifecycleRequest} {claims : PluginAuthClaims}
    (hrequest : names.managed request = names.derivedFor req ++ names.suppliedFor req)
    (hid : claims.inceptionId = req.inceptionId) :
    (reconcileQueues state req.roles (securedConfigFromClaims claims req).2 true).Calls
      ((manager lib state).Works names request) := by
  refine (works_openChannel _).bind fun _ => ?_
  refine (works_createBaseShadows fun queue hqueue shadow hshadow => ?_).bind fun _ =>
    .forEach fun queue hqueue => works_createTempQueue ?_ fun shadow hshadow => ?_
  · rw [hrequest]
    exact List.mem_append_right _
      (List.mem_map_of_mem (mem_suppliedQueues hid hqueue hshadow))
  · rw [hrequest]
    exact List.mem_append_left _
      (List.mem_cons_of_mem _ (List.mem_map_of_mem (mem_derivedQueues hid hqueue).1))
  · rw [hrequest]
    exact List.mem_append_left _
      (List.mem_cons_of_mem _ (List.mem_map_of_mem ((mem_derivedQueues hid hqueue).2 _ hshadow)))

theorem works_delete (roles : List String) (config : Config) :
    (reconcileQueues state roles config false).Calls ((manager lib state).Works names request) :=
  (works_openChannel _).bind fun _ => .forEach fun queue _ => works_deleteTempQueue config queue

theorem works_prepareScopedInceptorEnv {req : PluginManagerLifecycleRequest}
    {claims : PluginAuthClaims} (roles : List String) (config : Config)
    (hrequest : names.managed request = names.derivedFor req ++ names.suppliedFor req)
    (hid : claims.inceptionId = req.inceptionId) :
    (prepareScopedInceptorEnv lib state claims roles config).Calls
      ((manager lib state).Works names request) := by
  refine (Prog.Calls.of_ofExcept _).bind fun _ => (Prog.Calls.of_ofExcept _).bind fun _ => ?_
  refine Prog.Calls.bind (Prog.Calls.bind ?_ fun _ => ?_) fun _ => trivial
  · refine calls_ask (Prog.Calls.of_ask.mpr ⟨fun n hn => ?_, fun _ => rfl⟩)
    cases hn
    rw [hrequest]
    refine List.mem_append_left _ ?_
    show BrokerObject.user (scopedUsernameParts claims.inceptionId) ∈ _
    rw [hid]
    exact List.mem_cons_self
  · exact calls_ask (Prog.Calls.of_ask.mpr ⟨nofun, fun _ => rfl⟩)

theorem works_cleanupScopedInceptorIdentity (claims : PluginAuthClaims) :
    (cleanupScopedInceptorIdentity lib state claims).Calls
      ((manager lib state).Works names request) :=
  (Prog.Calls.of_ofExcept _).bind fun _ =>
    calls_ask (Prog.Calls.of_ask.mpr ⟨nofun, fun _ => rfl⟩)

/-- The sweep over the users, with which every handler ends or goes on. -/
theorem follows_garbageCollectScopedIdentities (hx : x.request = request) :
    (manager lib state).Follows names (fun _ => Manager.Sweeping request [])
      (garbageCollectScopedIdentities lib state request.inventory) x := by
  refine Manager.Follows.ofExcept_bind fun _ _ => ?_
  refine Manager.Follows.bind
    (R := fun users => Manager.Sweeping request (users.map BrokerObject.user))
    (Manager.Follows.list ⟨rfl, rfl⟩ hx fun a x₁ _ hlisted => ?_) fun users x₁ hx₁ => ?_
  · cases a with
    | ok users => exact hlisted _ rfl
    | error u => trivial
  · refine (Manager.Follows.sweeping (.forEach fun user huser => ?_) hx₁).mono
      (fun _ _ h => h.none) fun _ _ h => h
    split
    · rename_i hswept
      refine calls_ask (Prog.Calls.of_ask.mpr ⟨⟨nofun, fun _ => rfl⟩, fun n hn => ?_⟩)
      cases hn
      refine ⟨List.mem_map_of_mem huser, hswept.1, ?_⟩
      simpa [names] using hswept.2
    · trivial

theorem follows_garbageCollectTempQueues (hx : x.request = request) :
    (manager lib state).Follows names (fun _ _ => True)
      (garbageCollectTempQueues lib state request.inventory) x := by
  refine Manager.Follows.ofExcept_bind fun _ _ => ?_
  refine Manager.Follows.bind
    (R := fun queues => Manager.Sweeping request (queues.map BrokerObject.queue))
    (Manager.Follows.list ⟨rfl, rfl⟩ hx fun a x₁ _ hlisted => ?_) fun queues x₁ hx₁ => ?_
  · cases a with
    | ok queues => exact hlisted _ rfl
    | error u => trivial
  · refine (Manager.Follows.sweeping (Prog.Calls.bind ?_ fun _ => .forEach fun queue hqueue => ?_)
      hx₁).mono (fun _ _ _ => trivial) fun _ _ _ => trivial
    · exact (calls_ask (Prog.Calls.of_ask.mpr ⟨⟨nofun, fun _ => rfl⟩, nofun⟩)).bind fun _ =>
        calls_ask (Prog.Calls.of_ask.mpr ⟨⟨nofun, fun _ => rfl⟩, nofun⟩)
    · split
      · rename_i hswept
        refine ⟨⟨⟨nofun, fun _ => rfl⟩, fun n hn => ?_⟩, fun _ => trivial⟩
        cases hn
        refine ⟨List.mem_map_of_mem hqueue, hswept.1, ?_⟩
        simpa [names] using hswept.2
      · trivial

/-- What is there and is not deleted is there after a call. -/
theorem mem_objects_serve {w : BrokerWorld} {c : BrokerCall} {o : CallOutcome} {n : BrokerObject}
    (hn : n ∈ (manager lib state).objects w) (hdeletes : (manager lib state).deletes c ≠ some n) :
    n ∈ (manager lib state).objects (w.serve c o).2 := by
  have hstays := @CallOutcome.mem_answer Unit _ _ (manager lib state).objects o () w
  cases c with
  | connect url => exact hstays hn hn
  | createChannel => exact hstays hn hn
  | putPermissions username queueNames => exact hstays hn hn
  | listUsers => exact CallOutcome.mem_answer (f := (manager lib state).objects) hn hn
  | listQueues => exact CallOutcome.mem_answer (f := (manager lib state).objects) hn hn
  | putUser username password =>
    refine hstays hn ?_
    simp only [manager, BrokerWorld.putUser] at hn ⊢
    split
    · exact hn
    · simp only [List.map_append, List.mem_append] at hn ⊢
      exact hn.imp_left .inl
  | queueDeclare queue declaration =>
    refine hstays hn ?_
    simp only [manager, BrokerWorld.queueDeclare] at hn ⊢
    split
    · exact hn
    · simp only [List.map_append, List.mem_append] at hn ⊢
      exact hn.imp_right .inl
  | deleteUser username =>
    refine hstays hn ?_
    have hne : n ≠ .user username := fun h => hdeletes (by rw [h]; rfl)
    simp only [manager, BrokerWorld.deleteUser, List.mem_append, List.mem_map] at hn ⊢
    refine hn.imp_left ?_
    rintro ⟨user, huser, rfl⟩
    exact ⟨user, List.mem_filter.mpr ⟨huser, by simpa using hne⟩, rfl⟩
  | queueDelete queue =>
    refine hstays hn ?_
    have hne : n ≠ .queue queue := fun h => hdeletes (by rw [h]; rfl)
    simp only [manager, BrokerWorld.queueDelete, List.mem_append, List.mem_map] at hn ⊢
    refine hn.imp_right ?_
    rintro ⟨name, hname, rfl⟩
    exact ⟨name, List.mem_filter.mpr ⟨hname, by simpa using hne⟩, rfl⟩

theorem lawful (lib : ManagerCrates) (state : ManagerState) :
    (manager lib state).Lawful names where
  removes w c o n hn hgone :=
    Decidable.byContradiction fun hdeletes => hgone (mem_objects_serve hn hdeletes)
  protects inventory id n hlisted := by
    obtain ⟨e, he, rfl, hn⟩ := hlisted
    rcases List.mem_cons.mp hn with rfl | hn
    · exact List.mem_append_left _ (List.mem_map_of_mem (List.mem_map_of_mem he))
    · obtain ⟨queue, hqueue, rfl⟩ := List.mem_map.mp hn
      exact List.mem_append_right _ (List.mem_map_of_mem (mem_activeQueueNames he hqueue))
  handles x hx := by
    cases hrequest : x.request with
    | lifecycle kind header req =>
      have hinventory : req.activeInceptions = x.request.inventory := by rw [hrequest]; rfl
      have hmanaged : names.managed x.request = names.derivedFor req ++ names.suppliedFor req := by
        rw [hrequest]
        rfl
      cases kind with
      | prepare =>
        refine Manager.Follows.bind (R := fun _ _ => True) ?_ fun _ _ _ => trivial
        refine Manager.Follows.ofExcept_bind fun claims _ => ?_
        refine Manager.Follows.ofExcept_bind fun _ hmatch => ?_
        refine Manager.Follows.ofExcept_bind fun _ _ => ?_
        have hid := inceptionId_of_matching hmatch
        refine Manager.Follows.bind (Manager.Follows.works (works_create hmanaged hid) ⟨rfl, hx⟩)
          fun _ x₁ hx₁ => ?_
        refine Manager.Follows.bind (Manager.Follows.works
          (works_prepareScopedInceptorEnv _ _ hmanaged hid) hx₁) fun _ x₂ hx₂ => ?_
        rw [hinventory]
        exact (follows_garbageCollectScopedIdentities hx₂.1).bind fun _ _ _ => trivial
      | cleanup =>
        refine Manager.Follows.ofExcept_bind fun claims _ => ?_
        refine Manager.Follows.ofExcept_bind fun _ _ => ?_
        refine Manager.Follows.bind (Manager.Follows.works (works_delete _ _) ⟨rfl, hx⟩)
          fun _ x₁ hx₁ => ?_
        refine Manager.Follows.bind (Manager.Follows.works
          (works_cleanupScopedInceptorIdentity _) hx₁) fun _ x₂ hx₂ => ?_
        rw [hinventory]
        exact (follows_garbageCollectScopedIdentities hx₂.1).mono
          (fun _ _ _ => trivial) fun _ _ _ => trivial
    | sync header req =>
      have hinventory : req.activeInceptions = x.request.inventory := by rw [hrequest]; rfl
      refine Manager.Follows.ofExcept_bind fun claims _ => ?_
      refine Manager.Follows.ofExcept_bind fun _ _ => ?_
      refine Manager.Follows.bind (R := fun _ => Manager.Sweeping x.request []) ?_
        fun _ x₁ hx₁ => ?_
      · rw [hinventory]
        exact follows_garbageCollectScopedIdentities rfl
      · rw [hinventory]
        exact follows_garbageCollectTempQueues hx₁.request

end Handlers

end Rabbitmq

/-! ## Azure Service Bus -/

namespace ServiceBus

def names : ManagedNames String where
  temporary queue := "fluidbg-".toList.isPrefixOf queue.toList
  active := activeQueueNames
  derived := derivedQueues QueueDeclarationConfig.decode .empty
  supplied := suppliedQueues QueueDeclarationConfig.decode .empty

section Handlers

variable {state : ManagerState} {client : ServiceBusClient} {request : ManagerRequest}
  {x : RequestMemory String}

theorem works_createQueue {queue : String} (declaration : QueueDeclarationConfig)
    (h : queue ∈ names.managed request) :
    (createQueue client queue declaration).Calls ((manager state).Works names request) := by
  unfold createQueue
  split
  · trivial
  · refine Prog.Calls.bind (Prog.Calls.of_ask.mpr ⟨fun n hn => ?_, fun _ => rfl⟩) fun r => ?_
    · cases hn
      exact h
    · cases r <;> trivial

theorem works_createTempQueue {config : Config} {queue : String}
    (h : queue ∈ names.managed request)
    (hshadow : ∀ shadow, shadowQueueName config queue = some shadow →
      shadow ∈ names.managed request) :
    (createTempQueue client config queue).Calls ((manager state).Works names request) := by
  unfold createTempQueue
  split
  · rename_i shadow hname
    exact (works_createQueue _ (hshadow shadow hname)).bind fun _ => works_createQueue _ h
  · exact works_createQueue _ h

theorem works_createBaseShadows {roles : List PluginRole} {config : Config}
    (h : ∀ queue ∈ baseShadowQueueNames roles config, ∀ shadow,
      shadowQueueName config queue = some shadow → shadow ∈ names.managed request) :
    (createBaseShadows client roles config).Calls ((manager state).Works names request) := by
  unfold createBaseShadows
  split
  · trivial
  · refine .forEach fun queue hqueue => ?_
    split
    · rename_i shadow hname
      exact works_createQueue _ (h queue hqueue shadow hname)
    · trivial

/-- What `prepare` declares is the request's. -/
theorem works_create {req : PluginManagerLifecycleRequest} {claims : PluginAuthClaims}
    (hrequest : names.managed request = names.derivedFor req ++ names.suppliedFor req)
    (hid : claims.inceptionId = req.inceptionId) :
    (reconcileQueues state req.roles (securedConfigFromClaims claims req).2 true).Calls
      ((manager state).Works names request) := by
  refine (Prog.Calls.of_ofExcept _).bind fun _ => ?_
  refine (works_createBaseShadows fun queue hqueue shadow hshadow => ?_).bind fun _ =>
    .forEach fun queue hqueue => works_createTempQueue ?_ fun shadow hshadow => ?_
  · rw [hrequest]
    exact List.mem_append_right _ (mem_suppliedQueues hid hqueue hshadow)
  · rw [hrequest]
    exact List.mem_append_left _ (mem_derivedQueues hid hqueue).1
  · rw [hrequest]
    exact List.mem_append_left _ ((mem_derivedQueues hid hqueue).2 _ hshadow)

theorem works_deleteQueue (queue : String) :
    (deleteQueue client queue).Calls ((manager state).Works names request) := by
  unfold deleteQueue
  split
  · trivial
  · refine Prog.Calls.bind (Prog.Calls.of_ask.mpr ⟨nofun, fun _ => rfl⟩) fun r => ?_
    cases r <;> trivial

theorem works_delete (roles : List String) (config : Config) :
    (reconcileQueues state roles config false).Calls ((manager state).Works names request) := by
  refine (Prog.Calls.of_ofExcept _).bind fun client => .forEach fun queue _ => ?_
  refine (works_deleteQueue _).bind fun _ => ?_
  split
  · exact works_deleteQueue _
  · trivial

theorem follows_garbageCollectTempQueues (hx : x.request = request) :
    (manager state).Follows names (fun _ _ => True)
      (garbageCollectTempQueues state request.inventory) x := by
  refine Manager.Follows.ofExcept_bind fun client _ => ?_
  refine Manager.Follows.bind (R := fun queues => Manager.Sweeping request queues)
    (Manager.Follows.list ⟨rfl, rfl⟩ hx fun a x₁ _ hlisted => ?_) fun queues x₁ hx₁ => ?_
  · cases a with
    | ok queues => exact hlisted _ rfl
    | error u => trivial
  · refine (Manager.Follows.sweeping (.forEach fun queue hqueue => ?_) hx₁).mono
      (fun _ _ _ => trivial) fun _ _ _ => trivial
    split
    · rename_i hswept
      unfold deleteQueue
      split
      · trivial
      · refine Prog.Calls.bind (Prog.Calls.of_ask.mpr ⟨⟨nofun, fun _ => rfl⟩, fun n hn => ?_⟩)
          fun r => ?_
        · cases hn
          exact ⟨hqueue, hswept.1, hswept.2⟩
        · cases r <;> trivial
    · trivial

theorem lawful (state : ManagerState) : (manager state).Lawful names where
  removes queues c o n hn hgone := by
    cases c with
    | putQueue queue declaration =>
      refine absurd (CallOutcome.mem_answer (f := id) hn ?_) hgone
      show n ∈ if queue ∈ queues then queues else queues ++ [queue]
      split
      · exact hn
      · exact List.mem_append_left _ hn
    | deleteQueue queue =>
      by_cases hqueue : n = queue
      · rw [hqueue]
        rfl
      · refine absurd (CallOutcome.mem_answer (f := id) hn ?_) hgone
        exact List.mem_filter.mpr ⟨hn, by simpa using hqueue⟩
    | listQueues => exact absurd (CallOutcome.mem_answer (f := id) hn hn) hgone
  protects inventory id n hlisted := by
    obtain ⟨e, he, rfl, hn⟩ := hlisted
    exact mem_activeQueueNames he hn
  handles x hx := by
    cases hrequest : x.request with
    | lifecycle kind header req =>
      have hmanaged : names.managed x.request = names.derivedFor req ++ names.suppliedFor req := by
        rw [hrequest]
        rfl
      -- the handlers of an inception do not sweep
      cases kind with
      | prepare =>
        refine Manager.Follows.bind (R := fun _ _ => True) ?_ fun _ _ _ => trivial
        refine Manager.Follows.ofExcept_bind fun claims _ => ?_
        refine Manager.Follows.ofExcept_bind fun _ hmatch => ?_
        refine Manager.Follows.ofExcept_bind fun _ _ => ?_
        exact Manager.Follows.bind (Manager.Follows.works
          (works_create hmanaged (inceptionId_of_matching hmatch)) ⟨rfl, hx⟩)
          fun _ _ _ => trivial
      | cleanup =>
        refine Manager.Follows.ofExcept_bind fun claims _ => ?_
        refine Manager.Follows.ofExcept_bind fun _ _ => ?_
        exact (Manager.Follows.works (works_delete _ _) ⟨rfl, hx⟩).mono
          (fun _ _ _ => trivial) fun _ _ _ => trivial
    | sync header req =>
      have hinventory : req.activeInceptions = x.request.inventory := by rw [hrequest]; rfl
      refine Manager.Follows.ofExcept_bind fun claims _ => ?_
      refine Manager.Follows.ofExcept_bind fun _ _ => ?_
      rw [hinventory]
      exact follows_garbageCollectTempQueues rfl

end Handlers

end ServiceBus

/-! ## No sweep races a prepare -/

/-- **The managers spare the living**: whatever requests are under way side by side, and whatever
becomes of the `BlueGreenDeployment`s, nothing that `prepare` has created for an inception that is
alive is deleted by a sweep, as long as the inventory accounts for what the sweep has listed. -/
theorem managers_spare_living (nats : Nats.ManagerState) (lib : Rabbitmq.ManagerCrates)
    (rabbitmq : Rabbitmq.ManagerState) (bus : ServiceBus.ManagerState) :
    (Nats.manager nats).Spares Nats.names ∧
      (Rabbitmq.manager lib rabbitmq).Spares Rabbitmq.names ∧
      (ServiceBus.manager bus).Spares ServiceBus.names :=
  ⟨(Nats.lawful nats).spares, (Rabbitmq.lawful lib rabbitmq).spares,
    (ServiceBus.lawful bus).spares⟩

namespace Sample

/-- The libraries, with the tokens of two inceptions. -/
def twoTokenCrates : Crates :=
  { managerCrates with
    verifyToken := fun token _ =>
      if token = "orders" then .ok ordersClaims
      else if token = "incoming" then .ok otherClaims
      else .error "JWT signature mismatch" }

def natsState : Nats.ManagerState where
  crates := twoTokenCrates
  signingKey := "signing-key"
  natsUrl := "nats://broker"
  inceptorUrl := "nats://broker"

/-- A duplicator of the subject `orders`. -/
def duplicator : Json :=
  .obj [("duplicator", .obj [("inputSubject", .str "orders"),
    ("greenInputSubject", .str ""), ("blueInputSubject", .str "")])]

/-- The object that the claims speak of, in the middle of its rollout. -/
def claimedBgd (claims : PluginAuthClaims) : BlueGreenDeployment where
  metadata := ⟨claims.blueGreenRef, claims.ns, claims.blueGreenUid, some 1, 1, none, []⟩
  spec := { spec with inceptionPoints :=
    [{ orders with name := claims.inceptionPoint, pluginRef := ⟨"queues"⟩, config := duplicator }] }
  status := some (status .observing)

/-- A `prepare` for the inception of the claims. -/
def prepare (claims : PluginAuthClaims) : ManagerRequest :=
  .lifecycle .prepare (some ("Bearer " ++ claims.inceptionPoint)) {
    ns := claims.ns
    blueGreenRef := claims.blueGreenRef
    blueGreenUid := claims.blueGreenUid
    inceptionPoint := claims.inceptionPoint
    plugin := claims.plugin
    roles := ["duplicator"]
    config := duplicator
    activeInceptions := [] }

abbrev ManagerEvent := Pool.Event ManagerRequest RequestOutcome (ManagedMove (List String))

/-- So many answers to the first request, or to the second one. -/
def answers (i n : Nat) : List ManagerEvent := List.replicate n (.answer i ⟨none, .ok⟩)

/-- Two requests for the same inception, the second of which finds a stream that nobody owns. -/
def leftoverRun : List ManagerEvent :=
  [.start (prepare ordersClaims)] ++ answers 0 8 ++
    [.move (.setServer ["fbg_fluidbg-leftover", "fbg_orders",
        Nats.streamName (ordersClaims.inceptionId.tempName "duplicator" "green-input" none)]),
      .start (prepare ordersClaims)] ++ answers 1 9

/-- The second inception comes into being after the first request has its inventory. -/
def raceRun : List ManagerEvent :=
  [.start (prepare ordersClaims)] ++ answers 0 1 ++
    [.move (.setBgds [claimedBgd ordersClaims, claimedBgd otherClaims]),
      .start (prepare otherClaims)] ++ answers 1 8 ++ answers 0 7

abbrev NatsPool : Type :=
  Pool (RequestCall Nats.StreamCall) (RequestAnswer Nats.StreamAnswer) StatusCode
    (RequestMemory String) (ManagedWorld (List String) String)

/-- Nobody's stream is gone, and the streams of two requests are there. -/
def Swept (s : NatsPool) : Prop :=
  "fbg_fluidbg-leftover" ∉ s.world.server ∧ s.world.prepared.length = 2 ∧
    ∀ p ∈ s.world.prepared, ∀ stream ∈ p.created, stream ∈ s.world.server

instance (s : NatsPool) : Decidable (Swept s) := inferInstanceAs (Decidable (_ ∧ _ ∧ _))

/-- The pool before any request. -/
def idlePool : NatsPool :=
  ⟨⟨[claimedBgd ordersClaims], [], [], [], []⟩, []⟩

/-- Where the two requests for one inception end. -/
def leftoverEnd : {s : NatsPool // Pool.run ((Nats.manager natsState).accounted Nats.names)
    (Nats.manager natsState).requests (Nats.manager natsState).thread idlePool leftoverRun =
      some s ∧ Swept s} :=
  evaluated _ Swept (by decide +kernel)

/-- The inception that came last has lost its stream. -/
def NewcomerLost (s : NatsPool) : Prop :=
  s.world.lost = [Nats.streamName (otherClaims.inceptionId.tempName "duplicator" "green-input" none)]

instance (s : NatsPool) : Decidable (NewcomerLost s) := inferInstanceAs (Decidable (_ = _))

/-- Where the two requests for different inceptions end. -/
def raceEnd : {s : NatsPool // Pool.run Watch.top (Nats.manager natsState).requests
    (Nats.manager natsState).thread idlePool raceRun = some s ∧ NewcomerLost s} :=
  evaluated _ NewcomerLost (by decide +kernel)

end Sample

/-- A leftover stream is swept away, and the inception keeps its own. -/
theorem managers_spare_living_leftover :
    ∃ s : Sample.NatsPool, Sample.Swept s ∧ s.world.lost = [] := by
  obtain ⟨s, hrun, hswept⟩ := Sample.leftoverEnd
  exact ⟨s, hswept, (managers_spare_living Sample.natsState
    ⟨Sample.twoTokenCrates, fun _ => none, fun _ => ""⟩
    ⟨"", "", none, none, none, none, false, none, none, false⟩
    ⟨Sample.twoTokenCrates, "", none, fun _ _ => []⟩).1 _ _ s (.of_run .nil hrun)⟩

/-- An inception that is prepared while another request is on its way loses its stream to it. -/
theorem newcomer_swept :
    ¬ ∀ (nats : Nats.ManagerState) (bgds : List BlueGreenDeployment) (server : List String)
      (s : Sample.NatsPool),
      Pool.Run (Nats.manager nats).requests (Nats.manager nats).thread Watch.top
        ⟨⟨bgds, server, [], [], []⟩, []⟩ s → s.world.lost = [] := by
  intro hall
  obtain ⟨s, hrun, hlost⟩ := Sample.raceEnd
  have hnone := hall _ _ _ s (.of_run .nil hrun)
  rw [Sample.NewcomerLost, hnone] at hlost
  cases hlost

end FluidBG
