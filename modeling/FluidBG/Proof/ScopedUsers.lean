import FluidBG.Plugins.Rabbitmq
import FluidBG.Plugins.Sample
import FluidBG.Lib.Trace
/-!
# The users a RabbitMQ manager touches

A request to the manager names its sender by the claims of its token, and everything else in it is
the sender's to choose. The user of the claims is derived, so it cannot be steered. The sweep at the
end can: it removes every scoped user that the inventory of the request does not list. So a request
spares the users of others exactly when that inventory covers them.
-/

set_option autoImplicit false

namespace FluidBG.Rabbitmq

open Lib

/-! ## Requests -/

section Handlers

variable (lib : ManagerCrates) (state : ManagerState)

def handle (kind : LifecycleRequest) (header : Option String)
    (req : PluginManagerLifecycleRequest) : ManagerOp Unit :=
  match kind with
  | .prepare => (prepareHandler lib state header req).bind fun _ => .pure ()
  | .cleanup => cleanupHandler lib state header req

/-- The manager takes the request for one of the claims' own. -/
structure Accepts (header : Option String) (req : PluginManagerLifecycleRequest)
    (claims : PluginAuthClaims) : Prop where
  authorized : authorize lib state header = .ok claims
  matching : ensureRequestMatchesClaims req claims = .ok ()

/-- Every declaration `prepare` has to send can be sent. -/
def declarable (roles : List PluginRole) (config : Config) : Bool :=
  ((managedTempQueueNames roles config).isEmpty || queueArguments config.queueDeclaration &&
    config.shadowQueue.all fun shadow => queueArguments shadow.queueDeclaration) &&
  config.shadowQueue.all fun shadow =>
    (baseShadowQueueNames roles config).isEmpty || queueArguments shadow.queueDeclaration

/-- Nothing in the request or in the manager's settings keeps the request from its sweep. -/
def ReachesSweep (kind : LifecycleRequest) (claims : PluginAuthClaims)
    (req : PluginManagerLifecycleRequest) : Prop :=
  (managementClient lib state).isOk ∧ match kind with
    | .cleanup => True
    | .prepare => checkRoles (parseRoles req.roles) = .ok () ∧
        (scopedPassword lib state claims).isOk ∧
        declarable (parseRoles req.roles) (securedConfigFromClaims claims req).2

end Handlers

/-- Only the user of the claims is deleted or overwritten, and no other live inception loses its
user to that. -/
def sparing (claims : PluginAuthClaims) (live : List InceptionId) :
    Contract BrokerCall BrokerWorld where
  inv _ := True
  may _ c := match c with
    | .putUser user _ => user = scopedUsername claims
    | .putPermissions user _ => user = scopedUsername claims
    | .deleteUser user => user = scopedUsername claims ∧
        ∀ id ∈ live, scopedUsernameParts id = user → id = claims.inceptionId
    | _ => True

/-- The users that the sweep takes for leftovers. -/
def Swept (req : PluginManagerLifecycleRequest) (user : String) : Prop :=
  "fbg-rmq-".toList.isPrefixOf user.toList ∧
    user ∉ req.activeInceptions.map scopedUsernameFromActive

/-- The inventory lists the scoped users there are, but for the sender's own; and where the sender's
own is to be deleted, as `cleanup` does and a sweep that misses it, no other live inception has the
same. -/
structure InventoryCovers (kind : LifecycleRequest) (claims : PluginAuthClaims)
    (req : PluginManagerLifecycleRequest) (live : List InceptionId) (w : BrokerWorld) : Prop where
  others : ∀ user ∈ w.users, user ≠ scopedUsername claims → ¬ Swept req user
  own : (kind = .prepare →
      scopedUsername claims ∉ req.activeInceptions.map scopedUsernameFromActive) →
    ∀ id ∈ live, scopedUsernameParts id = scopedUsername claims → id = claims.inceptionId

theorem mem_putUser {w : BrokerWorld} {username user : String} :
    user ∈ (w.putUser username).users ↔ user ∈ w.users ∨ user = username := by
  unfold BrokerWorld.putUser
  split
  · rename_i hmem
    exact ⟨.inl, fun h => h.elim id fun h => h ▸ hmem⟩
  · simp

/-! ## What the parts of a handler call -/

/-- The call leaves the users alone. -/
def QueueCall : BrokerCall → Prop
  | .putUser _ _ => False
  | .putPermissions _ _ => False
  | .deleteUser _ => False
  | _ => True

section Parts

variable {lib : ManagerCrates} {state : ManagerState}

theorem calls_ask {α : Type} {F : BrokerCall → Prop} {p : ManagerOp (Except Unit α)}
    (h : p.Calls F) : (ManagerOp.ask p).Calls F := by
  refine h.bind fun r => ?_
  cases r <;> trivial

theorem calls_deleteQueue (queue : String) : (deleteQueue queue).Calls QueueCall :=
  ⟨trivial, fun _ => trivial⟩

theorem calls_declareQueue (queue : String) (declaration : QueueDeclarationConfig) :
    (declareQueue queue declaration).Calls QueueCall := by
  unfold declareQueue
  split
  · exact calls_ask ⟨trivial, fun _ => trivial⟩
  · trivial

theorem calls_createTempQueue (config : Config) (queue : String) :
    (createTempQueue config queue).Calls QueueCall := by
  unfold createTempQueue
  split
  · exact (calls_declareQueue _ _).bind fun _ => calls_declareQueue _ _
  · exact calls_declareQueue _ _

theorem calls_deleteTempQueue (config : Config) (queue : String) :
    (deleteTempQueue config queue).Calls QueueCall := by
  refine (calls_deleteQueue _).bind fun _ => ?_
  split
  · exact calls_deleteQueue _
  · trivial

theorem calls_createBaseShadows (roles : List PluginRole) (config : Config) :
    (createBaseShadows roles config).Calls QueueCall := by
  unfold createBaseShadows
  split
  · trivial
  · refine Prog.Calls.forEach fun queue _ => ?_
    split
    · exact calls_declareQueue _ _
    · trivial

theorem calls_openChannel (amqpUrl : String) : (openChannel amqpUrl).Calls QueueCall :=
  (calls_ask (Prog.Calls.of_ask.mpr trivial)).bind fun _ =>
    calls_ask (Prog.Calls.of_ask.mpr trivial)

theorem calls_reconcileQueues (roles : List String) (config : Config) (create : Bool) :
    (reconcileQueues state roles config create).Calls QueueCall := by
  refine (calls_openChannel _).bind fun _ => ?_
  split
  · exact (calls_createBaseShadows _ _).bind fun _ =>
      Prog.Calls.forEach fun queue _ => calls_createTempQueue config queue
  · exact Prog.Calls.forEach fun queue _ => calls_deleteTempQueue config queue

/-! ## What completes, and what cannot -/

theorem completes_openChannel (amqpUrl : String) :
    broker.Completes .ok (openChannel amqpUrl) :=
  fun w => ⟨(), w, rfl⟩

theorem completes_deleteQueue (queue : String) : broker.Completes .ok (deleteQueue queue) :=
  fun w => ⟨(), w.queueDelete queue, rfl⟩

theorem completes_deleteUser (username : String) : broker.Completes .ok (deleteUser username) :=
  fun w => ⟨(), w.deleteUser username, rfl⟩

theorem completes_declareQueue {queue : String} {declaration : QueueDeclarationConfig}
    (h : queueArguments declaration) :
    broker.Completes .ok (declareQueue queue declaration) := by
  intro w
  rw [declareQueue, if_pos h]
  exact ⟨(), w.queueDeclare queue, rfl⟩

theorem completes_createTempQueue {config : Config} {queue : String}
    (hqueue : queueArguments config.queueDeclaration)
    (hshadow : config.shadowQueue.all fun shadow => queueArguments shadow.queueDeclaration) :
    broker.Completes .ok (createTempQueue config queue) := by
  unfold createTempQueue
  cases hs : config.shadowQueue with
  | none =>
    simp only [shadowQueueName, hs, Option.map_none]
    exact completes_declareQueue hqueue
  | some shadow =>
    have hargs : queueArguments shadow.queueDeclaration := by simpa [hs] using hshadow
    simp only [shadowQueueName, hs, Option.map_some, Option.getD_some]
    exact (completes_declareQueue hargs).bind fun _ => completes_declareQueue hqueue

theorem completes_deleteTempQueue (config : Config) (queue : String) :
    broker.Completes .ok (deleteTempQueue config queue) := by
  refine (completes_deleteQueue queue).bind fun _ => ?_
  split
  · exact completes_deleteQueue _
  · exact .pure ()

theorem completes_createBaseShadows {roles : List PluginRole} {config : Config}
    (h : config.shadowQueue.all fun shadow =>
      (baseShadowQueueNames roles config).isEmpty || queueArguments shadow.queueDeclaration) :
    broker.Completes .ok (createBaseShadows roles config) := by
  unfold createBaseShadows
  cases hs : config.shadowQueue with
  | none => exact .pure ()
  | some shadow =>
    refine .forEach fun queue hqueue => ?_
    have hargs : queueArguments shadow.queueDeclaration := by
      rw [hs, Option.all_some, Bool.or_eq_true] at h
      exact h.resolve_left fun hempty => by
        rw [List.isEmpty_iff.mp hempty] at hqueue
        simp at hqueue
    simp only [shadowQueueName, hs, Option.map_some]
    exact completes_declareQueue hargs

theorem completes_reconcileQueues_delete (state : ManagerState) (roles : List String)
    (config : Config) :
    broker.Completes .ok (reconcileQueues state roles config false) :=
  (completes_openChannel _).bind fun _ =>
    .forEach fun queue _ => completes_deleteTempQueue config queue

theorem completes_reconcileQueues_create (state : ManagerState) {roles : List String}
    {config : Config} (h : declarable (parseRoles roles) config) :
    broker.Completes .ok (reconcileQueues state roles config true) := by
  rw [declarable, Bool.and_eq_true] at h
  obtain ⟨htemp, hbase⟩ := h
  refine (completes_openChannel _).bind fun _ => (completes_createBaseShadows hbase).bind fun _ =>
    .forEach fun queue hqueue => ?_
  rw [Bool.or_eq_true, Bool.and_eq_true] at htemp
  rcases htemp with hempty | ⟨hdecl, hshadow⟩
  · rw [List.isEmpty_iff.mp hempty] at hqueue
    simp at hqueue
  · exact completes_createTempQueue hdecl hshadow

/-- A loop one of whose turns never ends well does not end well itself. -/
theorem forEach_never {α : Type} {xs : List α} {body : α → ManagerOp Unit} {x : α} (hx : x ∈ xs)
    (h : (body x).Returns fun _ => False) : (Prog.forEach xs body).Returns fun _ => False := by
  induction xs with
  | nil => simp at hx
  | cons y ys ih =>
    rw [List.mem_cons] at hx
    rcases hx with rfl | hx
    · exact h.bind fun _ hf => hf.elim
    · exact .of_bind fun _ => ih hx

theorem declareQueue_never {queue : String} {declaration : QueueDeclarationConfig}
    (h : ¬ queueArguments declaration) :
    (declareQueue queue declaration).Returns fun _ => False := by
  rw [declareQueue, if_neg h]
  trivial

theorem createTempQueue_never {config : Config} {queue : String}
    (h : ¬ (queueArguments config.queueDeclaration ∧
      config.shadowQueue.all fun shadow => queueArguments shadow.queueDeclaration)) :
    (createTempQueue config queue).Returns fun _ => False := by
  unfold createTempQueue
  cases hs : config.shadowQueue with
  | none =>
    simp only [shadowQueueName, hs, Option.map_none]
    exact declareQueue_never fun hargs => h ⟨hargs, by simp [hs]⟩
  | some shadow =>
    simp only [shadowQueueName, hs, Option.map_some, Option.getD_some]
    by_cases hargs : queueArguments shadow.queueDeclaration
    · exact .of_bind fun _ => declareQueue_never fun hqueue => h ⟨hqueue, by simp [hs, hargs]⟩
    · exact (declareQueue_never hargs).bind fun _ hf => hf.elim

/-- Where a declaration cannot be sent, `prepare` gets no further than the queues. -/
theorem reconcileQueues_never {roles : List String} {config : Config}
    (h : ¬ declarable (parseRoles roles) config) :
    (reconcileQueues state roles config true).Returns fun _ => False := by
  refine .of_bind fun _ => ?_
  rw [declarable, Bool.and_eq_true, not_and_or] at h
  rcases h with h | h
  · rw [Bool.or_eq_true, Bool.and_eq_true, not_or] at h
    obtain ⟨queue, hqueue⟩ := List.exists_mem_of_ne_nil _ fun hnil =>
      h.1 (List.isEmpty_iff.mpr hnil)
    exact .of_bind fun _ => forEach_never hqueue (createTempQueue_never h.2)
  · refine Prog.Returns.bind (V := fun _ => False) ?_ fun _ hf => hf.elim
    unfold createBaseShadows
    cases hs : config.shadowQueue with
    | none => simp [hs] at h
    | some shadow =>
      rw [hs, Option.all_some, Bool.or_eq_true, not_or] at h
      obtain ⟨queue, hqueue⟩ := List.exists_mem_of_ne_nil _ fun hnil =>
        h.1 (List.isEmpty_iff.mpr hnil)
      refine forEach_never hqueue ?_
      simp only [shadowQueueName, hs, Option.map_some]
      exact declareQueue_never h.2

end Parts

/-! ## The handlers, part by part -/

section Sweep

variable {lib : ManagerCrates} {state : ManagerState} {claims : PluginAuthClaims}
  {req : PluginManagerLifecycleRequest} {live : List InceptionId}

theorem handle_cleanup {header : Option String} (h : Accepts lib state header req claims) :
    handle lib state .cleanup header req =
      (reconcileQueues state req.roles (securedConfigFromClaims claims req).2 false).bind fun _ =>
        (cleanupScopedInceptorIdentity lib state claims).bind fun _ =>
          garbageCollectScopedIdentities lib state req.activeInceptions := by
  simp only [handle, cleanupHandler, h.authorized, h.matching, Prog.bind_def, Prog.pure_bind,
    Prog.ofExcept]

theorem handle_prepare {header : Option String} (h : Accepts lib state header req claims) :
    handle lib state .prepare header req =
      (Prog.ofExcept (checkRoles (parseRoles req.roles))).bind fun _ =>
        (reconcileQueues state req.roles (securedConfigFromClaims claims req).2 true).bind fun _ =>
          (prepareScopedInceptorEnv lib state claims req.roles
            (securedConfigFromClaims claims req).2).bind fun _ =>
            garbageCollectScopedIdentities lib state req.activeInceptions := by
  simp only [handle, prepareHandler, h.authorized, h.matching, Prog.bind_def, Prog.pure_def,
    Prog.bind_assoc, Prog.pure_bind, Prog.ofExcept]
  congr 1
  funext _
  congr 1
  funext _
  congr 1
  funext _
  exact Prog.bind_pure _

/-- The queues are reconciled without a look at the users. -/
theorem reconcileQueues_spec (claims : PluginAuthClaims) (live : List InceptionId)
    (roles : List String) (config : Config) (create : Bool) (w : BrokerWorld) :
    (broker.outside Guard.still).Spec (sparing claims live) (fun _ w' => w'.users = w.users)
      (fun _ _ => True) (reconcileQueues state roles config create) w := by
  refine (Outside.Spec.of_calls (P := fun w' => w'.users = w.users)
    (calls_reconcileQueues roles config create) ?_ rfl trivial ?_ ?_).mono
    (fun _ _ h => h.1) fun _ _ _ => trivial
  · exact fun w w' _ ⟨_, hfalse, _⟩ => hfalse.elim
  · intro w c hc _ _
    cases c <;> first | exact trivial | exact hc.elim
  · rintro w c a w' hc _ hw ⟨o, _, hserve⟩
    refine ⟨trivial, ?_⟩
    cases c <;> first | exact hc.elim | (cases o <;> cases hserve <;> exact hw)

/-- The sweep deletes no user but those that it may. -/
theorem sweep_spec {w : BrokerWorld}
    (h : ∀ user ∈ w.users, Swept req user → (sparing claims live).may w (.deleteUser user)) :
    (broker.outside Guard.still).Spec (sparing claims live) (fun _ _ => True) (fun _ _ => True)
      (garbageCollectScopedIdentities lib state req.activeInceptions) w := by
  refine Outside.Spec.ofExcept_bind (fun _ _ => trivial) fun client _ => ?_
  refine Outside.Spec.bind (R := fun users _ => ∀ user ∈ users, Swept req user →
    (sparing claims live).may w (.deleteUser user)) ?_ ?_
  · refine ⟨trivial, fun a w' ⟨o, _, hserve⟩ => ⟨trivial, fun w'' _ _ => ?_⟩⟩
    cases o with
    | ok => cases hserve; exact h
    | refused => cases hserve; trivial
    | lost => cases hserve; trivial
  · intro users w' husers
    refine Outside.Spec.forEach (P := fun _ => True) trivial fun user huser w'' _ => ?_
    split
    · rename_i hswept
      exact ⟨husers user huser ⟨hswept.1, hswept.2⟩, fun a w₁ _ => ⟨trivial, fun w₂ _ _ => by
        cases a <;> trivial⟩⟩
    · trivial

/-- The sweep does delete every user it takes for a leftover. -/
theorem mem_trace_sweep (hclient : (managementClient lib state).isOk) {w : BrokerWorld}
    {user : String} (huser : user ∈ w.users) (hswept : Swept req user) :
    BrokerCall.deleteUser user ∈ broker.trace .ok
      (garbageCollectScopedIdentities lib state req.activeInceptions) w := by
  unfold garbageCollectScopedIdentities
  cases hc : managementClient lib state with
  | error e => simp [hc, Except.isOk, Except.toBool] at hclient
  | ok client =>
    simp only [Prog.bind_def, Prog.ofExcept, Prog.pure_bind]
    have hlist : broker.eval .ok (ManagerOp.ask (Prog.ask BrokerCall.listUsers)) w =
        some (.ok w.users, w) := rfl
    refine Machine.mem_trace_bind_right hlist ?_
    refine Machine.mem_trace_forEach (x := user) (fun other _ => ?_) huser fun w' => ?_
    · split
      · exact completes_deleteUser other
      · exact .pure ()
    · rw [if_pos ⟨hswept.1, hswept.2⟩]
      exact List.mem_cons_self

/-- After `prepare` has put its user in place, the users are those before and its own. -/
theorem prepareScopedInceptorEnv_spec (roles : List String) (config : Config) (w : BrokerWorld) :
    (broker.outside Guard.still).Spec (sparing claims live)
      (fun _ w' => w' = w.putUser (scopedUsername claims))
      (fun _ _ => True) (prepareScopedInceptorEnv lib state claims roles config) w := by
  refine Outside.Spec.ofExcept_bind (fun _ _ => trivial) fun client _ => ?_
  refine Outside.Spec.ofExcept_bind (fun _ _ => trivial) fun password _ => ?_
  refine ⟨rfl, fun a w₁ ⟨o, _, hserve⟩ => ⟨trivial, fun w₂ hlater _ => ?_⟩⟩
  cases Machine.later_still hlater
  cases o with
  | refused => cases hserve; trivial
  | lost => cases hserve; trivial
  | ok =>
    cases hserve
    refine ⟨rfl, fun a w₃ ⟨o, _, hserve⟩ => ⟨trivial, fun w₄ hlater _ => ?_⟩⟩
    cases Machine.later_still hlater
    cases o with
    | refused => cases hserve; trivial
    | lost => cases hserve; trivial
    | ok => cases hserve; rfl

/-- After `cleanup` has removed its user, the users are the others. -/
theorem cleanupScopedInceptorIdentity_spec {w : BrokerWorld}
    (h : (managementClient lib state).isOk →
      (sparing claims live).may w (.deleteUser (scopedUsername claims))) :
    (broker.outside Guard.still).Spec (sparing claims live)
      (fun _ w' => w' = w.deleteUser (scopedUsername claims))
      (fun _ _ => True) (cleanupScopedInceptorIdentity lib state claims) w := by
  refine Outside.Spec.ofExcept_bind (fun _ _ => trivial) fun client hclient => ?_
  refine ⟨h (by rw [hclient]; rfl), fun a w₁ ⟨o, _, hserve⟩ => ⟨trivial, fun w₂ hlater _ => ?_⟩⟩
  cases Machine.later_still hlater
  cases o with
  | refused => cases hserve; trivial
  | lost => cases hserve; trivial
  | ok => cases hserve; rfl

theorem eval_cleanupScopedInceptorIdentity (hclient : (managementClient lib state).isOk)
    (claims : PluginAuthClaims) (w : BrokerWorld) :
    broker.eval .ok (cleanupScopedInceptorIdentity lib state claims) w =
        some (.ok (), w.deleteUser (scopedUsername claims)) ∧
      BrokerCall.deleteUser (scopedUsername claims) ∈
        broker.trace .ok (cleanupScopedInceptorIdentity lib state claims) w := by
  unfold cleanupScopedInceptorIdentity
  cases hc : managementClient lib state with
  | error e => simp [hc, Except.isOk, Except.toBool] at hclient
  | ok client => exact ⟨rfl, List.mem_cons_self⟩

theorem eval_prepareScopedInceptorEnv (hclient : (managementClient lib state).isOk)
    (hpassword : (scopedPassword lib state claims).isOk) (roles : List String) (config : Config)
    (w : BrokerWorld) : ∃ env,
    broker.eval .ok (prepareScopedInceptorEnv lib state claims roles config) w =
      some (.ok env, w.putUser (scopedUsername claims)) := by
  unfold prepareScopedInceptorEnv
  cases hc : managementClient lib state with
  | error e => simp [hc, Except.isOk, Except.toBool] at hclient
  | ok client =>
    cases hp : scopedPassword lib state claims with
    | error e => simp [hp, Except.isOk, Except.toBool] at hpassword
    | ok password => exact ⟨_, rfl⟩

/-- Without a client or a password `prepare` gets no further than the queues. -/
theorem prepareScopedInceptorEnv_never (lib : ManagerCrates) (state : ManagerState)
    (claims : PluginAuthClaims) (h : ¬ ((managementClient lib state).isOk ∧
    (scopedPassword lib state claims).isOk)) (roles : List String) (config : Config) :
    (prepareScopedInceptorEnv lib state claims roles config).Returns fun _ => False := by
  unfold prepareScopedInceptorEnv
  cases hc : managementClient lib state with
  | error e => trivial
  | ok client =>
    cases hp : scopedPassword lib state claims with
    | error e => trivial
    | ok password => exact absurd ⟨by rw [hc]; rfl, by rw [hp]; rfl⟩ h

end Sweep

/-! ## The derived user name -/

def scopedUsernamePartsStartsSanitize : PLift (sanitize "fbg-rmq" = "fbg-rmq") :=
  ⟨by decide +kernel⟩

/-- Every scoped user name has the prefix the sweep looks for. -/
theorem scopedUsernameParts_starts (id : InceptionId) :
    "fbg-rmq-".toList.isPrefixOf (scopedUsernameParts id).toList := by
  have hsanitize := scopedUsernamePartsStartsSanitize.down
  unfold scopedUsernameParts derivedScopedIdentityName
  simp only [hsanitize, List.isPrefixOf_iff_prefix, String.toList_ofList, List.prefix_take_iff,
    toString, String.toList_append, List.append_assoc]
  exact ⟨⟨_, rfl⟩, by decide⟩

/-! ## The theorem -/

variable {lib : ManagerCrates} {state : ManagerState}

/-- **A request spares the users of other tenants exactly when its inventory covers them**, or when
it never gets to the sweep. -/
theorem request_spares_other_tenants (kind : LifecycleRequest) (header : Option String)
    (req : PluginManagerLifecycleRequest) (claims : PluginAuthClaims) (live : List InceptionId)
    (w : BrokerWorld) (haccepts : Accepts lib state header req claims) :
    (broker.outside Guard.still).Spec (sparing claims live) (fun _ _ => True) (fun _ _ => True)
      (handle lib state kind header req) w ↔
    (ReachesSweep lib state kind claims req → InventoryCovers kind claims req live w) := by
  cases kind with
  | cleanup =>
    rw [handle_cleanup haccepts]
    constructor
    · intro hspec hreach
      obtain ⟨_, w₁, hw₁⟩ := completes_reconcileQueues_delete state req.roles
        (securedConfigFromClaims claims req).2 w
      have husers : w₁.users = w.users := Machine.eval_spec (fun _ _ => trivial)
        (reconcileQueues_spec claims live req.roles _ false w) hw₁
      obtain ⟨hw₂, hcall⟩ := eval_cleanupScopedInceptorIdentity hreach.1 claims w₁
      refine ⟨fun user huser hne hswept => ?_, fun _ => ?_⟩
      · -- the sweep makes the call, so the user must be the sender's own
        have hmem : user ∈ (w₁.deleteUser (scopedUsername claims)).users :=
          List.mem_filter.mpr ⟨by rw [husers]; exact huser, by simpa using hne⟩
        obtain ⟨_, hmay⟩ := Machine.may_of_mem_trace (fun _ _ => trivial) hspec
          (Machine.mem_trace_bind_right hw₁
          (Machine.mem_trace_bind_right hw₂ (mem_trace_sweep hreach.1 hmem hswept)))
        exact hne hmay.1
      · obtain ⟨_, hmay⟩ := Machine.may_of_mem_trace (fun _ _ => trivial) hspec
          (Machine.mem_trace_bind_right hw₁
          (Machine.mem_trace_bind_left hcall))
        exact hmay.2
    · intro h
      refine (reconcileQueues_spec _ _ _ _ _ w).bind fun _ w₁ hw₁ => ?_
      refine (cleanupScopedInceptorIdentity_spec fun hclient => ?_).bind fun _ w₂ hw₂ => ?_
      · exact ⟨rfl, (h ⟨hclient, trivial⟩).own (by simp)⟩
      · cases hc : managementClient lib state with
        | error e =>
          unfold garbageCollectScopedIdentities
          rw [hc]
          trivial
        | ok client =>
          have hcovers := h ⟨by rw [hc]; rfl, trivial⟩
          refine sweep_spec fun user huser hswept => ?_
          subst hw₂
          obtain ⟨hmem, hne⟩ := List.mem_filter.mp huser
          rw [hw₁] at hmem
          exact absurd hswept (hcovers.others user hmem (by simpa using hne))
  | prepare =>
    rw [handle_prepare haccepts]
    constructor
    · intro hspec hreach
      obtain ⟨hclient, hroles, hpassword, hdecl⟩ := hreach
      rw [hroles, Prog.ofExcept, Prog.pure_bind] at hspec
      obtain ⟨_, w₁, hw₁⟩ := completes_reconcileQueues_create state hdecl w
      have husers : w₁.users = w.users := Machine.eval_spec (fun _ _ => trivial)
        (reconcileQueues_spec claims live req.roles _ true w) hw₁
      obtain ⟨env, hw₂⟩ := eval_prepareScopedInceptorEnv hclient hpassword req.roles
        (securedConfigFromClaims claims req).2 w₁
      have hswept : ∀ user ∈ (w₁.putUser (scopedUsername claims)).users, Swept req user →
          user = scopedUsername claims ∧
            ∀ id ∈ live, scopedUsernameParts id = user → id = claims.inceptionId := by
        intro user huser hswept
        obtain ⟨_, hmay⟩ := Machine.may_of_mem_trace (fun _ _ => trivial) hspec
          (Machine.mem_trace_bind_right hw₁
          (Machine.mem_trace_bind_right hw₂ (mem_trace_sweep hclient huser hswept)))
        exact hmay
      refine ⟨fun user huser hne hs => hne (hswept user ?_ hs).1, fun hs => ?_⟩
      · exact mem_putUser.mpr (.inl (by rw [husers]; exact huser))
      · exact (hswept _ (mem_putUser.mpr (.inr rfl)) ⟨scopedUsernameParts_starts _, hs rfl⟩).2
    · intro h
      refine Outside.Spec.ofExcept_bind (fun _ _ => trivial) fun _ hroles => ?_
      by_cases hreach : ReachesSweep lib state .prepare claims req
      · have hcovers := h hreach
        refine (reconcileQueues_spec _ _ _ _ _ w).bind fun _ w₁ hw₁ => ?_
        refine (prepareScopedInceptorEnv_spec _ _ w₁).bind fun _ w₂ hw₂ => ?_
        refine sweep_spec fun user huser hswept => ?_
        subst hw₂
        rcases mem_putUser.mp huser with huser | rfl
        · rw [hw₁] at huser
          by_cases hown : user = scopedUsername claims
          · subst hown
            exact ⟨rfl, hcovers.own fun _ => hswept.2⟩
          · exact absurd hswept (hcovers.others user huser hown)
        · exact ⟨rfl, hcovers.own fun _ => hswept.2⟩
      · -- something keeps the request from its sweep, and then it has only reconciled the queues
        by_cases hdecl : declarable (parseRoles req.roles) (securedConfigFromClaims claims req).2
        · refine (reconcileQueues_spec _ _ _ _ _ w).bind fun _ w₁ _ => ?_
          have hnever := prepareScopedInceptorEnv_never lib state claims
            (fun hboth => hreach ⟨hboth.1, hroles, hboth.2, hdecl⟩) req.roles
            (securedConfigFromClaims claims req).2
          exact ((prepareScopedInceptorEnv_spec _ _ w₁).returns hnever).bind
            fun _ _ hfalse => hfalse.1.elim
        · exact ((reconcileQueues_spec _ _ _ _ _ w).returns (reconcileQueues_never hdecl)).bind
            fun _ _ hfalse => hfalse.1.elim

/-! ### A manager with two tenants -/

section Sample

open Sample

def sampleCrates : ManagerCrates where
  crates := managerCrates
  newManagementClient settings := some ⟨settings.baseUrl, settings.vhost⟩
  argumentsText _ := "\x7b\x7d"

def sampleState : ManagerState where
  signingKey := "signing-key"
  amqpUrl := "amqp://broker"
  managementUrl := some "https://broker"
  managementUsername := some "admin"
  managementPassword := some "secret"
  managementVhost := none
  managementAllowInsecure := false
  amqpCaCertPath := none
  managementCaCertPath := none
  managementInsecureSkipVerify := false

/-- The users of both inceptions are there. -/
def sampleBroker : BrokerWorld where
  users := ["admin", scopedUsername ordersClaims, scopedUsername otherClaims]
  queues := []

theorem scopedUsernameFromActive_active (claims : PluginAuthClaims) (roles : List String)
    (config : Json) :
    scopedUsernameFromActive (active claims roles config) = scopedUsername claims := rfl

/-- A request with both inceptions in its inventory spares the users of both. -/
theorem request_spares_other_tenants_listed :
    (broker.outside Guard.still).Spec
      (sparing ordersClaims [ordersClaims.inceptionId, otherClaims.inceptionId])
      (fun _ _ => True) (fun _ _ => True)
      (handle sampleCrates sampleState .prepare (some "Bearer orders")
        (request ["observer"] .null [active ordersClaims [] .null, active otherClaims [] .null]))
      sampleBroker := by
  refine (request_spares_other_tenants .prepare _ _ ordersClaims _ _
    ⟨by rfl, by decide +kernel⟩).mpr fun _ => ⟨?_, ?_⟩
  · intro user huser hne hswept
    have hlisted : user = "admin" ∨ user = scopedUsername ordersClaims ∨
        user = scopedUsername otherClaims := by simpa [sampleBroker] using huser
    refine hswept.2 ?_
    simp only [request, List.map_cons, List.map_nil, scopedUsernameFromActive_active, List.mem_cons,
      List.not_mem_nil, or_false]
    rcases hlisted with rfl | hlisted
    · exact absurd hswept.1 (by decide)
    · exact hlisted
  · intro hown
    refine absurd ?_ (hown rfl)
    simp only [request, List.map_cons, List.map_nil, scopedUsernameFromActive_active]
    exact List.mem_cons_self

/-- The holder of one token removes the user of the other inception, by leaving it out. -/
theorem left_out_user_is_deleted :
    Accepts sampleCrates sampleState (some "Bearer orders") (request ["observer"] .null [])
      ordersClaims ∧
    scopedUsername otherClaims ∈ sampleBroker.users ∧
    scopedUsername otherClaims ≠ scopedUsername ordersClaims ∧
    (broker.eval .ok (handle sampleCrates sampleState .prepare (some "Bearer orders")
      (request ["observer"] .null [])) sampleBroker).map (·.2.users) = some ["admin"] := by
  exact ⟨⟨by rfl, by decide +kernel⟩, by simp [sampleBroker], by decide +kernel,
    by decide +kernel⟩

end Sample

end FluidBG.Rabbitmq
