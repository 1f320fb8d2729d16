import FluidBG.Plugins.ServiceBus
import FluidBG.Proof.ScopedUsers
import FluidBG.Proof.SuppliedNames
/-!
# The queues a cleanup deletes

`cleanup` rewrites the JSON of the configuration and deletes what it then reads from it. The reading
is peeled field by field here, down to the places the names come from; with that, a cleanup deletes
derived queues only, exactly when the names the rewrite does not reach happen to be derived too.
-/

set_option autoImplicit false

namespace FluidBG

open Lib

/-! ## Where the names are read from -/

/-- The fields of a role's block that name temporary queues. -/
def queuePlaces : PluginRole → NamePlaces
  | .duplicator => ⟨"duplicator", 2, [("greenInputQueue", 1), ("blueInputQueue", 2)]⟩
  | .splitter => ⟨"splitter", 3, [("greenInputQueue", 1), ("blueInputQueue", 2)]⟩
  | .combiner => ⟨"combiner", 4, [("greenOutputQueue", 1), ("blueOutputQueue", 2)]⟩
  | _ => ⟨"", 0, []⟩

theorem queuePlaces_rewritten (role : PluginRole) :
    (queuePlaces role).Rewritten queueTempNames := by
  cases role <;> decide

/-- The suffix of the shadow queues. -/
def suppliedSuffix (config : Json) : Option String :=
  ((Serde.fieldAt "shadowQueue" 1 config).bind (Serde.fieldAt "suffix" 0)).bind Json.asStr

/-! ## The reading, field by field -/

theorem InputRoleConfig.tempQueues_of_decode {block : Json} {config : InputRoleConfig}
    (h : InputRoleConfig.decode block = some config) :
    config.tempQueues =
      ((Serde.fieldAt "greenInputQueue" 1 block).bind Json.asStr).toList ++
        ((Serde.fieldAt "blueInputQueue" 2 block).bind Json.asStr).toList := by
  have h₀ : InputRoleConfig.fields.Reads config block := Serde.Fields.reads_of_decode h
  obtain ⟨_, h₁, rfl⟩ := h₀.last_string (.inl rfl)
  obtain ⟨_, h₂, rfl⟩ := h₁.last_string (.inl rfl)
  obtain ⟨_, h₃, rfl⟩ := h₂.last_string (.inl rfl)
  obtain ⟨_, h₄, rfl⟩ := h₃.last_string (.inl rfl)
  obtain ⟨_, h₅, rfl⟩ := h₄.last_string (.inl rfl)
  cases h₅.eq_of_nil
  rfl

theorem CombinerConfig.tempQueues_of_decode {block : Json} {config : CombinerConfig}
    (h : CombinerConfig.decode block = some config) :
    config.tempQueues =
      ((Serde.fieldAt "greenOutputQueue" 1 block).bind Json.asStr).toList ++
        ((Serde.fieldAt "blueOutputQueue" 2 block).bind Json.asStr).toList := by
  have h₀ : CombinerConfig.fields.Reads config block := Serde.Fields.reads_of_decode h
  obtain ⟨_, h₁, rfl⟩ := h₀.last_string (.inl rfl)
  obtain ⟨_, h₂, rfl⟩ := h₁.last_string (.inl rfl)
  obtain ⟨_, h₃, rfl⟩ := h₂.last_string (.inl rfl)
  obtain ⟨_, h₄, rfl⟩ := h₃.last_string (.inl rfl)
  obtain ⟨_, h₅, rfl⟩ := h₄.last_string (.inl rfl)
  cases h₅.eq_of_nil
  rfl

section Reading

variable {D : Type} {decl : Serde.Decoder D} {default : D} {v : Json} {config : QueueConfig D}

/-- The blocks of a configuration that was read. -/
theorem QueueConfig.blocks_of_decode (h : QueueConfig.decode decl default v = some config) :
    ((Serde.fieldAt "shadowQueue" 1 v).map
      (Serde.option (ShadowQueueConfig.decode decl default))).getD (some none) =
        some config.shadowQueue ∧
    ((Serde.fieldAt "duplicator" 2 v).map (Serde.option InputRoleConfig.decode)).getD
      (some none) = some config.duplicator ∧
    ((Serde.fieldAt "splitter" 3 v).map (Serde.option InputRoleConfig.decode)).getD
      (some none) = some config.splitter ∧
    ((Serde.fieldAt "combiner" 4 v).map (Serde.option CombinerConfig.decode)).getD
      (some none) = some config.combiner := by
  have h₀ : (QueueConfig.fields decl default).Reads config v :=
    Serde.Fields.reads_of_decode h
  obtain ⟨_, _, h₁, rfl, _⟩ := h₀.last_getD (.inr rfl)
  obtain ⟨_, _, h₂, rfl, _⟩ := h₁.last_getD (.inr rfl)
  obtain ⟨_, _, h₃, rfl, _⟩ := h₂.last_getD (.inr rfl)
  obtain ⟨_, _, h₄, rfl, hcombiner⟩ := h₃.last_getD (.inr rfl)
  obtain ⟨_, _, h₅, rfl, hsplitter⟩ := h₄.last_getD (.inr rfl)
  obtain ⟨_, _, h₆, rfl, hduplicator⟩ := h₅.last_getD (.inr rfl)
  obtain ⟨_, _, h₇, rfl, hshadow⟩ := h₆.last_getD (.inr rfl)
  obtain ⟨_, _, h₈, rfl, _⟩ := h₇.last_getD (.inr rfl)
  cases h₈.eq_of_nil
  exact ⟨hshadow, hduplicator, hsplitter, hcombiner⟩

/-- **The temporary queues of a role** are the names at its places. -/
theorem QueueConfig.tempQueues_of_decode (h : QueueConfig.decode decl default v = some config)
    (role : PluginRole) : config.tempQueues role = (queuePlaces role).inConfig v := by
  obtain ⟨_, hduplicator, hsplitter, hcombiner⟩ := QueueConfig.blocks_of_decode h
  cases role with
  | duplicator =>
    exact NamePlaces.inConfig_of_read (p := queuePlaces .duplicator) hduplicator
      (fun value b hb => by
        rw [InputRoleConfig.tempQueues_of_decode hb, NamePlaces.inBlock_pair rfl]) rfl
  | splitter =>
    exact NamePlaces.inConfig_of_read (p := queuePlaces .splitter) hsplitter
      (fun value b hb => by
        rw [InputRoleConfig.tempQueues_of_decode hb, NamePlaces.inBlock_pair rfl]) rfl
  | combiner =>
    exact NamePlaces.inConfig_of_read (p := queuePlaces .combiner) hcombiner
      (fun value b hb => by
        rw [CombinerConfig.tempQueues_of_decode hb, NamePlaces.inBlock_pair rfl]) rfl
  | observer => unfold NamePlaces.inConfig; cases Serde.fieldAt _ _ v <;> rfl
  | mock => unfold NamePlaces.inConfig; cases Serde.fieldAt _ _ v <;> rfl
  | writer => unfold NamePlaces.inConfig; cases Serde.fieldAt _ _ v <;> rfl
  | consumer => unfold NamePlaces.inConfig; cases Serde.fieldAt _ _ v <;> rfl

theorem QueueConfig.suffix_of_decode (h : QueueConfig.decode decl default v = some config) :
    config.shadowQueue.map (·.suffix) = suppliedSuffix v := by
  obtain ⟨hshadow, _⟩ := QueueConfig.blocks_of_decode h
  unfold suppliedSuffix
  cases hfield : Serde.fieldAt "shadowQueue" 1 v with
  | none =>
    rw [hfield] at hshadow
    rw [← Option.some.inj hshadow]
    rfl
  | some value =>
    rw [hfield] at hshadow
    rcases Serde.option_eq_some hshadow with ⟨rfl, hnone⟩ | ⟨shadow, hread, hsome⟩
    · rw [hnone]
      rfl
    · have h₀ : ((Serde.Fields.nil ShadowQueueConfig.mk).required "suffix" Serde.string
          |>.withDefault "queueDeclaration" decl default).Reads shadow value :=
        Serde.Fields.reads_of_decode hread
      obtain ⟨_, _, h₁, rfl, _⟩ := h₀.last_getD (.inr rfl)
      obtain ⟨_, suffix, h₂, rfl, hsuffix⟩ := h₁.last_required
      cases h₂.eq_of_nil
      rw [hsome]
      exact hsuffix.symm

end Reading

/-! ## What is derived -/

/-- The queue is derived for the inception, or it is the shadow of one that is. -/
def DerivedQueue (id : InceptionId) (suffix : Option String) (queue : String) : Prop :=
  id.Derived queue ∨
    ∃ temp, id.Derived temp ∧ suffix.map (derivedShadowQueueName temp) = some queue

/-- The queue and its shadow are. -/
def DerivedPair (id : InceptionId) (suffix : Option String) (queue : String) : Prop :=
  DerivedQueue id suffix queue ∧
    ∀ shadow, suffix.map (derivedShadowQueueName queue) = some shadow →
      DerivedQueue id suffix shadow

theorem InceptionId.Derived.pair {id : InceptionId} {suffix : Option String} {queue : String}
    (h : id.Derived queue) : DerivedPair id suffix queue :=
  ⟨.inl h, fun _ hshadow => .inr ⟨queue, h, hshadow⟩⟩

section Supplied

variable {D : Type} (decl : Serde.Decoder D) (default : D)

/-- Where the configuration can be read at all, the names in it that the rewrite does not reach are
derived all the same. -/
def SuppliedAreDerived (id : InceptionId) (roles : List PluginRole) (config : Json) : Prop :=
  (QueueConfig.decode decl default (rewriteQueueTempNames id config)).isSome →
    ∀ role ∈ managedRoles, hasRole roles role → ∀ queue ∈ (queuePlaces role).supplied config,
      DerivedPair id (suppliedSuffix config) queue

/-- The rewrite leaves the suffix of the shadows alone. -/
theorem suppliedSuffix_rewrite (id : InceptionId) (config : Json) :
    suppliedSuffix (rewriteQueueTempNames id config) = suppliedSuffix config := by
  unfold rewriteQueueTempNames
  cases config with
  | obj fields =>
    obtain ⟨fields', heq, hfields'⟩ := rewriteTempNames_obj queueTempNames id fields
    have hnone : (queueTempNames.fields.filter fun t => t.role = "shadowQueue") = [] := by decide
    rw [heq]
    simp only [suppliedSuffix, Serde.fieldAt, hfields', hnone]
    cases fields.lookup "shadowQueue" <;> rfl
  | arr xs => rw [rewriteTempNames_not_obj _ _ (by simp)]
  | null => rw [rewriteTempNames_not_obj _ _ (by simp)]
  | bool b => rw [rewriteTempNames_not_obj _ _ (by simp)]
  | num n => rw [rewriteTempNames_not_obj _ _ (by simp)]
  | str s => rw [rewriteTempNames_not_obj _ _ (by simp)]

/-- **The queues the manager takes for its own** are derived when the supplied ones are. -/
theorem managed_derived_iff (claims : PluginAuthClaims) (req : PluginManagerLifecycleRequest) :
    (∀ queue ∈ managedTempQueueNames (parseRoles req.roles)
        (securedConfigFromClaims decl default claims req).2,
      DerivedQueue claims.inceptionId (suppliedSuffix req.config) queue ∧
      ∀ shadow, shadowQueueName (securedConfigFromClaims decl default claims req).2 queue =
        some shadow → DerivedQueue claims.inceptionId (suppliedSuffix req.config) shadow) ↔
    SuppliedAreDerived decl default claims.inceptionId (parseRoles req.roles) req.config := by
  unfold SuppliedAreDerived
  simp only [securedConfigFromClaims, QueueConfig.decodeOrDefault]
  cases hread : QueueConfig.decode decl default
      (rewriteQueueTempNames claims.inceptionId req.config) with
  | none =>
    -- an unreadable configuration is taken for the default one, which names no queue
    simp only [Option.getD_none, Option.isSome_none, Bool.false_eq_true, false_implies, iff_true]
    intro queue hqueue
    obtain ⟨role, _, hqueue⟩ := List.mem_flatMap.mp hqueue
    cases role <;> simp [QueueConfig.tempQueues, QueueConfig.empty] at hqueue
  | some config =>
    have hshadow : ∀ queue, shadowQueueName config queue =
        (suppliedSuffix req.config).map (derivedShadowQueueName queue) := by
      intro queue
      rw [← suppliedSuffix_rewrite claims.inceptionId, ← QueueConfig.suffix_of_decode hread,
        Option.map_map]
      simp only [shadowQueueName, Function.comp_def]
    simp only [Option.getD_some, Option.isSome_some, true_implies, hshadow]
    constructor
    · intro h role hrole hhas queue hqueue
      refine h queue (List.mem_flatMap.mpr ⟨role, List.mem_filter.mpr ⟨hrole, hhas⟩, ?_⟩)
      rw [QueueConfig.tempQueues_of_decode hread]
      exact NamePlaces.mem_inConfig_of_supplied hqueue
    · intro h queue hqueue
      obtain ⟨role, hrole, hqueue⟩ := List.mem_flatMap.mp hqueue
      obtain ⟨hmanaged, hhas⟩ := List.mem_filter.mp hrole
      rw [QueueConfig.tempQueues_of_decode hread] at hqueue
      rcases NamePlaces.mem_inConfig (queuePlaces_rewritten role) hqueue with hsupplied | hderived
      · exact h role hmanaged hhas queue hsupplied
      · exact hderived.pair

end Supplied

/-! ## What the managers delete -/

namespace Rabbitmq

/-- The call deletes derived queues only. -/
def DeletesDerived (id : InceptionId) (suffix : Option String) : BrokerCall → Prop
  | .queueDelete queue => DerivedQueue id suffix queue
  | _ => True

theorem calls_deleteTempQueue_iff (state : ManagerState) (roles : List String) (config : Config)
    (id : InceptionId) (suffix : Option String) :
    (reconcileQueues state roles config false).Calls (DeletesDerived id suffix) ↔
      ∀ queue ∈ managedTempQueueNames (parseRoles roles) config,
        DerivedQueue id suffix queue ∧ ∀ shadow, shadowQueueName config queue = some shadow →
          DerivedQueue id suffix shadow := by
  constructor
  · intro h queue hqueue
    have hcall : ∀ c, (∀ w, c ∈ broker.trace .ok (deleteTempQueue config queue) w) →
        DeletesDerived id suffix c := by
      intro c hc
      obtain ⟨_, w, hopen⟩ := completes_openChannel state.amqpUrl ⟨[], []⟩
      exact Machine.mem_trace h (Machine.mem_trace_bind_right hopen (Machine.mem_trace_forEach
        (fun queue _ => completes_deleteTempQueue config queue) hqueue hc))
    refine ⟨hcall (.queueDelete queue) fun w => List.mem_cons_self, fun shadow hshadow =>
      hcall (.queueDelete shadow) fun w => ?_⟩
    have hqueue : broker.eval .ok (deleteQueue queue) w = some (.ok (), w.queueDelete queue) := rfl
    refine Machine.mem_trace_bind_right hqueue ?_
    rw [hshadow]
    exact List.mem_cons_self
  · intro h
    have hopen : (openChannel state.amqpUrl).Calls (DeletesDerived id suffix) :=
      (calls_ask (Prog.Calls.of_ask.mpr trivial)).bind fun _ =>
        calls_ask (Prog.Calls.of_ask.mpr trivial)
    refine hopen.bind fun _ => Prog.Calls.forEach fun queue hqueue => ?_
    obtain ⟨hderived, hshadows⟩ := h queue hqueue
    refine Prog.Calls.bind (p := deleteQueue queue) ⟨hderived, fun _ => trivial⟩ fun _ => ?_
    cases hshadow : shadowQueueName config queue with
    | none => trivial
    | some shadow => exact ⟨hshadows shadow hshadow, fun _ => trivial⟩

end Rabbitmq

namespace ServiceBus

/-- The call deletes derived queues only. -/
def DeletesDerived (id : InceptionId) (suffix : Option String) : BusCall → Prop
  | .deleteQueue queue => DerivedQueue id suffix queue
  | _ => True

/-- The manager has a client, and it is one that deletes queues. -/
def ManagerState.Deletes (state : ManagerState) : Prop :=
  ∃ client, state.client = some client ∧ ¬ client.arm.any (!·.deleteQueues)

section Deletions

variable (client : ServiceBusClient)

theorem completes_deleteQueue (queue : String) : bus.Completes .ok (deleteQueue client queue) := by
  intro queues
  unfold deleteQueue
  split
  · exact ⟨(), queues, rfl⟩
  · exact ⟨(), queues.filter (· ≠ queue), rfl⟩

theorem completes_deleteTempQueue (config : Config) (queue : String) :
    bus.Completes .ok (deleteTempQueue client config queue) := by
  refine (completes_deleteQueue client queue).bind fun _ => ?_
  split
  · exact completes_deleteQueue client _
  · exact .pure ()

theorem mem_trace_deleteQueue (hdeletes : ¬ client.arm.any (!·.deleteQueues)) (queue : String)
    (queues : List String) :
    BusCall.deleteQueue queue ∈ bus.trace .ok (deleteQueue client queue) queues := by
  rw [deleteQueue, if_neg hdeletes]
  exact List.mem_cons_self

theorem calls_deleteQueue {F : BusCall → Prop} {queue : String} (h : F (.deleteQueue queue)) :
    (deleteQueue client queue).Calls F := by
  unfold deleteQueue
  split
  · trivial
  · refine Prog.Calls.bind (Prog.Calls.of_ask.mpr h) fun r => ?_
    cases r <;> trivial

end Deletions

theorem calls_deleteTempQueue_iff (state : ManagerState) (roles : List String) (config : Config)
    (id : InceptionId) (suffix : Option String) :
    (reconcileQueues state roles config false).Calls (DeletesDerived id suffix) ↔
      (state.Deletes → ∀ queue ∈ managedTempQueueNames (parseRoles roles) config,
        DerivedQueue id suffix queue ∧ ∀ shadow, shadowQueueName config queue = some shadow →
          DerivedQueue id suffix shadow) := by
  unfold reconcileQueues serviceBusClient
  cases hclient : state.client with
  | none =>
    refine ⟨fun _ ⟨client, hsome, _⟩ => ?_, fun _ => trivial⟩
    simp [hclient] at hsome
  | some client =>
    by_cases hdeletes : client.arm.any (!·.deleteQueues)
    · constructor
      · rintro _ ⟨client', hsome, hdeletes'⟩
        rw [hclient, Option.some.injEq] at hsome
        exact absurd (hsome ▸ hdeletes) hdeletes'
      · intro _
        refine Prog.Calls.forEach fun queue _ => ?_
        simp only [deleteTempQueue, deleteQueue, if_pos hdeletes]
        split <;> trivial
    · constructor
      · intro h _ queue hqueue
        have hcall : ∀ c, (∀ w, c ∈ bus.trace .ok (deleteTempQueue client config queue) w) →
            DeletesDerived id suffix c := by
          intro c hc
          exact Machine.mem_trace h (w := []) (Machine.mem_trace_forEach
            (fun queue _ => completes_deleteTempQueue client config queue) hqueue hc)
        refine ⟨hcall (.deleteQueue queue) fun w => Machine.mem_trace_bind_left
          (mem_trace_deleteQueue client hdeletes queue w), fun shadow hshadow =>
          hcall (.deleteQueue shadow) fun w => ?_⟩
        obtain ⟨_, w', hw'⟩ := completes_deleteQueue client queue w
        refine Machine.mem_trace_bind_right hw' ?_
        rw [hshadow]
        exact mem_trace_deleteQueue client hdeletes shadow w'
      · intro h
        refine Prog.Calls.forEach fun queue hqueue => ?_
        obtain ⟨hderived, hshadows⟩ := h ⟨client, hclient, hdeletes⟩ queue hqueue
        refine (calls_deleteQueue client hderived).bind fun _ => ?_
        cases hshadow : shadowQueueName config queue with
        | none => trivial
        | some shadow => exact calls_deleteQueue client (hshadows shadow hshadow)

end ServiceBus

/-- **A cleanup deletes derived queues only** exactly when the names the rewrite does not reach are
derived too; on Azure, an installation may keep the manager from deleting anything. -/
theorem cleanup_deletes_only_derived (claims : PluginAuthClaims)
    (req : PluginManagerLifecycleRequest) (rabbitmq : Rabbitmq.ManagerState)
    (serviceBus : ServiceBus.ManagerState) :
    ((Rabbitmq.reconcileQueues rabbitmq req.roles
          (Rabbitmq.securedConfigFromClaims claims req).2 false).Calls
        (Rabbitmq.DeletesDerived claims.inceptionId (suppliedSuffix req.config)) ↔
      SuppliedAreDerived Rabbitmq.QueueDeclarationConfig.decode .empty claims.inceptionId
        (parseRoles req.roles) req.config) ∧
    ((ServiceBus.reconcileQueues serviceBus req.roles
          (ServiceBus.securedConfigFromClaims claims req).2 false).Calls
        (ServiceBus.DeletesDerived claims.inceptionId (suppliedSuffix req.config)) ↔
      (serviceBus.Deletes → SuppliedAreDerived ServiceBus.QueueDeclarationConfig.decode .empty
        claims.inceptionId (parseRoles req.roles) req.config)) := by
  constructor
  · rw [Rabbitmq.calls_deleteTempQueue_iff]
    exact managed_derived_iff Rabbitmq.QueueDeclarationConfig.decode .empty claims req
  · rw [ServiceBus.calls_deleteTempQueue_iff]
    exact imp_congr_right fun _ =>
      managed_derived_iff ServiceBus.QueueDeclarationConfig.decode .empty claims req

/-! ### A block in the shape of an array -/

section Sample

open Sample

def ServiceBus.sampleState : ServiceBus.ManagerState where
  crates := managerCrates
  signingKey := "signing-key"
  client := some ⟨false, none⟩
  inceptorEnv _ _ := []

/-- The block of the duplicator lists its fields without their names. -/
def positionalConfig : Json :=
  .obj [("duplicator", .arr [.str "orders", .str "payments", .str "refunds", .null, .null])]

/-- Both managers delete the queues that the array names. -/
theorem supplied_queue_is_deleted :
    (Rabbitmq.broker.eval .ok (Rabbitmq.reconcileQueues Rabbitmq.sampleState ["duplicator"]
      (Rabbitmq.securedConfigFromClaims ordersClaims
        (request ["duplicator"] positionalConfig [])).2 false)
      ⟨[], ["orders", "payments", "refunds"]⟩).map (·.2.queues) = some ["orders"] ∧
    (ServiceBus.bus.eval .ok (ServiceBus.reconcileQueues ServiceBus.sampleState ["duplicator"]
      (ServiceBus.securedConfigFromClaims ordersClaims
        (request ["duplicator"] positionalConfig [])).2 false)
      ["orders", "payments", "refunds"]).map (·.2) = some ["orders"] ∧
    ¬ DerivedQueue ordersClaims.inceptionId (suppliedSuffix positionalConfig) "payments" := by
  refine ⟨by decide +kernel, by decide +kernel, ?_⟩
  rintro (hderived | ⟨temp, _, hshadow⟩)
  · exact absurd hderived.starts (by decide)
  · simp [suppliedSuffix, positionalConfig, Serde.fieldAt, List.lookup_cons] at hshadow

end Sample

end FluidBG
