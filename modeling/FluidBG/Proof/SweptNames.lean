import FluidBG.Lib.Trace
import FluidBG.Proof.DerivedQueues
import FluidBG.Proof.TenantStreams
/-!
# What a sweep takes for a leftover

The three managers find the temporary objects that nobody uses any more by their names: a prefix,
and a set of temporary names that are in use. Nothing in that looks at who has chosen a name. So a
sweep keeps to leftovers exactly as long as no queue or stream that is somebody's own begins with
the prefix, and a base queue called `fluidbg-orders` is gone with the next inventory.
-/

set_option autoImplicit false

namespace FluidBG

open Lib

/-! ## Whose a queue is -/

/-- The queue is a temporary one of some inception, or the shadow of one. -/
def TemporaryQueue (queue : String) : Prop :=
  ∃ id suffix, DerivedQueue id suffix queue

/-- The queues of the application that a configuration names, with the shadows of the base queues. -/
def QueueConfig.userQueues {D : Type} (config : QueueConfig D) : List String :=
  (managedRoles.filterMap config.baseQueue).flatMap (fun queue =>
    queue :: (shadowQueueName config queue).toList) ++
    (config.writer.bind (·.targetQueue)).toList ++ (config.consumer.bind (·.inputQueue)).toList

section Queues

variable {D : Type} (decl : Serde.Decoder D) (default : D) (inventory : List ActiveInception)

/-- An inception of the inventory refers to the queue. -/
def RefersToQueue (queue : String) : Prop :=
  ∃ active ∈ inventory, queue ∈ (QueueConfig.decodeOrDefault decl default
    (rewriteQueueTempNames active.inceptionId active.config)).userQueues

/-- Nobody's own: the queue is temporary, and no inception of the inventory refers to it. -/
def LeftoverQueue (queue : String) : Prop :=
  TemporaryQueue queue ∧ ¬ RefersToQueue decl default inventory queue

/-- What the sweeps of queues go by. -/
def SweptQueue (queue : String) : Prop :=
  "fluidbg-".toList.isPrefixOf queue.toList ∧ queue ∉ activeQueueNames decl default inventory

instance : DecidablePred (SweptQueue decl default inventory) :=
  fun queue => inferInstanceAs (Decidable ("fluidbg-".toList.isPrefixOf queue.toList ∧
    queue ∉ activeQueueNames decl default inventory))

/-- The queues that are somebody's own are named so that the sweep passes over them. -/
def NamedApart (queues : List String) : Prop :=
  ∀ queue ∈ queues, ¬ LeftoverQueue decl default inventory queue →
    ¬ SweptQueue decl default inventory queue

theorem namedApart_iff (queues : List String) : NamedApart decl default inventory queues ↔
    ∀ queue ∈ queues, SweptQueue decl default inventory queue →
      LeftoverQueue decl default inventory queue := by
  unfold NamedApart
  exact forall₂_congr fun queue _ => not_imp_not

end Queues

/-! ## The three sweeps -/

namespace Rabbitmq

/-- The queue that a call removes. -/
def removedQueue : BrokerCall → Option String
  | .queueDelete queue => some queue
  | _ => none

theorem garbageCollectTempQueues_iff (lib : ManagerCrates) (state : ManagerState)
    (inventory : List ActiveInception) (w : BrokerWorld) (may : String → Prop) :
    (broker.outside Guard.still).Spec (.removing removedQueue may) (fun _ _ => True)
      (fun _ _ => True) (garbageCollectTempQueues lib state inventory) w ↔
    ((managementClient lib state).isOk → ∀ queue ∈ w.queues,
      SweptQueue QueueDeclarationConfig.decode .empty inventory queue → may queue) := by
  unfold garbageCollectTempQueues
  cases hclient : managementClient lib state with
  | error e => simp [Prog.bind_def, Prog.ofExcept, Except.isOk, Except.toBool]
  | ok client =>
    simp only [Prog.bind_def, Prog.ofExcept, Prog.pure_bind, Except.isOk, Except.toBool,
      true_implies]
    have hopens : (openChannel state.amqpUrl).Calls fun c =>
        ∀ queue, removedQueue c = some queue → may queue := by
      refine Prog.Calls.bind (calls_ask (Prog.Calls.of_ask.mpr ?_)) fun _ =>
        calls_ask (Prog.Calls.of_ask.mpr ?_)
      · exact fun _ h => by simp [removedQueue] at h
      · exact fun _ h => by simp [removedQueue] at h
    have hlist : (broker.outside Guard.still).Spec (.removing removedQueue may)
        (fun found _ => ∀ queue ∈ found, queue ∈ w.queues) (fun _ _ => True)
        ((ManagerOp.ask (Prog.ask BrokerCall.listQueues)).bind fun queues =>
          (openChannel state.amqpUrl).bind fun _ => .pure queues) w := by
      refine Outside.Spec.bind (R := fun found _ => ∀ queue ∈ found, queue ∈ w.queues) ?_ ?_
      · refine ⟨fun _ h => by simp [removedQueue] at h, fun a w' hserves => ?_⟩
        obtain ⟨o, -, hserve⟩ := hserves
        refine ⟨trivial, fun w'' _ _ => ?_⟩
        cases o with
        | ok => cases hserve; exact fun _ h => h
        | refused => cases hserve; trivial
        | lost => cases hserve; trivial
      · intro found w' hfound
        exact (Outside.Spec.removing hopens hfound).bind fun _ _ h => h
    have hsweep := Machine.sweep_iff CallOutcome.ok
      (SweptQueue QueueDeclarationConfig.decode .empty inventory) deleteQueue w.queues w hlist
      (fun queue => Prog.Calls.bind (Prog.Calls.of_ask.mpr fun m h => (Option.some.inj h).symm)
        fun _ => trivial)
      rfl completes_deleteQueue
      (fun queue w => ⟨_, List.mem_cons_self, rfl⟩)
    rw [← hsweep]
    simp only [Prog.bind_assoc, Prog.pure_bind]
    rfl

end Rabbitmq

namespace ServiceBus

/-- The queue that a call removes. -/
def removedQueue : BusCall → Option String
  | .deleteQueue queue => some queue
  | _ => none

theorem garbageCollectTempQueues_iff (state : ManagerState) (inventory : List ActiveInception)
    (queues : List String) (may : String → Prop) :
    (bus.outside Guard.still).Spec (.removing removedQueue may) (fun _ _ => True)
      (fun _ _ => True) (garbageCollectTempQueues state inventory) queues ↔
    (state.Deletes → ∀ queue ∈ queues,
      SweptQueue QueueDeclarationConfig.decode .empty inventory queue → may queue) := by
  unfold garbageCollectTempQueues serviceBusClient
  cases hclient : state.client with
  | none =>
    refine ⟨fun _ hdeletes => ?_, fun _ => trivial⟩
    obtain ⟨client, hsome, -⟩ := hdeletes
    simp [hclient] at hsome
  | some client =>
    simp only [Prog.bind_def, Prog.ofExcept, Prog.pure_bind]
    have hlist : (bus.outside Guard.still).Spec (.removing removedQueue may)
        (fun found _ => ∀ queue ∈ found, queue ∈ queues) (fun _ _ => True)
        (ManagerOp.ask (Prog.ask BusCall.listQueues)) queues := by
      refine ⟨fun _ h => by simp [removedQueue] at h, fun a w' hserves => ?_⟩
      obtain ⟨o, -, hserve⟩ := hserves
      refine ⟨trivial, fun w'' _ _ => ?_⟩
      cases o with
      | ok => cases hserve; exact fun _ h => h
      | refused => cases hserve; trivial
      | lost => cases hserve; trivial
    by_cases hdeletes : client.arm.any (!·.deleteQueues)
    · -- the installation keeps the manager from deleting anything
      refine ⟨fun _ hremoves => ?_, fun _ => ?_⟩
      · obtain ⟨client', hsome, hdeletes'⟩ := hremoves
        rw [hclient, Option.some.injEq] at hsome
        exact absurd (hsome ▸ hdeletes) hdeletes'
      · refine hlist.bind fun found w' _ => Outside.Spec.removing (P := True) ?_ trivial
        refine Prog.Calls.forEach fun queue _ => ?_
        rw [deleteQueue, if_pos hdeletes]
        split <;> trivial
    · have hremoves : state.Deletes := ⟨client, hclient, hdeletes⟩
      have hsweep := Machine.sweep_iff CallOutcome.ok
        (SweptQueue QueueDeclarationConfig.decode .empty inventory) (deleteQueue client) queues
        queues hlist
        (fun queue => calls_deleteQueue client fun m h => (Option.some.inj h).symm)
        rfl (completes_deleteQueue client)
        (fun queue w => ⟨_, mem_trace_deleteQueue client hdeletes queue w, rfl⟩)
      rw [← forall_prop_of_true (q := fun _ => ∀ queue ∈ queues,
        SweptQueue QueueDeclarationConfig.decode .empty inventory queue → may queue) hremoves]
        at hsweep
      exact hsweep

end ServiceBus

namespace Nats

/-- The stream that a call removes. -/
def removedStream : StreamCall → Option String
  | .deleteStream stream => some stream
  | _ => none

/-- The stream is the one of a temporary subject. -/
def TemporaryStream (stream : String) : Prop :=
  ∃ id subject, InceptionId.Derived id subject ∧ stream = streamName subject

section Streams

variable (inventory : List ActiveInception)

/-- An inception of the inventory refers to a subject that the stream is the one of. -/
def RefersToStream (stream : String) : Prop :=
  ∃ active ∈ inventory, ∃ config,
    Config.decode (rewriteTempSubjects active.inceptionId active.config) = some config ∧
    ∃ role ∈ subjectRoles, ∃ subject, config.baseSubject role = some subject ∧
      stream = streamName subject

/-- Nobody's own: the stream is temporary, and no inception of the inventory refers to it. -/
def LeftoverStream (stream : String) : Prop :=
  TemporaryStream stream ∧ ¬ RefersToStream inventory stream

/-- What the sweep of streams goes by. -/
def SweptStream (stream : String) : Prop :=
  "fbg_fluidbg".toList.isPrefixOf stream.toList ∧ stream ∉ activeStreamNames inventory

instance : DecidablePred (SweptStream inventory) :=
  fun stream => inferInstanceAs (Decidable ("fbg_fluidbg".toList.isPrefixOf stream.toList ∧
    stream ∉ activeStreamNames inventory))

/-- The streams that are somebody's own are named so that the sweep passes over them. -/
def NamedApart (streams : List String) : Prop :=
  ∀ stream ∈ streams, ¬ LeftoverStream inventory stream → ¬ SweptStream inventory stream

end Streams

theorem namedApart_iff (inventory : List ActiveInception) (streams : List String) :
    NamedApart inventory streams ↔
      ∀ stream ∈ streams, SweptStream inventory stream → LeftoverStream inventory stream := by
  unfold NamedApart
  exact forall₂_congr fun stream _ => not_imp_not

theorem garbageCollectTempStreams_iff (state : ManagerState) (inventory : List ActiveInception)
    (streams : List String) (may : String → Prop) :
    (server.outside Guard.still).Spec (.removing removedStream may) (fun _ _ => True)
      (fun _ _ => True) (garbageCollectTempStreams state inventory) streams ↔
    ∀ stream ∈ streams, SweptStream inventory stream → may stream := by
  have hconnects : (connect state.natsUrl).Calls fun c =>
      ∀ stream, removedStream c = some stream → may stream := by
    refine Prog.Calls.bind (Prog.Calls.of_ask.mpr fun _ h => by simp [removedStream] at h)
      fun r => ?_
    cases r <;> trivial
  have hlist : (server.outside Guard.still).Spec (.removing removedStream may)
      (fun found _ => ∀ stream ∈ found, stream ∈ streams) (fun _ _ => True)
      ((connect state.natsUrl).bind fun _ =>
        ManagerOp.ask (Prog.ask StreamCall.streamNames)) streams := by
    refine (connect_spec (fun _ => trivial) (fun _ _ _ h => by simp [removedStream] at h) _
      streams).bind fun _ w hw => ?_
    refine ⟨fun _ h => by simp [removedStream] at h, fun a w' ⟨o, _, hserve⟩ =>
      ⟨trivial, fun w'' _ _ => ?_⟩⟩
    subst hw
    cases o with
    | ok => cases hserve; exact fun _ h => h
    | refused => cases hserve; trivial
    | lost => cases hserve; trivial
  have hsweep := Machine.sweep_iff CallOutcome.ok (SweptStream inventory) deleteStreamName streams streams
    hlist
    (fun stream => Prog.Calls.bind (Prog.Calls.of_ask.mpr fun m h => (Option.some.inj h).symm)
      fun _ => trivial)
    rfl completes_deleteStreamName (fun stream w => ⟨_, List.mem_cons_self, rfl⟩)
  rw [← hsweep]
  simp only [Prog.bind_assoc]
  rfl

end Nats

/-! ## The theorem -/

/-- **The sweeps remove nothing but leftovers** exactly when whatever is somebody's own has a name
that they pass over: it does not begin with their prefix, or it happens to be in the active set.
Where a manager has no client, or an installation has switched its deletions off, anything goes. -/
theorem sweeps_remove_only_leftovers (inventory : List ActiveInception)
    (lib : Rabbitmq.ManagerCrates) (rabbitmq : Rabbitmq.ManagerState)
    (serviceBus : ServiceBus.ManagerState) (nats : Nats.ManagerState)
    (broker : Rabbitmq.BrokerWorld) (queues streams : List String) :
    ((Rabbitmq.broker.outside Guard.still).Spec
        (.removing Rabbitmq.removedQueue
          (LeftoverQueue Rabbitmq.QueueDeclarationConfig.decode .empty inventory))
        (fun _ _ => True) (fun _ _ => True)
        (Rabbitmq.garbageCollectTempQueues lib rabbitmq inventory) broker ↔
      ((Rabbitmq.managementClient lib rabbitmq).isOk →
        NamedApart Rabbitmq.QueueDeclarationConfig.decode .empty inventory broker.queues)) ∧
    ((ServiceBus.bus.outside Guard.still).Spec
        (.removing ServiceBus.removedQueue
          (LeftoverQueue ServiceBus.QueueDeclarationConfig.decode .empty inventory))
        (fun _ _ => True) (fun _ _ => True)
        (ServiceBus.garbageCollectTempQueues serviceBus inventory) queues ↔
      (serviceBus.Deletes →
        NamedApart ServiceBus.QueueDeclarationConfig.decode .empty inventory queues)) ∧
    ((Nats.server.outside Guard.still).Spec
        (.removing Nats.removedStream (Nats.LeftoverStream inventory))
        (fun _ _ => True) (fun _ _ => True)
        (Nats.garbageCollectTempStreams nats inventory) streams ↔
      Nats.NamedApart inventory streams) := by
  refine ⟨?_, ?_, ?_⟩
  · rw [Rabbitmq.garbageCollectTempQueues_iff, namedApart_iff]
  · rw [ServiceBus.garbageCollectTempQueues_iff, namedApart_iff]
  · rw [Nats.garbageCollectTempStreams_iff, Nats.namedApart_iff]

/-! ### A base queue that begins with the prefix -/

section Sample

open Sample

/-- A duplicator of a queue that its application calls `fluidbg-orders`. -/
def prefixedQueue : Json :=
  .obj [("duplicator", .obj [("inputQueue", .str "fluidbg-orders")])]

/-- The same on NATS, where the stream of a subject keeps neither dots nor spaces. -/
def prefixedSubject : Json :=
  .obj [("duplicator", .obj [("inputSubject", .str "fluid.bg.orders")])]

/-- The next sweep deletes the base queue of an inception that is in the inventory, and the stream
of a base subject. -/
theorem base_queue_is_swept :
    RefersToQueue Rabbitmq.QueueDeclarationConfig.decode .empty
      [active ordersClaims ["duplicator"] prefixedQueue] "fluidbg-orders" ∧
    (Rabbitmq.broker.eval .ok (Rabbitmq.garbageCollectTempQueues Rabbitmq.sampleCrates
      Rabbitmq.sampleState [active ordersClaims ["duplicator"] prefixedQueue])
      ⟨[], ["fluidbg-orders", "payments"]⟩).map (·.2.queues) = some ["payments"] ∧
    RefersToQueue ServiceBus.QueueDeclarationConfig.decode .empty
      [active ordersClaims ["duplicator"] prefixedQueue] "fluidbg-orders" ∧
    (ServiceBus.bus.eval .ok (ServiceBus.garbageCollectTempQueues ServiceBus.sampleState
      [active ordersClaims ["duplicator"] prefixedQueue])
      ["fluidbg-orders", "payments"]).map (·.2) = some ["payments"] ∧
    Nats.RefersToStream [active ordersClaims ["duplicator"] prefixedSubject]
      (Nats.streamName "fluid.bg.orders") ∧
    (Nats.server.eval .ok (Nats.garbageCollectTempStreams Nats.sampleState
      [active ordersClaims ["duplicator"] prefixedSubject])
      [Nats.streamName "fluid.bg.orders", Nats.streamName "payments"]).map (·.2) =
        some [Nats.streamName "payments"] := by
  refine ⟨⟨_, List.mem_singleton_self _, by decide +kernel⟩, by decide +kernel,
    ⟨_, List.mem_singleton_self _, by decide +kernel⟩, by decide +kernel, ?_, by decide +kernel⟩
  refine ⟨_, List.mem_singleton_self _, _, rfl, .duplicator, List.mem_cons_self,
    "fluid.bg.orders", by decide +kernel, rfl⟩

end Sample

end FluidBG
