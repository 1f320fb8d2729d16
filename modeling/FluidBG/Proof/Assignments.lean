import FluidBG.Lib.Assigned
import FluidBG.Plugins.Nats
import FluidBG.Plugins.Rabbitmq
import FluidBG.Plugins.Sample
import FluidBG.Plugins.ServiceBus
/-!
# What drain puts back

`build_prepare_assignments` and `build_drain_assignments` are two lists that are written side by
side. Here both are read off one list, the wiring of the configuration: which variable a block
names, the temporary value and the base value that go with it. A drain undoes a prepare exactly when
the two values come together.
-/

set_option autoImplicit false

namespace FluidBG

open Lib

/-! ## Wirings -/

/-- A variable that a configuration may name, with its value during a rollout and outside of one. -/
structure Wiring where
  target : AssignmentTarget
  envVar : Option String
  temporary : Option String
  base : Option String
  deriving DecidableEq

/-- A variable of the containers of a Deployment. -/
abbrev Variable : Type := AssignmentTarget × String

def PropertyAssignment.variable (a : PropertyAssignment) : Variable := (a.target, a.name)

def PropertyAssignment.entry (a : PropertyAssignment) : Variable × String := (a.variable, a.value)

namespace Wiring

/-- The wiring is of this variable. -/
def Names (w : Wiring) (v : Variable) : Prop := w.target = v.1 ∧ w.envVar = some v.2

instance (w : Wiring) (v : Variable) : Decidable (w.Names v) := inferInstanceAs (Decidable (_ ∧ _))

/-- The assignment of a value, which takes a variable and a value. -/
def assign (w : Wiring) (value : Option String) : List PropertyAssignment :=
  pushQueueAssignment w.target w.envVar value

theorem mem_assign {w : Wiring} {value : Option String} {a : PropertyAssignment} :
    a ∈ w.assign value ↔ w.Names a.variable ∧ value = some a.value ∧ a.containerName = none := by
  obtain ⟨target, kind, name, v, containerName⟩ := a
  unfold assign pushQueueAssignment Names PropertyAssignment.variable
  cases w.envVar with
  | none => simp
  | some envVar =>
    cases value with
    | none => simp
    | some value =>
      cases kind
      simp only [List.mem_singleton, PropertyAssignment.mk.injEq, Option.some.injEq]
      constructor
      · rintro ⟨rfl, -, rfl, rfl, rfl⟩
        exact ⟨⟨rfl, rfl⟩, rfl, rfl⟩
      · rintro ⟨⟨rfl, rfl⟩, rfl, rfl⟩
        exact ⟨rfl, trivial, rfl, rfl, rfl⟩

end Wiring

/-- What a list of wirings assigns, for a choice of the value. -/
def wire (value : Wiring → Option String) (wiring : List Wiring) : List PropertyAssignment :=
  wiring.flatMap fun w => w.assign (value w)

theorem mem_wire {value : Wiring → Option String} {wiring : List Wiring} {a : PropertyAssignment} :
    a ∈ wire value wiring ↔ ∃ w ∈ wiring, w.Names a.variable ∧ value w = some a.value ∧
      a.containerName = none := by
  simp only [wire, List.mem_flatMap, Wiring.mem_assign]

theorem mem_variables_wire {value : Wiring → Option String} {wiring : List Wiring} {v : Variable} :
    v ∈ (wire value wiring).map PropertyAssignment.variable ↔
      ∃ w ∈ wiring, w.Names v ∧ (value w).isSome := by
  simp only [List.mem_map, mem_wire]
  constructor
  · rintro ⟨a, ⟨w, hw, hnames, hvalue, -⟩, rfl⟩
    exact ⟨w, hw, hnames, by rw [hvalue]; rfl⟩
  · rintro ⟨w, hw, hnames, hvalue⟩
    obtain ⟨x, hx⟩ := Option.isSome_iff_exists.mp hvalue
    exact ⟨⟨v.1, .env, v.2, x, none⟩, ⟨w, hw, hnames, hx, rfl⟩, rfl⟩

/-! ## Undoing -/

/-- The drain undoes the prepare: both assign the same variables, the drain gives each the base
value of every wiring that the prepare has changed, and so an application that ran on its base
values runs on them again. -/
structure Undoes (wiring : List Wiring) (prepare drain : List PropertyAssignment) : Prop where
  same : ∀ v, v ∈ prepare.map PropertyAssignment.variable ↔
    v ∈ drain.map PropertyAssignment.variable
  base : ∀ a ∈ drain, ∀ w ∈ wiring, w.Names a.variable → w.temporary.isSome →
    w.base = some a.value
  restores : ∀ env : Variable → Option String,
    (∀ w ∈ wiring, ∀ v, w.Names v → w.temporary.isSome → env v = w.base) →
      assignAll (assignAll env (prepare.map PropertyAssignment.entry))
        (drain.map PropertyAssignment.entry) = env

/-- Every named variable has a temporary value and a base value, or neither; wirings that share a
variable share the base value. -/
def Reversible (wiring : List Wiring) : Prop :=
  ∀ w ∈ wiring, ∀ name ∈ w.envVar,
    (w.temporary.isSome → w.base.isSome ∧
      ∀ w' ∈ wiring, w'.Names (w.target, name) → w'.base.isSome → w'.base = w.base) ∧
    (w.base.isSome → ∃ w' ∈ wiring, w'.Names (w.target, name) ∧ w'.temporary.isSome)

instance (wiring : List Wiring) : Decidable (Reversible wiring) :=
  inferInstanceAs (Decidable (∀ w ∈ wiring, ∀ name ∈ w.envVar, _))

theorem Undoes.reversible {wiring : List Wiring}
    (h : Undoes wiring (wire Wiring.temporary wiring) (wire Wiring.base wiring)) :
    Reversible wiring := by
  intro w hw name hname
  have hnames : w.Names (w.target, name) := ⟨rfl, hname⟩
  refine ⟨fun htemporary => ?_, fun hbase => ?_⟩
  · -- the drain assigns the variable as well, and from some wiring
    have hprepared := (h.same _).mp (mem_variables_wire.mpr ⟨w, hw, hnames, htemporary⟩)
    obtain ⟨a, ha, hvariable⟩ := List.mem_map.mp hprepared
    have hbase := h.base a ha w hw (by rw [hvariable]; exact hnames) htemporary
    refine ⟨by rw [hbase]; rfl, fun w' hw' hnames' hbase' => ?_⟩
    obtain ⟨x, hx⟩ := Option.isSome_iff_exists.mp hbase'
    have ha' : (⟨w.target, .env, name, x, none⟩ : PropertyAssignment) ∈ wire Wiring.base wiring :=
      mem_wire.mpr ⟨w', hw', hnames', hx, rfl⟩
    rw [hx, h.base _ ha' w hw hnames htemporary]
  · obtain ⟨w', hw', hnames', htemporary⟩ := mem_variables_wire.mp
      ((h.same _).mpr (mem_variables_wire.mpr ⟨w, hw, hnames, hbase⟩))
    exact ⟨w', hw', hnames', htemporary⟩

/-- A variable that is assigned by a wiring is changed to one of its values only. -/
theorem assigned_wire {value : Wiring → Option String} {wiring : List Wiring} {v : Variable}
    {x : String} (h : assigned v ((wire value wiring).map PropertyAssignment.entry) = some x) :
    ∃ w ∈ wiring, w.Names v ∧ value w = some x := by
  obtain ⟨a, ha, hentry⟩ := List.mem_map.mp (mem_of_assigned h)
  cases hentry
  obtain ⟨w, hw, hnames, hvalue, -⟩ := mem_wire.mp ha
  exact ⟨w, hw, hnames, hvalue⟩

theorem Reversible.undoes {wiring : List Wiring} (h : Reversible wiring) :
    Undoes wiring (wire Wiring.temporary wiring) (wire Wiring.base wiring) where
  same v := by
    rw [mem_variables_wire, mem_variables_wire]
    constructor
    · rintro ⟨w, hw, ⟨htarget, hname⟩, htemporary⟩
      exact ⟨w, hw, ⟨htarget, hname⟩, ((h w hw v.2 hname).1 htemporary).1⟩
    · rintro ⟨w, hw, ⟨htarget, hname⟩, hbase⟩
      obtain ⟨w', hw', hnames', htemporary⟩ := (h w hw v.2 hname).2 hbase
      rw [htarget] at hnames'
      exact ⟨w', hw', hnames', htemporary⟩
  base a ha w hw hnames htemporary := by
    obtain ⟨w', hw', hnames', hvalue, -⟩ := mem_wire.mp ha
    have hshared := ((h w hw a.name hnames.2).1 htemporary).2 w' hw'
      (by rw [hnames.1]; exact hnames') (by rw [hvalue]; rfl)
    rw [← hshared, hvalue]
  restores env henv := by
    funext v
    unfold assignAll
    cases hdrain : assigned v ((wire Wiring.base wiring).map PropertyAssignment.entry) with
    | some x =>
      -- the drain has the last word, and it speaks for a wiring that prepare has changed
      obtain ⟨w, hw, ⟨htarget, hname⟩, hbase⟩ := assigned_wire hdrain
      obtain ⟨w', hw', hnames', htemporary⟩ := (h w hw v.2 hname).2 (by rw [hbase]; rfl)
      rw [htarget] at hnames'
      have hshared := ((h w' hw' v.2 hnames'.2).1 htemporary).2 w hw
        ⟨htarget.trans hnames'.1.symm, hname⟩ (by rw [hbase]; rfl)
      show some x = env v
      rw [henv w' hw' v hnames' htemporary, ← hshared, hbase]
    | none =>
      cases hprepare :
          assigned v ((wire Wiring.temporary wiring).map PropertyAssignment.entry) with
      | none => rfl
      | some x =>
        -- what prepare changes has a base value, so the drain cannot be silent
        obtain ⟨w, hw, ⟨htarget, hname⟩, htemporary⟩ := assigned_wire hprepare
        obtain ⟨hsome, -⟩ := (h w hw v.2 hname).1 (by rw [htemporary]; rfl)
        obtain ⟨y, hy⟩ := Option.isSome_iff_exists.mp hsome
        have hmem : (⟨v.1, .env, v.2, y, none⟩ : PropertyAssignment) ∈ wire Wiring.base wiring :=
          mem_wire.mpr ⟨w, hw, ⟨htarget, hname⟩, hy, rfl⟩
        exact absurd rfl (assigned_eq_none.mp hdrain _ (List.mem_map_of_mem hmem))

/-- **A drain undoes a prepare exactly when the wiring is reversible.** -/
theorem undoes_wire_iff {wiring : List Wiring} :
    Undoes wiring (wire Wiring.temporary wiring) (wire Wiring.base wiring) ↔ Reversible wiring :=
  ⟨Undoes.reversible, Reversible.undoes⟩

/-! ## The queue plugins -/

section Queues

variable {D : Type}

def InputRoleConfig.wiring (block : InputRoleConfig) : List Wiring :=
  [⟨.green, block.greenInputQueueEnvVar, block.greenInputQueue, block.inputQueue⟩,
    ⟨.blue, block.blueInputQueueEnvVar, block.blueInputQueue, block.inputQueue⟩]

def CombinerConfig.wiring (block : CombinerConfig) : List Wiring :=
  [⟨.green, block.greenOutputQueueEnvVar, block.greenOutputQueue, block.outputQueue⟩,
    ⟨.blue, block.blueOutputQueueEnvVar, block.blueOutputQueue, block.outputQueue⟩]

/-- The wiring of the blocks whose roles the plugin has. -/
def QueueConfig.wiring (config : QueueConfig D) (roles : List PluginRole) : List Wiring :=
  (if hasRole roles .duplicator then (config.duplicator.map (·.wiring)).getD [] else []) ++
    (if hasRole roles .splitter then (config.splitter.map (·.wiring)).getD [] else []) ++
    (if hasRole roles .combiner then (config.combiner.map (·.wiring)).getD [] else [])

theorem wire_append (value : Wiring → Option String) (xs ys : List Wiring) :
    wire value (xs ++ ys) = wire value xs ++ wire value ys :=
  List.flatMap_append

theorem queueAssignments_eq_wire (config : QueueConfig D) (roles : List PluginRole)
    (value : Wiring → Option String) (input : InputRoleConfig → Option String × Option String)
    (output : CombinerConfig → Option String × Option String)
    (hinput : ∀ block, wire value block.wiring =
      pushQueueAssignment .green block.greenInputQueueEnvVar (input block).1 ++
        pushQueueAssignment .blue block.blueInputQueueEnvVar (input block).2)
    (houtput : ∀ block, wire value block.wiring =
      pushQueueAssignment .green block.greenOutputQueueEnvVar (output block).1 ++
        pushQueueAssignment .blue block.blueOutputQueueEnvVar (output block).2) :
    queueAssignments config roles input output = wire value (config.wiring roles) := by
  have hblock : ∀ (role : PluginRole) (block : Option InputRoleConfig),
      wire value (if hasRole roles role then (block.map (·.wiring)).getD [] else []) =
        if hasRole roles role then (block.map fun b => wire value b.wiring).getD [] else [] := by
    intro role block
    split
    · cases block <;> rfl
    · rfl
  have hcombiner : wire value
      (if hasRole roles .combiner then (config.combiner.map (·.wiring)).getD [] else []) =
        if hasRole roles .combiner then
          (config.combiner.map fun b => wire value b.wiring).getD [] else [] := by
    split
    · cases config.combiner <;> rfl
    · rfl
  unfold QueueConfig.wiring queueAssignments
  rw [wire_append, wire_append, hblock, hblock, hcombiner]
  simp only [hinput, houtput]
  cases config.duplicator <;> cases config.splitter <;> cases config.combiner <;> rfl

theorem prepareQueueAssignments_eq (config : QueueConfig D) (roles : List PluginRole) :
    prepareQueueAssignments config roles = wire Wiring.temporary (config.wiring roles) :=
  queueAssignments_eq_wire config roles _ _ _
    (fun block => by simp [wire, InputRoleConfig.wiring, Wiring.assign])
    fun block => by simp [wire, CombinerConfig.wiring, Wiring.assign]

theorem buildDrainAssignments_eq (config : QueueConfig D) (roles : List PluginRole) :
    buildDrainAssignments config roles = wire Wiring.base (config.wiring roles) :=
  queueAssignments_eq_wire config roles _ _ _
    (fun block => by simp [wire, InputRoleConfig.wiring, Wiring.assign])
    fun block => by simp [wire, CombinerConfig.wiring, Wiring.assign]

end Queues

/-- The queue roles that exclude each other leave one block at most. -/
theorem one_block {roles : List PluginRole} (h : checkRoles roles = .ok ()) :
    (hasRole roles .duplicator = false ∧ hasRole roles .splitter = false) ∨
      (hasRole roles .duplicator = false ∧ hasRole roles .combiner = false) ∨
      (hasRole roles .splitter = false ∧ hasRole roles .combiner = false) := by
  unfold checkRoles queueWorkerRole at h
  simp only [hasRole, decide_eq_false_iff_not]
  by_cases hduplicator : PluginRole.duplicator ∈ roles
  · by_cases hsplitter : PluginRole.splitter ∈ roles
    · simp [hduplicator, hsplitter] at h
    · by_cases hcombiner : PluginRole.combiner ∈ roles
      · simp [hduplicator, hsplitter, hcombiner] at h
      · exact .inr (.inr ⟨hsplitter, hcombiner⟩)
  · by_cases hsplitter : PluginRole.splitter ∈ roles
    · by_cases hcombiner : PluginRole.combiner ∈ roles
      · simp [hduplicator, hsplitter, hcombiner] at h
      · exact .inr (.inl ⟨hduplicator, hcombiner⟩)
    · exact .inl ⟨hduplicator, hsplitter⟩

/-- A drain of a queue plugin reaches one variable of the green deployment at most. -/
theorem wiring_green {D : Type} {config : QueueConfig D} {roles : List PluginRole}
    (h : checkRoles roles = .ok ()) {w w' : Wiring} (hw : w ∈ config.wiring roles)
    (hw' : w' ∈ config.wiring roles) (hgreen : w.target = .green) (hgreen' : w'.target = .green) :
    w = w' := by
  have hinput : ∀ block : Option InputRoleConfig, ∀ w ∈ (block.map (·.wiring)).getD [],
      ∀ w' ∈ (block.map (·.wiring)).getD [], w.target = .green → w'.target = .green → w = w' := by
    rintro (_ | block) w hw w' hw' hgreen hgreen'
    · cases hw
    · simp only [Option.map_some, Option.getD_some, InputRoleConfig.wiring, List.mem_cons,
        List.not_mem_nil, or_false] at hw hw'
      rcases hw with rfl | rfl <;> rcases hw' with rfl | rfl <;> simp_all
  have houtput : ∀ block : Option CombinerConfig, ∀ w ∈ (block.map (·.wiring)).getD [],
      ∀ w' ∈ (block.map (·.wiring)).getD [], w.target = .green → w'.target = .green → w = w' := by
    rintro (_ | block) w hw w' hw' hgreen hgreen'
    · cases hw
    · simp only [Option.map_some, Option.getD_some, CombinerConfig.wiring, List.mem_cons,
        List.not_mem_nil, or_false] at hw hw'
      rcases hw with rfl | rfl <;> rcases hw' with rfl | rfl <;> simp_all
  unfold QueueConfig.wiring at hw hw'
  rcases one_block h with ⟨h₁, h₂⟩ | ⟨h₁, h₂⟩ | ⟨h₁, h₂⟩
  · simp only [h₁, h₂, Bool.false_eq_true, if_false, List.nil_append] at hw hw'
    split at hw
    · rw [if_pos (by assumption)] at hw'
      exact houtput _ w hw w' hw' hgreen hgreen'
    · cases hw
  · simp only [h₁, h₂, Bool.false_eq_true, if_false, List.nil_append, List.append_nil] at hw hw'
    split at hw
    · rw [if_pos (by assumption)] at hw'
      exact hinput _ w hw w' hw' hgreen hgreen'
    · cases hw
  · simp only [h₁, h₂, Bool.false_eq_true, if_false, List.append_nil] at hw hw'
    split at hw
    · rw [if_pos (by assumption)] at hw'
      exact hinput _ w hw w' hw' hgreen hgreen'
    · cases hw

namespace Rabbitmq

/-- The variables about the declaration of a temporary queue are set by every prepare, and there are
more of them than a drain can reach. -/
theorem not_undoes (lib : ManagerCrates) (config : Config) {roles : List PluginRole}
    (h : checkRoles roles = .ok ()) :
    ¬ Undoes (config.wiring roles) (buildPrepareAssignments lib config roles)
      (buildDrainAssignments config roles) := by
  intro hundoes
  have hset : ∀ name ∈ ["AMQP_TEMP_QUEUE_DURABLE", "AMQP_TEMP_QUEUE_ARGUMENTS_JSON"],
      ∃ w ∈ config.wiring roles, w.Names (.green, name) := by
    intro name hname
    have hprepared : ((.green, name) : Variable) ∈
        (buildPrepareAssignments lib config roles).map PropertyAssignment.variable := by
      simp only [List.mem_cons, List.not_mem_nil, or_false] at hname
      rcases hname with rfl | rfl <;>
        simp [buildPrepareAssignments, declarationAssignments, PropertyAssignment.variable]
    have hdrained := (hundoes.same _).mp hprepared
    rw [buildDrainAssignments_eq] at hdrained
    obtain ⟨w, hw, hnames, -⟩ := mem_variables_wire.mp hdrained
    exact ⟨w, hw, hnames⟩
  obtain ⟨w, hw, hgreen, hname⟩ := hset "AMQP_TEMP_QUEUE_DURABLE" (by simp)
  obtain ⟨w', hw', hgreen', hname'⟩ := hset "AMQP_TEMP_QUEUE_ARGUMENTS_JSON" (by simp)
  rw [wiring_green h hw hw' hgreen hgreen', hname'] at hname
  exact absurd hname (by decide)

end Rabbitmq

/-! ## NATS -/

namespace Nats

def InputRoleConfig.wiring (block : InputRoleConfig) : List Wiring :=
  [⟨.green, block.greenInputSubjectEnvVar, block.greenInputSubject, block.inputSubject⟩,
    ⟨.blue, block.blueInputSubjectEnvVar, block.blueInputSubject, block.inputSubject⟩,
    ⟨.green, block.greenQueueGroupEnvVar, block.greenQueueGroup, block.queueGroup⟩,
    ⟨.blue, block.blueQueueGroupEnvVar, block.blueQueueGroup, block.queueGroup⟩]

def CombinerConfig.wiring (block : CombinerConfig) : List Wiring :=
  [⟨.green, block.greenOutputSubjectEnvVar, block.greenOutputSubject, block.outputSubject⟩,
    ⟨.blue, block.blueOutputSubjectEnvVar, block.blueOutputSubject, block.outputSubject⟩]

/-- The wiring of the blocks whose roles the plugin has. -/
def Config.wiring (config : Config) (roles : List PluginRole) : List Wiring :=
  (if hasRole roles .duplicator then (config.duplicator.map (·.wiring)).getD [] else []) ++
    (if hasRole roles .splitter then (config.splitter.map (·.wiring)).getD [] else []) ++
    (if hasRole roles .combiner then (config.combiner.map (·.wiring)).getD [] else [])

theorem buildPrepareAssignments_eq (config : Config) (roles : List PluginRole) :
    buildPrepareAssignments config roles = wire Wiring.temporary (config.wiring roles) := by
  have hpush : pushSubjectAssignment = pushQueueAssignment := rfl
  have hinput : ∀ block : InputRoleConfig, inputAssignments block block.greenInputSubject
      block.blueInputSubject block.greenQueueGroup block.blueQueueGroup =
        wire Wiring.temporary block.wiring := by
    intro block
    simp [inputAssignments, wire, InputRoleConfig.wiring, Wiring.assign, hpush]
  have houtput : ∀ block : CombinerConfig,
      pushSubjectAssignment .green block.greenOutputSubjectEnvVar block.greenOutputSubject ++
        pushSubjectAssignment .blue block.blueOutputSubjectEnvVar block.blueOutputSubject =
        wire Wiring.temporary block.wiring := by
    intro block
    simp [wire, CombinerConfig.wiring, Wiring.assign, hpush]
  unfold buildPrepareAssignments Config.wiring
  simp only [hinput, houtput, wire_append]
  congr 1
  · congr 1
    · split
      · cases config.duplicator <;> rfl
      · rfl
    · split
      · cases config.splitter <;> rfl
      · rfl
  · split
    · cases config.combiner <;> rfl
    · rfl

theorem buildDrainAssignments_eq (config : Config) (roles : List PluginRole) :
    buildDrainAssignments config roles = wire Wiring.base (config.wiring roles) := by
  have hpush : pushSubjectAssignment = pushQueueAssignment := rfl
  have hinput : ∀ block : InputRoleConfig, inputAssignments block block.inputSubject
      block.inputSubject block.queueGroup block.queueGroup = wire Wiring.base block.wiring := by
    intro block
    simp [inputAssignments, wire, InputRoleConfig.wiring, Wiring.assign, hpush]
  have houtput : ∀ block : CombinerConfig,
      pushSubjectAssignment .green block.greenOutputSubjectEnvVar block.outputSubject ++
        pushSubjectAssignment .blue block.blueOutputSubjectEnvVar block.outputSubject =
        wire Wiring.base block.wiring := by
    intro block
    simp [wire, CombinerConfig.wiring, Wiring.assign, hpush]
  unfold buildDrainAssignments Config.wiring
  simp only [hinput, houtput, wire_append]
  congr 1
  · congr 1
    · split
      · cases config.duplicator <;> rfl
      · rfl
    · split
      · cases config.splitter <;> rfl
      · rfl
  · split
    · cases config.combiner <;> rfl
    · rfl

end Nats

/-! ## The three plugins -/

/-- **A drain undoes a prepare**, of NATS and of Azure Service Bus, exactly when the wiring of the
configuration is reversible; of RabbitMQ it never does. -/
theorem drain_undoes_prepare_iff (roles : List PluginRole) (h : checkRoles roles = .ok ()) :
    (∀ (lib : Rabbitmq.ManagerCrates) (config : Rabbitmq.Config),
      ¬ Undoes (config.wiring roles) (Rabbitmq.buildPrepareAssignments lib config roles)
        (buildDrainAssignments config roles)) ∧
    (∀ config : ServiceBus.Config,
      Undoes (config.wiring roles) (prepareQueueAssignments config roles)
        (buildDrainAssignments config roles) ↔ Reversible (config.wiring roles)) ∧
    (∀ config : Nats.Config,
      Undoes (config.wiring roles) (Nats.buildPrepareAssignments config roles)
        (Nats.buildDrainAssignments config roles) ↔ Reversible (config.wiring roles)) := by
  refine ⟨fun lib config => Rabbitmq.not_undoes lib config h, fun config => ?_, fun config => ?_⟩
  · rw [prepareQueueAssignments_eq, buildDrainAssignments_eq]
    exact undoes_wire_iff
  · rw [Nats.buildPrepareAssignments_eq, Nats.buildDrainAssignments_eq]
    exact undoes_wire_iff

namespace Sample

/-- A duplicator of the queue `orders`, as the manager returns its configuration. -/
def returnedQueueConfig : Rabbitmq.Config :=
  (Rabbitmq.securedConfigFromClaims ordersClaims (request ["duplicator"]
    (.obj [("duplicator", .obj [("inputQueue", .str "orders"),
      ("greenInputQueueEnvVar", .str "ORDERS_QUEUE"),
      ("blueInputQueueEnvVar", .str "ORDERS_QUEUE")])]) [])).2

/-- A duplicator of the subject `orders` for the members of a queue group. -/
def returnedSubjectConfig : Nats.Config :=
  (Nats.securedConfigFromClaims ordersClaims (request ["duplicator"]
    (.obj [("duplicator", .obj [("inputSubject", .str "orders"), ("queueGroup", .str "workers"),
      ("greenQueueGroup", .str "workers-green"),
      ("greenInputSubjectEnvVar", .str "ORDERS_SUBJECT"),
      ("blueInputSubjectEnvVar", .str "ORDERS_SUBJECT"),
      ("greenQueueGroupEnvVar", .str "ORDERS_GROUP")])]) [])).2

end Sample

/-- The green deployment has its subject and its queue group back. -/
theorem drain_undoes_prepare_subjects :
    Undoes (Sample.returnedSubjectConfig.wiring [.duplicator])
      (Nats.buildPrepareAssignments Sample.returnedSubjectConfig [.duplicator])
      (Nats.buildDrainAssignments Sample.returnedSubjectConfig [.duplicator]) :=
  ((drain_undoes_prepare_iff [.duplicator] (by decide)).2.2 _).mpr (by decide +kernel)

/-- What prepare says about the declaration of the temporary queue stays with the application. -/
theorem declaration_variables_stay :
    ¬ ∀ (lib : Rabbitmq.ManagerCrates) (config : Rabbitmq.Config) (roles : List PluginRole),
      checkRoles roles = .ok () →
      Undoes (config.wiring roles) (Rabbitmq.buildPrepareAssignments lib config roles)
        (buildDrainAssignments config roles) := by
  intro hall
  have hsame := (hall ⟨Sample.managerCrates, fun _ => none, fun _ => "\x7b\x7d"⟩
    Sample.returnedQueueConfig [.duplicator] (by decide)).same (.green, "AMQP_TEMP_QUEUE_DURABLE")
  exact absurd (hsame.mp (by decide +kernel)) (by decide +kernel)

end FluidBG
