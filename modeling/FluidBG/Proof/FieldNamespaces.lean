import FluidBG.Proof.HttpReadings
import FluidBG.Proof.QueueReadings
import FluidBG.Plugins.Sample
/-!
# The fields of accepted filters

`validate_inception_point` checks the roles of an inception point and its configuration against the
schema of the plugin. `validate_field_namespace` is there for the fields of its filters, and nothing
calls it; the schemas of the built-in plugins only say that a test id is an object and a list of
conditions an array. So what the filters of an accepted inception point can match is what their
fields happen to be, and this is the exact account of it.
-/

set_option autoImplicit false

namespace FluidBG

open Lib

/-! ## Fields -/

/-- The field is of this namespace. -/
def InNamespace (field ns : String) : Prop :=
  '.' ∉ ns.toList ∧ (field = ns ∨ ns.toList ++ ['.'] <+: field.toList)

/-- A field is of the namespace before its first dot. -/
theorem inNamespace_iff {field ns : String} : InNamespace field ns ↔ fieldNamespace field = ns := by
  unfold InNamespace fieldNamespace
  constructor
  · intro h
    obtain ⟨hdot, h⟩ := h
    have htake : field.toList.takeWhile (· ≠ '.') = ns.toList := by
      rcases h with rfl | ⟨rest, hrest⟩
      · refine List.takeWhile_eq_self_iff.mpr fun c hc => ?_
        have hne : c ≠ '.' := fun heq => hdot (heq ▸ hc)
        simpa using hne
      · rw [← hrest, List.append_assoc]
        exact takeWhile_ne_append hdot rest
    rw [htake, String.ofList_toList]
  · intro h
    subst h
    rw [String.toList_ofList]
    refine ⟨not_mem_takeWhile_ne '.' _, ?_⟩
    have hsplit := List.takeWhile_append_dropWhile (p := (· ≠ '.')) (l := field.toList)
    rcases dropWhile_ne_cases '.' field.toList with hrest | ⟨rest, hrest⟩
    · left
      rw [hrest, List.append_nil] at hsplit
      rw [hsplit, String.ofList_toList]
    · right
      rw [hrest] at hsplit
      exact ⟨rest, by simpa using hsplit⟩

/-- The fields of a test id, or of the conditions of a filter. -/
def ownFields (key : String) (v : Json) : List String :=
  if key = "testId" then ((v.get "field").bind Json.asStr).toList
  else if key = "match" then match v with
    | .arr conditions => conditions.filterMap fun c => (c.get "field").bind Json.asStr
    | _ => []
  else []

mutual

/-- The fields that a configuration uses, wherever its test ids and its filters stand. -/
def Json.usedFields : Json → List String
  | .obj fields => usedFieldsOf fields
  | .arr xs => usedFieldsIn xs
  | _ => []

def Json.usedFieldsOf : List (String × Json) → List String
  | [] => []
  | (key, v) :: fields => ownFields key v ++ v.usedFields ++ usedFieldsOf fields

def Json.usedFieldsIn : List Json → List String
  | [] => []
  | v :: xs => v.usedFields ++ usedFieldsIn xs

end

/-! ## The built-in plugins -/

inductive BuiltinPlugin where
  | http
  | rabbitmq
  | azureServicebus
  | nats
  deriving DecidableEq, Repr

/-- The configuration of an inception point, as the crate of its plugin reads it. -/
inductive InceptorConfig where
  | http (config : Http.Config)
  | rabbitmq (config : Rabbitmq.Config)
  | azureServicebus (config : ServiceBus.Config)
  | nats (config : Nats.Config)

def BuiltinPlugin.decode : BuiltinPlugin → Json → Option InceptorConfig
  | .http, config => (Http.Config.decode config).map .http
  | .rabbitmq, config => (Rabbitmq.Config.decode config).map .rabbitmq
  | .azureServicebus, config => (ServiceBus.Config.decode config).map .azureServicebus
  | .nats, config => (Nats.Config.decode config).map .nats

namespace InceptorConfig

/-- The observer of a queue plugin. -/
def observer : InceptorConfig → Option ObserverConfig
  | .http _ => none
  | .rabbitmq config => config.observer
  | .azureServicebus config => config.observer
  | .nats config => config.observer

def selectors : InceptorConfig → List TestIdSelector
  | .http config => config.testId.toList
  | config => config.observer.toList.flatMap fun observer => observer.testId.toList

def conditions : InceptorConfig → List FilterCondition
  | .http config => config.conditions ++ config.allFilters.flatMap (·.conditions)
  | config => config.observer.toList.flatMap (·.conditions)

def usedFields (config : InceptorConfig) : List String :=
  config.selectors.filterMap (·.field) ++ config.conditions.map (·.field)

section Inputs

variable (crate : Http.HttpCrate) (crates : WorkerCrates)

/-- Some input has a test id for the selector. -/
def ResolvesSelector (config : InceptorConfig) (selector : TestIdSelector) : Prop :=
  match config with
  | .http _ => ∃ (body : Json) (path : String) (headers : Http.HeaderMap crate),
      (Http.extractTestId selector body path headers).isSome
  | .rabbitmq _ => ∃ body message, (Rabbitmq.extractTestId selector body message).isSome
  | .azureServicebus _ => ∃ body message, (ServiceBus.extractTestId selector body message).isSome
  | .nats _ => ∃ body, (Nats.extractTestId selector body).isSome

/-- Some input has a value for the field of the condition. -/
def ResolvesCondition (config : InceptorConfig) (c : FilterCondition) : Prop :=
  match config with
  | .http _ => ∃ (method path : String) (headers : Http.HeaderMap crate) (body : Json),
      (Http.resolveHttpField method path body headers.get c).isSome
  | .rabbitmq _ => ∃ body message,
      (queueField ["queue.body"] ["queue.property."] c.field c.jsonPath body message).isSome
  | .azureServicebus _ => ∃ body message,
      (queueField ["queue.body", "servicebus.body"] ["queue.property.", "servicebus.property."]
        c.field c.jsonPath body message).isSome
  | .nats _ => ∃ body, (Nats.resolveField crates c body).isSome

/-- The filters of the observer match some input. -/
def ObserverMatches (config : InceptorConfig) : Prop :=
  match config with
  | .http config => ∃ (method path : String) (headers : Http.HeaderMap crate) (body : Json),
      Http.matched crates.isMatch config method path headers body = true
  | .rabbitmq config => ∀ observer ∈ config.observer, ∃ body message,
      Rabbitmq.matchesFilter crates observer.conditions body message = true
  | .azureServicebus config => ∀ observer ∈ config.observer, ∃ body message,
      ServiceBus.matchesFilter crates observer.conditions body message = true
  | .nats config => ∀ observer ∈ config.observer, ∃ body,
      Nats.matchesFilter crates observer.conditions body = true

/-! ## What has to be true of a configuration -/

/-- The selector is one that its crate can read. -/
def SelectorReads (config : InceptorConfig) (selector : TestIdSelector) : Prop :=
  match config with
  | .http _ => Http.SelectorReads crate selector
  | .rabbitmq _ => QueueSelectorReads ["queue.body"] ["queue.property."] selector
  | .azureServicebus _ => QueueSelectorReads ["queue.body", "servicebus.body"]
      ["queue.property.", "servicebus.property."] selector
  | .nats _ => Nats.SelectorReads selector

/-- The condition is one that its crate can read. -/
def ConditionReads (config : InceptorConfig) (c : FilterCondition) : Prop :=
  match config with
  | .http _ => Http.ConditionReads crate c
  | .rabbitmq _ => FieldReads ["queue.body"] ["queue.property."] c.field
  | .azureServicebus _ => FieldReads ["queue.body", "servicebus.body"]
      ["queue.property.", "servicebus.property."] c.field
  | .nats _ => Nats.ConditionReads c

/-- The tests of the observer's filters can be passed together: every condition has something to
read, what they read goes together in one input, and whatever is read can have a value that passes
all the tests on it. -/
def TestsMeet (config : InceptorConfig) : Prop :=
  match config with
  | .http config => ∃ conditions ∈ config.alternatives, (Http.readings crate).Satisfiable
      (Http.slotOf crate) (FilterCondition.accepts crates.isMatch) conditions
  | .rabbitmq config => ∀ observer ∈ config.observer, queueReadings.Satisfiable
      (queueSlotOf ["queue.body"] ["queue.property."])
      (FilterCondition.accepts crates.isMatch) observer.conditions
  | .azureServicebus config => ∀ observer ∈ config.observer, queueReadings.Satisfiable
      (queueSlotOf ["queue.body", "servicebus.body"] ["queue.property.", "servicebus.property."])
      (FilterCondition.accepts crates.isMatch) observer.conditions
  | .nats config => ∀ observer ∈ config.observer,
      Nats.PathsMet crates observer.conditions ∨ Nats.TextMet crates observer.conditions

variable {crate crates} {config : InceptorConfig}

theorem resolvesSelector_iff {selector : TestIdSelector} :
    config.ResolvesSelector crate selector ↔ config.SelectorReads crate selector := by
  cases config with
  | http config => exact Http.selectorReads_iff
  | rabbitmq config => exact queueSelectorReads_iff _ _
  | azureServicebus config => exact queueSelectorReads_iff _ _
  | nats config => exact Nats.selectorReads_iff

theorem resolvesCondition_iff {c : FilterCondition} :
    config.ResolvesCondition crate crates c ↔ config.ConditionReads crate c := by
  cases config with
  | http config => exact Http.conditionReads_iff
  | rabbitmq config => exact fieldReads_iff _ _
  | azureServicebus config => exact fieldReads_iff _ _
  | nats config => exact Nats.conditionReads_iff

theorem observerMatches_iff : config.ObserverMatches crate crates ↔ config.TestsMeet crate crates := by
  cases config with
  | http config => exact Http.exists_matched_iff
  | rabbitmq config =>
    unfold ObserverMatches TestsMeet
    exact forall₂_congr fun observer _ => exists_queueMatches_iff _ _
  | azureServicebus config =>
    unfold ObserverMatches TestsMeet
    exact forall₂_congr fun observer _ => exists_queueMatches_iff _ _
  | nats config =>
    unfold ObserverMatches TestsMeet
    exact forall₂_congr fun observer _ => Nats.exists_matchesFilter_iff

end Inputs

end InceptorConfig

/-! ## Accepted inception points -/

section Accepted

variable (crate : Http.HttpCrate) (crates : WorkerCrates) (builtin : Option BuiltinPlugin)
  (plugin : InceptionPlugin) (ip : InceptionPoint)

/-- The configuration of the inception point, where its plugin is a built-in one that can read
it. -/
def inceptorConfig : Option InceptorConfig := builtin.bind fun builtin => builtin.decode ip.config

/-- The fields that the inception point uses. -/
def pointFields : List String :=
  match inceptorConfig builtin ip with
  | some config => config.usedFields
  | none => ip.config.usedFields

/-- The filters of the inception point can match. -/
structure FiltersCanMatch : Prop where
  /-- Every field is of a namespace that the plugin lists. -/
  listed : ∀ field ∈ pointFields builtin ip,
    ∃ ns ∈ plugin.spec.fieldNamespaces, InNamespace field ns
  /-- The resolver of a built-in plugin finds a test id on some input, -/
  selectors : ∀ config ∈ inceptorConfig builtin ip, ∀ selector ∈ config.selectors,
    selector.field.isSome → config.ResolvesSelector crate selector
  /-- and a value for every condition. -/
  conditions : ∀ config ∈ inceptorConfig builtin ip, ∀ c ∈ config.conditions,
    config.ResolvesCondition crate crates c
  /-- The filters of an observer are not constantly false. -/
  observer : ∀ config ∈ inceptorConfig builtin ip, .observer ∈ ip.roles →
    config.ObserverMatches crate crates

/-- What the inception point has to be for that. -/
structure FieldsFit : Prop where
  /-- Every field passes the check that is never made. -/
  valid : ∀ field ∈ pointFields builtin ip,
    validateFieldNamespace field plugin.spec.fieldNamespaces = .ok ()
  selectors : ∀ config ∈ inceptorConfig builtin ip, ∀ selector ∈ config.selectors,
    selector.field.isSome → config.SelectorReads crate selector
  conditions : ∀ config ∈ inceptorConfig builtin ip, ∀ c ∈ config.conditions,
    config.ConditionReads crate c
  observer : ∀ config ∈ inceptorConfig builtin ip, .observer ∈ ip.roles →
    config.TestsMeet crate crates

variable {crate crates builtin plugin ip}

theorem validateFieldNamespace_iff {field : String} {namespaces : List String} :
    validateFieldNamespace field namespaces = .ok () ↔
      ∃ ns ∈ namespaces, InNamespace field ns := by
  unfold validateFieldNamespace
  split
  · rename_i h
    exact iff_of_true rfl ⟨_, h, inNamespace_iff.mpr rfl⟩
  · rename_i h
    refine iff_of_false (by simp) fun hns => ?_
    obtain ⟨ns, hmem, hns⟩ := hns
    exact h (inNamespace_iff.mp hns ▸ hmem)

theorem filtersCanMatch_iff :
    FiltersCanMatch crate crates builtin plugin ip ↔ FieldsFit crate crates builtin plugin ip := by
  constructor
  · intro h
    exact {
      valid := fun field hfield => validateFieldNamespace_iff.mpr (h.listed field hfield)
      selectors := fun config hconfig selector hselector hfield =>
        InceptorConfig.resolvesSelector_iff.mp (h.selectors config hconfig selector hselector hfield)
      conditions := fun config hconfig c hc =>
        InceptorConfig.resolvesCondition_iff.mp (h.conditions config hconfig c hc)
      observer := fun config hconfig hrole =>
        InceptorConfig.observerMatches_iff.mp (h.observer config hconfig hrole) }
  · intro h
    exact {
      listed := fun field hfield => validateFieldNamespace_iff.mp (h.valid field hfield)
      selectors := fun config hconfig selector hselector hfield =>
        InceptorConfig.resolvesSelector_iff.mpr (h.selectors config hconfig selector hselector hfield)
      conditions := fun config hconfig c hc =>
        InceptorConfig.resolvesCondition_iff.mpr (h.conditions config hconfig c hc)
      observer := fun config hconfig hrole =>
        InceptorConfig.observerMatches_iff.mpr (h.observer config hconfig hrole) }

end Accepted

/-- **The filters of an accepted inception point can match** exactly if its fields fit: acceptance
says nothing of them. -/
theorem accepted_filters_match_iff (operator : Crates) (crate : Http.HttpCrate)
    (crates : WorkerCrates) (builtin : Option BuiltinPlugin) (plugin : InceptionPlugin)
    (ip : InceptionPoint) :
    (validateInceptionPoint operator plugin ip = .ok () →
      FiltersCanMatch crate crates builtin plugin ip) ↔
    (validateInceptionPoint operator plugin ip = .ok () →
      FieldsFit crate crates builtin plugin ip) := by
  rw [filtersCanMatch_iff]

/-! ## A misspelt header -/

namespace Sample

/-- The crate with every text as a header. -/
def httpCrate : Http.HttpCrate := ⟨some, fun _ => true, rfl⟩

def httpPlugin : InceptionPlugin :=
  { plugin with
    name := "http"
    spec := { plugin.spec with
      supportedRoles := [.splitter, .observer, .mock, .writer]
      fieldNamespaces := ["http"]
      configSchema := .obj [
        ("properties", .obj [
          ("match", .obj [("type", .str "array")]), ("testId", .obj [("type", .str "object")])]),
        ("type", .str "object")] } }

/-- It says `headers` for `header`, -/
def misspeltCondition : FilterCondition := ⟨"http.headers.x-order", some "1", none, none⟩

/-- and takes its test id from a queue. -/
def misspelt : InceptionPoint :=
  { orders with
    pluginRef := ⟨"http"⟩
    roles := [.observer]
    config := .obj [
      ("match", .arr [.obj [("equals", .str "1"), ("field", .str "http.headers.x-order")]]),
      ("testId", .obj [("field", .str "queue.body"), ("jsonPath", .str "$.orderId")])] }

end Sample

def misspeltPointIsAcceptedField :
    PLift ("queue.body" ∈ pointFields (some .http) Sample.misspelt) :=
  ⟨by decide +kernel⟩

/-- The plugin lists `http` alone, and its observer reads `http.headers.x-order`, which resolves for
no request, and a test id of `queue.body`. The inception point is accepted, and its observer never
matches. -/
theorem misspelt_point_is_accepted :
    validateInceptionPoint Sample.crates Sample.httpPlugin Sample.misspelt = .ok () ∧
    (∃ config, Http.Config.decode Sample.misspelt.config = some config ∧
      ∀ (method path : String) (headers : Http.HeaderMap Sample.httpCrate) (body : Json),
        Http.matched Sample.workerCrates.isMatch config method path headers body = false) ∧
    ¬FiltersCanMatch Sample.httpCrate Sample.workerCrates (some .http) Sample.httpPlugin
      Sample.misspelt := by
  refine ⟨rfl, ?_, ?_⟩
  · have hdecode : (Http.Config.decode Sample.misspelt.config).map (·.conditions) =
        some [Sample.misspeltCondition] := by
      decide +kernel
    obtain ⟨config, hconfig, hconditions⟩ := Option.map_eq_some_iff.mp hdecode
    refine ⟨config, hconfig, fun method path headers body => ?_⟩
    have hheader : stripStart "http.header." Sample.misspeltCondition.field = none := by decide
    have hquery : stripStart "http.query." Sample.misspeltCondition.field = none := by decide
    have hresolve : Http.resolveHttpField method path body headers.get Sample.misspeltCondition =
        none := by
      unfold Http.resolveHttpField
      rw [hheader, hquery, if_neg (by decide), if_neg (by decide), if_neg (by decide)]
    simp only [Http.matched, Http.matchesFilter, hconditions, List.all_cons, hresolve,
      conditionMatches, Bool.false_and]
  · intro h
    have hfield := misspeltPointIsAcceptedField.down
    have hvalid := validateFieldNamespace_iff.mpr (h.listed _ hfield)
    exact absurd hvalid (by decide +kernel)

end FluidBG
