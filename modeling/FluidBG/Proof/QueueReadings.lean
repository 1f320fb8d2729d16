import FluidBG.Plugins.Worker
import FluidBG.Proof.Documents
/-!
# What the queue plugins can read of a message

RabbitMQ and Azure Service Bus read the body of a message and its properties, each under names of
their own. NATS reads the body only, and where a JSON path leads nowhere it takes the text of the
whole document instead, so that a filter of NATS can also be met by a text.
-/

set_option autoImplicit false

namespace FluidBG

open Lib

/-! ## RabbitMQ and Azure Service Bus -/

inductive QueueSlot where
  | body (keys : List String)
  | property (key : String)
  deriving DecidableEq

namespace QueueSlot

def Compatible : QueueSlot → QueueSlot → Prop
  | .body keys, .body keys' => keys <+: keys' → keys = keys'
  | _, _ => True

def read : QueueSlot → Json × Message → Option String
  | .body keys, input => input.1.readAt keys
  | .property key, input => input.2.property key

theorem compatible_of_read {slot slot' : QueueSlot} {input : Json × Message} {v w : String}
    (h : slot.read input = some v) (h' : slot'.read input = some w) : slot.Compatible slot' := by
  cases slot with
  | body keys => cases slot' with
    | body keys' => exact Json.eq_of_prefix h h'
    | property key => exact trivial
  | property key => exact trivial

def bodyKeys : QueueSlot → Option (List String)
  | .body keys => some keys
  | .property _ => none

def propertyKey : QueueSlot → Option String
  | .body _ => none
  | .property key => some key

theorem mem_bodyKeys {slots : List QueueSlot} {keys : List String} :
    keys ∈ slots.filterMap bodyKeys ↔ .body keys ∈ slots :=
  Readings.mem_filterMap_mk fun slot keys => by cases slot <;> simp [bodyKeys]

theorem mem_propertyKeys {slots : List QueueSlot} {key : String} :
    key ∈ slots.filterMap propertyKey ↔ .property key ∈ slots :=
  Readings.mem_filterMap_mk fun slot key => by cases slot <;> simp [propertyKey]

/-- **A message for any values.** -/
theorem exists_message (slots : List QueueSlot) (value : QueueSlot → String)
    (h : ∀ s ∈ slots, ∀ t ∈ slots, s.Compatible t) :
    ∃ input, ∀ s ∈ slots, s.read input = some (value s) := by
  obtain ⟨body, hbody⟩ := Json.exists_readAt (slots.filterMap bodyKeys)
    (fun keys => value (.body keys)) fun s hs t ht =>
      h _ (mem_bodyKeys.mp hs) _ (mem_bodyKeys.mp ht)
  let properties := (slots.filterMap propertyKey).map fun key => (key, some (value (.property key)))
  refine ⟨(body, ⟨[], properties⟩), fun slot hslot => ?_⟩
  cases slot with
  | body keys => exact hbody keys (mem_bodyKeys.mpr hslot)
  | property key =>
    have hlookup := lookup_map_of_mem (fun key => some (value (.property key)))
      (mem_propertyKeys.mpr hslot)
    simp only [read, Message.property, properties, hlookup, Option.bind_some, id]

end QueueSlot

def queueReadings : Readings (Json × Message) QueueSlot String where
  read := QueueSlot.read
  Range _ _ := True
  Compatible := QueueSlot.Compatible
  range_of_read _ := trivial
  compatible_of_read := QueueSlot.compatible_of_read
  compatible_self s := by
    cases s with
    | body keys => exact fun _ => rfl
    | property key => exact trivial
  exists_input slots value h _ := QueueSlot.exists_message slots value h

section Queue

variable (bodyNames propertyStarts : List String)

/-- The slot of a field for the queue plugins. -/
def queueSlot (field : String) (jsonPath : Option String) : Option QueueSlot :=
  if field ∈ bodyNames then some (.body (bodyKeys jsonPath))
  else (propertyStarts.findSome? fun start => stripStart start field).map .property

theorem queueField_eq (field : String) (jsonPath : Option String) (body : Json)
    (message : Message) : queueField bodyNames propertyStarts field jsonPath body message =
      (queueSlot bodyNames propertyStarts field jsonPath).bind fun slot =>
        slot.read (body, message) := by
  unfold queueField queueSlot
  split
  · cases jsonPath with
    | none => exact asStr_eq body
    | some path => exact extractJsonPath_eq_bodyKeys body path
  · cases hkey : propertyStarts.findSome? fun start => stripStart start field with
    | none => rfl
    | some key => rfl

/-- A field that can be read: one of the names of the body, or the name of a property. -/
def FieldReads (field : String) : Prop :=
  field ∈ bodyNames ∨ ∃ start ∈ propertyStarts, (stripStart start field).isSome

theorem queueSlot_isSome {field : String} {jsonPath : Option String} :
    (queueSlot bodyNames propertyStarts field jsonPath).isSome ↔
      FieldReads bodyNames propertyStarts field := by
  unfold queueSlot FieldReads
  split
  · rename_i h
    simp [h]
  · rename_i h
    simp [h, List.findSome?_isSome_iff]

theorem fieldReads_iff {field : String} {jsonPath : Option String} :
    (∃ body message, (queueField bodyNames propertyStarts field jsonPath body message).isSome) ↔
      FieldReads bodyNames propertyStarts field := by
  rw [← queueSlot_isSome]
  constructor
  · intro h
    obtain ⟨body, message, h⟩ := h
    rw [queueField_eq] at h
    obtain ⟨v, hv⟩ := Option.isSome_iff_exists.mp h
    obtain ⟨slot, hslot, _⟩ := Option.bind_eq_some_iff.mp hv
    exact Option.isSome_iff_exists.mpr ⟨slot, hslot⟩
  · intro h
    obtain ⟨slot, hslot⟩ := Option.isSome_iff_exists.mp h
    obtain ⟨input, hinput⟩ := QueueSlot.exists_message [slot] (fun _ => "") fun s hs t ht => by
      rw [List.mem_singleton.mp hs, List.mem_singleton.mp ht]
      exact queueReadings.compatible_self slot
    refine ⟨input.1, input.2, ?_⟩
    rw [queueField_eq, hslot, Option.bind_some, hinput slot (List.mem_singleton_self slot)]
    rfl

/-- A test id can be read: it is given, or its field can be read. -/
def QueueSelectorReads (selector : TestIdSelector) : Prop :=
  selector.value.isSome ∨ ∃ field ∈ selector.field, FieldReads bodyNames propertyStarts field

theorem queueSelectorReads_iff {selector : TestIdSelector} :
    (∃ body message, (queueTestId bodyNames propertyStarts selector body message).isSome) ↔
      QueueSelectorReads bodyNames propertyStarts selector := by
  unfold queueTestId QueueSelectorReads
  cases hvalue : selector.value with
  | some value => exact iff_of_true ⟨.null, ⟨[], []⟩, rfl⟩ (.inl rfl)
  | none => cases hfield : selector.field with
    | none => simp
    | some field =>
      simp only [Option.bind_some, Option.isSome_none, Bool.false_eq_true, false_or,
        Option.mem_some_iff, exists_eq_left']
      exact fieldReads_iff bodyNames propertyStarts

/-- The slot of a condition for the queue plugins. -/
def queueSlotOf (c : FilterCondition) : Option QueueSlot :=
  queueSlot bodyNames propertyStarts c.field c.jsonPath

theorem exists_queueMatches_iff {crates : WorkerCrates} {conditions : List FilterCondition} :
    (∃ body message, queueMatches crates bodyNames propertyStarts conditions body message = true) ↔
      queueReadings.Satisfiable (queueSlotOf bodyNames propertyStarts)
        (FilterCondition.accepts crates.isMatch) conditions := by
  rw [← exists_match_iff]
  constructor
  · intro h
    obtain ⟨body, message, h⟩ := h
    refine ⟨(body, message), ?_⟩
    simp only [queueMatches, queueField_eq] at h
    exact h
  · intro h
    obtain ⟨input, h⟩ := h
    refine ⟨input.1, input.2, ?_⟩
    simp only [queueMatches, queueField_eq]
    exact h

end Queue

/-! ## NATS -/

namespace Nats

/-- What a condition reads of a document. -/
inductive Reading where
  /-- The text of the document. -/
  | text
  /-- The value at a path, and the text of the document where there is none. -/
  | valueOrText (keys : List String)
  /-- The value at a path. -/
  | value (keys : List String)
  deriving DecidableEq

def readingOf (c : FilterCondition) : Option Reading :=
  if c.field = "nats.body" ∨ c.field = "queue.body" then
    match c.jsonPath with
    | none => some .text
    | some path => some (.valueOrText (pathKeys path))
  else (stripStart "nats.body." c.field).map fun path => .value (pathKeys path)

namespace Reading

/-- The path of a reading. -/
def keys : Reading → Option (List String)
  | .text => none
  | .valueOrText keys => some keys
  | .value keys => some keys

def read (text : Json → String) (body : Json) : Reading → Option String
  | .text => some (text body)
  | .valueOrText keys => some ((body.readAt keys).getD (text body))
  | .value keys => body.readAt keys

/-- The reading has the text of this document. -/
def IsText (body : Json) : Reading → Prop
  | .text => True
  | .valueOrText keys => body.readAt keys = none
  | .value _ => False

/-- A reading that is not a text is one along its path. -/
theorem keys_of_not_isText {text : Json → String} {body : Json} {reading : Reading} {v : String}
    (h : ¬reading.IsText body) (hread : reading.read text body = some v) :
    ∃ keys, reading.keys = some keys ∧ body.readAt keys = some v := by
  cases reading with
  | text => exact absurd trivial h
  | valueOrText keys =>
    obtain ⟨w, hw⟩ := Option.ne_none_iff_exists'.mp h
    simp only [read, hw, Option.getD_some] at hread
    exact ⟨keys, rfl, hw.trans hread⟩
  | value keys => exact ⟨keys, rfl, hread⟩

theorem read_of_readAt {text : Json → String} {body : Json} {reading : Reading}
    {keys : List String} {v : String} (hkeys : reading.keys = some keys)
    (h : body.readAt keys = some v) : reading.read text body = some v := by
  cases reading with
  | text => simp [Reading.keys] at hkeys
  | valueOrText keys' =>
    cases hkeys
    simp [read, h]
  | value keys' =>
    cases hkeys
    exact h

end Reading

variable {crates : WorkerCrates}

theorem resolveField_eq (c : FilterCondition) (body : Json) :
    resolveField crates c body = (readingOf c).bind (Reading.read crates.jsonText body) := by
  unfold resolveField readingOf
  split
  · cases hpath : c.jsonPath with
    | none => rfl
    | some path =>
      simp only [Option.bind_some, extractJsonPath_eq, Reading.read]
      cases body.readAt (pathKeys path) <;> rfl
  · cases stripStart "nats.body." c.field with
    | none => rfl
    | some path => exact extractJsonPath_eq body path

/-- A condition can have a value. -/
def ConditionReads (c : FilterCondition) : Prop :=
  c.field = "nats.body" ∨ c.field = "queue.body" ∨ (stripStart "nats.body." c.field).isSome

theorem conditionReads_iff {c : FilterCondition} :
    (∃ body, (resolveField crates c body).isSome) ↔ ConditionReads c := by
  unfold resolveField ConditionReads
  by_cases hbody : c.field = "nats.body" ∨ c.field = "queue.body"
  · refine iff_of_true ⟨.null, ?_⟩ (or_assoc.mp (.inl hbody))
    rw [if_pos hbody]
    cases hread : c.jsonPath.bind (extractJsonPath .null) <;> rfl
  · rw [← or_assoc, or_iff_right hbody]
    simp only [if_neg hbody]
    cases hpath : stripStart "nats.body." c.field with
    | none => simp
    | some path =>
      obtain ⟨body, hread⟩ := Json.exists_readAt_one (pathKeys path)
      refine iff_of_true ⟨body, ?_⟩ rfl
      rw [Option.bind_some, extractJsonPath_eq, hread]
      rfl

/-- A test id can be read: it is given, or it is at a path into the body. -/
def SelectorReads (selector : TestIdSelector) : Prop :=
  selector.value.isSome ∨
    (selector.field = some "nats.body" ∨ selector.field = some "queue.body") ∧
      selector.jsonPath.isSome

theorem selectorReads_iff {selector : TestIdSelector} :
    (∃ body, (extractTestId selector body).isSome) ↔ SelectorReads selector := by
  unfold extractTestId SelectorReads
  cases hvalue : selector.value with
  | some value => exact iff_of_true ⟨.null, rfl⟩ (.inl rfl)
  | none =>
    by_cases hfield : selector.field = some "nats.body" ∨ selector.field = some "queue.body"
    · simp only [if_pos hfield]
      cases hpath : selector.jsonPath with
      | none => simp
      | some path =>
        obtain ⟨body, hread⟩ := Json.exists_readAt_one (pathKeys path)
        refine iff_of_true ⟨body, ?_⟩ (.inr ⟨hfield, rfl⟩)
        rw [Option.bind_some, extractJsonPath_eq, hread]
        rfl
    · simp [hfield]

/-- The conditions are met along their paths. -/
def PathsMet (crates : WorkerCrates) (conditions : List FilterCondition) : Prop :=
  Json.readings.Satisfiable (fun c => (readingOf c).bind Reading.keys)
    (FilterCondition.accepts crates.isMatch) conditions

/-- The conditions are met by a document whose text is one of the values. -/
def TextMet (crates : WorkerCrates) (conditions : List FilterCondition) : Prop :=
  ∃ body, (∃ c ∈ conditions, ∃ reading ∈ readingOf c, reading.IsText body) ∧
    ∀ c ∈ conditions, ∃ reading ∈ readingOf c, ∃ v ∈ reading.read crates.jsonText body,
      c.accepts crates.isMatch v = true

theorem exists_matchesFilter_iff {conditions : List FilterCondition} :
    (∃ body, matchesFilter crates conditions body = true) ↔
      PathsMet crates conditions ∨ TextMet crates conditions := by
  have hmatches : ∀ body, matchesFilter crates conditions body = true ↔ ∀ c ∈ conditions,
      ∃ reading ∈ readingOf c, ∃ v ∈ reading.read crates.jsonText body,
        c.accepts crates.isMatch v = true := by
    intro body
    simp only [matchesFilter, List.all_eq_true, resolveField_eq]
    refine forall₂_congr fun c _ => ?_
    cases hreading : readingOf c with
    | none => simp [conditionMatches]
    | some reading =>
      simp only [Option.bind_some, Option.mem_some_iff, exists_eq_left']
      cases hread : reading.read crates.jsonText body with
      | none => simp [conditionMatches]
      | some v => simp [FilterCondition.accepts]
  constructor
  · intro h
    obtain ⟨body, h⟩ := h
    rw [hmatches] at h
    by_cases htext : ∃ c ∈ conditions, ∃ reading ∈ readingOf c, reading.IsText body
    · exact .inr ⟨body, htext, h⟩
    · -- every reading is then one along a path
      refine .inl (Readings.satisfiable_of_holds (i := body) fun c hc => ?_)
      obtain ⟨reading, hreading, v, hv, haccepts⟩ := h c hc
      obtain ⟨keys, hkeys, hread⟩ := Reading.keys_of_not_isText
        (fun ht => htext ⟨c, hc, reading, hreading, ht⟩) hv
      refine ⟨v, Readings.value_eq_some.mpr ⟨keys, ?_, hread⟩, haccepts⟩
      rw [Option.mem_def.mp hreading, Option.bind_some, hkeys]
  · intro h
    rcases h with h | h
    · obtain ⟨body, hbody⟩ := h.exists_input
      refine ⟨body, (hmatches body).mpr fun c hc => ?_⟩
      obtain ⟨v, hv, haccepts⟩ := hbody c hc
      obtain ⟨keys, hkeys, hread⟩ := Readings.value_eq_some.mp hv
      obtain ⟨reading, hreading, hkeys⟩ := Option.bind_eq_some_iff.mp hkeys
      exact ⟨reading, hreading, v, Reading.read_of_readAt hkeys hread, haccepts⟩
    · obtain ⟨body, _, h⟩ := h
      exact ⟨body, (hmatches body).mpr h⟩

end Nats

end FluidBG
