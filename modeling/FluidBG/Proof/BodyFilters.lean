import FluidBG.Plugins.Worker
/-!
# Filters on the body, on the three transports

A condition on `queue.body` reads one text of the body. The queue plugins read the scalar at the
path of the condition, or the body itself where that is a text; NATS takes the body as JSON text
wherever the queue plugins would find a condition without a path, or a path without a scalar.
-/

set_option autoImplicit false

namespace FluidBG

/-- The text of the body that a queue plugin reads for a path. -/
def bodyText (body : Json) (jsonPath : Option String) : Option String :=
  jsonPath.elim body.asStr (extractJsonPath body)

/-- A condition is satisfied by a text. -/
def Satisfies (crates : WorkerCrates) (text : Option String) (c : FilterCondition) : Prop :=
  conditionMatches crates.isMatch text c = true

/-- **A condition means the same on every transport**: the three plugins decide alike over the
list, and no plugin takes a condition whose path leads to no scalar. -/
structure FiltersAgree (crates : WorkerCrates) (body : Json) (message : Message)
    (conditions : List FilterCondition) : Prop where
  queues : Rabbitmq.matchesFilter crates conditions body message =
    ServiceBus.matchesFilter crates conditions body message
  nats : Nats.matchesFilter crates conditions body =
    Rabbitmq.matchesFilter crates conditions body message
  scalar : ∀ c ∈ conditions, ∀ path, c.jsonPath = some path →
    Nats.matchesFilter crates [c] body = true ∨
      Rabbitmq.matchesFilter crates [c] body message = true ∨
      ServiceBus.matchesFilter crates [c] body message = true →
    (extractJsonPath body path).isSome

/-- **So does a selector.** -/
structure SelectorsAgree (body : Json) (message : Message) (selector : TestIdSelector) : Prop where
  queues : Rabbitmq.extractTestId selector body message =
    ServiceBus.extractTestId selector body message
  nats : Nats.extractTestId selector body = Rabbitmq.extractTestId selector body message
  scalar : ∀ path, selector.jsonPath = some path →
    (Nats.extractTestId selector body).isSome ∨
      (Rabbitmq.extractTestId selector body message).isSome ∨
      (ServiceBus.extractTestId selector body message).isSome →
    (extractJsonPath body path).isSome

/-- The JSON text of the body does not stand in for what the conditions ask. It satisfies none
whose path is missing; and it satisfies those without a path exactly when the body itself does,
unless the list is refused whichever of the two is read. -/
def TextsAgree (crates : WorkerCrates) (body : Json) (conditions : List FilterCondition) : Prop :=
  (∀ c ∈ conditions, ∀ path, c.jsonPath = some path → extractJsonPath body path = none →
    ¬ Satisfies crates (some (crates.jsonText body)) c) ∧
  ((∀ c ∈ conditions, c.jsonPath = none →
      (Satisfies crates (some (crates.jsonText body)) c ↔ Satisfies crates body.asStr c)) ∨
    (∃ c ∈ conditions, ¬ Satisfies crates (bodyText body c.jsonPath) c) ∧
      ∃ c ∈ conditions, ¬ Satisfies crates
        (some (((c.jsonPath.bind (extractJsonPath body))).getD (crates.jsonText body))) c)

/-- A fixed test id has no path that leads nowhere, and a selector with neither meets no body that
is a text. -/
def SelectorFits (body : Json) (selector : TestIdSelector) : Prop :=
  (selector.value.isSome → ∀ path, selector.jsonPath = some path →
    (extractJsonPath body path).isSome) ∧
  (selector.value = none → selector.jsonPath = none → body.asStr = none)

/-! ## One condition -/

section Condition

variable {crates : WorkerCrates} {body : Json} {message : Message} {c : FilterCondition}

theorem queueField_body {bodyNames propertyStarts : List String} (h : "queue.body" ∈ bodyNames)
    (jsonPath : Option String) (body : Json) (message : Message) :
    queueField bodyNames propertyStarts "queue.body" jsonPath body message =
      bodyText body jsonPath := by
  cases jsonPath with
  | none => exact if_pos h
  | some path => exact if_pos h

/-- What NATS reads instead. -/
theorem resolveField_body (crates : WorkerCrates) (body : Json) (hfield : c.field = "queue.body") :
    Nats.resolveField crates c body =
      some ((c.jsonPath.bind (extractJsonPath body)).getD (crates.jsonText body)) := by
  unfold Nats.resolveField
  rw [if_pos (.inr hfield)]
  cases c.jsonPath.bind (extractJsonPath body) with
  | none => rfl
  | some value => rfl

theorem queueMatches_iff {bodyNames propertyStarts : List String} (h : "queue.body" ∈ bodyNames)
    {conditions : List FilterCondition} (hfields : ∀ c ∈ conditions, c.field = "queue.body") :
    queueMatches crates bodyNames propertyStarts conditions body message = true ↔
      ∀ c ∈ conditions, Satisfies crates (bodyText body c.jsonPath) c := by
  unfold queueMatches
  rw [List.all_eq_true]
  refine forall₂_congr fun c hc => ?_
  rw [hfields c hc, queueField_body h]
  rfl

theorem natsMatches_iff {conditions : List FilterCondition}
    (hfields : ∀ c ∈ conditions, c.field = "queue.body") :
    Nats.matchesFilter crates conditions body = true ↔ ∀ c ∈ conditions, Satisfies crates
      (some ((c.jsonPath.bind (extractJsonPath body)).getD (crates.jsonText body))) c := by
  unfold Nats.matchesFilter
  rw [List.all_eq_true]
  refine forall₂_congr fun c hc => ?_
  rw [resolveField_body crates body (hfields c hc)]
  rfl

theorem not_satisfies_none : ¬ Satisfies crates none c := by
  simp [Satisfies, conditionMatches]

end Condition

/-! ## Lists of conditions -/

section Lists

variable {crates : WorkerCrates} {body : Json} {message : Message}
  {conditions : List FilterCondition}

/-- With a path, the two readings of the body differ only where the path is missing. -/
theorem readings_of_path {c : FilterCondition} {path : String} (hpath : c.jsonPath = some path)
    (hmissing : extractJsonPath body path = none →
      ¬ Satisfies crates (some (crates.jsonText body)) c) :
    Satisfies crates (some ((c.jsonPath.bind (extractJsonPath body)).getD (crates.jsonText body)))
      c ↔ Satisfies crates (bodyText body c.jsonPath) c := by
  rw [hpath]
  cases hfound : extractJsonPath body path with
  | some value => simp [bodyText, hfound]
  | none =>
    simp only [bodyText, Option.elim_some, hfound, Option.bind_some, Option.getD_none]
    exact iff_of_false (hmissing hfound) not_satisfies_none

/-- Two lists of tests that differ test by test agree as a whole only where both fail. -/
theorem forall_iff_forall {α : Type} {xs : List α} {p q : α → Prop} :
    ((∀ x ∈ xs, p x) ↔ ∀ x ∈ xs, q x) ↔
      (∀ x ∈ xs, p x ↔ q x) ∨ (∃ x ∈ xs, ¬ q x) ∧ ∃ x ∈ xs, ¬ p x := by
  constructor
  · intro h
    by_cases hall : ∀ x ∈ xs, p x
    · exact .inl fun x hx => iff_of_true (hall x hx) (h.mp hall x hx)
    · refine .inr ⟨?_, ?_⟩
      · simpa using mt h.mpr hall
      · simpa using hall
  · intro h
    rcases h with hsame | ⟨⟨x, hx, hqx⟩, y, hy, hpy⟩
    · exact forall₂_congr hsame
    · exact iff_of_false (fun hp => hpy (hp y hy)) fun hq => hqx (hq x hx)

theorem filtersAgree_iff (hfields : ∀ c ∈ conditions, c.field = "queue.body") :
    FiltersAgree crates body message conditions ↔ TextsAgree crates body conditions := by
  have hsingle : ∀ c ∈ conditions, ∀ d ∈ [c], d.field = "queue.body" := by
    intro c hc d hd
    rw [List.mem_singleton.mp hd]
    exact hfields c hc
  have hrabbit := @queueMatches_iff crates body message ["queue.body"] ["queue.property."]
    (by simp)
  have hbus := @queueMatches_iff crates body message ["queue.body", "servicebus.body"]
    ["queue.property.", "servicebus.property."] (by simp)
  constructor
  · intro h
    refine ⟨fun c hc path hpath hmissing hsatisfied => ?_, ?_⟩
    · have hnats : Nats.matchesFilter crates [c] body = true := by
        rw [natsMatches_iff (hsingle c hc)]
        intro d hd
        rw [List.mem_singleton.mp hd, hpath]
        simpa [hmissing] using hsatisfied
      have hsome := h.scalar c hc path hpath (.inl hnats)
      rw [hmissing] at hsome
      cases hsome
    · have hsame := Bool.eq_iff_iff.mp h.nats
      rw [natsMatches_iff hfields, show Rabbitmq.matchesFilter crates conditions body message =
        true ↔ _ from hrabbit hfields] at hsame
      rcases forall_iff_forall.mp hsame with heach | hrefused
      · refine .inl fun c hc hpath => ?_
        simpa [hpath, bodyText] using heach c hc
      · exact .inr hrefused
  · intro ⟨hmissing, hsame⟩
    refine ⟨?_, ?_, fun c hc path hpath hmatches => ?_⟩
    · exact Bool.eq_iff_iff.mpr ((hrabbit hfields).trans (hbus hfields).symm)
    · refine Bool.eq_iff_iff.mpr ((natsMatches_iff hfields).trans (Iff.trans ?_
        (hrabbit hfields).symm))
      rw [forall_iff_forall]
      rcases hsame with heach | hrefused
      · refine .inl fun c hc => ?_
        cases hpath : c.jsonPath with
        | some path =>
          rw [← hpath]
          exact readings_of_path hpath (hmissing c hc path hpath)
        | none => simpa [hpath, bodyText] using heach c hc hpath
      · exact .inr hrefused
    · -- whichever plugin takes the condition, it read a scalar at the path
      have hread : Satisfies crates (bodyText body c.jsonPath) c := by
        rcases hmatches with hnats | hrabbits | hbuses
        · refine (readings_of_path hpath (hmissing c hc path hpath)).mp ?_
          exact (natsMatches_iff (hsingle c hc)).mp hnats c (List.mem_singleton.mpr rfl)
        · exact (hrabbit (hsingle c hc)).mp hrabbits c (List.mem_singleton.mpr rfl)
        · exact (hbus (hsingle c hc)).mp hbuses c (List.mem_singleton.mpr rfl)
      rw [hpath] at hread
      cases hfound : extractJsonPath body path with
      | some value => rfl
      | none =>
        simp only [bodyText, Option.elim_some, hfound] at hread
        exact absurd hread not_satisfies_none

end Lists

/-! ## Selectors -/

theorem selectorsAgree_iff {body : Json} {message : Message} {selector : TestIdSelector}
    (hfield : selector.field = some "queue.body") :
    SelectorsAgree body message selector ↔ SelectorFits body selector := by
  have hqueue : ∀ {bodyNames propertyStarts : List String}, "queue.body" ∈ bodyNames →
      queueTestId bodyNames propertyStarts selector body message =
        (selector.value.or (bodyText body selector.jsonPath)) := by
    intro bodyNames propertyStarts h
    unfold queueTestId
    rw [hfield, Option.bind_some, queueField_body h]
    cases selector.value with
    | none => rfl
    | some value => rfl
  have hrabbit : Rabbitmq.extractTestId selector body message = _ := hqueue (by simp)
  have hbus : ServiceBus.extractTestId selector body message = _ := hqueue (by simp)
  have hnats : Nats.extractTestId selector body =
      selector.value.or (selector.jsonPath.bind (extractJsonPath body)) := by
    unfold Nats.extractTestId
    cases selector.value with
    | none => simp [hfield]
    | some value => rfl
  have hagree : SelectorsAgree body message selector ↔
      selector.value.or (selector.jsonPath.bind (extractJsonPath body)) =
        selector.value.or (bodyText body selector.jsonPath) ∧
      ∀ path, selector.jsonPath = some path →
        (selector.value.or (extractJsonPath body path)).isSome →
          (extractJsonPath body path).isSome := by
    constructor
    · intro h
      refine ⟨by rw [← hnats, h.nats, hrabbit], fun path hpath hsome => h.scalar path hpath ?_⟩
      rw [hnats, hpath]
      exact .inl hsome
    · intro ⟨hsame, hscalar⟩
      refine ⟨by rw [hrabbit, hbus], by rw [hnats, hrabbit, hsame], fun path hpath hsome => ?_⟩
      refine hscalar path hpath ?_
      rw [hnats, hrabbit, hbus, hpath] at hsome
      simpa [bodyText] using hsome
  rw [hagree]
  unfold SelectorFits
  cases hvalue : selector.value with
  | some value =>
    cases hpath : selector.jsonPath with
    | some path => simp
    | none => simp
  | none =>
    cases hpath : selector.jsonPath with
    | some path => simp [bodyText]
    | none =>
      refine ⟨fun h => ⟨fun hvalue => (by cases hvalue), fun _ _ => h.1.symm⟩, fun h => ?_⟩
      exact ⟨(h.2 rfl rfl).symm, fun _ hnone => (by cases hnone)⟩

/-- **Body filters mean the same on every transport** exactly where the JSON text of the body does
not stand in for what they ask. -/
theorem body_filters_agree_iff (crates : WorkerCrates) (body : Json) (message : Message) :
    (∀ conditions : List FilterCondition, (∀ c ∈ conditions, c.field = "queue.body") →
      (FiltersAgree crates body message conditions ↔ TextsAgree crates body conditions)) ∧
    ∀ selector : TestIdSelector, selector.field = some "queue.body" →
      (SelectorsAgree body message selector ↔ SelectorFits body selector) :=
  ⟨fun _ => filtersAgree_iff, fun _ => selectorsAgree_iff⟩

namespace Sample

def typeCondition : FilterCondition := ⟨"queue.body", none, none, some "$.type"⟩

def typeSelector : TestIdSelector := ⟨some "queue.body", some "$.type", none, none⟩

def plainCrates : WorkerCrates where
  parseSlice := fun _ => none
  parseLossy := fun _ => none
  jsonText := fun _ => "\x7b\x7d"
  hash := fun _ => 0
  isMatch := fun _ _ => none

end Sample

theorem type_filter_agrees :
    (FiltersAgree Sample.plainCrates (.obj [("type", .str "order")]) ⟨[], []⟩
        [Sample.typeCondition] ↔
      TextsAgree Sample.plainCrates (.obj [("type", .str "order")]) [Sample.typeCondition]) ∧
    (SelectorsAgree (.obj [("type", .str "order")]) ⟨[], []⟩ Sample.typeSelector ↔
      SelectorFits (.obj [("type", .str "order")]) Sample.typeSelector) :=
  have h := body_filters_agree_iff Sample.plainCrates (.obj [("type", .str "order")]) ⟨[], []⟩
  ⟨h.1 [Sample.typeCondition] (by simp [Sample.typeCondition]), h.2 Sample.typeSelector rfl⟩

/-- A condition on a field that the message does not have. -/
theorem missing_field_matches_on_nats :
    ¬ ∀ (crates : WorkerCrates) (body : Json) (message : Message)
      (conditions : List FilterCondition), (∀ c ∈ conditions, c.field = "queue.body") →
        FiltersAgree crates body message conditions := by
  intro h
  have hagree := h Sample.plainCrates (.obj []) ⟨[], []⟩ [Sample.typeCondition]
    (by simp [Sample.typeCondition])
  have hnats : Nats.matchesFilter Sample.plainCrates [Sample.typeCondition] (.obj []) = true := by
    decide +kernel
  have hrabbit : Rabbitmq.matchesFilter Sample.plainCrates [Sample.typeCondition] (.obj [])
      ⟨[], []⟩ = false := by
    decide +kernel
  rw [hagree.nats, hrabbit] at hnats
  cases hnats

end FluidBG
