import Mathlib.Data.List.Basic
/-!
# What can be read together

An input is looked at through slots, each of which holds a value or nothing. Tests on several slots
can be met by one input when two things are true: every slot can take a value that passes all the
tests on it, and the slots can be filled side by side. `Readings` says what a kind of input has to
offer for that, and `satisfiable_iff` is the rule.
-/

set_option autoImplicit false

namespace FluidBG.Lib

/-- Inputs `I` that are read through the slots `S`. -/
structure Readings (I S V : Type) where
  read : S → I → Option V
  /-- The values that a slot can take. -/
  Range : S → V → Prop
  /-- The two can be filled in one input. -/
  Compatible : S → S → Prop
  range_of_read : ∀ {s i v}, read s i = some v → Range s v
  compatible_of_read : ∀ {s t i v w}, read s i = some v → read t i = some w → Compatible s t
  compatible_self : ∀ s, Compatible s s
  exists_input : ∀ (slots : List S) (value : S → V),
    (∀ s ∈ slots, ∀ t ∈ slots, Compatible s t) → (∀ s ∈ slots, Range s (value s)) →
    ∃ i, ∀ s ∈ slots, read s i = some (value s)

namespace Readings

/-- What a projection finds among the slots, where it is the inverse of a constructor. -/
theorem mem_filterMap_mk {S A : Type} {get : S → Option A} {mk : A → S}
    (h : ∀ slot a, get slot = some a ↔ slot = mk a) {slots : List S} {a : A} :
    a ∈ slots.filterMap get ↔ mk a ∈ slots := by
  rw [List.mem_filterMap]
  constructor
  · intro hmem
    obtain ⟨slot, hslot, hget⟩ := hmem
    rw [← (h slot a).mp hget]
    exact hslot
  · intro hmem
    exact ⟨mk a, hmem, (h (mk a) a).mpr rfl⟩

variable {I S V C : Type} (R : Readings I S V) (slot : C → Option S) (test : C → V → Bool)

/-- What the condition `c` reads of an input. -/
def value (c : C) (i : I) : Option V := (slot c).bind fun s => R.read s i

/-- The condition `c` has a value, which passes its test. -/
def Holds (c : C) (i : I) : Prop := ∃ v, R.value slot c i = some v ∧ test c v = true

/-- Every condition has a slot; the slots go together; and each can take a value that passes all
the tests on it. -/
structure Satisfiable (cs : List C) : Prop where
  slotted : ∀ c ∈ cs, ∃ s, slot c = some s
  compatible : ∀ s ∈ cs.filterMap slot, ∀ t ∈ cs.filterMap slot, R.Compatible s t
  tested : ∀ s ∈ cs.filterMap slot, ∃ v, R.Range s v ∧ ∀ c ∈ cs, slot c = some s → test c v = true

variable {R slot test}

theorem value_eq_some {c : C} {i : I} {v : V} :
    R.value slot c i = some v ↔ ∃ s, slot c = some s ∧ R.read s i = some v := by
  simp only [value, Option.bind_eq_some_iff]

/-- The slot of a condition that holds has been read. -/
theorem Holds.read {c : C} {i : I} {s : S} (h : R.Holds slot test c i) (hs : slot c = some s) :
    ∃ v, R.read s i = some v ∧ test c v = true := by
  obtain ⟨v, hv, htest⟩ := h
  obtain ⟨t, ht, hread⟩ := value_eq_some.mp hv
  cases hs.symm.trans ht
  exact ⟨v, hread, htest⟩

theorem satisfiable_of_holds {cs : List C} {i : I} (h : ∀ c ∈ cs, R.Holds slot test c i) :
    R.Satisfiable slot test cs where
  slotted c hc := by
    obtain ⟨v, hv, _⟩ := h c hc
    obtain ⟨s, hs, _⟩ := value_eq_some.mp hv
    exact ⟨s, hs⟩
  compatible s hs t ht := by
    obtain ⟨c, hc, hcs⟩ := List.mem_filterMap.mp hs
    obtain ⟨d, hd, hdt⟩ := List.mem_filterMap.mp ht
    obtain ⟨v, hv, _⟩ := (h c hc).read hcs
    obtain ⟨w, hw, _⟩ := (h d hd).read hdt
    exact R.compatible_of_read hv hw
  tested s hs := by
    obtain ⟨c, hc, hcs⟩ := List.mem_filterMap.mp hs
    obtain ⟨v, hv, _⟩ := (h c hc).read hcs
    refine ⟨v, R.range_of_read hv, fun d hd hds => ?_⟩
    -- the conditions on one slot read one value
    obtain ⟨w, hw, htest⟩ := (h d hd).read hds
    cases hv.symm.trans hw
    exact htest

theorem Satisfiable.exists_input [Inhabited V] {cs : List C}
    (h : R.Satisfiable slot test cs) : ∃ i, ∀ c ∈ cs, R.Holds slot test c i := by
  classical
  -- a value for every slot that is read, and any value for the others
  have hvalue : ∀ s, ∃ v, s ∈ cs.filterMap slot →
      R.Range s v ∧ ∀ c ∈ cs, slot c = some s → test c v = true := by
    intro s
    by_cases hs : s ∈ cs.filterMap slot
    · obtain ⟨v, hv⟩ := h.tested s hs
      exact ⟨v, fun _ => hv⟩
    · exact ⟨default, fun hs' => absurd hs' hs⟩
  choose value hvalue using hvalue
  obtain ⟨i, hi⟩ := R.exists_input (cs.filterMap slot) value h.compatible
    fun s hs => (hvalue s hs).1
  refine ⟨i, fun c hc => ?_⟩
  obtain ⟨s, hs⟩ := h.slotted c hc
  have hmem : s ∈ cs.filterMap slot := List.mem_filterMap.mpr ⟨c, hc, hs⟩
  exact ⟨value s, value_eq_some.mpr ⟨s, hs, hi s hmem⟩, (hvalue s hmem).2 c hc hs⟩

/-- **Conditions hold together on some input** exactly if they are satisfiable slot by slot. -/
theorem satisfiable_iff [Inhabited V] {cs : List C} :
    (∃ i, ∀ c ∈ cs, R.Holds slot test c i) ↔ R.Satisfiable slot test cs := by
  constructor
  · intro h
    obtain ⟨i, hi⟩ := h
    exact satisfiable_of_holds hi
  · intro h
    exact h.exists_input

/-- One condition has a value on some input exactly if its slot can take one. -/
theorem exists_value_iff {c : C} :
    (∃ i v, R.value slot c i = some v) ↔ ∃ s, slot c = some s ∧ ∃ v, R.Range s v := by
  constructor
  · intro h
    obtain ⟨i, v, hv⟩ := h
    obtain ⟨s, hs, hread⟩ := value_eq_some.mp hv
    exact ⟨s, hs, v, R.range_of_read hread⟩
  · intro h
    obtain ⟨s, hs, v, hv⟩ := h
    obtain ⟨i, hi⟩ := R.exists_input [s] (fun _ => v)
      (fun a ha b hb => by
        rw [List.mem_singleton.mp ha, List.mem_singleton.mp hb]
        exact R.compatible_self s)
      (fun a ha => by
        rw [List.mem_singleton.mp ha]
        exact hv)
    exact ⟨i, v, value_eq_some.mpr ⟨s, hs, hi s (List.mem_singleton_self s)⟩⟩

end Readings

end FluidBG.Lib
