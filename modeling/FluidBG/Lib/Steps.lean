/-!
# Runs of a transition system

A partial function from a state and an event to the next state, and the runs whose steps meet a
condition on the state before the step and on the event. `Steps.Run.holds` is the rule for them: what
the first state satisfies and every such step preserves is true of every state that is reached.
-/

set_option autoImplicit false

namespace FluidBG.Lib

/-- A transition system; a step that is not possible has no next state. -/
structure Steps (S E : Type) where
  step : S → E → Option S

namespace Steps

variable {S E : Type}

/-- A run all of whose steps meet the condition. -/
inductive Run (T : Steps S E) (G : S → E → Prop) (init : S) : S → Prop
  | nil : Run T G init init
  | snoc {s s' : S} (r : Run T G init s) (e : E) (hg : G s e) (hs : T.step s e = some s') :
    Run T G init s'

variable {T : Steps S E} {G : S → E → Prop} {init s : S}

/-- **The rule for runs.** An invariant of the steps holds in every state of a run. -/
theorem Run.holds {P : S → Prop} (h : P init)
    (hstep : ∀ s e s', P s → G s e → T.step s e = some s' → P s') (r : Run T G init s) : P s := by
  induction r with
  | nil => exact h
  | snoc r e hg hs ih => exact hstep _ e _ ih hg hs

/-- A run under a condition is one under a weaker condition. -/
theorem Run.mono {G' : S → E → Prop} (h : ∀ s e, G s e → G' s e) (r : Run T G init s) :
    Run T G' init s := by
  induction r with
  | nil => exact .nil
  | snoc r e hg hs ih => exact ih.snoc e (h _ e hg) hs

section Evaluation

variable (T G) [∀ s e, Decidable (G s e)]

/-- The state after these events, when each step is possible and meets the condition. -/
def run : S → List E → Option S
  | s, [] => some s
  | s, e :: es => if G s e then (T.step s e).bind fun s' => run s' es else none

variable {T G}

theorem Run.of_run {s' : S} {es : List E} (r : Run T G init s) (h : run T G s es = some s') :
    Run T G init s' := by
  induction es generalizing s with
  | nil =>
    cases h
    exact r
  | cons e es ih =>
    unfold run at h
    split at h
    · rename_i hg
      obtain ⟨t, ht, h⟩ := Option.bind_eq_some_iff.mp h
      exact ih (r.snoc e hg ht) h
    · cases h

/-- An evaluated run reaches a state of which `f` is known. -/
theorem Run.exists_of_run {β : Type} {f : S → β} {y : β} {es : List E}
    (h : (run T G init es).map f = some y) : ∃ s, Run T G init s ∧ f s = y := by
  obtain ⟨s, hs, hf⟩ := Option.map_eq_some_iff.mp h
  exact ⟨s, .of_run .nil hs, hf⟩

end Evaluation

end Steps

end FluidBG.Lib
