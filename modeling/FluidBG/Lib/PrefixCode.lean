import Mathlib.Data.List.Infix
/-!
# Prefix codes

An encoding of letters by words none of which is the beginning of another. Text encoded letter by
letter then keeps its beginnings: one text begins another exactly when its code does, which is what
a lookup by the beginning of an encoded path relies on.
-/

set_option autoImplicit false

namespace FluidBG.Lib

/-- No code word is empty, and none begins another. -/
structure PrefixCode {α β : Type} (encode : α → List β) : Prop where
  ne_nil : ∀ a, encode a ≠ []
  eq_of_prefix : ∀ a b, encode a <+: encode b → a = b

namespace PrefixCode

variable {α β : Type} {encode : α → List β}

/-- **Beginnings are kept** in both directions. -/
theorem flatMap_prefix_iff (h : PrefixCode encode) {xs ys : List α} :
    xs.flatMap encode <+: ys.flatMap encode ↔ xs <+: ys := by
  constructor
  · intro hp
    induction xs generalizing ys with
    | nil => exact List.nil_prefix
    | cons x xs ih =>
      cases ys with
      | nil =>
        rw [List.flatMap_nil, List.prefix_nil, List.flatMap_cons, List.append_eq_nil_iff] at hp
        exact absurd hp.1 (h.ne_nil x)
      | cons y ys =>
        -- both code words begin the same text, so one of them begins the other
        rw [List.flatMap_cons, List.flatMap_cons] at hp
        have hx : encode x <+: encode y ++ ys.flatMap encode :=
          (List.prefix_append _ _).trans hp
        have heq : x = y := by
          rcases List.prefix_or_prefix_of_prefix hx (List.prefix_append _ _) with hxy | hyx
          · exact h.eq_of_prefix x y hxy
          · exact (h.eq_of_prefix y x hyx).symm
        subst heq
        rw [List.prefix_append_right_inj] at hp
        exact (List.prefix_cons_inj x).mpr (ih hp)
  · rintro ⟨rest, rfl⟩
    exact ⟨rest.flatMap encode, List.flatMap_append.symm⟩

theorem flatMap_inj (h : PrefixCode encode) {xs ys : List α} :
    xs.flatMap encode = ys.flatMap encode ↔ xs = ys := by
  constructor
  · intro heq
    have hxy : xs <+: ys := h.flatMap_prefix_iff.mp (heq ▸ List.prefix_rfl)
    have hyx : ys <+: xs := h.flatMap_prefix_iff.mp (heq ▸ List.prefix_rfl)
    exact hxy.eq_of_length (le_antisymm hxy.length_le hyx.length_le)
  · rintro rfl
    rfl

/-- A text coded in two steps. -/
theorem flatMap {γ : Type} {inner : γ → List α} (h : PrefixCode encode) (hi : PrefixCode inner) :
    PrefixCode fun c => (inner c).flatMap encode where
  ne_nil c hnil := by
    obtain ⟨a, as, ha⟩ := List.exists_cons_of_ne_nil (hi.ne_nil c)
    rw [ha, List.flatMap_cons, List.append_eq_nil_iff] at hnil
    exact h.ne_nil a hnil.1
  eq_of_prefix c d hp := hi.eq_of_prefix c d (h.flatMap_prefix_iff.mp hp)

/-- A code with one more letter, whose word begins none of the others and is begun by none. -/
theorem update [DecidableEq α] {letter : α} {word : List β} (h : PrefixCode encode)
    (hword : word ≠ []) (hbegins : ∀ a, ¬ word <+: encode a) (hbegun : ∀ a, ¬ encode a <+: word) :
    PrefixCode fun a => if a = letter then word else encode a where
  ne_nil a hnil := by
    split at hnil
    · exact hword hnil
    · exact h.ne_nil a hnil
  eq_of_prefix a b hp := by
    by_cases ha : a = letter
    · by_cases hb : b = letter
      · exact ha.trans hb.symm
      · rw [if_pos ha, if_neg hb] at hp
        exact absurd hp (hbegins b)
    · by_cases hb : b = letter
      · rw [if_neg ha, if_pos hb] at hp
        exact absurd hp (hbegun a)
      · rw [if_neg ha, if_neg hb] at hp
        exact h.eq_of_prefix a b hp

end PrefixCode

end FluidBG.Lib
