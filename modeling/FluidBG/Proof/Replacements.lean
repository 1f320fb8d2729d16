import FluidBG.Plugin
/-!
# Replacements in texts

`str::replace` goes through a text from its left end. Where the text is made of pieces that the
pattern either equals or does not begin in, the replacement goes through piece by piece.
-/

set_option autoImplicit false

namespace FluidBG

/-- Replacing turns a piece into another one, whatever follows it. -/
def Replaces (pat rep piece piece' : List Char) : Prop :=
  ∀ rest, replaceChars pat rep 0 (piece ++ rest) = piece' ++ replaceChars pat rep 0 rest

section Pieces

variable {pat rep : List Char}

theorem replaceChars_skip (piece rest : List Char) :
    replaceChars pat rep piece.length (piece ++ rest) = replaceChars pat rep 0 rest := by
  induction piece with
  | nil => rfl
  | cons c piece ih => exact ih

/-- An occurrence of the pattern is replaced. -/
theorem Replaces.occurrence (hne : pat ≠ []) : Replaces pat rep pat rep := by
  intro rest
  cases pat with
  | nil => exact absurd rfl hne
  | cons p ps =>
    have hoccurs : (p :: ps).isPrefixOf (p :: (ps ++ rest)) = true :=
      List.isPrefixOf_iff_prefix.mpr (List.prefix_append (p :: ps) rest)
    rw [List.cons_append, replaceChars, if_pos hoccurs]
    exact congrArg (rep ++ ·) (replaceChars_skip ps rest)

/-- A piece in which no pattern begins stays as it is. -/
theorem Replaces.of_head {p : Char} {ps piece : List Char} (h : ∀ c ∈ piece, c ≠ p) :
    Replaces (p :: ps) rep piece piece := by
  intro rest
  induction piece with
  | nil => rfl
  | cons c piece ih =>
    have hnot : (p :: ps).isPrefixOf (c :: (piece ++ rest)) = false := by
      have hne := h c List.mem_cons_self
      simp [List.isPrefixOf, beq_eq_false_iff_ne.mpr (Ne.symm hne)]
    rw [List.cons_append, replaceChars, hnot, if_neg (by simp),
      ih fun d hd => h d (List.mem_cons_of_mem _ hd)]
    rfl

/-- So does a piece in which the pattern could begin only at the first character, and does not. -/
theorem Replaces.of_mismatch {p c : Char} {ps piece : List Char}
    (hnot : ∀ rest, ¬ p :: ps <+: c :: piece ++ rest) (h : ∀ d ∈ piece, d ≠ p) :
    Replaces (p :: ps) rep (c :: piece) (c :: piece) := by
  intro rest
  have hapart : ¬ (p :: ps).isPrefixOf (c :: (piece ++ rest)) = true := by
    rw [List.isPrefixOf_iff_prefix]
    exact hnot rest
  rw [List.cons_append, replaceChars, if_neg hapart, Replaces.of_head h]
  rfl

theorem Replaces.nil : Replaces pat rep [] [] := fun _ => rfl

theorem Replaces.append {a a' b b' : List Char} (ha : Replaces pat rep a a')
    (hb : Replaces pat rep b b') : Replaces pat rep (a ++ b) (a' ++ b') := by
  intro rest
  rw [List.append_assoc, ha, hb, List.append_assoc]

/-- **A text goes piece by piece.** -/
theorem replaceChars_flatMap {α : Type} {piece piece' : α → List Char}
    (h : ∀ a, Replaces pat rep (piece a) (piece' a)) (as : List α) :
    replaceChars pat rep 0 (as.flatMap piece) = as.flatMap piece' := by
  induction as with
  | nil => rfl
  | cons a as ih =>
    rw [List.flatMap_cons, h, ih]
    rfl

end Pieces

end FluidBG
