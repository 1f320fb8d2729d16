import Mathlib.Data.List.Basic
/-!
# Patterns of tokens, and when two of them overlap

A pattern asks for one token after the other, each a given one or any, and ends either there or
with a wildcard for the rest, which stands for one token or more. Two patterns overlap when some
list of tokens matches both. That is a statement about all lists of tokens; walking down the two
patterns side by side decides it.
-/

set_option autoImplicit false

namespace FluidBG.Lib

variable {τ : Type}

inductive Pattern (τ : Type) where
  | done
  /-- One token or more. -/
  | rest
  | lit (t : τ) (p : Pattern τ)
  /-- Exactly one token. -/
  | any (p : Pattern τ)
  deriving DecidableEq

namespace Pattern

def Matches : Pattern τ → List τ → Prop
  | done, [] => True
  | rest, _ :: _ => True
  | lit t p, x :: xs => x = t ∧ p.Matches xs
  | any p, _ :: xs => p.Matches xs
  | _, _ => False

/-- Some list of tokens matches both. -/
def Overlaps (p q : Pattern τ) : Prop :=
  ∃ xs, p.Matches xs ∧ q.Matches xs

@[simp] theorem matches_done {xs : List τ} : done.Matches xs ↔ xs = [] := by
  cases xs <;> simp [Matches]

@[simp] theorem matches_rest {xs : List τ} : rest.Matches xs ↔ xs ≠ [] := by
  cases xs <;> simp [Matches]

@[simp] theorem not_matches_lit_nil {t : τ} {p : Pattern τ} : ¬ (lit t p).Matches [] := by
  simp [Matches]

@[simp] theorem not_matches_any_nil {p : Pattern τ} : ¬ (any p).Matches [] := by
  simp [Matches]

@[simp] theorem matches_lit_cons {t x : τ} {p : Pattern τ} {xs : List τ} :
    (lit t p).Matches (x :: xs) ↔ x = t ∧ p.Matches xs := Iff.rfl

@[simp] theorem matches_any_cons {x : τ} {p : Pattern τ} {xs : List τ} :
    (any p).Matches (x :: xs) ↔ p.Matches xs := Iff.rfl

theorem Overlaps.symm {p q : Pattern τ} (h : p.Overlaps q) : q.Overlaps p := by
  obtain ⟨xs, hp, hq⟩ := h
  exact ⟨xs, hq, hp⟩

/-- A pattern asks for nothing that cannot be had. -/
theorem exists_matches [Inhabited τ] (p : Pattern τ) : ∃ xs, p.Matches xs := by
  induction p with
  | done => exact ⟨[], by simp⟩
  | rest => exact ⟨[default], by simp⟩
  | lit t p ih =>
    obtain ⟨xs, hxs⟩ := ih
    exact ⟨t :: xs, rfl, hxs⟩
  | any p ih =>
    obtain ⟨xs, hxs⟩ := ih
    exact ⟨default :: xs, hxs⟩

theorem Overlaps.refl [Inhabited τ] (p : Pattern τ) : p.Overlaps p := by
  obtain ⟨xs, hxs⟩ := p.exists_matches
  exact ⟨xs, hxs, hxs⟩

/-! ## Deciding it -/

theorem overlaps_done {q : Pattern τ} : done.Overlaps q ↔ q = done := by
  constructor
  · intro h
    obtain ⟨xs, hxs, hq⟩ := h
    rw [matches_done] at hxs
    subst hxs
    cases q with
    | done => rfl
    | rest => simp at hq
    | lit t q => simp at hq
    | any q => simp at hq
  · intro h
    exact ⟨[], by simp, by simp [h]⟩

theorem overlaps_rest [Inhabited τ] {q : Pattern τ} : rest.Overlaps q ↔ q ≠ done := by
  constructor
  · intro h hq
    obtain ⟨xs, hxs, hdone⟩ := h
    rw [hq, matches_done] at hdone
    simp [hdone] at hxs
  · intro h
    obtain ⟨xs, hxs⟩ := q.exists_matches
    refine ⟨xs, ?_, hxs⟩
    rw [matches_rest]
    intro hnil
    -- only the pattern without places matches the empty list
    subst hnil
    cases q with
    | done => exact h rfl
    | rest => simp at hxs
    | lit t q => simp at hxs
    | any q => simp at hxs

theorem overlaps_lit_lit {t u : τ} {p q : Pattern τ} :
    (lit t p).Overlaps (lit u q) ↔ t = u ∧ p.Overlaps q := by
  constructor
  · intro h
    obtain ⟨xs, hp, hq⟩ := h
    cases xs with
    | nil => simp at hp
    | cons x xs => exact ⟨hp.1.symm.trans hq.1, xs, hp.2, hq.2⟩
  · intro h
    obtain ⟨htu, xs, hp, hq⟩ := h
    exact ⟨t :: xs, ⟨rfl, hp⟩, htu, hq⟩

theorem overlaps_any_lit {u : τ} {p q : Pattern τ} :
    (any p).Overlaps (lit u q) ↔ p.Overlaps q := by
  constructor
  · intro h
    obtain ⟨xs, hp, hq⟩ := h
    cases xs with
    | nil => simp at hp
    | cons x xs => exact ⟨xs, hp, hq.2⟩
  · intro h
    obtain ⟨xs, hp, hq⟩ := h
    exact ⟨u :: xs, hp, rfl, hq⟩

theorem overlaps_any_any [Inhabited τ] {p q : Pattern τ} :
    (any p).Overlaps (any q) ↔ p.Overlaps q := by
  constructor
  · intro h
    obtain ⟨xs, hp, hq⟩ := h
    cases xs with
    | nil => simp at hp
    | cons x xs => exact ⟨xs, hp, hq⟩
  · intro h
    obtain ⟨xs, hp, hq⟩ := h
    exact ⟨default :: xs, hp, hq⟩

theorem overlaps_comm {p q : Pattern τ} : p.Overlaps q ↔ q.Overlaps p :=
  ⟨Overlaps.symm, Overlaps.symm⟩

variable [DecidableEq τ]

/-- Both patterns, walked down side by side. -/
def collide : Pattern τ → Pattern τ → Bool
  | done, q => q = done
  | rest, q => q ≠ done
  | lit _ _, done => false
  | lit _ _, rest => true
  | lit t p, lit u q => t = u && p.collide q
  | lit _ p, any q => p.collide q
  | any _, done => false
  | any _, rest => true
  | any p, lit _ q => p.collide q
  | any p, any q => p.collide q

/-- **Overlapping is decided** by the walk. -/
theorem collide_iff [Inhabited τ] {p q : Pattern τ} : p.collide q = true ↔ p.Overlaps q := by
  induction p generalizing q with
  | done => simp [collide, overlaps_done]
  | rest => simp [collide, overlaps_rest]
  | lit t p ih =>
    cases q with
    | done => simp [collide, overlaps_comm (q := done), overlaps_done]
    | rest => simp [collide, overlaps_comm (q := rest), overlaps_rest]
    | lit u q => simp [collide, overlaps_lit_lit, ih]
    | any q => rw [collide, ih, overlaps_comm (q := any q), overlaps_any_lit, overlaps_comm]
  | any p ih =>
    cases q with
    | done => simp [collide, overlaps_comm (q := done), overlaps_done]
    | rest => simp [collide, overlaps_comm (q := rest), overlaps_rest]
    | lit u q => rw [collide, ih, overlaps_any_lit]
    | any q => rw [collide, ih, overlaps_any_any]

instance [Inhabited τ] (p q : Pattern τ) : Decidable (p.Overlaps q) :=
  decidable_of_iff _ collide_iff

end Pattern

end FluidBG.Lib
