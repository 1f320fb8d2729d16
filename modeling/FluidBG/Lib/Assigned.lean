import FluidBG.Lib.OrdMap
/-!
# Lists of assignments

A list of assignments to keys, one after the other: the last one for a key is what the key is left
with. An ordered map that the list was inserted into answers the same.
-/

set_option autoImplicit false

namespace FluidBG.Lib

variable {κ ν : Type} [DecidableEq κ]

/-- What the assignments leave at a key. -/
def assigned (k : κ) : List (κ × ν) → Option ν
  | [] => none
  | e :: es => (assigned k es).or (if e.1 = k then some e.2 else none)

/-- An environment after the assignments. -/
def assignAll (env : κ → Option ν) (es : List (κ × ν)) (k : κ) : Option ν :=
  (assigned k es).or (env k)

@[simp] theorem assigned_nil (k : κ) : assigned k ([] : List (κ × ν)) = none := rfl

theorem assigned_cons (k : κ) (e : κ × ν) (es : List (κ × ν)) :
    assigned k (e :: es) = (assigned k es).or (if e.1 = k then some e.2 else none) := rfl

@[simp] theorem assigned_append (k : κ) (xs ys : List (κ × ν)) :
    assigned k (xs ++ ys) = (assigned k ys).or (assigned k xs) := by
  induction xs with
  | nil => simp
  | cons e xs ih => rw [List.cons_append, assigned_cons, ih, Option.or_assoc, assigned_cons]

theorem assigned_eq_none {k : κ} {es : List (κ × ν)} :
    assigned k es = none ↔ ∀ e ∈ es, e.1 ≠ k := by
  induction es with
  | nil => simp
  | cons e es ih =>
    rw [assigned_cons, Option.or_eq_none_iff, ih]
    by_cases h : e.1 = k
    · simp [h]
    · simp [h]

theorem mem_of_assigned {k : κ} {v : ν} {es : List (κ × ν)} (h : assigned k es = some v) :
    (k, v) ∈ es := by
  induction es with
  | nil => cases h
  | cons e es ih =>
    rw [assigned_cons, Option.or_eq_some_iff] at h
    rcases h with h | ⟨-, h⟩
    · exact List.mem_cons_of_mem _ (ih h)
    · split at h
      · rename_i hk
        cases h
        rw [← hk]
        exact List.mem_cons_self
      · cases h

theorem exists_assigned {k : κ} {es : List (κ × ν)} (h : ∃ e ∈ es, e.1 = k) :
    ∃ v, assigned k es = some v := by
  rw [← Option.isSome_iff_exists, Option.isSome_iff_ne_none, ne_eq, assigned_eq_none]
  obtain ⟨e, he, hk⟩ := h
  exact fun hnone => hnone e he hk

/-- In a map every key is assigned once. -/
theorem OrdMap.assigned_entries (m : OrdMap κ ν) (k : κ) : assigned k m.entries = m.get k := by
  cases hget : m.get k with
  | none =>
    refine assigned_eq_none.mpr fun e he hk => ?_
    rw [← hk, OrdMap.get_of_mem he] at hget
    cases hget
  | some v =>
    obtain ⟨v', hv'⟩ := exists_assigned ⟨(k, v), OrdMap.mem_of_get hget, rfl⟩
    have hget' : m.get k = some v' := OrdMap.get_of_mem (mem_of_assigned hv')
    rw [hv', ← hget', hget]

/-! ## Maps in their order -/

namespace OrdMap

section Order

variable [LT κ] [DecidableLT κ]

omit [DecidableEq κ] in
theorem mem_place {e e' : κ × ν} {es : List (κ × ν)} :
    e' ∈ place e es ↔ e' = e ∨ e' ∈ es := by
  rw [(perm_place e es).mem_iff, List.mem_cons]

omit [DecidableEq κ] in
theorem pairwise_place (htrans : ∀ a b c : κ, a < b → b < c → a < c)
    (htotal : ∀ a b : κ, a ≠ b → a < b ∨ b < a) {e : κ × ν} {es : List (κ × ν)}
    (hes : es.Pairwise fun a b => a.1 < b.1) (hfresh : ∀ e' ∈ es, e'.1 ≠ e.1) :
    (place e es).Pairwise fun a b => a.1 < b.1 := by
  induction es with
  | nil => exact List.pairwise_singleton _ _
  | cons e' es ih =>
    obtain ⟨hfirst, hrest⟩ := List.pairwise_cons.mp hes
    unfold place
    split
    · rename_i hlt
      refine List.pairwise_cons.mpr ⟨fun e'' he'' => ?_, hes⟩
      rcases List.mem_cons.mp he'' with rfl | hmem
      · exact hlt
      · exact htrans _ _ _ hlt (hfirst e'' hmem)
    · rename_i hnlt
      refine List.pairwise_cons.mpr ⟨fun e'' he'' => ?_, ih hrest fun d hd =>
        hfresh d (List.mem_cons_of_mem _ hd)⟩
      rcases mem_place.mp he'' with rfl | hmem
      · exact (htotal _ _ (hfresh e' List.mem_cons_self)).resolve_right hnlt
      · exact hfirst e'' hmem

theorem pairwise_insert (htrans : ∀ a b c : κ, a < b → b < c → a < c)
    (htotal : ∀ a b : κ, a ≠ b → a < b ∨ b < a) {m : OrdMap κ ν} {k : κ} {v : ν}
    (hm : m.entries.Pairwise fun a b => a.1 < b.1) :
    (m.insert k v).entries.Pairwise fun a b => a.1 < b.1 :=
  pairwise_place htrans htotal (hm.sublist List.filter_sublist) fun e he => by
    simpa using (List.mem_filter.mp he).2

omit [DecidableLT κ] in
/-- The assignments of the entries at two keys, in their order. -/
theorem assigned_two {μ : Type} [DecidableEq μ] {m : OrdMap κ (OrdMap μ ν)} {k₁ k₂ : κ}
    {p : κ → Bool}
    (hm : m.entries.Pairwise fun a b => a.1 < b.1) (hirrefl : ∀ a : κ, ¬ a < a)
    (hlt : ¬ k₂ < k₁) (hp : ∀ k, p k = true ↔ k = k₁ ∨ k = k₂) (name : μ) :
    assigned name ((m.entries.filter fun e => p e.1).flatMap (·.2.entries)) =
      ((m.get k₂).bind (·.get name)).or ((m.get k₁).bind (·.get name)) := by
  have hget : ∀ k, p k → ∀ s, m.get k = some s ↔ (k, s) ∈ m.entries.filter fun e => p e.1 := by
    intro k hk s
    rw [List.mem_filter]
    exact ⟨fun h => ⟨mem_of_get h, hk⟩, fun h => get_of_mem h.1⟩
  have hkeys : ∀ e ∈ m.entries.filter fun e => p e.1, e.1 = k₁ ∨ e.1 = k₂ := fun e he =>
    (hp e.1).mp (List.mem_filter.mp he).2
  have hp₁ : p k₁ := (hp k₁).mpr (.inl rfl)
  have hp₂ : p k₂ := (hp k₂).mpr (.inr rfl)
  have hsorted := hm.sublist (List.filter_sublist (p := fun e => p e.1))
  -- two keys at most, and the smaller one first
  generalize m.entries.filter (fun e => p e.1) = es at hget hkeys hsorted
  have hnone : ∀ k, p k → (∀ e ∈ es, e.1 ≠ k) → m.get k = none := by
    intro k hk hno
    cases hget' : m.get k with
    | none => rfl
    | some s => exact absurd rfl (hno _ ((hget k hk s).mp hget'))
  have hone : ∀ e : κ × OrdMap μ ν, es = [e] →
      assigned name (es.flatMap (·.2.entries)) = e.2.get name := by
    rintro e rfl
    rw [List.flatMap_cons, List.flatMap_nil, List.append_nil, assigned_entries]
  rcases es with _ | ⟨e, _ | ⟨e', rest⟩⟩
  · rw [hnone k₁ hp₁ (by simp), hnone k₂ hp₂ (by simp)]
    rfl
  · rw [hone e rfl]
    by_cases h₂ : e.1 = k₂
    · rw [(hget k₂ hp₂ e.2).mpr (by rw [← h₂]; simp)]
      by_cases h₁ : k₁ = k₂
      · rw [h₁, (hget k₂ hp₂ e.2).mpr (by rw [← h₂]; simp)]
        simp
      · rw [hnone k₁ hp₁ (by simpa [h₂] using Ne.symm h₁)]
        simp
    · have h₁ : e.1 = k₁ := (hkeys e List.mem_cons_self).resolve_right h₂
      rw [(hget k₁ hp₁ e.2).mpr (by rw [← h₁]; simp), hnone k₂ hp₂ (by simpa using h₂)]
      simp
  · obtain ⟨hfirst, hrest⟩ := List.pairwise_cons.mp hsorted
    have hlt' : e.1 < e'.1 := hfirst e' List.mem_cons_self
    have h₁ : e.1 = k₁ ∧ e'.1 = k₂ := by
      rcases hkeys e (by simp) with h | h <;> rcases hkeys e' (by simp) with h' | h'
      · exact absurd hlt' (by rw [h, h']; exact hirrefl _)
      · exact ⟨h, h'⟩
      · exact absurd hlt' (by rw [h, h']; exact hlt)
      · exact absurd hlt' (by rw [h, h']; exact hirrefl _)
    have hend : rest = [] := by
      refine List.eq_nil_iff_forall_not_mem.mpr fun d hd => ?_
      have hde : e.1 < d.1 := hfirst d (by simp [hd])
      have hde' : e'.1 < d.1 := (List.pairwise_cons.mp hrest).1 d hd
      rcases hkeys d (by simp [hd]) with h | h
      · exact hirrefl k₁ (by rw [h, h₁.1] at hde; exact hde)
      · exact hirrefl k₂ (by rw [h, h₁.2] at hde'; exact hde')
    subst hend
    rw [(hget k₂ hp₂ e'.2).mpr (by rw [← h₁.2]; simp),
      (hget k₁ hp₁ e.2).mpr (by rw [← h₁.1]; simp)]
    simp only [List.flatMap_cons, List.flatMap_nil, List.append_nil, assigned_append,
      assigned_entries, Option.bind_some]

end Order

end OrdMap

end FluidBG.Lib
