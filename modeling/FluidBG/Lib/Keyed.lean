import Mathlib.Data.List.Nodup
/-!
# Lists of records under distinct keys

A table as a list: each element carries its key, a lookup takes the first element under a key, and
an update rewrites the elements under it. With distinct keys the list is a finite map, and lookup
and membership say the same.
-/

set_option autoImplicit false

namespace FluidBG.Lib.Keyed

variable {α κ : Type} [DecidableEq κ] (key : α → κ)

/-- The first element under `k`. -/
def lookup (k : κ) (xs : List α) : Option α :=
  xs.find? fun x => key x = k

/-- The elements under `k` rewritten by `f`. -/
def update (k : κ) (f : α → α) (xs : List α) : List α :=
  xs.map fun x => if key x = k then f x else x

/-- No two elements share a key. -/
def Distinct (xs : List α) : Prop := (xs.map key).Nodup

variable {key} {k k' : κ} {f : α → α} {xs : List α} {x : α}

theorem mem_of_lookup (h : lookup key k xs = some x) : x ∈ xs :=
  List.mem_of_find?_eq_some h

theorem key_of_lookup (h : lookup key k xs = some x) : key x = k := by
  simpa using List.find?_some h

theorem lookup_eq_none : lookup key k xs = none ↔ ∀ x ∈ xs, key x ≠ k := by
  simp [lookup]

omit [DecidableEq κ] in
theorem Distinct.eq_of_key {y : α} (hd : Distinct key xs) (hx : x ∈ xs) (hy : y ∈ xs)
    (h : key x = key y) : x = y :=
  List.inj_on_of_nodup_map hd hx hy h

/-- A list with distinct keys is a map. -/
theorem Distinct.lookup_of_mem (hd : Distinct key xs) (hx : x ∈ xs) :
    lookup key (key x) xs = some x := by
  cases h : lookup key (key x) xs with
  | none => exact absurd rfl (lookup_eq_none.mp h x hx)
  | some y => rw [hd.eq_of_key (mem_of_lookup h) hx (key_of_lookup h)]

/-- What a search under a key finds is the element that has it. -/
theorem Distinct.getElem?_of_find? {p : α → Bool} {i : Nat} (hd : Distinct key xs)
    (hi : (xs.map key)[i]? = some k)
    (h : xs.find? (fun x => decide (key x = k) && p x) = some x) : xs[i]? = some x := by
  rw [List.getElem?_map, Option.map_eq_some_iff] at hi
  obtain ⟨y, hy, hkey⟩ := hi
  have hfound := List.find?_some h
  rw [Bool.and_eq_true, decide_eq_true_eq] at hfound
  have heq := hd.eq_of_key (List.mem_of_getElem? hy) (List.mem_of_find?_eq_some h)
    (hkey.trans hfound.1.symm)
  rw [hy, heq]

/-! ## Updates -/

theorem mem_update {y : α} : y ∈ update key k f xs ↔
    ∃ x ∈ xs, (if key x = k then f x else x) = y :=
  List.mem_map

/-- An element under another key stays. -/
theorem mem_update_of_ne (hx : x ∈ xs) (hne : key x ≠ k) : x ∈ update key k f xs :=
  mem_update.mpr ⟨x, hx, if_neg hne⟩

/-- Where `f` keeps the keys, an update changes what is found under its own key only. -/
theorem lookup_update (hf : ∀ x, key (f x) = key x) :
    lookup key k' (update key k f xs) =
      if k' = k then (lookup key k' xs).map f else lookup key k' xs := by
  induction xs with
  | nil => simp [lookup, update]
  | cons x xs ih =>
    have hkey : key (if key x = k then f x else x) = key x := by
      split
      · exact hf x
      · rfl
    unfold lookup update at ih ⊢
    rw [List.map_cons, List.find?_cons, List.find?_cons, hkey]
    by_cases hx : key x = k'
    · subst hx
      by_cases hk : key x = k <;> simp [hk]
    · simp only [hx, decide_false, ih]

theorem map_key_update (hf : ∀ x, key (f x) = key x) :
    (update key k f xs).map key = xs.map key := by
  unfold update
  rw [List.map_map]
  apply List.map_congr_left
  intro x _
  show key (if key x = k then f x else x) = key x
  split
  · exact hf x
  · rfl

theorem Distinct.update (hd : Distinct key xs) (hf : ∀ x, key (f x) = key x) :
    Distinct key (update key k f xs) := by
  unfold Distinct
  rw [map_key_update hf]
  exact hd

/-! ## Insertion and removal -/

theorem lookup_append_new (h : lookup key (key x) xs = none) :
    lookup key k (xs ++ [x]) = if k = key x then some x else lookup key k xs := by
  unfold lookup at h ⊢
  rw [List.find?_append]
  by_cases hk : k = key x
  · subst hk
    simp [h]
  · have hne : key x ≠ k := fun h => hk h.symm
    simp [hk, hne]

theorem Distinct.append_new (hd : Distinct key xs) (h : lookup key (key x) xs = none) :
    Distinct key (xs ++ [x]) := by
  unfold Distinct at hd ⊢
  rw [List.map_append]
  refine List.Nodup.append hd (List.nodup_singleton _) ?_
  intro k hk hk'
  obtain ⟨y, hy, rfl⟩ := List.mem_map.mp hk
  exact lookup_eq_none.mp h y hy (List.mem_singleton.mp hk')

omit [DecidableEq κ] in
theorem Distinct.filter {p : α → Bool} (hd : Distinct key xs) : Distinct key (xs.filter p) :=
  hd.sublist (List.Sublist.map key List.filter_sublist)

/-- A filter loses what is under `k`, or leaves it. -/
theorem Distinct.lookup_filter {p : α → Bool} (hd : Distinct key xs) :
    lookup key k (xs.filter p) = (lookup key k xs).filter p := by
  cases h : lookup key k xs with
  | none =>
    have hnone := lookup_eq_none.mp h
    exact lookup_eq_none.mpr fun x hx => hnone x (List.mem_of_mem_filter hx)
  | some x =>
    obtain rfl := key_of_lookup h
    cases hp : p x with
    | true =>
      have hx : x ∈ xs.filter p := List.mem_filter.mpr ⟨mem_of_lookup h, hp⟩
      rw [hd.filter.lookup_of_mem hx, Option.filter_some, if_pos hp]
    | false =>
      have hnone : lookup key (key x) (xs.filter p) = none := by
        refine lookup_eq_none.mpr fun y hy hkey => ?_
        obtain ⟨hy, hpy⟩ := List.mem_filter.mp hy
        rw [hd.eq_of_key hy (mem_of_lookup h) hkey, hp] at hpy
        cases hpy
      rw [hnone, Option.filter_some, hp]
      rfl

/-- A filter that keeps everything under `k` does not change what is found there. -/
theorem lookup_filter_of {p : α → Bool} (h : ∀ x ∈ xs, key x = k → p x) :
    lookup key k (xs.filter p) = lookup key k xs := by
  unfold lookup
  induction xs with
  | nil => rfl
  | cons x xs ih =>
    have hxs := ih fun y hy => h y (List.mem_cons_of_mem x hy)
    rw [List.filter_cons, List.find?_cons]
    by_cases hk : key x = k
    · rw [if_pos (h x List.mem_cons_self hk), List.find?_cons]
      simp [hk]
    · by_cases hp : p x
      · rw [if_pos hp, List.find?_cons]
        simpa [hk] using hxs
      · rw [if_neg hp]
        simpa [hk] using hxs

end FluidBG.Lib.Keyed
