import Mathlib.Data.List.Nodup
import Mathlib.Tactic.Tauto
/-!
# Ordered maps

A map as the list of its entries in key order, with the proof that no key occurs twice. `insert`
puts an entry in its place and drops the entry it replaces, so a map built by insertions lists
its entries in key order, which is what an iteration over it sees. The lookup laws do not need the
order; that a map covers itself needs that keys do not repeat.
-/

set_option autoImplicit false

namespace FluidBG.Lib

/-- An ordered map from `κ` to `ν`. -/
structure OrdMap (κ ν : Type) where
  entries : List (κ × ν)
  nodup : (entries.map Prod.fst).Nodup
  deriving DecidableEq

namespace OrdMap

variable {κ ν : Type}

/-- The value of the first entry at `k`. -/
def lookupKey [DecidableEq κ] (k : κ) : List (κ × ν) → Option ν
  | [] => none
  | (k', v) :: es => if k' = k then some v else lookupKey k es

/-- Put an entry before the first larger key. -/
def place [LT κ] [DecidableLT κ] (e : κ × ν) : List (κ × ν) → List (κ × ν)
  | [] => [e]
  | e' :: es => if e.1 < e'.1 then e :: e' :: es else e' :: place e es

theorem perm_place [LT κ] [DecidableLT κ] (e : κ × ν) (es : List (κ × ν)) : (place e es).Perm (e :: es) := by
  induction es with
  | nil => exact .refl _
  | cons e' es ih =>
    simp only [place]
    split
    · exact .refl _
    · exact (ih.cons e').trans (.swap e e' es)

section Entries

variable [DecidableEq κ]

theorem lookupKey_of_mem {k : κ} {v : ν} {es : List (κ × ν)} (hn : (es.map Prod.fst).Nodup)
    (h : (k, v) ∈ es) : lookupKey k es = some v := by
  induction es with
  | nil => simp at h
  | cons e es ih =>
    obtain ⟨k', v'⟩ := e
    simp only [List.map_cons, List.nodup_cons] at hn
    rcases List.mem_cons.mp h with heq | hmem
    · cases heq
      simp [lookupKey]
    · have hne : k' ≠ k := fun heq => hn.1 (heq ▸ List.mem_map_of_mem hmem)
      simp only [lookupKey, if_neg hne]
      exact ih hn.2 hmem

theorem mem_of_lookupKey {k : κ} {v : ν} {es : List (κ × ν)} (h : lookupKey k es = some v) :
    (k, v) ∈ es := by
  induction es with
  | nil => simp [lookupKey] at h
  | cons e es ih =>
    obtain ⟨k', v'⟩ := e
    by_cases hk : k' = k
    · simp only [lookupKey, if_pos hk, Option.some.injEq] at h
      simp [hk, h]
    · simp only [lookupKey, if_neg hk] at h
      exact List.mem_cons_of_mem _ (ih h)

theorem lookupKey_filter (k k' : κ) (es : List (κ × ν)) :
    lookupKey k' (es.filter fun e => e.1 ≠ k) = if k = k' then none else lookupKey k' es := by
  induction es with
  | nil => simp [lookupKey]
  | cons e es ih =>
    obtain ⟨k₀, v⟩ := e
    by_cases h : k₀ = k
    · subst h
      rw [List.filter_cons_of_neg (by simp), ih]
      by_cases h' : k₀ = k' <;> simp [h', lookupKey]
    · rw [List.filter_cons_of_pos (by simpa using h)]
      simp only [lookupKey, ih]
      by_cases h' : k₀ = k'
      · subst h'
        simp [Ne.symm h]
      · simp [h']

variable [LT κ] [DecidableLT κ]

theorem lookupKey_place (e : κ × ν) (k : κ) {es : List (κ × ν)} (hfresh : e.1 ∉ es.map Prod.fst) :
    lookupKey k (place e es) = if e.1 = k then some e.2 else lookupKey k es := by
  induction es with
  | nil => simp [place, lookupKey]
  | cons e' es ih =>
    simp only [List.map_cons, List.mem_cons, not_or] at hfresh
    simp only [place]
    split
    · rfl
    · simp only [lookupKey, ih hfresh.2]
      by_cases h : e'.1 = k
      · subst h
        simp [hfresh.1]
      · simp [h]

end Entries

theorem not_mem_keys_filter [DecidableEq κ] (k : κ) (es : List (κ × ν)) :
    k ∉ (es.filter fun e => e.1 ≠ k).map Prod.fst := by
  simp

/-! ## The map operations -/

variable [DecidableEq κ]

/-- The value at `k`. -/
def get (m : OrdMap κ ν) (k : κ) : Option ν :=
  lookupKey k m.entries

/-- The map with nothing in it. -/
def empty : OrdMap κ ν := ⟨[], List.nodup_nil⟩

/-- The map without `k`. -/
def remove (m : OrdMap κ ν) (k : κ) : OrdMap κ ν :=
  ⟨m.entries.filter fun e => e.1 ≠ k, m.nodup.sublist (List.filter_sublist.map _)⟩

/-- The map has no entry. -/
def isEmpty (m : OrdMap κ ν) : Bool := m.entries.isEmpty

/-- The keys in order. -/
def keys (m : OrdMap κ ν) : List κ := m.entries.map Prod.fst

/-- Every entry of `sel` is an entry of `m`: a label selector made of equalities. -/
def Covers [DecidableEq ν] (m sel : OrdMap κ ν) : Prop :=
  ∀ e ∈ sel.entries, m.get e.1 = some e.2

instance [DecidableEq ν] (m sel : OrdMap κ ν) : Decidable (m.Covers sel) :=
  inferInstanceAs (Decidable (∀ e ∈ sel.entries, m.get e.1 = some e.2))

@[simp] theorem get_empty (k : κ) : (empty : OrdMap κ ν).get k = none := rfl

theorem get_remove (m : OrdMap κ ν) (k k' : κ) :
    (m.remove k).get k' = if k = k' then none else m.get k' :=
  lookupKey_filter k k' m.entries

@[simp] theorem get_remove_self (m : OrdMap κ ν) (k : κ) : (m.remove k).get k = none := by
  rw [get_remove, if_pos rfl]

theorem get_of_mem {m : OrdMap κ ν} {e : κ × ν} (h : e ∈ m.entries) : m.get e.1 = some e.2 :=
  lookupKey_of_mem m.nodup h

theorem mem_of_get {m : OrdMap κ ν} {k : κ} {v : ν} (h : m.get k = some v) : (k, v) ∈ m.entries :=
  mem_of_lookupKey h

theorem covers_iff [DecidableEq ν] {m sel : OrdMap κ ν} :
    m.Covers sel ↔ ∀ k v, sel.get k = some v → m.get k = some v :=
  ⟨fun h _ _ hget => h _ (mem_of_get hget), fun h _ he => h _ _ (get_of_mem he)⟩

theorem Covers.refl [DecidableEq ν] (m : OrdMap κ ν) : m.Covers m :=
  fun _ he => get_of_mem he

theorem mem_keys_iff {m : OrdMap κ ν} {k : κ} : k ∈ m.keys ↔ (m.get k).isSome := by
  rw [Option.isSome_iff_exists]
  constructor
  · intro h
    obtain ⟨e, he, rfl⟩ := List.mem_map.mp h
    exact ⟨e.2, get_of_mem he⟩
  · rintro ⟨v, hv⟩
    exact List.mem_map_of_mem (mem_of_get hv)

omit [DecidableEq κ] in
@[simp] theorem keys_empty : (empty : OrdMap κ ν).keys = [] := rfl

section Insert

variable [LT κ] [DecidableLT κ]

/-- The map with `v` at `k`. -/
def insert (m : OrdMap κ ν) (k : κ) (v : ν) : OrdMap κ ν where
  entries := place (k, v) (m.entries.filter fun e => e.1 ≠ k)
  nodup := by
    rw [((perm_place (k, v) _).map Prod.fst).nodup_iff]
    exact List.nodup_cons.mpr
      ⟨not_mem_keys_filter k m.entries, m.nodup.sublist (List.filter_sublist.map _)⟩

/-- All of `es` inserted, in the order of the list. -/
def insertAll (m : OrdMap κ ν) (es : List (κ × ν)) : OrdMap κ ν :=
  es.foldl (fun m e => m.insert e.1 e.2) m

/-- The map of a list of entries, a later entry for the same key winning. -/
def ofList (es : List (κ × ν)) : OrdMap κ ν :=
  empty.insertAll es

theorem get_insert (m : OrdMap κ ν) (k k' : κ) (v : ν) :
    (m.insert k v).get k' = if k = k' then some v else m.get k' := by
  have hplace := lookupKey_place (k, v) k' (not_mem_keys_filter k m.entries)
  rw [lookupKey_filter] at hplace
  refine hplace.trans ?_
  by_cases h : k = k' <;> simp [h, get]

@[simp] theorem get_insert_self (m : OrdMap κ ν) (k : κ) (v : ν) :
    (m.insert k v).get k = some v := by
  rw [get_insert, if_pos rfl]

theorem get_insert_of_ne (m : OrdMap κ ν) {k k' : κ} (v : ν) (h : k ≠ k') :
    (m.insert k v).get k' = m.get k' := by
  rw [get_insert, if_neg h]

/-- Inserting at other keys leaves a key alone. -/
theorem get_insertAll_of_not_mem (m : OrdMap κ ν) {es : List (κ × ν)} {k : κ}
    (h : ∀ e ∈ es, e.1 ≠ k) : (m.insertAll es).get k = m.get k := by
  induction es generalizing m with
  | nil => rfl
  | cons e es ih =>
    have hrest : ∀ e' ∈ es, e'.1 ≠ k := fun e' he' => h e' (by simp [he'])
    exact (ih (m.insert e.1 e.2) hrest).trans (get_insert_of_ne m e.2 (h e (by simp)))

/-- What an inserted list without repeated keys puts at its keys. -/
theorem get_insertAll_of_mem (m : OrdMap κ ν) {es : List (κ × ν)} {e : κ × ν}
    (hn : (es.map Prod.fst).Nodup) (he : e ∈ es) : (m.insertAll es).get e.1 = some e.2 := by
  induction es generalizing m with
  | nil => simp at he
  | cons e' es ih =>
    simp only [List.map_cons, List.nodup_cons] at hn
    rcases List.mem_cons.mp he with rfl | hmem
    · have hfresh : ∀ e'' ∈ es, e''.1 ≠ e.1 := by
        intro e'' he'' heq
        exact hn.1 (heq ▸ List.mem_map_of_mem he'')
      exact (get_insertAll_of_not_mem _ hfresh).trans (get_insert_self _ _ _)
    · exact ih (m.insert e'.1 e'.2) hn.2 hmem

/-- What an inserted list whose entries agree puts at its keys. -/
theorem get_insertAll_of_agree (m : OrdMap κ ν) {es : List (κ × ν)} {e : κ × ν} (he : e ∈ es)
    (h : ∀ e' ∈ es, e'.1 = e.1 → e'.2 = e.2) : (m.insertAll es).get e.1 = some e.2 := by
  induction es generalizing m with
  | nil => simp at he
  | cons e' es ih =>
    by_cases hrest : ∃ e'' ∈ es, e''.1 = e.1
    · obtain ⟨e'', hmem, hkey⟩ := hrest
      have hvalue := h e'' (by simp [hmem]) hkey
      have hin : e ∈ es := by
        rw [← Prod.ext hkey hvalue]
        exact hmem
      exact ih (m.insert e'.1 e'.2) hin fun x hx => h x (by simp [hx])
    · have hfresh : ∀ e'' ∈ es, e''.1 ≠ e.1 := fun e'' hmem hkey => hrest ⟨e'', hmem, hkey⟩
      rcases List.mem_cons.mp he with rfl | hmem
      · exact (get_insertAll_of_not_mem _ hfresh).trans (get_insert_self _ _ _)
      · exact absurd rfl (hfresh e hmem)

theorem get_ofList_of_mem {es : List (κ × ν)} {e : κ × ν} (hn : (es.map Prod.fst).Nodup)
    (he : e ∈ es) : (ofList es).get e.1 = some e.2 :=
  get_insertAll_of_mem empty hn he

/-- A map into which another one was merged covers it. -/
theorem insertAll_covers [DecidableEq ν] (m sel : OrdMap κ ν) :
    (m.insertAll sel.entries).Covers sel :=
  fun _ he => get_insertAll_of_mem m sel.nodup he

@[simp] theorem mem_keys_insert {m : OrdMap κ ν} {k k' : κ} {v : ν} :
    k' ∈ (m.insert k v).keys ↔ k' = k ∨ k' ∈ m.keys := by
  simp only [mem_keys_iff, get_insert]
  by_cases h : k = k'
  · simp [h]
  · simp [h, Ne.symm h]

@[simp] theorem mem_keys_insertAll {m : OrdMap κ ν} {es : List (κ × ν)} {k : κ} :
    k ∈ (m.insertAll es).keys ↔ k ∈ m.keys ∨ k ∈ es.map Prod.fst := by
  induction es generalizing m with
  | nil => simp [insertAll]
  | cons e es ih =>
    have hstep : m.insertAll (e :: es) = (m.insert e.1 e.2).insertAll es := rfl
    rw [hstep, ih, mem_keys_insert, List.map_cons, List.mem_cons]
    tauto

@[simp] theorem mem_keys_ofList {es : List (κ × ν)} {k : κ} :
    k ∈ (ofList es).keys ↔ k ∈ es.map Prod.fst := by
  simp [ofList]

end Insert

end OrdMap

end FluidBG.Lib
