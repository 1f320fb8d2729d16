import FluidBG.Lib.Readings
import FluidBG.Sdk
import Mathlib.Data.List.Dedup
import Mathlib.Data.List.Sort
/-!
# What can be read of one document

A filter reads a document as a whole, which then has to be a string, or along a JSON path. Two paths
go together in one document unless one of them ends where the other goes on: there one needs a
scalar and the other an object. Any other set of paths can be filled, each with any text.
-/

set_option autoImplicit false

namespace FluidBG

open Lib

theorem lookup_map_of_mem {α : Type} {keys : List String} {key : String} (f : String → α)
    (h : key ∈ keys) : (keys.map fun k => (k, f k)).lookup key = some (f key) := by
  induction keys with
  | nil => simp at h
  | cons k keys ih =>
    simp only [List.map_cons, List.lookup_cons]
    by_cases hk : key = k
    · simp [hk]
    · have hne : (key == k) = false := by simpa using hk
      rw [hne]
      exact ih ((List.mem_cons.mp h).resolve_left hk)

/-! ## Reading along a path -/

/-- The keys of a JSON path. -/
def pathKeys (path : String) : List String :=
  splitDots (stripPrefixChar '.' (stripPrefixChar '$' path.toList))

namespace Json

/-- The text of a value that is neither `null` nor a composite. -/
def scalarText : Json → Option String
  | .str s => some s
  | .num n => some n.text
  | .bool b => some (if b then "true" else "false")
  | _ => none

def follow : List String → Json → Option Json
  | [], v => some v
  | key :: keys, v => (v.get key).bind (follow keys)

/-- What a filter reads of a document: all of it, if it is a string, or the scalar at a path. -/
def readAt : List String → Json → Option String
  | [], v => v.asStr
  | key :: keys, v => (follow (key :: keys) v).bind scalarText

theorem follow_append (keys keys' : List String) (v : Json) :
    follow (keys ++ keys') v = (follow keys v).bind (follow keys') := by
  induction keys generalizing v with
  | nil => rfl
  | cons key keys ih =>
    simp only [List.cons_append, follow, Option.bind_assoc]
    congr 1
    funext w
    exact ih w

theorem foldl_get (keys : List String) (v : Option Json) :
    keys.foldl (fun current key => current.bind (get key)) v = v.bind (follow keys) := by
  induction keys generalizing v with
  | nil => simp [follow]
  | cons key keys ih =>
    simp only [List.foldl_cons, ih, Option.bind_assoc]
    rfl

/-- A scalar has no keys. -/
theorem get_of_scalarText {v : Json} {s : String} (h : v.scalarText = some s) (key : String) :
    v.get key = none := by
  cases v with
  | null => rfl
  | bool b => rfl
  | num n => rfl
  | str s => rfl
  | arr xs => rfl
  | obj fields => simp [scalarText] at h

theorem scalarText_of_asStr {v : Json} {s : String} (h : v.asStr = some s) :
    v.scalarText = some s := by
  cases v with
  | str t => exact h
  | null => simp [asStr] at h
  | bool b => simp [asStr] at h
  | num n => simp [asStr] at h
  | arr xs => simp [asStr] at h
  | obj fields => simp [asStr] at h

/-- What is read at a path is a scalar there. -/
theorem follow_of_readAt {keys : List String} {v : Json} {s : String}
    (h : readAt keys v = some s) : ∃ w, follow keys v = some w ∧ w.scalarText = some s := by
  cases keys with
  | nil => exact ⟨v, rfl, scalarText_of_asStr h⟩
  | cons key keys => exact Option.bind_eq_some_iff.mp h

theorem readAt_cons {key : String} {keys : List String} {v w : Json} {s : String}
    (hw : v.get key = some w) (h : readAt keys w = some s) : readAt (key :: keys) v = some s := by
  obtain ⟨x, hx, hs⟩ := follow_of_readAt h
  simp only [readAt, follow, hw, Option.bind_some, hx, hs]

/-- **No path goes on where another one ends.** -/
theorem eq_of_prefix {keys keys' : List String} {v : Json} {s s' : String}
    (h : readAt keys v = some s) (h' : readAt keys' v = some s') (hstart : keys <+: keys') :
    keys = keys' := by
  obtain ⟨rest, rfl⟩ := hstart
  obtain ⟨w, hw, hs⟩ := follow_of_readAt h
  obtain ⟨w', hw', _⟩ := follow_of_readAt h'
  cases rest with
  | nil => simp
  | cons key rest =>
    rw [follow_append, hw, Option.bind_some, follow, get_of_scalarText hs key] at hw'
    simp at hw'

/-! ## Filling paths -/

/-- The paths in `paths` that begin with `key`, without it. -/
def under (key : String) (paths : List (List String)) : List (List String) :=
  paths.filterMap fun path => match path with
    | [] => none
    | first :: rest => if first = key then some rest else none

theorem mem_under {key : String} {paths : List (List String)} {path : List String} :
    path ∈ under key paths ↔ key :: path ∈ paths := by
  unfold under
  rw [List.mem_filterMap]
  constructor
  · intro h
    obtain ⟨path', hpath', h⟩ := h
    cases path' with
    | nil => simp at h
    | cons first rest =>
      simp only [Option.ite_none_right_eq_some, Option.some.injEq] at h
      obtain ⟨rfl, rfl⟩ := h
      exact hpath'
  · intro h
    exact ⟨key :: path, h, by simp⟩

/-- **Paths of which none is a prefix of another** can be given any texts in one document. -/
theorem exists_readAt (paths : List (List String)) (value : List String → String)
    (h : ∀ s ∈ paths, ∀ t ∈ paths, s <+: t → s = t) :
    ∃ v, ∀ path ∈ paths, readAt path v = some (value path) := by
  -- the induction is on a bound for the length of the paths, from the root to the leaves
  have main : ∀ (n : Nat) (paths : List (List String)) (value : List String → String),
      (∀ s ∈ paths, ∀ t ∈ paths, s <+: t → s = t) → (∀ s ∈ paths, s.length ≤ n) →
      ∃ v, ∀ path ∈ paths, readAt path v = some (value path) := by
    intro n
    induction n with
    | zero =>
      intro paths value _ hlength
      refine ⟨.str (value []), fun path hpath => ?_⟩
      cases List.length_eq_zero_iff.mp (Nat.le_zero.mp (hlength path hpath))
      rfl
    | succ n ih =>
      intro paths value hfree hlength
      by_cases hroot : [] ∈ paths
      · -- the whole document is read, so no path goes into it
        refine ⟨.str (value []), fun path hpath => ?_⟩
        cases hfree [] hroot path hpath (List.nil_prefix)
        rfl
      · have hsub : ∀ key, ∃ v, ∀ path ∈ under key paths,
            readAt path v = some (value (key :: path)) := by
          intro key
          refine ih (under key paths) (fun path => value (key :: path)) ?_ ?_
          · intro s hs t ht hst
            have hcons := hfree _ (mem_under.mp hs) _ (mem_under.mp ht)
              ((List.prefix_cons_inj key).mpr hst)
            exact (List.cons.inj hcons).2
          · intro s hs
            have := hlength _ (mem_under.mp hs)
            simpa using this
        choose sub hsub using hsub
        let keys := ((paths.filterMap List.head?).dedup).mergeSort (fun a b => decide (a ≤ b))
        refine ⟨.obj (keys.map fun key => (key, sub key)), fun path hpath => ?_⟩
        cases path with
        | nil => exact absurd hpath hroot
        | cons key rest =>
          have hkey : key ∈ keys := by
            rw [List.mem_mergeSort, List.mem_dedup, List.mem_filterMap]
            exact ⟨key :: rest, hpath, rfl⟩
          exact readAt_cons (lookup_map_of_mem sub hkey) (hsub key rest (mem_under.mpr hpath))
  exact main paths.flatten.length paths value h fun s hs => (List.sublist_flatten_of_mem hs).length_le

/-- One path can always be read. -/
theorem exists_readAt_one (keys : List String) : ∃ v, readAt keys v = some "" := by
  obtain ⟨v, hv⟩ := exists_readAt [keys] (fun _ => "") fun s hs t ht _ => by
    rw [List.mem_singleton.mp hs, List.mem_singleton.mp ht]
  exact ⟨v, hv keys (List.mem_singleton_self keys)⟩

/-- A document, read along paths. -/
def readings : Readings Json (List String) String where
  read := readAt
  Range _ _ := True
  Compatible s t := s <+: t → s = t
  range_of_read _ := trivial
  compatible_of_read := eq_of_prefix
  compatible_self _ _ := rfl
  exists_input slots value h _ := exists_readAt slots value h

end Json

theorem splitDots_ne_nil (cs : List Char) : splitDots cs ≠ [] := by
  cases cs with
  | nil => simp [splitDots]
  | cons c cs =>
    simp only [splitDots]
    split
    · simp
    · split <;> simp

/-- `extract_json_path` reads along the keys of its path. -/
theorem extractJsonPath_eq (v : Json) (path : String) :
    extractJsonPath v path = v.readAt (pathKeys path) := by
  change ((pathKeys path).foldl (fun current key => current.bind (Json.get key)) (some v)).bind _ =
    _
  rw [Json.foldl_get, Option.bind_some]
  cases hkeys : pathKeys path with
  | nil => exact absurd hkeys (splitDots_ne_nil _)
  | cons key keys => rfl

/-- The keys that a filter without a JSON path, or with one, reads along. -/
def bodyKeys (jsonPath : Option String) : List String := (jsonPath.map pathKeys).getD []

theorem asStr_eq (v : Json) : v.asStr = v.readAt (bodyKeys none) := rfl

theorem extractJsonPath_eq_bodyKeys (v : Json) (path : String) :
    extractJsonPath v path = v.readAt (bodyKeys (some path)) :=
  extractJsonPath_eq v path

/-! ## Conditions -/

/-- The test of a condition. -/
def FilterCondition.accepts (isMatch : String → String → Option Bool) (c : FilterCondition)
    (value : String) : Bool :=
  conditionMatches isMatch (some value) c

section Conditions

variable {I S : Type} {R : Readings I S String} {slot : FilterCondition → Option S}
  {isMatch : String → String → Option Bool}

theorem conditionMatches_iff {c : FilterCondition} {i : I} :
    conditionMatches isMatch (R.value slot c i) c = true ↔
      R.Holds slot (FilterCondition.accepts isMatch) c i := by
  unfold Readings.Holds FilterCondition.accepts
  cases hvalue : R.value slot c i with
  | none => simp [conditionMatches]
  | some v => simp

/-- **A filter matches some input** exactly if its conditions are satisfiable. -/
theorem exists_match_iff {conditions : List FilterCondition} :
    (∃ i, conditions.all (fun c => conditionMatches isMatch (R.value slot c i) c) = true) ↔
      R.Satisfiable slot (FilterCondition.accepts isMatch) conditions := by
  simp only [List.all_eq_true, conditionMatches_iff]
  exact Readings.satisfiable_iff

end Conditions

end FluidBG
