import FluidBG.Json
/-!
# Derived deserializers over JSON values

What `#[derive(Deserialize)]` generates, run on a `serde_json::Value`. A struct is read from an
object by the names of its fields and, as the derived visitor also offers, from an array by their
order. `Fields` keeps both readings side by side, so that a struct is declared once, field by field,
and an attribute of a field says what each reading does where the field is missing.
-/

set_option autoImplicit false

namespace FluidBG.Lib.Serde

/-- How a value of a type is read; the text of a failure is never used. -/
abbrev Decoder (α : Type) := Json → Option α

/-! ## Types without fields -/

def string : Decoder String
  | .str s => some s
  | _ => none

def bool : Decoder Bool
  | .bool b => some b
  | _ => none

/-- An integer type with the values from `lo` to `hi`. -/
def integer (lo hi : Int) : Decoder Int
  | .num (.int n) => if lo ≤ n ∧ n ≤ hi then some n else none
  | _ => none

def i64 : Decoder Int := integer (-9223372036854775808) 9223372036854775807

def i32 : Decoder Int := integer (-2147483648) 2147483647

/-- `usize` on a 64-bit target. -/
def usize : Decoder Int := integer 0 18446744073709551615

/-- A value as it is. -/
def value : Decoder Json := some

/-- `Option<T>`: `null` is the missing value. -/
def option {α : Type} (d : Decoder α) : Decoder (Option α)
  | .null => some none
  | v => (d v).map some

/-- `Vec<T>`. -/
def vec {α : Type} (d : Decoder α) : Decoder (List α)
  | .arr xs => xs.mapM d
  | _ => none

/-- `BTreeMap<String, T>`. -/
def map {α : Type} (d : Decoder α) : Decoder (List (String × α))
  | .obj fields => fields.mapM fun field => (d field.2).map fun a => (field.1, a)
  | _ => none

/-- An enum of unit variants: the name of one, or an object with that name as its only key. -/
def unitEnum {α : Type} (variants : List (String × α)) : Decoder α
  | .str s => variants.lookup s
  | .obj [(s, .null)] => variants.lookup s
  | _ => none

/-! ## Structs -/

/-- The fields of a struct in their order, read by name and by position. -/
structure Fields (α : Type) where
  names : List String
  /-- `visit_map`. -/
  visitMap : (String → Option Json) → Option α
  /-- `visit_seq`; the elements that are left over are returned. -/
  visitSeq : List Json → Option (α × List Json)
  /-- An array is read from the left, one element a field. -/
  rest_eq : ∀ {xs a rest}, visitSeq xs = some (a, rest) → rest = xs.drop names.length

namespace Fields

variable {α β : Type}

/-- A struct without fields. -/
def nil (a : α) : Fields α where
  names := []
  visitMap _ := some a
  visitSeq xs := some (a, xs)
  rest_eq h := by
    cases h
    rfl

/-- One more field at the end. `inMap` and `inSeq` stand for it where it is missing. -/
def field (f : Fields (α → β)) (name : String) (d : Decoder α) (inMap inSeq : Option α) :
    Fields β where
  names := f.names ++ [name]
  visitMap get := (f.visitMap get).bind fun g =>
    (match get name with
      | some v => d v
      | none => inMap).map g
  visitSeq xs := (f.visitSeq xs).bind fun gxs => match gxs.2 with
    | [] => inSeq.map fun a => (gxs.1 a, [])
    | x :: rest => (d x).map fun a => (gxs.1 a, rest)
  rest_eq {xs b rest} h := by
    simp only [Option.bind_eq_some_iff] at h
    obtain ⟨⟨g, rest'⟩, hg, h⟩ := h
    have hdrop := f.rest_eq hg
    simp only [List.length_append, List.length_singleton]
    cases rest' with
    | nil =>
      simp only [Option.map_eq_some_iff, Prod.mk.injEq] at h
      obtain ⟨_, _, _, rfl⟩ := h
      have hlength : xs.length ≤ f.names.length := List.drop_eq_nil_iff.mp hdrop.symm
      exact (List.drop_eq_nil_iff.mpr (by omega)).symm
    | cons x rest' =>
      simp only [Option.map_eq_some_iff, Prod.mk.injEq] at h
      obtain ⟨_, _, _, rfl⟩ := h
      rw [← List.drop_drop, ← hdrop]
      rfl

/-- A field without attributes. -/
def required (f : Fields (α → β)) (name : String) (d : Decoder α) : Fields β :=
  f.field name d none none

/-- A field of an `Option` type: where an object lacks it, it is `None`, but an array has to
have it. -/
def optional (f : Fields (Option α → β)) (name : String) (d : Decoder α) : Fields β :=
  f.field name (option d) (some none) none

/-- A field with `#[serde(default)]`. -/
def withDefault (f : Fields (α → β)) (name : String) (d : Decoder α) (default : α) : Fields β :=
  f.field name d (some default) (some default)

/-- The derived `Deserialize`, with `#[serde(deny_unknown_fields)]` where `deny` says so. -/
def decode (f : Fields α) (deny : Bool) : Decoder α
  | .obj fields =>
    if deny && fields.any (fun field => !f.names.contains field.1) then none
    else f.visitMap fun name => fields.lookup name
  | .arr xs => match f.visitSeq xs with
    | some (a, []) => some a
    | _ => none
  | _ => none

/-! ### What a successful reading has read -/

/-- The struct was read from this value. -/
def Reads (f : Fields α) (a : α) : Json → Prop
  | .obj fields => f.visitMap (fun name => fields.lookup name) = some a
  | .arr xs => ∃ rest, f.visitSeq xs = some (a, rest)
  | _ => False

theorem reads_of_decode {f : Fields α} {deny : Bool} {v : Json} {a : α}
    (h : f.decode deny v = some a) : f.Reads a v := by
  cases v with
  | obj fields =>
    simp only [decode] at h
    split at h
    · simp at h
    · exact h
  | arr xs =>
    simp only [decode] at h
    split at h
    · rename_i b hb
      cases h
      exact ⟨[], hb⟩
    · simp at h
  | null => simp [decode] at h
  | bool b => simp [decode] at h
  | num n => simp [decode] at h
  | str s => simp [decode] at h

end Fields

/-- The value of a field: an object has it under its name, an array at its place. -/
def fieldAt (name : String) (place : Nat) : Json → Option Json
  | .obj fields => fields.lookup name
  | .arr xs => xs[place]?
  | _ => none

namespace Fields

variable {α β : Type}

/-- **The last field of a struct that was read** was read from its value there, or was missing. -/
theorem Reads.last {f : Fields (α → β)} {name : String} {d : Decoder α}
    {inMap inSeq : Option α} {v : Json} {b : β} (h : (f.field name d inMap inSeq).Reads b v) :
    ∃ g a, f.Reads g v ∧ b = g a ∧ match fieldAt name f.names.length v with
      | some x => d x = some a
      | none => inMap = some a ∨ inSeq = some a := by
  cases v with
  | obj fields =>
    simp only [Reads, field, Option.bind_eq_some_iff, Option.map_eq_some_iff] at h
    obtain ⟨g, hg, a, ha, rfl⟩ := h
    refine ⟨g, a, hg, rfl, ?_⟩
    simp only [fieldAt]
    cases hlookup : fields.lookup name with
    | none =>
      rw [hlookup] at ha
      exact .inl ha
    | some x =>
      rw [hlookup] at ha
      exact ha
  | arr xs =>
    obtain ⟨rest, h⟩ := h
    simp only [field, Option.bind_eq_some_iff] at h
    obtain ⟨⟨g, rest'⟩, hg, h⟩ := h
    have hdrop := f.rest_eq hg
    simp only [fieldAt]
    have hhead : xs[f.names.length]? = rest'.head? := by
      rw [hdrop, List.head?_drop]
    rw [hhead]
    cases rest' with
    | nil =>
      simp only [Option.map_eq_some_iff, Prod.mk.injEq] at h
      obtain ⟨a, ha, rfl, _⟩ := h
      exact ⟨g, a, ⟨_, hg⟩, rfl, .inr ha⟩
    | cons x rest' =>
      simp only [Option.map_eq_some_iff, Prod.mk.injEq] at h
      obtain ⟨a, ha, rfl, _⟩ := h
      exact ⟨g, a, ⟨_, hg⟩, rfl, ha⟩
  | null => exact h.elim
  | bool b => exact h.elim
  | num n => exact h.elim
  | str s => exact h.elim

theorem Reads.eq_of_nil {a b : α} {v : Json} (h : (nil a).Reads b v) : b = a := by
  cases v with
  | obj fields => exact (Option.some.inj h).symm
  | arr xs =>
    obtain ⟨rest, h⟩ := h
    cases h
    rfl
  | null => exact h.elim
  | bool b => exact h.elim
  | num n => exact h.elim
  | str s => exact h.elim

/-- The last field, where nothing stands for it. -/
theorem Reads.last_required {f : Fields (α → β)} {name : String} {d : Decoder α} {v : Json} {b : β}
    (h : (f.required name d).Reads b v) :
    ∃ g a, f.Reads g v ∧ b = g a ∧ (fieldAt name f.names.length v).bind d = some a := by
  obtain ⟨g, a, hg, rfl, ha⟩ := Reads.last h
  refine ⟨g, a, hg, rfl, ?_⟩
  cases hfield : fieldAt name f.names.length v with
  | some x =>
    rw [hfield] at ha
    exact ha
  | none =>
    rw [hfield] at ha
    simp at ha

/-- The last field, where `None` or a default stands for it when it is missing. -/
theorem Reads.last_getD {f : Fields (α → β)} {name : String} {d : Decoder α} {default : α}
    {inSeq : Option α} (hseq : inSeq = none ∨ inSeq = some default) {v : Json} {b : β}
    (h : (f.field name d (some default) inSeq).Reads b v) :
    ∃ g a, f.Reads g v ∧ b = g a ∧
      ((fieldAt name f.names.length v).map d).getD (some default) = some a := by
  obtain ⟨g, a, hg, rfl, ha⟩ := h.last
  refine ⟨g, a, hg, rfl, ?_⟩
  cases hfield : fieldAt name f.names.length v with
  | some x =>
    rw [hfield] at ha
    exact ha
  | none =>
    rw [hfield] at ha
    rcases ha with ha | ha
    · exact ha
    · rcases hseq with rfl | rfl
      · simp at ha
      · exact ha

end Fields

/-- What may be missing is either `null` or read as what it is. -/
theorem option_eq_some {α : Type} {d : Decoder α} {v : Json} {a : Option α}
    (h : option d v = some a) : v = .null ∧ a = none ∨ ∃ b, d v = some b ∧ a = some b := by
  cases v with
  | null => exact .inl ⟨rfl, (Option.some.inj h).symm⟩
  | bool b => exact .inr ((Option.map_eq_some_iff.mp h).imp fun _ h => ⟨h.1, h.2.symm⟩)
  | num n => exact .inr ((Option.map_eq_some_iff.mp h).imp fun _ h => ⟨h.1, h.2.symm⟩)
  | str s => exact .inr ((Option.map_eq_some_iff.mp h).imp fun _ h => ⟨h.1, h.2.symm⟩)
  | arr xs => exact .inr ((Option.map_eq_some_iff.mp h).imp fun _ h => ⟨h.1, h.2.symm⟩)
  | obj fields => exact .inr ((Option.map_eq_some_iff.mp h).imp fun _ h => ⟨h.1, h.2.symm⟩)

/-- A string that may be missing is the string of the value, if there is one. -/
theorem option_string {v : Json} {s : Option String} (h : option string v = some s) :
    s = v.asStr := by
  cases v <;> simp_all [option, string, Json.asStr]

/-- A field with a string that may be missing. -/
theorem Fields.Reads.last_string {β : Type} {f : Fields (Option String → β)} {name : String}
    {inSeq : Option (Option String)} (hseq : inSeq = none ∨ inSeq = some none) {v : Json} {b : β}
    (h : (f.field name (option string) (some none) inSeq).Reads b v) :
    ∃ g, f.Reads g v ∧ b = g ((fieldAt name f.names.length v).bind Json.asStr) := by
  obtain ⟨g, a, hg, rfl, ha⟩ := h.last_getD hseq
  refine ⟨g, hg, ?_⟩
  congr 1
  cases hfield : fieldAt name f.names.length v with
  | some x =>
    rw [hfield] at ha
    exact option_string ha
  | none =>
    rw [hfield] at ha
    simpa using ha.symm

/-! ### Writing -/

/-- A list of written values is read as it was. -/
theorem vec_map {α : Type} {d : Decoder α} {e : α → Json} (h : ∀ a, d (e a) = some a)
    (xs : List α) : vec d (.arr (xs.map e)) = some xs := by
  unfold vec
  induction xs with
  | nil => rfl
  | cons x xs ih => simp [List.map_cons, List.mapM_cons, h, ih]

/-- A field is read from its value, or is missing and has its default. -/
theorem Fields.visitMap_field {α β : Type} {f : Fields (α → β)} {name : String} {d : Decoder α}
    {inMap inSeq : Option α} {get : String → Option Json} {g : α → β} {a : α}
    (hf : f.visitMap get = some g)
    (ha : (∃ v, get name = some v ∧ d v = some a) ∨ get name = none ∧ inMap = some a) :
    (f.field name d inMap inSeq).visitMap get = some (g a) := by
  simp only [field, hf, Option.bind_some]
  rcases ha with ⟨v, hv, ha⟩ | ⟨hnone, ha⟩
  · simp only [hv, ha, Option.map_some]
  · simp only [hnone, ha, Option.map_some]

end FluidBG.Lib.Serde
