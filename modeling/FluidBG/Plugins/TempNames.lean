import FluidBG.Sdk
/-!
# Temporary names in a plugin's configuration

The managers of the queue plugins and of NATS put the derived temporary names into the JSON of an
inception point's configuration before they read it: `rewrite_queue_temp_names`,
`rewrite_temp_subjects`, `temporary_queue_identifier` and `set_nested_string` of the three crates.
The crates differ in the names of the fields, which are collected in `TempNames`.
-/

set_option autoImplicit false

namespace FluidBG

open Lib

/-- The identity the temporary names of an inception are derived from. -/
structure InceptionId where
  ns : String
  blueGreenRef : String
  blueGreenUid : Option String
  inceptionPoint : String
  deriving DecidableEq

def PluginAuthClaims.inceptionId (claims : PluginAuthClaims) : InceptionId :=
  ⟨claims.ns, claims.blueGreenRef, claims.blueGreenUid, claims.inceptionPoint⟩

def ActiveInception.inceptionId (active : ActiveInception) : InceptionId :=
  ⟨active.ns, active.blueGreenRef, active.blueGreenUid, active.inceptionPoint⟩

/-- The derived name of one temporary queue or subject. -/
def InceptionId.tempName (id : InceptionId) (role logical : String) (identifier : Option String) :
    String :=
  derivedTempQueueNameWithUidAndIdentifier id.ns id.blueGreenRef (id.blueGreenUid.getD "")
    id.inceptionPoint role logical identifier

/-- A field of a role's block that holds a temporary name. -/
structure TempField where
  role : String
  name : String
  logical : String

/-- How a plugin names the fields of its configuration. -/
structure TempNames where
  identifier : String
  fields : List TempField

/-- `set_nested_string`. Nothing is set where the path does not lead through objects. -/
def setNestedString (value : String) : List String → Json → Json
  | [last], .obj fields => .obj (Json.insertField last (.str value) fields)
  | segment :: rest, .obj fields => match fields.lookup segment with
    | some next => .obj (Json.insertField segment (setNestedString value rest next) fields)
    | none => .obj fields
  | _, current => current

/-- `temporary_queue_identifier` and `temporary_subject_identifier`. -/
def temporaryIdentifier (names : TempNames) (config : Json) (role : String) : Option String :=
  ((config.get role).bind (Json.get names.identifier)).bind Json.asStr

/-- `rewrite_queue_temp_names` and `rewrite_temp_subjects`. -/
def rewriteTempNames (names : TempNames) (id : InceptionId) (config : Json) : Json :=
  names.fields.foldl (fun current field => setNestedString
    (id.tempName field.role field.logical (temporaryIdentifier names config field.role))
    [field.role, field.name] current) config

/-! ## What the rewrite reaches -/

theorem Json.lookup_insertField (key k : String) (value : Json) (fields : List (String × Json)) :
    (Json.insertField key value fields).lookup k =
      if k = key then some value else fields.lookup k := by
  induction fields with
  | nil =>
    by_cases hk : k = key
    · simp [Json.insertField, hk]
    · simp [Json.insertField, List.lookup_cons, beq_false_of_ne hk, hk]
  | cons field fields ih =>
    obtain ⟨k₀, v₀⟩ := field
    rw [Json.insertField]
    by_cases hkey : k₀ = key
    · subst hkey
      by_cases hk : k = k₀
      · simp [hk]
      · simp [List.lookup_cons, beq_false_of_ne hk, hk]
    · rw [if_neg hkey]
      split
      · by_cases hk : k = key
        · simp [hk]
        · simp [List.lookup_cons, beq_false_of_ne hk, hk]
      · simp only [List.lookup_cons]
        by_cases hk₀ : k = k₀
        · have hne : k ≠ key := by rw [hk₀]; exact hkey
          simp [hk₀, hkey]
        · rw [beq_false_of_ne hk₀]
          exact ih

/-- The rewrite of one field, at a block that is an object. -/
def setField (field : TempField) (value : String) : Json → Json
  | .obj fields => .obj (Json.insertField field.name (.str value) fields)
  | block => block

theorem setNestedString_two (value : String) (role name logical : String)
    (fields : List (String × Json)) : ∃ fields',
      setNestedString value [role, name] (.obj fields) = .obj fields' ∧
      ∀ key, fields'.lookup key = if key = role then
        (fields.lookup role).map (setField ⟨role, name, logical⟩ value) else fields.lookup key := by
  cases hlookup : fields.lookup role with
  | none =>
    refine ⟨fields, by simp [setNestedString, hlookup], fun key => ?_⟩
    by_cases hkey : key = role
    · simp [hkey, hlookup]
    · simp [hkey]
  | some next =>
    refine ⟨_, by rw [setNestedString, hlookup]; simp, fun key => ?_⟩
    rw [Json.lookup_insertField]
    by_cases hkey : key = role
    · rw [if_pos hkey, if_pos hkey]
      cases next <;> rfl
    · rw [if_neg hkey, if_neg hkey]

section Rewrite

variable (names : TempNames) (id : InceptionId)

/-- The rewrite of one role's block, when the identifier is known. -/
def rewriteBlock (fields : List TempField) (identifier : Option String) (block : Json) : Json :=
  fields.foldl (fun block field =>
    setField field (id.tempName field.role field.logical identifier) block) block

/-- An object is rewritten block by block. -/
theorem rewriteTempNames_obj (config : List (String × Json)) : ∃ fields',
    rewriteTempNames names id (.obj config) = .obj fields' ∧ ∀ role,
      fields'.lookup role = (config.lookup role).map
        (rewriteBlock id (names.fields.filter fun field => field.role = role)
          (temporaryIdentifier names (.obj config) role)) := by
  suffices ∀ (todo : List TempField) (current : List (String × Json)), ∃ fields',
      todo.foldl (fun current field => setNestedString
        (id.tempName field.role field.logical
          (temporaryIdentifier names (.obj config) field.role))
        [field.role, field.name] current) (.obj current) = .obj fields' ∧ ∀ role,
      fields'.lookup role = (current.lookup role).map
        (rewriteBlock id (todo.filter fun field => field.role = role)
          (temporaryIdentifier names (.obj config) role)) from this names.fields config
  intro todo
  induction todo with
  | nil =>
    intro current
    refine ⟨current, rfl, fun role => ?_⟩
    show current.lookup role = (current.lookup role).map fun block => block
    simp
  | cons field todo ih =>
    intro current
    obtain ⟨next, hnext, hlookup⟩ := setNestedString_two
      (id.tempName field.role field.logical (temporaryIdentifier names (.obj config) field.role))
      field.role field.name field.logical current
    obtain ⟨fields', heq, hfields'⟩ := ih next
    refine ⟨fields', by rw [List.foldl_cons, hnext]; exact heq, fun role => ?_⟩
    rw [hfields' role, hlookup role]
    by_cases hrole : role = field.role
    · subst hrole
      rw [if_pos rfl, List.filter_cons_of_pos (by simp)]
      cases current.lookup field.role with
      | none => rfl
      | some block => rfl
    · rw [if_neg hrole, List.filter_cons_of_neg (by simpa using fun h => hrole h.symm)]

/-- What is not an object is not rewritten at all. -/
theorem rewriteTempNames_not_obj {config : Json} (h : ∀ fields, config ≠ .obj fields) :
    rewriteTempNames names id config = config := by
  unfold rewriteTempNames
  induction names.fields with
  | nil => rfl
  | cons field todo ih =>
    rw [List.foldl_cons]
    have hsame : ∀ value, setNestedString value [field.role, field.name] config = config := by
      intro value
      cases config <;> first | rfl | exact absurd rfl (h _)
    rw [hsame]
    exact ih

end Rewrite

end FluidBG
