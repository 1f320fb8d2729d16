import FluidBG.Plugins.TempNames
/-!
# The names a configuration brings along

The rewrite of the temporary names walks through objects, and the reading after it takes arrays as
well. So the names a manager finds in the configuration are of two kinds: where the configuration
and the block of the role are objects, they are the derived ones, and anywhere else they are what
the sender of the request has put there.
-/

set_option autoImplicit false

namespace FluidBG

open Lib

/-- Where a plugin reads the temporary names of a role: the block in the configuration, and the
fields in the block. Each has a name, and a place for the case of an array. -/
structure NamePlaces where
  block : String
  place : Nat
  fields : List (String × Nat)

namespace NamePlaces

variable (p : NamePlaces)

/-- The names in a block. -/
def inBlock (block : Json) : List String :=
  p.fields.filterMap fun field => (Serde.fieldAt field.1 field.2 block).bind Json.asStr

/-- The names in a configuration. -/
def inConfig (config : Json) : List String :=
  ((Serde.fieldAt p.block p.place config).map p.inBlock).getD []

/-- The names in a configuration that the rewrite does not reach. -/
def supplied (config : Json) : List String :=
  match config, Serde.fieldAt p.block p.place config with
  | .obj _, some (.obj _) => []
  | _, some block => p.inBlock block
  | _, none => []

/-- The rewrite sets every field of the block. -/
def Rewritten (names : TempNames) : Prop :=
  ∀ field ∈ p.fields, ∃ t ∈ names.fields, t.role = p.block ∧ t.name = field.1

instance (names : TempNames) : Decidable (p.Rewritten names) :=
  inferInstanceAs (Decidable (∀ field ∈ p.fields, ∃ t ∈ names.fields, t.role = p.block ∧
    t.name = field.1))

end NamePlaces

/-- A name derived for the inception. -/
def InceptionId.Derived (id : InceptionId) (name : String) : Prop :=
  ∃ role logical identifier, name = id.tempName role logical identifier

/-- Derived names begin like the names a sweep looks for. -/
theorem InceptionId.Derived.starts {id : InceptionId} {name : String} (h : id.Derived name) :
    "fluidbg-".toList.isPrefixOf name.toList := by
  obtain ⟨role, logical, identifier, rfl⟩ := h
  rw [List.isPrefixOf_iff_prefix]
  simp only [InceptionId.tempName, derivedTempQueueNameWithUidAndIdentifier]
  split
  · simp only [toString, String.toList_append, List.append_assoc]
    exact ⟨_, rfl⟩
  · simp only [toString, String.toList_append, List.append_assoc]
    exact ⟨_, rfl⟩

/-! ## Blocks that were read -/

section Reading

variable {p : NamePlaces} {value : Json} {a b : String × Nat}

theorem NamePlaces.inBlock_single (hp : p.fields = [a]) :
    p.inBlock value = ((Serde.fieldAt a.1 a.2 value).bind Json.asStr).toList := by
  unfold NamePlaces.inBlock
  rw [hp]
  cases h : (Serde.fieldAt a.1 a.2 value).bind Json.asStr <;> simp [h]

theorem NamePlaces.inBlock_pair (hp : p.fields = [a, b]) :
    p.inBlock value = ((Serde.fieldAt a.1 a.2 value).bind Json.asStr).toList ++
      ((Serde.fieldAt b.1 b.2 value).bind Json.asStr).toList := by
  unfold NamePlaces.inBlock
  rw [hp]
  cases hfst : (Serde.fieldAt a.1 a.2 value).bind Json.asStr <;>
    cases hsnd : (Serde.fieldAt b.1 b.2 value).bind Json.asStr <;>
    simp [hfst, hsnd]

/-- The names of a block that may be missing. -/
theorem NamePlaces.inConfig_of_read {B : Type} {d : Serde.Decoder B} {v : Json} {block : Option B}
    {names : B → List String}
    (hread : ((Serde.fieldAt p.block p.place v).map (Serde.option d)).getD (some none) = some block)
    (hnames : ∀ value b, d value = some b → names b = p.inBlock value)
    (hnull : p.inBlock .null = []) : (block.map names).getD [] = p.inConfig v := by
  unfold NamePlaces.inConfig
  cases hfield : Serde.fieldAt p.block p.place v with
  | none =>
    rw [hfield] at hread
    cases hread
    rfl
  | some value =>
    rw [hfield] at hread
    rcases Serde.option_eq_some hread with ⟨rfl, rfl⟩ | ⟨b, hb, rfl⟩
    · exact hnull.symm
    · exact hnames value b hb

end Reading

/-! ## The two kinds of names -/

section Blocks

variable (id : InceptionId) (identifier : Option String)

/-- A block that is an object has derived names in the fields that are rewritten. -/
theorem rewriteBlock_obj (todo : List TempField) (fields : List (String × Json)) : ∃ fields',
    rewriteBlock id todo identifier (.obj fields) = .obj fields' ∧
    ∀ name, (∃ t ∈ todo, t.name = name) ∨
        (∃ value, fields.lookup name = some (.str value) ∧ id.Derived value) →
      ∃ value, fields'.lookup name = some (.str value) ∧ id.Derived value := by
  induction todo generalizing fields with
  | nil =>
    refine ⟨fields, rfl, fun name h => ?_⟩
    rcases h with ⟨t, ht, _⟩ | h
    · simp at ht
    · exact h
  | cons t todo ih =>
    obtain ⟨fields', heq, hfields'⟩ := ih (Json.insertField t.name
      (.str (id.tempName t.role t.logical identifier)) fields)
    refine ⟨fields', heq, fun name h => hfields' name ?_⟩
    by_cases hname : name = t.name
    · -- the field that was just set keeps its name or gets another derived one
      refine .inr ⟨_, ?_, t.role, t.logical, identifier, rfl⟩
      rw [Json.lookup_insertField, if_pos hname]
    · rcases h with ⟨t', ht', htname⟩ | h
      · rcases List.mem_cons.mp ht' with rfl | ht'
        · exact absurd htname.symm hname
        · exact .inl ⟨t', ht', htname⟩
      · refine .inr ?_
        rw [Json.lookup_insertField, if_neg hname]
        exact h

/-- Any other block stays as it is. -/
theorem rewriteBlock_not_obj {block : Json} (h : ∀ fields, block ≠ .obj fields)
    (todo : List TempField) : rewriteBlock id todo identifier block = block := by
  unfold rewriteBlock
  induction todo with
  | nil => rfl
  | cons t todo ih =>
    have hsame : setField t (id.tempName t.role t.logical identifier) block = block := by
      cases block <;> first | rfl | exact absurd rfl (h _)
    rw [List.foldl_cons, hsame]
    exact ih

end Blocks

namespace NamePlaces

variable {p : NamePlaces} {names : TempNames} {id : InceptionId} {config : Json} {name : String}

/-- **A name the manager reads was supplied or is derived.** -/
theorem mem_inConfig (hp : p.Rewritten names)
    (h : name ∈ p.inConfig (rewriteTempNames names id config)) :
    name ∈ p.supplied config ∨ id.Derived name := by
  cases config with
  | obj fields =>
    obtain ⟨fields', heq, hfields'⟩ := rewriteTempNames_obj names id fields
    simp only [heq, inConfig, Serde.fieldAt, hfields'] at h
    simp only [supplied, Serde.fieldAt]
    cases hblock : fields.lookup p.block with
    | none => simp [hblock] at h
    | some block =>
      simp only [hblock, Option.map_some, Option.getD_some] at h
      cases block with
      | obj block =>
        refine .inr ?_
        obtain ⟨block', heq', hblock'⟩ := rewriteBlock_obj id
          (temporaryIdentifier names (.obj fields) p.block)
          (names.fields.filter fun t => t.role = p.block) block
        rw [heq'] at h
        obtain ⟨field, hfield, hname⟩ := List.mem_filterMap.mp h
        obtain ⟨t, ht, hrole, htname⟩ := hp field hfield
        obtain ⟨value, hvalue, hderived⟩ := hblock' field.1
          (.inl ⟨t, List.mem_filter.mpr ⟨ht, by simpa using hrole⟩, htname⟩)
        simp only [Serde.fieldAt, hvalue, Option.bind_some, Json.asStr, Option.some.injEq] at hname
        exact hname ▸ hderived
      | arr xs => rw [rewriteBlock_not_obj _ _ (by simp)] at h; exact .inl h
      | null => rw [rewriteBlock_not_obj _ _ (by simp)] at h; exact .inl h
      | bool b => rw [rewriteBlock_not_obj _ _ (by simp)] at h; exact .inl h
      | num n => rw [rewriteBlock_not_obj _ _ (by simp)] at h; exact .inl h
      | str s => rw [rewriteBlock_not_obj _ _ (by simp)] at h; exact .inl h
  | arr xs =>
    rw [rewriteTempNames_not_obj _ _ (by simp), inConfig] at h
    refine .inl ?_
    unfold supplied
    cases hblock : Serde.fieldAt p.block p.place (.arr xs) with
    | none => simp [hblock] at h
    | some block => simpa [hblock] using h
  | null => simp [rewriteTempNames_not_obj, inConfig, Serde.fieldAt] at h
  | bool b => simp [rewriteTempNames_not_obj, inConfig, Serde.fieldAt] at h
  | num n => simp [rewriteTempNames_not_obj, inConfig, Serde.fieldAt] at h
  | str s => simp [rewriteTempNames_not_obj, inConfig, Serde.fieldAt] at h

/-- What was supplied is still there after the rewrite. -/
theorem mem_inConfig_of_supplied (h : name ∈ p.supplied config) :
    name ∈ p.inConfig (rewriteTempNames names id config) := by
  cases config with
  | obj fields =>
    obtain ⟨fields', heq, hfields'⟩ := rewriteTempNames_obj names id fields
    simp only [heq, inConfig, Serde.fieldAt, hfields']
    simp only [supplied, Serde.fieldAt] at h
    cases hblock : fields.lookup p.block with
    | none => simp [hblock] at h
    | some block =>
      simp only [Option.map_some, Option.getD_some]
      cases block with
      | obj block => simp [hblock] at h
      | arr xs => rw [rewriteBlock_not_obj _ _ (by simp)]; simpa [hblock] using h
      | null => rw [rewriteBlock_not_obj _ _ (by simp)]; simpa [hblock] using h
      | bool b => rw [rewriteBlock_not_obj _ _ (by simp)]; simpa [hblock] using h
      | num n => rw [rewriteBlock_not_obj _ _ (by simp)]; simpa [hblock] using h
      | str s => rw [rewriteBlock_not_obj _ _ (by simp)]; simpa [hblock] using h
  | arr xs =>
    rw [rewriteTempNames_not_obj _ _ (by simp), inConfig]
    unfold supplied at h
    cases hblock : Serde.fieldAt p.block p.place (.arr xs) with
    | none => simp [hblock] at h
    | some block => simpa [hblock] using h
  | null => simp [supplied, Serde.fieldAt] at h
  | bool b => simp [supplied, Serde.fieldAt] at h
  | num n => simp [supplied, Serde.fieldAt] at h
  | str s => simp [supplied, Serde.fieldAt] at h

end NamePlaces

end FluidBG
