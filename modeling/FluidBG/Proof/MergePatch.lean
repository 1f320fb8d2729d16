import FluidBG.Controller.Resources
import FluidBG.Plugins.TempNames
import FluidBG.Sample
import Mathlib.Data.String.Basic
/-!
# Merge patches

`merge_json_value` against the merge of RFC 7386, on objects whose fields stand in key order as a
`serde_json::Map` keeps them. An object is determined by what its keys hold, so every fact about a
merged object is a fact about one key, and the induction goes down the patch.
-/

set_option autoImplicit false

namespace FluidBG

namespace Json

/-- What holds of a value because it holds of the values inside. -/
theorem induct {P : Json → Prop} (null : P .null) (bool : ∀ b, P (.bool b)) (num : ∀ n, P (.num n))
    (str : ∀ s, P (.str s)) (arr : ∀ xs, (∀ x ∈ xs, P x) → P (.arr xs))
    (obj : ∀ fields : List (String × Json), (∀ f ∈ fields, P f.2) → P (.obj fields)) (j : Json) :
    P j := by
  refine @Json.rec P (fun xs => ∀ x ∈ xs, P x) (fun fields => ∀ f ∈ fields, P f.2) (fun f => P f.2)
    null bool num str arr obj ?_ ?_ ?_ ?_ ?_ j
  · intro x hx
    cases hx
  · intro x xs hx hxs y hy
    rcases List.mem_cons.mp hy with rfl | hy
    · exact hx
    · exact hxs y hy
  · intro f hf
    cases hf
  · intro f fields hf hfields g hg
    rcases List.mem_cons.mp hg with rfl | hg
    · exact hf
    · exact hfields g hg
  · intro key value h
    exact h

/-! ## Objects in key order -/

/-- The keys of an object stand in order, and so do those of the objects it holds. -/
inductive Ordered : Json → Prop where
  | null : Ordered .null
  | bool (b : Bool) : Ordered (.bool b)
  | num (n : Number) : Ordered (.num n)
  | str (s : String) : Ordered (.str s)
  | arr (xs : List Json) : Ordered (.arr xs)
  | obj (fields : List (String × Json)) (keys : (fields.map (·.1)).Pairwise (· < ·))
      (values : ∀ f ∈ fields, Ordered f.2) : Ordered (.obj fields)

/-- No object holds a `null`; arrays may. -/
inductive NoNull : Json → Prop where
  | bool (b : Bool) : NoNull (.bool b)
  | num (n : Number) : NoNull (.num n)
  | str (s : String) : NoNull (.str s)
  | arr (xs : List Json) : NoNull (.arr xs)
  | obj (fields : List (String × Json)) (values : ∀ f ∈ fields, NoNull f.2) : NoNull (.obj fields)

section Fields

variable {key other : String} {value : Json} {fields fields' : List (String × Json)}

theorem mem_insertField_keys {k : String} (h : k ∈ (insertField key value fields).map (·.1)) :
    k = key ∨ k ∈ fields.map (·.1) := by
  induction fields with
  | nil => exact .inl (by simpa [insertField] using h)
  | cons f fields ih =>
    rw [insertField] at h
    split at h
    · rw [List.map_cons, List.mem_cons] at h
      rcases h with h | h
      · exact .inl h
      · exact .inr (List.mem_cons_of_mem _ h)
    · split at h
      · rw [List.map_cons, List.mem_cons] at h
        exact h
      · rw [List.map_cons, List.mem_cons] at h
        rcases h with h | h
        · exact .inr (by rw [h]; exact List.mem_cons_self)
        · rcases ih h with h | h
          · exact .inl h
          · exact .inr (List.mem_cons_of_mem _ h)

theorem insertField_keys (h : (fields.map (·.1)).Pairwise (· < ·)) :
    ((insertField key value fields).map (·.1)).Pairwise (· < ·) := by
  induction fields with
  | nil => exact List.pairwise_singleton _ _
  | cons f fields ih =>
    rw [List.map_cons, List.pairwise_cons] at h
    rw [insertField]
    split
    · rename_i heq
      rw [List.map_cons, ← heq]
      exact List.pairwise_cons.mpr h
    · rename_i hne
      split
      · rename_i hlt
        rw [List.map_cons, List.map_cons, List.pairwise_cons, List.pairwise_cons]
        refine ⟨fun k hk => ?_, h⟩
        rcases List.mem_cons.mp hk with rfl | hk
        · exact hlt
        · exact lt_trans hlt (h.1 k hk)
      · rename_i hge
        rw [List.map_cons, List.pairwise_cons]
        refine ⟨fun k hk => ?_, ih h.2⟩
        rcases mem_insertField_keys hk with rfl | hk
        · exact lt_of_le_of_ne (not_lt.mp hge) hne
        · exact h.1 k hk

theorem lookup_removeField : (removeField key fields).lookup key = none := by
  rw [List.lookup_eq_none_iff]
  intro f hf
  exact bne_iff_ne.mpr (Ne.symm (of_decide_eq_true (List.mem_filter.mp hf).2))

theorem lookup_removeField_of_ne (h : other ≠ key) :
    (removeField key fields).lookup other = fields.lookup other := by
  induction fields with
  | nil => rfl
  | cons f fields ih =>
    unfold removeField at ih ⊢
    by_cases hkey : f.1 = key
    · rw [List.filter_cons_of_neg (by simpa using hkey), ih, List.lookup_cons, hkey,
        beq_eq_false_iff_ne.mpr h]
    · rw [List.filter_cons_of_pos (by simpa using hkey), List.lookup_cons, List.lookup_cons, ih]

theorem removeField_keys (h : (fields.map (·.1)).Pairwise (· < ·)) :
    ((removeField key fields).map (·.1)).Pairwise (· < ·) :=
  h.sublist (List.filter_sublist.map _)

theorem lookup_eq_none_of_lt (h : ∀ k ∈ fields.map (·.1), key < k) : fields.lookup key = none := by
  rw [List.lookup_eq_none_iff]
  intro f hf
  exact bne_iff_ne.mpr (ne_of_lt (h f.1 (List.mem_map.mpr ⟨f, hf, rfl⟩)))

/-- **An object is what its keys hold.** -/
theorem fields_ext (h : (fields.map (·.1)).Pairwise (· < ·))
    (h' : (fields'.map (·.1)).Pairwise (· < ·))
    (hlookup : ∀ k, fields.lookup k = fields'.lookup k) : fields = fields' := by
  induction fields generalizing fields' with
  | nil =>
    cases fields' with
    | nil => rfl
    | cons f' fields' =>
      have hnone := hlookup f'.1
      rw [List.lookup_cons, beq_self_eq_true] at hnone
      cases hnone
  | cons f fields ih =>
    cases fields' with
    | nil =>
      have hnone := hlookup f.1
      rw [List.lookup_cons, beq_self_eq_true] at hnone
      cases hnone
    | cons f' fields' =>
      rw [List.map_cons, List.pairwise_cons] at h h'
      -- the smallest keys of the two lists are one key
      have hkey : f.1 = f'.1 := by
        by_contra hne
        rcases lt_or_gt_of_ne hne with hlt | hlt
        · have hnone : (f' :: fields').lookup f.1 = none := by
            apply lookup_eq_none_of_lt
            intro k hk
            rcases List.mem_cons.mp hk with rfl | hk
            · exact hlt
            · exact lt_trans hlt (h'.1 k hk)
          rw [← hlookup, List.lookup_cons, beq_self_eq_true] at hnone
          cases hnone
        · have hnone : (f :: fields).lookup f'.1 = none := by
            apply lookup_eq_none_of_lt
            intro k hk
            rcases List.mem_cons.mp hk with rfl | hk
            · exact hlt
            · exact lt_trans hlt (h.1 k hk)
          rw [hlookup, List.lookup_cons, beq_self_eq_true] at hnone
          cases hnone
      have hvalue := hlookup f.1
      rw [List.lookup_cons, List.lookup_cons, hkey, beq_self_eq_true] at hvalue
      have hfirst : f = f' := Prod.ext hkey (Option.some.inj hvalue)
      subst hfirst
      refine congrArg (f :: ·) (ih h.2 h'.2 fun k => ?_)
      by_cases hk : k = f.1
      · rw [hk, lookup_eq_none_of_lt h.1, lookup_eq_none_of_lt h'.1]
      · have hrest := hlookup k
        rwa [List.lookup_cons, List.lookup_cons, beq_eq_false_iff_ne.mpr hk] at hrest

end Fields

/-! ## The equations of the merge -/

/-- The fields of an object, and none of any other value. -/
def objectFields : Json → List (String × Json)
  | .obj fields => fields
  | _ => []

def IsObj : Json → Prop
  | .obj _ => True
  | _ => False

section Equations

variable {key : String} {value target : Json} {fields patch : List (String × Json)}

theorem merge_obj : merge (.obj fields) (.obj patch) = .obj (mergeFields fields patch) := rfl

theorem merge_obj_of_not (h : ¬ target.IsObj) : merge target (.obj patch) = .obj patch := by
  cases target with
  | obj fields => exact absurd trivial h
  | null => rfl
  | bool b => rfl
  | num n => rfl
  | str s => rfl
  | arr xs => rfl

theorem merge_of_not (h : ¬ value.IsObj) : merge target value = value := by
  cases value with
  | obj fields => exact absurd trivial h
  | null => rfl
  | bool b => rfl
  | num n => rfl
  | str s => rfl
  | arr xs => rfl

theorem mergeFields_nil : mergeFields fields [] = fields := rfl

theorem mergeFields_null :
    mergeFields fields ((key, .null) :: patch) = mergeFields (removeField key fields) patch := rfl

theorem mergeFields_value (h : value ≠ .null) :
    mergeFields fields ((key, value) :: patch) =
      mergeFields (insertField key (merge ((fields.lookup key).getD .null) value) fields) patch := by
  cases value with
  | null => exact absurd rfl h
  | bool b => rfl
  | num n => rfl
  | str s => rfl
  | arr xs => rfl
  | obj fields => rfl

end Equations

/-! ## One key of a merged object -/

/-- What a field of a patch leaves under its key. -/
def merged (old : Option Json) (value : Json) : Option Json :=
  if value = .null then none else some (merge (old.getD .null) value)

section Merge

variable {key : String} {fields patch : List (String × Json)}

/-- The fields after the first field of the patch. -/
theorem mergeFields_cons (fields patch : List (String × Json)) (f : String × Json) :
    ∃ rest, mergeFields fields (f :: patch) = mergeFields rest patch ∧
      (∀ k, k ≠ f.1 → rest.lookup k = fields.lookup k) ∧
      rest.lookup f.1 = merged (fields.lookup f.1) f.2 ∧
      ((fields.map (·.1)).Pairwise (· < ·) → (rest.map (·.1)).Pairwise (· < ·)) := by
  obtain ⟨key, value⟩ := f
  by_cases hnull : value = .null
  · subst hnull
    exact ⟨removeField key fields, mergeFields_null, fun k hk => lookup_removeField_of_ne hk,
      lookup_removeField, removeField_keys⟩
  · refine ⟨insertField key (merge ((fields.lookup key).getD .null) value) fields,
      mergeFields_value hnull, fun k hk => ?_, ?_, insertField_keys⟩
    · rw [lookup_insertField, if_neg hk]
    · rw [lookup_insertField, if_pos rfl, merged, if_neg hnull]

/-- A key that the patch does not have keeps its value. -/
theorem lookup_mergeFields_of_none (h : patch.lookup key = none) :
    (mergeFields fields patch).lookup key = fields.lookup key := by
  induction patch generalizing fields with
  | nil => rfl
  | cons f patch ih =>
    obtain ⟨rest, hrest, hothers, -, -⟩ := mergeFields_cons fields patch f
    rw [List.lookup_eq_none_iff] at h
    have hne : key ≠ f.1 := bne_iff_ne.mp (h f List.mem_cons_self)
    rw [hrest, ih (List.lookup_eq_none_iff.mpr fun g hg => h g (List.mem_cons_of_mem _ hg)),
      hothers key hne]

/-- **A key of the patch holds what the patch makes of it.** -/
theorem lookup_mergeFields {value : Json} (hkeys : (patch.map (·.1)).Pairwise (· < ·))
    (h : patch.lookup key = some value) :
    (mergeFields fields patch).lookup key = merged (fields.lookup key) value := by
  induction patch generalizing fields with
  | nil => cases h
  | cons f patch ih =>
    obtain ⟨rest, hrest, hothers, hfirst, -⟩ := mergeFields_cons fields patch f
    rw [List.map_cons, List.pairwise_cons] at hkeys
    rw [hrest]
    by_cases hkey : key = f.1
    · subst hkey
      rw [List.lookup_cons, beq_self_eq_true] at h
      rw [← Option.some.inj h, lookup_mergeFields_of_none (lookup_eq_none_of_lt hkeys.1), hfirst]
    · rw [List.lookup_cons, beq_eq_false_iff_ne.mpr hkey] at h
      rw [ih hkeys.2 h, hothers key hkey]

theorem mergeFields_keys (h : (fields.map (·.1)).Pairwise (· < ·)) :
    ((mergeFields fields patch).map (·.1)).Pairwise (· < ·) := by
  induction patch generalizing fields with
  | nil => exact h
  | cons f patch ih =>
    obtain ⟨rest, hrest, -, -, hordered⟩ := mergeFields_cons fields patch f
    rw [hrest]
    exact ih (hordered h)

end Merge

theorem mem_of_lookup {key : String} {value : Json} {fields : List (String × Json)}
    (h : fields.lookup key = some value) : (key, value) ∈ fields := by
  induction fields with
  | nil => cases h
  | cons f fields ih =>
    rw [List.lookup_cons] at h
    split at h
    · rename_i heq
      rw [beq_iff_eq.mp heq, ← Option.some.inj h]
      exact List.mem_cons_self
    · exact List.mem_cons_of_mem _ (ih h)

/-! ## RFC 7386 -/

mutual

/-- The merge of RFC 7386: a target that is no object is an empty one, and a `null` removes. -/
def mergePatch (target : Json) : Json → Json
  | .obj patch => .obj (mergePatchFields target.objectFields patch)
  | patch => patch

def mergePatchFields (fields : List (String × Json)) :
    List (String × Json) → List (String × Json)
  | [] => fields
  | (key, value) :: patch =>
    let fields := match value with
      | .null => removeField key fields
      | value => insertField key (mergePatch ((fields.lookup key).getD .null) value) fields
    mergePatchFields fields patch

end

theorem mergePatchFields_value {key : String} {value : Json} {fields patch : List (String × Json)}
    (h : value ≠ .null) : mergePatchFields fields ((key, value) :: patch) =
      mergePatchFields (insertField key (mergePatch ((fields.lookup key).getD .null) value) fields)
        patch := by
  cases value with
  | null => exact absurd rfl h
  | bool b => rfl
  | num n => rfl
  | str s => rfl
  | arr xs => rfl
  | obj fields => rfl

theorem NoNull.ne_null {value : Json} (h : value.NoNull) : value ≠ .null := by
  rintro rfl
  cases h

/-- A field behind all others is appended. -/
theorem insertField_last {key : String} {value : Json} {fields : List (String × Json)}
    (h : ∀ k ∈ fields.map (·.1), k < key) :
    insertField key value fields = fields ++ [(key, value)] := by
  induction fields with
  | nil => rfl
  | cons f fields ih =>
    have hlt := h f.1 List.mem_cons_self
    rw [insertField, if_neg (ne_of_lt hlt), if_neg (not_lt_of_gt hlt),
      ih fun k hk => h k (List.mem_cons_of_mem _ hk)]
    rfl

/-- The fields of the code's merge are those of the reference where each value is. -/
theorem mergeFields_eq {patch : List (String × Json)} (hnull : ∀ f ∈ patch, f.2.NoNull)
    (h : ∀ f ∈ patch, ∀ target, merge target f.2 = mergePatch target f.2)
    (fields : List (String × Json)) : mergeFields fields patch = mergePatchFields fields patch := by
  induction patch generalizing fields with
  | nil => rfl
  | cons f patch ih =>
    obtain ⟨key, value⟩ := f
    have hne := (hnull (key, value) List.mem_cons_self).ne_null
    rw [mergeFields_value hne, mergePatchFields_value hne, h (key, value) List.mem_cons_self]
    exact ih (fun g hg => hnull g (List.mem_cons_of_mem _ hg))
      (fun g hg => h g (List.mem_cons_of_mem _ hg)) _

/-- The reference builds a new object field by field, in the order of the keys. -/
theorem mergePatchFields_new {patch : List (String × Json)} (hnull : ∀ f ∈ patch, f.2.NoNull)
    (h : ∀ f ∈ patch, mergePatch .null f.2 = f.2) (before : List (String × Json))
    (hkeys : ((before ++ patch).map (·.1)).Pairwise (· < ·)) :
    mergePatchFields before patch = before ++ patch := by
  induction patch generalizing before with
  | nil => exact (List.append_nil before).symm
  | cons f patch ih =>
    obtain ⟨key, value⟩ := f
    have hne := (hnull (key, value) List.mem_cons_self).ne_null
    have hbefore : ∀ k ∈ before.map (·.1), k < key := by
      intro k hk
      rw [List.map_append, List.pairwise_append] at hkeys
      exact hkeys.2.2 k hk key List.mem_cons_self
    have hnone : before.lookup key = none := by
      rw [List.lookup_eq_none_iff]
      intro g hg
      exact bne_iff_ne.mpr (ne_of_gt (hbefore g.1 (List.mem_map.mpr ⟨g, hg, rfl⟩)))
    rw [mergePatchFields_value hne, hnone, Option.getD_none, h (key, value) List.mem_cons_self,
      insertField_last hbefore, ih (fun g hg => hnull g (List.mem_cons_of_mem _ hg))
        (fun g hg => h g (List.mem_cons_of_mem _ hg)) _ (by rwa [List.append_assoc]),
      List.append_assoc]
    rfl

/-- A value without `null` is what the reference makes of it on a new key. -/
theorem mergePatch_null {value : Json} (hordered : value.Ordered) (hnull : value.NoNull) :
    mergePatch .null value = value := by
  induction value using induct with
  | null => rfl
  | bool b => rfl
  | num n => rfl
  | str s => rfl
  | arr xs _ => rfl
  | obj fields ih =>
    cases hordered with
    | obj _ hkeys hvalues =>
      cases hnull with
      | obj _ hnulls =>
        have hnew := mergePatchFields_new hnulls
          (fun f hf => ih f hf (hvalues f hf) (hnulls f hf)) [] hkeys
        exact congrArg Json.obj hnew

/-- **The code's merge is the merge of RFC 7386** for a patch without `null`. -/
theorem merge_eq_mergePatch {patch : Json} (hordered : patch.Ordered) (hnull : patch.NoNull)
    (target : Json) : merge target patch = mergePatch target patch := by
  induction patch using induct generalizing target with
  | null => rfl
  | bool b => rfl
  | num n => rfl
  | str s => rfl
  | arr xs _ => rfl
  | obj patch ih =>
    cases hordered with
    | obj _ hkeys hvalues =>
      cases hnull with
      | obj _ hnulls =>
        by_cases hobj : target.IsObj
        · cases target with
          | obj fields =>
            have hfields := mergeFields_eq hnulls
              (fun f hf => ih f hf (hvalues f hf) (hnulls f hf)) fields
            exact congrArg Json.obj hfields
          | _ => cases hobj
        · -- the code takes the patch as it is, the reference builds it up
          have hnew := mergePatchFields_new hnulls
            (fun f hf => mergePatch_null (hvalues f hf) (hnulls f hf)) [] hkeys
          have hempty : target.objectFields = [] := by
            cases target with
            | obj fields => exact absurd trivial hobj
            | _ => rfl
          rw [merge_obj_of_not hobj]
          exact congrArg Json.obj (by rw [hempty]; exact hnew.symm)

/-! ## Applying a patch twice -/

theorem Ordered.getD {fields : List (String × Json)} (h : ∀ f ∈ fields, f.2.Ordered)
    (key : String) : ((fields.lookup key).getD .null).Ordered := by
  cases hlookup : fields.lookup key with
  | none => exact .null
  | some value => exact h (key, value) (mem_of_lookup hlookup)

theorem merge_null {patch : Json} (hordered : patch.Ordered) (hnull : patch.NoNull) :
    merge .null patch = patch := by
  rw [merge_eq_mergePatch hordered hnull, mergePatch_null hordered hnull]

/-- The fields of an object on which a patch is applied twice. -/
theorem mergeFields_twice {fields patch : List (String × Json)}
    (hfields : (fields.map (·.1)).Pairwise (· < ·)) (hpatch : (patch.map (·.1)).Pairwise (· < ·))
    (hnull : ∀ f ∈ patch, f.2 ≠ .null)
    (h : ∀ f ∈ patch, merge (merge ((fields.lookup f.1).getD .null) f.2) f.2 =
      merge ((fields.lookup f.1).getD .null) f.2) :
    mergeFields (mergeFields fields patch) patch = mergeFields fields patch := by
  apply fields_ext (mergeFields_keys (mergeFields_keys hfields)) (mergeFields_keys hfields)
  intro k
  cases hlookup : patch.lookup k with
  | none => rw [lookup_mergeFields_of_none hlookup]
  | some value =>
    have hmem := mem_of_lookup hlookup
    rw [lookup_mergeFields hpatch hlookup, lookup_mergeFields hpatch hlookup, merged, merged,
      if_neg (hnull _ hmem), if_neg (hnull _ hmem), Option.getD_some, h (k, value) hmem]

/-- **Applying a patch twice** is applying it once. -/
theorem merge_twice {target patch : Json} (htarget : target.Ordered) (hordered : patch.Ordered)
    (hnull : patch.NoNull) : merge (merge target patch) patch = merge target patch := by
  induction patch using induct generalizing target with
  | null => rw [merge_of_not (by exact id), merge_of_not (by exact id)]
  | bool b => rw [merge_of_not (by exact id), merge_of_not (by exact id)]
  | num n => rw [merge_of_not (by exact id), merge_of_not (by exact id)]
  | str s => rw [merge_of_not (by exact id), merge_of_not (by exact id)]
  | arr xs _ => rw [merge_of_not (by exact id), merge_of_not (by exact id)]
  | obj patch ih =>
    cases hordered with
    | obj _ hkeys hvalues =>
      cases hnull with
      | obj _ hnulls =>
        have hne : ∀ f ∈ patch, f.2 ≠ .null := fun f hf => (hnulls f hf).ne_null
        by_cases hobj : target.IsObj
        · cases htarget with
          | obj fields htkeys htvalues =>
            rw [merge_obj, merge_obj]
            refine congrArg Json.obj (mergeFields_twice htkeys hkeys hne fun f hf => ?_)
            exact ih f hf (Ordered.getD htvalues f.1) (hvalues f hf) (hnulls f hf)
          | _ => cases hobj
        · -- the patch on itself: its fields are what they make of a new key
          rw [merge_obj_of_not hobj, merge_obj]
          refine congrArg Json.obj (fields_ext (mergeFields_keys hkeys) hkeys fun k => ?_)
          cases hlookup : patch.lookup k with
          | none => rw [lookup_mergeFields_of_none hlookup, hlookup]
          | some value =>
            have hmem := mem_of_lookup hlookup
            have hself := ih (k, value) hmem .null (hvalues _ hmem) (hnulls _ hmem)
            rw [merge_null (hvalues _ hmem) (hnulls _ hmem)] at hself
            rw [lookup_mergeFields hkeys hlookup, hlookup, merged, if_neg (hne _ hmem),
              Option.getD_some, hself]

/-! ## Paths -/

/-- The value at a path of keys. -/
def atPath : List String → Json → Option Json
  | [], j => some j
  | key :: path, j => (j.get key).bind (atPath path)

/-- The patch leads along the path to an object that does not have its next key. -/
def Unmentioned (patch : Json) (path : List String) : Prop :=
  ∃ before key after fields, path = before ++ key :: after ∧
    atPath before patch = some (.obj fields) ∧ fields.lookup key = none

theorem atPath_null {path : List String} (h : path ≠ []) : atPath path .null = none := by
  cases path with
  | nil => exact absurd rfl h
  | cons key path => rfl

theorem atPath_append (before after : List String) (j : Json) :
    atPath (before ++ after) j = (atPath before j).bind (atPath after) := by
  induction before generalizing j with
  | nil => rfl
  | cons key before ih =>
    rw [List.cons_append, atPath, atPath]
    cases hget : j.get key with
    | none => rfl
    | some value => exact ih value

theorem get_of_not {j : Json} (h : ¬ j.IsObj) (key : String) : j.get key = none := by
  cases j with
  | obj fields => exact absurd trivial h
  | _ => rfl

/-- **What the patch does not mention** keeps its value. -/
theorem atPath_merge_of_unmentioned {patch : Json} {path : List String} (hordered : patch.Ordered)
    (h : Unmentioned patch path) (target : Json) : atPath path (merge target patch) = atPath path target := by
  obtain ⟨before, key, after, fields, rfl, hat, hnone⟩ := h
  induction before generalizing patch target with
  | nil =>
    cases Option.some.inj hat
    rw [List.nil_append, atPath, atPath]
    by_cases hobj : target.IsObj
    · cases target with
      | obj old =>
        rw [merge_obj, get, get, lookup_mergeFields_of_none hnone]
      | _ => cases hobj
    · rw [merge_obj_of_not hobj, get_of_not hobj, get, hnone]
  | cons first before ih =>
    cases hordered with
    | obj patch hkeys hvalues =>
      rw [atPath, get] at hat
      obtain ⟨value, hlookup, hvalue⟩ := Option.bind_eq_some_iff.mp hat
      have hmem := mem_of_lookup hlookup
      have hne : value ≠ .null := by
        rintro rfl
        cases before with
        | nil => cases Option.some.inj hvalue
        | cons next before => cases hvalue
      have hrest := fun target => ih (hvalues _ hmem) target hvalue
      rw [List.cons_append, atPath, atPath]
      by_cases hobj : target.IsObj
      · cases target with
        | obj old =>
          rw [merge_obj, get, get, lookup_mergeFields hkeys hlookup, merged, if_neg hne,
            Option.bind_some, hrest]
          cases hold : old.lookup first with
          | none => exact atPath_null (by simp)
          | some value => rfl
        | _ => cases hobj
      · rw [merge_obj_of_not hobj, get_of_not hobj, get, hlookup, Option.bind_some, atPath_append,
          hvalue, Option.bind_some, atPath, get, hnone]
        rfl
    | _ => cases hat

/-- **What the patch says** that is no object replaces what was there, an array as a whole. -/
theorem atPath_merge_of_leaf {patch leaf : Json} {path : List String} (hordered : patch.Ordered)
    (hleaf : ¬ leaf.IsObj) (hnull : leaf ≠ .null) (h : atPath path patch = some leaf)
    (target : Json) : atPath path (merge target patch) = some leaf := by
  induction path generalizing patch target with
  | nil =>
    cases Option.some.inj h
    rw [merge_of_not hleaf]
    rfl
  | cons key path ih =>
    cases hordered with
    | obj patch hkeys hvalues =>
      rw [atPath, get] at h
      obtain ⟨value, hlookup, hvalue⟩ := Option.bind_eq_some_iff.mp h
      have hmem := mem_of_lookup hlookup
      have hne : value ≠ .null := by
        rintro rfl
        cases path with
        | nil => exact hnull (Option.some.inj hvalue).symm
        | cons next path => cases hvalue
      rw [atPath]
      by_cases hobj : target.IsObj
      · cases target with
        | obj old =>
          rw [merge_obj, get, lookup_mergeFields hkeys hlookup, merged, if_neg hne,
            Option.bind_some]
          exact ih (hvalues _ hmem) hvalue _
        | _ => cases hobj
      · rw [merge_obj_of_not hobj, get, hlookup]
        exact hvalue
    | _ => cases h

theorem NoNull.atPath {patch value : Json} {path : List String} (h : patch.NoNull)
    (hat : Json.atPath path patch = some value) : value.NoNull := by
  induction path generalizing patch with
  | nil =>
    cases Option.some.inj hat
    exact h
  | cons key path ih =>
    cases h with
    | obj fields hvalues =>
      rw [Json.atPath, get] at hat
      obtain ⟨inner, hlookup, hinner⟩ := Option.bind_eq_some_iff.mp hat
      exact ih (hvalues _ (mem_of_lookup hlookup)) hinner
    | _ => cases hat

end Json

/-! ## The spec of the candidate -/

/-- What a `CandidateDeploymentPatch` encodes to: an absent field is left out. -/
structure CandidatePatch (patch : Json) : Prop where
  obj : patch.IsObj
  keys : ∀ f ∈ patch.objectFields, f.1 ∈ ["replicas", "strategy", "minReadySeconds",
    "revisionHistoryLimit", "paused", "progressDeadlineSeconds", "template"]
  ordered : patch.Ordered
  noNull : patch.NoNull

namespace CandidatePatch

/-- The patch has no selector. -/
theorem selector {patch : Json} (h : CandidatePatch patch) :
    Json.Unmentioned patch ["selector"] := by
  cases patch with
  | obj fields =>
    refine ⟨[], "selector", [], fields, rfl, rfl, ?_⟩
    rw [List.lookup_eq_none_iff]
    intro f hf
    have hkey := h.keys f hf
    apply bne_iff_ne.mpr
    intro heq
    rw [← heq] at hkey
    revert hkey
    decide
  | _ => exact absurd h.obj id

end CandidatePatch

theorem deploymentSpecWithTestPatch_eq {crates : Crates} {bgd : BlueGreenDeployment}
    {base : DeploymentSpec} {patch value : Json} (hpatch : bgd.spec.candidatePatch = some patch)
    (hencode : crates.encodeDeploymentSpec base = .ok value) :
    deploymentSpecWithTestPatch crates bgd base =
      (crates.decodeDeploymentSpec (value.merge patch)).mapError fun err => .store
        s!"spec.candidatePatch does not produce a valid apps/v1 DeploymentSpec: {err}" := by
  rw [deploymentSpecWithTestPatch, hpatch]
  dsimp only
  rw [hencode]
  dsimp only
  cases crates.decodeDeploymentSpec (value.merge patch) with
  | error err => rfl
  | ok spec => rfl

/-- **The candidate patch is a merge patch.** The candidate's spec is decoded from the RFC 7386 merge;
merging again changes nothing; what the patch does not mention keeps its value, the selector for
one; what it says replaces what was there; and a patch without fields leaves the declared spec. -/
theorem candidate_patch_is_merge_patch (crates : Crates) (bgd : BlueGreenDeployment)
    (base : DeploymentSpec) (patch value : Json)
    (hpatch : bgd.spec.candidatePatch = some patch) (htyped : CandidatePatch patch)
    (hencode : crates.encodeDeploymentSpec base = .ok value) (hobj : value.IsObj)
    (hvalue : value.Ordered) (hround : crates.decodeDeploymentSpec value = .ok base) :
    value.merge patch = value.mergePatch patch ∧
    (value.merge patch).merge patch = value.merge patch ∧
    (∀ path, patch.Unmentioned path → (value.merge patch).atPath path = value.atPath path) ∧
    (∀ path leaf, patch.atPath path = some leaf → ¬ leaf.IsObj →
      (value.merge patch).atPath path = some leaf) ∧
    (value.merge patch).get "selector" = value.get "selector" ∧
    (∀ spec, deploymentSpecWithTestPatch crates bgd base = .ok spec →
      crates.decodeDeploymentSpec (value.mergePatch patch) = .ok spec) ∧
    (patch = .obj [] → deploymentSpecWithTestPatch crates bgd base = .ok base) := by
  have hrfc := Json.merge_eq_mergePatch htyped.ordered htyped.noNull value
  have heq := deploymentSpecWithTestPatch_eq hpatch hencode
  refine ⟨hrfc, Json.merge_twice hvalue htyped.ordered htyped.noNull,
    fun path h => Json.atPath_merge_of_unmentioned htyped.ordered h value, ?_, ?_, ?_, ?_⟩
  · intro path leaf hat hleaf
    exact Json.atPath_merge_of_leaf htyped.ordered hleaf (htyped.noNull.atPath hat).ne_null hat value
  · have hselector := Json.atPath_merge_of_unmentioned htyped.ordered htyped.selector value
    simpa [Json.atPath] using hselector
  · intro spec hspec
    rw [heq, hrfc] at hspec
    cases hdecode : crates.decodeDeploymentSpec (value.mergePatch patch) with
    | error err =>
      rw [hdecode] at hspec
      cases hspec
    | ok spec' =>
      rw [hdecode] at hspec
      rw [Except.ok.inj (show Except.ok spec' = Except.ok spec from hspec)]
  · rintro rfl
    cases value with
    | obj fields =>
      rw [heq, Json.merge_obj, Json.mergeFields_nil, hround]
      rfl
    | _ => exact absurd hobj id

/-- The spec of the sample, as the API server has it. -/
def Sample.specJson : Json :=
  .obj [("replicas", .num (.int 1)),
    ("selector", .obj [("matchLabels", .obj [("app", .str "shop")])]),
    ("template", .obj [("metadata", .obj [("labels", .obj [("app", .str "shop")])]),
      ("spec", .obj [("containers", .arr [.obj [("image", .str "shop:2"), ("name", .str "app")]])])])]

/-- The libraries on the sample: only the replicas are patched. -/
def Sample.patchCrates : Crates :=
  { Sample.crates with
    encodeDeploymentSpec := fun _ => .ok Sample.specJson
    decodeDeploymentSpec := fun value =>
      .ok { Sample.deploymentSpec with replicas := (value.get "replicas").bind Json.asI64 } }

def Sample.patchedBgd : BlueGreenDeployment :=
  let bgd := Sample.bgd .pending
  { bgd with spec := { bgd.spec with candidatePatch := some (.obj [("replicas", .num (.int 2))]) } }

/-- The test replicas replace the declared ones, and the selector stays. -/
theorem candidate_patch_of_replicas :
    (Sample.specJson.merge (.obj [("replicas", .num (.int 2))])).get "selector" =
        Sample.specJson.get "selector" ∧
      (Sample.specJson.merge (.obj [("replicas", .num (.int 2))])).atPath ["replicas"] =
        some (.num (.int 2)) := by
  have hlabels : (Json.obj [("app", .str "shop")]).Ordered :=
    .obj _ (by decide) fun f hf => by
      rw [List.mem_singleton.mp hf]
      exact .str _
  have hordered : Sample.specJson.Ordered := by
    refine .obj _ (by decide) fun f hf => ?_
    simp only [List.mem_cons, List.not_mem_nil, or_false] at hf
    rcases hf with rfl | rfl | rfl
    · exact .num _
    · refine .obj _ (by decide) fun g hg => ?_
      rw [List.mem_singleton.mp hg]
      exact hlabels
    · refine .obj _ (by decide) fun g hg => ?_
      simp only [List.mem_cons, List.not_mem_nil, or_false] at hg
      rcases hg with rfl | rfl
      · refine .obj _ (by decide) fun l hl => ?_
        rw [List.mem_singleton.mp hl]
        exact hlabels
      · refine .obj _ (by decide) fun l hl => ?_
        rw [List.mem_singleton.mp hl]
        exact .arr _
  have htyped : CandidatePatch (.obj [("replicas", .num (.int 2))]) := by
    have hfield : ∀ f ∈ [("replicas", Json.num (.int 2))], f = ("replicas", Json.num (.int 2)) :=
      fun f hf => List.mem_singleton.mp hf
    refine ⟨trivial, fun f hf => ?_, .obj _ (by decide) fun f hf => ?_, .obj _ fun f hf => ?_⟩
    · rw [hfield f hf]
      exact List.mem_cons_self
    · rw [hfield f hf]
      exact .num _
    · rw [hfield f hf]
      exact .num _
  obtain ⟨-, -, -, hleaf, hselector, -, -⟩ := candidate_patch_is_merge_patch Sample.patchCrates
    Sample.patchedBgd Sample.deploymentSpec _ Sample.specJson rfl htyped rfl trivial hordered rfl
  exact ⟨hselector, hleaf ["replicas"] _ rfl id⟩

end FluidBG
