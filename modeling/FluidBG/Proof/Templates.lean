import FluidBG.Proof.Replacements
import FluidBG.Inceptor
import Mathlib.Data.List.Induction
/-!
# Templates and the values that go into them

A template is rendered key by key: the placeholders of one key are replaced in the text that the
keys before it have left. Read at once, the template is a row of characters and placeholders, and
every placeholder stands for its value. The two agree as long as the scan for each key finds the
placeholders the template has, and no others.
-/

set_option autoImplicit false

namespace FluidBG
namespace Template

/-- A key with a value: its placeholder, and the text that stands for it. -/
structure Slot where
  mark : List Char
  value : List Char
deriving DecidableEq

def slotOf (field : String × Json) : Option Slot :=
  field.2.replacement.map fun replacement =>
    ⟨("\x7b\x7b" ++ field.1 ++ "\x7d\x7d").toList, replacement.toList⟩

/-- A character of the template, or a placeholder in it. -/
inductive Piece
  | text (c : Char)
  | slot (s : Slot)
deriving DecidableEq

/-- The template from its left end; `skip` characters of a placeholder are still to be dropped. -/
def pieces (slots : List Slot) : Nat → List Char → List Piece
  | _, [] => []
  | skip + 1, _ :: cs => pieces slots skip cs
  | 0, c :: cs => match slots.find? fun s => s.mark.isPrefixOf (c :: cs) with
    | some s => .slot s :: pieces slots (s.mark.length - 1) cs
    | none => .text c :: pieces slots 0 cs

def Piece.filled (done : List Slot) : Piece → List Char
  | .text c => [c]
  | .slot s => if s ∈ done then s.value else s.mark

/-- The text once the placeholders of `done` stand for their values. -/
def fill (done : List Slot) (template : List Piece) : List Char :=
  template.flatMap (Piece.filled done)

/-- The places of a text, counted from `off`, where a replacement finds its pattern. -/
def hits (pat : List Char) : Nat → Nat → List Char → List Nat
  | _, _, [] => []
  | off, skip + 1, _ :: cs => hits pat (off + 1) skip cs
  | off, 0, c :: cs =>
    if pat.isPrefixOf (c :: cs) then off :: hits pat (off + 1) (pat.length - 1) cs
    else hits pat (off + 1) 0 cs

/-- The places where the template's own placeholders of `s` stand, once those of `done` are
filled in. -/
def holes (s : Slot) (done : List Slot) : Nat → List Piece → List Nat
  | _, [] => []
  | off, p :: template =>
    (if p = .slot s ∧ s ∉ done then [off] else []) ++
      holes s done (off + (p.filled done).length) template

/-- The template as the keys of a config read it. -/
def read (fields : List (String × Json)) (template : String) : List Piece :=
  pieces (fields.filterMap slotOf) 0 template.toList

/-- **Simultaneous substitution.** With the keys in the given order, every placeholder of the
template stands for its value and the rest is as it was, and no step replaces anything but the
template's own placeholders. -/
structure Simultaneous (fields : List (String × Json)) (template : String)
    (order : List (String × Json)) : Prop where
  result : renderConfigTemplate template (.obj order) =
    String.ofList (fill (fields.filterMap slotOf) (read fields template))
  places : ∀ done field rest s, order = done ++ field :: rest → slotOf field = some s →
    hits s.mark 0 0 (renderConfigTemplate template (.obj done)).toList =
      holes s (done.filterMap slotOf) 0 (read fields template)

/-- Whichever keys are filled in, the placeholder of another one is found in the text where the
template has it, and nowhere else. -/
def Apart (fields : List (String × Json)) (template : String) : Prop :=
  ∀ done field rest s, (done ++ field :: rest).Perm fields → slotOf field = some s →
    hits s.mark 0 0 (fill (done.filterMap slotOf) (read fields template)) =
      holes s (done.filterMap slotOf) 0 (read fields template)

/-! ## Reading a template -/

section Reading

variable {s t : Slot} {done : List Slot} {template : List Piece}

theorem mark_ne_nil {field : String × Json} (h : slotOf field = some s) : s.mark ≠ [] := by
  obtain ⟨replacement, -, rfl⟩ := Option.map_eq_some_iff.mp h
  simp

@[simp] theorem fill_cons (p : Piece) :
    fill done (p :: template) = p.filled done ++ fill done template := List.flatMap_cons

/-- Nothing filled in, the pieces are the template. -/
theorem fill_pieces (slots : List Slot) (hmarks : ∀ s ∈ slots, s.mark ≠ []) (skip : Nat)
    (cs : List Char) : fill [] (pieces slots skip cs) = cs.drop skip := by
  induction cs generalizing skip with
  | nil => simp [pieces, fill]
  | cons c cs ih =>
    cases skip with
    | succ skip => exact ih skip
    | zero =>
      rw [pieces]
      cases hfind : slots.find? fun s => s.mark.isPrefixOf (c :: cs) with
      | none =>
        rw [fill_cons, ih]
        rfl
      | some s =>
        have hmem : s ∈ slots := List.mem_of_find?_eq_some hfind
        have hoccurs : s.mark.isPrefixOf (c :: cs) = true := by
          simpa using List.find?_some hfind
        obtain ⟨rest, hrest⟩ := List.isPrefixOf_iff_prefix.mp hoccurs
        rw [fill_cons, ih]
        cases hmark : s.mark with
        | nil => exact absurd hmark (hmarks s hmem)
        | cons m ms =>
          rw [hmark] at hrest
          obtain ⟨rfl, rfl⟩ := List.cons.inj hrest
          simp [Piece.filled, hmark]

theorem fill_read (fields : List (String × Json)) (template : String) :
    fill [] (read fields template) = template.toList := by
  refine fill_pieces _ (fun s hs => ?_) 0 _
  obtain ⟨field, -, hfield⟩ := List.mem_filterMap.mp hs
  exact mark_ne_nil hfield

/-- The filled text depends only on which keys are filled in. -/
theorem fill_congr {done' : List Slot} (h : ∀ s, s ∈ done ↔ s ∈ done') :
    fill done template = fill done' template := by
  refine congrArg template.flatMap (funext fun p => ?_)
  cases p with
  | text c => rfl
  | slot s => simp [Piece.filled, h s]

end Reading

/-! ## One key -/

section Scan

variable {pat rep : List Char}

theorem hits_ge (off skip : Nat) (cs : List Char) : ∀ n ∈ hits pat off skip cs, off ≤ n := by
  induction cs generalizing off skip with
  | nil => simp [hits]
  | cons c cs ih =>
    intro n hn
    cases skip with
    | succ skip => exact Nat.le_of_succ_le (ih _ _ n hn)
    | zero =>
      rw [hits] at hn
      split at hn
      · rcases List.mem_cons.mp hn with rfl | hn
        · exact Nat.le_refl _
        · exact Nat.le_of_succ_le (ih _ _ n hn)
      · exact Nat.le_of_succ_le (ih _ _ n hn)

theorem hits_skip (off : Nat) (word rest : List Char) :
    hits pat off word.length (word ++ rest) = hits pat (off + word.length) 0 rest := by
  induction word generalizing off with
  | nil => rfl
  | cons c word ih =>
    rw [List.length_cons, List.cons_append, hits, ih]
    congr 1
    omega

/-- An occurrence at the front is a place, and the scan goes on behind it. -/
theorem hits_occurrence (hne : pat ≠ []) (off : Nat) (rest : List Char) :
    hits pat off 0 (pat ++ rest) = off :: hits pat (off + pat.length) 0 rest := by
  cases pat with
  | nil => exact absurd rfl hne
  | cons p ps =>
    have hoccurs : (p :: ps).isPrefixOf (p :: (ps ++ rest)) = true :=
      List.isPrefixOf_iff_prefix.mpr (List.prefix_append (p :: ps) rest)
    rw [List.cons_append, hits, if_pos hoccurs]
    refine congrArg (off :: ·) ((hits_skip (off + 1) ps rest).trans ?_)
    congr 1
    simp only [List.length_cons]
    omega

/-- A word in which no place begins is left as it is. -/
theorem scan_word (word rest : List Char) (off : Nat)
    (h : ∀ n ∈ hits pat off 0 (word ++ rest), off + word.length ≤ n) :
    replaceChars pat rep 0 (word ++ rest) = word ++ replaceChars pat rep 0 rest ∧
      hits pat off 0 (word ++ rest) = hits pat (off + word.length) 0 rest := by
  induction word generalizing off with
  | nil => exact ⟨rfl, rfl⟩
  | cons c word ih =>
    rw [List.cons_append, hits] at h
    have hnot : ¬ pat.isPrefixOf (c :: (word ++ rest)) = true := by
      intro hoccurs
      rw [if_pos hoccurs] at h
      have hoff := h off List.mem_cons_self
      simp only [List.length_cons] at hoff
      omega
    rw [if_neg hnot] at h
    obtain ⟨hreplaced, hrest⟩ := ih (off + 1) fun n hn => by
      have hn := h n hn
      simp only [List.length_cons] at hn
      omega
    rw [List.cons_append, replaceChars, hits, if_neg hnot, if_neg hnot, hreplaced, hrest]
    refine ⟨rfl, ?_⟩
    congr 1
    simp only [List.length_cons]
    omega

theorem holes_ge (s : Slot) (done : List Slot) (off : Nat) (template : List Piece) :
    ∀ n ∈ holes s done off template, off ≤ n := by
  induction template generalizing off with
  | nil => simp [holes]
  | cons p template ih =>
    intro n hn
    rw [holes] at hn
    rcases List.mem_append.mp hn with hn | hn
    · split at hn
      · simp only [List.mem_singleton] at hn
        omega
      · cases hn
    · have hle := ih _ n hn
      omega

end Scan

/-- A piece that is not an open placeholder of `s` is the same text with `s` filled in. -/
theorem Piece.filled_of_closed {s : Slot} {done : List Slot} {p : Piece}
    (h : ¬ (p = .slot s ∧ s ∉ done)) : p.filled (s :: done) = p.filled done := by
  cases p with
  | text c => rfl
  | slot t =>
    have hmem : t ∈ s :: done ↔ t ∈ done := by
      refine ⟨fun ht => ?_, List.mem_cons_of_mem s⟩
      rcases List.mem_cons.mp ht with rfl | ht
      · exact Decidable.byContradiction fun hnot => h ⟨rfl, hnot⟩
      · exact ht
    simp only [Piece.filled, hmem]

/-- **One key**: found exactly at the template's placeholders, it is filled in and nothing else
changes. -/
theorem replaceChars_fill {s : Slot} (hmark : s.mark ≠ []) (done : List Slot) (off : Nat)
    (template : List Piece)
    (h : hits s.mark off 0 (fill done template) = holes s done off template) :
    replaceChars s.mark s.value 0 (fill done template) = fill (s :: done) template := by
  induction template generalizing off with
  | nil => rfl
  | cons p template ih =>
    rw [fill_cons, holes] at h
    rw [fill_cons, fill_cons]
    by_cases hopen : p = .slot s ∧ s ∉ done
    · obtain ⟨rfl, hs⟩ := hopen
      have hbefore : (Piece.slot s).filled done = s.mark := if_neg hs
      have hafter : (Piece.slot s).filled (s :: done) = s.value := if_pos List.mem_cons_self
      rw [if_pos ⟨rfl, hs⟩, hbefore, hits_occurrence hmark] at h
      rw [hbefore, hafter, Replaces.occurrence hmark, ih _ (List.cons.inj h).2]
    · rw [if_neg hopen, List.nil_append] at h
      obtain ⟨hreplaced, hrest⟩ := @scan_word s.mark s.value (p.filled done) (fill done template)
        off (by rw [h]; exact holes_ge s done _ template)
      rw [hreplaced, ih _ (hrest ▸ h), Piece.filled_of_closed hopen]

/-! ## All the keys -/

section Render

variable {fields : List (String × Json)} {template : String}

/-- One step of the code. -/
theorem render_append (done : List (String × Json)) (field : String × Json) :
    renderConfigTemplate template (.obj (done ++ [field])) =
      ((slotOf field).map fun s => String.ofList (replaceChars s.mark s.value 0
        (renderConfigTemplate template (.obj done)).toList)).getD
          (renderConfigTemplate template (.obj done)) := by
  simp only [renderConfigTemplate, List.foldl_append, List.foldl_cons, List.foldl_nil, slotOf]
  cases field.2.replacement with
  | none => rfl
  | some replacement => rfl

/-- The text after `done`, where every key of it was found where the template has it. -/
def Filled (fields : List (String × Json)) (template : String) (done : List (String × Json)) :
    Prop :=
  renderConfigTemplate template (.obj done) =
    String.ofList (fill (done.filterMap slotOf) (read fields template))

theorem Filled.nil : Filled fields template [] := by
  simp [Filled, renderConfigTemplate, fill_read]

theorem Filled.append {done : List (String × Json)} {field : String × Json}
    (h : Filled fields template done)
    (hplaces : ∀ s, slotOf field = some s →
      hits s.mark 0 0 (fill (done.filterMap slotOf) (read fields template)) =
        holes s (done.filterMap slotOf) 0 (read fields template)) :
    Filled fields template (done ++ [field]) := by
  unfold Filled
  rw [render_append, List.filterMap_append]
  cases hslot : slotOf field with
  | none =>
    simp only [Option.map_none, Option.getD_none, List.filterMap_cons, hslot, List.filterMap_nil,
      List.append_nil]
    exact h
  | some s =>
    have hfilled := replaceChars_fill (mark_ne_nil hslot) _ 0 _ (hplaces s hslot)
    simp only [Option.map_some, Option.getD_some, List.filterMap_cons, hslot, List.filterMap_nil]
    rw [show renderConfigTemplate template (.obj done) = _ from h, String.toList_ofList, hfilled]
    refine congrArg String.ofList (fill_congr fun t => ?_)
    simp [or_comm]

/-- Every prefix of an order whose steps find their places is filled in. -/
theorem filled_of_places {order : List (String × Json)}
    (h : ∀ done field rest s, order = done ++ field :: rest → slotOf field = some s →
      Filled fields template done →
      hits s.mark 0 0 (fill (done.filterMap slotOf) (read fields template)) =
        holes s (done.filterMap slotOf) 0 (read fields template))
    (done rest : List (String × Json)) (horder : order = done ++ rest) :
    Filled fields template done := by
  induction done using List.reverseRecOn generalizing rest with
  | nil => exact Filled.nil
  | append_singleton done field ih =>
    rw [List.append_assoc] at horder
    have hdone := ih _ horder
    exact hdone.append fun s hs => h done field rest s horder hs hdone

end Render

end Template

open Template

/-- **Rendering is simultaneous substitution**, in every order of the keys, exactly where no
placeholder is found that the template does not have. An injected value and a restored one are
rendered templates. -/
theorem rendering_is_simultaneous_iff (fields : List (String × Json)) (template : String)
    (context : Json) (restore : Bool) (injection : EnvInjection) :
    ((∀ order : List (String × Json), order.Perm fields → Simultaneous fields template order) ↔
      Apart fields template) ∧
    ∃ rendered, (rendered = injection.valueTemplate ∨
        restore = true ∧ injection.restoreValueTemplate = some rendered) ∧
      renderEnvInjection context restore injection = EnvVar.ofValue
        (((context.get injection.nameFromConfig).bind Json.asStr).getD injection.nameFromConfig)
        (some (renderConfigTemplate rendered context)) := by
  refine ⟨⟨fun h done field rest s hperm hs => ?_, fun h order hperm => ?_⟩, ?_⟩
  · have hplaces := (h _ hperm).places
    -- the text before each key is the filled template, so its places are those of the code
    have hdone : Filled fields template done := by
      refine @filled_of_places fields template (done ++ field :: rest) ?_ done (field :: rest) rfl
      intro done' field' rest' s' horder hs' hfilled
      have hcode := hplaces done' field' rest' s' horder hs'
      rwa [hfilled, String.toList_ofList] at hcode
    have hcode := hplaces done field rest s rfl hs
    rwa [hdone, String.toList_ofList] at hcode
  · have hfilled : ∀ done rest, order = done ++ rest → Filled fields template done := by
      refine filled_of_places fun done field rest s horder hs _ => ?_
      exact h done field rest s (horder ▸ hperm) hs
    refine ⟨?_, fun done field rest s horder hs => ?_⟩
    · rw [hfilled order [] (List.append_nil order).symm]
      refine congrArg String.ofList (fill_congr fun s => ?_)
      exact (hperm.filterMap slotOf).mem_iff
    · rw [hfilled done (field :: rest) horder, String.toList_ofList]
      exact h done field rest s (horder ▸ hperm) hs
  · cases restore with
    | false => exact ⟨_, .inl rfl, rfl⟩
    | true =>
      cases hrestore : injection.restoreValueTemplate with
      | none => exact ⟨injection.valueTemplate, .inl rfl, by simp [renderEnvInjection, hrestore]⟩
      | some restored => exact ⟨restored, .inr ⟨rfl, rfl⟩, by simp [renderEnvInjection, hrestore]⟩

/-- A config whose first value is the placeholder of its second key. -/
def Sample.nestedConfig : List (String × Json) :=
  [("a", .str "\x7b\x7bb\x7d\x7d"), ("b", .str "x")]

def Sample.nestedRendering : PLift (
    renderConfigTemplate "\x7b\x7ba\x7d\x7d" (.obj Sample.nestedConfig) = "x" ∧
    String.ofList (fill (Sample.nestedConfig.filterMap slotOf)
      (read Sample.nestedConfig "\x7b\x7ba\x7d\x7d")) ≠ "x") := ⟨by decide +kernel⟩

/-- The value of one key is read as the placeholder of the other. -/
theorem nested_value_is_rendered :
    ¬ ∀ (fields : List (String × Json)) (template : String) (order : List (String × Json)),
      order.Perm fields → Simultaneous fields template order := by
  intro h
  have hresult := (h Sample.nestedConfig "\x7b\x7ba\x7d\x7d" Sample.nestedConfig (.refl _)).result
  obtain ⟨hcode, hspec⟩ := Sample.nestedRendering.down
  exact hspec (hresult.symm.trans hcode)

end FluidBG
