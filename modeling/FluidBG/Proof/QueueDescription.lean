import FluidBG.Plugins.QueueDescription
import FluidBG.Proof.Replacements
/-!
# What a queue description says

The two encodings of a queue declaration have one content. A reader that splits the Atom entry at
its tags gets back the fields that were written, whatever their values are, because an escaped value
has no markup; and these fields are the properties of the resource manager.
-/

set_option autoImplicit false

namespace FluidBG.ServiceBus

/-! ## Escaping -/

namespace Entity

/-- The characters that are escaped, the last one first. -/
def special : List Char := ['\'', '"', '>', '<', '&']

def text : Char → List Char
  | '&' => "&amp;".toList
  | '<' => "&lt;".toList
  | '>' => "&gt;".toList
  | '"' => "&quot;".toList
  | '\'' => "&apos;".toList
  | c => [c]

/-- A character while those of `done` are escaped. -/
def stage (done : List Char) (c : Char) : List Char := if c ∈ done then text c else [c]

theorem stage_of_mem {done : List Char} {c : Char} (h : c ∈ done) : stage done c = text c :=
  if_pos h

theorem stage_of_not_mem {done : List Char} {c : Char} (h : c ∉ done) : stage done c = [c] :=
  if_neg h

/-- One more character is escaped. -/
theorem escape_stage {p : Char} {done : List Char} (hnew : p ∉ done)
    (hclean : (done.all fun d => decide (p ∉ text d)) = true) (c : Char) :
    Replaces [p] (text p) (stage done c) (stage (p :: done) c) := by
  by_cases hc : c ∈ done
  · rw [stage_of_mem hc, stage_of_mem (List.mem_cons_of_mem _ hc)]
    have hnot : p ∉ text c := of_decide_eq_true (List.all_eq_true.mp hclean c hc)
    exact Replaces.of_head fun x hx heq => hnot (heq ▸ hx)
  · rw [stage_of_not_mem hc]
    by_cases hp : c = p
    · subst hp
      rw [stage_of_mem List.mem_cons_self]
      exact Replaces.occurrence (by simp)
    · rw [stage_of_not_mem (by simp [hp, hc])]
      exact Replaces.of_head (by simp [hp])

theorem text_shape {c : Char} (hc : c ∈ special) :
    ∃ name, text c = '&' :: name ∧ '&' ∉ name ∧ '<' ∉ text c ∧ '>' ∉ text c := by
  have hall : (special.all fun c => decide (text c = '&' :: (text c).tail ∧
      '&' ∉ (text c).tail ∧ '<' ∉ text c ∧ '>' ∉ text c)) = true := by
    decide
  exact ⟨(text c).tail, of_decide_eq_true (List.all_eq_true.mp hall c hc)⟩

/-- No entity begins another one. -/
theorem eq_of_starts {a b : Char} (ha : a ∈ special) (hb : b ∈ special)
    (h : text a <+: text b) : a = b := by
  have hall : (special.all fun a => special.all fun b =>
      decide (text a <+: text b → a = b)) = true := by
    decide
  exact of_decide_eq_true (List.all_eq_true.mp (List.all_eq_true.mp hall a ha) b hb) h

/-- An entity is read as its character, and the others stay. -/
theorem unescape_stage {p : Char} {done : List Char} (hdone : done.Sublist special)
    (hamp : '&' ∈ done) (hp : p ∈ done) (c : Char) :
    Replaces (text p) [p] (stage done c) (stage (done.filter (· ≠ p)) c) := by
  obtain ⟨name, htext, -⟩ := text_shape (hdone.subset hp)
  by_cases hc : c ∈ done
  · rw [stage_of_mem hc]
    by_cases hcp : c = p
    · subst hcp
      rw [stage_of_not_mem (by simp)]
      exact Replaces.occurrence (by rw [htext]; simp)
    · rw [stage_of_mem (by simp [hc, hcp])]
      obtain ⟨other, hother, hclean, -⟩ := text_shape (hdone.subset hc)
      have hapart : ∀ rest, ¬ text p <+: text c ++ rest := by
        intro rest hin
        apply hcp
        rcases List.prefix_or_prefix_of_prefix hin (List.prefix_append (text c) rest) with h | h
        · exact (eq_of_starts (hdone.subset hp) (hdone.subset hc) h).symm
        · exact eq_of_starts (hdone.subset hc) (hdone.subset hp) h
      rw [htext, hother] at hapart ⊢
      exact Replaces.of_mismatch hapart fun x hx heq => hclean (heq ▸ hx)
  · -- a character that stands for itself is no ampersand
    rw [stage_of_not_mem hc, stage_of_not_mem (by simp [hc]), htext]
    refine Replaces.of_head fun x hx => ?_
    rw [List.mem_singleton.mp hx]
    intro heq
    exact hc (heq ▸ hamp)

end Entity

theorem replaced_toList (pat rep : String) {ps rs cs : List Char} {value : String}
    {piece piece' : Char → List Char} (hpat : pat.toList = ps) (hrep : rep.toList = rs)
    (h : ∀ c, Replaces ps rs (piece c) (piece' c)) (hvalue : value.toList = cs.flatMap piece) :
    (replaced pat rep value).toList = cs.flatMap piece' := by
  rw [replaced, String.toList_ofList, hvalue, hpat, hrep, replaceChars_flatMap h]

theorem flatMap_stage_nil (cs : List Char) : cs.flatMap (Entity.stage []) = cs := by
  induction cs with
  | nil => rfl
  | cons c cs ih =>
    rw [List.flatMap_cons, ih, Entity.stage_of_not_mem List.not_mem_nil]
    rfl

theorem xmlEscape_toList (value : String) :
    (xmlEscape value).toList = value.toList.flatMap (Entity.stage Entity.special) := by
  have hamp := replaced_toList "&" "&amp;" rfl rfl
    (Entity.escape_stage (p := '&') (by decide) (by decide)) (flatMap_stage_nil value.toList).symm
  have hlt := replaced_toList "<" "&lt;" rfl rfl
    (Entity.escape_stage (p := '<') (by decide) (by decide)) hamp
  have hgt := replaced_toList ">" "&gt;" rfl rfl
    (Entity.escape_stage (p := '>') (by decide) (by decide)) hlt
  have hquot := replaced_toList "\"" "&quot;" rfl rfl
    (Entity.escape_stage (p := '"') (by decide) (by decide)) hgt
  exact replaced_toList "'" "&apos;" rfl rfl
    (Entity.escape_stage (p := '\'') (by decide) (by decide)) hquot

/-- An escaped value has no markup. -/
theorem not_markup_of_mem {value : String} {c : Char} (h : c ∈ (xmlEscape value).toList) :
    c ≠ '<' ∧ c ≠ '>' := by
  rw [xmlEscape_toList] at h
  obtain ⟨d, -, hd⟩ := List.mem_flatMap.mp h
  by_cases hspecial : d ∈ Entity.special
  · rw [Entity.stage_of_mem hspecial] at hd
    obtain ⟨name, -, -, hlt, hgt⟩ := Entity.text_shape hspecial
    constructor
    · rintro rfl
      exact hlt hd
    · rintro rfl
      exact hgt hd
  · rw [Entity.stage_of_not_mem hspecial, List.mem_singleton] at hd
    subst hd
    constructor
    · rintro rfl
      exact hspecial (by decide)
    · rintro rfl
      exact hspecial (by decide)

/-- **Unescaping undoes escaping.** -/
theorem xmlUnescape_xmlEscape (value : String) : xmlUnescape (xmlEscape value) = value := by
  have hlt := replaced_toList "&lt;" "<" rfl rfl
    (Entity.unescape_stage (p := '<') (by decide) (by decide) (by decide)) (xmlEscape_toList value)
  have hgt := replaced_toList "&gt;" ">" rfl rfl
    (Entity.unescape_stage (p := '>') (by decide) (by decide) (by decide)) hlt
  have hquot := replaced_toList "&quot;" "\"" rfl rfl
    (Entity.unescape_stage (p := '"') (by decide) (by decide) (by decide)) hgt
  have hapos := replaced_toList "&apos;" "'" rfl rfl
    (Entity.unescape_stage (p := '\'') (by decide) (by decide) (by decide)) hquot
  have hamp := replaced_toList "&amp;" "&" rfl rfl
    (Entity.unescape_stage (p := '&') (by decide) (by decide) (by decide)) hapos
  apply String.toList_inj.mp
  refine hamp.trans ?_
  exact flatMap_stage_nil value.toList

/-! ## Reading a document back -/

/-- The markup of a text: every tag, and the text after it. -/
def markup (text : List Char) : List (List Char × List Char) :=
  (text.splitOn '<').tail.map fun piece =>
    (piece.takeWhile (· ≠ '>'), (piece.dropWhile (· ≠ '>')).tail)

/-- The elements that hold a text and no element: a tag that the next tag closes. -/
def leaves : List (List Char × List Char) → List (List Char × List Char)
  | (tag, text) :: (next, after) :: rest =>
    if next = '/' :: tag then (tag, text) :: leaves ((next, after) :: rest)
    else leaves ((next, after) :: rest)
  | _ => []

def readElements (document : String) : List (String × String) :=
  (leaves (markup document.toList)).map fun element =>
    (String.ofList element.1, xmlUnescape (String.ofList element.2))

namespace Markup

def piece (tag : List Char × List Char) : List Char := tag.1 ++ '>' :: tag.2

def text (tags : List (List Char × List Char)) : List Char := tags.flatMap fun t => '<' :: piece t

/-- Tags that are found again. -/
def Plain (tags : List (List Char × List Char)) : Prop :=
  ∀ t ∈ tags, '<' ∉ t.1 ∧ '>' ∉ t.1 ∧ '<' ∉ t.2

theorem splitOn_text {tags : List (List Char × List Char)} (h : Plain tags) :
    ∀ front : List Char, '<' ∉ front →
      (front ++ text tags).splitOn '<' = front :: tags.map piece := by
  induction tags with
  | nil =>
    intro front hfront
    rw [text, List.flatMap_nil, List.append_nil]
    exact List.splitOn_eq_singleton hfront
  | cons t tags ih =>
    intro front hfront
    obtain ⟨htag, -, htext⟩ := h t List.mem_cons_self
    have hpiece : '<' ∉ piece t := by
      simp [piece, htag, htext]
    have hrest := ih (fun u hu => h u (List.mem_cons_of_mem _ hu)) (piece t) hpiece
    rw [text, List.flatMap_cons, List.cons_append, List.splitOn_append_cons_self_of_not_mem hfront]
    exact congrArg (front :: ·) hrest

theorem takeWhile_piece {t : List Char × List Char} (h : '>' ∉ t.1) :
    (piece t).takeWhile (· ≠ '>') = t.1 ∧ ((piece t).dropWhile (· ≠ '>')).tail = t.2 := by
  have hall : ∀ c ∈ t.1, (decide (c ≠ '>')) = true := by
    intro c hc
    rw [decide_eq_true_eq]
    rintro rfl
    exact h hc
  constructor
  · rw [piece, List.takeWhile_append_of_pos hall]
    simp
  · rw [piece, List.dropWhile_append_of_pos hall]
    simp

/-- **Markup is found again** where no tag and no text holds any. -/
theorem markup_text {tags : List (List Char × List Char)} (h : Plain tags) :
    markup (text tags) = tags := by
  unfold markup
  rw [show text tags = [] ++ text tags from rfl, splitOn_text h [] List.not_mem_nil, List.tail_cons,
    List.map_map]
  conv_rhs => rw [← List.map_id tags]
  refine List.map_congr_left fun t ht => ?_
  obtain ⟨htake, hdrop⟩ := takeWhile_piece (h t ht).2.1
  rw [Function.comp_apply, htake, hdrop]
  rfl

/-- The tags of elements in lines of their own. -/
def ofElements : List (List Char × List Char) → List (List Char × List Char)
  | [] => []
  | (name, value) :: elements =>
    (name, value) :: ('/' :: name, if elements = [] then "\n    ".toList else "\n      ".toList) ::
      ofElements elements

theorem ofElements_cons (e : List Char × List Char) (elements : List (List Char × List Char)) :
    ofElements (e :: elements) = e ::
      ('/' :: e.1, if elements = [] then "\n    ".toList else "\n      ".toList) ::
        ofElements elements := rfl

/-- A name that is no closing tag. -/
def Named (name : List Char) : Prop := '<' ∉ name ∧ '>' ∉ name ∧ '/' ∉ name

instance instDecidableNamed (name : List Char) : Decidable (Named name) :=
  inferInstanceAs (Decidable (_ ∧ _))

theorem leaves_skip {tag next : List Char × List Char} {rest : List (List Char × List Char)}
    (h : next.1 ≠ '/' :: tag.1) : leaves (tag :: next :: rest) = leaves (next :: rest) := by
  obtain ⟨tag, text⟩ := tag
  obtain ⟨next, after⟩ := next
  rw [leaves, if_neg h]

/-- The elements are the leaves, whatever markup follows that does not close a closing tag. -/
theorem leaves_ofElements {closing : List Char × List Char} {rest : List (List Char × List Char)}
    (hclosing : ∀ name, closing.1 ≠ '/' :: '/' :: name) (hrest : leaves (closing :: rest) = []) :
    ∀ elements : List (List Char × List Char), (∀ e ∈ elements, Named e.1) →
      leaves (ofElements elements ++ closing :: rest) = elements := by
  intro elements
  induction elements with
  | nil =>
    intro _
    exact hrest
  | cons e elements ih =>
    intro h
    obtain ⟨name, value⟩ := e
    have hothers := ih fun d hd => h d (List.mem_cons_of_mem _ hd)
    rw [ofElements, List.cons_append, List.cons_append, leaves, if_pos rfl]
    refine congrArg ((name, value) :: ·) ?_
    cases elements with
    | nil =>
      rw [ofElements, List.nil_append] at hothers ⊢
      rw [leaves_skip (hclosing name), hothers]
    | cons d elements =>
      obtain ⟨name', value'⟩ := d
      rw [ofElements, List.cons_append] at hothers ⊢
      rw [leaves_skip, hothers]
      intro hname
      have hslash := (h (name', value') (by simp)).2.2
      rw [show name' = '/' :: '/' :: name from hname] at hslash
      exact hslash List.mem_cons_self

/-- An element in a line of its own. -/
def line (value : String → String) (field : String × String) : String :=
  "      <" ++ field.1 ++ ">" ++ value field.2 ++ "</" ++ field.1 ++ ">"

def element (value : String → String) (field : String × String) : List Char × List Char :=
  (field.1.toList, (value field.2).toList)

/-- The tags of elements are their lines. -/
theorem text_ofElements (value : String → String) {fields : List (String × String)}
    (hne : fields ≠ []) :
    "\n      ".toList ++ text (ofElements (fields.map (element value))) =
      "\n".toList ++ ("\n".intercalate (fields.map (line value))).toList ++ "\n    ".toList := by
  induction fields with
  | nil => exact absurd rfl hne
  | cons f fields ih =>
    cases fields with
    | nil =>
      rw [List.map_singleton, List.map_singleton, String.intercalate_singleton]
      simp only [ofElements, text, piece, element, line, List.flatMap_cons, List.flatMap_nil,
        String.toList_append, List.append_assoc, List.cons_append, List.append_nil, if_pos]
      rfl
    | cons g fields =>
      have hrest := ih (by simp)
      have hline : "\n      ".toList ++ text (ofElements ((f :: g :: fields).map (element value))) =
          "\n".toList ++ (line value f).toList ++
            ("\n      ".toList ++ text (ofElements ((g :: fields).map (element value)))) := by
        rw [List.map_cons, ofElements_cons, if_neg (by simp)]
        simp only [text, piece, element, line, List.flatMap_cons, String.toList_append,
          List.append_assoc, List.cons_append]
        rfl
      rw [hline, hrest, List.map_cons (f := line value) (l := g :: fields),
        List.map_cons (f := line value) (l := fields), String.intercalate_cons_cons]
      simp only [String.toList_append, List.append_assoc]

theorem plain_ofElements {elements : List (List Char × List Char)}
    (h : ∀ e ∈ elements, Named e.1 ∧ '<' ∉ e.2) : Plain (ofElements elements) := by
  induction elements with
  | nil =>
    intro t ht
    cases ht
  | cons e elements ih =>
    obtain ⟨⟨hopen, hclose, -⟩, hvalue⟩ := h e List.mem_cons_self
    intro t ht
    rw [ofElements, List.mem_cons, List.mem_cons] at ht
    rcases ht with rfl | rfl | ht
    · exact ⟨hopen, hclose, hvalue⟩
    · refine ⟨by simp [hopen], by simp [hclose], ?_⟩
      dsimp only
      split
      · decide
      · decide
    · exact ih (fun d hd => h d (List.mem_cons_of_mem _ hd)) t ht

end Markup

/-! ## The two encodings -/

/-- The first letter in lower case. -/
def lowerFirst (name : String) : String :=
  match name.toList with
  | [] => ""
  | c :: cs => String.ofList (c.toLower :: cs)

/-- The fields of the entry are the properties, as far as both are written. -/
structure InStep (keys : List String) (xml : List (String × String))
    (json : List (String × Json)) : Prop where
  content : (json.map fun f => (f.1, f.2.replacement)).Perm
    (xml.map fun f => (lowerFirst f.1, some f.2))
  named : ∀ f ∈ xml, Markup.Named f.1.toList ∧ lowerFirst f.1 ∈ keys
  distinct : (json.map (·.1)).Nodup

/-- A property with a new name is put somewhere among the others. -/
theorem insertField_perm {key : String} {value : Json} {fields : List (String × Json)}
    (h : key ∉ fields.map (·.1)) :
    (Json.insertField key value fields).Perm ((key, value) :: fields) := by
  induction fields with
  | nil => exact List.Perm.refl _
  | cons field fields ih =>
    rw [List.map_cons, List.mem_cons, not_or] at h
    rw [Json.insertField, if_neg (Ne.symm h.1)]
    split
    · exact List.Perm.refl _
    · exact ((ih h.2).cons field).trans (List.Perm.swap _ _ _)

theorem InStep.push {α : Type} [ToString α] {toValue : α → Json} {keys : List String}
    {xml : List (String × String)} {json : List (String × Json)} (h : InStep keys xml json)
    (name key : String) (value : Option α)
    (hvalue : ∀ v, (toValue v).replacement = some (toString v))
    (hname : Markup.Named name.toList ∧ lowerFirst name = key) (hnew : key ∉ keys) :
    InStep (key :: keys) (pushXmlField name value xml) (insertJsonProperty toValue key value json) := by
  cases value with
  | none =>
    refine ⟨h.content, fun f hf => ?_, h.distinct⟩
    exact ⟨(h.named f hf).1, List.mem_cons_of_mem _ (h.named f hf).2⟩
  | some v =>
    have hfresh : key ∉ json.map (·.1) := by
      intro hmem
      obtain ⟨f, hf, rfl⟩ := List.mem_map.mp hmem
      obtain ⟨g, hg, heq⟩ :=
        List.mem_map.mp (h.content.subset (List.mem_map.mpr ⟨f, hf, rfl⟩))
      rw [← (Prod.mk.inj heq).1] at hnew
      exact hnew (h.named g hg).2
    constructor
    · have hput := (@insertField_perm key (toValue v) json hfresh).map
        fun f => (f.1, f.2.replacement)
      refine hput.trans ?_
      rw [pushXmlField, List.map_append, List.map_cons, hvalue]
      refine List.Perm.trans ?_ List.perm_append_comm
      rw [List.map_cons, List.map_nil, hname.2]
      exact h.content.cons _
    · intro f hf
      rw [pushXmlField, List.mem_append, List.mem_singleton] at hf
      rcases hf with hf | rfl
      · exact ⟨(h.named f hf).1, List.mem_cons_of_mem _ (h.named f hf).2⟩
      · exact ⟨hname.1, by rw [hname.2]; exact List.mem_cons_self⟩
    · have hkeys := (@insertField_perm key (toValue v) json hfresh).map (·.1)
      exact hkeys.symm.nodup (List.nodup_cons.mpr ⟨hfresh, h.distinct⟩)

theorem replacement_bool (b : Bool) : (Json.bool b).replacement = some (toString b) := by
  cases b
  · rfl
  · rfl

theorem queueDescription_inStep (d : QueueDeclarationConfig) : ∃ keys properties,
    queueDescriptionArmProperties d = .obj properties ∧
      InStep keys (queueDescriptionFields d) properties := by
  have hint : ∀ n : Int, (Json.num (.int n)).replacement = some (toString n) := fun _ => rfl
  have hstr : ∀ s : String, (Json.str s).replacement = some (toString s) := fun _ => rfl
  have hbool := replacement_bool
  have h : InStep [] [] [] := ⟨List.Perm.refl _, fun _ hf => absurd hf List.not_mem_nil, List.nodup_nil⟩
  have h := h.push "LockDuration" "lockDuration"
    (some (d.lockDuration.getD "PT1M")) hstr (by decide) (by decide)
  have h := h.push "EnableBatchedOperations" "enableBatchedOperations"
    (some (d.enableBatchedOperations.getD true)) hbool (by decide) (by decide)
  have h := h.push "MaxSizeInMegabytes" "maxSizeInMegabytes"
    d.maxSizeInMegabytes hint (by decide) (by decide)
  have h := h.push "MaxMessageSizeInKilobytes" "maxMessageSizeInKilobytes"
    d.maxMessageSizeInKilobytes hint (by decide) (by decide)
  have h := h.push "RequiresDuplicateDetection" "requiresDuplicateDetection"
    d.requiresDuplicateDetection hbool (by decide) (by decide)
  have h := h.push "RequiresSession" "requiresSession"
    d.requiresSession hbool (by decide) (by decide)
  have h := h.push "DefaultMessageTimeToLive" "defaultMessageTimeToLive"
    d.defaultMessageTimeToLive hstr (by decide) (by decide)
  have h := h.push "DeadLetteringOnMessageExpiration" "deadLetteringOnMessageExpiration"
    d.deadLetteringOnMessageExpiration hbool (by decide) (by decide)
  have h := h.push "DuplicateDetectionHistoryTimeWindow" "duplicateDetectionHistoryTimeWindow"
    d.duplicateDetectionHistoryTimeWindow hstr (by decide) (by decide)
  have h := h.push "MaxDeliveryCount" "maxDeliveryCount"
    d.maxDeliveryCount hint (by decide) (by decide)
  have h := h.push "AutoDeleteOnIdle" "autoDeleteOnIdle"
    d.autoDeleteOnIdle hstr (by decide) (by decide)
  have h := h.push "EnablePartitioning" "enablePartitioning"
    d.enablePartitioning hbool (by decide) (by decide)
  have h := h.push "EnableExpress" "enableExpress" d.enableExpress hbool (by decide) (by decide)
  have h := h.push "ForwardTo" "forwardTo" d.forwardTo hstr (by decide) (by decide)
  have h := h.push "ForwardDeadLetteredMessagesTo" "forwardDeadLetteredMessagesTo"
    d.forwardDeadLetteredMessagesTo hstr (by decide) (by decide)
  have h := h.push "Status" "status" d.status hstr (by decide) (by decide)
  exact ⟨_, _, rfl, h⟩

/-! ## The entry -/

theorem queueDescriptionFields_ne_nil (d : QueueDeclarationConfig) :
    queueDescriptionFields d ≠ [] := by
  have hpush : ∀ {α : Type} [ToString α] (name : String) (value : Option α)
      (target : List (String × String)), target ≠ [] → pushXmlField name value target ≠ [] := by
    intro α _ name value target hne
    cases value with
    | none => exact hne
    | some v => simp [pushXmlField]
  unfold queueDescriptionFields
  iterate 14 apply hpush
  simp

/-- The markup before the elements. -/
def entryHead : List (List Char × List Char) :=
  [("?xml version=\"1.0\" encoding=\"utf-8\"?".toList, "\n".toList),
    ("entry xmlns=\"http://www.w3.org/2005/Atom\"".toList, "\n  ".toList),
    ("content type=\"application/xml\"".toList, "\n    ".toList),
    ("QueueDescription ".toList ++
        "xmlns=\"http://schemas.microsoft.com/netservices/2010/10/servicebus/connect\"".toList,
      "\n      ".toList)]

/-- The markup after them. -/
def entryTail : List (List Char × List Char) :=
  [("/content".toList, "\n".toList), ("/entry".toList, [])]

theorem queueDescriptionXml_toList (d : QueueDeclarationConfig) :
    (queueDescriptionXml d).toList = Markup.text (entryHead ++
      (Markup.ofElements ((queueDescriptionFields d).map (Markup.element xmlEscape)) ++
        ("/QueueDescription".toList, "\n  ".toList) :: entryTail)) := by
  have hlines := Markup.text_ofElements xmlEscape (queueDescriptionFields_ne_nil d)
  have hhead : Markup.text entryHead = entryStart.toList ++ "\n      ".toList := by
    decide +kernel
  have htail : Markup.text (("/QueueDescription".toList, "\n  ".toList) :: entryTail) =
      entryEnd.toList := by
    decide +kernel
  have hxml : queueDescriptionXml d = entryStart ++ "\n" ++
      "\n".intercalate ((queueDescriptionFields d).map (Markup.line xmlEscape)) ++ "\n    " ++
      entryEnd := rfl
  have happend : ∀ tags tags', Markup.text (tags ++ tags') = Markup.text tags ++ Markup.text tags' :=
    fun _ _ => List.flatMap_append
  rw [happend, happend, hhead, htail, hxml]
  simp only [String.toList_append]
  have hentry := congrArg (entryStart.toList ++ · ++ entryEnd.toList) hlines
  simp only [List.append_assoc] at hentry ⊢
  exact hentry.symm

theorem leaves_entryHead {first : List Char × List Char} (h : '/' ∉ first.1)
    (rest : List (List Char × List Char)) :
    leaves (entryHead ++ first :: rest) = leaves (first :: rest) := by
  have hname : ∀ tag : List Char, first.1 ≠ '/' :: tag := by
    intro tag htag
    rw [htag] at h
    exact h List.mem_cons_self
  unfold entryHead
  simp only [List.cons_append, List.nil_append]
  rw [Markup.leaves_skip (by decide), Markup.leaves_skip (by decide),
    Markup.leaves_skip (by decide), Markup.leaves_skip (hname _)]

/-- **The entry reads as the fields that were written**, whatever their values are. -/
theorem readElements_queueDescriptionXml (d : QueueDeclarationConfig) :
    readElements (queueDescriptionXml d) = queueDescriptionFields d := by
  obtain ⟨keys, properties, -, hstep⟩ := queueDescription_inStep d
  have hnamed : ∀ e ∈ (queueDescriptionFields d).map (Markup.element xmlEscape),
      Markup.Named e.1 := by
    intro e he
    obtain ⟨f, hf, rfl⟩ := List.mem_map.mp he
    exact (hstep.named f hf).1
  have hvalues : ∀ e ∈ (queueDescriptionFields d).map (Markup.element xmlEscape), '<' ∉ e.2 := by
    intro e he hin
    obtain ⟨f, -, rfl⟩ := List.mem_map.mp he
    dsimp only [Markup.element] at hin
    have hmarkup := not_markup_of_mem hin
    exact hmarkup.1 rfl
  have hplain : Markup.Plain (entryHead ++
      (Markup.ofElements ((queueDescriptionFields d).map (Markup.element xmlEscape)) ++
        ("/QueueDescription".toList, "\n  ".toList) :: entryTail)) := by
    have hhead : Markup.Plain entryHead := by
      unfold Markup.Plain
      decide +kernel
    have htail : Markup.Plain (("/QueueDescription".toList, "\n  ".toList) :: entryTail) := by
      unfold Markup.Plain
      decide +kernel
    intro t ht
    rcases List.mem_append.mp ht with ht | ht
    · exact hhead t ht
    · rcases List.mem_append.mp ht with ht | ht
      · exact Markup.plain_ofElements (fun e he => ⟨hnamed e he, hvalues e he⟩) t ht
      · exact htail t ht
  have hclosing : ∀ name : List Char, "/QueueDescription".toList ≠ '/' :: '/' :: name := by
    intro name h
    have hsecond := congrArg (fun cs => cs.tail.head?) h
    revert hsecond
    simp
  have htail : leaves (("/QueueDescription".toList, "\n  ".toList) :: entryTail) = [] := by decide
  have hleaves := Markup.leaves_ofElements hclosing htail _ hnamed
  unfold readElements
  rw [queueDescriptionXml_toList, Markup.markup_text hplain]
  cases hfields : queueDescriptionFields d with
  | nil => exact absurd hfields (queueDescriptionFields_ne_nil d)
  | cons f fields =>
    rw [hfields] at hleaves hnamed
    have hfirst := (hnamed (Markup.element xmlEscape f) List.mem_cons_self).2.2
    rw [List.map_cons, Markup.ofElements_cons, List.cons_append] at hleaves ⊢
    rw [leaves_entryHead hfirst, hleaves, ← List.map_cons, List.map_map]
    conv_rhs => rw [← List.map_id (f :: fields)]
    refine List.map_congr_left fun g _ => ?_
    simp only [Function.comp_apply, Markup.element, String.ofList_toList, xmlUnescape_xmlEscape]
    rfl

/-! ## What a declaration decides -/

/-- Which of the optional fields are there. -/
def QueueDeclarationConfig.presence (d : QueueDeclarationConfig) : List Bool :=
  [d.maxSizeInMegabytes.isSome, d.maxMessageSizeInKilobytes.isSome,
    d.requiresDuplicateDetection.isSome, d.requiresSession.isSome,
    d.defaultMessageTimeToLive.isSome, d.deadLetteringOnMessageExpiration.isSome,
    d.duplicateDetectionHistoryTimeWindow.isSome, d.maxDeliveryCount.isSome,
    d.autoDeleteOnIdle.isSome, d.enablePartitioning.isSome, d.enableExpress.isSome,
    d.forwardTo.isSome, d.forwardDeadLetteredMessagesTo.isSome, d.status.isSome]

theorem pushXmlField_names {α : Type} [ToString α] {name : String} {value value' : Option α}
    {target target' : List (String × String)} (htarget : target.map (·.1) = target'.map (·.1))
    (hvalue : value.isSome = value'.isSome) :
    (pushXmlField name value target).map (·.1) = (pushXmlField name value' target').map (·.1) := by
  cases value with
  | none =>
    cases value' with
    | none => exact htarget
    | some v' => cases hvalue
  | some v =>
    cases value' with
    | none => cases hvalue
    | some v' => simp [pushXmlField, htarget]

/-- No value decides which elements there are. -/
theorem queueDescriptionFields_names {d d' : QueueDeclarationConfig}
    (h : d.presence = d'.presence) :
    (queueDescriptionFields d).map (·.1) = (queueDescriptionFields d').map (·.1) := by
  simp only [QueueDeclarationConfig.presence, List.cons.injEq, and_true] at h
  obtain ⟨h1, h2, h3, h4, h5, h6, h7, h8, h9, h10, h11, h12, h13, h14⟩ := h
  unfold queueDescriptionFields
  apply pushXmlField_names _ h14
  apply pushXmlField_names _ h13
  apply pushXmlField_names _ h12
  apply pushXmlField_names _ h11
  apply pushXmlField_names _ h10
  apply pushXmlField_names _ h9
  apply pushXmlField_names _ h8
  apply pushXmlField_names _ h7
  apply pushXmlField_names _ h6
  apply pushXmlField_names _ h5
  apply pushXmlField_names _ h4
  apply pushXmlField_names _ h3
  apply pushXmlField_names _ h2
  apply pushXmlField_names _ h1
  rfl

/-- **Both encodings of a queue declaration say the same.** The elements of the entry, unescaped,
are the properties of the resource manager; which of them there are does not depend on the values;
and unescaping undoes escaping. -/
theorem queue_descriptions_agree (d : QueueDeclarationConfig) :
    (∃ properties, queueDescriptionArmProperties d = .obj properties ∧
      (properties.map (·.1)).Nodup ∧
      (properties.map fun p => (p.1, p.2.replacement)).Perm
        ((readElements (queueDescriptionXml d)).map fun e => (lowerFirst e.1, some e.2))) ∧
    (∀ d' : QueueDeclarationConfig, d.presence = d'.presence →
      (readElements (queueDescriptionXml d)).map (·.1) =
        (readElements (queueDescriptionXml d')).map (·.1)) ∧
    ∀ value : String, xmlUnescape (xmlEscape value) = value := by
  refine ⟨?_, fun d' h => ?_, xmlUnescape_xmlEscape⟩
  · obtain ⟨keys, properties, hproperties, hstep⟩ := queueDescription_inStep d
    rw [readElements_queueDescriptionXml]
    exact ⟨properties, hproperties, hstep.distinct, hstep.content⟩
  · rw [readElements_queueDescriptionXml, readElements_queueDescriptionXml]
    exact queueDescriptionFields_names h

end FluidBG.ServiceBus
