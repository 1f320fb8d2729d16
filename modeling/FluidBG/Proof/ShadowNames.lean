import FluidBG.Plugins.Queues
import FluidBG.Proof.DerivedNames
/-!
# Names of shadow queues

The shadow of a queue is named after it: the suffix is appended to a short name, put before the piece
of a digest that a long name ends with, and takes the place of the end of any other long name. What
is cut off a name is lost, so two queues can have one shadow.
-/

set_option autoImplicit false

namespace FluidBG

open Lib

/-- A temporary name without the dash and the piece of the digest. -/
def TempName.front (n : TempName) : List Char := n.text.toList.take (n.text.toList.length - 17)

namespace Shadow

/-! ## The three branches -/

/-- The suffix as it is used. -/
def chars (suffix : String) : List Char := (sanitizeShadowSuffix suffix).toList

/-- What is kept of a name that has no digest to keep: all of a short one. -/
def stem (suffix queue : String) : List Char := queue.toList.take (63 - (chars suffix).length)

/-- What is kept of a name that is too long and ends with a digest, and the digest. -/
def split (suffix queue : String) : Option (List Char × List Char) :=
  if queue.length + (chars suffix).length ≤ 63 then none
  else (stableSuffixFromName queue).map fun parts =>
    (((parts.1.toList.reverse.dropWhile isShadowPunctuation).reverse.take
      (46 - (chars suffix).length)), parts.2.toList)

/-- A queue's name, without the digest it may end with. -/
def body (queue : String) : List Char :=
  ((stableSuffixFromName queue).map fun parts => parts.1.toList).getD queue.toList

/-- What is kept of two names is the same. A name without a digest can look like one with it where
the suffix does. -/
def Alike (suffix queue queue' : String) : Prop :=
  match split suffix queue, split suffix queue' with
  | none, none => stem suffix queue = stem suffix queue'
  | some (front, digest), some (front', digest') => front = front' ∧ digest = digest'
  | none, some (front, digest) =>
    stem suffix queue ++ chars suffix = front ++ (chars suffix ++ '-' :: digest)
  | some (front, digest), none =>
    stem suffix queue' ++ chars suffix = front ++ (chars suffix ++ '-' :: digest)

/-- The suffix at the end of a short name, or before the digest of a long one, makes it the temporary
name. -/
def MakesTemp (suffix queue : String) (t : TempName) : Prop :=
  match split suffix queue with
  | none => queue.length + (chars suffix).length ≤ 63 ∧
      queue.toList ++ chars suffix = t.text.toList
  | some (front, digest) =>
    front ++ chars suffix = t.front ∧ digest = (stableSuffix t.parts).toList

theorem chars_length (suffix : String) : (chars suffix).length ≤ 24 := by
  unfold chars sanitizeShadowSuffix
  rw [String.toList_ofList]
  exact List.length_take_le _ _

/-- ASCII characters are bytes. -/
theorem length_utf8Encode {cs : List Char} (h : ∀ c ∈ cs, c.val ≤ 127) :
    cs.utf8Encode.size = cs.length := by
  induction cs with
  | nil => rfl
  | cons c cs ih =>
    rw [List.utf8Encode_cons, ByteArray.size_append, ih fun d hd => h d (List.mem_cons_of_mem _ hd),
      List.utf8Encode_singleton, List.size_toByteArray, String.length_utf8EncodeChar,
      Char.utf8Size_eq_one_iff.mpr (h c List.mem_cons_self), List.length_cons]
    omega

theorem isHexDigit_ascii {c : Char} (h : isHexDigit c) : c.val ≤ 127 := by
  unfold isHexDigit at h
  rw [Bool.or_eq_true, Bool.or_eq_true, isDigit_iff, Bool.and_eq_true, Bool.and_eq_true,
    decide_eq_true_eq, decide_eq_true_eq, decide_eq_true_eq, decide_eq_true_eq] at h
  have hle : ∀ d : Char, c ≤ d → c.toNat ≤ d.toNat := fun d hd => UInt32.le_iff_toNat_le.mp hd
  apply UInt32.le_iff_toNat_le.mpr
  have hlast : 'f'.toNat = 102 ∧ 'F'.toNat = 70 := by decide
  have hval : c.val.toNat = c.toNat := rfl
  have hbound : (127 : UInt32).toNat = 127 := rfl
  rcases h with (h | h) | h
  · omega
  · have := hle 'f' h.2
    omega
  · have := hle 'F' h.2
    omega

theorem length_of_hexDigits {s : String} (h : s.toList.all isHexDigit) :
    (utf8Bytes s).length = s.length := by
  unfold utf8Bytes
  rw [List.length_map, Array.length_toList]
  have hsize : s.toByteArray.size = s.toList.length := by
    conv_lhs => rw [← String.ofList_toList (s := s)]
    rw [String.toByteArray_ofList]
    exact length_utf8Encode fun c hc => isHexDigit_ascii (List.all_eq_true.mp h c hc)
  rw [← String.length_toList]
  exact hsize

theorem stableSuffixFromName_spec {queue before digest : String}
    (h : stableSuffixFromName queue = some (before, digest)) :
    queue.toList = before.toList ++ '-' :: digest.toList ∧ digest.toList.length = 16 := by
  unfold stableSuffixFromName at h
  split at h
  · cases h
  · rename_i before' digest' hsplit
    split at h
    · rename_i hdigest
      cases h
      rw [Bool.and_eq_true, decide_eq_true_eq] at hdigest
      obtain ⟨hlength, hhex⟩ := hdigest
      rw [length_of_hexDigits hhex] at hlength
      refine ⟨?_, by rw [String.length_toList]; exact hlength⟩
      unfold rsplitDash at hsplit
      dsimp only at hsplit
      split at hsplit
      · cases hsplit
      · rename_i c rest hdrop
        cases hsplit
        have hdash : c = '-' := by
          have hnot := List.head?_dropWhile_not (· ≠ '-') queue.toList.reverse
          rw [hdrop] at hnot
          simpa using hnot
        have happend := List.takeWhile_append_dropWhile (p := (· ≠ '-')) (l := queue.toList.reverse)
        rw [hdrop, hdash] at happend
        have hreverse := congrArg List.reverse happend
        rw [List.reverse_reverse] at hreverse
        refine hreverse.symm.trans ?_
        simp
    · cases h

/-- A shadow name is what is kept of the queue's name, around the suffix. -/
theorem derivedShadowQueueName_toList {suffix : String}
    (hsuffix : (chars suffix).all isShadowPunctuation = false) (queue : String) :
    (derivedShadowQueueName queue suffix).toList =
      ((split suffix queue).map fun parts => parts.1 ++ (chars suffix ++ '-' :: parts.2)).getD
        (stem suffix queue ++ chars suffix) := by
  have hlength : (sanitizeShadowSuffix suffix).length = (chars suffix).length :=
    (String.length_toList).symm
  unfold derivedShadowQueueName split stem
  simp only [hlength, maxDerivedQueueNameLen]
  rw [if_neg (by rw [show (sanitizeShadowSuffix suffix).toList = chars suffix from rfl, hsuffix]; simp)]
  by_cases hshort : queue.length + (chars suffix).length ≤ 63
  · rw [if_pos hshort, if_pos hshort, String.toList_append, List.take_of_length_le (by
      rw [String.length_toList]
      omega)]
    rfl
  · rw [if_neg hshort, if_neg hshort]
    cases hsplit : stableSuffixFromName queue with
    | none =>
      rw [String.toList_append, String.toList_ofList]
      rfl
    | some parts =>
      obtain ⟨before, digest⟩ := parts
      have hdigest := (stableSuffixFromName_spec hsplit).2
      rw [String.length_toList] at hdigest
      have hroom : max (63 - ((chars suffix).length + 1 + digest.length)) 1 =
          46 - (chars suffix).length := by
        have := chars_length suffix
        omega
      simp only [hroom]
      simp [toString, chars]

/-! ## What is lost -/

/-- The punctuation at the end of a name is dropped, and nothing else. -/
theorem trimEnd_append (cs : List Char) : ∃ dropped : List Char,
    cs = (cs.reverse.dropWhile isShadowPunctuation).reverse ++ dropped ∧
      dropped.all isShadowPunctuation = true := by
  refine ⟨(cs.reverse.takeWhile isShadowPunctuation).reverse, ?_, ?_⟩
  · rw [← List.reverse_append, List.takeWhile_append_dropWhile, List.reverse_reverse]
  · rw [List.all_reverse]
    exact List.all_takeWhile

/-- A suffix with a letter or a digit is longer than the punctuation that is dropped. -/
theorem length_lt_of_suffix {kept dropped suffix : List Char}
    (hdropped : dropped.all isShadowPunctuation = true)
    (hsuffix : suffix.all isShadowPunctuation = false) (h : suffix <:+ kept ++ dropped) :
    dropped.length < suffix.length := by
  by_contra hle
  have hin := List.suffix_of_suffix_length_le h (List.suffix_append kept dropped) (by omega)
  have hall : suffix.all isShadowPunctuation = true :=
    List.all_eq_true.mpr fun c hc => List.all_eq_true.mp hdropped c (hin.subset hc)
  rw [hall] at hsuffix
  cases hsuffix

/-- A list that is cut and gets a suffix is the list again where the suffix replaces itself. -/
theorem take_append_eq_iff {cs suffix : List Char} {n : Nat} (hne : suffix ≠ []) :
    cs.take n ++ suffix = cs ↔ cs.length = n + suffix.length ∧ suffix <:+ cs := by
  have hpos := List.length_pos_of_ne_nil hne
  constructor
  · intro h
    have hlength := congrArg List.length h
    rw [List.length_append, List.length_take] at hlength
    exact ⟨by omega, ⟨cs.take n, h⟩⟩
  · rintro ⟨hlength, front, hcs⟩
    have hfront : front.length = n := by
      have := congrArg List.length hcs
      rw [List.length_append] at this
      omega
    rw [← hcs, ← hfront, List.take_left]

/-- The same holds of a list without the punctuation at its end. -/
theorem take_trimEnd_append_eq_iff {cs suffix : List Char} {n : Nat}
    (hsuffix : suffix.all isShadowPunctuation = false) :
    (cs.reverse.dropWhile isShadowPunctuation).reverse.take n ++ suffix = cs ↔
      cs.length = n + suffix.length ∧ suffix <:+ cs := by
  obtain ⟨dropped, hcs, hdropped⟩ := trimEnd_append cs
  generalize (cs.reverse.dropWhile isShadowPunctuation).reverse = kept at hcs ⊢
  subst hcs
  constructor
  · intro h
    have hin : suffix <:+ kept ++ dropped := ⟨kept.take n, h⟩
    have hlt := length_lt_of_suffix hdropped hsuffix hin
    have hlength := congrArg List.length h
    simp only [List.length_append, List.length_take] at hlength ⊢
    exact ⟨by omega, hin⟩
  · rintro ⟨hlength, hin⟩
    have hlt := length_lt_of_suffix hdropped hsuffix hin
    rw [List.length_append] at hlength
    have hne : suffix ≠ [] := by
      intro hnil
      rw [hnil] at hlt
      exact Nat.not_lt_zero _ hlt
    have htake : (kept ++ dropped).take n = kept.take n :=
      List.take_append_of_le_length (by omega)
    rw [← htake]
    exact (take_append_eq_iff hne).mpr ⟨by rw [List.length_append]; omega, hin⟩

section Names

variable {suffix queue queue' : String}

theorem chars_ne_nil (hsuffix : (chars suffix).all isShadowPunctuation = false) :
    chars suffix ≠ [] := by
  intro hnil
  rw [hnil] at hsuffix
  cases hsuffix

theorem split_spec {front digest : List Char} (h : split suffix queue = some (front, digest)) :
    63 < queue.length + (chars suffix).length ∧ digest.length = 16 ∧
      queue.toList = body queue ++ '-' :: digest ∧
      front = ((body queue).reverse.dropWhile isShadowPunctuation).reverse.take
        (46 - (chars suffix).length) := by
  unfold split at h
  split at h
  · cases h
  · rename_i hlong
    obtain ⟨⟨before, tail⟩, hparts, heq⟩ := Option.map_eq_some_iff.mp h
    obtain ⟨hqueue, hlength⟩ := stableSuffixFromName_spec hparts
    have hbody : body queue = before.toList := by
      unfold body
      rw [hparts]
      rfl
    obtain ⟨hfront, hdigest⟩ := Prod.mk.inj heq
    rw [hbody, ← hdigest]
    exact ⟨Nat.lt_of_not_le hlong, hlength, hqueue, hfront.symm⟩

theorem split_none (h : split suffix queue = none) :
    queue.length + (chars suffix).length ≤ 63 ∨
      63 < queue.length + (chars suffix).length ∧ body queue = queue.toList := by
  unfold split at h
  split at h
  · exact .inl ‹_›
  · refine .inr ⟨Nat.lt_of_not_le ‹_›, ?_⟩
    unfold body
    rw [Option.map_eq_none_iff.mp h]
    rfl

variable (hsuffix : (chars suffix).all isShadowPunctuation = false)
include hsuffix

theorem toList_of_none (h : split suffix queue = none) :
    (derivedShadowQueueName queue suffix).toList = stem suffix queue ++ chars suffix := by
  rw [derivedShadowQueueName_toList hsuffix, h]
  rfl

theorem toList_of_some {front digest : List Char} (h : split suffix queue = some (front, digest)) :
    (derivedShadowQueueName queue suffix).toList =
      front ++ (chars suffix ++ '-' :: digest) := by
  rw [derivedShadowQueueName_toList hsuffix, h]
  rfl

theorem length_le : (derivedShadowQueueName queue suffix).length ≤ 63 := by
  have hchars := chars_length suffix
  rw [← String.length_toList]
  cases h : split suffix queue with
  | none =>
    rw [toList_of_none hsuffix h, List.length_append]
    have : (stem suffix queue).length ≤ 63 - (chars suffix).length := List.length_take_le _ _
    omega
  | some parts =>
    obtain ⟨front, digest⟩ := parts
    obtain ⟨-, hdigest, -, hfront⟩ := split_spec h
    have : front.length ≤ 46 - (chars suffix).length := by
      rw [hfront]
      exact List.length_take_le _ _
    rw [toList_of_some hsuffix h]
    simp only [List.length_append, List.length_cons, hdigest]
    omega

theorem contains_suffix : chars suffix <:+: (derivedShadowQueueName queue suffix).toList := by
  cases h : split suffix queue with
  | none =>
    rw [toList_of_none hsuffix h]
    exact (List.suffix_append _ _).isInfix
  | some parts =>
    rw [toList_of_some hsuffix h]
    exact ⟨parts.1, '-' :: parts.2, by rw [List.append_assoc]⟩

/-- A queue is its own shadow where it has 63 characters and the suffix replaces itself. -/
theorem eq_self_iff : derivedShadowQueueName queue suffix = queue ↔
    queue.length = 63 ∧ chars suffix <:+ body queue := by
  have hchars := chars_length suffix
  have hne := chars_ne_nil hsuffix
  have hpos := List.length_pos_of_ne_nil hne
  rw [← String.toList_inj]
  cases h : split suffix queue with
  | none =>
    rw [toList_of_none hsuffix h, stem, take_append_eq_iff hne, String.length_toList]
    rcases split_none h with hshort | ⟨hlong, hbody⟩
    · constructor
      · intro ⟨hlength, _⟩
        omega
      · intro ⟨hlength, _⟩
        omega
    · rw [hbody]
      exact and_congr (by omega) Iff.rfl
  | some parts =>
    obtain ⟨front, digest⟩ := parts
    obtain ⟨hlong, hdigest, hqueue, hfront⟩ := split_spec h
    have hlength : queue.length = (body queue).length + 17 := by
      rw [← String.length_toList, hqueue, List.length_append, List.length_cons, hdigest]
    rw [toList_of_some hsuffix h, hqueue, ← List.append_assoc, List.append_cancel_right_eq, hfront,
      take_trimEnd_append_eq_iff hsuffix]
    exact and_congr (by omega) Iff.rfl

/-- **Two shadows are one name** where what is kept of the two queues is, the suffix included. -/
theorem eq_iff : derivedShadowQueueName queue suffix = derivedShadowQueueName queue' suffix ↔
    Alike suffix queue queue' := by
  rw [← String.toList_inj]
  unfold Alike
  cases h : split suffix queue with
  | none =>
    cases h' : split suffix queue' with
    | none =>
      rw [toList_of_none hsuffix h, toList_of_none hsuffix h']
      exact List.append_left_inj _
    | some parts' =>
      rw [toList_of_none hsuffix h, toList_of_some hsuffix h']
  | some parts =>
    cases h' : split suffix queue' with
    | none =>
      rw [toList_of_some hsuffix h, toList_of_none hsuffix h']
      exact eq_comm
    | some parts' =>
      obtain ⟨front, digest⟩ := parts
      obtain ⟨front', digest'⟩ := parts'
      obtain ⟨-, hlength, -, -⟩ := split_spec h
      obtain ⟨-, hlength', -, -⟩ := split_spec h'
      rw [toList_of_some hsuffix h, toList_of_some hsuffix h']
      constructor
      · intro heq
        obtain ⟨hfront, htail⟩ := List.append_inj' heq (by simp [hlength, hlength'])
        exact ⟨hfront, (List.cons.inj (List.append_cancel_left htail)).2⟩
      · intro ⟨hfront, hdigest⟩
        rw [hfront, hdigest]

/-- A shadow is a temporary name where the suffix, put into the queue's name, makes it one. -/
theorem eq_temp_iff (t : TempName) : derivedShadowQueueName queue suffix = t.text ↔
    MakesTemp suffix queue t := by
  have hchars := chars_length suffix
  obtain ⟨readable, htext, -, hreadable, -⟩ := t.text_toList
  have hdigest : (stableSuffix t.parts).toList.length = 16 := by
    rw [String.length_toList, stableSuffix_length]
  have hfront : t.front = readable := by
    unfold TempName.front
    rw [htext, List.length_append, List.length_cons, hdigest, Nat.add_sub_cancel, List.take_left]
  rw [← String.toList_inj]
  unfold MakesTemp
  cases h : split suffix queue with
  | none =>
    rw [toList_of_none hsuffix h]
    rcases split_none h with hshort | ⟨hlong, -⟩
    · rw [stem, List.take_of_length_le (by rw [String.length_toList]; omega)]
      exact (and_iff_right hshort).symm
    · -- a name that is cut has 63 characters, and a temporary one at most 45
      constructor
      · intro heq
        have hlength := congrArg List.length heq
        rw [stem, htext] at hlength
        simp only [List.length_append, List.length_take, List.length_cons, hdigest,
          String.length_toList] at hlength
        omega
      · intro ⟨hshort, _⟩
        omega
  | some parts =>
    obtain ⟨front, digest⟩ := parts
    obtain ⟨-, hlength, -, -⟩ := split_spec h
    rw [toList_of_some hsuffix h, htext, ← List.append_assoc]
    constructor
    · intro heq
      obtain ⟨hkept, htail⟩ := List.append_inj' heq (by simp [hlength, hdigest])
      exact ⟨hkept.trans hfront.symm, (List.cons.inj htail).2⟩
    · intro ⟨hkept, htail⟩
      rw [hkept, htail, hfront]

end Names

end Shadow

/-! ## The shadows of two queues -/

/-- What a plugin relies on when it moves or deletes the shadow of a queue, beside another queue and
a temporary one. -/
structure ShadowSafe (suffix queue queue' : String) (t : TempName) : Prop where
  other : derivedShadowQueueName queue suffix ≠ queue
  length : (derivedShadowQueueName queue suffix).length ≤ 63
  suffixed : Shadow.chars suffix <:+: (derivedShadowQueueName queue suffix).toList
  distinct : queue ≠ queue' →
    derivedShadowQueueName queue suffix ≠ derivedShadowQueueName queue' suffix
  temporary : derivedShadowQueueName queue suffix ≠ t.text

/-- The suffix does not take its own place at the end of a name of 63 characters, what is kept of
different names differs, and the suffix makes no temporary name. -/
structure ShadowClear (suffix queue queue' : String) (t : TempName) : Prop where
  own : ¬ (queue.length = 63 ∧ Shadow.chars suffix <:+ Shadow.body queue)
  kept : queue ≠ queue' → ¬ Shadow.Alike suffix queue queue'
  temporary : ¬ Shadow.MakesTemp suffix queue t

/-- **Shadow names never collide**, exactly as long as what a name loses to make room for the suffix
is not what told it apart. -/
theorem shadow_names_never_collide_iff (suffix : String)
    (hsuffix : (Shadow.chars suffix).all isShadowPunctuation = false) (queue queue' : String)
    (t : TempName) :
    ShadowSafe suffix queue queue' t ↔ ShadowClear suffix queue queue' t := by
  have hself := not_congr (@Shadow.eq_self_iff suffix queue hsuffix)
  have halike := not_congr (@Shadow.eq_iff suffix queue queue' hsuffix)
  have hmakes := not_congr (@Shadow.eq_temp_iff suffix queue hsuffix t)
  constructor
  · intro h
    constructor
    · rw [← hself]
      exact h.other
    · intro hne
      rw [← halike]
      exact h.distinct hne
    · rw [← hmakes]
      exact h.temporary
  · intro h
    constructor
    · rw [ne_eq, hself]
      exact h.own
    · exact Shadow.length_le hsuffix
    · exact Shadow.contains_suffix hsuffix
    · intro hne
      rw [ne_eq, halike]
      exact h.kept hne
    · rw [ne_eq, hmakes]
      exact h.temporary

/-- Two queues of 61 characters that differ in the last one. -/
def Sample.longQueue (last : Char) : String :=
  String.ofList ("orders-of-the-customers-of-the-european-warehouses-by-regions".toList.take 60 ++
    [last])

def Sample.shadowsMeet : PLift
    ((Shadow.chars "_shadow").all isShadowPunctuation = false ∧
      Sample.longQueue '1' ≠ Sample.longQueue '2' ∧
      derivedShadowQueueName (Sample.longQueue '1') "_shadow" =
        derivedShadowQueueName (Sample.longQueue '2') "_shadow") :=
  ⟨by decide +kernel⟩

/-- The shadow of one of these queues is the shadow of the other. -/
theorem long_queues_share_shadow :
    ¬ ∀ (suffix : String), (Shadow.chars suffix).all isShadowPunctuation = false →
      ∀ (queue queue' : String) (t : TempName), ShadowSafe suffix queue queue' t := by
  intro h
  obtain ⟨hsuffix, hne, heq⟩ := Sample.shadowsMeet.down
  exact (h "_shadow" hsuffix _ _ (Sample.tempName "uid-1")).distinct hne heq

def Sample.shadowsDiffer : PLift
    ((Shadow.chars "_dlq").all isShadowPunctuation = false ∧
      Shadow.split "_dlq" "orders" = none ∧ Shadow.split "_dlq" "payments" = none ∧
      Shadow.stem "_dlq" "orders" ≠ Shadow.stem "_dlq" "payments" ∧
      ¬ "orders".toList ++ Shadow.chars "_dlq" = (Sample.tempName "uid-1").text.toList ∧
      "orders".length = 6) :=
  ⟨by decide +kernel⟩

/-- Short names keep everything. -/
theorem short_queues_have_shadows :
    ShadowSafe "_dlq" "orders" "payments" (Sample.tempName "uid-1") := by
  obtain ⟨hsuffix, hnone, hnone', hkept, htemp, hlength⟩ := Sample.shadowsDiffer.down
  refine (shadow_names_never_collide_iff "_dlq" hsuffix "orders" "payments" _).mpr ⟨?_, ?_, ?_⟩
  · intro ⟨hlong, _⟩
    omega
  · intro _ halike
    simp only [Shadow.Alike, hnone, hnone'] at halike
    exact hkept halike
  · intro hmakes
    simp only [Shadow.MakesTemp, hnone] at hmakes
    exact htemp hmakes.2

end FluidBG
