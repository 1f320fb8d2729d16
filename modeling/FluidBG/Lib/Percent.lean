import Mathlib.Data.List.Basic
import Mathlib.Data.Nat.Digits.Defs
/-!
# Percent encoding

Bytes as the text of a URL. A byte of some set stands for itself, any other one is escaped with two
hexadecimal digits. Here is also what reads such a text back: the fields of a form, and the segments
of a path, of which the two that consist of dots are steps and not names.
-/

set_option autoImplicit false

namespace FluidBG.Lib.Percent

/-! ## Encoding -/

/-- A digit of an escape, in upper case. -/
def hexDigit (n : Nat) : Char := (Nat.digitChar n).toUpper

def encodeByte (keep : UInt8 → Bool) (byte : UInt8) : List Char :=
  if keep byte then [Char.ofNat byte.toNat]
  else ['%', hexDigit (byte.toNat / 16), hexDigit (byte.toNat % 16)]

def encode (keep : UInt8 → Bool) (bytes : List UInt8) : List Char := bytes.flatMap (encodeByte keep)

/-! ## Decoding -/

/-- The value of a digit in either case. -/
def hexValue (c : Char) : Option Nat :=
  if '0' ≤ c ∧ c ≤ '9' then some (c.toNat - 48)
  else if 'A' ≤ c ∧ c ≤ 'F' then some (c.toNat - 55)
  else if 'a' ≤ c ∧ c ≤ 'f' then some (c.toNat - 87)
  else none

/-- The byte of an escape. -/
def escapeValue (high low : Char) : Option UInt8 :=
  (hexValue high).bind fun h => (hexValue low).map fun l => UInt8.ofNat (16 * h + l)

/-- What is not an escape stands for itself. -/
def decode : List Char → List UInt8
  | [] => []
  | c :: high :: low :: cs =>
    if c = '%' then match escapeValue high low with
      | some byte => byte :: decode cs
      | none => String.utf8EncodeChar c ++ decode (high :: low :: cs)
    else String.utf8EncodeChar c ++ decode (high :: low :: cs)
  | c :: cs => String.utf8EncodeChar c ++ decode cs

/-- Only characters of one byte stand for themselves, and no percent sign does. -/
def Plain (keep : UInt8 → Bool) : Prop := ∀ byte, keep byte → byte.toNat < 128 ∧ byte.toNat ≠ 37

section Bytes

variable {keep : UInt8 → Bool}

@[simp] theorem encode_nil : encode keep [] = [] := rfl

@[simp] theorem encode_cons (byte : UInt8) (bytes : List UInt8) :
    encode keep (byte :: bytes) = encodeByte keep byte ++ encode keep bytes := rfl

@[simp] theorem decode_nil : decode [] = [] := rfl

theorem decode_cons {c : Char} (h : c ≠ '%') (cs : List Char) :
    decode (c :: cs) = String.utf8EncodeChar c ++ decode cs := by
  cases cs with
  | nil => rfl
  | cons high cs =>
    cases cs with
    | nil => rfl
    | cons low cs => simp [decode, h]

theorem decode_escape {high low : Char} {byte : UInt8} (h : escapeValue high low = some byte)
    (cs : List Char) : decode ('%' :: high :: low :: cs) = byte :: decode cs := by
  simp [decode, h]

theorem toNat_ofNat {n : Nat} (h : n < 256) : (Char.ofNat n).toNat = n := by
  have hvalid : n.isValidChar := .inl (by omega)
  rw [Char.ofNat, dif_pos hvalid]
  rfl

theorem utf8EncodeChar_ofNat {byte : UInt8} (h : byte.toNat < 128) :
    String.utf8EncodeChar (Char.ofNat byte.toNat) = [byte] := by
  have hval : (Char.ofNat byte.toNat).val.toNat = byte.toNat := toNat_ofNat byte.toNat_lt
  have hle : byte.toNat ≤ 127 := by omega
  simp [String.utf8EncodeChar, hval, hle]

theorem hexValue_hexDigit : ∀ n < 16, hexValue (hexDigit n) = some n := by decide

theorem escapeValue_hexDigit (byte : UInt8) :
    escapeValue (hexDigit (byte.toNat / 16)) (hexDigit (byte.toNat % 16)) = some byte := by
  have hlt := byte.toNat_lt
  rw [escapeValue, hexValue_hexDigit _ (by omega), hexValue_hexDigit _ (by omega)]
  have hsum : 16 * (byte.toNat / 16) + byte.toNat % 16 = byte.toNat := Nat.div_add_mod ..
  simp only [Option.bind_some, Option.map_some, hsum, UInt8.ofNat_toNat]

/-- **What is encoded is read back**, whatever comes after it. -/
theorem decode_encode_append (h : Plain keep) (bytes : List UInt8) (cs : List Char) :
    decode (encode keep bytes ++ cs) = bytes ++ decode cs := by
  induction bytes with
  | nil => rfl
  | cons byte bytes ih =>
    rw [encode_cons, List.append_assoc, encodeByte]
    by_cases hkeep : keep byte
    · obtain ⟨hascii, hpercent⟩ := h byte hkeep
      have hne : Char.ofNat byte.toNat ≠ '%' := by
        intro heq
        have hnat := congrArg Char.toNat heq
        rw [toNat_ofNat byte.toNat_lt] at hnat
        exact hpercent hnat
      rw [if_pos hkeep, List.singleton_append, decode_cons hne, utf8EncodeChar_ofNat hascii, ih]
      rfl
    · rw [if_neg hkeep]
      show decode ('%' :: _ :: _ :: (encode keep bytes ++ cs)) = _
      rw [decode_escape (escapeValue_hexDigit byte), ih]
      rfl

theorem decode_encode (h : Plain keep) (bytes : List UInt8) :
    decode (encode keep bytes) = bytes := by
  have hround := decode_encode_append h bytes []
  rwa [List.append_nil, decode_nil, List.append_nil] at hround

/-- A character that is neither kept nor part of an escape does not occur. -/
theorem not_mem_encode {c : Char} (hkeep : ∀ byte, keep byte → Char.ofNat byte.toNat ≠ c)
    (hpercent : c ≠ '%') (hhex : hexValue c = none) (bytes : List UInt8) :
    c ∉ encode keep bytes := by
  intro hmem
  obtain ⟨byte, -, hbyte⟩ := List.mem_flatMap.mp hmem
  have hlt := byte.toNat_lt
  unfold encodeByte at hbyte
  split at hbyte
  · rename_i hkept
    exact hkeep byte hkept (List.mem_singleton.mp hbyte).symm
  · have hdigit : ∀ n < 16, c ≠ hexDigit n := by
      intro n hn heq
      rw [heq, hexValue_hexDigit n hn] at hhex
      cases hhex
    rcases List.mem_cons.mp hbyte with heq | hbyte
    · exact hpercent heq
    · rcases List.mem_cons.mp hbyte with heq | hbyte
      · exact hdigit _ (by omega) heq
      · exact hdigit _ (by omega) (List.mem_singleton.mp hbyte)

end Bytes

/-! ## Pieces between separators -/

/-- The pieces that were joined are the pieces of the whole. -/
theorem splitOn_intercalate {sep : Char} {pieces : List (List Char)} (hne : pieces ≠ [])
    (h : ∀ piece ∈ pieces, sep ∉ piece) : ([sep].intercalate pieces).splitOn sep = pieces :=
  List.splitOn_intercalate sep h hne

/-- A character of joined pieces is one of a piece, or a separator. -/
theorem mem_intercalate {sep c : Char} {pieces : List (List Char)}
    (h : c ∈ [sep].intercalate pieces) : c = sep ∨ ∃ piece ∈ pieces, c ∈ piece := by
  induction pieces with
  | nil => cases h
  | cons piece pieces ih =>
    cases pieces with
    | nil => exact .inr ⟨piece, List.mem_cons_self, by simpa using h⟩
    | cons next pieces =>
      rw [List.intercalate_cons_cons, List.mem_append, List.mem_append] at h
      rcases h with (hmem | hmem) | hmem
      · exact .inr ⟨piece, List.mem_cons_self, hmem⟩
      · exact .inl (List.mem_singleton.mp hmem)
      · rcases ih hmem with hsep | ⟨other, hother, hin⟩
        · exact .inl hsep
        · exact .inr ⟨other, List.mem_cons_of_mem _ hother, hin⟩

/-! ## Forms -/

/-- `name=value` for every field, with `&` between them. -/
def form (keep : UInt8 → Bool) (fields : List (List UInt8 × List UInt8)) : List Char :=
  ['&'].intercalate (fields.map fun field => encode keep field.1 ++ '=' :: encode keep field.2)

/-- A plus sign of a form is a blank. -/
def plusToSpace (cs : List Char) : List Char := cs.map fun c => if c = '+' then ' ' else c

/-- One field of a form. -/
def parseField (piece : List Char) : List UInt8 × List UInt8 :=
  (decode (plusToSpace (piece.takeWhile (· ≠ '='))),
    decode (plusToSpace ((piece.dropWhile (· ≠ '=')).drop 1)))

/-- The parser of `application/x-www-form-urlencoded`. -/
def parseForm (cs : List Char) : List (List UInt8 × List UInt8) :=
  ((cs.splitOn '&').filter (· ≠ [])).map parseField

/-- The characters that are syntax in a form are not kept. -/
structure FormSafe (keep : UInt8 → Bool) : Prop where
  plain : Plain keep
  ampersand : ∀ byte, keep byte → Char.ofNat byte.toNat ≠ '&'
  equals : ∀ byte, keep byte → Char.ofNat byte.toNat ≠ '='
  plus : ∀ byte, keep byte → Char.ofNat byte.toNat ≠ '+'

section Form

variable {keep : UInt8 → Bool}

theorem plusToSpace_encode (h : FormSafe keep) (bytes : List UInt8) :
    plusToSpace (encode keep bytes) = encode keep bytes := by
  have hplus := not_mem_encode h.plus (by decide) (by decide) bytes
  refine (List.map_congr_left fun c hc => ?_).trans (List.map_id _)
  have hne : c ≠ '+' := fun heq => hplus (heq ▸ hc)
  exact if_neg hne

theorem parseField_encode (h : FormSafe keep) (name value : List UInt8) :
    parseField (encode keep name ++ '=' :: encode keep value) = (name, value) := by
  have hname : ∀ c ∈ encode keep name, (decide (c ≠ '=')) = true := by
    intro c hc
    have heq := not_mem_encode h.equals (by decide) (by decide) name
    exact decide_eq_true fun hceq => heq (hceq ▸ hc)
  unfold parseField
  rw [List.takeWhile_append_of_pos hname, List.dropWhile_append_of_pos hname]
  simp [plusToSpace_encode h, decode_encode h.plain]

/-- **A form is read back as the fields it was made of**, in their order. -/
theorem parseForm_form (h : FormSafe keep) (fields : List (List UInt8 × List UInt8)) :
    parseForm (form keep fields) = fields := by
  cases hfields : fields with
  | nil => rfl
  | cons field rest =>
    rw [← hfields]
    have hand : ∀ bytes, '&' ∉ encode keep bytes :=
      not_mem_encode h.ampersand (by decide) (by decide)
    unfold parseForm form
    rw [splitOn_intercalate (by simp [hfields])]
    · rw [List.filter_eq_self.mpr]
      · rw [List.map_map]
        exact (List.map_congr_left fun f _ => parseField_encode h f.1 f.2).trans (List.map_id _)
      · intro piece hpiece
        obtain ⟨f, -, rfl⟩ := List.mem_map.mp hpiece
        simp
    · intro piece hpiece
      obtain ⟨f, -, rfl⟩ := List.mem_map.mp hpiece
      simp [hand]

end Form

/-! ## Paths -/

/-- The two spellings of a dot that a path knows. -/
def dots : List (List Char) := [['.'], ['%', '2', 'e'], ['%', '2', 'E']]

/-- A segment that stays where it is. -/
def isSingleDot (segment : List Char) : Bool := segment ∈ dots

/-- A segment that goes up. -/
def isDoubleDot (segment : List Char) : Bool :=
  segment ∈ dots.flatMap fun dot => dots.map (dot ++ ·)

/-- The segments with the steps taken, those that were walked in reverse order. -/
def walk : List (List Char) → List (List Char) → List (List Char)
  | done, [] => done.reverse
  | done, segment :: segments =>
    if isDoubleDot segment then
      walk (if segments = [] then [] :: done.drop 1 else done.drop 1) segments
    else if isSingleDot segment then
      walk (if segments = [] then [] :: done else done) segments
    else walk (segment :: done) segments

/-- The path before a query or a fragment, as the resource it names. -/
def readPath (cs : List Char) : List (List UInt8) :=
  (walk [] ((cs.takeWhile fun c => c ≠ '?' && c ≠ '#').splitOn '/')).map decode

/-- The segments with slashes between them. -/
def path (keep : UInt8 → Bool) (segments : List (List UInt8)) : List Char :=
  ['/'].intercalate (segments.map (encode keep))

/-- The names that a path takes for steps. -/
def IsDots (name : List UInt8) : Prop := name = [46] ∨ name = [46, 46]

/-- The characters that are syntax in a path do not stand for themselves. -/
structure PathSafe (keep : UInt8 → Bool) : Prop where
  plain : Plain keep
  slash : ∀ byte, keep byte → Char.ofNat byte.toNat ≠ '/'
  query : ∀ byte, keep byte → Char.ofNat byte.toNat ≠ '?'
  fragment : ∀ byte, keep byte → Char.ofNat byte.toNat ≠ '#'

section Path

variable {keep : UInt8 → Bool}

theorem decode_dot_append {dot : List Char} (h : dot ∈ dots) (cs : List Char) :
    decode (dot ++ cs) = 46 :: decode cs := by
  simp only [dots, List.mem_cons, List.not_mem_nil, or_false] at h
  rcases h with rfl | rfl | rfl
  · exact decode_cons (by decide) cs
  · exact decode_escape (by decide) cs
  · exact decode_escape (by decide) cs

theorem hexValue_eq_two {c : Char} (h : hexValue c = some 2) : c = '2' := by
  unfold hexValue at h
  simp only [Char.le_def, UInt32.le_iff_toNat_le] at h
  refine Char.toNat_inj.mp ?_
  show c.val.toNat = 50
  split at h
  · have hval : c.val.toNat - 48 = 2 := Option.some.inj h
    omega
  · split at h
    · rename_i hrange
      have hval : c.val.toNat - 55 = 2 := Option.some.inj h
      have hlow : 65 ≤ c.val.toNat := hrange.1
      omega
    · split at h
      · rename_i hrange
        have hval : c.val.toNat - 87 = 2 := Option.some.inj h
        have hlow : 97 ≤ c.val.toNat := hrange.1
        omega
      · cases h

theorem hexValue_eq_fourteen {c : Char} (h : hexValue c = some 14) : c = 'e' ∨ c = 'E' := by
  unfold hexValue at h
  simp only [Char.le_def, UInt32.le_iff_toNat_le] at h
  rw [← Char.toNat_inj, ← Char.toNat_inj]
  show c.val.toNat = 101 ∨ c.val.toNat = 69
  split at h
  · rename_i hrange
    have hval : c.val.toNat - 48 = 14 := Option.some.inj h
    have hhigh : c.val.toNat ≤ 57 := hrange.2
    omega
  · split at h
    · have hval : c.val.toNat - 55 = 14 := Option.some.inj h
      omega
    · split at h
      · have hval : c.val.toNat - 87 = 14 := Option.some.inj h
        omega
      · cases h

theorem hexValue_lt {c : Char} {n : Nat} (h : hexValue c = some n) : n < 16 := by
  unfold hexValue at h
  simp only [Char.le_def, UInt32.le_iff_toNat_le] at h
  split at h
  · rename_i hrange
    have hval : c.val.toNat - 48 = n := Option.some.inj h
    have hhigh : c.val.toNat ≤ 57 := hrange.2
    omega
  · split at h
    · rename_i hrange
      have hval : c.val.toNat - 55 = n := Option.some.inj h
      have hhigh : c.val.toNat ≤ 70 := hrange.2
      omega
    · split at h
      · rename_i hrange
        have hval : c.val.toNat - 87 = n := Option.some.inj h
        have hhigh : c.val.toNat ≤ 102 := hrange.2
        omega
      · cases h

/-- The escapes of a dot. -/
theorem dot_of_escapeValue {high low : Char} (h : escapeValue high low = some 46) :
    high = '2' ∧ (low = 'e' ∨ low = 'E') := by
  obtain ⟨a, ha, hrest⟩ := Option.bind_eq_some_iff.mp h
  obtain ⟨b, hb, hval⟩ := Option.map_eq_some_iff.mp hrest
  have halt := hexValue_lt ha
  have hblt := hexValue_lt hb
  have hnat : 16 * a + b = 46 := by
    have heq := congrArg UInt8.toNat hval
    rw [UInt8.toNat_ofNat_of_lt' (by show 16 * a + b < 256; omega)] at heq
    exact heq
  have ha2 : a = 2 := by omega
  have hb14 : b = 14 := by omega
  exact ⟨hexValue_eq_two (ha2 ▸ ha), hexValue_eq_fourteen (hb14 ▸ hb)⟩

/-- A character whose encoding begins with the one of a dot is a dot. -/
theorem eq_dot_of_utf8 {c : Char} {bytes rest : List UInt8}
    (h : String.utf8EncodeChar c ++ rest = 46 :: bytes) : c = '.' := by
  cases hcode : String.utf8EncodeChar c with
  | nil =>
    have hlen := String.length_utf8EncodeChar c
    rw [hcode] at hlen
    exact absurd hlen (Nat.ne_of_lt c.utf8Size_pos)
  | cons byte tail =>
    rw [hcode, List.cons_append] at h
    obtain ⟨hbyte, -⟩ := List.cons.inj h
    have hbytes : ['.'].utf8Encode ++ tail.toByteArray = [c].utf8Encode := by
      rw [List.utf8Encode_singleton, List.utf8Encode_singleton, hcode, hbyte,
        ← List.toByteArray_append]
      rfl
    have hpre := List.isPrefix_of_utf8Encode_append_eq_utf8Encode _ hbytes
    rw [List.cons_prefix_cons] at hpre
    exact hpre.1.symm

/-- What is read as a dot is one. -/
theorem dot_of_decode {cs : List Char} {bytes : List UInt8} (h : decode cs = 46 :: bytes) :
    ∃ dot ∈ dots, ∃ rest, cs = dot ++ rest ∧ decode rest = bytes := by
  have hplain : ∀ c rest, String.utf8EncodeChar c ++ decode rest = 46 :: bytes →
      ∃ dot ∈ dots, ∃ rest', c :: rest = dot ++ rest' ∧ decode rest' = bytes := by
    intro c rest hc
    have hdot := eq_dot_of_utf8 hc
    rw [hdot] at hc ⊢
    exact ⟨['.'], by decide, rest, rfl, (List.cons.inj hc).2⟩
  cases cs with
  | nil => cases h
  | cons c cs =>
    by_cases hpercent : c = '%'
    · rw [hpercent] at h ⊢
      have hnot : ∀ rest, String.utf8EncodeChar '%' ++ decode rest ≠ 46 :: bytes := by
        intro rest heq
        exact absurd (eq_dot_of_utf8 heq) (by decide)
      cases cs with
      | nil => exact absurd h (hnot [])
      | cons high cs =>
        cases cs with
        | nil => exact absurd h (hnot [high])
        | cons low rest =>
          cases hvalue : escapeValue high low with
          | none =>
            simp only [decode, if_true, hvalue] at h
            exact absurd h (hnot (high :: low :: rest))
          | some byte =>
            rw [decode_escape hvalue] at h
            obtain ⟨hbyte, hrest⟩ := List.cons.inj h
            rw [hbyte] at hvalue
            obtain ⟨hhigh, hlow⟩ := dot_of_escapeValue hvalue
            rcases hlow with hlow | hlow
            · exact ⟨['%', '2', 'e'], by decide, rest, by rw [hhigh, hlow]; rfl, hrest⟩
            · exact ⟨['%', '2', 'E'], by decide, rest, by rw [hhigh, hlow]; rfl, hrest⟩
    · rw [decode_cons hpercent] at h
      exact hplain c cs h

theorem eq_nil_of_decode {cs : List Char} (h : decode cs = []) : cs = [] := by
  have hne : ∀ c rest, String.utf8EncodeChar c ++ decode rest ≠ [] := by
    intro c rest hnil
    have hlen := String.length_utf8EncodeChar c
    rw [(List.append_eq_nil_iff.mp hnil).1] at hlen
    exact absurd hlen (Nat.ne_of_lt c.utf8Size_pos)
  cases cs with
  | nil => rfl
  | cons c cs =>
    exfalso
    by_cases hpercent : c = '%'
    · rw [hpercent] at h
      cases cs with
      | nil => exact hne '%' [] h
      | cons high cs =>
        cases cs with
        | nil => exact hne '%' [high] h
        | cons low rest =>
          cases hvalue : escapeValue high low with
          | none =>
            simp only [decode, if_true, hvalue] at h
            exact hne '%' (high :: low :: rest) h
          | some byte =>
            rw [decode_escape hvalue] at h
            cases h
    · rw [decode_cons hpercent] at h
      exact hne c cs h

/-- What is read as a name of dots is a step. -/
theorem step_of_isDots {segment : List Char} (h : IsDots (decode segment)) :
    isSingleDot segment = true ∨ isDoubleDot segment = true := by
  rcases h with h | h
  · left
    obtain ⟨dot, hdot, rest, rfl, hrest⟩ := dot_of_decode h
    rw [eq_nil_of_decode hrest, List.append_nil]
    exact decide_eq_true hdot
  · right
    obtain ⟨first, hfirst, rest, rfl, hrest⟩ := dot_of_decode h
    obtain ⟨second, hsecond, rest', rfl, hrest'⟩ := dot_of_decode hrest
    rw [eq_nil_of_decode hrest', List.append_nil]
    exact decide_eq_true (List.mem_flatMap.mpr
      ⟨first, hfirst, List.mem_map.mpr ⟨second, hsecond, rfl⟩⟩)

/-- What is read as a step is a name of dots. -/
theorem isDots_of_step {segment : List Char}
    (h : isSingleDot segment = true ∨ isDoubleDot segment = true) : IsDots (decode segment) := by
  rcases h with h | h
  · left
    have hdot := decode_dot_append (of_decide_eq_true h) []
    rwa [List.append_nil] at hdot
  · right
    obtain ⟨first, hfirst, hmem⟩ := List.mem_flatMap.mp (of_decide_eq_true h)
    obtain ⟨second, hsecond, rfl⟩ := List.mem_map.mp hmem
    have hdot := decode_dot_append hsecond []
    rw [List.append_nil] at hdot
    rw [decode_dot_append hfirst, hdot]
    rfl

/-- A walk without steps goes through all segments. -/
theorem walk_eq (done segments : List (List Char))
    (h : ∀ segment ∈ segments, isSingleDot segment = false ∧ isDoubleDot segment = false) :
    walk done segments = done.reverse ++ segments := by
  induction segments generalizing done with
  | nil => simp [walk]
  | cons segment segments ih =>
    obtain ⟨hsingle, hdouble⟩ := h segment List.mem_cons_self
    rw [walk, hsingle, hdouble]
    simpa using ih (segment :: done) fun s hs => h s (List.mem_cons_of_mem _ hs)

/-- No step is left over by a walk. -/
theorem walk_no_steps (done segments : List (List Char))
    (h : ∀ segment ∈ done, isSingleDot segment = false ∧ isDoubleDot segment = false) :
    ∀ segment ∈ walk done segments, isSingleDot segment = false ∧ isDoubleDot segment = false := by
  have hempty : isSingleDot [] = false ∧ isDoubleDot [] = false := by decide
  have hdrop : ∀ done : List (List Char),
      (∀ segment ∈ done, isSingleDot segment = false ∧ isDoubleDot segment = false) →
      ∀ (last : Prop) [Decidable last], ∀ segment ∈ (if last then [] :: done else done),
        isSingleDot segment = false ∧ isDoubleDot segment = false := by
    intro done hdone last _ segment hsegment
    split at hsegment
    · rcases List.mem_cons.mp hsegment with rfl | hmem
      · exact hempty
      · exact hdone segment hmem
    · exact hdone segment hsegment
  induction segments generalizing done with
  | nil =>
    intro segment hsegment
    exact h segment (List.mem_reverse.mp hsegment)
  | cons segment segments ih =>
    rw [walk]
    split
    · exact ih _ (hdrop _ (fun s hs => h s (List.mem_of_mem_drop hs)) _)
    · rename_i hdouble
      split
      · exact ih _ (hdrop _ h _)
      · rename_i hsingle
        refine ih _ fun s hs => ?_
        rcases List.mem_cons.mp hs with rfl | hs
        · exact ⟨by simpa using hsingle, by simpa using hdouble⟩
        · exact h s hs

/-- **A path names its segments**, unless one of them is made of dots. -/
theorem readPath_path_iff (h : PathSafe keep) {segments : List (List UInt8)} (hne : segments ≠ [])
    {rest : List Char} (hrest : rest.head? = none ∨ rest.head? = some '?' ∨ rest.head? = some '#') :
    readPath (path keep segments ++ rest) = segments ↔ ∀ name ∈ segments, ¬ IsDots name := by
  have hslash : ∀ bytes, '/' ∉ encode keep bytes := not_mem_encode h.slash (by decide) (by decide)
  have hquery : ∀ bytes, '?' ∉ encode keep bytes := not_mem_encode h.query (by decide) (by decide)
  have hfragment : ∀ bytes, '#' ∉ encode keep bytes :=
    not_mem_encode h.fragment (by decide) (by decide)
  have htake : (path keep segments ++ rest).takeWhile (fun c => c ≠ '?' && c ≠ '#') =
      path keep segments := by
    rw [List.takeWhile_append_of_pos]
    · cases rest with
      | nil => simp
      | cons c rest =>
        simp only [List.head?_cons, Option.some.injEq, reduceCtorEq, false_or] at hrest
        rcases hrest with rfl | rfl <;> simp
    · intro c hc
      rcases mem_intercalate hc with rfl | ⟨piece, hpiece, hmem⟩
      · decide
      · obtain ⟨name, -, rfl⟩ := List.mem_map.mp hpiece
        have hq : c ≠ '?' := fun heq => hquery name (heq ▸ hmem)
        have hf : c ≠ '#' := fun heq => hfragment name (heq ▸ hmem)
        simp [hq, hf]
  have hsplit : (path keep segments).splitOn '/' = segments.map (encode keep) := by
    refine splitOn_intercalate (by simpa using hne) fun piece hpiece => ?_
    obtain ⟨name, -, rfl⟩ := List.mem_map.mp hpiece
    exact hslash name
  rw [readPath, htake, hsplit]
  constructor
  · intro hread name hname hdots
    rw [← hread] at hname
    obtain ⟨segment, hsegment, rfl⟩ := List.mem_map.mp hname
    have hnone : ∀ segment ∈ ([] : List (List Char)),
        isSingleDot segment = false ∧ isDoubleDot segment = false := by simp
    obtain ⟨hsingle, hdouble⟩ := walk_no_steps [] _ hnone segment hsegment
    rcases step_of_isDots hdots with hstep | hstep
    · rw [hsingle] at hstep
      cases hstep
    · rw [hdouble] at hstep
      cases hstep
  · intro hnames
    rw [walk_eq, List.reverse_nil, List.nil_append, List.map_map]
    · exact (List.map_congr_left fun name _ => decode_encode h.plain name).trans (List.map_id _)
    · intro segment hsegment
      obtain ⟨name, hname, rfl⟩ := List.mem_map.mp hsegment
      have hstep := mt isDots_of_step (by
        rw [decode_encode h.plain]
        exact hnames name hname)
      rw [not_or] at hstep
      simpa using hstep

end Path

end FluidBG.Lib.Percent
