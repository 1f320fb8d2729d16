import FluidBG.Lib.PrefixCode
import FluidBG.Sdk
import Mathlib.Data.String.Basic
/-!
# The parts of generated names

What the names are put together from: digits of a digest, text reduced to the characters of a DNS
label, and a digest of several strings, each with its length before it, so that the strings can be
told from the bytes.
-/

set_option autoImplicit false

namespace FluidBG

open Lib

/-! ## Characters -/

theorem isUpper_iff {c : Char} : c.isUpper ↔ 65 ≤ c.toNat ∧ c.toNat ≤ 90 := by
  delta Char.isUpper
  simp only [decide_eq_true_eq, ge_iff_le, UInt32.le_iff_toNat_le]
  rfl

theorem isLower_iff {c : Char} : c.isLower ↔ 97 ≤ c.toNat ∧ c.toNat ≤ 122 := by
  delta Char.isLower
  simp only [Bool.and_eq_true, decide_eq_true_eq, ge_iff_le, UInt32.le_iff_toNat_le]
  rfl

theorem isDigit_iff {c : Char} : c.isDigit ↔ 48 ≤ c.toNat ∧ c.toNat ≤ 57 := by
  delta Char.isDigit
  simp only [Bool.and_eq_true, decide_eq_true_eq, ge_iff_le, UInt32.le_iff_toNat_le]
  rfl

theorem isAlphanum_iff {c : Char} : c.isAlphanum ↔ c.isUpper ∨ c.isLower ∨ c.isDigit := by
  have h : c.isAlphanum = ((c.isUpper || c.isLower) || c.isDigit) := rfl
  rw [h, Bool.or_eq_true, Bool.or_eq_true, or_assoc]

/-- `to_ascii_lowercase` moves a capital letter by 32 places. -/
theorem toNat_toLower {c : Char} :
    c.toLower.toNat = if 65 ≤ c.toNat ∧ c.toNat ≤ 90 then c.toNat + 32 else c.toNat := by
  have hupper : 'A'.val ≤ c.val ∧ c.val ≤ 'Z'.val ↔ 65 ≤ c.toNat ∧ c.toNat ≤ 90 := by
    rw [UInt32.le_iff_toNat_le, UInt32.le_iff_toNat_le]
    rfl
  delta Char.toLower
  by_cases h : c.val ≥ 'A'.val ∧ c.val ≤ 'Z'.val
  · rw [dif_pos h, if_pos (hupper.mp h)]
    have hsum : (c.val + ('a'.val - 'A'.val)).toNat = (c.toNat + 32) % 2 ^ 32 :=
      UInt32.toNat_add _ _
    have hlast := (hupper.mp h).2
    exact hsum.trans (Nat.mod_eq_of_lt (by omega))
  · rw [dif_neg h, if_neg fun hrange => h (hupper.mpr hrange)]

/-- A character of a DNS label. -/
def IsLabelChar (c : Char) : Prop := c.isLower ∨ c.isDigit ∨ c = '-'

/-- A character that a DNS label may begin and end with. -/
def IsLabelEnd (c : Char) : Prop := c.isLower ∨ c.isDigit

theorem IsLabelEnd.labelChar {c : Char} (h : IsLabelEnd c) : IsLabelChar c := by
  rcases h with h | h
  · exact .inl h
  · exact .inr (.inl h)

theorem IsLabelEnd.ne_dash {c : Char} (h : IsLabelEnd c) : c ≠ '-' := by
  rintro rfl
  revert h
  unfold IsLabelEnd
  decide

/-- No letter is in upper case after `to_ascii_lowercase`. -/
theorem isLabelEnd_toLower {c : Char} (h : c.toLower.isAlphanum) : IsLabelEnd c.toLower := by
  rcases isAlphanum_iff.mp h with hupper | hlower | hdigit
  · rw [isUpper_iff, toNat_toLower] at hupper
    split at hupper
    · omega
    · contradiction
  · exact .inl hlower
  · exact .inr hdigit

/-! ## Labels -/

theorem dashRuns_chars {lastWasDash : Bool} {cs : List Char} {c : Char}
    (h : c ∈ dashRuns lastWasDash cs) : IsLabelChar c := by
  induction cs generalizing lastWasDash with
  | nil => exact absurd h List.not_mem_nil
  | cons ch cs ih =>
    unfold dashRuns at h
    split at h
    · rename_i halnum
      rcases List.mem_cons.mp h with rfl | h
      · exact (isLabelEnd_toLower halnum).labelChar
      · exact ih h
    · split at h
      · exact ih h
      · rcases List.mem_cons.mp h with rfl | h
        · exact .inr (.inr rfl)
        · exact ih h

theorem trimDashes_subset {cs : List Char} {c : Char} (h : c ∈ trimDashes cs) : c ∈ cs := by
  unfold trimDashes at h
  have h' := List.dropWhile_sublist _ |>.subset (List.mem_reverse.mp h)
  exact List.dropWhile_sublist _ |>.subset (List.mem_reverse.mp h')

theorem sanitizeDnsLabel_chars {value : String} {c : Char}
    (h : c ∈ (sanitizeDnsLabel value).toList) : IsLabelChar c := by
  rw [sanitizeDnsLabel, String.toList_ofList] at h
  exact dashRuns_chars (trimDashes_subset h)

/-- What has been trimmed does not begin with a dash. -/
theorem head?_trimDashes_ne {cs : List Char} : (trimDashes cs).head? ≠ some '-' := by
  intro h
  unfold trimDashes at h
  have hpre : ((cs.dropWhile (· == '-')).reverse.dropWhile (· == '-')).reverse <+:
      cs.dropWhile (· == '-') := by
    rw [← List.reverse_suffix, List.reverse_reverse]
    exact List.dropWhile_suffix _
  obtain ⟨rest, hrest⟩ := hpre
  have hnot := List.head?_dropWhile_not (· == '-') cs
  rw [← hrest, List.head?_append, h] at hnot
  simp at hnot

/-- What has been trimmed does not end with a dash. -/
theorem getLast?_trimDashes_ne {cs : List Char} : (trimDashes cs).getLast? ≠ some '-' := by
  intro h
  unfold trimDashes at h
  rw [List.getLast?_reverse] at h
  have hnot := List.head?_dropWhile_not (· == '-') (cs.dropWhile (· == '-')).reverse
  rw [h] at hnot
  simp at hnot

/-! ## Digests -/

theorem Sha256.digest_length (bytes : List Nat) : (Sha256.digest bytes).length = 32 := by
  simp only [Sha256.digest, List.flatMap_cons, List.flatMap_nil, List.length_append,
    List.length_cons, List.length_nil]

/-- The working variables are words. -/
structure Sha256.State.Words (s : Sha256.State) : Prop where
  a : s.a < Sha256.wordSize
  b : s.b < Sha256.wordSize
  c : s.c < Sha256.wordSize
  d : s.d < Sha256.wordSize
  e : s.e < Sha256.wordSize
  f : s.f < Sha256.wordSize
  g : s.g < Sha256.wordSize
  h : s.h < Sha256.wordSize

theorem Sha256.compress_words (s : Sha256.State) (block : List Nat) :
    (Sha256.compress s block).Words := by
  have hmod (n : Nat) : n % Sha256.wordSize < Sha256.wordSize := Nat.mod_lt _ (by decide)
  exact ⟨hmod _, hmod _, hmod _, hmod _, hmod _, hmod _, hmod _, hmod _⟩

theorem Sha256.foldl_compress_words {s : Sha256.State} (hs : s.Words) (blocks : List (List Nat)) :
    (blocks.foldl Sha256.compress s).Words := by
  induction blocks generalizing s with
  | nil => exact hs
  | cons block blocks ih => exact ih (Sha256.compress_words s block)

/-- A digest consists of bytes. -/
theorem Sha256.digest_lt {bytes : List Nat} {byte : Nat} (h : byte ∈ Sha256.digest bytes) :
    byte < 256 := by
  have hinit : Sha256.State.init.Words := by
    constructor <;> decide
  obtain ⟨w, hw, hbyte⟩ := List.mem_flatMap.mp h
  have hlt : w < Sha256.wordSize := by
    have hwords := Sha256.foldl_compress_words hinit
      (Sha256.toBlocks ((Sha256.toWords (Sha256.pad bytes)).length / 16)
        (Sha256.toWords (Sha256.pad bytes)))
    simp only [List.mem_cons, List.not_mem_nil, or_false] at hw
    rcases hw with rfl | rfl | rfl | rfl | rfl | rfl | rfl | rfl
    · exact hwords.a
    · exact hwords.b
    · exact hwords.c
    · exact hwords.d
    · exact hwords.e
    · exact hwords.f
    · exact hwords.g
    · exact hwords.h
  have hsize : Sha256.wordSize = 4294967296 := rfl
  simp only [List.mem_cons, List.not_mem_nil, or_false] at hbyte
  rcases hbyte with rfl | rfl | rfl | rfl
  · rw [Nat.shiftRight_eq_div_pow]
    omega
  · exact Nat.mod_lt _ (by decide)
  · exact Nat.mod_lt _ (by decide)
  · exact Nat.mod_lt _ (by decide)

theorem hexBytes_toList (bytes : List Nat) :
    (hexBytes bytes).toList =
      bytes.flatMap fun byte => [Nat.digitChar (byte / 16), Nat.digitChar (byte % 16)] := by
  have hfold : ∀ (bytes : List Nat) (acc : String),
      ((bytes.map hexByte).foldl (· ++ ·) acc).toList = acc.toList ++
        bytes.flatMap fun byte => [Nat.digitChar (byte / 16), Nat.digitChar (byte % 16)] := by
    intro bytes
    induction bytes with
    | nil => intro acc; simp
    | cons b bytes ih =>
      intro acc
      rw [List.map_cons, List.foldl_cons, ih, String.toList_append, List.flatMap_cons]
      simp [hexByte]
  have h := hfold bytes ""
  simpa [hexBytes, String.join] using h

theorem hexBytes_length (bytes : List Nat) : (hexBytes bytes).length = 2 * bytes.length := by
  rw [← String.length_toList, hexBytes_toList]
  induction bytes with
  | nil => rfl
  | cons b bytes ih =>
    rw [List.flatMap_cons, List.length_append, ih]
    simp
    omega

/-- The digits of bytes are digits and small letters. -/
theorem hexBytes_chars {bytes : List Nat} (hbytes : ∀ byte ∈ bytes, byte < 256) {c : Char}
    (h : c ∈ (hexBytes bytes).toList) : IsLabelEnd c := by
  have hdigits : ∀ n < 16, (Nat.digitChar n).isLower ∨ (Nat.digitChar n).isDigit := by decide
  rw [hexBytes_toList] at h
  obtain ⟨byte, hbyte, hc⟩ := List.mem_flatMap.mp h
  have hlt := hbytes byte hbyte
  simp only [List.mem_cons, List.not_mem_nil, or_false] at hc
  rcases hc with rfl | rfl
  · exact hdigits _ (by omega)
  · exact hdigits _ (by omega)

/-- Bytes can be read from their digits. -/
theorem hexBytes_inj {xs ys : List Nat} (hxs : ∀ byte ∈ xs, byte < 256)
    (hys : ∀ byte ∈ ys, byte < 256) (h : hexBytes xs = hexBytes ys) : xs = ys := by
  have hvalue : ∀ n < 16, (if (Nat.digitChar n).toNat < 58 then (Nat.digitChar n).toNat - 48
      else (Nat.digitChar n).toNat - 87) = n := by decide
  have hdigits : ∀ m < 16, ∀ n < 16, Nat.digitChar m = Nat.digitChar n → m = n := by
    intro m hm n hn heq
    rw [← hvalue m hm, ← hvalue n hn, heq]
  have hchars := congrArg String.toList h
  rw [hexBytes_toList, hexBytes_toList] at hchars
  clear h
  induction xs generalizing ys with
  | nil =>
    cases ys with
    | nil => rfl
    | cons y ys => simp at hchars
  | cons x xs ih =>
    cases ys with
    | nil => simp at hchars
    | cons y ys =>
      have hx := hxs x List.mem_cons_self
      have hy := hys y List.mem_cons_self
      simp only [List.flatMap_cons, List.cons_append, List.nil_append, List.cons.injEq] at hchars
      obtain ⟨hhigh, hlow, hrest⟩ := hchars
      have hhigh := hdigits _ (by omega) _ (by omega) hhigh
      have hlow := hdigits _ (by omega) _ (by omega) hlow
      rw [ih (fun byte hbyte => hxs byte (List.mem_cons_of_mem _ hbyte))
        (fun byte hbyte => hys byte (List.mem_cons_of_mem _ hbyte)) hrest]
      congr 1
      omega

/-- Digits of one digest. -/
theorem digest_hex_chars {bytes : List Nat} {n : Nat} {c : Char}
    (h : c ∈ (hexBytes ((Sha256.digest bytes).take n)).toList) : IsLabelEnd c :=
  hexBytes_chars (fun _ hbyte => Sha256.digest_lt (List.mem_of_mem_take hbyte)) h

/-! ## Strings with their lengths -/

/-- The bytes that `update` is called with for some strings. -/
def lengthPrefixed (parts : List String) : List Nat :=
  parts.flatMap fun part => lengthBytes (utf8Bytes part).length ++ utf8Bytes part

/-- A string whose length is a `usize`. -/
def FitsUsize (part : String) : Prop := (utf8Bytes part).length < 2 ^ 64

theorem lengthBytes_length (n : Nat) : (lengthBytes n).length = 8 := rfl

/-- The eight bytes give the length back. -/
theorem lengthBytes_inj {m n : Nat} (hm : m < 2 ^ 64) (hn : n < 2 ^ 64)
    (h : lengthBytes m = lengthBytes n) : m = n := by
  have hbytes : ∀ i < 8, m / 256 ^ i % 256 = n / 256 ^ i % 256 := by
    intro i hi
    have hget := congrArg (·[i]?) h
    simp only [lengthBytes, List.getElem?_map, List.getElem?_range hi, Option.map_some,
      Option.some.injEq, Nat.shiftRight_eq_div_pow, Nat.pow_mul] at hget
    exact hget
  have hmods : ∀ k ≤ 8, m % 256 ^ k = n % 256 ^ k := by
    intro k
    induction k with
    | zero => simp [Nat.mod_one]
    | succ k ih =>
      intro hk
      rw [Nat.mod_pow_succ, Nat.mod_pow_succ, ih (by omega), hbytes k (by omega)]
  have h := hmods 8 (by omega)
  have hsize : 256 ^ 8 = 2 ^ 64 := by decide
  rwa [hsize, Nat.mod_eq_of_lt hm, Nat.mod_eq_of_lt hn] at h

theorem utf8Bytes_inj {s t : String} : utf8Bytes s = utf8Bytes t ↔ s = t := by
  constructor
  · intro h
    unfold utf8Bytes at h
    have hbytes := List.map_injective_iff.mpr (fun _ _ => UInt8.toNat_inj.mp) h
    exact String.toByteArray_inj.mp (ByteArray.ext (Array.toList_inj.mp hbytes))
  · rintro rfl
    rfl

/-- **The bytes say which strings they are of**, whatever is in them. -/
theorem lengthPrefixed_inj {xs ys : List String} (hxs : ∀ x ∈ xs, FitsUsize x)
    (hys : ∀ y ∈ ys, FitsUsize y) (h : lengthPrefixed xs = lengthPrefixed ys) : xs = ys := by
  have hcode : PrefixCode fun part : {s : String // FitsUsize s} =>
      lengthBytes (utf8Bytes part.1).length ++ utf8Bytes part.1 := by
    constructor
    · intro a hnil
      exact absurd (congrArg List.length hnil) (by simp [lengthBytes_length])
    · intro a b ⟨rest, hrest⟩
      rw [List.append_assoc] at hrest
      obtain ⟨hlength, hbytes⟩ := List.append_inj hrest rfl
      have hlt : (utf8Bytes a.1).length = (utf8Bytes b.1).length :=
        lengthBytes_inj a.2 b.2 hlength
      have hnil : rest = [] := by
        have h := congrArg List.length hbytes
        rw [List.length_append] at h
        exact List.length_eq_zero_iff.mp (by omega)
      rw [hnil, List.append_nil] at hbytes
      exact Subtype.ext (utf8Bytes_inj.mp hbytes)
  have hattach : ∀ {zs : List String} (hzs : ∀ z ∈ zs, FitsUsize z),
      (zs.attachWith FitsUsize hzs).flatMap (fun part =>
        lengthBytes (utf8Bytes part.1).length ++ utf8Bytes part.1) = lengthPrefixed zs := by
    intro zs hzs
    have hmap := List.flatMap_map Subtype.val
      (fun part => lengthBytes (utf8Bytes part).length ++ utf8Bytes part)
      (zs.attachWith FitsUsize hzs)
    rw [List.attachWith_map_subtype_val] at hmap
    exact hmap.symm
  rw [← hattach hxs, ← hattach hys] at h
  have heq := congrArg (List.map Subtype.val) (hcode.flatMap_inj.mp h)
  rwa [List.attachWith_map_subtype_val, List.attachWith_map_subtype_val] at heq

end FluidBG
