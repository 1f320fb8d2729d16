import FluidBG.Plugins.Rabbitmq
import FluidBG.Proof.NameParts
/-!
# Derived names

The names that the plugins derive for the temporary queues of an inception point, and the users of
its inceptor: a readable part and a piece of a digest of everything the name depends on. Where the
piece of the digest is there to its end, the name belongs to one tuple.
-/

set_option autoImplicit false

namespace FluidBG

open Lib

theorem stableSuffix_length (parts : List String) : (stableSuffix parts).length = 16 := by
  rw [stableSuffix, hexBytes_length, List.length_take, Sha256.digest_length]
  rfl

theorem stableSuffix_chars {parts : List String} {c : Char} (h : c ∈ (stableSuffix parts).toList) :
    IsLabelEnd c := digest_hex_chars h

/-! ## Temporary names -/

/-- What a temporary name is derived from. -/
structure TempName where
  ns : String
  blueGreenRef : String
  blueGreenUid : String
  inceptionPoint : String
  role : String
  logical : String
  identifier : Option String
  deriving DecidableEq

namespace TempName

/-- The tuple, with the token of the identifier. -/
def parts (n : TempName) : List String :=
  [n.ns, n.blueGreenRef, n.blueGreenUid, n.inceptionPoint, n.role, n.logical,
    (n.identifier.bind temporaryQueueIdentifierToken).getD ""]

def text (n : TempName) : String :=
  derivedTempQueueNameWithUidAndIdentifier n.ns n.blueGreenRef n.blueGreenUid n.inceptionPoint
    n.role n.logical n.identifier

/-- The name of a queue that the sweeps recognize and every broker takes. -/
structure Safe (n : TempName) : Prop where
  length : n.text.length ≤ 63
  chars : ∀ c ∈ n.text.toList, IsLabelChar c
  starts : "fluidbg-".toList <+: n.text.toList

end TempName

theorem labelChars {text : String}
    (h : (text.toList.all fun c => c.isLower || c.isDigit || c = '-') = true) :
    ∀ c ∈ text.toList, IsLabelChar c := by
  intro c hc
  have hchar := List.all_eq_true.mp h c hc
  simp only [Bool.or_eq_true, decide_eq_true_eq] at hchar
  exact or_assoc.mp hchar

theorem tempQueueKind_mem (logical : String) :
    tempQueueKind logical ∈ ["green-in", "blue-in", "green-out", "blue-out", "tmp"] := by
  unfold tempQueueKind
  split <;> simp

theorem sanitizeIdentifier_chars {value : String} {c : Char}
    (h : c ∈ (sanitizeIdentifier value).toList) : IsLabelEnd c := by
  rw [sanitizeIdentifier, String.toList_ofList, List.mem_filter] at h
  obtain ⟨hmem, halnum⟩ := h
  obtain ⟨ch, _, rfl⟩ := List.mem_map.mp hmem
  exact isLabelEnd_toLower halnum

/-- A token has at most ten characters. -/
theorem token_spec {value token : String} (h : temporaryQueueIdentifierToken value = some token) :
    token.length ≤ 10 ∧ ∀ c ∈ token.toList, IsLabelEnd c := by
  unfold temporaryQueueIdentifierToken at h
  dsimp only at h
  split at h
  · cases h
  · rw [← Option.some.inj h]
    constructor
    · simp only [String.length_ofList, List.length_append, List.length_take,
        String.length_toList, stableSuffix_length]
      omega
    · intro c hc
      rw [String.toList_ofList, List.mem_append] at hc
      rcases hc with hc | hc
      · exact sanitizeIdentifier_chars (List.mem_of_mem_take hc)
      · exact stableSuffix_chars (List.mem_of_mem_take hc)

/-- A temporary name is a readable part, a dash and the piece of the digest. -/
theorem TempName.text_toList (n : TempName) : ∃ readable : List Char,
    n.text.toList = readable ++ '-' :: (stableSuffix n.parts).toList ∧
    "fluidbg-".toList <+: readable ∧ readable.length ≤ 28 ∧ ∀ c ∈ readable, IsLabelChar c := by
  have hkinds : ∀ kind ∈ ["green-in", "blue-in", "green-out", "blue-out", "tmp"],
      kind.length ≤ 9 ∧ (kind.toList.all fun c => c.isLower || c.isDigit || c = '-') = true := by
    decide
  obtain ⟨hlength, hkind⟩ := hkinds _ (tempQueueKind_mem n.logical)
  have hchars := labelChars hkind
  have hfluidbg : ∀ c ∈ "fluidbg-".toList, IsLabelChar c := labelChars (by decide)
  cases hidentifier : n.identifier.bind temporaryQueueIdentifierToken with
  | none =>
    refine ⟨"fluidbg-".toList ++ (tempQueueKind n.logical).toList, ?_, List.prefix_append _ _, ?_,
      fun c hc => ?_⟩
    · simp [text, parts, derivedTempQueueNameWithUidAndIdentifier, hidentifier, toString]
    · rw [List.length_append, String.length_toList]
      exact Nat.le_trans (Nat.add_le_add_left hlength _) (by decide)
    · rcases List.mem_append.mp hc with hc | hc
      · exact hfluidbg c hc
      · exact hchars c hc
  | some token =>
    obtain ⟨value, -, htoken⟩ := Option.bind_eq_some_iff.mp hidentifier
    obtain ⟨hshort, htokenChars⟩ := token_spec htoken
    refine ⟨"fluidbg-".toList ++ ((tempQueueKind n.logical).toList ++ '-' :: token.toList), ?_,
      List.prefix_append _ _, ?_, fun c hc => ?_⟩
    · simp [text, parts, derivedTempQueueNameWithUidAndIdentifier, hidentifier, toString]
    · simp only [List.length_append, List.length_cons, String.length_toList]
      have height : "fluidbg-".length = 8 := by decide
      omega
    · rcases List.mem_append.mp hc with hc | hc
      · exact hfluidbg c hc
      · rcases List.mem_append.mp hc with hc | hc
        · exact hchars c hc
        · rcases List.mem_cons.mp hc with rfl | hc
          · exact .inr (.inr rfl)
          · exact (htokenChars c hc).labelChar

theorem TempName.safe (n : TempName) : n.Safe := by
  obtain ⟨readable, htext, hstarts, hlength, hchars⟩ := n.text_toList
  have hsuffix : (stableSuffix n.parts).toList.length = 16 := by
    rw [String.length_toList, stableSuffix_length]
  constructor
  · rw [← String.length_toList, htext, List.length_append, List.length_cons, hsuffix]
    omega
  · intro c hc
    rw [htext] at hc
    rcases List.mem_append.mp hc with hc | hc
    · exact hchars c hc
    · rcases List.mem_cons.mp hc with rfl | hc
      · exact .inr (.inr rfl)
      · exact (stableSuffix_chars hc).labelChar
  · rw [htext]
    exact hstarts.trans (List.prefix_append _ _)

/-- Names that are equal end with the same piece of a digest. -/
theorem TempName.suffix_of_text {a b : TempName} (h : a.text = b.text) :
    stableSuffix a.parts = stableSuffix b.parts := by
  obtain ⟨readable, ha, -⟩ := a.text_toList
  obtain ⟨readable', hb, -⟩ := b.text_toList
  have hchars := congrArg String.toList h
  rw [ha, hb] at hchars
  have hlength : ∀ n : TempName, (stableSuffix n.parts).toList.length = 16 := by
    intro n
    rw [String.length_toList, stableSuffix_length]
  obtain ⟨-, htail⟩ := List.append_inj' hchars (by simp [hlength])
  exact String.toList_inj.mp (List.cons.inj htail).2

/-- **Derived temporary names are safe and distinct**, where the piece of the digest separates the
bytes of the two tuples. -/
theorem temp_names_safe_and_distinct (a b : TempName)
    (hfits : ∀ part ∈ a.parts ++ b.parts, FitsUsize part)
    (hdigest : stableSuffix a.parts = stableSuffix b.parts →
      lengthPrefixed a.parts = lengthPrefixed b.parts) :
    a.Safe ∧ b.Safe ∧ (a.parts ≠ b.parts → a.text ≠ b.text) := by
  refine ⟨a.safe, b.safe, fun hne htext => hne ?_⟩
  exact lengthPrefixed_inj (fun x hx => hfits x (List.mem_append_left _ hx))
    (fun y hy => hfits y (List.mem_append_right _ hy)) (hdigest (TempName.suffix_of_text htext))

/-- Of two objects of one name. -/
def Sample.tempName (uid : String) : TempName :=
  ⟨"default", "shop", uid, "incoming-orders", "duplicator", "green-input", some "Orders 1"⟩

def Sample.tempNamesDiffer : PLift
    (stableSuffix (Sample.tempName "uid-1").parts ≠ stableSuffix (Sample.tempName "uid-2").parts ∧
      ∀ part ∈ (Sample.tempName "uid-1").parts ++ (Sample.tempName "uid-2").parts,
        (utf8Bytes part).length < 2 ^ 64) :=
  ⟨by decide +kernel⟩

/-- An object that is created again under its name gets other queues. -/
theorem temp_names_of_recreated : (Sample.tempName "uid-1").text ≠ (Sample.tempName "uid-2").text := by
  obtain ⟨hdigest, hfits⟩ := Sample.tempNamesDiffer.down
  refine (temp_names_safe_and_distinct (Sample.tempName "uid-1") (Sample.tempName "uid-2") hfits
    fun h => absurd h hdigest).2.2 fun hparts => ?_
  rw [hparts] at hdigest
  exact hdigest rfl

/-! ## Scoped identities -/

/-- What a scoped identity belongs to. -/
structure ScopedTuple where
  ns : String
  blueGreenRef : String
  blueGreenUid : String
  inceptionPoint : String
  deriving DecidableEq

namespace ScopedTuple

def parts (t : ScopedTuple) : List String :=
  [t.ns, t.blueGreenRef, t.blueGreenUid, t.inceptionPoint]

def name (before : String) (maxLen : Nat) (t : ScopedTuple) : String :=
  derivedScopedIdentityName before t.ns t.blueGreenRef t.blueGreenUid t.inceptionPoint maxLen

/-- The readable part, in the room that is left beside the digest. -/
def readable (maxLen : Nat) (t : ScopedTuple) : List Char :=
  (sanitize s!"{t.ns}-{t.blueGreenRef}-{t.inceptionPoint}").toList.take (max (maxLen - 18) 1)

/-- The name without the digest. -/
def front (before : String) (maxLen : Nat) (t : ScopedTuple) : List Char :=
  (sanitize before).toList ++ '-' :: t.readable maxLen

/-- The name is bounded, begins with the prefix and ends with the whole digest. -/
structure Kept (before : String) (maxLen : Nat) (t : ScopedTuple) : Prop where
  length : (t.name before maxLen).length ≤ maxLen
  starts : (sanitize before).toList <+: (t.name before maxLen).toList
  ends : (stableSuffix t.parts).toList <:+ (t.name before maxLen).toList

/-- There is room for the three parts. A name of which the whole digest has been cut keeps it all the
same where the readable part happens to end with it. -/
def Fits (before : String) (maxLen : Nat) (t : ScopedTuple) : Prop :=
  (t.front before maxLen).length + 17 ≤ maxLen ∨
    maxLen ≤ (t.front before maxLen).length ∧
      (stableSuffix t.parts).toList <:+ (t.front before maxLen).take maxLen

section Names

variable {before : String} {maxLen : Nat} {t t' : ScopedTuple}

theorem name_toList : (t.name before maxLen).toList =
    (t.front before maxLen ++ '-' :: (stableSuffix t.parts).toList).take maxLen := by
  unfold name derivedScopedIdentityName
  simp [front, readable, parts, stableSuffix_length, toString]

theorem suffix_length : (stableSuffix t.parts).toList.length = 16 := by
  rw [String.length_toList, stableSuffix_length]

/-- A digest that has been cut leaves a dash among the last characters. -/
theorem not_ends_of_cut (hlow : (t.front before maxLen).length < maxLen)
    (hhigh : maxLen < (t.front before maxLen).length + 17) :
    ¬ (stableSuffix t.parts).toList <:+ (t.name before maxLen).toList := by
  intro h
  rw [name_toList, List.take_append, List.take_of_length_le (Nat.le_of_lt hlow)] at h
  obtain ⟨n, hn⟩ : ∃ n, maxLen - (t.front before maxLen).length = n + 1 :=
    ⟨maxLen - (t.front before maxLen).length - 1, by omega⟩
  rw [hn, List.take_succ_cons] at h
  -- the dash is among the last 16 characters, and the digest has none
  have hdash : '-' ∈ (stableSuffix t.parts).toList := by
    have hsuffix : '-' :: (stableSuffix t.parts).toList.take n <:+
        t.front before maxLen ++ '-' :: (stableSuffix t.parts).toList.take n :=
      List.suffix_append _ _
    have hle : ('-' :: (stableSuffix t.parts).toList.take n).length ≤
        (stableSuffix t.parts).toList.length := by
      rw [List.length_cons, List.length_take, suffix_length]
      omega
    exact (List.suffix_of_suffix_length_le hsuffix h hle).subset List.mem_cons_self
  exact (stableSuffix_chars hdash).ne_dash rfl

theorem ends_iff : (stableSuffix t.parts).toList <:+ (t.name before maxLen).toList ↔
    t.Fits before maxLen := by
  constructor
  · intro h
    by_cases hlow : (t.front before maxLen).length < maxLen
    · by_cases hhigh : maxLen < (t.front before maxLen).length + 17
      · exact absurd h (not_ends_of_cut hlow hhigh)
      · exact .inl (by omega)
    · refine .inr ⟨by omega, ?_⟩
      rwa [name_toList, List.take_append_of_le_length (by omega)] at h
  · rintro (hroom | ⟨hcut, hends⟩)
    · rw [name_toList, List.take_of_length_le (by
        rw [List.length_append, List.length_cons, suffix_length]
        omega)]
      exact (List.suffix_cons _ _).trans (List.suffix_append _ _)
    · rwa [name_toList, List.take_append_of_le_length hcut]

/-- The digest apart, nothing is lost of what a plugin relies on. -/
theorem kept_iff (hmax : (sanitize before).length + 19 ≤ maxLen) :
    t.Kept before maxLen ↔ t.Fits before maxLen := by
  constructor
  · intro h
    exact ends_iff.mp h.ends
  · intro h
    refine ⟨?_, ?_, ends_iff.mpr h⟩
    · rw [← String.length_toList, name_toList]
      exact List.length_take_le _ _
    · rw [name_toList, List.prefix_take_iff]
      refine ⟨(List.prefix_append _ _).trans (List.prefix_append _ _), ?_⟩
      rw [String.length_toList]
      omega

/-- Names that end with the digests of their tuples tell the tuples apart. -/
theorem name_ne (h : t.Kept before maxLen) (h' : t'.Kept before maxLen)
    (hdigest : stableSuffix t.parts = stableSuffix t'.parts → t = t') (hne : t ≠ t') :
    t.name before maxLen ≠ t'.name before maxLen := by
  intro hname
  apply hne
  apply hdigest
  have hends := h'.ends
  rw [← hname] at hends
  have hle := List.suffix_of_suffix_length_le h.ends hends (by rw [suffix_length, suffix_length])
  exact String.toList_inj.mp (hle.eq_of_length (by rw [suffix_length, suffix_length]))

end Names

end ScopedTuple

/-- **Scoped identities keep their digest**, and are then distinct, exactly where the three parts
have room: the room of the readable part does not count the prefix. -/
theorem scoped_identities_keep_digest_iff (before : String) (maxLen : Nat) (t t' : ScopedTuple)
    (hmax : (sanitize before).length + 19 ≤ maxLen)
    (hfits : ∀ part ∈ t.parts ++ t'.parts, FitsUsize part)
    (hdigest : stableSuffix t.parts = stableSuffix t'.parts →
      lengthPrefixed t.parts = lengthPrefixed t'.parts) :
    (t.Kept before maxLen ∧ t'.Kept before maxLen ∧
      (t ≠ t' → t.name before maxLen ≠ t'.name before maxLen)) ↔
    t.Fits before maxLen ∧ t'.Fits before maxLen := by
  constructor
  · intro ⟨h, h', _⟩
    exact ⟨(ScopedTuple.kept_iff hmax).mp h, (ScopedTuple.kept_iff hmax).mp h'⟩
  · intro ⟨h, h'⟩
    have hkept := (ScopedTuple.kept_iff hmax).mpr h
    have hkept' := (ScopedTuple.kept_iff hmax).mpr h'
    refine ⟨hkept, hkept', fun hne => ScopedTuple.name_ne hkept hkept' (fun hsuffix => ?_) hne⟩
    have hparts := lengthPrefixed_inj (fun x hx => hfits x (List.mem_append_left _ hx))
      (fun y hy => hfits y (List.mem_append_right _ hy)) (hdigest hsuffix)
    cases t
    cases t'
    simpa [ScopedTuple.parts] using hparts

/-! ## Two tuples -/

/-- The inception point `incoming-orders` of a BlueGreenDeployment. -/
def Sample.scopedTuple (uid : String) : ScopedTuple := ⟨"default", "shop", uid, "incoming-orders"⟩

def Sample.scopedFront : PLift
    (((Sample.scopedTuple "uid-1").front "fbg-rmq" 64).length = 36 ∧
      ((Sample.scopedTuple "uid-1").front "fluidbg-rabbitmq" 40).length = 39 ∧
      (sanitize "fbg-rmq").length = 7 ∧ (sanitize "fluidbg-rabbitmq").length = 16) :=
  ⟨by decide +kernel⟩

def Sample.scopedFits : PLift (∀ part ∈ (Sample.scopedTuple "uid-1").parts,
    (utf8Bytes part).length < 2 ^ 64) :=
  ⟨by decide +kernel⟩

/-- A user of the RabbitMQ plugin has room for its digest. -/
theorem scoped_identities_keep_digest_rabbitmq :
    (Sample.scopedTuple "uid-1").Kept "fbg-rmq" 64 := by
  have hfront := Sample.scopedFront.down
  have hfits := Sample.scopedFits.down
  have hroom : (Sample.scopedTuple "uid-1").Fits "fbg-rmq" 64 := .inl (by omega)
  refine ((scoped_identities_keep_digest_iff "fbg-rmq" 64 (Sample.scopedTuple "uid-1")
    (Sample.scopedTuple "uid-1") (by omega) (fun part hpart => ?_) fun _ => rfl).mpr
    ⟨hroom, hroom⟩).1
  rcases List.mem_append.mp hpart with hpart | hpart
  · exact hfits part hpart
  · exact hfits part hpart

/-- With a longer prefix and a bound of 40 characters all of the digest is cut off. -/
theorem scoped_digest_cut_off :
    ¬ ∀ (before : String) (maxLen : Nat) (t t' : ScopedTuple),
      (sanitize before).length + 19 ≤ maxLen → (∀ part ∈ t.parts ++ t'.parts, FitsUsize part) →
      (stableSuffix t.parts = stableSuffix t'.parts →
        lengthPrefixed t.parts = lengthPrefixed t'.parts) →
      t.Kept before maxLen ∧ t'.Kept before maxLen ∧
        (t ≠ t' → t.name before maxLen ≠ t'.name before maxLen) := by
  intro h
  have hfront := Sample.scopedFront.down
  have hfits := Sample.scopedFits.down
  obtain ⟨hkept, -⟩ := h "fluidbg-rabbitmq" 40 (Sample.scopedTuple "uid-1")
    (Sample.scopedTuple "uid-1") (by omega) (fun part hpart => by
      rcases List.mem_append.mp hpart with hpart | hpart
      · exact hfits part hpart
      · exact hfits part hpart) fun _ => rfl
  rcases ScopedTuple.ends_iff.mp hkept.ends with hroom | ⟨hcut, -⟩
  · omega
  · omega

end FluidBG
