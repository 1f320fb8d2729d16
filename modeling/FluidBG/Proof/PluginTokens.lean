import FluidBG.Plugins.BusClient
import FluidBG.Plugins.Tokens
import FluidBG.Proof.HttpReadings
import FluidBG.Proof.NameParts
import FluidBG.Proof.Tenancy
/-!
# Plugin tokens say what was signed

Base 64 without padding has one text for each list of bytes, so the segments of a token are
determined by what they decode to. A token that verifies carries the keyed hash of its first two
segments; where that hash is only known for what was signed, the token is one that was signed.
-/

set_option autoImplicit false

namespace FluidBG

/-! ## One encoding for each list of bytes -/

theorem base64Value_char {n : Nat} (h : n < 64) : base64Value (base64Char n) = some n := by
  have hall : ∀ n < 64, base64Value (base64Char n) = some n := by decide
  exact hall n h

theorem base64Char_ne_dot {n : Nat} (h : n < 64) : base64Char n ≠ '.' := by
  have hall : ∀ n < 64, base64Char n ≠ '.' := by decide
  exact hall n h

/-- Every digit has one value, and every value one digit. -/
theorem base64Char_of_value {c : Char} {n : Nat} (h : base64Value c = some n) :
    n < 64 ∧ base64Char n = c := by
  have hchar := Char.ofNat_toNat c
  unfold base64Value at h
  unfold base64Char
  split at h
  · have hn := Option.some.inj h
    refine ⟨by omega, ?_⟩
    rw [if_pos (by omega), ← hn]
    rw [show 65 + (c.toNat - 65) = c.toNat by omega, hchar]
  · split at h
    · have hn := Option.some.inj h
      refine ⟨by omega, ?_⟩
      rw [if_neg (by omega), if_pos (by omega), ← hn]
      rw [show 71 + (c.toNat - 71) = c.toNat by omega, hchar]
    · split at h
      · have hn := Option.some.inj h
        refine ⟨by omega, ?_⟩
        rw [if_neg (by omega), if_neg (by omega), if_pos (by omega), ← hn]
        rw [show c.toNat + 4 - 4 = c.toNat by omega, hchar]
      · split at h
        · rename_i hdash
          have hn := Option.some.inj h
          exact ⟨by omega, by rw [← hn, hdash]; rfl⟩
        · split at h
          · rename_i hunderscore
            have hn := Option.some.inj h
            exact ⟨by omega, by rw [← hn, hunderscore]; rfl⟩
          · cases h

/-- What three bytes, two bytes or one byte are made of. -/
theorem base64Url_length_rec {P : List Nat → Prop} (nil : P []) (one : ∀ a, P [a])
    (two : ∀ a b, P [a, b]) (three : ∀ a b c rest, P rest → P (a :: b :: c :: rest)) :
    ∀ bytes, P bytes := by
  intro bytes
  induction hn : bytes.length using Nat.strong_induction_on generalizing bytes with
  | _ n ih =>
    rcases bytes with _ | ⟨a, _ | ⟨b, _ | ⟨c, rest⟩⟩⟩
    · exact nil
    · exact one a
    · exact two a b
    · refine three a b c rest (ih rest.length ?_ rest rfl)
      rw [← hn]
      simp only [List.length_cons]
      omega

/-- **Decoding reads back** what was encoded. -/
theorem base64UrlDecode_base64Url {bytes : List Nat} (h : ∀ b ∈ bytes, b < 256) :
    base64UrlDecode (base64Url bytes) = some bytes := by
  induction bytes using base64Url_length_rec with
  | nil => rw [base64Url, base64UrlDecode]
  | one a =>
    have ha : a < 256 := h a List.mem_cons_self
    have h1 : base64Value (base64Char (a / 4)) = some (a / 4) := base64Value_char (by omega)
    have h2 : base64Value (base64Char (a % 4 * 16)) = some (a % 4 * 16) :=
      base64Value_char (by omega)
    rw [base64Url, base64UrlDecode, h1, h2]
    simp only [Option.bind_eq_bind, Option.bind_some]
    have hfirst : a / 4 * 4 + a % 4 * 16 / 16 = a := by omega
    rw [if_pos (by omega), hfirst]
    rfl
  | two a b =>
    have ha : a < 256 := h a List.mem_cons_self
    have hb : b < 256 := h b (by simp)
    have h1 : base64Value (base64Char (a / 4)) = some (a / 4) := base64Value_char (by omega)
    have h2 : base64Value (base64Char (a % 4 * 16 + b / 16)) = some (a % 4 * 16 + b / 16) :=
      base64Value_char (by omega)
    have h3 : base64Value (base64Char (b % 16 * 4)) = some (b % 16 * 4) :=
      base64Value_char (by omega)
    rw [base64Url, base64UrlDecode, h1, h2, h3]
    simp only [Option.bind_eq_bind, Option.bind_some]
    have hfirst : a / 4 * 4 + (a % 4 * 16 + b / 16) / 16 = a := by omega
    have hsecond : (a % 4 * 16 + b / 16) % 16 * 16 + b % 16 * 4 / 4 = b := by omega
    rw [if_pos (by omega), hfirst, hsecond]
    rfl
  | three a b c rest ih =>
    have ha : a < 256 := h a List.mem_cons_self
    have hb : b < 256 := h b (by simp)
    have hc : c < 256 := h c (by simp)
    have hrest := ih fun x hx => h x (by simp [hx])
    have h1 : base64Value (base64Char (a / 4)) = some (a / 4) := base64Value_char (by omega)
    have h2 : base64Value (base64Char (a % 4 * 16 + b / 16)) = some (a % 4 * 16 + b / 16) :=
      base64Value_char (by omega)
    have h3 : base64Value (base64Char (b % 16 * 4 + c / 64)) = some (b % 16 * 4 + c / 64) :=
      base64Value_char (by omega)
    have h4 : base64Value (base64Char (c % 64)) = some (c % 64) := base64Value_char (by omega)
    rw [base64Url, List.cons_append, List.cons_append, List.cons_append, List.cons_append,
      List.nil_append, base64UrlDecode, h1, h2, h3, h4, hrest]
    simp only [Option.bind_eq_bind, Option.bind_some]
    have hfirst : a / 4 * 4 + (a % 4 * 16 + b / 16) / 16 = a := by omega
    have hsecond : (a % 4 * 16 + b / 16) % 16 * 16 + (b % 16 * 4 + c / 64) / 4 = b := by omega
    have hthird : (b % 16 * 4 + c / 64) % 4 * 64 + c % 64 = c := by omega
    rw [hfirst, hsecond, hthird]
    rfl

/-- The same for the digits, in groups of four. -/
theorem base64Digits_rec {P : List Char → Prop} (nil : P []) (one : ∀ a, P [a])
    (two : ∀ a b, P [a, b]) (three : ∀ a b c, P [a, b, c])
    (four : ∀ a b c d rest, P rest → P (a :: b :: c :: d :: rest)) : ∀ cs, P cs := by
  intro cs
  induction hn : cs.length using Nat.strong_induction_on generalizing cs with
  | _ n ih =>
    rcases cs with _ | ⟨a, _ | ⟨b, _ | ⟨c, _ | ⟨d, rest⟩⟩⟩⟩
    · exact nil
    · exact one a
    · exact two a b
    · exact three a b c
    · refine four a b c d rest (ih rest.length ?_ rest rfl)
      rw [← hn]
      simp only [List.length_cons]
      omega

/-- **Only the encoding is decoded**: no other text gives the same bytes. -/
theorem base64Url_of_decode {cs : List Char} {bytes : List Nat}
    (h : base64UrlDecode cs = some bytes) : base64Url bytes = cs := by
  induction cs using base64Digits_rec generalizing bytes with
  | nil => cases h; rfl
  | one a => cases h
  | two a b =>
    rw [base64UrlDecode] at h
    simp only [Option.bind_eq_bind, Option.bind_eq_some_iff] at h
    obtain ⟨x, hx, y, hy, h⟩ := h
    split at h
    · rename_i hbits
      cases h
      obtain ⟨hx64, hx⟩ := base64Char_of_value hx
      obtain ⟨hy64, hy⟩ := base64Char_of_value hy
      rw [base64Url, ← hx, ← hy]
      have hfirst : (x * 4 + y / 16) / 4 = x := by omega
      have hsecond : (x * 4 + y / 16) % 4 * 16 = y := by omega
      rw [hfirst, hsecond]
    · cases h
  | three a b c =>
    rw [base64UrlDecode] at h
    simp only [Option.bind_eq_bind, Option.bind_eq_some_iff] at h
    obtain ⟨x, hx, y, hy, z, hz, h⟩ := h
    split at h
    · rename_i hbits
      cases h
      obtain ⟨hx64, hx⟩ := base64Char_of_value hx
      obtain ⟨hy64, hy⟩ := base64Char_of_value hy
      obtain ⟨hz64, hz⟩ := base64Char_of_value hz
      rw [base64Url, ← hx, ← hy, ← hz]
      have hfirst : (x * 4 + y / 16) / 4 = x := by omega
      have hsecond : (x * 4 + y / 16) % 4 * 16 + (y % 16 * 16 + z / 4) / 16 = y := by omega
      have hthird : (y % 16 * 16 + z / 4) % 16 * 4 = z := by omega
      rw [hfirst, hsecond, hthird]
    · cases h
  | four a b c d rest ih =>
    rw [base64UrlDecode] at h
    simp only [Option.bind_eq_bind, Option.bind_eq_some_iff] at h
    obtain ⟨x, hx, y, hy, z, hz, w, hw, more, hmore, h⟩ := h
    cases h
    obtain ⟨hx64, hx⟩ := base64Char_of_value hx
    obtain ⟨hy64, hy⟩ := base64Char_of_value hy
    obtain ⟨hz64, hz⟩ := base64Char_of_value hz
    obtain ⟨hw64, hw⟩ := base64Char_of_value hw
    rw [base64Url, ih hmore, ← hx, ← hy, ← hz, ← hw]
    have hfirst : (x * 4 + y / 16) / 4 = x := by omega
    have hsecond : (x * 4 + y / 16) % 4 * 16 + (y % 16 * 16 + z / 4) / 16 = y := by omega
    have hthird : (y % 16 * 16 + z / 4) % 16 * 4 + (z % 4 * 64 + w) / 64 = z := by omega
    have hfourth : (z % 4 * 64 + w) % 64 = w := by omega
    rw [hfirst, hsecond, hthird, hfourth]
    rfl

/-- No digit is a dot. -/
theorem dot_not_mem_base64Url {bytes : List Nat} (h : ∀ b ∈ bytes, b < 256) :
    '.' ∉ base64Url bytes := by
  induction bytes using base64Url_length_rec with
  | nil => exact List.not_mem_nil
  | one a =>
    have ha : a < 256 := h a List.mem_cons_self
    simp only [base64Url, List.mem_cons, List.not_mem_nil, or_false, not_or]
    exact ⟨(base64Char_ne_dot (by omega)).symm, (base64Char_ne_dot (by omega)).symm⟩
  | two a b =>
    have ha : a < 256 := h a List.mem_cons_self
    have hb : b < 256 := h b (by simp)
    simp only [base64Url, List.mem_cons, List.not_mem_nil, or_false, not_or]
    exact ⟨(base64Char_ne_dot (by omega)).symm, (base64Char_ne_dot (by omega)).symm,
      (base64Char_ne_dot (by omega)).symm⟩
  | three a b c rest ih =>
    have ha : a < 256 := h a List.mem_cons_self
    have hb : b < 256 := h b (by simp)
    have hc : c < 256 := h c (by simp)
    simp only [base64Url, List.cons_append, List.nil_append, List.mem_cons, not_or]
    exact ⟨(base64Char_ne_dot (by omega)).symm, (base64Char_ne_dot (by omega)).symm,
      (base64Char_ne_dot (by omega)).symm, (base64Char_ne_dot (by omega)).symm,
      ih fun x hx => h x (by simp [hx])⟩

/-! ## What is relied on -/

/-- The libraries do what they document: what is written is bytes, and reads back. -/
structure TokenCrates.Documented (lib : TokenCrates) (signed : PluginAuthClaims → Prop) : Prop where
  header : ∃ bytes, lib.encodeHeader ⟨"HS256", "JWT"⟩ = .ok bytes ∧ (∀ b ∈ bytes, b < 256) ∧
    lib.decodeHeader bytes = .ok ⟨"HS256", "JWT"⟩
  claims : ∀ claims, signed claims → ∃ bytes, lib.encodeClaims claims = .ok bytes ∧
    (∀ b ∈ bytes, b < 256) ∧ lib.decodeClaims bytes = .ok claims
  hmac : ∀ key message, ∀ b ∈ lib.hmac key message, b < 256

/-- Claims that `new` or `new_with_uid` builds. -/
def PluginAuthClaims.Built (claims : PluginAuthClaims) : Prop :=
  ∃ ns blueGreenRef inceptionPoint plugin,
    claims = .new ns blueGreenRef inceptionPoint plugin ∨
      ∃ blueGreenUid, claims = .newWithUid ns blueGreenRef blueGreenUid inceptionPoint plugin

/-- What is signed for the claims. -/
def TokenCrates.Input (lib : TokenCrates) (claims : PluginAuthClaims) (input : List Char) : Prop :=
  ∃ header body, encodeJson (lib.encodeHeader ⟨"HS256", "JWT"⟩) = .ok header ∧
    encodeJson (lib.encodeClaims claims) = .ok body ∧ input = signingInput header body

/-- The keyed hash of a message is known only if the message was signed: no segment of a text that
can be formed decodes to another one. -/
def TokenCrates.Ideal (lib : TokenCrates) (signingKey : List Nat)
    (signed : PluginAuthClaims → Prop) (formed : String → Prop) : Prop :=
  ∀ text, formed text → ∀ segment ∈ text.toList.splitOn '.', ∀ message,
    base64UrlDecode segment = some (lib.hmac signingKey message) →
      ∃ claims input, signed claims ∧ lib.Input claims input ∧
        message = utf8Bytes (String.ofList input)

namespace Token

variable {lib : TokenCrates} {signingKey : List Nat} {claims : PluginAuthClaims}
  {signed : PluginAuthClaims → Prop}

theorem built_checks (h : claims.Built) :
    claims.iss = "fluidbg-operator" ∧ claims.aud = "fluidbg-inception-plugin" := by
  obtain ⟨ns, blueGreenRef, inceptionPoint, plugin, rfl | ⟨blueGreenUid, rfl⟩⟩ := h
  · exact ⟨rfl, rfl⟩
  · exact ⟨rfl, rfl⟩

/-- An encoded segment, and what it is read as. -/
theorem encoded {T : Type} {bytes : List Nat} {value : T} {fromSlice : List Nat → Except String T}
    (hbytes : ∀ b ∈ bytes, b < 256) (hread : fromSlice bytes = .ok value) (context : String) :
    '.' ∉ base64Url bytes ∧ decodeJson fromSlice context (base64Url bytes) = .ok value := by
  refine ⟨dot_not_mem_base64Url hbytes, ?_⟩
  rw [decodeJson, base64UrlDecode_base64Url hbytes]
  dsimp only
  rw [hread]
  rfl

theorem splitOn_two {a b : List Char} (ha : '.' ∉ a) (hb : '.' ∉ b) :
    (a ++ '.' :: b).splitOn '.' = [a, b] := by
  rw [List.splitOn_append_cons_self_of_not_mem ha, List.splitOn_eq_singleton hb]

theorem splitOn_three {a b c : List Char} (ha : '.' ∉ a) (hb : '.' ∉ b) (hc : '.' ∉ c) :
    (signingInput a b ++ '.' :: c).splitOn '.' = [a, b, c] := by
  rw [signingInput, List.append_assoc, List.cons_append,
    List.splitOn_append_cons_self_of_not_mem ha, splitOn_two hb hc]

/-- **A token in its segments.** -/
theorem sign_spec (h : lib.Documented signed) (hkey : signingKey ≠ []) (hsigned : signed claims) :
    ∃ header body, lib.Input claims (signingInput header body) ∧ '.' ∉ header ∧ '.' ∉ body ∧
      decodeJson lib.decodeHeader "invalid JWT header" header = .ok ⟨"HS256", "JWT"⟩ ∧
      decodeJson lib.decodeClaims "invalid JWT claims" body = .ok claims ∧
      signPluginAuthToken lib claims signingKey = .ok (String.ofList (signingInput header body ++
        '.' :: base64Url (tokenSignature lib signingKey (signingInput header body)))) := by
  obtain ⟨headerBytes, hencode, hbytes, hread⟩ := h.header
  obtain ⟨claimsBytes, hencode', hbytes', hread'⟩ := h.claims claims hsigned
  obtain ⟨hdot, hheader⟩ := encoded hbytes hread "invalid JWT header"
  obtain ⟨hdot', hclaims⟩ := encoded hbytes' hread' "invalid JWT claims"
  have hbase : encodeJson (lib.encodeHeader ⟨"HS256", "JWT"⟩) = .ok (base64Url headerBytes) := by
    rw [hencode]
    rfl
  have hbase' : encodeJson (lib.encodeClaims claims) = .ok (base64Url claimsBytes) := by
    rw [hencode']
    rfl
  refine ⟨base64Url headerBytes, base64Url claimsBytes, ⟨_, _, hbase, hbase', rfl⟩, hdot, hdot',
    hheader, hclaims, ?_⟩
  rw [signPluginAuthToken, if_neg hkey, hbase, hbase']
  rfl

/-- The segments of an accepted token. -/
theorem verify_spec {text : String} (h : verifyPluginAuthToken lib text signingKey = .ok claims) :
    ∃ header body signature, text.toList.splitOn '.' = [header, body, signature] ∧
      base64UrlDecode signature = some (tokenSignature lib signingKey (signingInput header body)) ∧
      decodeJson lib.decodeClaims "invalid JWT claims" body = .ok claims := by
  unfold verifyPluginAuthToken at h
  split at h
  · cases h
  · split at h
    · cases h
    · cases h
    · cases h
    · rename_i header body signature hsplit
      refine ⟨header, body, signature, hsplit, ?_⟩
      unfold verifySegments at h
      obtain ⟨head, -, h⟩ := Lib.bind_eq_ok.mp h
      split at h
      · cases h
      · dsimp only at h
        split at h
        · cases h
        · rename_i actual hactual
          split at h
          · cases h
          · rename_i heq
            obtain ⟨claims', hclaims, h⟩ := Lib.bind_eq_ok.mp h
            split at h
            · cases h
            · cases h
              rw [Bool.not_eq_true, Bool.not_eq_false'] at heq
              rw [← constantTimeEq_iff.mp heq]
              exact ⟨hactual, hclaims⟩
    · cases h

/-- **A signed token verifies**, as the claims it was signed for. -/
theorem verify_sign (h : lib.Documented signed) (hkey : signingKey ≠ []) (hsigned : signed claims)
    (hbuilt : claims.Built) :
    ∃ text, signPluginAuthToken lib claims signingKey = .ok text ∧
      verifyPluginAuthToken lib text signingKey = .ok claims := by
  obtain ⟨header, body, -, hdot, hdot', hheader, hclaims, hsign⟩ := sign_spec h hkey hsigned
  refine ⟨_, hsign, ?_⟩
  have hbytes := h.hmac signingKey (utf8Bytes (String.ofList (signingInput header body)))
  have hsplit := splitOn_three hdot hdot' (dot_not_mem_base64Url hbytes)
  obtain ⟨hiss, haud⟩ := built_checks hbuilt
  unfold verifyPluginAuthToken
  rw [if_neg hkey, String.toList_ofList]
  unfold tokenSignature
  rw [hsplit]
  dsimp only
  unfold verifySegments tokenSignature
  have hsame := constantTimeEq_iff.mpr (rfl : lib.hmac signingKey
    (utf8Bytes (String.ofList (signingInput header body))) = _)
  rw [hheader, base64UrlDecode_base64Url hbytes, hclaims]
  simp [bind, Except.bind, hsame, hiss, haud]

/-- **An accepted token was signed**, byte for byte, for the claims it is accepted for. -/
theorem sign_of_verify (h : lib.Documented signed) {formed : String → Prop}
    (hideal : lib.Ideal signingKey signed formed) {text : String} (hformed : formed text)
    (hverify : verifyPluginAuthToken lib text signingKey = .ok claims) :
    signed claims ∧ signPluginAuthToken lib claims signingKey = .ok text := by
  have hkey : signingKey ≠ [] := by
    rintro rfl
    rw [verifyPluginAuthToken, if_pos rfl] at hverify
    cases hverify
  obtain ⟨header, body, signature, hsplit, hsignature, hclaims⟩ := verify_spec hverify
  have hmem : ∀ segment ∈ [header, body, signature], '.' ∉ segment := by
    intro segment hsegment
    rw [← hsplit] at hsegment
    exact not_mem_of_mem_splitOn hsegment
  obtain ⟨claims', input, hsigned, hinput, hmessage⟩ := hideal text hformed signature
    (by rw [hsplit]; simp) _ hsignature
  -- the two inputs are one text, and their segments are the same
  obtain ⟨header', body', hinput', hdot, hdot', -, hclaims', hsign⟩ := sign_spec h hkey hsigned
  have hsame : input = signingInput header' body' := by
    obtain ⟨x, y, hx, hy, rfl⟩ := hinput
    obtain ⟨x', y', hx', hy', heq⟩ := hinput'
    rw [hx] at hx'
    rw [hy] at hy'
    rw [heq, Except.ok.inj hx', Except.ok.inj hy']
  have htext : signingInput header body = signingInput header' body' := by
    rw [← hsame]
    exact String.ofList_inj.mp (utf8Bytes_inj.mp hmessage)
  have hsegments := congrArg (List.splitOn '.') htext
  rw [signingInput, signingInput, splitOn_two (hmem header (by simp)) (hmem body (by simp)),
    splitOn_two hdot hdot'] at hsegments
  obtain ⟨hheader, hbody⟩ : header = header' ∧ body = body' := by simpa using hsegments
  have hsameClaims : claims = claims' := by
    rw [hbody, hclaims'] at hclaims
    exact (Except.ok.inj hclaims).symm
  refine ⟨hsameClaims ▸ hsigned, ?_⟩
  rw [hsameClaims, hsign, ← htext, base64Url_of_decode hsignature]
  have hjoined : ['.'].intercalate (text.toList.splitOn '.') = text.toList :=
    List.intercalate_splitOn '.'
  rw [hsplit] at hjoined
  refine congrArg Except.ok (String.toList_inj.mp ?_)
  rw [String.toList_ofList, ← hjoined]
  simp [signingInput, List.intercalate]

end Token

/-- **Plugin tokens round-trip and cannot be reshaped**: a signed token verifies as its claims,
tokens are equal for equal claims only, and a text made from signed tokens that verifies is one of
them. -/
theorem plugin_tokens_are_rigid (lib : TokenCrates) (signingKey : List Nat)
    (signed : PluginAuthClaims → Prop) (formed : String → Prop) (hkey : signingKey ≠ [])
    (hbuilt : ∀ claims, signed claims → claims.Built) (hlib : lib.Documented signed)
    (hideal : lib.Ideal signingKey signed formed) :
    (∀ claims, signed claims → ∃ text, signPluginAuthToken lib claims signingKey = .ok text ∧
      verifyPluginAuthToken lib text signingKey = .ok claims) ∧
    (∀ claims claims' text, signed claims → signed claims' →
      signPluginAuthToken lib claims signingKey = .ok text →
      signPluginAuthToken lib claims' signingKey = .ok text → claims = claims') ∧
    ∀ text claims, formed text → verifyPluginAuthToken lib text signingKey = .ok claims →
      signed claims ∧ signPluginAuthToken lib claims signingKey = .ok text := by
  have hround := fun claims (hsigned : signed claims) =>
    Token.verify_sign hlib hkey hsigned (hbuilt claims hsigned)
  refine ⟨hround, fun claims claims' text hsigned hsigned' hsign hsign' => ?_,
    fun text claims hformed hverify => Token.sign_of_verify hlib hideal hformed hverify⟩
  obtain ⟨read, hread, hverify⟩ := hround claims hsigned
  obtain ⟨read', hread', hverify'⟩ := hround claims' hsigned'
  rw [hsign] at hread
  rw [hsign'] at hread'
  rw [← Except.ok.inj hread] at hverify
  rw [← Except.ok.inj hread', hverify] at hverify'
  exact Except.ok.inj hverify'

/-! ## One token -/

namespace Sample

def tokenClaims : PluginAuthClaims := .newWithUid "default" "shop" "uid-1" "incoming" "rabbitmq"

def tokenHeader : String := "\x7b\"alg\":\"HS256\",\"typ\":\"JWT\"\x7d"

def tokenBody : String :=
  "\x7b\"iss\":\"fluidbg-operator\",\"aud\":\"fluidbg-inception-plugin\"," ++
  "\"namespace\":\"default\",\"blue_green_ref\":\"shop\",\"blue_green_uid\":\"uid-1\"," ++
  "\"inception_point\":\"incoming\",\"plugin\":\"rabbitmq\"\x7d"

def tokenInput : List Char :=
  signingInput (base64Url (utf8Bytes tokenHeader)) (base64Url (utf8Bytes tokenBody))

/-- The libraries on this token; nothing else is ever signed. -/
def tokenLib : TokenCrates where
  hmac key message :=
    if message = utf8Bytes (String.ofList tokenInput) then ServiceBus.hmacSha256 key message else []
  encodeHeader _ := .ok (utf8Bytes tokenHeader)
  decodeHeader bytes :=
    if bytes = utf8Bytes tokenHeader then .ok ⟨"HS256", "JWT"⟩ else .error "expected value"
  encodeClaims _ := .ok (utf8Bytes tokenBody)
  decodeClaims bytes :=
    if bytes = utf8Bytes tokenBody then .ok tokenClaims else .error "expected value"

def tokenKey : List Nat := utf8Bytes "signing-key"

def tokenText : String := String.ofList (tokenInput ++
  '.' :: base64Url (tokenSignature tokenLib tokenKey tokenInput))

end Sample

theorem utf8Bytes_lt {text : String} {b : Nat} (h : b ∈ utf8Bytes text) : b < 256 := by
  unfold utf8Bytes at h
  obtain ⟨byte, -, rfl⟩ := List.mem_map.mp h
  exact byte.toNat_lt

theorem base64Url_ne_nil {bytes : List Nat} (h : bytes ≠ []) : base64Url bytes ≠ [] := by
  rcases bytes with _ | ⟨a, _ | ⟨b, _ | ⟨c, rest⟩⟩⟩
  · exact absurd rfl h
  · simp [base64Url]
  · simp [base64Url]
  · simp [base64Url]

/-- No segment of the token is empty. -/
theorem Sample.tokenSegments {segment : List Char}
    (h : segment ∈ Sample.tokenText.toList.splitOn '.') : segment ≠ [] := by
  have hhmac : tokenSignature Sample.tokenLib Sample.tokenKey Sample.tokenInput =
      ServiceBus.hmacSha256 Sample.tokenKey (utf8Bytes (String.ofList Sample.tokenInput)) := by
    simp only [tokenSignature, Sample.tokenLib, if_pos]
  have hbytes : ∀ b ∈ tokenSignature Sample.tokenLib Sample.tokenKey Sample.tokenInput,
      b < 256 := by
    rw [hhmac]
    exact fun b hb => Sha256.digest_lt hb
  have hne : tokenSignature Sample.tokenLib Sample.tokenKey Sample.tokenInput ≠ [] := by
    intro hnil
    have hlength := congrArg List.length hnil
    rw [hhmac, ServiceBus.hmacSha256, Sha256.digest_length] at hlength
    cases hlength
  have hparts : utf8Bytes Sample.tokenHeader ≠ [] ∧ utf8Bytes Sample.tokenBody ≠ [] := by
    decide +kernel
  rw [Sample.tokenText, String.toList_ofList] at h
  generalize tokenSignature Sample.tokenLib Sample.tokenKey Sample.tokenInput = signature
    at h hbytes hne
  rw [Sample.tokenInput, Token.splitOn_three (dot_not_mem_base64Url fun b hb => utf8Bytes_lt hb)
      (dot_not_mem_base64Url fun b hb => utf8Bytes_lt hb) (dot_not_mem_base64Url hbytes)] at h
  simp only [List.mem_cons, List.not_mem_nil, or_false] at h
  rcases h with rfl | rfl | rfl
  · exact base64Url_ne_nil hparts.1
  · exact base64Url_ne_nil hparts.2
  · exact base64Url_ne_nil hne

/-- The token verifies, and nothing that is made from it verifies as something else. -/
theorem sample_token_is_rigid :
    (∃ text, signPluginAuthToken Sample.tokenLib Sample.tokenClaims Sample.tokenKey = .ok text ∧
      verifyPluginAuthToken Sample.tokenLib text Sample.tokenKey = .ok Sample.tokenClaims) ∧
    ∀ claims, verifyPluginAuthToken Sample.tokenLib Sample.tokenText Sample.tokenKey = .ok claims →
      claims = Sample.tokenClaims := by
  have hkey : Sample.tokenKey ≠ [] := by decide +kernel
  have hbuilt : ∀ claims, claims = Sample.tokenClaims → claims.Built := by
    rintro claims rfl
    exact ⟨_, _, _, _, .inr ⟨_, rfl⟩⟩
  have hlib : Sample.tokenLib.Documented (· = Sample.tokenClaims) := by
    have hheader : Sample.tokenLib.decodeHeader (utf8Bytes Sample.tokenHeader) =
        .ok ⟨"HS256", "JWT"⟩ := by
      simp only [Sample.tokenLib, if_pos]
    have hclaims : Sample.tokenLib.decodeClaims (utf8Bytes Sample.tokenBody) =
        .ok Sample.tokenClaims := by
      simp only [Sample.tokenLib, if_pos]
    refine ⟨⟨_, rfl, fun b hb => utf8Bytes_lt hb, hheader⟩, ?_, ?_⟩
    · rintro claims rfl
      exact ⟨_, rfl, fun b hb => utf8Bytes_lt hb, hclaims⟩
    · intro key message b hb
      simp only [Sample.tokenLib] at hb
      split at hb
      · exact Sha256.digest_lt hb
      · cases hb
  have hideal : Sample.tokenLib.Ideal Sample.tokenKey (· = Sample.tokenClaims)
      (· = Sample.tokenText) := by
    rintro text rfl segment hsegment message hdecode
    by_cases hmessage : message = utf8Bytes (String.ofList Sample.tokenInput)
    · exact ⟨_, _, rfl, ⟨_, _, rfl, rfl, rfl⟩, hmessage⟩
    · -- the hash of anything else is empty, and no segment of the token is
      simp only [Sample.tokenLib, if_neg hmessage] at hdecode
      have hempty := base64Url_of_decode hdecode
      exact absurd hempty.symm (Sample.tokenSegments hsegment)
  obtain ⟨hround, -, hrigid⟩ := plugin_tokens_are_rigid Sample.tokenLib Sample.tokenKey
    (· = Sample.tokenClaims) (· = Sample.tokenText) hkey hbuilt hlib hideal
  exact ⟨hround _ rfl, fun claims hverify => (hrigid _ claims rfl hverify).1⟩

end FluidBG
