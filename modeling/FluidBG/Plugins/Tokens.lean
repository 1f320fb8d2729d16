import FluidBG.Backends
import FluidBG.HttpApi
/-!
# Plugin tokens

The signing and the verification of plugin tokens in `sdk/rust/src/auth.rs`. What `serde_json` writes
and reads is a parameter, and so is the keyed hash; the base64 engine is `URL_SAFE_NO_PAD`, which
refuses padding, foreign characters and bits that no byte is made of.
-/

set_option autoImplicit false

namespace FluidBG

/-! ## Base 64 -/

/-- The value of a digit of the URL-safe alphabet. -/
def base64Value (c : Char) : Option Nat :=
  if 65 ≤ c.toNat ∧ c.toNat ≤ 90 then some (c.toNat - 65)
  else if 97 ≤ c.toNat ∧ c.toNat ≤ 122 then some (c.toNat - 71)
  else if 48 ≤ c.toNat ∧ c.toNat ≤ 57 then some (c.toNat + 4)
  else if c = '-' then some 62
  else if c = '_' then some 63
  else none

/-- `URL_SAFE_NO_PAD.decode`. -/
def base64UrlDecode : List Char → Option (List Nat)
  | a :: b :: c :: d :: rest => do
    let a ← base64Value a
    let b ← base64Value b
    let c ← base64Value c
    let d ← base64Value d
    let bytes ← base64UrlDecode rest
    pure ((a * 4 + b / 16) :: (b % 16 * 16 + c / 4) :: (c % 4 * 64 + d) :: bytes)
  | [a, b, c] => do
    let a ← base64Value a
    let b ← base64Value b
    let c ← base64Value c
    if c % 4 = 0 then pure [a * 4 + b / 16, b % 16 * 16 + c / 4] else none
  | [a, b] => do
    let a ← base64Value a
    let b ← base64Value b
    if b % 16 = 0 then pure [a * 4 + b / 16] else none
  | [_] => none
  | [] => some []

/-! ## Tokens -/

structure JwtHeader where
  alg : String
  typ : String
  deriving DecidableEq

/-- What the tokens need of the libraries. -/
structure TokenCrates where
  /-- `hmac_sha256` of a key and a message. -/
  hmac : List Nat → List Nat → List Nat
  /-- `serde_json::to_vec` of the header. -/
  encodeHeader : JwtHeader → Except String (List Nat)
  /-- `serde_json::from_slice` of the header. -/
  decodeHeader : List Nat → Except String JwtHeader
  /-- `serde_json::to_vec` of the claims. -/
  encodeClaims : PluginAuthClaims → Except String (List Nat)
  /-- `serde_json::from_slice` of the claims. -/
  decodeClaims : List Nat → Except String PluginAuthClaims

def encodeJson (bytes : Except String (List Nat)) : Except String (List Char) :=
  bytes.map base64Url

/-- `decode_json`, under the context its caller adds. -/
def decodeJson {T : Type} (fromSlice : List Nat → Except String T) (context : String)
    (value : List Char) : Except String T :=
  match base64UrlDecode value with
  | none => .error context
  | some bytes => (fromSlice bytes).mapError fun _ => context

/-- The two parts that are signed. -/
def signingInput (encodedHeader encodedClaims : List Char) : List Char :=
  encodedHeader ++ '.' :: encodedClaims

/-- The signature over them. -/
def tokenSignature (lib : TokenCrates) (signingKey : List Nat) (input : List Char) : List Nat :=
  lib.hmac signingKey (utf8Bytes (String.ofList input))

def signPluginAuthToken (lib : TokenCrates) (claims : PluginAuthClaims) (signingKey : List Nat) :
    Except String String :=
  if signingKey = [] then .error "plugin auth signing key must not be empty"
  else do
    let encodedHeader ← encodeJson (lib.encodeHeader ⟨"HS256", "JWT"⟩)
    let encodedClaims ← encodeJson (lib.encodeClaims claims)
    let input := signingInput encodedHeader encodedClaims
    pure (String.ofList (input ++ '.' :: base64Url (tokenSignature lib signingKey input)))

/-- What is checked of the three segments. -/
def verifySegments (lib : TokenCrates) (signingKey : List Nat)
    (encodedHeader encodedClaims encodedSignature : List Char) : Except String PluginAuthClaims := do
  let header ← decodeJson lib.decodeHeader "invalid JWT header" encodedHeader
  if header.alg ≠ "HS256" ∨ header.typ ≠ "JWT" then .error "unsupported JWT header"
  else
    let expected := tokenSignature lib signingKey (signingInput encodedHeader encodedClaims)
    match base64UrlDecode encodedSignature with
    | none => .error "invalid JWT signature encoding"
    | some actual =>
      if !constantTimeEq actual expected then .error "JWT signature mismatch"
      else do
        let claims ← decodeJson lib.decodeClaims "invalid JWT claims" encodedClaims
        if claims.iss ≠ "fluidbg-operator" ∨ claims.aud ≠ "fluidbg-inception-plugin" then
          .error "JWT issuer or audience mismatch"
        else .ok claims

def verifyPluginAuthToken (lib : TokenCrates) (token : String) (signingKey : List Nat) :
    Except String PluginAuthClaims :=
  if signingKey = [] then .error "plugin auth signing key must not be empty"
  else match token.toList.splitOn '.' with
    | [] => .error "JWT header missing"
    | [_] => .error "JWT claims missing"
    | [_, _] => .error "JWT signature missing"
    | [encodedHeader, encodedClaims, encodedSignature] =>
      verifySegments lib signingKey encodedHeader encodedClaims encodedSignature
    | _ => .error "JWT contains too many segments"

end FluidBG
