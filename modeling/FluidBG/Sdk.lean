import FluidBG.HttpApi
import FluidBG.Lib.Serde
/-!
# The plugin SDK

`sdk/rust/src`: what the plugins share. The roles of an inceptor, the names derived for its queues,
subjects and users, the observer's configuration with its filters, and the check of a request to a
manager against the claims of its token.
-/

set_option autoImplicit false

namespace FluidBG

open Lib

/-! ## Roles -/

/-- The characters `str::trim` removes. -/
def isWhiteSpace (c : Char) : Bool :=
  let n := c.toNat
  (9 ≤ n && n ≤ 13) || n = 32 || n = 0x85 || n = 0xa0 || n = 0x1680 || (0x2000 ≤ n && n ≤ 0x200a) ||
    n = 0x2028 || n = 0x2029 || n = 0x202f || n = 0x205f || n = 0x3000

/-- `str::trim`. -/
def trim (s : String) : String :=
  String.ofList ((s.toList.dropWhile isWhiteSpace).reverse.dropWhile isWhiteSpace).reverse

namespace PluginRole

def parse (value : String) : Option PluginRole :=
  match trim value with
  | "duplicator" => some .duplicator
  | "splitter" => some .splitter
  | "combiner" => some .combiner
  | "observer" => some .observer
  | "mock" => some .mock
  | "writer" => some .writer
  | "consumer" => some .consumer
  | _ => none

end PluginRole

def parseRoles (roles : List String) : List PluginRole :=
  roles.filterMap PluginRole.parse

def hasRole (roles : List PluginRole) (role : PluginRole) : Bool := role ∈ roles

inductive QueueWorkerRole where
  | input
  | combiner
  deriving DecidableEq, Repr

/-- `queue_worker_role`; the error is the list of the roles that exclude each other. -/
def queueWorkerRole (roles : List PluginRole) : Except (List PluginRole) (Option QueueWorkerRole) :=
  let movementRoles : List PluginRole := [.duplicator, .splitter, .combiner, .consumer]
  let active := movementRoles.filter fun role => role ∈ roles
  if active.length > 1 then .error active
  else .ok (match active.head? with
    | some .combiner => some .combiner
    | some _ => some .input
    | none => none)

/-! ## Derived names -/

def maxDerivedQueueNameLen : Nat := 63

def stableSuffixLen : Nat := 16

/-- The first 16 hex digits of the digest of the length-prefixed parts. -/
def stableSuffix (parts : List String) : String :=
  let bytes := parts.flatMap fun part => lengthBytes (utf8Bytes part).length ++ utf8Bytes part
  hexBytes ((Sha256.digest bytes).take 8)

def sanitizeIdentifier (value : String) : String :=
  String.ofList ((value.toList.map (·.toLower)).filter (·.isAlphanum))

def temporaryQueueIdentifierToken (value : String) : Option String :=
  let normalized := sanitizeIdentifier value
  if normalized = "" then none
  else
    let suffix := (stableSuffix [value]).toList.take 4
    let prefixLen := 10 - suffix.length
    some (String.ofList (normalized.toList.take prefixLen ++ suffix))

def tempQueueKind (logical : String) : String :=
  match logical with
  | "green-input" => "green-in"
  | "blue-input" => "blue-in"
  | "green-output" => "green-out"
  | "blue-output" => "blue-out"
  | _ => "tmp"

def derivedTempQueueNameWithUidAndIdentifier (ns blueGreenRef blueGreenUid inceptionPoint role
    logical : String) (temporaryQueueIdentifier : Option String) : String :=
  let identifier := temporaryQueueIdentifier.bind temporaryQueueIdentifierToken
  let suffix := stableSuffix
    [ns, blueGreenRef, blueGreenUid, inceptionPoint, role, logical, identifier.getD ""]
  match identifier with
  | some identifier => s!"fluidbg-{tempQueueKind logical}-{identifier}-{suffix}"
  | none => s!"fluidbg-{tempQueueKind logical}-{suffix}"

def isShadowPunctuation (c : Char) : Bool := c = '-' || c = '_' || c = '.'

def sanitizeShadowSuffix (value : String) : String :=
  String.ofList ((value.toList.filter fun ch => ch.isAlphanum || isShadowPunctuation ch).take 24)

/-- `name.rsplit_once('-')`. -/
def rsplitDash (name : String) : Option (String × String) :=
  let reversed := name.toList.reverse
  match reversed.dropWhile (· ≠ '-') with
  | [] => none
  | _ :: before => some (String.ofList before.reverse,
      String.ofList (reversed.takeWhile (· ≠ '-')).reverse)

def isHexDigit (c : Char) : Bool :=
  c.isDigit || ('a' ≤ c && c ≤ 'f') || ('A' ≤ c && c ≤ 'F')

def stableSuffixFromName (name : String) : Option (String × String) :=
  match rsplitDash name with
  | none => none
  | some (before, suffix) =>
    if (utf8Bytes suffix).length = stableSuffixLen && suffix.toList.all isHexDigit then
      some (before, suffix)
    else none

def derivedShadowQueueName (tempQueueName shadowSuffix : String) : String :=
  let shadowSuffix := sanitizeShadowSuffix shadowSuffix
  if shadowSuffix.toList.all isShadowPunctuation then tempQueueName
  else if tempQueueName.length + shadowSuffix.length ≤ maxDerivedQueueNameLen then
    tempQueueName ++ shadowSuffix
  else match stableSuffixFromName tempQueueName with
    | some (before, suffix) =>
      let budget := max (maxDerivedQueueNameLen - (shadowSuffix.length + 1 + suffix.length)) 1
      let trimmed := (before.toList.reverse.dropWhile isShadowPunctuation).reverse
      s!"{String.ofList (trimmed.take budget)}{shadowSuffix}-{suffix}"
    | none =>
      let budget := maxDerivedQueueNameLen - shadowSuffix.length
      String.ofList (tempQueueName.toList.take budget) ++ shadowSuffix

/-- `sanitize`: a DNS label of at most 38 characters. -/
def sanitize (value : String) : String :=
  let trimmed := sanitizeDnsLabel value
  if trimmed = "" then "queue" else String.ofList (trimmed.toList.take 38)

def derivedScopedIdentityName (before ns blueGreenRef blueGreenUid inceptionPoint : String)
    (maxLen : Nat) : String :=
  let suffix := stableSuffix [ns, blueGreenRef, blueGreenUid, inceptionPoint]
  let budget := max (maxLen - (suffix.length + 2)) 1
  let readable := String.ofList
    ((sanitize s!"{ns}-{blueGreenRef}-{inceptionPoint}").toList.take budget)
  String.ofList (s!"{sanitize before}-{readable}-{suffix}".toList.take maxLen)

/-! ## Requests to a manager -/

def managerRequestMatchesClaims (req : PluginManagerLifecycleRequest) (claims : PluginAuthClaims) :
    Bool :=
  req.ns = claims.ns && req.blueGreenRef = claims.blueGreenRef &&
    req.inceptionPoint = claims.inceptionPoint && req.plugin = claims.plugin &&
    req.blueGreenUid = claims.blueGreenUid

/-- `verify_manager_bearer_token`. -/
def verifyManagerBearerToken (crates : Crates) (headerValue : Option String)
    (signingKey : String) : Except String PluginAuthClaims :=
  match headerValue with
  | none => .error "missing authorization header"
  | some headerValue => match bearerToken headerValue with
    | none => .error "missing bearer token"
    | some token => crates.verifyToken token signingKey

/-- The status codes a plugin answers with when it refuses a request. -/
inductive StatusCode where
  | badRequest
  | unauthorized
  | internalServerError
  | serviceUnavailable
  deriving DecidableEq, Repr

/-- `queue_worker_role(&roles)` of a request, as the managers map its error. -/
def checkRoles (roles : List PluginRole) : Except StatusCode Unit :=
  match queueWorkerRole roles with
  | .ok _ => .ok ()
  | .error _ => .error .badRequest

/-- `require_manager_request_matches_claims`, as the managers map its error. -/
def ensureRequestMatchesClaims (req : PluginManagerLifecycleRequest) (claims : PluginAuthClaims) :
    Except StatusCode Unit :=
  if managerRequestMatchesClaims req claims then .ok () else .error .unauthorized

def ensureSyncRequestMatchesClaims (req : PluginManagerSyncRequest) (claims : PluginAuthClaims) :
    Except StatusCode Unit :=
  if claims.blueGreenRef = "__manager_sync__" ∧ claims.inceptionPoint = "__manager_sync__" ∧
      claims.plugin = req.plugin then .ok ()
  else .error .unauthorized

/-- The two requests that carry the claims of an inception. -/
inductive LifecycleRequest where
  | prepare
  | cleanup
  deriving DecidableEq

/-! ## Calls to what a plugin works on -/

/-- How a call to a broker ends. -/
inductive CallOutcome where
  | ok
  /-- The call has no effect and ends in an error. -/
  | refused
  /-- The call is carried out, but its answer is lost. -/
  | lost
  deriving DecidableEq

/-- The answer and the world after a call that has the effect `after`. -/
def CallOutcome.answer {α W : Type} (o : CallOutcome) (a : α) (w after : W) :
    Except Unit α × W :=
  match o with
  | .ok => (.ok a, after)
  | .refused => (.error (), w)
  | .lost => (.error (), after)

/-! ## Observers -/

structure TestIdSelector where
  field : Option String
  jsonPath : Option String
  pathSegment : Option Int
  value : Option String
  deriving DecidableEq

structure FilterCondition where
  field : String
  equals : Option String
  matchesPattern : Option String
  jsonPath : Option String
  deriving DecidableEq

structure ObserverConfig where
  testId : Option TestIdSelector
  conditions : List FilterCondition
  notifyPath : Option String
  deriving DecidableEq

namespace TestIdSelector

def fields : Serde.Fields TestIdSelector :=
  (((Serde.Fields.nil TestIdSelector.mk).withDefault "field" (Serde.option Serde.string) none
    |>.withDefault "jsonPath" (Serde.option Serde.string) none)
    |>.withDefault "pathSegment" (Serde.option Serde.i32) none)
    |>.withDefault "value" (Serde.option Serde.string) none

def decode : Serde.Decoder TestIdSelector := fields.decode false

end TestIdSelector

namespace FilterCondition

def fields : Serde.Fields FilterCondition :=
  (((Serde.Fields.nil FilterCondition.mk).required "field" Serde.string
    |>.withDefault "equals" (Serde.option Serde.string) none)
    |>.withDefault "matches" (Serde.option Serde.string) none)
    |>.withDefault "jsonPath" (Serde.option Serde.string) none

def decode : Serde.Decoder FilterCondition := fields.decode false

end FilterCondition

namespace ObserverConfig

def fields : Serde.Fields ObserverConfig :=
  ((Serde.Fields.nil ObserverConfig.mk).withDefault "testId"
      (Serde.option TestIdSelector.decode) none
    |>.withDefault "match" (Serde.vec FilterCondition.decode) [])
    |>.withDefault "notifyPath" (Serde.option Serde.string) none

def decode : Serde.Decoder ObserverConfig := fields.decode false

end ObserverConfig

inductive TrafficRoute where
  | blue
  | green
  | both
  | unknown
  deriving DecidableEq, Repr

def TrafficRoute.shouldRegisterCase (route : TrafficRoute) : Bool := route ≠ .green

/-- `path.split('.')`. -/
def splitDots : List Char → List String
  | [] => [""]
  | c :: cs => match splitDots cs with
    | [] => [""]
    | part :: parts => if c = '.' then "" :: part :: parts
      else String.ofList (c :: part.toList) :: parts

/-- `path.strip_prefix(c).unwrap_or(path)`. -/
def stripPrefixChar (c : Char) : List Char → List Char
  | [] => []
  | d :: cs => if d = c then cs else d :: cs

/-- `extract_json_path`. -/
def extractJsonPath (value : Json) (path : String) : Option String :=
  let stripped := stripPrefixChar '.' (stripPrefixChar '$' path.toList)
  let found := (splitDots stripped).foldl (fun current key => current.bind (Json.get key))
    (some value)
  found.bind fun
    | .str s => some s
    | .num n => some n.text
    | .bool b => some (if b then "true" else "false")
    | _ => none

/-- `condition_matches`; the regex crate is a parameter, which says nothing for a bad pattern. -/
def conditionMatches (isMatch : String → String → Option Bool) (value : Option String)
    (condition : FilterCondition) : Bool :=
  match value with
  | none => false
  | some value => match condition.equals with
    | some expected => value = expected
    | none => match condition.matchesPattern with
      | some pattern => (isMatch pattern value).getD false
      | none => true

example : derivedShadowQueueName "fluidbg-blue-in-1234567890abcdef" "_dlq" =
    "fluidbg-blue-in-1234567890abcdef_dlq" := by decide +kernel

end FluidBG
