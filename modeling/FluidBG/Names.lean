import FluidBG.Crd
import FluidBG.Sha256
/-!
# Generated names

The names the operator derives for the objects of a rollout: a readable part, cut to the length
Kubernetes allows, and a piece of a digest.
-/

set_option autoImplicit false

namespace FluidBG

/-- `as_bytes`. -/
def utf8Bytes (s : String) : List Nat :=
  s.toUTF8.data.toList.map (·.toNat)

/-- `Sha256::digest(s.as_bytes())`. -/
def sha256Text (s : String) : List Nat :=
  Sha256.digest (utf8Bytes s)

/-- `format!("{byte:02x}")`. -/
def hexByte (byte : Nat) : String :=
  String.ofList [Nat.digitChar (byte / 16), Nat.digitChar (byte % 16)]

def hexBytes (bytes : List Nat) : String :=
  String.join (bytes.map hexByte)

/-- One character of `0..9a..z` for a byte. -/
def base36Char (byte : Nat) : Char :=
  if byte % 36 < 10 then Char.ofNat (48 + byte % 36) else Char.ofNat (97 + (byte % 36 - 10))

/-- `trim_matches('-')`. -/
def trimDashes (cs : List Char) : List Char :=
  ((cs.dropWhile (· == '-')).reverse.dropWhile (· == '-')).reverse

/-- The characters of a DNS label: every run of others becomes one dash. -/
def dashRuns : Bool → List Char → List Char
  | _, [] => []
  | lastWasDash, ch :: cs =>
    if ch.toLower.isAlphanum then ch.toLower :: dashRuns false cs
    else if lastWasDash then dashRuns true cs
    else '-' :: dashRuns true cs

def sanitizeDnsLabel (value : String) : String :=
  String.ofList (trimDashes (dashRuns false value.toList))

/-- `value.chars().take(max_len).collect()`. -/
def truncateLabel (value : String) (maxLen : Nat) : String :=
  String.ofList (value.toList.take maxLen)

/-- `part.len().to_le_bytes()` for a 64-bit length. -/
def lengthBytes (n : Nat) : List Nat :=
  (List.range 8).map fun i => (n >>> (8 * i)) % 256

/-- The first 12 hex digits of the digest of the length-prefixed parts. -/
def stableNameSuffix (parts : List String) : String :=
  let bytes := parts.flatMap fun part => lengthBytes (utf8Bytes part).length ++ utf8Bytes part
  hexBytes ((Sha256.digest bytes).take 6)

/-! ## Objects of an inception point -/

/-- The readable part of a name, `fallback` when nothing is left of it. -/
def labelOr (fallback value : String) : String :=
  let label := sanitizeDnsLabel value
  if label = "" then fallback else label

def inceptionInstanceBaseName (blueGreenRef inceptionPoint : String) : String :=
  let suffix := stableNameSuffix [blueGreenRef, inceptionPoint]
  let ip := truncateLabel (labelOr "ip" inceptionPoint) (63 - (9 + suffix.length))
  s!"fluidbg-{ip}-{suffix}"

def inceptionServiceName (blueGreenRef inceptionPoint : String) : String :=
  let suffix := stableNameSuffix [blueGreenRef, inceptionPoint]
  let ip := truncateLabel (labelOr "ip" inceptionPoint) (63 - (13 + suffix.length))
  s!"fluidbg-{ip}-{suffix}-svc"

def inceptionConfigMapName (blueGreenRef inceptionPoint : String) : String :=
  let suffix := stableNameSuffix [blueGreenRef, inceptionPoint]
  let ip := truncateLabel (labelOr "ip" inceptionPoint) (63 - (15 + 1 + suffix.length))
  s!"fluidbg-config-{ip}-{suffix}"

def inceptionAuthSecretName (blueGreenRef inceptionPoint : String) : String :=
  let suffix := stableNameSuffix [blueGreenRef, inceptionPoint]
  let ip := truncateLabel (labelOr "ip" inceptionPoint) (63 - (13 + 1 + suffix.length))
  s!"fluidbg-auth-{ip}-{suffix}"

/-! ## Objects of a test -/

def testInstanceName (bgd : BlueGreenDeployment) (logicalName : String) : String :=
  let uid := bgd.metadata.uid.getD ""
  let digest := sha256Text s!"{bgd.metadata.name}:{uid}:{logicalName}"
  let suffix := String.ofList ((digest.take 12).map base36Char)
  let logical := truncateLabel (labelOr "test" logicalName) (63 - (13 + suffix.length + 1))
  s!"fluidbg-test-{logical}-{suffix}"

def verifierAuthSecretName (bgd : BlueGreenDeployment) : String :=
  let uid := bgd.metadata.uid.getD ""
  let digest := sha256Text s!"{bgd.metadata.name}:{uid}:verifier-auth"
  let suffix := hexBytes (digest.take 6)
  let trimmed := truncateLabel (labelOr "bgd" bgd.metadata.name) (63 - (22 + suffix.length + 1))
  s!"fluidbg-verifier-auth-{trimmed}-{suffix}"

/-! ## The candidate -/

/-- `current_rollout_generation`. -/
def currentRolloutGeneration (bgd : BlueGreenDeployment) : Int :=
  (bgd.rolloutGeneration.or bgd.metadata.generation).getD 0

/-- `candidate_ref`. -/
def candidateRef (bgd : BlueGreenDeployment) : DeploymentRef where
  name := bgd.generatedDeploymentName.getD s!"{bgd.metadata.name}-pending"
  ns := bgd.spec.deployment.ns

def generatedCandidateNameSeed (bgd : BlueGreenDeployment) : String :=
  let uid := bgd.metadata.uid.getD ""
  let generation := currentRolloutGeneration bgd
  s!"{bgd.metadata.name}:{uid}:{generation}"

def candidateNameWithSuffix (base suffix : String) : String :=
  let trimmedBase := truncateLabel base (253 - (suffix.length + 1))
  s!"{trimmedBase}-{suffix}"

/-- The suffix of one attempt at a candidate name. -/
def candidateSuffix (seed : String) (attempt : Nat) : String :=
  String.ofList (((sha256Text s!"{seed}:{attempt}").take 6).map base36Char)

def deterministicCandidateSuffixes (seed : String) : List String :=
  (List.range 32).map (candidateSuffix seed)

/-! ## The rollout spec snapshot -/

def rolloutSpecSnapshotName (bgd : BlueGreenDeployment) (ns : String) : String :=
  let name := bgd.metadata.name
  let uid := bgd.metadata.uid.getD "unknown"
  let suffix := hexBytes ((sha256Text s!"{ns}/{name}/{uid}").take 6)
  let safeName := name.toList.map fun ch =>
    if ch.isAlphanum || ch == '-' then ch.toLower else '-'
  let truncated := String.ofList ((trimDashes safeName).take (253 - (suffix.length + 1)))
  let base := if truncated = "" then "fluidbg-rollout" else truncated
  s!"{base}-{suffix}"

/-! ## Keys -/

def blueGreenStateKey (ns name : String) : String :=
  s!"{ns}/{name}"

/-- `deployment_namespace`. -/
def deploymentNamespace (ref : DeploymentRef) (defaultNamespace : String) : String :=
  ref.ns.getD defaultNamespace

/-- `deployment_namespace_spec`. -/
def deploymentNamespaceSpec (spec : ManagedDeploymentSpec) (defaultNamespace : String) : String :=
  spec.ns.getD defaultNamespace

example : hexBytes (sha256Text "abc") =
    "ba7816bf8f01cfea414140de5dae2223b00361a396177a9cb410ff61f20015ad" := by decide +kernel

end FluidBG
