import FluidBG.Names
/-!
# Plugins: requests, templates and the objects of an inception point

The SDK's request and response types, `plugins/template.rs`, `plugins/schema.rs`, `validation.rs`
and `plugins/reconciler.rs`. What libraries outside the repository compute is collected in
`Crates`, over which the whole operator is parametrised.
-/

set_option autoImplicit false

namespace FluidBG

/-! ## SDK types -/

inductive AssignmentTarget where
  | green
  | blue
  | test
  deriving DecidableEq, Repr

inductive AssignmentKind where
  | env
  deriving DecidableEq, Repr

structure PropertyAssignment where
  target : AssignmentTarget
  kind : AssignmentKind
  name : String
  value : String
  containerName : Option String
  deriving DecidableEq

structure InceptorEnvVar where
  name : String
  value : String
  deriving DecidableEq

structure PluginLifecycleResponse where
  assignments : List PropertyAssignment
  inceptorEnv : List InceptorEnvVar
  config : Option Json

/-- `PluginLifecycleResponse::default`. -/
def PluginLifecycleResponse.empty : PluginLifecycleResponse := ⟨[], [], none⟩

structure PluginDrainStatusResponse where
  drained : Bool
  message : Option String
  deriving DecidableEq

structure ActiveInception where
  ns : String
  blueGreenRef : String
  blueGreenUid : Option String
  inceptionPoint : String
  plugin : String
  roles : List String
  config : Json

structure PluginManagerLifecycleRequest where
  ns : String
  blueGreenRef : String
  blueGreenUid : Option String
  inceptionPoint : String
  plugin : String
  roles : List String
  config : Json
  activeInceptions : List ActiveInception

structure PluginManagerSyncRequest where
  plugin : String
  activeInceptions : List ActiveInception

structure PluginAuthClaims where
  iss : String
  aud : String
  ns : String
  blueGreenRef : String
  blueGreenUid : Option String
  inceptionPoint : String
  plugin : String
  deriving DecidableEq

def PluginAuthClaims.new (ns blueGreenRef inceptionPoint plugin : String) : PluginAuthClaims where
  iss := "fluidbg-operator"
  aud := "fluidbg-inception-plugin"
  ns := ns
  blueGreenRef := blueGreenRef
  blueGreenUid := none
  inceptionPoint := inceptionPoint
  plugin := plugin

def PluginAuthClaims.newWithUid (ns blueGreenRef blueGreenUid inceptionPoint plugin : String) :
    PluginAuthClaims :=
  { PluginAuthClaims.new ns blueGreenRef inceptionPoint plugin with
    blueGreenUid := some blueGreenUid }

/-! ## What is computed outside the repository -/

/-- The libraries the operator calls for a value: serializers, the JSON schema validator and the
token signature. -/
structure Crates where
  /-- `serde_json::to_value` of a deployment spec. -/
  encodeDeploymentSpec : DeploymentSpec → Except String Json
  /-- `serde_json::from_value` of a deployment spec. -/
  decodeDeploymentSpec : Json → Except String DeploymentSpec
  /-- `serde_yaml::to_string(value).unwrap_or_default()`. -/
  yamlText : Json → String
  /-- `serde_yaml::to_string` of the spec of a BlueGreenDeployment. -/
  specYaml : BlueGreenDeploymentSpec → Except String String
  /-- `serde_yaml::from_str` of the spec of a BlueGreenDeployment. -/
  specOfYaml : String → Except String BlueGreenDeploymentSpec
  /-- `serde_json::to_string` of a map of strings. -/
  jsonText : Labels → Except String String
  /-- `jsonschema::validator_for`: the first violation of a value, for a valid schema. -/
  validatorFor : Json → Except String (Json → Option String)
  /-- `fluidbg_plugin_sdk::sign_plugin_auth_token`. -/
  signToken : PluginAuthClaims → String → Except String String
  /-- `fluidbg_plugin_sdk::verify_plugin_auth_token`. -/
  verifyToken : String → String → Except String PluginAuthClaims

/-! ## Templates -/

/-- Every occurrence of `pat` replaced by `rep`, from the left; `skip` characters of an occurrence
are still to be dropped. -/
def replaceChars (pat rep : List Char) : Nat → List Char → List Char
  | _, [] => []
  | skip + 1, _ :: cs => replaceChars pat rep skip cs
  | 0, c :: cs =>
    if pat.isPrefixOf (c :: cs) then rep ++ replaceChars pat rep (pat.length - 1) cs
    else c :: replaceChars pat rep 0 cs

/-- `template.replace(&placeholder, &replacement)` for the placeholder of `key`. -/
def replacePlaceholder (template key replacement : String) : String :=
  String.ofList (replaceChars (("\x7b\x7b" ++ key ++ "\x7d\x7d").toList) replacement.toList 0
    template.toList)

/-- The text that stands for a value in a template. -/
def Json.replacement : Json → Option String
  | .str s => some s
  | .num n => some n.text
  | .bool b => some (if b then "true" else "false")
  | _ => none

def renderConfigTemplate (template : String) (config : Json) : String :=
  match config with
  | .obj fields => fields.foldl (fun result field => match field.2.replacement with
      | some replacement => replacePlaceholder result field.1 replacement
      | none => result) template
  | _ => template

/-! ## Validation -/

/-- `role_name` and `plugin_role_name`. -/
def pluginRoleName : PluginRole → String
  | .duplicator => "duplicator"
  | .splitter => "splitter"
  | .combiner => "combiner"
  | .observer => "observer"
  | .mock => "mock"
  | .writer => "writer"
  | .consumer => "consumer"

def roleList (roles : List PluginRole) : String :=
  ", ".intercalate (roles.map pluginRoleName)

/-- The first role that occurs again later in the list. -/
def firstRepeated : List PluginRole → Option PluginRole
  | [] => none
  | role :: roles => if role ∈ roles then some role else firstRepeated roles

def validateRoles (available selected : List PluginRole) : Except String Unit :=
  if selected = [] then .error "inception point must select at least one role"
  else match firstRepeated selected with
    | some role => .error s!"role '{pluginRoleName role}' is selected more than once"
    | none => match selected.find? fun role => role ∉ available with
      | some role => .error
          s!"role '{pluginRoleName role}' is not supported by the selected plugin; supported roles: {roleList available}"
      | none => .ok ()

def validateRoleGroup (selected : List PluginRole) (group : MutuallyExclusiveRoleGroup) :
    Except String Unit :=
  let active := group.roles.filter fun role => role ∈ selected
  if active.length > 1 then
    let reason := match group.reason with
      | some reason => " " ++ reason
      | none => ""
    .error s!"unsupported role combination: roles {roleList active} are mutually exclusive for the selected plugin.{reason}"
  else .ok ()

def validateRoleConstraints (selected : List PluginRole) :
    Option PluginRoleConstraints → Except String Unit
  | none => .ok ()
  | some constraints => constraints.mutuallyExclusive.forM (validateRoleGroup selected)

def validateRoleSelection (available selected : List PluginRole)
    (constraints : Option PluginRoleConstraints) : Except String Unit := do
  validateRoles available selected
  validateRoleConstraints selected constraints

/-- One character of the `{:?}` text of a string. -/
def debugChar (c : Char) : List Char :=
  if c = '"' ∨ c = '\\' then ['\\', c]
  else if c = '\n' then ['\\', 'n']
  else if c = '\r' then ['\\', 'r']
  else if c = '\t' then ['\\', 't']
  else [c]

/-- The `{:?}` text of a list of strings. -/
def debugStrings (xs : List String) : String :=
  "[" ++ ", ".intercalate (xs.map fun s => "\"" ++ String.ofList (s.toList.flatMap debugChar) ++ "\"")
    ++ "]"

/-- The part of a field before its first dot. -/
def fieldNamespace (field : String) : String :=
  String.ofList (field.toList.takeWhile (· ≠ '.'))

/-- `validate_field_namespace`, which nothing calls. -/
def validateFieldNamespace (field : String) (supportedNamespaces : List String) :
    Except String Unit :=
  if fieldNamespace field ∈ supportedNamespaces then .ok ()
  else .error
    s!"field '{field}' uses namespace '{fieldNamespace field}' which is not in supported namespaces: {debugStrings supportedNamespaces}"

variable (crates : Crates)

def validateConfigAgainstSchema (config schema : Json) : Except (List String) Unit :=
  match crates.validatorFor schema with
  | .error e => .error [s!"invalid schema: {e}"]
  | .ok firstError => match firstError config with
    | none => .ok ()
    | some e => .error [e]

def validateInceptionPoint (plugin : InceptionPlugin) (ip : InceptionPoint) : Except String Unit := do
  validateRoleSelection plugin.spec.supportedRoles ip.roles plugin.spec.roleConstraints
  match validateConfigAgainstSchema crates ip.config plugin.spec.configSchema with
  | .ok () => .ok ()
  | .error errs => .error s!"config validation failed: {debugStrings errs}"

end FluidBG
