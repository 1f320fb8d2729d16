import FluidBG.Api
import FluidBG.Sdk
/-!
# The response of a lifecycle request on the wire

`PluginLifecycleResponse` of the SDK as one process writes it and the other one reads it, and what
the operator takes the answer of a manager for: a body of the wrong shape is not an error to it.
-/

set_option autoImplicit false

namespace FluidBG

open Lib

/-! ## Reading and writing -/

namespace AssignmentTarget

def asStr : AssignmentTarget → String
  | .green => "green"
  | .blue => "blue"
  | .test => "test"

def decode : Serde.Decoder AssignmentTarget :=
  Serde.unitEnum [("green", .green), ("blue", .blue), ("test", .test)]

end AssignmentTarget

namespace AssignmentKind

def asStr : AssignmentKind → String
  | .env => "env"

def decode : Serde.Decoder AssignmentKind := Serde.unitEnum [("env", .env)]

end AssignmentKind

namespace PropertyAssignment

def fields : Serde.Fields PropertyAssignment :=
  ((((Serde.Fields.nil PropertyAssignment.mk).required "target" AssignmentTarget.decode
    |>.required "kind" AssignmentKind.decode)
    |>.required "name" Serde.string)
    |>.required "value" Serde.string)
    |>.withDefault "containerName" (Serde.option Serde.string) none

def decode : Serde.Decoder PropertyAssignment := fields.decode false

def encode (a : PropertyAssignment) : Json :=
  .obj ((a.containerName.map fun name => ("containerName", .str name)).toList ++
    [("kind", .str a.kind.asStr), ("name", .str a.name), ("target", .str a.target.asStr),
      ("value", .str a.value)])

end PropertyAssignment

namespace InceptorEnvVar

def fields : Serde.Fields InceptorEnvVar :=
  (Serde.Fields.nil InceptorEnvVar.mk).required "name" Serde.string
    |>.required "value" Serde.string

def decode : Serde.Decoder InceptorEnvVar := fields.decode false

def encode (env : InceptorEnvVar) : Json :=
  .obj [("name", .str env.name), ("value", .str env.value)]

end InceptorEnvVar

namespace PluginLifecycleResponse

def fields : Serde.Fields PluginLifecycleResponse :=
  ((Serde.Fields.nil PluginLifecycleResponse.mk).withDefault "assignments"
      (Serde.vec PropertyAssignment.decode) []
    |>.withDefault "inceptorEnv" (Serde.vec InceptorEnvVar.decode) [])
    |>.withDefault "config" (Serde.option Serde.value) none

def decode : Serde.Decoder PluginLifecycleResponse := fields.decode false

/-- `skip_serializing_if = "Vec::is_empty"`. -/
def encodeVec (name : String) (xs : List Json) : List (String × Json) :=
  if xs.isEmpty then [] else [(name, .arr xs)]

def encode (r : PluginLifecycleResponse) : Json :=
  .obj (encodeVec "assignments" (r.assignments.map PropertyAssignment.encode) ++
    (r.config.map fun config => ("config", config)).toList ++
    encodeVec "inceptorEnv" (r.inceptorEnv.map InceptorEnvVar.encode))

end PluginLifecycleResponse

/-! ## The answer of a manager -/

/-- `response.json::<Value>()` and `from_value::<PluginLifecycleResponse>(value)`. -/
def readManagerAnswer : HttpAnswer Json → HttpAnswer (Option PluginLifecycleResponse)
  | .ok value => .ok (PluginLifecycleResponse.decode value)
  | .sendError text => .sendError text
  | .statusError text => .statusError text
  | .decodeError text => .decodeError text

end FluidBG
