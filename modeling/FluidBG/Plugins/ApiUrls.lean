import FluidBG.Plugins.BusClient
import FluidBG.Plugins.Rabbitmq
/-!
# The URLs of the management APIs

`management.rs` of the RabbitMQ plugin, the part of `servicebus.rs` that talks to ARM, and the token
request of `azure_identity.rs`, which `servicebus.rs` has once more. Names of queues, users, virtual
hosts and tenants become segments of a path, and settings become fields of a form.
-/

set_option autoImplicit false

namespace FluidBG

open Lib

/-! ## RabbitMQ -/

namespace Rabbitmq

/-- One byte of `encode_path_segment`. -/
def encodePathByte (byte : UInt8) : List Char :=
  if (65 ≤ byte && byte ≤ 90) || (97 ≤ byte && byte ≤ 122) || (48 ≤ byte && byte ≤ 57)
      || byte = 45 || byte = 46 || byte = 95 || byte = 126 then [Char.ofNat byte.toNat]
  else ['%', ServiceBus.upperHexDigit (byte.toNat / 16), ServiceBus.upperHexDigit (byte.toNat % 16)]

def encodePathSegment (value : String) : String :=
  String.ofList ((ServiceBus.asBytes value).flatMap encodePathByte)

namespace ManagementClient

/-- The URL of `create_inceptor_user` and `delete_user`. -/
def userUrl (client : ManagementClient) (username : String) : String :=
  client.baseUrl ++ "api/users/" ++ encodePathSegment username

/-- The URL that `create_inceptor_user` sets the permissions at. -/
def permissionsUrl (client : ManagementClient) (username : String) : String :=
  client.baseUrl ++ "api/permissions/" ++ encodePathSegment client.vhost ++ "/" ++
    encodePathSegment username

/-- The URL of `queue_depth`. -/
def queueUrl (client : ManagementClient) (queue : String) : String :=
  client.baseUrl ++ "api/queues/" ++ encodePathSegment client.vhost ++ "/" ++
    encodePathSegment queue

/-- The URL of `list_queues`. -/
def queuesUrl (client : ManagementClient) : String :=
  client.baseUrl ++ "api/queues/" ++ encodePathSegment client.vhost

end ManagementClient

end Rabbitmq

/-! ## Azure Service Bus -/

namespace ServiceBus

/-- The path of the queues of a namespace, as both ARM URLs begin. -/
def armQueuesPath (subscription resourceGroup ns : String) : String :=
  "https://management.azure.com/subscriptions/" ++ percentEncodeSegment subscription ++
    "/resourceGroups/" ++ percentEncodeSegment resourceGroup ++
    "/providers/Microsoft.ServiceBus/namespaces/" ++ percentEncodeSegment ns ++ "/queues"

def armApiVersion : String := "?api-version=2024-01-01"

namespace BusClient

def required (value : Option String) (name : String) : Except String String :=
  match value with
  | some value => .ok value
  | none => .error s!"missing {name}"

variable (client : BusClient) (management : ManagementConfig)

/-- The URL of `list_queues_arm`. -/
def armQueuesUrl : Except String String := do
  let subscription ← required management.subscriptionId "management.subscriptionId"
  let resourceGroup ← required management.resourceGroup "management.resourceGroup"
  pure (armQueuesPath subscription resourceGroup
    (management.namespaceName.getD client.namespaceName) ++ armApiVersion)

def armQueueUrl (queue : String) : Except String String := do
  let subscription ← required management.subscriptionId "management.subscriptionId"
  let resourceGroup ← required management.resourceGroup "management.resourceGroup"
  pure (armQueuesPath subscription resourceGroup
    (management.namespaceName.getD client.namespaceName) ++ "/" ++ percentEncodeSegment queue ++
    armApiVersion)

end BusClient

end ServiceBus

/-! ## Workload identities -/

namespace Identity

structure WorkloadIdentityConfig where
  tenantId : String
  clientId : String
  tokenFile : String
  authorityHost : String

/-- `form_urlencoded`. -/
def formUrlencoded (fields : List (String × String)) : String :=
  "&".intercalate (fields.map fun field =>
    ServiceBus.percentEncodeSegment field.1 ++ "=" ++ ServiceBus.percentEncodeSegment field.2)

namespace WorkloadIdentityConfig

def tokenUrl (config : WorkloadIdentityConfig) : String :=
  trimEndSlashes config.authorityHost ++ "/" ++
    ServiceBus.percentEncodeSegment config.tenantId ++ "/oauth2/v2.0/token"

/-- The fields of a token request. -/
def tokenFields (config : WorkloadIdentityConfig) (scope assertion : String) :
    List (String × String) :=
  [("client_id", config.clientId), ("scope", scope), ("grant_type", "client_credentials"),
    ("client_assertion_type", "urn:ietf:params:oauth:client-assertion-type:jwt-bearer"),
    ("client_assertion", trim assertion)]

/-- The body of a token request. -/
def tokenForm (config : WorkloadIdentityConfig) (scope assertion : String) : String :=
  formUrlencoded (config.tokenFields scope assertion)

end WorkloadIdentityConfig

end Identity

end FluidBG
