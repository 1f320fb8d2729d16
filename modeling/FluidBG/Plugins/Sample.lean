import FluidBG.Plugins.TempNames
import FluidBG.Plugins.Worker
import FluidBG.Sample
/-!
# A request to a manager, and an inceptor

The token of one inception of the application `shop`, what its holder may send with it, and what its
inceptor runs on.
-/

set_option autoImplicit false

namespace FluidBG.Sample

def ordersClaims : PluginAuthClaims :=
  PluginAuthClaims.newWithUid "default" "shop" "uid-1" "orders" "queues"

/-- The claims of an inception of somebody else. -/
def otherClaims : PluginAuthClaims :=
  PluginAuthClaims.newWithUid "billing" "invoices" "uid-2" "incoming" "queues"

/-- The libraries with a signature that is the name of the inception point. -/
def managerCrates : Crates :=
  { crates with
    verifyToken := fun token key =>
      if token = "orders" ∧ key = "signing-key" then .ok ordersClaims
      else .error "JWT signature mismatch" }

/-- A request that matches the claims; the rest of it is the sender's to choose. -/
def request (roles : List String) (config : Json) (active : List ActiveInception) :
    PluginManagerLifecycleRequest where
  ns := "default"
  blueGreenRef := "shop"
  blueGreenUid := some "uid-1"
  inceptionPoint := "orders"
  plugin := "queues"
  roles := roles
  config := config
  activeInceptions := active

/-- The entry of the inception of these claims in an inventory. -/
def active (claims : PluginAuthClaims) (roles : List String) (config : Json) : ActiveInception where
  ns := claims.ns
  blueGreenRef := claims.blueGreenRef
  blueGreenUid := claims.blueGreenUid
  inceptionPoint := claims.inceptionPoint
  plugin := claims.plugin
  roles := roles
  config := config

/-- The libraries of a worker, for messages with an order. -/
def workerCrates : WorkerCrates where
  parseSlice _ := some (.obj [("orderId", .str "42")])
  parseLossy _ := some (.obj [("orderId", .str "42")])
  jsonText _ := "\x7b\"orderId\":\"42\"\x7d"
  hash _ := 7
  isMatch _ _ := some true

def workerRuntime : InceptorRuntime where
  testcaseRegistrationUrl := "http://operator/testcases"
  testContainerUrl := "http://verifier"
  testcaseVerifyPathTemplate := none
  inceptionPoint := "orders"
  blueGreenRef := "shop"
  authToken := some "token"

/-- A message with an order. -/
def order : Message := ⟨[123, 125], []⟩

end FluidBG.Sample
