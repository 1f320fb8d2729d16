import FluidBG.Json
import FluidBG.Lib.OrdMap
/-!
# Kubernetes objects

The objects the operator reads and writes, with the fields it reads or writes. An object served by
the API server has a name and, when its kind is namespaced, a namespace, so both are plain here.
-/

set_option autoImplicit false

namespace FluidBG

/-- Labels, annotations and label selectors made of equalities. -/
abbrev Labels := Lib.OrdMap String String

/-- A point in time, in nanoseconds. RFC 3339 text with nanoseconds round-trips it. -/
abbrev Timestamp := Int

/-- `n as i32`. -/
def asI32 (n : Int) : Int := (n + 2147483648) % 4294967296 - 2147483648

structure SecretKeySelector where
  name : String
  key : String
  optional : Option Bool
  deriving DecidableEq

structure EnvVar where
  name : String
  value : Option String
  valueFrom : Option SecretKeySelector
  deriving DecidableEq

/-- An environment variable with a literal value. -/
def EnvVar.ofValue (name : String) (value : Option String) : EnvVar :=
  { name := name, value := value, valueFrom := none }

structure KubeContainerPort where
  name : Option String
  containerPort : Int
  deriving DecidableEq

structure KubeVolumeMount where
  name : String
  mountPath : String
  readOnly : Option Bool
  deriving DecidableEq

structure Container where
  name : String
  image : Option String
  env : List EnvVar
  ports : List KubeContainerPort
  volumeMounts : List KubeVolumeMount
  deriving DecidableEq

structure Volume where
  name : String
  configMap : Option String
  deriving DecidableEq

structure PodSpec where
  containers : List Container
  volumes : List Volume
  terminationGracePeriodSeconds : Option Int
  serviceAccountName : Option String
  deriving DecidableEq

structure TemplateMeta where
  labels : Labels
  annotations : Labels
  deriving DecidableEq

structure PodTemplateSpec where
  metadata : Option TemplateMeta
  spec : Option PodSpec
  deriving DecidableEq

structure DeploymentSpec where
  replicas : Option Int
  matchLabels : Labels
  template : PodTemplateSpec
  deriving DecidableEq

structure DeploymentStatus where
  observedGeneration : Option Int
  updatedReplicas : Option Int
  availableReplicas : Option Int
  deriving DecidableEq

structure ObjectMeta where
  name : String
  ns : String
  labels : Labels
  generation : Option Int
  resourceVersion : Option Nat
  deriving DecidableEq

/-- The metadata of an object the operator builds: the API server fills in the rest. -/
def ObjectMeta.new (name ns : String) (labels : Labels) : ObjectMeta :=
  { name := name, ns := ns, labels := labels, generation := none, resourceVersion := none }

structure Deployment where
  metadata : ObjectMeta
  spec : Option DeploymentSpec
  status : Option DeploymentStatus
  deriving DecidableEq

structure ServicePort where
  name : Option String
  port : Int
  targetPort : Option Int
  deriving DecidableEq

structure ServiceSpec where
  selector : Labels
  ports : List ServicePort
  deriving DecidableEq

/-- The kinds of the objects that accompany a rollout. -/
inductive Kind where
  | service
  | configMap
  | secret
  | pod
  deriving DecidableEq, Repr

/-- A Service, ConfigMap, Secret or Pod. -/
structure Resource where
  kind : Kind
  metadata : ObjectMeta
  data : Labels
  service : Option ServiceSpec
  deriving DecidableEq

/-- How the API server refuses a request, or how the request gets lost. -/
inductive KubeError where
  | notFound (text : String)
  | conflict (text : String)
  | other (text : String)
  deriving DecidableEq, Repr

def KubeError.text : KubeError → String
  | .notFound text => text
  | .conflict text => text
  | .other text => text

/-- The name of a deployment with the namespace it lives in. -/
structure DeploymentIdentity where
  ns : String
  name : String
  deriving DecidableEq

/-- Where a deployment lives. -/
def Deployment.identity (d : Deployment) : DeploymentIdentity :=
  ⟨d.metadata.ns, d.metadata.name⟩

end FluidBG
