import FluidBG.Promotion
import FluidBG.Lib.Pool
/-!
# Leases

`controller/lease.rs`: how a replica takes the Lease that guards a reconcile, and how it renews it.
Both read the object, look at the clock and write the object back. The calls are of a type of their
own, since nothing else in the operator touches a Lease.
-/

set_option autoImplicit false

namespace FluidBG

open Lib

structure OwnerReference where
  apiVersion : String
  kind : String
  name : String
  uid : String
  blockOwnerDeletion : Option Bool
  controller : Option Bool
  deriving DecidableEq

structure LeaseSpec where
  acquireTime : Option Timestamp
  holderIdentity : Option String
  leaseDurationSeconds : Option Int
  leaseTransitions : Option Int32
  renewTime : Option Timestamp
  deriving DecidableEq

structure Lease where
  name : String
  ownerReferences : List OwnerReference
  resourceVersion : Option Nat
  spec : Option LeaseSpec
  deriving DecidableEq

structure LeaseConfig where
  holderIdentity : String
  /-- `duration.as_secs()`. -/
  duration : Nat
  deriving DecidableEq

inductive LeaseCall where
  | get (name : String)
  | replace (name : String) (lease : Lease)
  | create (lease : Lease)
  | now

@[reducible] def LeaseAnswer : LeaseCall → Type
  | .get _ => Except KubeError Lease
  | .replace _ _ => Except KubeError Unit
  | .create _ => Except KubeError Unit
  | .now => Timestamp

abbrev LeaseOp := Prog LeaseCall LeaseAnswer ReconcileError

def LeaseOp.ask (c : LeaseCall) : LeaseOp (LeaseAnswer c) := Prog.ask c

/-! ## What a Lease says -/

/-- `i32::try_from(duration.as_secs()).unwrap_or(i32::MAX).max(1)`. -/
def leaseDurationSeconds (seconds : Nat) : Int :=
  max (if seconds ≤ 2147483647 then (seconds : Int) else 2147483647) 1

def leaseExpired (spec : LeaseSpec) : LeaseOp Bool :=
  match spec.renewTime.or spec.acquireTime with
  | none => pure true
  | some renewTime =>
    let durationSeconds := spec.leaseDurationSeconds.getD 0
    if durationSeconds ≤ 0 then pure true
    else do
      let now ← LeaseOp.ask .now
      pure (decide (now - renewTime ≥ durationSeconds * 1000000000))

def leaseCanBeAcquired (lease : Lease) (config : LeaseConfig) : LeaseOp Bool :=
  match lease.spec with
  | none => pure true
  | some spec =>
    if spec.holderIdentity = some config.holderIdentity then pure true
    else leaseExpired spec

def transitionIncrement (lease : Lease) (config : LeaseConfig) : Int32 :=
  if lease.spec.bind (·.holderIdentity) = some config.holderIdentity then 0 else 1

/-- `lease_spec` at a reading of the clock. -/
def leaseSpecAt (config : LeaseConfig) (transitions : Int32) (acquired : Bool) (now : Timestamp) :
    LeaseSpec where
  acquireTime := if acquired then some now else none
  holderIdentity := some config.holderIdentity
  leaseDurationSeconds := some (leaseDurationSeconds config.duration)
  leaseTransitions := some transitions
  renewTime := some now

def leaseSpec (config : LeaseConfig) (transitions : Int32) (acquired : Bool) :
    LeaseOp LeaseSpec := do
  let now ← LeaseOp.ask .now
  pure (leaseSpecAt config transitions acquired now)

/-- `spec.lease_transitions`, 0 when there is none. -/
def leaseTransitions (lease : Lease) : Int32 := (lease.spec.bind (·.leaseTransitions)).getD 0

/-! ## Acquiring and renewing -/

/-- `map(|_| true).or_else(conflict_means_not_acquired)`. -/
def conflictMeansNotAcquired : Except KubeError Unit → LeaseOp Bool
  | .ok () => pure true
  | .error (.conflict _) => pure false
  | .error other => .fail (.k8s other)

/-- The Lease a replica creates. -/
def newLease (leaseName : String) (owner : Option OwnerReference) (spec : LeaseSpec) : Lease where
  name := leaseName
  ownerReferences := owner.toList
  resourceVersion := none
  spec := some spec

/-- `try_acquire_lease` where the Lease exists. -/
def takeOver (leaseName : String) (config : LeaseConfig) (lease : Lease) : LeaseOp Bool := do
  if ← leaseCanBeAcquired lease config then
    let spec ← leaseSpec config (leaseTransitions lease + transitionIncrement lease config) true
    conflictMeansNotAcquired
      (← LeaseOp.ask (.replace leaseName { lease with spec := some spec }))
  else pure false

def tryAcquireLease (leaseName : String) (owner : Option OwnerReference) (config : LeaseConfig) :
    LeaseOp Bool := do
  match ← LeaseOp.ask (.get leaseName) with
  | .ok lease => takeOver leaseName config lease
  | .error (.notFound _) =>
    let spec ← leaseSpec config 0 true
    conflictMeansNotAcquired (← LeaseOp.ask (.create (newLease leaseName owner spec)))
  | .error error => .fail (.k8s error)

def renewLease (leaseName : String) (config : LeaseConfig) : LeaseOp Unit := do
  match ← LeaseOp.ask (.get leaseName) with
  | .error error => .fail (.k8s error)
  | .ok lease =>
    if lease.spec.bind (·.holderIdentity) = some config.holderIdentity then
      let spec ← leaseSpec config (leaseTransitions lease) false
      match ← LeaseOp.ask (.replace leaseName { lease with spec := some spec }) with
      | .ok () => pure ()
      | .error error => .fail (.k8s error)
    else .fail (.lease s!"lease '{leaseName}' is no longer held by this operator")

/-! ## Replicas -/

/-- What a replica does with a Lease. -/
inductive LeaseJob where
  | acquire (name : String) (owner : Option OwnerReference) (config : LeaseConfig)
  | renew (name : String) (config : LeaseConfig)
  deriving DecidableEq

namespace LeaseJob

def name : LeaseJob → String
  | .acquire name _ _ => name
  | .renew name _ => name

def config : LeaseJob → LeaseConfig
  | .acquire _ _ config => config
  | .renew _ config => config

/-- The attempt, which remembers what it is an attempt at. -/
def thread : LeaseJob → Thread LeaseCall LeaseAnswer ReconcileError LeaseJob
  | .acquire name owner config =>
    ⟨do let _ ← tryAcquireLease name owner config; pure (), .acquire name owner config⟩
  | .renew name config => ⟨renewLease name config, .renew name config⟩

end LeaseJob

/-! ## The API server -/

/-- A successful write of a Lease: by whom, and what. -/
structure LeaseWrite where
  writer : String
  spec : Option LeaseSpec
  deriving DecidableEq

structure LeaseWorld where
  leases : String → Option Lease
  clock : Timestamp
  /-- The resource version of the next write. -/
  nextVersion : Nat
  /-- The last successful write of each Lease. -/
  lastWrite : String → Option LeaseWrite

namespace LeaseWorld

/-- The Lease under this name with a new resource version. -/
def write (w : LeaseWorld) (writer name : String) (lease : Lease) : LeaseWorld :=
  { w with
    leases := Function.update w.leases name
      (some { lease with name := name, resourceVersion := some w.nextVersion })
    nextVersion := w.nextVersion + 1
    lastWrite := Function.update w.lastWrite name (some ⟨writer, lease.spec⟩) }

def replace (w : LeaseWorld) (writer name : String) (lease : Lease) :
    Except KubeError Unit × LeaseWorld :=
  match w.leases name with
  | none => (.error (.notFound s!"leases \"{name}\" not found"), w)
  | some stored =>
    if lease.resourceVersion = none ∨ lease.resourceVersion = stored.resourceVersion then
      (.ok (), w.write writer name lease)
    else (.error (.conflict s!"leases \"{name}\" has been modified"), w)

def create (w : LeaseWorld) (writer : String) (lease : Lease) : Except KubeError Unit × LeaseWorld :=
  match w.leases lease.name with
  | none => (.ok (), w.write writer lease.name lease)
  | some _ => (.error (.conflict s!"leases \"{lease.name}\" already exists"), w)

end LeaseWorld

/-- How a call is answered. -/
inductive LeaseOutcome where
  | ok
  /-- The call has no effect and ends in an error. -/
  | refused (text : String)
  /-- The call is carried out, but its answer is lost. -/
  | lost (text : String)
  deriving DecidableEq

namespace LeaseWorld

def respond {α : Type} (w : LeaseWorld) (o : LeaseOutcome) (r : Except KubeError α × LeaseWorld) :
    Except KubeError α × LeaseWorld :=
  match o with
  | .ok => r
  | .refused text => (.error (.other text), w)
  | .lost text => (.error (.other text), r.2)

def serve (job : LeaseJob) (w : LeaseWorld) (c : LeaseCall) (o : LeaseOutcome) :
    LeaseAnswer c × LeaseWorld :=
  match c with
  | .get name => w.respond o (match w.leases name with
    | some lease => .ok lease
    | none => .error (.notFound s!"leases \"{name}\" not found"), w)
  | .replace name lease => w.respond o (w.replace job.config.holderIdentity name lease)
  | .create lease => w.respond o (w.create job.config.holderIdentity lease)
  | .now => (w.clock, w)

end LeaseWorld

/-- The replicas share the API server and a clock. -/
def leaseServer : Shared LeaseCall LeaseAnswer LeaseJob LeaseWorld LeaseOutcome Nat where
  serve job w c o :=
    let (a, w') := w.serve job c o
    some (a, w', job)
  move w nanos := some { w with clock := w.clock + nanos }

end FluidBG
