import FluidBG.Controller.Lease
/-!
# Work under a Lease

`run_with_lease` and `renew_until_stopped` of `controller/lease.rs`, with the configuration that
`lease_config_from_env` makes for them. The work runs beside the task that renews its Lease. Here
the program of a replica is the acquisition and, after it, that task; the work itself goes on in the
world, from where it is begun until it ends or is dropped because the Lease is lost.
-/

set_option autoImplicit false

namespace FluidBG

open Lib

/-! ## The configuration -/

/-- What an operator is started with. -/
structure OperatorEnv where
  /-- `std::env::var`. -/
  var : String → Option String
  processId : Nat

/-- `parse::<u64>`: digits, with a plus sign or without. -/
def parseU64 (value : String) : Option Nat :=
  let digits := match value.toList with
    | '+' :: rest => rest
    | chars => chars
  if digits = [] ∨ digits.any (fun c => !c.isDigit) then none
  else
    let n := digits.foldl (fun n c => n * 10 + (c.toNat - 48)) 0
    if n < 2 ^ 64 then some n else none

def envU64 (env : OperatorEnv) (name : String) (default : Nat) : Nat :=
  (((env.var name).bind parseU64).filter fun value => decide (0 < value)).getD default

def operatorIdentity (env : OperatorEnv) : String :=
  ((env.var "FLUIDBG_OPERATOR_ID").or (env.var "HOSTNAME")).getD
    s!"fluidbg-operator-{env.processId}"

/-- A `LeaseConfig` with its `renew_interval.as_secs()`. -/
structure RenewedLeaseConfig extends LeaseConfig where
  renewInterval : Nat
  deriving DecidableEq

def leaseConfigFromEnv (env : OperatorEnv) : RenewedLeaseConfig :=
  let durationSeconds := envU64 env "FLUIDBG_RECONCILE_LEASE_DURATION_SECONDS" 30
  let renewSeconds := envU64 env "FLUIDBG_RECONCILE_LEASE_RENEW_INTERVAL_SECONDS" 10
  { holderIdentity := operatorIdentity env
    duration := durationSeconds
    renewInterval :=
      if renewSeconds ≥ durationSeconds then max (durationSeconds / 3) 1 else renewSeconds }

/-! ## The program -/

inductive RunCall where
  | lease (c : LeaseCall)
  /-- The renewal is spawned, and the work begins. -/
  | begin
  /-- `sleep`, for a number of seconds. -/
  | sleep (seconds : Nat)
  /-- The `select!` of the stop signal and the sleep: whether it was the signal. -/
  | wake
  /-- `lost_tx.send`, upon which `run_with_lease` drops the work. -/
  | abort

@[reducible] def RunAnswer : RunCall → Type
  | .lease c => LeaseAnswer c
  | .wake => Bool
  | _ => Unit

abbrev RunOp := Prog RunCall RunAnswer ReconcileError

def LeaseOp.run {α : Type} (p : LeaseOp α) : RunOp α := p.lift RunCall.lease fun _ a => a

/-- `renew_until_stopped`, for as many rounds. -/
def renewUntilStopped (leaseName : String) (config : RenewedLeaseConfig) : Nat → RunOp Unit
  | 0 => pure ()
  | rounds + 1 => do
    Prog.ask (RunCall.sleep config.renewInterval)
    if ← Prog.ask RunCall.wake then pure ()
    else
      match ← (renewLease leaseName config.toLeaseConfig).run.result with
      | .ok () => renewUntilStopped leaseName config rounds
      | .error (_ : ReconcileError) => Prog.ask RunCall.abort

/-- `run_with_lease`, as far as the Lease goes. -/
def runWithLease (leaseName : String) (owner : Option OwnerReference)
    (config : RenewedLeaseConfig) (rounds : Nat) : RunOp Unit := do
  if ← (tryAcquireLease leaseName owner config.toLeaseConfig).run then do
    Prog.ask RunCall.begin
    renewUntilStopped leaseName config rounds
  else pure ()

/-! ## Replicas at work -/

/-- Work that is being done under a Lease. -/
structure LeasedWork where
  token : Nat
  leaseName : String
  holder : String
  deriving DecidableEq

structure RunMemory where
  /-- What the replica does with the Lease. -/
  job : LeaseJob
  /-- What it has written into the Lease. -/
  written : Option LeaseSpec
  /-- When its sleep is over. -/
  wake : Timestamp
  /-- Its work, once that has begun. -/
  token : Option Nat
  deriving DecidableEq

structure RunWorld where
  server : LeaseWorld
  work : List LeasedWork
  nextToken : Nat

structure RunOutcome where
  lease : LeaseOutcome
  stopped : Bool
  deriving DecidableEq

namespace RunWorld

/-- The work is over. -/
def finish (w : RunWorld) (token : Nat) : RunWorld :=
  { w with work := w.work.filter fun work => work.token ≠ token }

/-- The work has begun and is not over. -/
def isBusy (w : RunWorld) (token : Option Nat) : Bool :=
  w.work.any fun work => some work.token = token

end RunWorld

/-- The replica remembers what it knows it has written. -/
def RunMemory.wrote (x : RunMemory) : (c : LeaseCall) → LeaseAnswer c → RunMemory
  | .replace _ lease, .ok () => { x with written := lease.spec }
  | .create lease, .ok () => { x with written := lease.spec }
  | _, _ => x

def RunWorld.serve (x : RunMemory) (w : RunWorld) (o : RunOutcome) :
    (c : RunCall) → Option (RunAnswer c × RunWorld × RunMemory)
  | .lease c =>
    let (a, server) := w.server.serve x.job c o.lease
    some (a, { w with server := server }, x.wrote c a)
  | .begin =>
    let work := ⟨w.nextToken, x.job.name, x.job.config.holderIdentity⟩
    some ((), { w with work := work :: w.work, nextToken := w.nextToken + 1 },
      { x with job := .renew x.job.name x.job.config, token := some w.nextToken })
  | .sleep seconds =>
    some ((), w, { x with wake := w.server.clock + (seconds * 1000000000 : Nat) })
  | .wake =>
    -- the sender of the stop signal goes with the work
    if o.stopped then if w.isBusy x.token then none else some (true, w, x)
    else if x.wake ≤ w.server.clock then some (false, w, x) else none
  | .abort => match x.token with
    | some token => some ((), w.finish token, x)
    | none => some ((), w, x)

inductive RunMove where
  | tick (nanos : Nat)
  /-- Some work ends. A request that its renewal has sent may still be carried out. -/
  | finish (token : Nat)
  deriving DecidableEq, Repr

/-- The replicas share the API server and a clock. -/
def runServer : Shared RunCall RunAnswer RunMemory RunWorld RunOutcome RunMove where
  serve x w c o := w.serve x o c
  move w v := match v with
    | .tick nanos =>
      some { w with server := { w.server with clock := w.server.clock + nanos } }
    | .finish token => some (w.finish token)

/-- A call of `run_with_lease` by a replica. -/
structure RunJob (R : Type) where
  replica : R
  leaseName : String
  owner : Option OwnerReference
  rounds : Nat
  deriving DecidableEq

def RunJob.thread {R : Type} (env : R → OperatorEnv) (job : RunJob R) :
    Thread RunCall RunAnswer ReconcileError RunMemory :=
  let config := leaseConfigFromEnv (env job.replica)
  { prog := runWithLease job.leaseName job.owner config job.rounds
    memory := ⟨.acquire job.leaseName job.owner config.toLeaseConfig, none, 0, none⟩ }

end FluidBG
