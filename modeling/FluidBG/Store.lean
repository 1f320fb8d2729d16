import FluidBG.Kube
/-!
# The state store

The registered test cases, as `MemoryStore` keeps them: records under the key of their rollout and
test id. A `HashMap` has no order of its own; here the records stand in the order of registration.
-/

set_option autoImplicit false

namespace FluidBG

inductive TestStatus where
  | triggered
  | observing
  | passed
  | failed
  | timedOut
  deriving DecidableEq, Repr

inductive VerificationMode where
  | data
  | custom
  deriving DecidableEq, Repr

structure TestCaseRecord where
  testId : String
  blueGreenRef : String
  triggeredAt : Timestamp
  sourceInceptionPoint : String
  timeout : Int
  status : TestStatus
  verdict : Option Bool
  verificationMode : VerificationMode
  verifyUrl : String
  verifierAuthToken : String
  retriesRemaining : Int
  failureMessage : Option String
  deriving DecidableEq

namespace TestCaseRecord

def expiresAt (run : TestCaseRecord) : Timestamp := run.triggeredAt + run.timeout

def isPending (run : TestCaseRecord) : Bool :=
  match run.status with
  | .triggered | .observing => true
  | _ => false

def isFinalized (run : TestCaseRecord) : Bool :=
  match run.status with
  | .passed | .failed | .timedOut => true
  | _ => false

end TestCaseRecord

structure Counts where
  passed : Int
  failed : Int
  timedOut : Int
  pending : Int
  deriving DecidableEq, Repr

/-- `Counts::default`. -/
def Counts.zero : Counts := ⟨0, 0, 0, 0⟩

/-- What the store answers when it refuses. -/
inductive StoreError where
  | notFound (testId : String)
  | other (text : String)
  deriving DecidableEq, Repr

def StoreError.text : StoreError → String
  | .notFound testId => s!"not found: {testId}"
  | .other text => text

/-- `record_key`, with the unit separator between its parts. -/
def recordKey (blueGreenRef testId : String) : String :=
  blueGreenRef ++ String.singleton (Char.ofNat 31) ++ testId

def countsForRuns (runs : List TestCaseRecord) : Counts :=
  runs.foldl (fun counts run => match run.status with
    | .passed => { counts with passed := counts.passed + 1 }
    | .failed => { counts with failed := counts.failed + 1 }
    | .timedOut => { counts with timedOut := counts.timedOut + 1 }
    | .triggered | .observing => { counts with pending := counts.pending + 1 }) Counts.zero

/-- The records of all rollouts. -/
structure MemoryStore where
  records : List TestCaseRecord
  deriving DecidableEq

namespace MemoryStore

def find (store : MemoryStore) (blueGreenRef testId : String) : Option TestCaseRecord :=
  store.records.find? fun run => recordKey run.blueGreenRef run.testId = recordKey blueGreenRef testId

def get (store : MemoryStore) (blueGreenRef testId : String) : Option TestCaseRecord :=
  store.find blueGreenRef testId

/-- The store with `f` applied to the record of `(blueGreenRef, testId)`. -/
def modify (store : MemoryStore) (blueGreenRef testId : String)
    (f : TestCaseRecord → TestCaseRecord) : MemoryStore :=
  ⟨store.records.map fun run =>
    if recordKey run.blueGreenRef run.testId = recordKey blueGreenRef testId then f run else run⟩

/-- What a second registration of a pending case changes. -/
def mergeRegistration (existing run : TestCaseRecord) : TestCaseRecord where
  testId := existing.testId
  blueGreenRef := existing.blueGreenRef
  triggeredAt := if run.triggeredAt < existing.triggeredAt then run.triggeredAt
    else existing.triggeredAt
  sourceInceptionPoint := if existing.sourceInceptionPoint = "" then run.sourceInceptionPoint
    else existing.sourceInceptionPoint
  timeout := if run.timeout > existing.timeout then run.timeout else existing.timeout
  status := existing.status
  verdict := existing.verdict
  verificationMode := existing.verificationMode
  verifyUrl := if existing.verifyUrl = "" ∧ run.verifyUrl ≠ "" then run.verifyUrl
    else existing.verifyUrl
  verifierAuthToken := if existing.verifierAuthToken = "" ∧ run.verifierAuthToken ≠ ""
    then run.verifierAuthToken else existing.verifierAuthToken
  retriesRemaining := existing.retriesRemaining
  failureMessage := existing.failureMessage

def register (store : MemoryStore) (run : TestCaseRecord) : MemoryStore :=
  match store.find run.blueGreenRef run.testId with
  | some existing =>
    if existing.isFinalized then store
    else store.modify run.blueGreenRef run.testId fun existing => mergeRegistration existing run
  | none => ⟨store.records ++ [run]⟩

def setVerdict (store : MemoryStore) (blueGreenRef testId : String) (passed : Bool)
    (failureMessage : Option String) : Except StoreError MemoryStore :=
  match store.find blueGreenRef testId with
  | some run =>
    if run.isPending then
      .ok (store.modify blueGreenRef testId fun run =>
        { run with
          verdict := some passed
          failureMessage := failureMessage
          status := if passed then .passed else .failed })
    else .error (.notFound testId)
  | none => .error (.notFound testId)

def markTimedOut (store : MemoryStore) (blueGreenRef testId : String) :
    Except StoreError MemoryStore :=
  match store.find blueGreenRef testId with
  | some run =>
    if run.isPending then
      .ok (store.modify blueGreenRef testId fun run =>
        { run with status := .timedOut, verdict := none })
    else .error (.notFound testId)
  | none => .error (.notFound testId)

/-- The retries that remain, if there was one to take. -/
def decrementRetries (store : MemoryStore) (blueGreenRef testId : String) :
    Except StoreError (Option Int × MemoryStore) :=
  match store.find blueGreenRef testId with
  | some run =>
    if run.isPending ∧ run.retriesRemaining > 0 then
      .ok (some (run.retriesRemaining - 1), store.modify blueGreenRef testId fun run =>
        { run with retriesRemaining := run.retriesRemaining - 1 })
    else .ok (none, store)
  | none => .error (.notFound testId)

def listPending (store : MemoryStore) : List TestCaseRecord :=
  store.records.filter (·.isPending)

/-- The keys of the rollouts that have records, in order and without repetition. -/
def listBlueGreenRefs (store : MemoryStore) : Lib.OrdMap String Unit :=
  .ofList (store.records.map fun run => (run.blueGreenRef, ()))

def counts (store : MemoryStore) (bg : String) : Counts :=
  countsForRuns (store.records.filter fun run => run.blueGreenRef = bg)

def countsForMode (store : MemoryStore) (bg : String) (mode : VerificationMode) : Counts :=
  countsForRuns (store.records.filter fun run =>
    run.blueGreenRef = bg ∧ run.verificationMode = mode)

def latestFailureMessage (store : MemoryStore) (bg : String) : Option String :=
  ((store.records.filter fun run => run.blueGreenRef = bg).filterMap (·.failureMessage)).getLast?

def cleanupBlueGreen (store : MemoryStore) (bg : String) : Nat × MemoryStore :=
  let kept := store.records.filter fun run => run.blueGreenRef ≠ bg
  (store.records.length - kept.length, ⟨kept⟩)

/-- The pending cases whose time is over are dropped. -/
def cleanupExpired (store : MemoryStore) (now : Timestamp) : Nat × MemoryStore :=
  let kept := store.records.filter fun run => ¬ (run.isPending ∧ run.expiresAt < now)
  (store.records.length - kept.length, ⟨kept⟩)

end MemoryStore

end FluidBG
