import FluidBG.Names
import FluidBG.Store
/-!
# The other backends

`state_store/postgres.rs` and `state_store/cosmos.rs`: how they register a case and how they read it
back. The text columns of an enumeration are written and read by inverse matches, so a row and a
document keep the enumeration itself.
-/

set_option autoImplicit false

namespace FluidBG

/-- `num_seconds`, which drops the fraction. -/
def numSeconds (duration : Int) : Int := duration.tdiv 1000000000

/-- `Duration::seconds`. -/
def durationSeconds (seconds : Int) : Int := seconds * 1000000000

/-! ## Postgres -/

/-- 2000-01-01, from which `TIMESTAMPTZ` counts microseconds. -/
def postgresEpoch : Timestamp := 946684800000000000

/-- A point in time as it is bound to a `TIMESTAMPTZ`. -/
def toMicros (time : Timestamp) : Int := (time - postgresEpoch).tdiv 1000

def ofMicros (micros : Int) : Timestamp := postgresEpoch + micros * 1000

/-- A row of the table; times are in microseconds. -/
structure TestCaseRow where
  testId : String
  blueGreenRef : String
  triggeredAt : Int
  triggerInceptionPoint : String
  timeoutSeconds : Int
  status : TestStatus
  verdict : Option Bool
  verificationMode : VerificationMode
  verifyUrl : String
  verifierAuthToken : String
  retriesRemaining : Int
  failureMessage : Option String
  expiresAt : Int


namespace TestCaseRow

/-- The values bound to the `INSERT`. -/
def ofTest (run : TestCaseRecord) : TestCaseRow where
  testId := run.testId
  blueGreenRef := run.blueGreenRef
  triggeredAt := toMicros run.triggeredAt
  triggerInceptionPoint := run.sourceInceptionPoint
  timeoutSeconds := asI32 (numSeconds run.timeout)
  status := run.status
  verdict := run.verdict
  verificationMode := run.verificationMode
  verifyUrl := run.verifyUrl
  verifierAuthToken := run.verifierAuthToken
  retriesRemaining := run.retriesRemaining
  failureMessage := run.failureMessage
  expiresAt := toMicros run.expiresAt

/-- `row_to_test`. -/
def toTest (row : TestCaseRow) : TestCaseRecord where
  testId := row.testId
  blueGreenRef := row.blueGreenRef
  triggeredAt := ofMicros row.triggeredAt
  sourceInceptionPoint := row.triggerInceptionPoint
  timeout := durationSeconds row.timeoutSeconds
  status := row.status
  verdict := row.verdict
  verificationMode := row.verificationMode
  verifyUrl := row.verifyUrl
  verifierAuthToken := row.verifierAuthToken
  retriesRemaining := row.retriesRemaining
  failureMessage := row.failureMessage

/-- The `SET` of `ON CONFLICT`. -/
def onConflict (row excluded : TestCaseRow) : TestCaseRow :=
  { row with
    triggeredAt := min row.triggeredAt excluded.triggeredAt
    timeoutSeconds := max row.timeoutSeconds excluded.timeoutSeconds
    triggerInceptionPoint := if row.triggerInceptionPoint = "" then excluded.triggerInceptionPoint
      else row.triggerInceptionPoint
    verifyUrl := if row.verifyUrl = "" then excluded.verifyUrl else row.verifyUrl
    verifierAuthToken := if row.verifierAuthToken = "" then excluded.verifierAuthToken
      else row.verifierAuthToken
    expiresAt := max row.expiresAt excluded.expiresAt }

/-- The primary key. -/
def key (row : TestCaseRow) : String × String := (row.blueGreenRef, row.testId)

/-- `status IN ('Triggered', 'Observing')`. -/
def isPending (row : TestCaseRow) : Bool := row.toTest.isPending

end TestCaseRow

/-- The columns that change while a case is pending. -/
structure Progress where
  status : TestStatus
  verdict : Option Bool
  retriesRemaining : Int
  failureMessage : Option String

namespace Progress

def judged (passed : Bool) (failureMessage : Option String) (p : Progress) : Progress :=
  { p with
    status := if passed then .passed else .failed
    verdict := some passed
    failureMessage := failureMessage }

def timedOut (p : Progress) : Progress := { p with status := .timedOut, verdict := none }

def retried (p : Progress) : Progress := { p with retriesRemaining := p.retriesRemaining - 1 }

end Progress

namespace TestCaseRow

def progress (row : TestCaseRow) : Progress :=
  ⟨row.status, row.verdict, row.retriesRemaining, row.failureMessage⟩

def withProgress (row : TestCaseRow) (p : Progress) : TestCaseRow :=
  { row with
    status := p.status
    verdict := p.verdict
    retriesRemaining := p.retriesRemaining
    failureMessage := p.failureMessage }

end TestCaseRow

structure PostgresStore where
  rows : List TestCaseRow

namespace PostgresStore

/-- `INSERT .. ON CONFLICT (blue_green_ref, test_id) DO UPDATE SET .. WHERE ..`. -/
def register (store : PostgresStore) (run : TestCaseRecord) : PostgresStore :=
  let excluded := TestCaseRow.ofTest run
  match store.rows.find? fun row => row.key = excluded.key with
  | none => ⟨store.rows ++ [excluded]⟩
  | some _ => ⟨store.rows.map fun row =>
      if row.key = excluded.key then if row.isPending then row.onConflict excluded else row
      else row⟩

def get (store : PostgresStore) (blueGreenRef testId : String) : Option TestCaseRecord :=
  (store.rows.find? fun row => row.key = (blueGreenRef, testId)).map (·.toTest)

/-- The row an `UPDATE .. WHERE blue_green_ref = .. AND test_id = .. AND status IN ('Triggered',
'Observing')` finds. -/
def pendingRow (store : PostgresStore) (blueGreenRef testId : String) : Option TestCaseRow :=
  store.rows.find? fun row => row.key = (blueGreenRef, testId) && row.isPending

def update (store : PostgresStore) (blueGreenRef testId : String) (f : Progress → Progress) :
    PostgresStore :=
  ⟨store.rows.map fun row =>
    if row.key = (blueGreenRef, testId) ∧ row.isPending then row.withProgress (f row.progress)
    else row⟩

def setVerdict (store : PostgresStore) (blueGreenRef testId : String) (passed : Bool)
    (failureMessage : Option String) : Except StoreError PostgresStore :=
  match store.pendingRow blueGreenRef testId with
  | some _ => .ok (store.update blueGreenRef testId (Progress.judged passed failureMessage))
  | none => .error (.notFound testId)

def markTimedOut (store : PostgresStore) (blueGreenRef testId : String) :
    Except StoreError PostgresStore :=
  match store.pendingRow blueGreenRef testId with
  | some _ => .ok (store.update blueGreenRef testId Progress.timedOut)
  | none => .error (.notFound testId)

/-- The retries that remain, if there was one to take. -/
def decrementRetries (store : PostgresStore) (blueGreenRef testId : String) :
    Option Int × PostgresStore :=
  match store.pendingRow blueGreenRef testId with
  | some row =>
    if row.retriesRemaining > 0 then
      (some (row.retriesRemaining - 1), store.update blueGreenRef testId Progress.retried)
    else (none, store)
  | none => (none, store)

def listPending (store : PostgresStore) : List TestCaseRecord :=
  (store.rows.filter (·.isPending)).map (·.toTest)

def cleanupBlueGreen (store : PostgresStore) (bg : String) : Nat × PostgresStore :=
  let kept := store.rows.filter fun row => row.blueGreenRef ≠ bg
  (store.rows.length - kept.length, ⟨kept⟩)

end PostgresStore

/-! ## Cosmos -/

/-- A digit of the URL-safe base 64 alphabet. -/
def base64Char (n : Nat) : Char :=
  if n < 26 then Char.ofNat (65 + n)
  else if n < 52 then Char.ofNat (71 + n)
  else if n < 62 then Char.ofNat (n - 4)
  else if n = 62 then '-' else '_'

/-- `URL_SAFE_NO_PAD.encode`. -/
def base64Url : List Nat → List Char
  | a :: b :: c :: rest =>
    [base64Char (a / 4), base64Char (a % 4 * 16 + b / 16), base64Char (b % 16 * 4 + c / 64),
      base64Char (c % 64)] ++ base64Url rest
  | [a, b] => [base64Char (a / 4), base64Char (a % 4 * 16 + b / 16), base64Char (b % 16 * 4)]
  | [a] => [base64Char (a / 4), base64Char (a % 4 * 16)]
  | [] => []

/-- The digest of the two length-prefixed parts. -/
def cosmosDocumentId (blueGreenRef testId : String) : String :=
  let bytes := [blueGreenRef, testId].flatMap fun part =>
    lengthBytes (utf8Bytes part).length ++ utf8Bytes part
  String.ofList (base64Url (Sha256.digest bytes))

structure CosmosTestCase where
  id : String
  testId : String
  blueGreenRef : String
  triggeredAt : Timestamp
  triggerInceptionPoint : String
  timeoutSeconds : Int
  status : TestStatus
  verdict : Option Bool
  verificationMode : VerificationMode
  verifyUrl : String
  verifierAuthToken : String
  retriesRemaining : Int
  failureMessage : Option String
  expiresAt : Timestamp

namespace CosmosTestCase

/-- `From<TestCaseRecord>`. -/
def ofTest (run : TestCaseRecord) : CosmosTestCase where
  id := cosmosDocumentId run.blueGreenRef run.testId
  testId := run.testId
  blueGreenRef := run.blueGreenRef
  triggeredAt := run.triggeredAt
  triggerInceptionPoint := run.sourceInceptionPoint
  timeoutSeconds := numSeconds run.timeout
  status := run.status
  verdict := run.verdict
  verificationMode := run.verificationMode
  verifyUrl := run.verifyUrl
  verifierAuthToken := run.verifierAuthToken
  retriesRemaining := run.retriesRemaining
  failureMessage := run.failureMessage
  expiresAt := run.expiresAt

/-- `From<CosmosTestCase>`. -/
def toTest (doc : CosmosTestCase) : TestCaseRecord where
  testId := doc.testId
  blueGreenRef := doc.blueGreenRef
  triggeredAt := doc.triggeredAt
  sourceInceptionPoint := doc.triggerInceptionPoint
  timeout := durationSeconds doc.timeoutSeconds
  status := doc.status
  verdict := doc.verdict
  verificationMode := doc.verificationMode
  verifyUrl := doc.verifyUrl
  verifierAuthToken := doc.verifierAuthToken
  retriesRemaining := doc.retriesRemaining
  failureMessage := doc.failureMessage

/-- `is_pending_status(&doc.status)`. -/
def isPending (doc : CosmosTestCase) : Bool := doc.toTest.isPending

def progress (doc : CosmosTestCase) : Progress :=
  ⟨doc.status, doc.verdict, doc.retriesRemaining, doc.failureMessage⟩

def withProgress (doc : CosmosTestCase) (p : Progress) : CosmosTestCase :=
  { doc with
    status := p.status
    verdict := p.verdict
    retriesRemaining := p.retriesRemaining
    failureMessage := p.failureMessage }

end CosmosTestCase

/-- The documents of the container, under the ids the store gives them. -/
structure CosmosStore where
  docs : List CosmosTestCase
  ids : ∀ doc ∈ docs, doc.id = cosmosDocumentId doc.blueGreenRef doc.testId

namespace CosmosStore

/-- The status of a `POST` to the container: an id exists once in its partition. -/
def createStatus (store : CosmosStore) (doc : CosmosTestCase) : Nat :=
  if store.docs.any fun stored => stored.blueGreenRef = doc.blueGreenRef ∧ stored.id = doc.id
  then 409 else 201

/-- A conflict is taken for success, and leaves what is stored. -/
def register (store : CosmosStore) (run : TestCaseRecord) : CosmosStore :=
  if store.createStatus (.ofTest run) = 409 then store
  else {
    docs := store.docs ++ [.ofTest run]
    ids := by
      intro doc hdoc
      rcases List.mem_append.mp hdoc with hdoc | hdoc
      · exact store.ids doc hdoc
      · rw [List.mem_singleton.mp hdoc]
        rfl }

def get (store : CosmosStore) (blueGreenRef testId : String) : Option TestCaseRecord :=
  (store.docs.find? fun doc => doc.blueGreenRef = blueGreenRef ∧ doc.testId = testId).map (·.toTest)

/-- `get_doc`. -/
def getDoc (store : CosmosStore) (blueGreenRef testId : String) : Option CosmosTestCase :=
  store.docs.find? fun doc => doc.blueGreenRef = blueGreenRef ∧ doc.testId = testId

/-- `replace_doc` of a document that was pending when it was read, and has not changed since: the
request is refused otherwise. -/
def replaceDoc (store : CosmosStore) (read : CosmosTestCase) (f : Progress → Progress) :
    CosmosStore where
  docs := store.docs.map fun doc =>
    if doc.blueGreenRef = read.blueGreenRef ∧ doc.id = read.id ∧ doc.isPending then
      doc.withProgress (f doc.progress)
    else doc
  ids := by
    intro doc hdoc
    obtain ⟨old, hold, rfl⟩ := List.mem_map.mp hdoc
    split
    · exact store.ids old hold
    · exact store.ids old hold

def setVerdict (store : CosmosStore) (blueGreenRef testId : String) (passed : Bool)
    (failureMessage : Option String) : Except StoreError CosmosStore :=
  match store.getDoc blueGreenRef testId with
  | some doc =>
    if doc.isPending then .ok (store.replaceDoc doc (Progress.judged passed failureMessage))
    else .error (.notFound testId)
  | none => .error (.notFound testId)

def markTimedOut (store : CosmosStore) (blueGreenRef testId : String) :
    Except StoreError CosmosStore :=
  match store.getDoc blueGreenRef testId with
  | some doc =>
    if doc.isPending then .ok (store.replaceDoc doc Progress.timedOut)
    else .error (.notFound testId)
  | none => .error (.notFound testId)

/-- The retries that remain, if there was one to take. -/
def decrementRetries (store : CosmosStore) (blueGreenRef testId : String) :
    Except StoreError (Option Int × CosmosStore) :=
  match store.getDoc blueGreenRef testId with
  | some doc =>
    if doc.isPending ∧ doc.retriesRemaining > 0 then
      .ok (some (doc.retriesRemaining - 1), store.replaceDoc doc Progress.retried)
    else .ok (none, store)
  | none => .error (.notFound testId)

def listPending (store : CosmosStore) : List TestCaseRecord :=
  (store.docs.filter (·.isPending)).map (·.toTest)

def cleanupBlueGreen (store : CosmosStore) (bg : String) : Nat × CosmosStore :=
  let kept := store.docs.filter fun doc => doc.blueGreenRef ≠ bg
  (store.docs.length - kept.length,
    ⟨kept, fun doc hdoc => store.ids doc (List.mem_filter.mp hdoc).1⟩)

end CosmosStore

end FluidBG
