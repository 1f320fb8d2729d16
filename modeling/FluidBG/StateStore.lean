import FluidBG.Backends
import FluidBG.HttpApi
import Mathlib.Data.String.Basic
/-!
# The store behind the trait

`StateStore` as the operator holds it: one of three backends, with the questions that range over all
records and the two cleanups. Postgres answers and deletes in one statement. Cosmos answers a query
in pages, of which `query` decodes the first, and its cleanups delete what the query returned one
document at a time.
-/

set_option autoImplicit false

namespace FluidBG

/-! ## Times -/

/-- `DateTime::<Utc>::MIN_UTC`. -/
def minUtc : Int := -8334601228800 * 1000000000

/-- `DateTime::<Utc>::MAX_UTC`. -/
def maxUtc : Int := 8210266876799 * 1000000000 + 999999999

/-- A sum of times panics where its result is not a `DateTime`. -/
def Representable (time : Int) : Prop := minUtc ≤ time ∧ time ≤ maxUtc

instance (time : Int) : Decidable (Representable time) :=
  inferInstanceAs (Decidable (_ ∧ _))

/-- Year, month and day of a day counted from 1970-01-01. -/
def civilDate (days : Int) : Int × Nat × Nat :=
  -- the years of an era of 400 begin in March, so the leap day is the last of its year
  let era := (days + 719468) / 146097
  let dayOfEra := ((days + 719468) % 146097).toNat
  let yearOfEra := (dayOfEra - dayOfEra / 1460 + dayOfEra / 36524 - dayOfEra / 146096) / 365
  let dayOfYear := dayOfEra - (365 * yearOfEra + yearOfEra / 4 - yearOfEra / 100)
  let fromMarch := (5 * dayOfYear + 2) / 153
  let month := if fromMarch < 10 then fromMarch + 3 else fromMarch - 9
  (yearOfEra + era * 400 + (if month ≤ 2 then 1 else 0), month,
    dayOfYear - (153 * fromMarch + 2) / 5 + 1)

/-- A number with zeros before it. -/
def padded (width n : Nat) : List Char :=
  let digits := Nat.toDigits 10 n
  List.replicate (width - digits.length) '0' ++ digits

/-- A year of more or less than four digits is written with its sign. -/
def yearText (year : Int) : List Char :=
  if 0 ≤ year ∧ year ≤ 9999 then padded 4 year.toNat
  else (if year < 0 then '-' else '+') :: padded 4 year.natAbs

/-- `SecondsFormat::AutoSi`: no fraction, or milli-, micro- or nanoseconds. -/
def fractionText (nanos : Nat) : List Char :=
  if nanos = 0 then []
  else if nanos % 1000000 = 0 then '.' :: padded 3 (nanos / 1000000)
  else if nanos % 1000 = 0 then '.' :: padded 6 (nanos / 1000)
  else '.' :: padded 9 nanos

/-- The text of a `DateTime<Utc>` in a JSON document. -/
def timeText (time : Timestamp) : String :=
  let seconds := time / 1000000000
  let (year, month, day) := civilDate (seconds / 86400)
  let ofDay := (seconds % 86400).toNat
  String.ofList (yearText year ++ '-' :: padded 2 month ++ '-' :: padded 2 day ++
    'T' :: padded 2 (ofDay / 3600) ++ ':' :: padded 2 (ofDay / 60 % 60) ++
    ':' :: padded 2 (ofDay % 60) ++ fractionText (time % 1000000000).toNat ++ ['Z'])

/-- `ORDER BY key DESC` with a limit of one. -/
def newest {α κ : Type} [LT κ] [DecidableLT κ] (key : α → κ) : List α → Option α
  | [] => none
  | x :: xs => match newest key xs with
    | none => some x
    | some y => if key x < key y then some y else some x

/-! ## Postgres -/

namespace PostgresStore

def listBlueGreenRefs (store : PostgresStore) : Lib.OrdMap String Unit :=
  .ofList (store.rows.map fun row => (row.blueGreenRef, ()))

/-- `COUNT(*) FILTER (WHERE status ..)` for each of the four columns. -/
def countsQuery (store : PostgresStore) (predicate : TestCaseRow → Bool) : Counts :=
  let count (status : TestStatus → Bool) : Int :=
    ((store.rows.filter predicate).filter fun row => status row.status).length
  ⟨count (· = .passed), count (· = .failed), count (· = .timedOut),
    count fun status => status = .triggered ∨ status = .observing⟩

def counts (store : PostgresStore) (bg : String) : Counts :=
  store.countsQuery fun row => row.blueGreenRef = bg

def countsForMode (store : PostgresStore) (bg : String) (mode : VerificationMode) : Counts :=
  store.countsQuery fun row => row.blueGreenRef = bg ∧ row.verificationMode = mode

def latestFailureMessage (store : PostgresStore) (bg : String) : Option String :=
  (newest TestCaseRow.triggeredAt (store.rows.filter fun row =>
    row.blueGreenRef = bg ∧ row.failureMessage.isSome)).bind (·.failureMessage)

/-- `DELETE .. WHERE expires_at < NOW() AND status IN ('Triggered', 'Observing')`. -/
def cleanupExpired (store : PostgresStore) (now : Int) : Nat × PostgresStore :=
  let kept := store.rows.filter fun row => ¬ (row.expiresAt < now ∧ row.isPending)
  (store.rows.length - kept.length, ⟨kept⟩)

end PostgresStore

/-! ## Cosmos -/

/-- The queries that range over the container. -/
inductive CosmosQuery where
  | pending
  | refs
  | counts (bg : String) (mode : Option VerificationMode)
  | failures (bg : String)
  | ofBlueGreen (bg : String)
  | expired (now : Timestamp)
  deriving DecidableEq

/-- The `WHERE` of a query. Times are texts in a document, and are compared as texts. -/
def CosmosQuery.selects : CosmosQuery → CosmosTestCase → Bool
  | .pending, doc => doc.isPending
  | .refs, _ => true
  | .counts bg mode, doc => doc.blueGreenRef = bg ∧ mode.all (· = doc.verificationMode)
  | .failures bg, doc => doc.blueGreenRef = bg ∧ doc.failureMessage.isSome
  | .ofBlueGreen bg, doc => doc.blueGreenRef = bg
  | .expired now, doc => timeText doc.expiresAt < timeText now ∧ doc.isPending

/-- What a `DELETE` comes to. -/
inductive CosmosDeletion where
  | deleted
  | refused
  | failed (text : String)
  deriving DecidableEq

/-- What the service decides: how many of the documents of an answer its first page covers, and
whether it deletes a document. -/
structure CosmosService where
  firstPage : CosmosQuery → Nat
  delete : CosmosTestCase → CosmosDeletion

/-- The partition and the id, by which a document is addressed. -/
def CosmosTestCase.address (doc : CosmosTestCase) : String × String := (doc.blueGreenRef, doc.id)

/-- A container: no two of its documents have one address. -/
structure CosmosContainer extends CosmosStore where
  unique : (docs.map CosmosTestCase.address).Nodup

namespace CosmosContainer

def register (container : CosmosContainer) (run : TestCaseRecord) : CosmosContainer where
  toCosmosStore := container.toCosmosStore.register run
  unique := by
    unfold CosmosStore.register
    split
    · exact container.unique
    · rename_i hnew
      rw [List.map_append, List.nodup_append]
      refine ⟨container.unique, List.nodup_singleton _, ?_⟩
      intro address haddress other hother heq
      obtain ⟨doc, hdoc, rfl⟩ := List.mem_map.mp haddress
      rw [List.map_singleton, List.mem_singleton] at hother
      have hsame : doc.address = (CosmosTestCase.ofTest run).address := heq.trans hother
      refine hnew (if_pos (List.any_eq_true.mpr ⟨doc, hdoc, decide_eq_true ?_⟩))
      exact ⟨congrArg Prod.fst hsame, congrArg Prod.snd hsame⟩

theorem replaceDoc_address (store : CosmosStore) (read : CosmosTestCase)
    (f : Progress → Progress) :
    (store.replaceDoc read f).docs.map CosmosTestCase.address =
      store.docs.map CosmosTestCase.address := by
  unfold CosmosStore.replaceDoc
  rw [List.map_map]
  refine List.map_congr_left fun doc _ => ?_
  show CosmosTestCase.address (if _ then _ else _) = _
  split <;> rfl

/-- What `replace_doc` leaves of the document that was read for `testId`. -/
def replace (container : CosmosContainer) (read : CosmosTestCase) (f : Progress → Progress) :
    CosmosContainer where
  toCosmosStore := container.toCosmosStore.replaceDoc read f
  unique := by
    rw [replaceDoc_address]
    exact container.unique

def setVerdict (container : CosmosContainer) (blueGreenRef testId : String) (passed : Bool)
    (failureMessage : Option String) : Except StoreError CosmosContainer :=
  match container.getDoc blueGreenRef testId with
  | some doc =>
    if doc.isPending then .ok (container.replace doc (Progress.judged passed failureMessage))
    else .error (.notFound testId)
  | none => .error (.notFound testId)

def markTimedOut (container : CosmosContainer) (blueGreenRef testId : String) :
    Except StoreError CosmosContainer :=
  match container.getDoc blueGreenRef testId with
  | some doc =>
    if doc.isPending then .ok (container.replace doc Progress.timedOut)
    else .error (.notFound testId)
  | none => .error (.notFound testId)

def decrementRetries (container : CosmosContainer) (blueGreenRef testId : String) :
    Except StoreError (Option Int × CosmosContainer) :=
  match container.getDoc blueGreenRef testId with
  | some doc =>
    if doc.isPending ∧ doc.retriesRemaining > 0 then
      .ok (some (doc.retriesRemaining - 1), container.replace doc Progress.retried)
    else .ok (none, container)
  | none => .error (.notFound testId)

/-- The documents without those that satisfy `p`. -/
def remove (container : CosmosContainer) (p : CosmosTestCase → Bool) : CosmosContainer where
  docs := container.docs.filter fun doc => !p doc
  ids := fun doc hdoc => container.ids doc (List.mem_filter.mp hdoc).1
  unique := container.unique.sublist (List.filter_sublist.map _)

/-- `query`: the first page of the documents that a query selects. -/
def query (container : CosmosContainer) (service : CosmosService) (query : CosmosQuery) :
    List CosmosTestCase :=
  (container.docs.filter query.selects).take (service.firstPage query)

def listPending (container : CosmosContainer) (service : CosmosService) : List TestCaseRecord :=
  (container.query service .pending).map (·.toTest)

def listBlueGreenRefs (container : CosmosContainer) (service : CosmosService) :
    Lib.OrdMap String Unit :=
  .ofList ((container.query service .refs).map fun doc => (doc.blueGreenRef, ()))

/-- `SUM(IIF(c.status .., 1, 0))` for each of the four fields. -/
def countsQuery (rows : List CosmosTestCase) : Counts :=
  let sum (status : TestStatus → Bool) : Int :=
    (rows.map fun doc => if status doc.status then (1 : Int) else 0).foldl (· + ·) 0
  ⟨sum (· = .passed), sum (· = .failed), sum (· = .timedOut),
    sum fun status => status = .triggered ∨ status = .observing⟩

/-- `counts`, and `counts_for_mode` of a mode. -/
def counts (container : CosmosContainer) (service : CosmosService) (bg : String)
    (mode : Option VerificationMode) : Counts :=
  countsQuery (container.query service (.counts bg mode))

/-- `SELECT TOP 1 .. ORDER BY c.triggered_at DESC`. -/
def latestFailureMessage (container : CosmosContainer) (service : CosmosService) (bg : String) :
    Option String :=
  let top := newest (fun doc => timeText doc.triggeredAt)
    (container.docs.filter (CosmosQuery.failures bg).selects)
  (top.toList.take (service.firstPage (.failures bg))).head?.bind (·.failureMessage)

/-- `delete_docs`: a document whose `DELETE` is refused is not counted, and a request that fails
ends the loop. -/
def deleteDocs (service : CosmosService) (container : CosmosContainer) (deleted : Nat) :
    List CosmosTestCase → Except StoreError Nat × CosmosContainer
  | [] => (.ok deleted, container)
  | doc :: rows =>
    match service.delete doc with
    | .failed text => (.error (.other text), container)
    | .refused => deleteDocs service container deleted rows
    | .deleted =>
      deleteDocs service (container.remove fun stored => stored.address = doc.address)
        (deleted + 1) rows

def cleanupBlueGreen (container : CosmosContainer) (service : CosmosService) (bg : String) :
    Except StoreError Nat × CosmosContainer :=
  deleteDocs service container 0 (container.query service (.ofBlueGreen bg))

def cleanupExpired (container : CosmosContainer) (service : CosmosService) (now : Timestamp) :
    Except StoreError Nat × CosmosContainer :=
  deleteDocs service container 0 (container.query service (.expired now))

end CosmosContainer

/-! ## The trait -/

inductive Backend where
  | memory (store : MemoryStore)
  | postgres (store : PostgresStore)
  | cosmos (container : CosmosContainer) (service : CosmosService)

namespace Backend

/-- The records that a backend holds. -/
def records : Backend → List TestCaseRecord
  | .memory store => store.records
  | .postgres store => store.rows.map (·.toTest)
  | .cosmos container _ => container.docs.map (·.toTest)

def get : Backend → String → String → Option TestCaseRecord
  | .memory store, bg, testId => store.get bg testId
  | .postgres store, bg, testId => store.get bg testId
  | .cosmos container _, bg, testId => container.get bg testId

def setVerdict : Backend → String → String → Bool → Option String → Except StoreError Backend
  | .memory store, bg, testId, passed, message =>
    (store.setVerdict bg testId passed message).map .memory
  | .postgres store, bg, testId, passed, message =>
    (store.setVerdict bg testId passed message).map .postgres
  | .cosmos container service, bg, testId, passed, message =>
    (container.setVerdict bg testId passed message).map (.cosmos · service)

def markTimedOut : Backend → String → String → Except StoreError Backend
  | .memory store, bg, testId => (store.markTimedOut bg testId).map .memory
  | .postgres store, bg, testId => (store.markTimedOut bg testId).map .postgres
  | .cosmos container service, bg, testId =>
    (container.markTimedOut bg testId).map (.cosmos · service)

def decrementRetries : Backend → String → String → Except StoreError (Option Int × Backend)
  | .memory store, bg, testId => (store.decrementRetries bg testId).map (Prod.map id .memory)
  | .postgres store, bg, testId =>
    .ok (Prod.map id .postgres (store.decrementRetries bg testId))
  | .cosmos container service, bg, testId =>
    (container.decrementRetries bg testId).map (Prod.map id (.cosmos · service))

def listPending : Backend → List TestCaseRecord
  | .memory store => store.listPending
  | .postgres store => store.listPending
  | .cosmos container service => container.listPending service

def listBlueGreenRefs : Backend → Lib.OrdMap String Unit
  | .memory store => store.listBlueGreenRefs
  | .postgres store => store.listBlueGreenRefs
  | .cosmos container service => container.listBlueGreenRefs service

def counts : Backend → String → Counts
  | .memory store, bg => store.counts bg
  | .postgres store, bg => store.counts bg
  | .cosmos container service, bg => container.counts service bg none

def countsForMode : Backend → String → VerificationMode → Counts
  | .memory store, bg, mode => store.countsForMode bg mode
  | .postgres store, bg, mode => store.countsForMode bg mode
  | .cosmos container service, bg, mode => container.counts service bg (some mode)

def latestFailureMessage : Backend → String → Option String
  | .memory store, bg => store.latestFailureMessage bg
  | .postgres store, bg => store.latestFailureMessage bg
  | .cosmos container service, bg => container.latestFailureMessage service bg

def cleanupBlueGreen : Backend → String → Except StoreError Nat × Backend
  | .memory store, bg => ((store.cleanupBlueGreen bg).map .ok .memory)
  | .postgres store, bg => ((store.cleanupBlueGreen bg).map .ok .postgres)
  | .cosmos container service, bg =>
    (container.cleanupBlueGreen service bg).map id (.cosmos · service)

/-- The time that a reading of the clock stands for: Postgres' `NOW()` is in microseconds. -/
def time : Backend → Int → Timestamp
  | .postgres _, clock => ofMicros clock
  | _, clock => clock

/-- `cleanup_expired`. In memory `expires_at` is computed of every pending record, and there is no
answer where that panics. -/
def cleanupExpired : Backend → Int → Option (Except StoreError Nat × Backend)
  | .memory store, clock =>
    if ∀ run ∈ store.listPending, Representable run.expiresAt then
      some ((store.cleanupExpired clock).map .ok .memory)
    else none
  | .postgres store, clock => some ((store.cleanupExpired clock).map .ok .postgres)
  | .cosmos container service, clock =>
    some ((container.cleanupExpired service clock).map id (.cosmos · service))

end Backend

/-! ## Registrations -/

/-- What becomes of a registration. Where a sum of times panics there is no answer. -/
inductive Registration where
  | created (after : Backend)
  | refused
  | panicked

/-- `register`, where the database `accepts` the write; memory always does. Postgres and Cosmos
compute `expires_at` first. -/
def Backend.register (backend : Backend) (accepts : Bool) (run : TestCaseRecord) : Registration :=
  match backend with
  | .memory store => .created (.memory (store.register run))
  | .postgres store =>
    if ¬ Representable run.expiresAt then .panicked
    else if accepts then .created (.postgres (store.register run)) else .refused
  | .cosmos container service =>
    if ¬ Representable run.expiresAt then .panicked
    else if accepts then .created (.cosmos (container.register run) service) else .refused

/-- The part of `register_test_case` after its checks. -/
def Backend.registerTestCase (backend : Backend) (claims : PluginAuthClaims)
    (authHeader : Option String) (req : RegisterTestCaseRequest) (now : Timestamp)
    (accepts : Bool) : Registration :=
  match timeoutDuration (req.timeoutSeconds.getD 60) with
  | .error _ => .panicked
  | .ok timeout => backend.register accepts
      (registeredRecord claims authHeader req (req.triggeredAt.getD now) timeout)

/-- `check_timeouts` over what `list_pending` returned: the cases it marks. A sum that panics ends
the task, and there is no answer. -/
def expiredCases (now : Timestamp) : List TestCaseRecord → Option (List TestCaseRecord)
  | [] => some []
  | run :: pending =>
    if Representable run.expiresAt then
      (expiredCases now pending).map fun later =>
        if run.expiresAt < now then run :: later else later
    else none

end FluidBG
