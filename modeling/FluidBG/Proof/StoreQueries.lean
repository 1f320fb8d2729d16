import FluidBG.Proof.TimeoutRange
import Mathlib.Data.List.Induction
/-!
# What the questions of the store see

A backend stands for the records it holds. The questions that range over all of them, and the two
cleanups, are compared here with what they are about: the records in memory and in Postgres are
seen whole, and in Cosmos as far as the first page of an answer goes. The latest message of a
rollout and the expiry of a case are the two answers in which the backends differ by more than that.
-/

set_option autoImplicit false

namespace FluidBG

open Lib

/-! ## What there is to see -/

def casesOf (bg : String) (runs : List TestCaseRecord) : List TestCaseRecord :=
  runs.filter fun run => run.blueGreenRef = bg

/-- A message is the latest of some cases if no case with a message was triggered after one that has
it. -/
def IsLatest (runs : List TestCaseRecord) : Option String → Prop
  | none => ∀ run ∈ runs, run.failureMessage = none
  | some message => ∃ run ∈ runs, run.failureMessage = some message ∧
      ∀ other ∈ runs, other.failureMessage.isSome → other.triggeredAt ≤ run.triggeredAt

namespace Backend

/-- The questions are answered from all records. -/
structure Answers (backend : Backend) (bg : String) (mode : VerificationMode) : Prop where
  pending : backend.listPending = backend.records.filter (·.isPending)
  refs : ∀ ref, ref ∈ backend.listBlueGreenRefs.keys ↔
    ∃ run ∈ backend.records, run.blueGreenRef = ref
  counts : backend.counts bg = countsForRuns (casesOf bg backend.records)
  countsForMode : backend.countsForMode bg mode =
    countsForRuns ((casesOf bg backend.records).filter fun run => run.verificationMode = mode)
  message : IsLatest (casesOf bg backend.records) (backend.latestFailureMessage bg)

/-- The cleanups that end well remove what they are about and nothing else: the cases of a rollout,
and the pending cases whose time is over. -/
structure Cleans (backend : Backend) (bg : String) (clock : Int) : Prop where
  rollout : ∀ n after, backend.cleanupBlueGreen bg = (.ok n, after) →
    after.records = backend.records.filter fun run => run.blueGreenRef ≠ bg
  expired : ∀ n after, backend.cleanupExpired clock = some (.ok n, after) →
    after.records = backend.records.filter fun run =>
      ¬ (run.isPending ∧ run.expiresAt < backend.time clock)

end Backend

/-! ## What it takes -/

/-- A message belongs to a case that no other case with a message was triggered after. -/
def LatestAmong (runs : List TestCaseRecord) (message : Option String) : Prop :=
  ∃ run ∈ runs, run.failureMessage = message ∧
    ∀ other ∈ runs, other.failureMessage.isSome → other.triggeredAt ≤ run.triggeredAt

/-- The case with a message that the map comes to last has the message of a latest one. -/
def MemoryStore.InOrder (store : MemoryStore) (bg : String) : Prop :=
  ∀ run, ((casesOf bg store.records).filter (·.failureMessage.isSome)).getLast? = some run →
    LatestAmong (casesOf bg store.records) run.failureMessage

/-- The expiry that is stored and the sum of the merged columns lie on one side of the clock. -/
def PostgresStore.ExpiresBySum (store : PostgresStore) (clock : Int) : Prop :=
  ∀ row ∈ store.rows, row.isPending →
    (row.expiresAt < clock ↔ row.triggeredAt + row.timeoutSeconds * 1000000 < clock)

namespace CosmosContainer

variable (container : CosmosContainer) (service : CosmosService)

/-- The first page of an answer is all of it. -/
def OnePage (query : CosmosQuery) : Prop :=
  (container.docs.filter query.selects).length ≤ service.firstPage query

/-- A cleanup meets a request that fails, and does not end well. -/
def Fails (query : CosmosQuery) : Prop :=
  ∃ doc ∈ container.query service query, ∃ text, service.delete doc = .failed text

/-- The document is on the first page of what is to be deleted, and the service deletes it. -/
def Reaches (query : CosmosQuery) (doc : CosmosTestCase) : Prop :=
  doc ∈ container.query service query ∧ service.delete doc = .deleted

/-- The first document of the order by text has the message of a latest case. -/
def InTextOrder (bg : String) : Prop :=
  ∀ doc, newest (fun doc => timeText doc.triggeredAt)
      (container.docs.filter (CosmosQuery.failures bg).selects) = some doc →
    0 < service.firstPage (.failures bg) ∧
      LatestAmong (casesOf bg (container.docs.map (·.toTest))) doc.failureMessage

end CosmosContainer

namespace Backend

/-- **What the answers take.** -/
def Complete : Backend → String → VerificationMode → Prop
  | .memory store, bg, _ => store.InOrder bg
  | .postgres _, _, _ => True
  | .cosmos container service, bg, mode => container.OnePage service .pending ∧
      (∀ doc ∈ container.docs, ∃ seen ∈ container.query service .refs,
        seen.blueGreenRef = doc.blueGreenRef) ∧
      container.OnePage service (.counts bg none) ∧
      container.OnePage service (.counts bg (some mode)) ∧ container.InTextOrder service bg

/-- **What the cleanups take.** -/
def Thorough : Backend → String → Int → Prop
  | .memory _, _, _ => True
  | .postgres store, _, clock => store.ExpiresBySum clock
  | .cosmos container service, bg, clock =>
      (container.Fails service (.ofBlueGreen bg) ∨ ∀ doc ∈ container.docs,
        doc.blueGreenRef = bg → container.Reaches service (.ofBlueGreen bg) doc) ∧
      (container.Fails service (.expired clock) ∨ ∀ doc ∈ container.docs,
        (container.Reaches service (.expired clock) doc ↔
          doc.isPending ∧ doc.toTest.expiresAt < clock))

/-- Postgres keeps a pending case until it is due by what is read back of it. -/
def Patient : Backend → Int → Prop
  | .memory _, _ => True
  | .postgres store, clock => ∀ row ∈ store.rows, row ∉ (store.cleanupExpired clock).2.rows →
      row.isPending ∧ row.toTest.expiresAt ≤ ofMicros clock
  | .cosmos _ _, _ => True

end Backend

/-! ## Lists -/

/-- Two filters leave the same values just when they agree, if values tell the elements apart. -/
theorem filter_map_inj_iff {α β : Type} {f : α → β} {l : List α}
    (hinj : ∀ x ∈ l, ∀ y ∈ l, f x = f y → x = y) {p q : α → Bool} :
    (l.filter p).map f = (l.filter q).map f ↔ ∀ x ∈ l, p x = q x := by
  constructor
  · intro h x hx
    have hiff : p x = true ↔ q x = true := by
      constructor
      · intro hp
        have hmem : f x ∈ (l.filter q).map f :=
          h ▸ List.mem_map_of_mem (List.mem_filter.mpr ⟨hx, hp⟩)
        obtain ⟨y, hy, heq⟩ := List.mem_map.mp hmem
        have hsame := hinj y (List.mem_filter.mp hy).1 x hx heq
        exact hsame ▸ (List.mem_filter.mp hy).2
      · intro hq
        have hmem : f x ∈ (l.filter p).map f :=
          h ▸ List.mem_map_of_mem (List.mem_filter.mpr ⟨hx, hq⟩)
        obtain ⟨y, hy, heq⟩ := List.mem_map.mp hmem
        have hsame := hinj y (List.mem_filter.mp hy).1 x hx heq
        exact hsame ▸ (List.mem_filter.mp hy).2
    exact Bool.eq_iff_iff.mpr hiff
  · intro h
    rw [List.filter_congr h]

theorem getLast?_filterMap {α β : Type} (f : α → Option β) (l : List α) :
    (l.filterMap f).getLast? = (l.filter fun x => (f x).isSome).getLast?.bind f := by
  induction l using List.reverseRecOn with
  | nil => rfl
  | append_singleton l x ih =>
    rw [List.filterMap_append, List.filter_append]
    cases hx : f x with
    | none => simpa [List.filterMap_cons, hx] using ih
    | some y => simp [hx]

section Newest

variable {α κ : Type} {key : α → κ}

theorem newest_eq_none_iff [LT κ] [DecidableLT κ] {l : List α} : newest key l = none ↔ l = [] := by
  cases l with
  | nil => exact ⟨fun _ => rfl, fun _ => rfl⟩
  | cons x l =>
    constructor
    · intro h
      unfold newest at h
      split at h
      · cases h
      · split at h
        · cases h
        · cases h
    · intro h
      cases h

theorem newest_mem [LT κ] [DecidableLT κ] {l : List α} {x : α} (h : newest key l = some x) :
    x ∈ l := by
  induction l generalizing x with
  | nil => cases h
  | cons z l ih =>
    unfold newest at h
    cases hlater : newest key l with
    | none =>
      rw [hlater] at h
      exact Option.some.inj h ▸ .head _
    | some y =>
      rw [hlater] at h
      have hchosen : (if key z < key y then some y else some z) = some x := h
      by_cases hlt : key z < key y
      · rw [if_pos hlt] at hchosen
        exact Option.some.inj hchosen ▸ .tail _ (ih hlater)
      · rw [if_neg hlt] at hchosen
        exact Option.some.inj hchosen ▸ .head _

/-- The newest is one of those with the largest key. -/
theorem newest_spec [LinearOrder κ] {l : List α} {x : α} (h : newest key l = some x) :
    x ∈ l ∧ ∀ y ∈ l, key y ≤ key x := by
  induction l generalizing x with
  | nil => cases h
  | cons z l ih =>
    unfold newest at h
    cases hlater : newest key l with
    | none =>
      rw [hlater] at h
      obtain rfl := Option.some.inj h
      have hnil := newest_eq_none_iff.mp hlater
      subst hnil
      refine ⟨.head _, fun y hy => ?_⟩
      rw [List.mem_singleton.mp hy]
    | some y =>
      rw [hlater] at h
      obtain ⟨hmem, hmax⟩ := ih hlater
      have hchosen : (if key z < key y then y else z) = x := by
        by_cases hlt : key z < key y
        · rw [if_pos hlt]
          exact Option.some.inj ((if_pos hlt).symm.trans h)
        · rw [if_neg hlt]
          exact Option.some.inj ((if_neg hlt).symm.trans h)
      by_cases hlt : key z < key y
      · rw [if_pos hlt] at hchosen
        subst hchosen
        exact ⟨.tail _ hmem, List.forall_mem_cons.mpr ⟨hlt.le, hmax⟩⟩
      · rw [if_neg hlt] at hchosen
        subst hchosen
        have hle := not_lt.mp hlt
        exact ⟨.head _, List.forall_mem_cons.mpr ⟨le_rfl, fun w hw => (hmax w hw).trans hle⟩⟩

end Newest

/-- What holds of the case that a message was taken from decides whether it is the latest one. -/
theorem isLatest_iff {runs : List TestCaseRecord} {chosen : Option TestCaseRecord}
    (hnone : chosen = none → ∀ run ∈ runs, run.failureMessage = none)
    (hsome : ∀ run, chosen = some run → run.failureMessage.isSome) :
    IsLatest runs (chosen.bind (·.failureMessage)) ↔
      ∀ run, chosen = some run → LatestAmong runs run.failureMessage := by
  cases chosen with
  | none =>
    constructor
    · intro _ run h
      cases h
    · intro _
      exact hnone rfl
  | some run =>
    obtain ⟨message, hmessage⟩ := Option.isSome_iff_exists.mp (hsome run rfl)
    have heq : (some run).bind (·.failureMessage) = some message := hmessage
    rw [heq]
    constructor
    · intro h other hother
      rw [← Option.some.inj hother, hmessage]
      exact h
    · intro h
      have hlatest := h run rfl
      rw [hmessage] at hlatest
      exact hlatest

/-! ## In memory -/

theorem MemoryStore.answers_iff {store : MemoryStore} {bg : String} {mode : VerificationMode} :
    (Backend.memory store).Answers bg mode ↔ store.InOrder bg := by
  have hmessage : IsLatest (casesOf bg store.records) (store.latestFailureMessage bg) ↔
      store.InOrder bg := by
    have heq : store.latestFailureMessage bg =
        ((casesOf bg store.records).filter (·.failureMessage.isSome)).getLast?.bind
          (·.failureMessage) := getLast?_filterMap _ _
    rw [heq]
    refine isLatest_iff (fun hnone run hrun => ?_) (fun run hrun => ?_)
    · have hnil := List.getLast?_eq_none_iff.mp hnone
      have hnot := List.filter_eq_nil_iff.mp hnil run hrun
      simpa using hnot
    · exact (List.mem_filter.mp (List.mem_of_getLast? hrun)).2
  constructor
  · intro h
    exact hmessage.mp h.message
  · intro h
    refine ⟨rfl, fun ref => ?_, rfl, ?_, hmessage.mpr h⟩
    · show ref ∈ (OrdMap.ofList _).keys ↔ _
      rw [OrdMap.mem_keys_ofList, List.map_map]
      exact List.mem_map
    · show countsForRuns (store.records.filter _) = _
      rw [casesOf, List.filter_filter]
      refine congrArg countsForRuns (List.filter_congr fun run _ => ?_)
      simp [Bool.and_comm]

theorem MemoryStore.cleans {store : MemoryStore} {bg : String} {clock : Int} :
    (Backend.memory store).Cleans bg clock := by
  constructor
  · intro n after h
    rw [← (Prod.mk.inj h).2]
    rfl
  · intro n after h
    by_cases hall : ∀ run ∈ store.listPending, Representable run.expiresAt
    · have hsome : (Backend.memory store).cleanupExpired clock =
          some ((store.cleanupExpired clock).map .ok .memory) := if_pos hall
      rw [hsome] at h
      rw [← (Prod.mk.inj (Option.some.inj h)).2]
      rfl
    · have hnone : (Backend.memory store).cleanupExpired clock = none := if_neg hall
      rw [hnone] at h
      cases h

/-! ## In Postgres -/

namespace PostgresStore

variable {store : PostgresStore}

/-- Rows have their own keys, and the expiry that is stored is not earlier than the sum of the
columns by more than the microsecond that cutting a time may take away. -/
def Tidy (store : PostgresStore) : Prop :=
  Keyed.Distinct TestCaseRow.key store.rows ∧
    ∀ row ∈ store.rows, row.triggeredAt + row.timeoutSeconds * 1000000 ≤ row.expiresAt + 1

theorem ofMicros_lt {a b : Int} : ofMicros a < ofMicros b ↔ a < b := by
  show (946684800000000000 + a * 1000 : Int) < 946684800000000000 + b * 1000 ↔ _
  omega

theorem ofMicros_le {a b : Int} : ofMicros a ≤ ofMicros b ↔ a ≤ b := by
  show (946684800000000000 + a * 1000 : Int) ≤ 946684800000000000 + b * 1000 ↔ _
  omega

/-- The time a row is due at is the sum of its columns. -/
theorem expiresAt_toTest (row : TestCaseRow) :
    row.toTest.expiresAt = ofMicros (row.triggeredAt + row.timeoutSeconds * 1000000) := by
  show (946684800000000000 + row.triggeredAt * 1000 + row.timeoutSeconds * 1000000000 : Int) =
    946684800000000000 + (row.triggeredAt + row.timeoutSeconds * 1000000) * 1000
  omega

/-- Whole seconds later is as many microseconds later, up to one. -/
theorem toMicros_add (time seconds : Int) :
    toMicros time + seconds * 1000000 ≤ toMicros (time + durationSeconds seconds) + 1 := by
  show (time - 946684800000000000).tdiv 1000 + seconds * 1000000 ≤
    (time + seconds * 1000000000 - 946684800000000000).tdiv 1000 + 1
  have hfloor (n : Int) : n / 1000 ≤ n.tdiv 1000 ∧ n.tdiv 1000 ≤ n / 1000 + 1 := by
    rcases Int.le_total 0 n with hle | hle
    · rw [Int.tdiv_eq_ediv_of_nonneg hle]
      omega
    · have hneg : n.tdiv 1000 = -(-n / 1000) := by
        rw [← Int.neg_neg n, Int.neg_tdiv, Int.tdiv_eq_ediv_of_nonneg (by omega), Int.neg_neg]
      rw [hneg]
      omega
  have hbefore := (hfloor (time - 946684800000000000)).2
  have hafter := (hfloor (time + seconds * 1000000000 - 946684800000000000)).1
  omega

theorem tidy_register (htidy : store.Tidy) {run : TestCaseRecord} {seconds : Int}
    (htimeout : run.timeout = durationSeconds seconds) (hcolumn : InColumn seconds) :
    (store.register run).Tidy := by
  have hseconds : (TestCaseRow.ofTest run).timeoutSeconds = seconds := by
    show asI32 (numSeconds run.timeout) = seconds
    rw [htimeout, numSeconds_durationSeconds]
    exact asI32_eq_iff.mpr hcolumn
  have hnew : (TestCaseRow.ofTest run).triggeredAt + (TestCaseRow.ofTest run).timeoutSeconds *
      1000000 ≤ (TestCaseRow.ofTest run).expiresAt + 1 := by
    rw [hseconds]
    show toMicros run.triggeredAt + _ ≤ toMicros (run.triggeredAt + run.timeout) + 1
    rw [htimeout]
    exact toMicros_add run.triggeredAt seconds
  constructor
  · unfold register
    dsimp only
    cases hfind : store.rows.find? fun row => row.key = (TestCaseRow.ofTest run).key with
    | none => exact htidy.1.append_new hfind
    | some found =>
      refine (show Keyed.Distinct TestCaseRow.key (Keyed.update TestCaseRow.key
        (TestCaseRow.ofTest run).key
        (fun row => if row.isPending then row.onConflict (.ofTest run) else row) store.rows) from
          htidy.1.update fun row => ?_)
      split
      · rfl
      · rfl
  · intro row hrow
    rcases mem_register hrow with hold | ⟨rfl, -⟩ | ⟨old, hold, rfl, -, -⟩
    · exact htidy.2 row hold
    · exact hnew
    · -- the larger timeout came with an expiry of its own, and the trigger is no later than its
      have hrow := htidy.2 old hold
      show min old.triggeredAt (TestCaseRow.ofTest run).triggeredAt +
        max old.timeoutSeconds (TestCaseRow.ofTest run).timeoutSeconds * 1000000 ≤
          max old.expiresAt (TestCaseRow.ofTest run).expiresAt + 1
      omega

theorem tidy_update (htidy : store.Tidy) (ref testId : String) (f : Progress → Progress) :
    (store.update ref testId f).Tidy := by
  constructor
  · show ((store.rows.map _).map TestCaseRow.key).Nodup
    have hkeys : (store.update ref testId f).rows.map TestCaseRow.key =
        store.rows.map TestCaseRow.key := by
      show (store.rows.map _).map TestCaseRow.key = _
      rw [List.map_map]
      refine List.map_congr_left fun row _ => ?_
      show TestCaseRow.key (if _ then _ else _) = _
      split
      · rfl
      · rfl
    exact hkeys ▸ htidy.1
  · intro row hrow
    obtain ⟨old, hold, rfl⟩ := List.mem_map.mp hrow
    split
    · exact htidy.2 old hold
    · exact htidy.2 old hold

theorem tidy_filter (htidy : store.Tidy) (p : TestCaseRow → Bool) :
    Tidy ⟨store.rows.filter p⟩ :=
  ⟨htidy.1.filter, fun row hrow => htidy.2 row (List.mem_of_mem_filter hrow)⟩

end PostgresStore

namespace Backend

variable {backend : Backend}

/-- The rows of Postgres are in order. -/
def Tidy : Backend → Prop
  | .memory _ => True
  | .postgres store => store.Tidy
  | .cosmos _ _ => True

theorem IsEmpty.tidy (h : backend.IsEmpty) : backend.Tidy := by
  cases backend with
  | memory store => trivial
  | postgres store =>
    have hnil : store.rows = [] := List.map_eq_nil_iff.mp h
    show store.Tidy
    unfold PostgresStore.Tidy
    rw [hnil]
    exact ⟨List.nodup_nil, fun _ hrow => absurd hrow List.not_mem_nil⟩
  | cosmos container service => trivial

/-- A registration in range leaves the rows in order. -/
theorem Tidy.register {claims : PluginAuthClaims} {authHeader : Option String}
    {req : RegisterTestCaseRequest} {now : Timestamp} {accepts : Bool} {kept : Backend}
    (htidy : backend.Tidy) (hsound : backend.Sound)
    (hrange : (timeoutDuration req.seconds).isOk →
      backend.InRange claims authHeader req now accepts)
    (h : backend.registerTestCase claims authHeader req now accepts = .created kept) :
    kept.Tidy := by
  by_cases hduration : (timeoutDuration req.seconds).isOk
  · have hin := hrange hduration
    rw [registerTestCase_ok hduration] at h
    cases backend with
    | memory store =>
      rw [← Registration.created.inj h]
      trivial
    | postgres store =>
      obtain ⟨haccepts, hrun, heq⟩ := written_iff.mp h
      have hcolumn := PostgresStore.inColumn_of_found hsound rfl (hin haccepts hrun)
      exact heq ▸ PostgresStore.tidy_register htidy rfl hcolumn
    | cosmos container service =>
      obtain ⟨-, -, heq⟩ := written_iff.mp h
      rw [← heq]
      trivial
  · rw [registerTestCase_panics hduration] at h
    cases h

theorem Tidy.setVerdict (htidy : backend.Tidy) (ref testId : String) (passed : Bool)
    (failureMessage : Option String) :
    ((backend.setVerdict ref testId passed failureMessage).toOption.getD backend).Tidy := by
  cases backend with
  | memory store => exact holds_returned htidy (f := Backend.memory) fun _ _ => trivial
  | postgres store =>
    refine holds_returned htidy (f := Backend.postgres) fun after hafter => ?_
    unfold PostgresStore.setVerdict at hafter
    split at hafter
    · rw [← Except.ok.inj hafter]
      exact PostgresStore.tidy_update htidy ref testId _
    · cases hafter
  | cosmos container service =>
    exact holds_returned htidy (f := (Backend.cosmos · service)) fun _ _ => trivial

theorem Tidy.markTimedOut (htidy : backend.Tidy) (ref testId : String) :
    ((backend.markTimedOut ref testId).toOption.getD backend).Tidy := by
  cases backend with
  | memory store => exact holds_returned htidy (f := Backend.memory) fun _ _ => trivial
  | postgres store =>
    refine holds_returned htidy (f := Backend.postgres) fun after hafter => ?_
    unfold PostgresStore.markTimedOut at hafter
    split at hafter
    · rw [← Except.ok.inj hafter]
      exact PostgresStore.tidy_update htidy ref testId _
    · cases hafter
  | cosmos container service =>
    exact holds_returned htidy (f := (Backend.cosmos · service)) fun _ _ => trivial

theorem Tidy.decrementRetries (htidy : backend.Tidy) (ref testId : String) :
    (((backend.decrementRetries ref testId).toOption.map Prod.snd).getD backend).Tidy := by
  cases backend with
  | memory store => exact holds_retried htidy (f := Backend.memory) fun _ _ => trivial
  | postgres store =>
    show (Backend.postgres (store.decrementRetries ref testId).2).Tidy
    unfold PostgresStore.decrementRetries
    split
    · split
      · exact PostgresStore.tidy_update htidy ref testId _
      · exact htidy
    · exact htidy
  | cosmos container service =>
    exact holds_retried htidy (f := (Backend.cosmos · service)) fun _ _ => trivial

theorem Tidy.cleanupExpired (htidy : backend.Tidy) (clock : Int) :
    (((backend.cleanupExpired clock).map Prod.snd).getD backend).Tidy := by
  cases backend with
  | memory store =>
    by_cases hall : ∀ run ∈ store.listPending, Representable run.expiresAt
    · rw [show (Backend.memory store).cleanupExpired clock =
        some ((store.cleanupExpired clock).map .ok .memory) from if_pos hall]
      trivial
    · rw [show (Backend.memory store).cleanupExpired clock = none from if_neg hall]
      trivial
  | postgres store => exact PostgresStore.tidy_filter htidy _
  | cosmos container service => trivial

/-- **One event** leaves the rows in order. -/
theorem Tidy.after (htidy : backend.Tidy) (hsound : backend.Sound) {event : StoreEvent}
    {events : List StoreEvent} (h : backend.StaysInRange (event :: events)) :
    (backend.after event).Tidy := by
  cases event with
  | register claims authHeader req now accepts =>
    exact holds_registered htidy fun kept hregister => htidy.register hsound h.1 hregister
  | setVerdict ref testId passed failureMessage => exact htidy.setVerdict ref testId passed _
  | markTimedOut ref testId => exact htidy.markTimedOut ref testId
  | decrementRetries ref testId => exact htidy.decrementRetries ref testId
  | cleanupBlueGreen ref =>
    cases backend with
    | memory store => trivial
    | postgres store => exact PostgresStore.tidy_filter htidy _
    | cosmos container service => trivial
  | cleanupExpired clock => exact htidy.cleanupExpired clock

theorem Tidy.afterAll {events : List StoreEvent} : ∀ {backend : Backend}, backend.Tidy →
    backend.Sound → backend.StaysInRange events → (backend.afterAll events).Tidy := by
  induction events with
  | nil =>
    intro backend htidy _ _
    exact htidy
  | cons event events ih =>
    intro backend htidy hsound h
    exact ih (htidy.after hsound h) (hsound.after h) h.2

end Backend

/-- The counts are the numbers of cases with each status. -/
theorem countsForRuns_statuses (runs : List TestCaseRecord) :
    countsForRuns runs =
      ⟨(runs.filter fun run => run.status = .passed).length,
        (runs.filter fun run => run.status = .failed).length,
        (runs.filter fun run => run.status = .timedOut).length,
        (runs.filter fun run => run.status = .triggered ∨ run.status = .observing).length⟩ := by
  induction runs with
  | nil => rfl
  | cons run runs ih =>
    rw [countsForRuns_cons, ih]
    cases hstatus : run.status with
    | passed => simp [Counts.add, Counts.ofStatus, hstatus, Int.add_comm]
    | failed => simp [Counts.add, Counts.ofStatus, hstatus, Int.add_comm]
    | timedOut => simp [Counts.add, Counts.ofStatus, hstatus, Int.add_comm]
    | triggered => simp [Counts.add, Counts.ofStatus, hstatus, Int.add_comm]
    | observing => simp [Counts.add, Counts.ofStatus, hstatus, Int.add_comm]

namespace PostgresStore

variable {store : PostgresStore} {bg : String}

theorem countsQuery_eq (predicate : TestCaseRow → Bool) :
    store.countsQuery predicate = countsForRuns ((store.rows.filter predicate).map (·.toTest)) := by
  rw [countsForRuns_statuses]
  simp only [List.filter_map, List.length_map]
  rfl

theorem casesOf_rows : casesOf bg (store.rows.map (·.toTest)) =
    (store.rows.filter fun row => row.blueGreenRef = bg).map (·.toTest) :=
  List.filter_map

/-- The message that is returned is a latest one. -/
theorem latestFailureMessage_isLatest :
    IsLatest (casesOf bg (store.rows.map (·.toTest))) (store.latestFailureMessage bg) := by
  let failures := store.rows.filter fun row => row.blueGreenRef = bg ∧ row.failureMessage.isSome
  have hfailures {row : TestCaseRow} (h : row ∈ failures) :
      row ∈ store.rows ∧ row.blueGreenRef = bg ∧ row.failureMessage.isSome := by
    obtain ⟨hrow, hp⟩ := List.mem_filter.mp h
    exact ⟨hrow, of_decide_eq_true hp⟩
  have heq : store.latestFailureMessage bg = ((newest TestCaseRow.triggeredAt failures).map
      (·.toTest)).bind (·.failureMessage) := by
    show (newest TestCaseRow.triggeredAt failures).bind _ = _
    rw [Option.bind_map]
    rfl
  have hcase {run : TestCaseRecord} (h : run ∈ casesOf bg (store.rows.map (·.toTest)))
      (hmessage : run.failureMessage.isSome) : ∃ row ∈ failures, row.toTest = run := by
    rw [casesOf_rows] at h
    obtain ⟨row, hrow, rfl⟩ := List.mem_map.mp h
    obtain ⟨hrow, hbg⟩ := List.mem_filter.mp hrow
    exact ⟨row, List.mem_filter.mpr ⟨hrow, decide_eq_true ⟨of_decide_eq_true hbg, hmessage⟩⟩, rfl⟩
  rw [heq]
  refine (isLatest_iff (fun hnone run hrun => ?_) (fun run hrun => ?_)).mpr fun run hrun => ?_
  · by_contra hmessage
    obtain ⟨row, hrow, -⟩ := hcase hrun (Option.isSome_iff_ne_none.mpr hmessage)
    rw [newest_eq_none_iff.mp (Option.map_eq_none_iff.mp hnone)] at hrow
    cases hrow
  · obtain ⟨row, hrow, rfl⟩ := Option.map_eq_some_iff.mp hrun
    exact (hfailures (newest_spec hrow).1).2.2
  · obtain ⟨row, hrow, rfl⟩ := Option.map_eq_some_iff.mp hrun
    obtain ⟨hmem, hmax⟩ := newest_spec hrow
    obtain ⟨hstored, hbg, -⟩ := hfailures hmem
    refine ⟨row.toTest, ?_, rfl, fun other hother hmessage => ?_⟩
    · rw [casesOf_rows]
      exact List.mem_map_of_mem (List.mem_filter.mpr ⟨hstored, decide_eq_true hbg⟩)
    · obtain ⟨later, hlater, rfl⟩ := hcase hother hmessage
      exact ofMicros_le.mpr (hmax later hlater)

theorem answers {mode : VerificationMode} : (Backend.postgres store).Answers bg mode where
  pending := List.filter_map.symm
  refs ref := by
    show ref ∈ (OrdMap.ofList _).keys ↔ ∃ run ∈ store.rows.map (·.toTest), _
    rw [OrdMap.mem_keys_ofList, List.map_map]
    constructor
    · intro h
      obtain ⟨row, hrow, rfl⟩ := List.mem_map.mp h
      exact ⟨row.toTest, List.mem_map_of_mem hrow, rfl⟩
    · intro h
      obtain ⟨run, hrun, rfl⟩ := h
      obtain ⟨row, hrow, rfl⟩ := List.mem_map.mp hrun
      exact List.mem_map.mpr ⟨row, hrow, rfl⟩
  counts := by
    show store.counts bg = countsForRuns (casesOf bg (store.rows.map (·.toTest)))
    rw [casesOf_rows]
    exact countsQuery_eq _
  countsForMode := by
    show store.countsForMode bg mode =
      countsForRuns ((casesOf bg (store.rows.map (·.toTest))).filter _)
    rw [casesOf_rows, List.filter_map, List.filter_filter]
    refine (countsQuery_eq _).trans (congrArg (countsForRuns <| List.map _ ·) ?_)
    refine List.filter_congr fun row _ => ?_
    simp [Bool.and_comm, TestCaseRow.toTest]
  message := latestFailureMessage_isLatest

/-- What is read back tells the rows apart. -/
theorem Tidy.toTest_inj (htidy : store.Tidy) : ∀ x ∈ store.rows, ∀ y ∈ store.rows,
    x.toTest = y.toTest → x = y := by
  intro x hx y hy h
  refine htidy.1.eq_of_key hx hy ?_
  exact Prod.ext (congrArg TestCaseRecord.blueGreenRef h) (congrArg TestCaseRecord.testId h)

theorem cleans_iff (htidy : store.Tidy) {clock : Int} :
    (Backend.postgres store).Cleans bg clock ↔ store.ExpiresBySum clock := by
  have hfilter : (∀ n after, (Backend.postgres store).cleanupExpired clock = some (.ok n, after) →
      after.records = (Backend.postgres store).records.filter fun run =>
        ¬ (run.isPending ∧ run.expiresAt < (Backend.postgres store).time clock)) ↔
      store.ExpiresBySum clock := by
    have hpoint (row : TestCaseRow) :
        decide (¬ (row.expiresAt < clock ∧ row.isPending)) =
          decide (¬ (row.toTest.isPending ∧ row.toTest.expiresAt < ofMicros clock)) ↔
        (row.isPending → (row.expiresAt < clock ↔
          row.triggeredAt + row.timeoutSeconds * 1000000 < clock)) := by
      rw [decide_eq_decide, expiresAt_toTest, ofMicros_lt]
      show (¬ (_ ∧ row.isPending) ↔ ¬ (row.isPending ∧ _)) ↔ _
      tauto
    calc _ ↔ ((store.rows.filter fun row => ¬ (row.expiresAt < clock ∧ row.isPending)).map
            (·.toTest)) = (store.rows.map (·.toTest)).filter fun run =>
              ¬ (run.isPending ∧ run.expiresAt < ofMicros clock) := by
          constructor
          · intro h
            exact h _ _ rfl
          · intro h n after hafter
            rw [← (Prod.mk.inj (Option.some.inj hafter)).2]
            exact h
      _ ↔ _ := by
          rw [List.filter_map, filter_map_inj_iff htidy.toTest_inj]
          exact forall₂_congr fun row _ => hpoint row
  constructor
  · intro h
    exact hfilter.mp h.expired
  · intro h
    refine ⟨fun n after hafter => ?_, hfilter.mpr h⟩
    rw [← (Prod.mk.inj hafter).2]
    show (store.rows.filter _).map _ = (store.rows.map (·.toTest)).filter _
    rw [List.filter_map]
    rfl

/-- A case whose row is deleted is pending and due. -/
theorem patient (htidy : store.Tidy) {clock : Int} : (Backend.postgres store).Patient clock := by
  intro row hrow hgone
  have hexpired : row.expiresAt < clock ∧ row.isPending := by
    by_contra hkept
    exact hgone (List.mem_filter.mpr ⟨hrow, decide_eq_true hkept⟩)
  refine ⟨hexpired.2, ?_⟩
  rw [expiresAt_toTest, ofMicros_le]
  have hsum := htidy.2 row hrow
  have hbefore := hexpired.1
  omega

end PostgresStore

/-! ## In Cosmos -/

namespace CosmosContainer

variable {container : CosmosContainer} {service : CosmosService}

theorem query_onePage {query : CosmosQuery} (h : container.OnePage service query) :
    container.query service query = container.docs.filter query.selects :=
  List.take_of_length_le h

/-- A page is all of an answer if something that counts its documents says so. -/
theorem onePage_of_length {query : CosmosQuery}
    (h : (container.query service query).length = (container.docs.filter query.selects).length) :
    container.OnePage service query := by
  unfold CosmosContainer.query at h
  rw [List.length_take] at h
  unfold OnePage
  omega

theorem foldl_sum (status : TestStatus → Bool) (rows : List CosmosTestCase) (n : Int) :
    (rows.map fun doc => if status doc.status then (1 : Int) else 0).foldl (· + ·) n =
      n + ((rows.map (·.toTest)).filter fun run => status run.status).length := by
  induction rows generalizing n with
  | nil => simp
  | cons doc rows ih =>
    have hsame : doc.toTest.status = doc.status := rfl
    rw [List.map_cons, List.foldl_cons, ih, List.map_cons]
    cases hstatus : status doc.status with
    | true =>
      rw [if_pos rfl, List.filter_cons_of_pos (by rw [hsame, hstatus]), List.length_cons]
      omega
    | false =>
      rw [if_neg (by simp), List.filter_cons_of_neg (by simp [hsame, hstatus])]
      omega

theorem sum_eq (status : TestStatus → Bool) (rows : List CosmosTestCase) :
    (rows.map fun doc => if status doc.status then (1 : Int) else 0).foldl (· + ·) (0 : Int) =
      ((rows.map (·.toTest)).filter fun run => status run.status).length :=
  (foldl_sum status rows 0).trans (Int.zero_add _)

theorem countsQuery_eq (rows : List CosmosTestCase) :
    countsQuery rows = countsForRuns (rows.map (·.toTest)) := by
  rw [countsForRuns_statuses]
  unfold countsQuery
  dsimp only
  rw [sum_eq fun status => status = .passed, sum_eq fun status => status = .failed,
    sum_eq fun status => status = .timedOut,
    sum_eq fun status => status = .triggered ∨ status = .observing]

/-- Sums over a page are those over the documents just when there is one page. -/
theorem countsQuery_iff {query : CosmosQuery} :
    countsQuery (container.query service query) =
        countsForRuns ((container.docs.filter query.selects).map (·.toTest)) ↔
      container.OnePage service query := by
  constructor
  · intro h
    refine onePage_of_length ?_
    rw [countsQuery_eq] at h
    have hpage := countsForRuns_length ((container.query service query).map (·.toTest))
    have hall := countsForRuns_length ((container.docs.filter query.selects).map (·.toTest))
    rw [h] at hpage
    rw [List.length_map] at hpage hall
    exact Int.ofNat_inj.mp (hpage.symm.trans hall)
  · intro h
    rw [countsQuery_eq, query_onePage h]

theorem listPending_iff :
    container.listPending service = (container.docs.map (·.toTest)).filter (·.isPending) ↔
      container.OnePage service .pending := by
  have hall : (container.docs.map (·.toTest)).filter (·.isPending) =
      (container.docs.filter CosmosQuery.pending.selects).map (·.toTest) := List.filter_map
  constructor
  · intro h
    have hlength := congrArg List.length (h.trans hall)
    rw [List.length_map] at hlength
    exact onePage_of_length ((List.length_map _).symm.trans hlength)
  · intro h
    rw [hall, ← query_onePage h]
    rfl

theorem listBlueGreenRefs_iff :
    (∀ ref, ref ∈ (container.listBlueGreenRefs service).keys ↔
        ∃ run ∈ container.docs.map (·.toTest), run.blueGreenRef = ref) ↔
      ∀ doc ∈ container.docs, ∃ seen ∈ container.query service .refs,
        seen.blueGreenRef = doc.blueGreenRef := by
  have hkeys (ref : String) : ref ∈ (container.listBlueGreenRefs service).keys ↔
      ∃ seen ∈ container.query service .refs, seen.blueGreenRef = ref := by
    show ref ∈ (OrdMap.ofList _).keys ↔ _
    rw [OrdMap.mem_keys_ofList, List.map_map]
    exact List.mem_map
  constructor
  · intro h doc hdoc
    exact (hkeys _).mp ((h _).mpr ⟨doc.toTest, List.mem_map_of_mem hdoc, rfl⟩)
  · intro h ref
    rw [hkeys]
    constructor
    · intro hseen
      obtain ⟨seen, hmem, rfl⟩ := hseen
      exact ⟨seen.toTest, List.mem_map_of_mem (List.mem_of_mem_filter (List.mem_of_mem_take hmem)),
        rfl⟩
    · intro hrun
      obtain ⟨run, hmem, rfl⟩ := hrun
      obtain ⟨doc, hdoc, rfl⟩ := List.mem_map.mp hmem
      exact h doc hdoc

theorem casesOf_docs {bg : String} : casesOf bg (container.docs.map (·.toTest)) =
    (container.docs.filter (CosmosQuery.counts bg none).selects).map (·.toTest) := by
  unfold casesOf
  rw [List.filter_map]
  refine congrArg (List.map _) (List.filter_congr fun doc _ => ?_)
  simp [CosmosQuery.selects, CosmosTestCase.toTest]

theorem casesOf_docs_mode {bg : String} {mode : VerificationMode} :
    (casesOf bg (container.docs.map (·.toTest))).filter (fun run => run.verificationMode = mode) =
      (container.docs.filter (CosmosQuery.counts bg (some mode)).selects).map (·.toTest) := by
  unfold casesOf
  rw [List.filter_map, List.filter_map, List.filter_filter]
  refine congrArg (List.map _) (List.filter_congr fun doc _ => ?_)
  simp [CosmosQuery.selects, CosmosTestCase.toTest, Bool.and_comm, eq_comm]

theorem latestFailureMessage_iff {bg : String} :
    IsLatest (casesOf bg (container.docs.map (·.toTest)))
        (container.latestFailureMessage service bg) ↔
      container.InTextOrder service bg := by
  let failures := container.docs.filter (CosmosQuery.failures bg).selects
  have hcase {doc : CosmosTestCase} (h : doc ∈ failures) :
      doc.toTest ∈ casesOf bg (container.docs.map (·.toTest)) ∧ doc.failureMessage.isSome := by
    obtain ⟨hdoc, hp⟩ := List.mem_filter.mp h
    obtain ⟨hbg, hmessage⟩ := of_decide_eq_true hp
    exact ⟨List.mem_filter.mpr ⟨List.mem_map_of_mem hdoc, decide_eq_true hbg⟩, hmessage⟩
  unfold InTextOrder CosmosContainer.latestFailureMessage
  dsimp only
  cases htop : newest (fun doc : CosmosTestCase => timeText doc.triggeredAt) failures with
  | none =>
    constructor
    · intro _ doc h
      cases h
    · intro _
      show IsLatest _ ((([] : List CosmosTestCase).take _).head?.bind _)
      rw [List.take_nil]
      intro run hrun
      by_contra hmessage
      obtain ⟨hmem, hbg⟩ := List.mem_filter.mp hrun
      obtain ⟨doc, hdoc, rfl⟩ := List.mem_map.mp hmem
      have hfailure : doc ∈ failures := List.mem_filter.mpr ⟨hdoc, decide_eq_true
        ⟨of_decide_eq_true hbg, Option.isSome_iff_ne_none.mpr hmessage⟩⟩
      rw [newest_eq_none_iff.mp htop] at hfailure
      cases hfailure
  | some doc =>
    obtain ⟨hmem, hmessage⟩ := hcase (newest_mem htop)
    obtain ⟨message, hsome⟩ := Option.isSome_iff_exists.mp hmessage
    cases hpage : service.firstPage (.failures bg) with
    | zero =>
      constructor
      · intro h
        -- no case is returned, although there is one with a message
        have hnone : IsLatest (casesOf bg (container.docs.map (·.toTest))) none := h
        rw [show doc.failureMessage = none from hnone doc.toTest hmem] at hsome
        cases hsome
      · intro h
        exact absurd (h doc rfl).1 (by omega)
    | succ k =>
      have hreturned : (((some doc).toList.take (k + 1)).head?.bind (·.failureMessage)) =
          some message := hsome
      rw [hreturned]
      constructor
      · intro h other hother
        rw [← Option.some.inj hother, hsome]
        exact ⟨k.succ_pos, h⟩
      · intro h
        have hlatest := (h doc rfl).2
        rw [hsome] at hlatest
        exact hlatest

/-- **Cosmos answers from all records** just where each answer it reads has one page, and the first
case by the text of its trigger is the latest one. -/
theorem answers_iff {bg : String} {mode : VerificationMode} :
    (Backend.cosmos container service).Answers bg mode ↔
      (Backend.cosmos container service).Complete bg mode := by
  have hcounts : container.counts service bg none =
        countsForRuns (casesOf bg (container.docs.map (·.toTest))) ↔
      container.OnePage service (.counts bg none) := by
    rw [casesOf_docs]
    exact countsQuery_iff
  have hmode : container.counts service bg (some mode) =
        countsForRuns ((casesOf bg (container.docs.map (·.toTest))).filter
          fun run => run.verificationMode = mode) ↔
      container.OnePage service (.counts bg (some mode)) := by
    rw [casesOf_docs_mode]
    exact countsQuery_iff
  constructor
  · intro h
    exact ⟨listPending_iff.mp h.pending, listBlueGreenRefs_iff.mp h.refs, hcounts.mp h.counts,
      hmode.mp h.countsForMode, latestFailureMessage_iff.mp h.message⟩
  · intro h
    obtain ⟨hpending, hrefs, hall, hsome, hmessage⟩ := h
    exact ⟨listPending_iff.mpr hpending, listBlueGreenRefs_iff.mpr hrefs, hcounts.mpr hall,
      hmode.mpr hsome, latestFailureMessage_iff.mpr hmessage⟩

/-- A document that one of some requests deletes. -/
def isDeleted (service : CosmosService) (rows : List CosmosTestCase) (doc : CosmosTestCase) :
    Bool :=
  rows.any fun row => service.delete row = .deleted ∧ doc.address = row.address

/-- How the loop ends: with an error where a request fails, and otherwise well, with the documents
deleted that the service did not refuse to delete. -/
def EndsAs (service : CosmosService) (container : CosmosContainer) (rows : List CosmosTestCase)
    (result : Except StoreError Nat × CosmosContainer) : Prop :=
  (∃ row ∈ rows, ∃ text, service.delete row = .failed text) ∧ (∃ e, result.1 = .error e) ∨
    (∃ n, result.1 = .ok n) ∧ (∀ row ∈ rows, ∀ text, service.delete row ≠ .failed text) ∧
      result.2.docs = container.docs.filter fun doc => !isDeleted service rows doc

/-- A request that does not fail leaves the end to the others. -/
theorem EndsAs.cons {next : CosmosContainer} {row : CosmosTestCase} {rows : List CosmosTestCase}
    {result : Except StoreError Nat × CosmosContainer} (h : EndsAs service next rows result)
    (hrow : ∀ text, service.delete row ≠ .failed text)
    (hdocs : (next.docs.filter fun doc => !isDeleted service rows doc) =
      container.docs.filter fun doc => !isDeleted service (row :: rows) doc) :
    EndsAs service container (row :: rows) result := by
  rcases h with ⟨⟨other, hother, hfailed⟩, herror⟩ | ⟨hok, hnone, hleft⟩
  · exact .inl ⟨⟨other, .tail _ hother, hfailed⟩, herror⟩
  · exact .inr ⟨hok, List.forall_mem_cons.mpr ⟨hrow, hnone⟩, hleft.trans hdocs⟩

theorem deleteDocs_spec (rows : List CosmosTestCase) :
    ∀ (container : CosmosContainer) (deleted : Nat),
      EndsAs service container rows (deleteDocs service container deleted rows) := by
  induction rows with
  | nil =>
    intro container deleted
    refine .inr ⟨⟨deleted, rfl⟩, fun row hrow => absurd hrow List.not_mem_nil, ?_⟩
    exact (List.filter_eq_self.mpr fun _ _ => rfl).symm
  | cons row rows ih =>
    intro container deleted
    unfold deleteDocs
    cases hdelete : service.delete row with
    | failed text => exact .inl ⟨⟨row, .head _, text, hdelete⟩, .other text, rfl⟩
    | refused =>
      refine (ih container deleted).cons (fun text h => ?_) (List.filter_congr fun doc _ => ?_)
      · rw [hdelete] at h
        cases h
      · simp [isDeleted, hdelete]
    | deleted =>
      refine (ih (container.remove fun stored => stored.address = row.address) (deleted + 1)).cons
        (fun text h => ?_) ?_
      · rw [hdelete] at h
        cases h
      · show (container.docs.filter _).filter _ = _
        rw [List.filter_filter]
        refine List.filter_congr fun doc _ => ?_
        simp [isDeleted, hdelete, Bool.and_comm]

theorem eq_of_address {x y : CosmosTestCase} (hx : x ∈ container.docs) (hy : y ∈ container.docs)
    (h : x.address = y.address) : x = y :=
  List.inj_on_of_nodup_map container.unique hx hy h

/-- What is read back tells the documents apart. -/
theorem toTest_inj : ∀ x ∈ container.docs, ∀ y ∈ container.docs, x.toTest = y.toTest → x = y := by
  intro x hx y hy h
  have hbg : x.blueGreenRef = y.blueGreenRef := congrArg TestCaseRecord.blueGreenRef h
  have htestId : x.testId = y.testId := congrArg TestCaseRecord.testId h
  refine eq_of_address hx hy (Prod.ext hbg ?_)
  show x.id = y.id
  rw [container.ids x hx, container.ids y hy, hbg, htestId]

theorem isDeleted_iff {query : CosmosQuery} {doc : CosmosTestCase} (hdoc : doc ∈ container.docs) :
    isDeleted service (container.query service query) doc = true ↔
      container.Reaches service query doc := by
  constructor
  · intro h
    obtain ⟨row, hrow, hp⟩ := List.any_eq_true.mp h
    obtain ⟨hdeleted, haddress⟩ := of_decide_eq_true hp
    have hstored := List.mem_of_mem_filter (List.mem_of_mem_take hrow)
    have hsame := eq_of_address hdoc hstored haddress
    exact ⟨hsame ▸ hrow, hsame ▸ hdeleted⟩
  · intro h
    exact List.any_eq_true.mpr ⟨doc, h.1, decide_eq_true ⟨h.2, rfl⟩⟩

/-- A cleanup removes what it is about just where a request of it fails or it reaches exactly
that. -/
theorem cleanup_iff (query : CosmosQuery) (p : TestCaseRecord → Bool) :
    (∀ n after, deleteDocs service container 0 (container.query service query) = (.ok n, after) →
        after.docs.map (·.toTest) = (container.docs.map (·.toTest)).filter fun run => !p run) ↔
      container.Fails service query ∨
        ∀ doc ∈ container.docs, (container.Reaches service query doc ↔ p doc.toTest) := by
  rcases @deleteDocs_spec service (container.query service query) container 0 with
    ⟨hfails, e, herror⟩ | ⟨⟨n, hok⟩, hnone, hdocs⟩
  · constructor
    · intro _
      exact .inl hfails
    · intro _ n after h
      rw [h] at herror
      cases herror
  · have hkept : (∀ n after, deleteDocs service container 0 (container.query service query) =
          (.ok n, after) → after.docs.map (·.toTest) =
            (container.docs.map (·.toTest)).filter fun run => !p run) ↔
        ∀ doc ∈ container.docs, (container.Reaches service query doc ↔ p doc.toTest) := by
      have hfilter : (deleteDocs service container 0 (container.query service query)).2.docs.map
            (·.toTest) = (container.docs.map (·.toTest)).filter (fun run => !p run) ↔
          ∀ doc ∈ container.docs, (container.Reaches service query doc ↔ p doc.toTest) := by
        rw [hdocs, List.filter_map, filter_map_inj_iff toTest_inj]
        refine forall₂_congr fun doc hdoc => ?_
        rw [← isDeleted_iff hdoc]
        show (!_) = (!_) ↔ _
        rw [Bool.not_inj_iff, Bool.eq_iff_iff]
      rw [← hfilter]
      constructor
      · intro h
        exact h n _ (Prod.ext hok rfl)
      · intro h n' after hafter
        rw [hafter] at h
        exact h
    rw [hkept]
    constructor
    · intro h
      exact .inr h
    · intro h
      rcases h with ⟨doc, hdoc, text, hfailed⟩ | h
      · exact absurd hfailed (hnone doc hdoc text)
      · exact h

/-- The loop returns what the backend returns. -/
theorem forall_returned_iff (P : List TestCaseRecord → Prop)
    (result : Except StoreError Nat × CosmosContainer) :
    (∀ n after, (result.map id (Backend.cosmos · service)) = (.ok n, after) → P after.records) ↔
      ∀ n after, result = (.ok n, after) → P (after.docs.map (·.toTest)) := by
  constructor
  · intro h n after hresult
    exact h n (.cosmos after service) (by rw [hresult]; rfl)
  · intro h n after hresult
    have hok : result.1 = .ok n := congrArg Prod.fst hresult
    have hafter : Backend.cosmos result.2 service = after := congrArg Prod.snd hresult
    rw [← hafter]
    exact h n result.2 (Prod.ext hok rfl)

/-- **Cosmos cleans up** just where a request fails, or the first page and the service let it reach
exactly what there is to remove. -/
theorem cleans_iff {bg : String} {clock : Int} :
    (Backend.cosmos container service).Cleans bg clock ↔
      (Backend.cosmos container service).Thorough bg clock := by
  let records := container.docs.map (·.toTest)
  have hrollout : (∀ n after, (Backend.cosmos container service).cleanupBlueGreen bg =
      (.ok n, after) → after.records = records.filter fun run => run.blueGreenRef ≠ bg) ↔
      container.Fails service (.ofBlueGreen bg) ∨ ∀ doc ∈ container.docs,
        doc.blueGreenRef = bg → container.Reaches service (.ofBlueGreen bg) doc := by
    refine (forall_returned_iff (fun left => left = records.filter fun run => run.blueGreenRef ≠ bg)
      (container.cleanupBlueGreen service bg)).trans ?_
    simp only [ne_eq, decide_not]
    refine (cleanup_iff (.ofBlueGreen bg) fun run => run.blueGreenRef = bg).trans
      (or_congr_right ?_)
    refine forall₂_congr fun doc _ => ⟨fun h hbg => h.mpr (decide_eq_true hbg), fun h => ?_⟩
    constructor
    · intro hreached
      exact (List.mem_filter.mp (List.mem_of_mem_take hreached.1)).2
    · intro hbg
      exact h (of_decide_eq_true hbg)
  have hexpired : (∀ n after, (Backend.cosmos container service).cleanupExpired clock =
      some (.ok n, after) → after.records = records.filter fun run =>
        ¬ (run.isPending ∧ run.expiresAt < clock)) ↔
      container.Fails service (.expired clock) ∨ ∀ doc ∈ container.docs,
        (container.Reaches service (.expired clock) doc ↔
          doc.isPending ∧ doc.toTest.expiresAt < clock) := by
    have hreturned := @forall_returned_iff service (fun left => left =
      records.filter fun run => ¬ (run.isPending ∧ run.expiresAt < clock))
      (container.cleanupExpired service clock)
    simp only [decide_not] at hreturned ⊢
    refine Iff.trans ?_ (hreturned.trans ((cleanup_iff (.expired clock)
      fun run => run.isPending ∧ run.expiresAt < clock).trans (or_congr_right ?_)))
    · exact ⟨fun h n after hafter => h n after (congrArg some hafter),
        fun h n after hafter => h n after (Option.some.inj hafter)⟩
    · refine forall₂_congr fun doc _ => ?_
      rw [decide_eq_true_iff]
      rfl
  constructor
  · intro h
    exact ⟨hrollout.mp h.rollout, hexpired.mp h.expired⟩
  · intro h
    exact ⟨hrollout.mpr h.1, hexpired.mpr h.2⟩

end CosmosContainer

/-! ## Any backend -/

namespace Backend

variable {backend : Backend}

theorem answers_iff {bg : String} {mode : VerificationMode} :
    backend.Answers bg mode ↔ backend.Complete bg mode := by
  cases backend with
  | memory store => exact MemoryStore.answers_iff
  | postgres store => exact ⟨fun _ => trivial, fun _ => PostgresStore.answers⟩
  | cosmos container service => exact CosmosContainer.answers_iff

theorem cleans_iff (htidy : backend.Tidy) {bg : String} {clock : Int} :
    backend.Cleans bg clock ↔ backend.Thorough bg clock := by
  cases backend with
  | memory store => exact ⟨fun _ => trivial, fun _ => MemoryStore.cleans⟩
  | postgres store => exact PostgresStore.cleans_iff htidy
  | cosmos container service => exact CosmosContainer.cleans_iff

theorem Tidy.patient (htidy : backend.Tidy) (clock : Int) : backend.Patient clock := by
  cases backend with
  | memory store => trivial
  | postgres store => exact PostgresStore.patient htidy
  | cosmos container service => trivial

end Backend

/-- **What the store sees.** After every run from an empty backend whose registrations stay in
range, the questions about all records are answered from all of them exactly where the backend is
complete, and the two cleanups remove exactly what they are about where it is thorough. What
Postgres deletes as expired is pending and due by what is read back of it. -/
theorem store_sees_all {backend : Backend} (hempty : backend.IsEmpty) {events : List StoreEvent}
    (hrange : backend.StaysInRange events) (bg : String) (mode : VerificationMode) (clock : Int) :
    ((backend.afterAll events).Answers bg mode ↔ (backend.afterAll events).Complete bg mode) ∧
      ((backend.afterAll events).Cleans bg clock ↔ (backend.afterAll events).Thorough bg clock) ∧
      (backend.afterAll events).Patient clock := by
  have htidy : (backend.afterAll events).Tidy := hempty.tidy.afterAll hempty.sound hrange
  exact ⟨Backend.answers_iff, Backend.cleans_iff htidy, htidy.patient clock⟩

open TimeoutRange in
/-- One case of an hour in Postgres. -/
theorem hour_seen :
    let reached := (Backend.postgres ⟨[]⟩).afterAll
      [.register splitter none (asked "case-1" 3600) noon true]
    (reached.Answers "shop/orders" .data ↔ reached.Complete "shop/orders" .data) ∧
      (reached.Cleans "shop/orders" 0 ↔ reached.Thorough "shop/orders" 0) ∧ reached.Patient 0 :=
  @store_sees_all (.postgres ⟨[]⟩) rfl [.register splitter none (asked "case-1" 3600) noon true]
    ⟨fun _ _ _ => (by decide : InColumn 3600), trivial⟩ "shop/orders" .data 0

end FluidBG
