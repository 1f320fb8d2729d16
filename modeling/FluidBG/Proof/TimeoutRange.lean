import FluidBG.Proof.DuplicateMerge
import FluidBG.Proof.Finalization
import FluidBG.StateStore
/-!
# Timeouts out of range

The timeout of a registration is a number of seconds that nobody checks. It is added to a point in
time when the case may have expired, by the one task that looks after all rollouts, and in Postgres
it is cut to a column of 32 bits. Along any run whose registrations stay in range the tracker gets
through its list, and each registration is what it asked for exactly when it stays in range itself.
-/

set_option autoImplicit false

namespace FluidBG

open Lib

/-- A number that the column of the timeout holds. -/
def InColumn (seconds : Int) : Prop := -2147483648 ≤ seconds ∧ seconds ≤ 2147483647

instance (seconds : Int) : Decidable (InColumn seconds) := inferInstanceAs (Decidable (_ ∧ _))

section Request

variable (claims : PluginAuthClaims) (authHeader : Option String) (req : RegisterTestCaseRequest)
  (now : Timestamp)

def RegisterTestCaseRequest.seconds : Int := req.timeoutSeconds.getD 60

/-- The record that a request asks for. -/
def requestedRecord : TestCaseRecord :=
  registeredRecord claims authHeader req (req.triggeredAt.getD now) (durationSeconds req.seconds)

end Request

/-! ## What is to hold of a registration -/

namespace Backend

/-- Each round of `check_timeouts` gets to its end, and marks the cases whose time is over. -/
def Tracked (backend : Backend) : Prop := ∀ now, expiredCases now backend.listPending =
  some (backend.listPending.filter fun run => run.expiresAt < now)

section Request

variable (backend : Backend) (claims : PluginAuthClaims) (authHeader : Option String)
  (req : RegisterTestCaseRequest) (now : Timestamp) (accepts : Bool)

/-- Where the registration is answered with 201, the timeout that is read back is the one that was
requested, and the tracker still gets through its list. -/
def KeepsTimeout : Prop :=
  ∀ after, backend.registerTestCase claims authHeader req now accepts = .created after →
    (∃ run, after.get (requestedRecord claims authHeader req now).blueGreenRef req.testId =
      some run ∧ run.timeout = durationSeconds req.seconds) ∧ after.Tracked

/-- What a case that was registered before has to be for the registration to be in range. -/
def againInRange (existing : TestCaseRecord) (run : TestCaseRecord) (inRange : Prop) : Prop :=
  if existing.isPending then existing.timeout ≤ run.timeout ∧ inRange
  else existing.timeout = run.timeout

/-- **The registration is in range.** In memory the sum of the earliest trigger and the timeout is a
time; in Postgres the timeout fits in its column; Cosmos has no other case under the document's id.
A case that was registered before has no other timeout, and where it is pending no larger one. -/
def InRange : Prop :=
  let run := requestedRecord claims authHeader req now
  match backend with
  | .memory store => (store.get run.blueGreenRef run.testId).elim (Representable run.expiresAt)
      fun existing => againInRange existing run
        (Representable (min existing.triggeredAt run.triggeredAt + run.timeout))
  | .postgres store => accepts → Representable run.expiresAt →
      (store.get run.blueGreenRef run.testId).elim (InColumn req.seconds) fun existing =>
        againInRange existing run (InColumn req.seconds)
  | .cosmos container _ => accepts → Representable run.expiresAt →
      (container.get run.blueGreenRef run.testId).elim
        (container.createStatus (.ofTest run) ≠ 409)
        fun existing => existing.timeout = run.timeout

end Request

end Backend

/-! ## Runs -/

/-- What happens to a backend. -/
inductive StoreEvent where
  | register (claims : PluginAuthClaims) (authHeader : Option String)
      (req : RegisterTestCaseRequest) (now : Timestamp) (accepts : Bool)
  | setVerdict (blueGreenRef testId : String) (passed : Bool) (failureMessage : Option String)
  | markTimedOut (blueGreenRef testId : String)
  | decrementRetries (blueGreenRef testId : String)
  | cleanupBlueGreen (blueGreenRef : String)
  | cleanupExpired (clock : Int)

namespace Backend

/-- The backend after an event; an error or a panic leaves what there was. -/
def after (backend : Backend) : StoreEvent → Backend
  | .register claims authHeader req now accepts =>
    match backend.registerTestCase claims authHeader req now accepts with
    | .created after => after
    | .refused => backend
    | .panicked => backend
  | .setVerdict ref testId passed failureMessage =>
    (backend.setVerdict ref testId passed failureMessage).toOption.getD backend
  | .markTimedOut ref testId => (backend.markTimedOut ref testId).toOption.getD backend
  | .decrementRetries ref testId =>
    ((backend.decrementRetries ref testId).toOption.map Prod.snd).getD backend
  | .cleanupBlueGreen ref => (backend.cleanupBlueGreen ref).2
  | .cleanupExpired clock => ((backend.cleanupExpired clock).map Prod.snd).getD backend

def afterAll (backend : Backend) (events : List StoreEvent) : Backend := events.foldl after backend

/-- Each registration of a run, as far as it can be answered, is in range where it is made. -/
def StaysInRange : Backend → List StoreEvent → Prop
  | _, [] => True
  | backend, event :: events => (match event with
      | .register claims authHeader req now accepts =>
        (timeoutDuration req.seconds).isOk →
          backend.InRange claims authHeader req now accepts
      | _ => True) ∧ StaysInRange (backend.after event) events

/-- A backend that holds nothing. -/
def IsEmpty (backend : Backend) : Prop := backend.records = []

end Backend

/-! ## Ranges -/

theorem representable_min_max {t u d e : Int} (h : Representable (t + d))
    (h' : Representable (u + e)) : Representable (min t u + max d e) := by
  unfold Representable at *
  omega

theorem inColumn_asI32 (n : Int) : InColumn (asI32 n) := by
  unfold InColumn asI32
  omega

theorem asI32_eq_iff {n : Int} : asI32 n = n ↔ InColumn n := by
  unfold InColumn asI32
  omega

theorem durationSeconds_le {a b : Int} : durationSeconds a ≤ durationSeconds b ↔ a ≤ b := by
  unfold durationSeconds
  omega

theorem durationSeconds_inj {a b : Int} : durationSeconds a = durationSeconds b ↔ a = b := by
  unfold durationSeconds
  omega

theorem numSeconds_durationSeconds (seconds : Int) :
    numSeconds (durationSeconds seconds) = seconds :=
  Int.mul_tdiv_cancel seconds (by decide)

/-- A time in microseconds is less than one of them off, and nearer to the epoch. -/
theorem ofMicros_toMicros (time : Int) :
    (946684800000000000 ≤ time → 946684800000000000 ≤ ofMicros (toMicros time) ∧
      ofMicros (toMicros time) ≤ time) ∧
    (time ≤ 946684800000000000 → time ≤ ofMicros (toMicros time) ∧
      ofMicros (toMicros time) ≤ 946684800000000000) := by
  show (_ → _ ≤ (946684800000000000 + (time - 946684800000000000).tdiv 1000 * 1000 : Int) ∧
    (946684800000000000 + (time - 946684800000000000).tdiv 1000 * 1000 : Int) ≤ time) ∧
    (_ → time ≤ (946684800000000000 + (time - 946684800000000000).tdiv 1000 * 1000 : Int) ∧
    (946684800000000000 + (time - 946684800000000000).tdiv 1000 * 1000 : Int) ≤ _)
  constructor
  · intro h
    rw [Int.tdiv_eq_ediv_of_nonneg (by omega)]
    omega
  · intro h
    have hneg : (time - 946684800000000000).tdiv 1000 =
        -((946684800000000000 - time) / 1000) := by
      rw [← Int.neg_sub, Int.neg_tdiv, Int.tdiv_eq_ediv_of_nonneg (by omega)]
    rw [hneg]
    omega

/-- A timeout that the column holds keeps a sum in range when the trigger is cut to
microseconds. -/
theorem representable_inColumns {time seconds : Int} (hcolumn : InColumn seconds)
    (h : Representable (time + durationSeconds seconds)) :
    Representable (ofMicros (toMicros time) + durationSeconds seconds) := by
  have hcut := ofMicros_toMicros time
  obtain ⟨cut, heq⟩ : ∃ cut : Int, ofMicros (toMicros time) = cut := ⟨_, rfl⟩
  rw [heq] at hcut ⊢
  have hlater : 946684800000000000 ≤ time → (946684800000000000 : Int) ≤ cut ∧ cut ≤ time :=
    hcut.1
  have hearlier : time ≤ 946684800000000000 →
      time ≤ cut ∧ cut ≤ (946684800000000000 : Int) := hcut.2
  unfold Representable InColumn durationSeconds minUtc maxUtc at *
  rcases Int.le_total 946684800000000000 time with hle | hle
  · have := hlater hle
    omega
  · have := hearlier hle
    omega

/-- The round gets through just when every sum is a time. -/
theorem expiredCases_eq_iff (now : Timestamp) (pending : List TestCaseRecord) :
    expiredCases now pending = some (pending.filter fun run => run.expiresAt < now) ↔
      ∀ run ∈ pending, Representable run.expiresAt := by
  induction pending with
  | nil => simp [expiredCases]
  | cons run pending ih =>
    rw [List.forall_mem_cons, expiredCases]
    by_cases hrun : Representable run.expiresAt
    · rw [if_pos hrun]
      constructor
      · intro h
        obtain ⟨later, hlater, hcons⟩ := Option.map_eq_some_iff.mp h
        refine ⟨hrun, ih.mp ?_⟩
        rw [hlater]
        by_cases hover : run.expiresAt < now
        · rw [if_pos hover, List.filter_cons_of_pos (by simpa using hover)] at hcons
          rw [(List.cons.inj hcons).2]
        · rw [if_neg hover, List.filter_cons_of_neg (by simpa using hover)] at hcons
          rw [hcons]
      · intro h
        rw [ih.mpr h.2, Option.map_some]
        by_cases hover : run.expiresAt < now
        · rw [if_pos hover, List.filter_cons_of_pos (by simpa using hover)]
        · rw [if_neg hover, List.filter_cons_of_neg (by simpa using hover)]
    · rw [if_neg hrun]
      constructor
      · intro h
        cases h
      · intro h
        exact absurd h.1 hrun

theorem Backend.tracked_iff {backend : Backend} :
    backend.Tracked ↔ ∀ run ∈ backend.listPending, Representable run.expiresAt := by
  unfold Tracked
  simp only [expiredCases_eq_iff]
  exact ⟨fun h => h 0, fun h _ => h⟩

/-! ## The invariant -/

namespace Backend

/-- Every sum is a time, every timeout in Postgres fits in its column, and the keys in memory are
distinct. -/
def Sound : Backend → Prop
  | .memory store => Keyed.Distinct TestCaseRecord.key store.records ∧
      ∀ run ∈ store.records, Representable run.expiresAt
  | .postgres store => ∀ row ∈ store.rows,
      InColumn row.timeoutSeconds ∧ Representable row.toTest.expiresAt
  | .cosmos container _ => ∀ doc ∈ container.docs, Representable doc.toTest.expiresAt

theorem Sound.listPending {backend : Backend} (h : backend.Sound) :
    ∀ run ∈ backend.listPending, Representable run.expiresAt := by
  intro run hrun
  cases backend with
  | memory store => exact h.2 run (List.mem_of_mem_filter hrun)
  | postgres store =>
    obtain ⟨row, hrow, rfl⟩ := List.mem_map.mp hrun
    exact (h row (List.mem_of_mem_filter hrow)).2
  | cosmos container service =>
    obtain ⟨doc, hdoc, rfl⟩ := List.mem_map.mp hrun
    exact h doc (List.mem_of_mem_filter (List.mem_of_mem_take hdoc))

theorem Sound.tracked {backend : Backend} (h : backend.Sound) : backend.Tracked :=
  tracked_iff.mpr h.listPending

theorem IsEmpty.sound {backend : Backend} (h : backend.IsEmpty) : backend.Sound := by
  cases backend with
  | memory store =>
    have hnil : store.records = [] := h
    simp [Sound, hnil, Keyed.Distinct]
  | postgres store =>
    have hnil : store.rows = [] := List.map_eq_nil_iff.mp h
    simp [Sound, hnil]
  | cosmos container service =>
    have hnil : container.docs = [] := List.map_eq_nil_iff.mp h
    simp [Sound, hnil]

end Backend

/-! ## In memory -/

namespace MemoryStore

variable {store : MemoryStore} {run : TestCaseRecord}

/-- What is found of the case of a registration afterwards. -/
theorem get_register_self (store : MemoryStore) (run : TestCaseRecord) :
    (store.register run).get run.blueGreenRef run.testId =
      some ((store.get run.blueGreenRef run.testId).elim run (registeredAgain · run)) := by
  cases hget : store.get run.blueGreenRef run.testId with
  | none =>
    rw [register_of_none hget, get_append_new hget]
    exact if_pos rfl
  | some existing => exact get_register ⟨rfl, rfl⟩ hget

/-- What a registration leaves besides the records that there were. -/
theorem mem_register (hd : Keyed.Distinct TestCaseRecord.key store.records)
    {record : TestCaseRecord} (h : record ∈ (store.register run).records) : record ∈ store.records ∨
      record = (store.get run.blueGreenRef run.testId).elim run (registeredAgain · run) := by
  cases hget : store.get run.blueGreenRef run.testId with
  | none =>
    rw [register_of_none hget] at h
    rcases List.mem_append.mp h with hold | hnew
    · exact .inl hold
    · exact .inr (List.mem_singleton.mp hnew)
  | some existing =>
    rw [register_of_get hget, existing.isFinalized_eq] at h
    cases hpending : existing.isPending with
    | false =>
      rw [if_pos (by simp [hpending])] at h
      exact .inl h
    | true =>
      rw [if_neg (by simp [hpending]), modify_records, Keyed.mem_update] at h
      obtain ⟨old, hold, heq⟩ := h
      by_cases hkey : old.key = recordKey run.blueGreenRef run.testId
      · -- the key is that of the record that was found, which is the only one under it
        have hsame : old = existing :=
          hd.eq_of_key hold (mem_of_get hget) (hkey.trans (key_of_get hget).symm)
        rw [if_pos hkey, mergeRegistration_eq, hsame] at heq
        exact .inr (heq.symm.trans (if_pos hpending).symm)
      · rw [if_neg hkey] at heq
        exact .inl (heq ▸ hold)

theorem distinct_register (hd : Keyed.Distinct TestCaseRecord.key store.records) :
    Keyed.Distinct TestCaseRecord.key (store.register run).records := by
  cases hget : store.get run.blueGreenRef run.testId with
  | none =>
    rw [register_of_none hget]
    exact hd.append_new hget
  | some existing =>
    rw [register_of_get hget]
    split
    · exact hd
    · rw [modify_records]
      exact hd.update (mergeRegistration_sameCase run).key

/-- The record that a registration leaves has the timeout it asked for and a sum that is a time,
just when the registration is in range. -/
theorem found_inRange_iff (hsound : (Backend.memory store).Sound) :
    (((store.get run.blueGreenRef run.testId).elim run (registeredAgain · run)).timeout =
        run.timeout ∧
      Representable
        ((store.get run.blueGreenRef run.testId).elim run (registeredAgain · run)).expiresAt) ↔
    (store.get run.blueGreenRef run.testId).elim (Representable run.expiresAt) fun existing =>
      Backend.againInRange existing run
        (Representable (min existing.triggeredAt run.triggeredAt + run.timeout)) := by
  cases hget : store.get run.blueGreenRef run.testId with
  | none => exact ⟨fun h => h.2, fun h => ⟨rfl, h⟩⟩
  | some existing =>
    have hold : Representable existing.expiresAt := hsound.2 existing (mem_of_get hget)
    show ((registeredAgain existing run).timeout = _ ∧
      Representable (registeredAgain existing run).expiresAt) ↔ _
    unfold registeredAgain
    cases hpending : existing.isPending with
    | false =>
      simp only [Option.elim_some, Backend.againInRange, hpending]
      exact ⟨fun h => h.1, fun h => ⟨h, hold⟩⟩
    | true =>
      simp only [Option.elim_some, Backend.againInRange, hpending, if_true]
      show (max existing.timeout run.timeout = run.timeout ∧
        Representable (min existing.triggeredAt run.triggeredAt +
          max existing.timeout run.timeout)) ↔ _
      rw [max_eq_right_iff]
      refine and_congr_right fun hle => ?_
      rw [max_eq_right hle]

theorem sound_register (hsound : (Backend.memory store).Sound)
    (h : Representable
      ((store.get run.blueGreenRef run.testId).elim run (registeredAgain · run)).expiresAt) :
    (Backend.memory (store.register run)).Sound := by
  refine ⟨distinct_register hsound.1, fun record hrecord => ?_⟩
  rcases mem_register hsound.1 hrecord with hold | rfl
  · exact hsound.2 record hold
  · exact h

/-- **In memory** a registration keeps its timeout just when it is in range. -/
theorem keeps_iff (hsound : (Backend.memory store).Sound) (hrun : run.isPending) :
    ((∃ record, (store.register run).get run.blueGreenRef run.testId = some record ∧
        record.timeout = run.timeout) ∧ (Backend.memory (store.register run)).Tracked) ↔
    (store.get run.blueGreenRef run.testId).elim (Representable run.expiresAt) fun existing =>
      Backend.againInRange existing run
        (Representable (min existing.triggeredAt run.triggeredAt + run.timeout)) := by
  rw [← found_inRange_iff hsound]
  have hfound := get_register_self store run
  constructor
  · intro h
    obtain ⟨⟨record, hrecord, htimeout⟩, htracked⟩ := h
    rw [hfound] at hrecord
    rw [Option.some.inj hrecord]
    refine ⟨htimeout, ?_⟩
    cases hpending : record.isPending with
    | true =>
      refine Backend.tracked_iff.mp htracked record (List.mem_filter.mpr ⟨?_, hpending⟩)
      exact mem_of_get (hfound.trans hrecord)
    | false =>
      -- a record that is not pending is one that the registration has left alone
      cases hget : store.get run.blueGreenRef run.testId with
      | none =>
        rw [hget] at hrecord
        have heq : run = record := Option.some.inj hrecord
        rw [← heq, hrun] at hpending
        cases hpending
      | some existing =>
        rw [hget] at hrecord
        have heq : registeredAgain existing run = record := Option.some.inj hrecord
        cases hold : existing.isPending with
        | true =>
          rw [registeredAgain, if_pos hold] at heq
          rw [← heq] at hpending
          exact absurd hold (by rw [show existing.isPending = false from hpending]; decide)
        | false =>
          rw [registeredAgain, if_neg (by simp [hold])] at heq
          exact hsound.2 record (heq ▸ mem_of_get hget)
  · intro h
    exact ⟨⟨_, hfound, h.1⟩, (sound_register hsound h.2).tracked⟩

end MemoryStore

/-! ## In Postgres -/

namespace PostgresStore

variable {store : PostgresStore} {run : TestCaseRecord}

theorem get_register_self (store : PostgresStore) (run : TestCaseRecord) :
    (store.register run).get run.blueGreenRef run.testId =
      some ((store.get run.blueGreenRef run.testId).elim (inColumns run)
        (registeredAgain · (inColumns run))) := by
  cases hget : store.get run.blueGreenRef run.testId with
  | some existing => exact get_register ⟨rfl, rfl⟩ hget
  | none =>
    have hnone : Keyed.lookup TestCaseRow.key (TestCaseRow.ofTest run).key store.rows = none :=
      Option.map_eq_none_iff.mp hget
    have hregister : store.register run = ⟨store.rows ++ [.ofTest run]⟩ := by
      unfold register
      dsimp only
      rw [show (store.rows.find? fun row => row.key = (TestCaseRow.ofTest run).key) = none from
        hnone]
    rw [hregister]
    have hlookup := Keyed.lookup_append_new (k := (TestCaseRow.ofTest run).key) hnone
    rw [if_pos rfl] at hlookup
    exact congrArg (Option.map TestCaseRow.toTest) hlookup

/-- Each row afterwards is one from before, or the new one, or a pending one merged with it. -/
theorem mem_register {row : TestCaseRow} (h : row ∈ (store.register run).rows) :
    row ∈ store.rows ∨
      (row = .ofTest run ∧ store.get run.blueGreenRef run.testId = none) ∨
      ∃ old ∈ store.rows, row = old.onConflict (.ofTest run) ∧ old.isPending ∧
        old.key = (TestCaseRow.ofTest run).key := by
  unfold register at h
  dsimp only at h
  cases hfind : store.rows.find? fun row => row.key = (TestCaseRow.ofTest run).key with
  | none =>
    rw [hfind] at h
    rcases List.mem_append.mp h with hold | hnew
    · exact .inl hold
    · exact .inr (.inl ⟨List.mem_singleton.mp hnew, by
        unfold get
        rw [show (store.rows.find? fun row => row.key = (run.blueGreenRef, run.testId)) = none from
          hfind]
        rfl⟩)
  | some found =>
    rw [hfind] at h
    obtain ⟨old, hold, heq⟩ := List.mem_map.mp h
    by_cases hkey : old.key = (TestCaseRow.ofTest run).key
    · rw [if_pos hkey] at heq
      cases hpending : old.isPending with
      | true =>
        rw [if_pos hpending] at heq
        exact .inr (.inr ⟨old, hold, heq.symm, hpending, hkey⟩)
      | false =>
        rw [if_neg (by simp [hpending])] at heq
        exact .inl (heq ▸ hold)
    · rw [if_neg hkey] at heq
      exact .inl (heq ▸ hold)

theorem sound_register (hsound : (Backend.postgres store).Sound) {seconds : Int}
    (htimeout : run.timeout = durationSeconds seconds) (hcolumn : InColumn seconds)
    (hrun : Representable run.expiresAt) : (Backend.postgres (store.register run)).Sound := by
  have hexcluded : (TestCaseRow.ofTest run).timeoutSeconds = seconds := by
    show asI32 (numSeconds run.timeout) = seconds
    rw [htimeout, numSeconds_durationSeconds, asI32_eq_iff.mpr hcolumn]
  have hnew : Representable (TestCaseRow.ofTest run).toTest.expiresAt := by
    show Representable (ofMicros (toMicros run.triggeredAt) +
      durationSeconds (TestCaseRow.ofTest run).timeoutSeconds)
    rw [hexcluded]
    refine representable_inColumns hcolumn ?_
    rw [← htimeout]
    exact hrun
  intro row hrow
  rcases mem_register hrow with hold | ⟨rfl, -⟩ | ⟨old, hold, rfl, -⟩
  · exact hsound row hold
  · exact ⟨hexcluded ▸ hcolumn, hnew⟩
  · obtain ⟨hcolumnOld, hrepresentable⟩ := hsound old hold
    constructor
    · show InColumn (max old.timeoutSeconds (TestCaseRow.ofTest run).timeoutSeconds)
      rw [hexcluded]
      unfold InColumn at *
      omega
    · rw [TestCaseRow.onConflict_toTest]
      exact representable_min_max hrepresentable hnew

/-- The timeout that is found afterwards is the one of the registration just when that is in
range. -/
theorem found_inRange_iff (hsound : (Backend.postgres store).Sound) {seconds : Int}
    (htimeout : run.timeout = durationSeconds seconds) :
    ((store.get run.blueGreenRef run.testId).elim (inColumns run)
        (registeredAgain · (inColumns run))).timeout = run.timeout ↔
    (store.get run.blueGreenRef run.testId).elim (InColumn seconds) fun existing =>
      Backend.againInRange existing run (InColumn seconds) := by
  have hcolumns : (inColumns run).timeout = durationSeconds (asI32 seconds) := by
    show durationSeconds (asI32 (numSeconds run.timeout)) = _
    rw [htimeout, numSeconds_durationSeconds]
  cases hget : store.get run.blueGreenRef run.testId with
  | none =>
    show (inColumns run).timeout = run.timeout ↔ InColumn seconds
    rw [hcolumns, htimeout, durationSeconds_inj]
    exact asI32_eq_iff
  | some existing =>
    obtain ⟨row, hrow, rfl⟩ := Option.map_eq_some_iff.mp hget
    have hcolumn := (hsound row (List.mem_of_find?_eq_some hrow)).1
    show (registeredAgain row.toTest (inColumns run)).timeout = run.timeout ↔
      Backend.againInRange row.toTest run (InColumn seconds)
    unfold registeredAgain Backend.againInRange
    cases hpending : row.toTest.isPending with
    | false => exact Iff.rfl
    | true =>
      simp only [if_true]
      show max (durationSeconds row.timeoutSeconds) (inColumns run).timeout = run.timeout ↔
        durationSeconds row.timeoutSeconds ≤ run.timeout ∧ InColumn seconds
      rw [hcolumns, htimeout, ← durationSeconds_max, durationSeconds_inj, durationSeconds_le]
      have hcut := inColumn_asI32 seconds
      have hiff : asI32 seconds = seconds ↔ InColumn seconds := asI32_eq_iff
      unfold InColumn at *
      omega

/-- A registration that keeps its timeout fits in the column. -/
theorem inColumn_of_found (hsound : (Backend.postgres store).Sound) {seconds : Int}
    (htimeout : run.timeout = durationSeconds seconds)
    (h : (store.get run.blueGreenRef run.testId).elim (InColumn seconds) fun existing =>
      Backend.againInRange existing run (InColumn seconds)) : InColumn seconds := by
  cases hget : store.get run.blueGreenRef run.testId with
  | none =>
    rw [hget] at h
    exact h
  | some existing =>
    rw [hget] at h
    obtain ⟨row, hrow, rfl⟩ := Option.map_eq_some_iff.mp hget
    have hcolumn := (hsound row (List.mem_of_find?_eq_some hrow)).1
    have hagain : Backend.againInRange row.toTest run (InColumn seconds) := h
    unfold Backend.againInRange at hagain
    split at hagain
    · exact hagain.2
    · rw [htimeout] at hagain
      exact durationSeconds_inj.mp hagain ▸ hcolumn

/-- **In Postgres** a registration keeps its timeout just when it is in range. -/
theorem keeps_iff (hsound : (Backend.postgres store).Sound) {seconds : Int}
    (htimeout : run.timeout = durationSeconds seconds) (hrun : Representable run.expiresAt) :
    ((∃ record, (store.register run).get run.blueGreenRef run.testId = some record ∧
        record.timeout = run.timeout) ∧ (Backend.postgres (store.register run)).Tracked) ↔
    (store.get run.blueGreenRef run.testId).elim (InColumn seconds) fun existing =>
      Backend.againInRange existing run (InColumn seconds) := by
  rw [← found_inRange_iff hsound htimeout]
  have hfound := get_register_self store run
  constructor
  · intro h
    obtain ⟨⟨record, hrecord, hkept⟩, -⟩ := h
    rw [hfound] at hrecord
    rw [Option.some.inj hrecord]
    exact hkept
  · intro h
    have hcolumn := inColumn_of_found hsound htimeout ((found_inRange_iff hsound htimeout).mp h)
    exact ⟨⟨_, hfound, h⟩, (sound_register hsound htimeout hcolumn hrun).tracked⟩

end PostgresStore

/-! ## In Cosmos -/

namespace CosmosContainer

variable {container : CosmosContainer} {service : CosmosService} {run : TestCaseRecord}

theorem mem_register {doc : CosmosTestCase} (h : doc ∈ (container.register run).docs) :
    doc ∈ container.docs ∨ doc = .ofTest run := by
  have hregister : doc ∈ (container.toCosmosStore.register run).docs := h
  unfold CosmosStore.register at hregister
  split at hregister
  · exact .inl hregister
  · rcases List.mem_append.mp hregister with hold | hnew
    · exact .inl hold
    · exact .inr (List.mem_singleton.mp hnew)

theorem sound_register (hsound : (Backend.cosmos container service).Sound) {seconds : Int}
    (htimeout : run.timeout = durationSeconds seconds) (hrun : Representable run.expiresAt) :
    (Backend.cosmos (container.register run) service).Sound := by
  intro doc hdoc
  rcases mem_register hdoc with hold | rfl
  · exact hsound doc hold
  · show Representable (run.triggeredAt + durationSeconds (numSeconds run.timeout))
    rw [htimeout, numSeconds_durationSeconds, ← htimeout]
    exact hrun

theorem get_register_new (hget : container.get run.blueGreenRef run.testId = none)
    (hnew : container.createStatus (.ofTest run) ≠ 409) :
    (container.register run).get run.blueGreenRef run.testId =
      some (CosmosTestCase.ofTest run).toTest := by
  have hnone := Option.map_eq_none_iff.mp hget
  show (container.toCosmosStore.register run).get _ _ = _
  unfold CosmosStore.register
  rw [if_neg hnew]
  show Option.map CosmosTestCase.toTest
    ((container.docs ++ [CosmosTestCase.ofTest run]).find? _) = _
  have hself : [CosmosTestCase.ofTest run].find? (fun doc =>
      decide (doc.blueGreenRef = run.blueGreenRef ∧ doc.testId = run.testId)) =
      some (.ofTest run) := List.find?_cons_of_pos (by simp [CosmosTestCase.ofTest])
  rw [List.find?_append, hnone, Option.none_or, hself]
  rfl

/-- **In Cosmos** a registration keeps its timeout just when it is the first of its case and its
document is new, or was registered with this timeout before. -/
theorem keeps_iff (hsound : (Backend.cosmos container service).Sound) {seconds : Int}
    (htimeout : run.timeout = durationSeconds seconds) (hrun : Representable run.expiresAt) :
    ((∃ record, (container.register run).get run.blueGreenRef run.testId = some record ∧
        record.timeout = run.timeout) ∧
      (Backend.cosmos (container.register run) service).Tracked) ↔
    (container.get run.blueGreenRef run.testId).elim (container.createStatus (.ofTest run) ≠ 409)
      fun existing => existing.timeout = run.timeout := by
  have htracked : (Backend.cosmos (container.register run) service).Tracked :=
    (sound_register hsound htimeout hrun).tracked
  cases hget : container.get run.blueGreenRef run.testId with
  | some existing =>
    have hfound : (container.register run).get run.blueGreenRef run.testId = some existing :=
      CosmosStore.get_register ⟨rfl, rfl⟩ hget
    constructor
    · intro h
      obtain ⟨⟨record, hrecord, hkept⟩, -⟩ := h
      rw [Option.some.inj (hfound.symm.trans hrecord)]
      exact hkept
    · intro h
      exact ⟨⟨existing, hfound, h⟩, htracked⟩
  | none =>
    constructor
    · intro h hconflict
      obtain ⟨⟨record, hrecord, -⟩, -⟩ := h
      have hsame : (container.register run).get run.blueGreenRef run.testId = none := by
        show (container.toCosmosStore.register run).get _ _ = _
        unfold CosmosStore.register
        rw [if_pos hconflict]
        exact hget
      rw [hsame] at hrecord
      cases hrecord
    · intro hnew
      refine ⟨⟨_, get_register_new hget hnew, ?_⟩, htracked⟩
      show durationSeconds (numSeconds run.timeout) = run.timeout
      rw [htimeout, numSeconds_durationSeconds]

end CosmosContainer

/-! ## Any backend -/

namespace Backend

variable {backend : Backend} {claims : PluginAuthClaims} {authHeader : Option String}
  {req : RegisterTestCaseRequest} {now : Timestamp} {accepts : Bool}

theorem registerTestCase_ok (h : (timeoutDuration req.seconds).isOk) :
    backend.registerTestCase claims authHeader req now accepts =
      backend.register accepts (requestedRecord claims authHeader req now) := by
  unfold registerTestCase requestedRecord
  unfold timeoutDuration at h ⊢
  unfold RegisterTestCaseRequest.seconds at h ⊢
  split at h
  · cases h
  · rename_i hbounds
    rw [if_neg hbounds]
    rfl

theorem registerTestCase_panics (h : ¬ (timeoutDuration req.seconds).isOk) :
    backend.registerTestCase claims authHeader req now accepts = .panicked := by
  unfold registerTestCase
  cases hduration : timeoutDuration (req.timeoutSeconds.getD 60) with
  | error e => rfl
  | ok timeout =>
    have hok : (timeoutDuration req.seconds).isOk := by
      unfold RegisterTestCaseRequest.seconds
      rw [hduration]
      rfl
    exact absurd hok h

/-- A database has written a registration that it accepts, where no sum panics. -/
theorem written_iff {run : TestCaseRecord} {written after : Backend} :
    (if ¬ Representable run.expiresAt then Registration.panicked
      else if accepts then .created written else .refused) = .created after ↔
    accepts = true ∧ Representable run.expiresAt ∧ written = after := by
  by_cases hrun : Representable run.expiresAt
  · rw [if_neg fun hnot => hnot hrun]
    cases accepts with
    | true => exact ⟨fun h => ⟨rfl, hrun, Registration.created.inj h⟩, fun h => h.2.2 ▸ rfl⟩
    | false =>
      constructor
      · intro h
        cases h
      · intro h
        cases h.1
  · rw [if_pos hrun]
    constructor
    · intro h
      cases h
    · intro h
      exact absurd h.2.1 hrun

/-- What is to hold after a write is to hold where there is one. -/
theorem forall_written_iff {run : TestCaseRecord} {written : Backend} {P : Backend → Prop}
    {Q : Prop} (h : Representable run.expiresAt → (P written ↔ Q)) :
    (∀ after, (if ¬ Representable run.expiresAt then Registration.panicked
        else if accepts then .created written else .refused) = .created after → P after) ↔
      (accepts → Representable run.expiresAt → Q) := by
  constructor
  · intro hafter haccepts hrun
    exact (h hrun).mp (hafter written (written_iff.mpr ⟨haccepts, hrun, rfl⟩))
  · intro hq after hafter
    obtain ⟨haccepts, hrun, heq⟩ := written_iff.mp hafter
    exact heq ▸ (h hrun).mpr (hq haccepts hrun)

/-- **A registration keeps its timeout just when it is in range.** -/
theorem Sound.keepsTimeout_iff (hsound : backend.Sound)
    (hduration : (timeoutDuration req.seconds).isOk) :
    backend.KeepsTimeout claims authHeader req now accepts ↔
      backend.InRange claims authHeader req now accepts := by
  unfold KeepsTimeout
  rw [registerTestCase_ok hduration]
  have htimeout : (requestedRecord claims authHeader req now).timeout =
      durationSeconds req.seconds := rfl
  cases backend with
  | memory store =>
    refine Iff.trans ?_ (MemoryStore.keeps_iff hsound
      (rfl : (requestedRecord claims authHeader req now).isPending))
    exact ⟨fun h => h _ rfl, fun h after hafter => Registration.created.inj hafter ▸ h⟩
  | postgres store =>
    exact forall_written_iff fun hrun => PostgresStore.keeps_iff hsound htimeout hrun
  | cosmos container service =>
    exact forall_written_iff fun hrun => CosmosContainer.keeps_iff hsound htimeout hrun

/-- A registration in range leaves the backend in order. -/
theorem Sound.register (hsound : backend.Sound) {after : Backend}
    (hrange : (timeoutDuration req.seconds).isOk →
      backend.InRange claims authHeader req now accepts)
    (h : backend.registerTestCase claims authHeader req now accepts = .created after) :
    after.Sound := by
  by_cases hduration : (timeoutDuration req.seconds).isOk
  · have hin := hrange hduration
    rw [registerTestCase_ok hduration] at h
    have htimeout : (requestedRecord claims authHeader req now).timeout =
        durationSeconds req.seconds := rfl
    cases backend with
    | memory store =>
      rw [← Registration.created.inj h]
      exact MemoryStore.sound_register hsound ((MemoryStore.found_inRange_iff hsound).mpr hin).2
    | postgres store =>
      obtain ⟨haccepts, hrun, heq⟩ := written_iff.mp h
      have hcolumn := PostgresStore.inColumn_of_found hsound htimeout (hin haccepts hrun)
      exact heq ▸ PostgresStore.sound_register hsound htimeout hcolumn hrun
    | cosmos container service =>
      obtain ⟨-, hrun, heq⟩ := written_iff.mp h
      exact heq ▸ CosmosContainer.sound_register hsound htimeout hrun
  · rw [registerTestCase_panics hduration] at h
    cases h

end Backend

/-! ## The other operations -/

theorem MemoryStore.sound_modify {store : MemoryStore} (hsound : (Backend.memory store).Sound)
    {f : TestCaseRecord → TestCaseRecord} (hf : SameCase f)
    (hexpires : ∀ run, (f run).expiresAt = run.expiresAt) (ref testId : String) :
    (Backend.memory (store.modify ref testId f)).Sound := by
  refine ⟨hsound.1.update hf.key, fun run hrun => ?_⟩
  rw [modify_records, Keyed.mem_update] at hrun
  obtain ⟨old, hold, rfl⟩ := hrun
  split
  · rw [hexpires]
    exact hsound.2 old hold
  · exact hsound.2 old hold

theorem PostgresStore.sound_update {store : PostgresStore}
    (hsound : (Backend.postgres store).Sound) (ref testId : String) (f : Progress → Progress) :
    (Backend.postgres (store.update ref testId f)).Sound := by
  intro row hrow
  obtain ⟨old, hold, rfl⟩ := List.mem_map.mp hrow
  split
  · exact hsound old hold
  · exact hsound old hold

theorem CosmosContainer.sound_replace {container : CosmosContainer} {service : CosmosService}
    (hsound : (Backend.cosmos container service).Sound) (read : CosmosTestCase)
    (f : Progress → Progress) : (Backend.cosmos (container.replace read f) service).Sound := by
  intro doc hdoc
  obtain ⟨old, hold, rfl⟩ := List.mem_map.mp hdoc
  split
  · exact hsound old hold
  · exact hsound old hold

theorem CosmosContainer.mem_deleteDocs (service : CosmosService) (rows : List CosmosTestCase) :
    ∀ (container : CosmosContainer) (deleted : Nat) {doc : CosmosTestCase},
      doc ∈ (deleteDocs service container deleted rows).2.docs → doc ∈ container.docs := by
  induction rows with
  | nil =>
    intro container deleted doc h
    exact h
  | cons row rows ih =>
    intro container deleted doc h
    unfold deleteDocs at h
    cases hdelete : service.delete row with
    | failed text =>
      rw [hdelete] at h
      exact h
    | refused =>
      rw [hdelete] at h
      exact ih container deleted h
    | deleted =>
      rw [hdelete] at h
      exact List.mem_of_mem_filter (ih _ _ h)

namespace Backend

variable {backend : Backend}

/-- An operation that may fail leaves what it returns, or what there was. -/
theorem holds_returned {P : Backend → Prop} (hback : P backend) {α : Type}
    {result : Except StoreError α} {f : α → Backend} (h : ∀ a, result = .ok a → P (f a)) :
    P ((result.map f).toOption.getD backend) := by
  cases result with
  | error e => exact hback
  | ok a => exact h a rfl

theorem holds_retried {P : Backend → Prop} (hback : P backend) {α : Type}
    {result : Except StoreError (Option Int × α)} {f : α → Backend}
    (h : ∀ a, result = .ok a → P (f a.2)) :
    P (((result.map (Prod.map id f)).toOption.map Prod.snd).getD backend) := by
  cases result with
  | error e => exact hback
  | ok a => exact h a rfl

theorem holds_registered {P : Backend → Prop} (hback : P backend) {claims : PluginAuthClaims}
    {authHeader : Option String} {req : RegisterTestCaseRequest} {now : Timestamp} {accepts : Bool}
    (h : ∀ kept, backend.registerTestCase claims authHeader req now accepts = .created kept →
      P kept) : P (backend.after (.register claims authHeader req now accepts)) := by
  show P (match backend.registerTestCase claims authHeader req now accepts with
    | .created after => after
    | .refused => backend
    | .panicked => backend)
  cases hregister : backend.registerTestCase claims authHeader req now accepts with
  | created kept => exact h kept hregister
  | refused => exact hback
  | panicked => exact hback

theorem Sound.setVerdict (hsound : backend.Sound) (ref testId : String) (passed : Bool)
    (failureMessage : Option String) :
    ((backend.setVerdict ref testId passed failureMessage).toOption.getD backend).Sound := by
  cases backend with
  | memory store =>
    refine holds_returned hsound (f := Backend.memory) fun after hafter => ?_
    rw [MemoryStore.setVerdict_eq] at hafter
    split at hafter
    · rw [← Except.ok.inj hafter]
      exact MemoryStore.sound_modify hsound (MemoryStore.judged_sameCase passed failureMessage)
        (fun _ => rfl) ref testId
    · cases hafter
  | postgres store =>
    refine holds_returned hsound (f := Backend.postgres) fun after hafter => ?_
    unfold PostgresStore.setVerdict at hafter
    split at hafter
    · rw [← Except.ok.inj hafter]
      exact PostgresStore.sound_update hsound ref testId _
    · cases hafter
  | cosmos container service =>
    refine holds_returned hsound (f := (Backend.cosmos · service)) fun after hafter => ?_
    unfold CosmosContainer.setVerdict at hafter
    split at hafter
    · split at hafter
      · rw [← Except.ok.inj hafter]
        exact CosmosContainer.sound_replace hsound _ _
      · cases hafter
    · cases hafter

theorem Sound.markTimedOut (hsound : backend.Sound) (ref testId : String) :
    ((backend.markTimedOut ref testId).toOption.getD backend).Sound := by
  cases backend with
  | memory store =>
    refine holds_returned hsound (f := Backend.memory) fun after hafter => ?_
    rw [MemoryStore.markTimedOut_eq] at hafter
    split at hafter
    · rw [← Except.ok.inj hafter]
      exact MemoryStore.sound_modify hsound MemoryStore.timedOut_sameCase (fun _ => rfl) ref testId
    · cases hafter
  | postgres store =>
    refine holds_returned hsound (f := Backend.postgres) fun after hafter => ?_
    unfold PostgresStore.markTimedOut at hafter
    split at hafter
    · rw [← Except.ok.inj hafter]
      exact PostgresStore.sound_update hsound ref testId _
    · cases hafter
  | cosmos container service =>
    refine holds_returned hsound (f := (Backend.cosmos · service)) fun after hafter => ?_
    unfold CosmosContainer.markTimedOut at hafter
    split at hafter
    · split at hafter
      · rw [← Except.ok.inj hafter]
        exact CosmosContainer.sound_replace hsound _ _
      · cases hafter
    · cases hafter

theorem Sound.decrementRetries (hsound : backend.Sound) (ref testId : String) :
    (((backend.decrementRetries ref testId).toOption.map Prod.snd).getD backend).Sound := by
  cases backend with
  | memory store =>
    refine holds_retried hsound (f := Backend.memory) fun after hafter => ?_
    unfold MemoryStore.decrementRetries at hafter
    split at hafter
    · split at hafter
      · rw [← Except.ok.inj hafter]
        have hsame : MemoryStore.SameCase fun run : TestCaseRecord =>
            { run with retriesRemaining := run.retriesRemaining - 1 } := fun _ => ⟨rfl, rfl⟩
        exact MemoryStore.sound_modify hsound hsame (fun _ => rfl) ref testId
      · rw [← Except.ok.inj hafter]
        exact hsound
    · cases hafter
  | postgres store =>
    show (Backend.postgres (store.decrementRetries ref testId).2).Sound
    unfold PostgresStore.decrementRetries
    split
    · split
      · exact PostgresStore.sound_update hsound ref testId _
      · exact hsound
    · exact hsound
  | cosmos container service =>
    refine holds_retried hsound (f := (Backend.cosmos · service)) fun after hafter => ?_
    unfold CosmosContainer.decrementRetries at hafter
    split at hafter
    · split at hafter
      · rw [← Except.ok.inj hafter]
        exact CosmosContainer.sound_replace hsound _ _
      · rw [← Except.ok.inj hafter]
        exact hsound
    · cases hafter

theorem Sound.cleanupBlueGreen (hsound : backend.Sound) (ref : String) :
    (backend.cleanupBlueGreen ref).2.Sound := by
  cases backend with
  | memory store =>
    exact ⟨hsound.1.filter, fun run hrun => hsound.2 run (List.mem_of_mem_filter hrun)⟩
  | postgres store => exact fun row hrow => hsound row (List.mem_of_mem_filter hrow)
  | cosmos container service =>
    exact fun doc hdoc => hsound doc (CosmosContainer.mem_deleteDocs _ _ _ _ hdoc)

theorem Sound.cleanupExpired (hsound : backend.Sound) (clock : Int) :
    (((backend.cleanupExpired clock).map Prod.snd).getD backend).Sound := by
  cases backend with
  | memory store =>
    have hkept : (Backend.memory (store.cleanupExpired clock).2).Sound :=
      ⟨hsound.1.filter, fun run hrun => hsound.2 run (List.mem_of_mem_filter hrun)⟩
    have hall : ∀ run ∈ store.listPending, Representable run.expiresAt := hsound.listPending
    have heq : (Backend.memory store).cleanupExpired clock =
        some ((store.cleanupExpired clock).map .ok .memory) := if_pos hall
    rw [heq]
    exact hkept
  | postgres store => exact fun row hrow => hsound row (List.mem_of_mem_filter hrow)
  | cosmos container service =>
    exact fun doc hdoc => hsound doc (CosmosContainer.mem_deleteDocs _ _ _ _ hdoc)

/-- **One event** leaves a backend in order, if it is no registration out of range. -/
theorem Sound.after (hsound : backend.Sound) {event : StoreEvent} {events : List StoreEvent}
    (h : backend.StaysInRange (event :: events)) : (backend.after event).Sound := by
  cases event with
  | register claims authHeader req now accepts =>
    exact holds_registered hsound fun kept hregister => hsound.register h.1 hregister
  | setVerdict ref testId passed failureMessage =>
    exact hsound.setVerdict ref testId passed failureMessage
  | markTimedOut ref testId => exact hsound.markTimedOut ref testId
  | decrementRetries ref testId => exact hsound.decrementRetries ref testId
  | cleanupBlueGreen ref => exact hsound.cleanupBlueGreen ref
  | cleanupExpired clock => exact hsound.cleanupExpired clock

theorem Sound.afterAll {events : List StoreEvent} : ∀ {backend : Backend}, backend.Sound →
    backend.StaysInRange events → (backend.afterAll events).Sound := by
  induction events with
  | nil =>
    intro backend hsound _
    exact hsound
  | cons event events ih =>
    intro backend hsound h
    exact ih (hsound.after h) h.2

end Backend

/-- **Timeouts in range.** Along every run from an empty backend whose registrations stay in range,
each round of the tracker gets through its list and marks what has expired, and the next
registration keeps its timeout and the tracker exactly when it is in range itself. -/
theorem timeouts_in_range {backend : Backend} (hempty : backend.IsEmpty) {events : List StoreEvent}
    (hrange : backend.StaysInRange events) (claims : PluginAuthClaims) (authHeader : Option String)
    (req : RegisterTestCaseRequest) (now : Timestamp) (accepts : Bool) :
    (backend.afterAll events).Tracked ∧
      ((backend.afterAll events).KeepsTimeout claims authHeader req now accepts ↔
        ((timeoutDuration req.seconds).isOk →
          (backend.afterAll events).InRange claims authHeader req now accepts)) := by
  have hsound : (backend.afterAll events).Sound := hempty.sound.afterAll hrange
  refine ⟨hsound.tracked, ?_⟩
  by_cases hduration : (timeoutDuration req.seconds).isOk
  · rw [hsound.keepsTimeout_iff hduration]
    exact ⟨fun h _ => h, fun h => h hduration⟩
  · constructor
    · intro _ hok
      exact absurd hok hduration
    · intro _ kept hkept
      rw [Backend.registerTestCase_panics hduration] at hkept
      cases hkept

namespace TimeoutRange

def splitter : PluginAuthClaims := .new "shop" "orders" "incoming" "rabbitmq"

/-- A case with no trigger of its own that may take so many seconds. -/
def asked (testId : String) (seconds : Int) : RegisterTestCaseRequest where
  testId := testId
  blueGreenRef := "orders"
  inceptionPoint := "incoming"
  triggeredAt := none
  timeoutSeconds := some seconds
  verifyUrl := some "http://verifier/result"

/-- Noon of a day in 2024. -/
def noon : Timestamp := 1717243200000000000

end TimeoutRange

open TimeoutRange in
/-- A case of an hour, then one of a day. -/
theorem day_in_range :
    let backend := Backend.postgres ⟨[]⟩
    let events := [StoreEvent.register splitter none (asked "case-1" 3600) noon true]
    (backend.afterAll events).Tracked ∧
      ((backend.afterAll events).KeepsTimeout splitter none (asked "case-2" 86400) noon true ↔
        ((timeoutDuration (asked "case-2" 86400).seconds).isOk →
          (backend.afterAll events).InRange splitter none (asked "case-2" 86400) noon true)) :=
  @timeouts_in_range (.postgres ⟨[]⟩) rfl [.register splitter none (asked "case-1" 3600) noon true]
    ⟨fun _ _ _ => (by decide : InColumn 3600), trivial⟩ splitter none (asked "case-2" 86400) noon
    true

open TimeoutRange in
/-- The largest number of seconds that is a duration takes the tracker down from memory, and one
more than the column holds comes back from Postgres as no time at all. -/
theorem timeout_out_of_range :
    ¬ (Backend.memory ⟨[]⟩).KeepsTimeout splitter none (asked "case-1" 9223372036854775) noon true ∧
      ¬ (Backend.postgres ⟨[]⟩).KeepsTimeout splitter none (asked "case-1" 4294967296) noon
        true := by
  constructor
  · intro h
    obtain ⟨-, htracked⟩ := h _ rfl
    exact absurd (Backend.tracked_iff.mp htracked
      (requestedRecord splitter none (asked "case-1" 9223372036854775) noon) (.head _))
      (by decide)
  · intro h
    obtain ⟨⟨run, hrun, htimeout⟩, -⟩ := h _ rfl
    have hzero : run.timeout = 0 := by
      rw [← Option.some.inj hrun]
      decide
    rw [hzero] at htimeout
    exact absurd htimeout (by decide)

end FluidBG
