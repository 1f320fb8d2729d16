import FluidBG.Backends
import FluidBG.Proof.Registry
import Mathlib.Order.Lattice
/-!
# Duplicate registrations

A case may be registered more than once. What a registration adds to a pending record is a merge:
the earliest trigger, the largest timeout, the first text that is not empty. `MemoryStore` computes
it, `PostgresStore` computes it on what its columns can hold, and `CosmosStore` keeps the first
registration. The three agree exactly when there is nothing to merge.
-/

set_option autoImplicit false

namespace FluidBG

open Lib

/-! ## The merge -/

/-- The first text that is not empty. -/
def firstNonEmpty (text : String) (texts : List String) : String :=
  texts.foldl (fun text next => if text = "" then next else text) text

/-- **The record of a case that was registered again.** -/
def merged (run : TestCaseRecord) (dups : List TestCaseRecord) : TestCaseRecord :=
  { run with
    triggeredAt := (dups.map (·.triggeredAt)).foldl min run.triggeredAt
    timeout := (dups.map (·.timeout)).foldl max run.timeout
    sourceInceptionPoint :=
      firstNonEmpty run.sourceInceptionPoint (dups.map (·.sourceInceptionPoint))
    verifyUrl := firstNonEmpty run.verifyUrl (dups.map (·.verifyUrl))
    verifierAuthToken := firstNonEmpty run.verifierAuthToken (dups.map (·.verifierAuthToken)) }

/-- The duplicate has nothing that the record lacks. -/
structure TestCaseRecord.Covers (run dup : TestCaseRecord) : Prop where
  triggeredAt : run.triggeredAt ≤ dup.triggeredAt
  timeout : dup.timeout ≤ run.timeout
  sourceInceptionPoint : run.sourceInceptionPoint = "" → dup.sourceInceptionPoint = ""
  verifyUrl : run.verifyUrl = "" → dup.verifyUrl = ""
  verifierAuthToken : run.verifierAuthToken = "" → dup.verifierAuthToken = ""

section Folds

variable {α : Type} [LinearOrder α] {a : α} {xs : List α}

theorem foldl_min_le : xs.foldl min a ≤ a := by
  induction xs generalizing a with
  | nil => exact le_refl a
  | cons x xs ih => exact ih.trans (min_le_left a x)

theorem foldl_min_eq_iff : xs.foldl min a = a ↔ ∀ x ∈ xs, a ≤ x := by
  induction xs generalizing a with
  | nil => simp
  | cons x xs ih =>
    rw [List.foldl_cons, List.forall_mem_cons]
    constructor
    · intro h
      have hle : xs.foldl min (min a x) ≤ min a x := foldl_min_le
      rw [h] at hle
      have hx : a ≤ x := hle.trans (min_le_right a x)
      rw [min_eq_left hx] at h
      exact ⟨hx, ih.mp h⟩
    · rintro ⟨hx, hxs⟩
      rw [min_eq_left hx]
      exact ih.mpr hxs

theorem le_foldl_max : a ≤ xs.foldl max a := by
  induction xs generalizing a with
  | nil => exact le_refl a
  | cons x xs ih => exact (le_max_left a x).trans ih

theorem foldl_max_eq_iff : xs.foldl max a = a ↔ ∀ x ∈ xs, x ≤ a := by
  induction xs generalizing a with
  | nil => simp
  | cons x xs ih =>
    rw [List.foldl_cons, List.forall_mem_cons]
    constructor
    · intro h
      have hle : max a x ≤ xs.foldl max (max a x) := le_foldl_max
      rw [h] at hle
      have hx : x ≤ a := (le_max_right a x).trans hle
      rw [max_eq_left hx] at h
      exact ⟨hx, ih.mp h⟩
    · rintro ⟨hx, hxs⟩
      rw [max_eq_left hx]
      exact ih.mpr hxs

end Folds

theorem firstNonEmpty_of_ne {text : String} (h : text ≠ "") (texts : List String) :
    firstNonEmpty text texts = text := by
  induction texts with
  | nil => rfl
  | cons next texts ih =>
    unfold firstNonEmpty at ih ⊢
    rw [List.foldl_cons, if_neg h]
    exact ih

theorem firstNonEmpty_eq_iff {text : String} {texts : List String} :
    firstNonEmpty text texts = text ↔ (text = "" → ∀ next ∈ texts, next = "") := by
  by_cases h : text = ""
  · subst h
    induction texts with
    | nil => simp [firstNonEmpty]
    | cons next texts ih =>
      by_cases hn : next = ""
      · subst hn
        simpa [firstNonEmpty] using ih
      · -- a text that is not empty stays
        have hfirst : firstNonEmpty "" (next :: texts) = next := firstNonEmpty_of_ne hn texts
        simp [hfirst, hn]
  · simp [firstNonEmpty_of_ne h, h]

/-- **Nothing is merged** exactly when the record covers every duplicate. -/
theorem merged_eq_iff {run : TestCaseRecord} {dups : List TestCaseRecord} :
    merged run dups = run ↔ ∀ dup ∈ dups, run.Covers dup := by
  have hfields : merged run dups = run ↔
      (dups.map (·.triggeredAt)).foldl min run.triggeredAt = run.triggeredAt ∧
      (dups.map (·.timeout)).foldl max run.timeout = run.timeout ∧
      firstNonEmpty run.sourceInceptionPoint (dups.map (·.sourceInceptionPoint)) =
        run.sourceInceptionPoint ∧
      firstNonEmpty run.verifyUrl (dups.map (·.verifyUrl)) = run.verifyUrl ∧
      firstNonEmpty run.verifierAuthToken (dups.map (·.verifierAuthToken)) =
        run.verifierAuthToken := by
    constructor
    · intro h
      exact ⟨congrArg TestCaseRecord.triggeredAt h, congrArg TestCaseRecord.timeout h,
        congrArg TestCaseRecord.sourceInceptionPoint h, congrArg TestCaseRecord.verifyUrl h,
        congrArg TestCaseRecord.verifierAuthToken h⟩
    · rintro ⟨htriggered, htimeout, hsource, hurl, htoken⟩
      unfold merged
      rw [htriggered, htimeout, hsource, hurl, htoken]
  rw [hfields, foldl_min_eq_iff, foldl_max_eq_iff, firstNonEmpty_eq_iff, firstNonEmpty_eq_iff,
    firstNonEmpty_eq_iff]
  simp only [List.forall_mem_map]
  constructor
  · rintro ⟨h1, h2, h3, h4, h5⟩ dup hdup
    exact ⟨h1 dup hdup, h2 dup hdup, fun h => h3 h dup hdup, fun h => h4 h dup hdup,
      fun h => h5 h dup hdup⟩
  · intro h
    exact ⟨fun dup hdup => (h dup hdup).triggeredAt, fun dup hdup => (h dup hdup).timeout,
      fun hempty dup hdup => (h dup hdup).sourceInceptionPoint hempty,
      fun hempty dup hdup => (h dup hdup).verifyUrl hempty,
      fun hempty dup hdup => (h dup hdup).verifierAuthToken hempty⟩

theorem merged_cons (run dup : TestCaseRecord) (dups : List TestCaseRecord) :
    merged run (dup :: dups) = merged (merged run [dup]) dups := rfl

/-! ## In memory -/

theorem mergeRegistration_eq (existing run : TestCaseRecord) :
    MemoryStore.mergeRegistration existing run = merged existing [run] := by
  have htriggered : (if run.triggeredAt < existing.triggeredAt then run.triggeredAt
      else existing.triggeredAt) = min existing.triggeredAt run.triggeredAt := by
    rw [min_comm]
    exact (min_def_lt _ _).symm
  have htimeout : (if run.timeout > existing.timeout then run.timeout else existing.timeout) =
      max existing.timeout run.timeout := (max_def_lt _ _).symm
  have htext (text next : String) :
      (if text = "" ∧ next ≠ "" then next else text) = if text = "" then next else text := by
    by_cases h : text = "" <;> by_cases hn : next = "" <;> simp [h, hn]
  unfold MemoryStore.mergeRegistration
  rw [htriggered, htimeout, htext, htext]
  rfl

/-- What a registration makes of a stored record: a finalized one is left alone. -/
def registeredAgain (run dup : TestCaseRecord) : TestCaseRecord :=
  if run.isPending then merged run [dup] else run

theorem foldl_registeredAgain_pending {run : TestCaseRecord} (hpending : run.isPending)
    (dups : List TestCaseRecord) : dups.foldl registeredAgain run = merged run dups := by
  induction dups generalizing run with
  | nil => rfl
  | cons dup dups ih =>
    have hagain : registeredAgain run dup = merged run [dup] := if_pos hpending
    rw [List.foldl_cons, merged_cons, hagain]
    exact ih hpending

theorem foldl_registeredAgain_finalized {run : TestCaseRecord} (hfinal : run.isFinalized)
    (dups : List TestCaseRecord) : dups.foldl registeredAgain run = run := by
  have hpending : run.isPending ≠ true := by
    rw [run.isFinalized_eq] at hfinal
    simpa using hfinal
  exact List.foldl_fixed' (fun _ => if_neg hpending) dups

/-- Where one registration turns the record that is read into `f` of it, a sequence of them folds
`f` over it. -/
theorem get_foldl {σ : Type} (get : σ → Option TestCaseRecord) (register : σ → TestCaseRecord → σ)
    (f : TestCaseRecord → TestCaseRecord → TestCaseRecord) {dups : List TestCaseRecord}
    (hstep : ∀ store run, ∀ dup ∈ dups, get store = some run →
      get (register store dup) = some (f run dup))
    {store : σ} {run : TestCaseRecord} (h : get store = some run) :
    get (dups.foldl register store) = some (dups.foldl f run) := by
  induction dups generalizing store run with
  | nil => exact h
  | cons dup dups ih =>
    refine ih (fun store run dup' hdup' => ?_) (hstep store run dup List.mem_cons_self h)
    exact hstep store run dup' (List.mem_cons_of_mem _ hdup')

/-- `MemoryStore` merges. -/
theorem MemoryStore.get_register {store : MemoryStore} {ref testId : String}
    {run dup : TestCaseRecord} (hdup : dup.blueGreenRef = ref ∧ dup.testId = testId)
    (h : store.get ref testId = some run) :
    (store.register dup).get ref testId = some (registeredAgain run dup) := by
  obtain ⟨rfl, rfl⟩ := hdup
  rw [register_of_get h, run.isFinalized_eq]
  unfold registeredAgain
  cases hpending : run.isPending with
  | false => simpa using h
  | true =>
    rw [if_neg (by simp), get_modify (mergeRegistration_sameCase dup), if_pos rfl, h,
      Option.map_some, mergeRegistration_eq]
    rfl

/-! ## In Postgres -/

/-- The record as the columns hold it. -/
def inColumns (run : TestCaseRecord) : TestCaseRecord := (TestCaseRow.ofTest run).toTest

theorem ofMicros_min (a b : Int) : ofMicros (min a b) = min (ofMicros a) (ofMicros b) := by
  have hmono {a b : Int} (h : a ≤ b) : ofMicros a ≤ ofMicros b :=
    Int.add_le_add_left (Int.mul_le_mul_of_nonneg_right h (by decide)) _
  rcases le_total a b with h | h
  · rw [min_eq_left h, min_eq_left (hmono h)]
  · rw [min_eq_right h, min_eq_right (hmono h)]

theorem durationSeconds_max (a b : Int) :
    durationSeconds (max a b) = max (durationSeconds a) (durationSeconds b) := by
  unfold durationSeconds
  omega

/-- The `SET` is the merge, read back. -/
theorem TestCaseRow.onConflict_toTest (row excluded : TestCaseRow) :
    (row.onConflict excluded).toTest = merged row.toTest [excluded.toTest] := by
  unfold onConflict toTest merged
  simp only [ofMicros_min, durationSeconds_max]
  rfl

/-- `PostgresStore` merges what its columns hold. -/
theorem PostgresStore.get_register {store : PostgresStore} {ref testId : String}
    {run dup : TestCaseRecord} (hdup : dup.blueGreenRef = ref ∧ dup.testId = testId)
    (h : store.get ref testId = some run) :
    (store.register dup).get ref testId = some (registeredAgain run (inColumns dup)) := by
  obtain ⟨rfl, rfl⟩ := hdup
  obtain ⟨row, hrow, rfl⟩ := Option.map_eq_some_iff.mp h
  have hkey : (TestCaseRow.ofTest dup).key = (dup.blueGreenRef, dup.testId) := rfl
  unfold register get
  dsimp only
  rw [hkey, hrow]
  show Option.map TestCaseRow.toTest (Keyed.lookup TestCaseRow.key (dup.blueGreenRef, dup.testId)
    (Keyed.update TestCaseRow.key (dup.blueGreenRef, dup.testId)
      (fun row => if row.isPending then row.onConflict (.ofTest dup) else row) store.rows)) = _
  rw [Keyed.lookup_update (fun row => by split <;> rfl), if_pos rfl]
  have hlookup : Keyed.lookup TestCaseRow.key (dup.blueGreenRef, dup.testId) store.rows =
      some row := hrow
  rw [hlookup, Option.map_some, Option.map_some]
  unfold registeredAgain TestCaseRow.isPending
  split
  · rw [TestCaseRow.onConflict_toTest]
    rfl
  · rfl

/-! ## In Cosmos -/

/-- `CosmosStore` keeps the first registration. -/
theorem CosmosStore.get_register {store : CosmosStore} {ref testId : String}
    {run dup : TestCaseRecord} (hdup : dup.blueGreenRef = ref ∧ dup.testId = testId)
    (h : store.get ref testId = some run) : (store.register dup).get ref testId = some run := by
  obtain ⟨rfl, rfl⟩ := hdup
  obtain ⟨doc, hdoc, rfl⟩ := Option.map_eq_some_iff.mp h
  have hmem := List.mem_of_find?_eq_some hdoc
  have hcase : doc.blueGreenRef = dup.blueGreenRef ∧ doc.testId = dup.testId := by
    simpa using List.find?_some hdoc
  have hconflict : store.createStatus (.ofTest dup) = 409 := by
    unfold createStatus
    refine if_pos (List.any_eq_true.mpr ⟨doc, hmem, ?_⟩)
    have hid : doc.id = (CosmosTestCase.ofTest dup).id := by
      rw [store.ids doc hmem, hcase.1, hcase.2]
      rfl
    have href : doc.blueGreenRef = (CosmosTestCase.ofTest dup).blueGreenRef := hcase.1
    simp [hid, href]
  unfold register
  rw [if_pos hconflict]
  exact h

/-! ## The three together -/

/-- The three backends hold the same record of a case. -/
structure Backends (ref testId : String) (run : TestCaseRecord) where
  memory : MemoryStore
  postgres : PostgresStore
  cosmos : CosmosStore
  inMemory : memory.get ref testId = some run
  inPostgres : postgres.get ref testId = some run
  inCosmos : cosmos.get ref testId = some run

/-- After these registrations every backend answers with this record. -/
structure Backends.Answer {ref testId : String} {run : TestCaseRecord}
    (stores : Backends ref testId run) (dups : List TestCaseRecord) (answer : TestCaseRecord) :
    Prop where
  memory : (dups.foldl MemoryStore.register stores.memory).get ref testId = some answer
  postgres : (dups.foldl PostgresStore.register stores.postgres).get ref testId = some answer
  cosmos : (dups.foldl CosmosStore.register stores.cosmos).get ref testId = some answer

section Together

variable {ref testId : String} {run : TestCaseRecord} {dups : List TestCaseRecord}

/-- What each of them answers. -/
theorem Backends.answers (stores : Backends ref testId run)
    (hdups : ∀ dup ∈ dups, dup.blueGreenRef = ref ∧ dup.testId = testId) :
    (dups.foldl MemoryStore.register stores.memory).get ref testId =
        some (dups.foldl registeredAgain run) ∧
      (dups.foldl PostgresStore.register stores.postgres).get ref testId =
        some ((dups.map inColumns).foldl registeredAgain run) ∧
      (dups.foldl CosmosStore.register stores.cosmos).get ref testId = some run := by
  refine ⟨?_, ?_, ?_⟩
  · exact get_foldl (MemoryStore.get · ref testId) MemoryStore.register registeredAgain
      (fun _ _ dup hdup h => MemoryStore.get_register (hdups dup hdup) h) stores.inMemory
  · rw [List.foldl_map]
    exact get_foldl (PostgresStore.get · ref testId) PostgresStore.register
      (fun run dup => registeredAgain run (inColumns dup))
      (fun _ _ dup hdup h => PostgresStore.get_register (hdups dup hdup) h) stores.inPostgres
  · have hkeep := get_foldl (CosmosStore.get · ref testId) CosmosStore.register (fun run _ => run)
      (fun _ _ dup hdup h => CosmosStore.get_register (hdups dup hdup) h) stores.inCosmos
    rwa [List.foldl_fixed] at hkeep

end Together

/-- **The backends merge duplicates identically** exactly when no duplicate has anything new, as it
is sent and as Postgres' columns hold it. A finalized record is left unchanged by all three. -/
theorem backends_agree_iff {ref testId : String} {run : TestCaseRecord}
    (stores : Backends ref testId run) (dups : List TestCaseRecord)
    (hdups : ∀ dup ∈ dups, dup.blueGreenRef = ref ∧ dup.testId = testId) :
    (run.isFinalized → stores.Answer dups run) ∧
    (run.isPending → (stores.Answer dups (merged run dups) ↔
      ∀ dup ∈ dups, run.Covers dup ∧ run.Covers (inColumns dup))) := by
  obtain ⟨hmemory, hpostgres, hcosmos⟩ := stores.answers hdups
  constructor
  · intro hfinal
    rw [foldl_registeredAgain_finalized hfinal] at hmemory hpostgres
    exact ⟨hmemory, hpostgres, hcosmos⟩
  · intro hpending
    rw [foldl_registeredAgain_pending hpending] at hmemory hpostgres
    constructor
    · intro h
      have hrun : merged run dups = run := by
        rw [← Option.some.injEq, ← h.cosmos, hcosmos]
      have hcolumns : merged run (dups.map inColumns) = run := by
        rw [← Option.some.injEq, ← hpostgres, h.postgres, hrun]
      intro dup hdup
      exact ⟨merged_eq_iff.mp hrun dup hdup,
        merged_eq_iff.mp hcolumns _ (List.mem_map_of_mem hdup)⟩
    · intro h
      have hrun : merged run dups = run := merged_eq_iff.mpr fun dup hdup => (h dup hdup).1
      have hcolumns : merged run (dups.map inColumns) = run := by
        refine merged_eq_iff.mpr fun dup' hdup' => ?_
        obtain ⟨dup, hdup, rfl⟩ := List.mem_map.mp hdup'
        exact (h dup hdup).2
      rw [hrun] at hmemory ⊢
      rw [hcolumns] at hpostgres
      exact ⟨hmemory, hpostgres, hcosmos⟩

/-! ## Two registrations of one case -/

/-- Backends that hold one record, when their columns and documents can hold it. -/
def Backends.single (run : TestCaseRecord) (hrow : inColumns run = run)
    (hdoc : (CosmosTestCase.ofTest run).toTest = run) : Backends run.blueGreenRef run.testId run where
  memory := ⟨[run]⟩
  postgres := ⟨[.ofTest run]⟩
  cosmos := ⟨[.ofTest run], by
    intro doc h
    rw [List.mem_singleton.mp h]
    rfl⟩
  inMemory := by simp [MemoryStore.get, MemoryStore.find]
  inPostgres := by
    have hkey : (TestCaseRow.ofTest run).key = (run.blueGreenRef, run.testId) := rfl
    have hread : (TestCaseRow.ofTest run).toTest = run := hrow
    simp [PostgresStore.get, hkey, hread]
  inCosmos := by
    have hcase : (CosmosTestCase.ofTest run).blueGreenRef = run.blueGreenRef ∧
      (CosmosTestCase.ofTest run).testId = run.testId := ⟨rfl, rfl⟩
    simp [CosmosStore.get, hcase, hdoc]

/-- A case that waits a minute for its verdict. -/
def firstRegistration : TestCaseRecord where
  testId := "t1"
  blueGreenRef := "default/shop"
  triggeredAt := postgresEpoch + durationSeconds 10
  sourceInceptionPoint := "orders"
  timeout := durationSeconds 60
  status := .triggered
  verdict := none
  verificationMode := .data
  verifyUrl := "http://verifier/t1"
  verifierAuthToken := ""
  retriesRemaining := 0
  failureMessage := none

/-- The same case, triggered earlier and given more time. -/
def secondRegistration : TestCaseRecord :=
  { firstRegistration with
    triggeredAt := postgresEpoch + durationSeconds 5
    timeout := durationSeconds 90 }

/-- A later registration for less time adds nothing. -/
theorem backends_agree_iff_later :
    let late : TestCaseRecord := { firstRegistration with
      triggeredAt := postgresEpoch + durationSeconds 11
      timeout := durationSeconds 30 }
    (Backends.single firstRegistration (by decide) (by decide)).Answer [late]
      (merged firstRegistration [late]) := by
  intro late
  have hdups : ∀ dup ∈ [late], dup.blueGreenRef = firstRegistration.blueGreenRef ∧
      dup.testId = firstRegistration.testId := by
    intro dup hdup
    rw [List.mem_singleton.mp hdup]
    exact ⟨rfl, rfl⟩
  refine ((backends_agree_iff (Backends.single firstRegistration (by decide) (by decide)) [late]
    hdups).2 (by decide)).mpr ?_
  intro dup hdup
  rw [List.mem_singleton.mp hdup]
  exact ⟨⟨by decide, by decide, by decide, by decide, by decide⟩,
    ⟨by decide, by decide, by decide, by decide, by decide⟩⟩

/-- **`CosmosStore` keeps the first registration** where the others take the earlier trigger and the
longer timeout. -/
theorem cosmos_keeps_first_registration :
    ¬ ∀ (ref testId : String) (run : TestCaseRecord) (stores : Backends ref testId run)
        (dups : List TestCaseRecord),
        (∀ dup ∈ dups, dup.blueGreenRef = ref ∧ dup.testId = testId) → run.isPending →
        stores.Answer dups (merged run dups) := by
  intro h
  have hanswer := h _ _ firstRegistration
    (Backends.single firstRegistration (by decide) (by decide)) [secondRegistration]
    (by decide) (by decide)
  have hdup : secondRegistration.blueGreenRef = firstRegistration.blueGreenRef ∧
    secondRegistration.testId = firstRegistration.testId := ⟨rfl, rfl⟩
  have hkept := CosmosStore.get_register hdup
    (Backends.single firstRegistration (by decide) (by decide)).inCosmos
  have hmerged := hanswer.cosmos
  rw [List.foldl_cons, List.foldl_nil, hkept] at hmerged
  have htimeout : durationSeconds 90 = durationSeconds 60 :=
    (congrArg TestCaseRecord.timeout (Option.some.inj hmerged)).symm
  exact absurd htimeout (by decide)

end FluidBG
