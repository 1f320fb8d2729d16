import FluidBG.Store
import FluidBG.Lib.Keyed
import Mathlib.Data.List.Basic
/-!
# The store as a registry of cases

`MemoryStore` addresses a record by one string, the rollout and the test id with the unit separator
between them. As long as no rollout's name contains that character the string determines both, and
the store is a table of records under distinct keys.
-/

set_option autoImplicit false

namespace FluidBG

open Lib

/-! ## Keys -/

/-- The string a record stands under. -/
def TestCaseRecord.key (run : TestCaseRecord) : String := recordKey run.blueGreenRef run.testId

/-- The name does not contain U+001F, the separator of `record_key`. -/
def Separable (blueGreenRef : String) : Prop := Char.ofNat 31 ∉ blueGreenRef.toList

instance (blueGreenRef : String) : Decidable (Separable blueGreenRef) :=
  inferInstanceAs (Decidable (¬ _))

theorem recordKey_toList (blueGreenRef testId : String) :
    (recordKey blueGreenRef testId).toList =
      blueGreenRef.toList ++ Char.ofNat 31 :: testId.toList := by
  simp [recordKey]

theorem takeWhile_separable {cs rest : List Char} (h : Char.ofNat 31 ∉ cs) :
    (cs ++ Char.ofNat 31 :: rest).takeWhile (· ≠ Char.ofNat 31) = cs := by
  induction cs with
  | nil => simp
  | cons c cs ih =>
    simp only [List.mem_cons, not_or] at h
    have hc : c ≠ Char.ofNat 31 := fun hc => h.1 hc.symm
    simp only [ne_eq, decide_not] at ih ⊢
    rw [List.cons_append, List.takeWhile_cons_of_pos (by simpa using hc), ih h.2]

/-- **The key determines the case.** -/
theorem recordKey_inj {ref ref' testId testId' : String} (h : Separable ref) (h' : Separable ref') :
    recordKey ref testId = recordKey ref' testId' ↔ ref = ref' ∧ testId = testId' := by
  constructor
  · intro heq
    have hlist := congrArg String.toList heq
    rw [recordKey_toList, recordKey_toList] at hlist
    have href := congrArg (List.takeWhile (· ≠ Char.ofNat 31)) hlist
    rw [takeWhile_separable h, takeWhile_separable h'] at href
    rw [href] at hlist
    have htest := List.append_cancel_left hlist
    simp only [List.cons.injEq, true_and] at htest
    exact ⟨String.toList_inj.mp href, String.toList_inj.mp htest⟩
  · rintro ⟨rfl, rfl⟩
    rfl

namespace MemoryStore

/-! ## What the operations do to a lookup -/

variable {store : MemoryStore} {ref testId : String}

theorem get_eq : store.get ref testId =
    Keyed.lookup TestCaseRecord.key (recordKey ref testId) store.records := rfl

theorem find_eq_get : store.find ref testId = store.get ref testId := rfl

theorem modify_records (f : TestCaseRecord → TestCaseRecord) :
    (store.modify ref testId f).records =
      Keyed.update TestCaseRecord.key (recordKey ref testId) f store.records := rfl

theorem mem_of_get {run : TestCaseRecord} (h : store.get ref testId = some run) :
    run ∈ store.records := by
  rw [get_eq] at h
  exact Keyed.mem_of_lookup h

theorem key_of_get {run : TestCaseRecord} (h : store.get ref testId = some run) :
    run.key = recordKey ref testId := by
  rw [get_eq] at h
  exact Keyed.key_of_lookup h

/-- What an operation puts in the place of a record: the same case. -/
def SameCase (f : TestCaseRecord → TestCaseRecord) : Prop :=
  ∀ run, (f run).blueGreenRef = run.blueGreenRef ∧ (f run).testId = run.testId

theorem SameCase.key {f : TestCaseRecord → TestCaseRecord} (h : SameCase f) (run : TestCaseRecord) :
    (f run).key = run.key := by
  unfold TestCaseRecord.key
  rw [(h run).1, (h run).2]

theorem get_modify {f : TestCaseRecord → TestCaseRecord} (hf : SameCase f) {ref' testId' : String} :
    (store.modify ref testId f).get ref' testId' =
      if recordKey ref' testId' = recordKey ref testId then (store.get ref' testId').map f
      else store.get ref' testId' := by
  rw [get_eq, modify_records, Keyed.lookup_update hf.key]
  rfl

theorem get_append_new {run : TestCaseRecord}
    (h : store.get run.blueGreenRef run.testId = none) :
    (⟨store.records ++ [run]⟩ : MemoryStore).get ref testId =
      if recordKey ref testId = run.key then some run else store.get ref testId := by
  rw [get_eq, get_eq]
  exact Keyed.lookup_append_new h

/-- A registration of a case that is already there. -/
theorem register_of_get {run existing : TestCaseRecord}
    (h : store.get run.blueGreenRef run.testId = some existing) :
    store.register run = if existing.isFinalized then store
      else store.modify run.blueGreenRef run.testId fun existing =>
        mergeRegistration existing run := by
  unfold register
  rw [find_eq_get, h]

/-- A registration of a new case. -/
theorem register_of_none {run : TestCaseRecord}
    (h : store.get run.blueGreenRef run.testId = none) :
    store.register run = ⟨store.records ++ [run]⟩ := by
  unfold register
  rw [find_eq_get, h]

theorem mergeRegistration_sameCase (run : TestCaseRecord) :
    SameCase fun existing => mergeRegistration existing run :=
  fun _ => ⟨rfl, rfl⟩

/-- The record `set_verdict` writes. -/
def judged (passed : Bool) (failureMessage : Option String) (run : TestCaseRecord) :
    TestCaseRecord :=
  { run with
    verdict := some passed
    failureMessage := failureMessage
    status := if passed then .passed else .failed }

/-- The record `mark_timed_out` writes. -/
def timedOut (run : TestCaseRecord) : TestCaseRecord :=
  { run with status := .timedOut, verdict := none }

theorem judged_sameCase (passed : Bool) (failureMessage : Option String) :
    SameCase (judged passed failureMessage) :=
  fun _ => ⟨rfl, rfl⟩

theorem timedOut_sameCase : SameCase timedOut := fun _ => ⟨rfl, rfl⟩

/-- **A verdict is accepted for a pending case only.** -/
theorem setVerdict_eq (passed : Bool) (failureMessage : Option String) :
    store.setVerdict ref testId passed failureMessage =
      if (store.get ref testId).any (·.isPending) then
        .ok (store.modify ref testId (judged passed failureMessage))
      else .error (.notFound testId) := by
  unfold setVerdict
  rw [find_eq_get]
  cases store.get ref testId with
  | none => rfl
  | some run =>
    cases h : run.isPending with
    | true =>
      simp only [h, Option.any_some, if_true]
      rfl
    | false => simp [h]

/-- **A case expires while it is pending only.** -/
theorem markTimedOut_eq : store.markTimedOut ref testId =
    if (store.get ref testId).any (·.isPending) then .ok (store.modify ref testId timedOut)
    else .error (.notFound testId) := by
  unfold markTimedOut
  rw [find_eq_get]
  cases store.get ref testId with
  | none => rfl
  | some run =>
    cases h : run.isPending with
    | true =>
      simp only [h, Option.any_some, if_true]
      rfl
    | false => simp [h]

end MemoryStore

/-! ## Pending and finalized -/

theorem TestCaseRecord.isFinalized_eq (run : TestCaseRecord) :
    run.isFinalized = !run.isPending := by
  unfold isFinalized isPending
  cases run.status <;> rfl

/-! ## Counting -/

/-- Component-wise. -/
def Counts.add (a b : Counts) : Counts :=
  ⟨a.passed + b.passed, a.failed + b.failed, a.timedOut + b.timedOut, a.pending + b.pending⟩

/-- The counts of one record. -/
def Counts.ofStatus : TestStatus → Counts
  | .passed => ⟨1, 0, 0, 0⟩
  | .failed => ⟨0, 1, 0, 0⟩
  | .timedOut => ⟨0, 0, 1, 0⟩
  | .triggered => ⟨0, 0, 0, 1⟩
  | .observing => ⟨0, 0, 0, 1⟩

/-- What one turn of `counts_for_runs` adds. -/
def countRun (counts : Counts) (run : TestCaseRecord) : Counts :=
  counts.add (.ofStatus run.status)

theorem countsForRuns_eq (runs : List TestCaseRecord) :
    countsForRuns runs = runs.foldl countRun .zero := by
  unfold countsForRuns
  congr 1
  funext counts run
  unfold countRun
  cases run.status <;> simp [Counts.add, Counts.ofStatus]

theorem foldl_countRun (counts : Counts) (runs : List TestCaseRecord) :
    runs.foldl countRun counts = counts.add (countsForRuns runs) := by
  rw [countsForRuns_eq]
  induction runs generalizing counts with
  | nil => simp [Counts.add, Counts.zero]
  | cons run runs ih =>
    rw [List.foldl_cons, List.foldl_cons, ih, ih (countRun .zero run)]
    simp [countRun, Counts.add, Counts.zero, Int.add_assoc]

theorem countsForRuns_cons (run : TestCaseRecord) (runs : List TestCaseRecord) :
    countsForRuns (run :: runs) = (Counts.ofStatus run.status).add (countsForRuns runs) := by
  rw [countsForRuns_eq, List.foldl_cons, foldl_countRun]
  simp [countRun, Counts.add, Counts.zero]

/-- Every record is counted once. -/
theorem countsForRuns_length (runs : List TestCaseRecord) :
    let counts := countsForRuns runs
    counts.passed + counts.failed + counts.timedOut + counts.pending = runs.length := by
  induction runs with
  | nil => rfl
  | cons run runs ih =>
    dsimp only at ih ⊢
    rw [countsForRuns_cons, List.length_cons]
    cases run.status <;> simp only [Counts.add, Counts.ofStatus] <;> omega

/-- The counts of two disjoint parts of the records add up. -/
theorem countsForRuns_split {p q r : TestCaseRecord → Bool} (runs : List TestCaseRecord)
    (h : ∀ run, p run = (q run || r run)) (hd : ∀ run, ¬ (q run ∧ r run)) :
    countsForRuns (runs.filter p) =
      (countsForRuns (runs.filter q)).add (countsForRuns (runs.filter r)) := by
  induction runs with
  | nil => rfl
  | cons run runs ih =>
    have hrun := h run
    have hdisjoint := hd run
    cases hq : q run with
    | true =>
      have hr : r run = false := by simpa [hq] using hdisjoint
      have hp : p run = true := by rw [hrun, hq]; rfl
      rw [List.filter_cons_of_pos hp, List.filter_cons_of_pos hq,
        List.filter_cons_of_neg (by simp [hr]), countsForRuns_cons, countsForRuns_cons, ih]
      simp [Counts.add, Int.add_assoc]
    | false =>
      cases hr : r run with
      | true =>
        have hp : p run = true := by rw [hrun, hr, Bool.or_true]
        rw [List.filter_cons_of_pos hp, List.filter_cons_of_neg (by simp [hq]),
          List.filter_cons_of_pos hr, countsForRuns_cons, countsForRuns_cons, ih]
        simp only [Counts.add, Counts.mk.injEq]
        omega
      | false =>
        have hp : p run = false := by rw [hrun, hq, hr]; rfl
        rw [List.filter_cons_of_neg (by simp [hp]), List.filter_cons_of_neg (by simp [hq]),
          List.filter_cons_of_neg (by simp [hr]), ih]

end FluidBG
