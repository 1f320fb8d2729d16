import FluidBG.Proof.Registry
import FluidBG.Sample
/-!
# A case is finalized once

Pollers, timeout checkers, API callers and replicas share one store, and each operation on it takes
the store's lock, so whatever they do together is one sequence of operations. Along every such
sequence the verdict of a record agrees with its status, a record that has been finalized is never
touched again, and the counts add up.
-/

set_option autoImplicit false

namespace FluidBG

open Lib

/-- An operation on the store that may change it. -/
inductive StoreOp where
  | register (run : TestCaseRecord)
  | setVerdict (blueGreenRef testId : String) (passed : Bool) (failureMessage : Option String)
  | markTimedOut (blueGreenRef testId : String)
  | decrementRetries (blueGreenRef testId : String)
  | cleanupBlueGreen (blueGreenRef : String)
  | cleanupExpired (now : Timestamp)
  deriving DecidableEq

namespace StoreOp

/-- The case an operation is about, where it is about one. -/
def case? : StoreOp → Option (String × String)
  | .register run => some (run.blueGreenRef, run.testId)
  | .setVerdict blueGreenRef testId _ _ => some (blueGreenRef, testId)
  | .markTimedOut blueGreenRef testId => some (blueGreenRef, testId)
  | .decrementRetries blueGreenRef testId => some (blueGreenRef, testId)
  | .cleanupBlueGreen _ => none
  | .cleanupExpired _ => none

/-- A registration is of a triggered case without a verdict, under a name without the separator. -/
def Admissible : StoreOp → Prop
  | .register run => run.status = .triggered ∧ run.verdict = none ∧ Separable run.blueGreenRef
  | _ => True

instance : (op : StoreOp) → Decidable op.Admissible
  | .register run => inferInstanceAs (Decidable (_ ∧ _ ∧ Separable run.blueGreenRef))
  | .setVerdict _ _ _ _ | .markTimedOut _ _ | .decrementRetries _ _ | .cleanupBlueGreen _
  | .cleanupExpired _ => .isTrue trivial

end StoreOp

namespace MemoryStore

def empty : MemoryStore := ⟨[]⟩

/-- The store after an operation; one that answers with an error changes nothing. -/
def apply (store : MemoryStore) : StoreOp → MemoryStore
  | .register run => store.register run
  | .setVerdict blueGreenRef testId passed failureMessage =>
    match store.setVerdict blueGreenRef testId passed failureMessage with
    | .ok store' => store'
    | .error _ => store
  | .markTimedOut blueGreenRef testId => match store.markTimedOut blueGreenRef testId with
    | .ok store' => store'
    | .error _ => store
  | .decrementRetries blueGreenRef testId => match store.decrementRetries blueGreenRef testId with
    | .ok (_, store') => store'
    | .error _ => store
  | .cleanupBlueGreen blueGreenRef => (store.cleanupBlueGreen blueGreenRef).2
  | .cleanupExpired now => (store.cleanupExpired now).2

/-- The store after a sequence of operations. -/
def applyAll (store : MemoryStore) (ops : List StoreOp) : MemoryStore :=
  ops.foldl apply store

end MemoryStore

/-! ## The invariant -/

/-- The verdict says what the status says. -/
structure TestCaseRecord.Judged (run : TestCaseRecord) : Prop where
  passed : run.status = .passed ↔ run.verdict = some true
  failed : run.status = .failed ↔ run.verdict = some false
  open_ : run.status ≠ .passed → run.status ≠ .failed → run.verdict = none

/-- The records stand under distinct keys that tell their cases apart, and each is judged. -/
structure MemoryStore.WellFormed (store : MemoryStore) : Prop where
  keys : Keyed.Distinct TestCaseRecord.key store.records
  separable : ∀ run ∈ store.records, Separable run.blueGreenRef
  judged : ∀ run ∈ store.records, run.Judged

theorem TestCaseRecord.Judged.triggered {run : TestCaseRecord} (hs : run.status = .triggered)
    (hv : run.verdict = none) : run.Judged := by
  refine ⟨?_, ?_, fun _ _ => hv⟩ <;> simp [hs, hv]

/-- Nothing but the status and the verdict matters. -/
theorem TestCaseRecord.Judged.congr {run run' : TestCaseRecord} (h : run.Judged)
    (hs : run'.status = run.status) (hv : run'.verdict = run.verdict) : run'.Judged := by
  obtain ⟨hpassed, hfailed, hopen⟩ := h
  refine ⟨?_, ?_, ?_⟩ <;> rw [hs, hv]
  · exact hpassed
  · exact hfailed
  · exact hopen

namespace MemoryStore

theorem judged_judged (passed : Bool) (failureMessage : Option String) (run : TestCaseRecord) :
    (judged passed failureMessage run).Judged := by
  cases passed <;> refine ⟨?_, ?_, ?_⟩ <;> simp [judged]

theorem timedOut_judged (run : TestCaseRecord) : (timedOut run).Judged := by
  refine ⟨?_, ?_, ?_⟩ <;> simp [timedOut]

/-- What an operation may put in the place of a record: the same case, judged like its status, with
the token it has. -/
structure Revision (f : TestCaseRecord → TestCaseRecord) : Prop where
  same : SameCase f
  judged : ∀ run, run.Judged → (f run).Judged
  token : ∀ run, run.verifierAuthToken ≠ "" → (f run).verifierAuthToken = run.verifierAuthToken

/-- **What one operation can do.** It changes nothing, adds a new case, rewrites the pending record
of its own case, or drops records. -/
inductive Effect (store : MemoryStore) (op : StoreOp) : MemoryStore → Prop
  | none : Effect store op store
  | added (run : TestCaseRecord) (hop : op = .register run)
      (hnew : store.get run.blueGreenRef run.testId = none) :
      Effect store op ⟨store.records ++ [run]⟩
  | revised {ref testId : String} {f : TestCaseRecord → TestCaseRecord}
      (hop : op.case? = some (ref, testId)) (hf : Revision f)
      (hpending : (store.get ref testId).any (·.isPending)) :
      Effect store op (store.modify ref testId f)
  | dropped {p : TestCaseRecord → Bool} (hop : op.case? = Option.none)
      (hp : ∀ run, run.isFinalized → op ≠ .cleanupBlueGreen run.blueGreenRef → p run) :
      Effect store op ⟨store.records.filter p⟩

theorem apply_effect (store : MemoryStore) (op : StoreOp) : Effect store op (store.apply op) := by
  cases op with
  | register run =>
    show Effect store _ (store.register run)
    cases hget : store.get run.blueGreenRef run.testId with
    | none =>
      rw [register_of_none hget]
      exact .added run rfl hget
    | some existing =>
      rw [register_of_get hget]
      cases hfinal : existing.isFinalized with
      | true => exact .none
      | false =>
        have hpending : existing.isPending = true := by
          simpa [TestCaseRecord.isFinalized_eq] using hfinal
        exact .revised rfl ⟨mergeRegistration_sameCase run, fun _ hj => hj.congr rfl rfl,
          fun _ htoken => if_neg fun h => htoken h.1⟩ (by simp [hget, hpending])
  | setVerdict ref testId passed failureMessage =>
    show Effect store _ (match store.setVerdict ref testId passed failureMessage with
      | .ok store' => store'
      | .error _ => store)
    rw [setVerdict_eq]
    by_cases hpending : (store.get ref testId).any (·.isPending)
    · rw [if_pos hpending]
      exact .revised rfl ⟨judged_sameCase _ _, fun run _ => judged_judged _ _ run,
        fun _ _ => rfl⟩ hpending
    · rw [if_neg hpending]
      exact .none
  | markTimedOut ref testId =>
    show Effect store _ (match store.markTimedOut ref testId with
      | .ok store' => store'
      | .error _ => store)
    rw [markTimedOut_eq]
    by_cases hpending : (store.get ref testId).any (·.isPending)
    · rw [if_pos hpending]
      exact .revised rfl ⟨timedOut_sameCase, fun run _ => timedOut_judged run,
        fun _ _ => rfl⟩ hpending
    · rw [if_neg hpending]
      exact .none
  | decrementRetries ref testId =>
    show Effect store _ (match store.decrementRetries ref testId with
      | .ok (_, store') => store'
      | .error _ => store)
    unfold decrementRetries
    rw [find_eq_get]
    cases hget : store.get ref testId with
    | none => exact .none
    | some run =>
      by_cases hretry : run.isPending ∧ run.retriesRemaining > 0
      · simp only [hretry, and_self, if_true]
        exact .revised rfl ⟨fun _ => ⟨rfl, rfl⟩, fun _ hj => hj.congr rfl rfl, fun _ _ => rfl⟩
          (by simp [hget, hretry.1])
      · simp only [hretry, if_false]
        exact .none
  | cleanupBlueGreen ref =>
    refine .dropped rfl fun run _ hop => ?_
    have hne : run.blueGreenRef ≠ ref := fun h => hop (by rw [h])
    simpa using hne
  | cleanupExpired now =>
    refine .dropped rfl fun run hfinal _ => ?_
    have hpending : run.isPending = false := by
      rw [TestCaseRecord.isFinalized_eq] at hfinal
      simpa using hfinal
    simp [hpending]

namespace WellFormed

variable {store : MemoryStore}

theorem empty : MemoryStore.empty.WellFormed := by
  refine ⟨List.nodup_nil, ?_, ?_⟩ <;> simp [MemoryStore.empty]

/-- A record that is there is the one its case is looked up by. -/
theorem get_of_mem (h : store.WellFormed) {run : TestCaseRecord} (hmem : run ∈ store.records) :
    store.get run.blueGreenRef run.testId = some run :=
  h.keys.lookup_of_mem hmem

theorem modify (h : store.WellFormed) {f : TestCaseRecord → TestCaseRecord} (hf : Revision f)
    (ref testId : String) : (store.modify ref testId f).WellFormed := by
  refine ⟨h.keys.update hf.same.key, ?_, ?_⟩
  · intro run' hmem
    obtain ⟨run, hrun, rfl⟩ := Keyed.mem_update.mp hmem
    split
    · rw [(hf.same run).1]
      exact h.separable run hrun
    · exact h.separable run hrun
  · intro run' hmem
    obtain ⟨run, hrun, rfl⟩ := Keyed.mem_update.mp hmem
    split
    · exact hf.judged run (h.judged run hrun)
    · exact h.judged run hrun

theorem filter (h : store.WellFormed) (p : TestCaseRecord → Bool) :
    (⟨store.records.filter p⟩ : MemoryStore).WellFormed :=
  ⟨h.keys.filter, fun run hmem => h.separable run (List.mem_of_mem_filter hmem),
    fun run hmem => h.judged run (List.mem_of_mem_filter hmem)⟩

theorem added (h : store.WellFormed) {run : TestCaseRecord}
    (ha : (StoreOp.register run).Admissible)
    (hnew : store.get run.blueGreenRef run.testId = none) :
    (⟨store.records ++ [run]⟩ : MemoryStore).WellFormed := by
  obtain ⟨hs, hv, href⟩ := ha
  refine ⟨h.keys.append_new hnew, ?_, ?_⟩ <;> intro run' hmem
  · rcases List.mem_append.mp hmem with hmem | hmem
    · exact h.separable run' hmem
    · rw [List.mem_singleton.mp hmem]
      exact href
  · rcases List.mem_append.mp hmem with hmem | hmem
    · exact h.judged run' hmem
    · rw [List.mem_singleton.mp hmem]
      exact .triggered hs hv

/-- Every operation keeps the invariant. -/
theorem apply (h : store.WellFormed) {op : StoreOp} (ha : op.Admissible) :
    (store.apply op).WellFormed := by
  have heffect := apply_effect store op
  generalize store.apply op = store' at heffect ⊢
  cases heffect with
  | none => exact h
  | added run hop hnew => exact h.added (hop ▸ ha) hnew
  | revised hop hf hpending => exact h.modify hf _ _
  | dropped hop hp => exact h.filter _

theorem applyAll (h : store.WellFormed) {ops : List StoreOp} (ha : ∀ op ∈ ops, op.Admissible) :
    (store.applyAll ops).WellFormed := by
  induction ops generalizing store with
  | nil => exact h
  | cons op ops ih =>
    exact ih (h.apply (ha op List.mem_cons_self)) fun op' hop => ha op' (List.mem_cons_of_mem _ hop)

end WellFormed

/-! ## Finalized records -/

variable {store : MemoryStore} {run : TestCaseRecord}

/-- A finalized record survives every operation but the cleanup of its rollout. -/
theorem apply_keeps (h : store.WellFormed) (hmem : run ∈ store.records) (hfinal : run.isFinalized)
    {op : StoreOp} (hop : op ≠ .cleanupBlueGreen run.blueGreenRef) :
    run ∈ (store.apply op).records := by
  have heffect := apply_effect store op
  generalize store.apply op = store' at heffect ⊢
  cases heffect with
  | none => exact hmem
  | added run' _ _ => exact List.mem_append_left _ hmem
  | @revised ref testId f _ _ hpending =>
    refine Keyed.mem_update_of_ne hmem fun hkey => ?_
    -- the record under the key would be this one, and it is not pending
    have hget : store.get ref testId = some run := by
      rw [get_eq, ← hkey]
      exact h.keys.lookup_of_mem hmem
    rw [TestCaseRecord.isFinalized_eq] at hfinal
    simp [hget] at hpending
    simp [hpending] at hfinal
  | dropped _ hp => exact List.mem_filter.mpr ⟨hmem, hp run hfinal hop⟩

theorem applyAll_keeps (h : store.WellFormed) (hmem : run ∈ store.records)
    (hfinal : run.isFinalized) {ops : List StoreOp}
    (hops : ∀ op ∈ ops, op.Admissible ∧ op ≠ .cleanupBlueGreen run.blueGreenRef) :
    run ∈ (store.applyAll ops).records := by
  induction ops generalizing store with
  | nil => exact hmem
  | cons op ops ih =>
    obtain ⟨ha, hop⟩ := hops op List.mem_cons_self
    exact ih (h.apply ha) (apply_keeps h hmem hfinal hop)
      fun op' hop' => hops op' (List.mem_cons_of_mem _ hop')

/-- A finalized record takes no verdict and does not expire. -/
theorem rejects_finalized (h : store.WellFormed) (hmem : run ∈ store.records)
    (hfinal : run.isFinalized) :
    (∀ passed failureMessage, store.setVerdict run.blueGreenRef run.testId passed failureMessage =
      .error (.notFound run.testId)) ∧
    store.markTimedOut run.blueGreenRef run.testId = .error (.notFound run.testId) := by
  have hpending : run.isPending = false := by
    rw [TestCaseRecord.isFinalized_eq] at hfinal
    simpa using hfinal
  have hget : (store.get run.blueGreenRef run.testId).any (·.isPending) = false := by
    rw [h.get_of_mem hmem]
    exact hpending
  refine ⟨fun passed failureMessage => ?_, ?_⟩
  · rw [setVerdict_eq, hget]
    rfl
  · rw [markTimedOut_eq, hget]
    rfl

/-! ## Other cases -/

/-- An operation on one case leaves what is stored for every other one. -/
theorem apply_elsewhere {op : StoreOp} {ref testId ref' testId' : String}
    (hop : op.case? = some (ref, testId)) (href : Separable ref) (href' : Separable ref')
    (hne : (ref', testId') ≠ (ref, testId)) :
    (store.apply op).get ref' testId' = store.get ref' testId' := by
  have hkey : recordKey ref' testId' ≠ recordKey ref testId := by
    rw [ne_eq, recordKey_inj href' href]
    rintro ⟨rfl, rfl⟩
    exact hne rfl
  have heffect := apply_effect store op
  generalize store.apply op = store' at heffect ⊢
  cases heffect with
  | none => rfl
  | added run hreg hnew =>
    subst hreg
    cases hop
    rw [get_append_new hnew]
    exact if_neg hkey
  | revised hcase hf _ =>
    cases hop.symm.trans hcase
    rw [get_modify hf.same, if_neg hkey]
  | dropped hcase _ => cases hop.symm.trans hcase

/-! ## Counts -/

theorem counts_modes (store : MemoryStore) (bg : String) :
    store.counts bg = (store.countsForMode bg .data).add (store.countsForMode bg .custom) := by
  refine countsForRuns_split store.records (fun run => ?_) fun run => ?_
  · cases run.verificationMode <;> simp
  · cases run.verificationMode <;> simp

end MemoryStore

/-- **A test case is finalized exactly once.** After every sequence of operations each record is
judged as its status says; from there on a finalized one stays as it is, and refuses a verdict and
an expiry, until its rollout is cleaned up; the counts are those of the records; and an operation on
one case leaves every other case alone. -/
theorem finalized_exactly_once (ops : List StoreOp) (hops : ∀ op ∈ ops, op.Admissible) :
    let store := MemoryStore.empty.applyAll ops
    (∀ run ∈ store.records, run.Judged) ∧
    (∀ run ∈ store.records, run.isFinalized → ∀ later : List StoreOp,
      (∀ op ∈ later, op.Admissible ∧ op ≠ .cleanupBlueGreen run.blueGreenRef) →
        let store' := store.applyAll later
        store'.get run.blueGreenRef run.testId = some run ∧
        (∀ passed failureMessage,
          store'.setVerdict run.blueGreenRef run.testId passed failureMessage =
            .error (.notFound run.testId)) ∧
        store'.markTimedOut run.blueGreenRef run.testId = .error (.notFound run.testId)) ∧
    (∀ bg, let counts := store.counts bg
      counts.passed + counts.failed + counts.timedOut + counts.pending =
          (store.records.filter fun run => run.blueGreenRef = bg).length ∧
        counts = (store.countsForMode bg .data).add (store.countsForMode bg .custom)) ∧
    (∀ (op : StoreOp) (ref testId ref' testId' : String), op.case? = some (ref, testId) →
      Separable ref → Separable ref' → (ref', testId') ≠ (ref, testId) →
        (store.apply op).get ref' testId' = store.get ref' testId') := by
  have hwf : (MemoryStore.empty.applyAll ops).WellFormed := MemoryStore.WellFormed.empty.applyAll hops
  refine ⟨hwf.judged, ?_, fun bg => ?_, fun op ref testId ref' testId' hop href href' hne => ?_⟩
  · intro run hmem hfinal later hlater
    have hwf' := hwf.applyAll fun op hop => (hlater op hop).1
    have hmem' := MemoryStore.applyAll_keeps hwf hmem hfinal hlater
    exact ⟨hwf'.get_of_mem hmem', MemoryStore.rejects_finalized hwf' hmem' hfinal⟩
  · exact ⟨countsForRuns_length _, MemoryStore.counts_modes _ bg⟩
  · exact MemoryStore.apply_elsewhere hop href href' hne

/-! ## A case that passes and is registered again -/

/-- A registered case of the sample. -/
def Sample.triggered (testId : String) : TestCaseRecord :=
  { testCase testId .triggered with verdict := none }

/-- The case is registered and passes. -/
def Sample.passes : List StoreOp :=
  [.register (triggered "case-1"), .setVerdict "default/shop" "case-1" true none]

/-- Afterwards it is registered again, polled again and expires. -/
def Sample.afterwards : List StoreOp :=
  [.register { triggered "case-1" with verifyUrl := "http://other" }, .cleanupExpired 90000000000,
    .setVerdict "default/shop" "case-1" false none, .markTimedOut "default/shop" "case-1"]

/-- It stays what it was. -/
theorem finalized_exactly_once_passed :
    ((MemoryStore.empty.applyAll Sample.passes).applyAll Sample.afterwards).get
      "default/shop" "case-1" = some (Sample.testCase "case-1" .passed) :=
  ((finalized_exactly_once Sample.passes (by decide)).2.1 (Sample.testCase "case-1" .passed)
    (by decide) (by decide) Sample.afterwards (by decide)).1

end FluidBG
