import FluidBG.Proof.Finalization
/-!
# The account of a rollout's cases

What a decision reads of the store is four numbers. Here they are set against what has happened: the
registrations of new cases, the verdicts and timeouts that were accepted, and the cases that expired,
since the rollout was last cleaned up. A verdict that is refused is in none of the numbers, and one
that is accepted is in just one of them, whatever comes after it.
-/

set_option autoImplicit false

namespace FluidBG

open Lib

/-! ## The account -/

/-- What has happened to the cases of a rollout. -/
structure CaseAccount where
  opened : Nat
  passed : Nat
  failed : Nat
  timedOut : Nat
  expired : Nat
  deriving DecidableEq

namespace CaseAccount

def zero : CaseAccount := ⟨0, 0, 0, 0, 0⟩

/-- The cases that are neither finished nor expired are pending. -/
def counts (account : CaseAccount) : Counts where
  passed := account.passed
  failed := account.failed
  timedOut := account.timedOut
  pending := account.opened - account.passed - account.failed - account.timedOut - account.expired

end CaseAccount

/-- A pending case of the rollout whose time is over. -/
def expires (bg : String) (now : Timestamp) (run : TestCaseRecord) : Bool :=
  run.blueGreenRef = bg && (run.isPending && decide (run.expiresAt < now))

/-- What an operation on the store adds to the account of `bg`; what the store answers decides. -/
def CaseAccount.step (bg : String) (store : MemoryStore) (account : CaseAccount) :
    StoreOp → CaseAccount
  | .register run =>
    if run.blueGreenRef = bg ∧ store.get run.blueGreenRef run.testId = none then
      { account with opened := account.opened + 1 }
    else account
  | .setVerdict ref testId passed failureMessage =>
    if ref = bg ∧ (store.setVerdict ref testId passed failureMessage).isOk then
      if passed then { account with passed := account.passed + 1 }
      else { account with failed := account.failed + 1 }
    else account
  | .markTimedOut ref testId =>
    if ref = bg ∧ (store.markTimedOut ref testId).isOk then
      { account with timedOut := account.timedOut + 1 }
    else account
  | .decrementRetries _ _ => account
  | .cleanupBlueGreen ref => if ref = bg then CaseAccount.zero else account
  | .cleanupExpired now =>
    { account with expired := account.expired + store.records.countP (expires bg now) }

/-- The account after operations that begin on `store`. -/
def CaseAccount.after (bg : String) : MemoryStore → CaseAccount → List StoreOp → CaseAccount
  | _, account, [] => account
  | store, account, op :: ops => CaseAccount.after bg (store.apply op) (account.step bg store op) ops

/-- The rollout of the case has a name without the separator. -/
def StoreOp.Named (op : StoreOp) : Prop := ∀ case ∈ op.case?, Separable case.1

instance (op : StoreOp) : Decidable op.Named :=
  inferInstanceAs (Decidable (∀ case ∈ op.case?, Separable case.1))

/-! ## What an operation does to the counts -/

theorem Counts.add_zero (counts : Counts) : counts.add .zero = counts := by
  simp [Counts.add, Counts.zero]

theorem Counts.ext_iff {a b : Counts} : a = b ↔
    a.passed = b.passed ∧ a.failed = b.failed ∧ a.timedOut = b.timedOut ∧ a.pending = b.pending := by
  cases a
  cases b
  simp

namespace MemoryStore

variable {store : MemoryStore} {bg ref testId : String}

theorem countsForRuns_append (a b : List TestCaseRecord) :
    countsForRuns (a ++ b) = (countsForRuns a).add (countsForRuns b) := by
  induction a with
  | nil => simp [countsForRuns, Counts.add, Counts.zero]
  | cons run a ih =>
    rw [List.cons_append, countsForRuns_cons, countsForRuns_cons, ih]
    simp [Counts.add, Int.add_assoc]

/-- The counts of one record of the rollout, and of none of another one. -/
def shareOf (bg : String) (run : TestCaseRecord) : Counts :=
  if run.blueGreenRef = bg then .ofStatus run.status else .zero

theorem counts_split (bg : String) (before after : List TestCaseRecord) (run : TestCaseRecord) :
    (⟨before ++ run :: after⟩ : MemoryStore).counts bg =
      (((⟨before⟩ : MemoryStore).counts bg).add (shareOf bg run)).add
        ((⟨after⟩ : MemoryStore).counts bg) := by
  unfold counts shareOf
  rw [List.filter_append, countsForRuns_append]
  by_cases hbg : run.blueGreenRef = bg
  · rw [List.filter_cons_of_pos (by simpa using hbg), countsForRuns_cons, if_pos hbg]
    simp [Counts.add, Int.add_assoc]
  · rw [List.filter_cons_of_neg (by simpa using hbg), if_neg hbg]
    simp [Counts.add, Counts.zero]

/-- A record under its key, and what an update of it leaves. -/
theorem modify_split (h : store.WellFormed) {run : TestCaseRecord}
    (f : TestCaseRecord → TestCaseRecord) (hget : store.get ref testId = some run) : ∃ before after,
      store.records = before ++ run :: after ∧
      (store.modify ref testId f).records = before ++ f run :: after := by
  obtain ⟨before, after, hrecords⟩ := List.append_of_mem (mem_of_get hget)
  refine ⟨before, after, hrecords, ?_⟩
  have hkey := key_of_get hget
  have hother : ∀ other, other ∈ before ∨ other ∈ after → other.key ≠ recordKey ref testId := by
    intro other hother heq
    have hnodup := h.keys
    unfold Keyed.Distinct at hnodup
    rw [hrecords, List.map_append, List.map_cons, List.nodup_append] at hnodup
    obtain ⟨-, hafter, hdisjoint⟩ := hnodup
    rcases hother with hmem | hmem
    · exact hdisjoint _ (List.mem_map_of_mem hmem) _ List.mem_cons_self (heq.trans hkey.symm)
    · exact (List.nodup_cons.mp hafter).1 (hkey.trans heq.symm ▸ List.mem_map_of_mem hmem)
  have hsame : ∀ part, (∀ other ∈ part, other ∈ before ∨ other ∈ after) →
      Keyed.update TestCaseRecord.key (recordKey ref testId) f part = part := by
    intro part hpart
    refine (List.map_congr_left fun other hmem => ?_).trans (List.map_id part)
    exact if_neg (hother other (hpart other hmem))
  rw [modify_records, hrecords]
  unfold Keyed.update at hsame ⊢
  rw [List.map_append, List.map_cons, hsame before fun _ => .inl, hsame after fun _ => .inr,
    if_pos hkey]

/-- An update that keeps rollout and status keeps all counts. -/
theorem counts_modify_same (h : store.WellFormed) {run : TestCaseRecord}
    {f : TestCaseRecord → TestCaseRecord} (hget : store.get ref testId = some run)
    (hshare : shareOf bg (f run) = shareOf bg run) :
    (store.modify ref testId f).counts bg = store.counts bg := by
  obtain ⟨before, after, hrecords, hmodify⟩ := modify_split h f hget
  have hold := counts_split bg before after run
  have hnew := counts_split bg before after (f run)
  rw [← hrecords] at hold
  rw [← hmodify, hshare] at hnew
  exact hnew.trans hold.symm

theorem ofStatus_pending {run : TestCaseRecord} (h : run.isPending = true) :
    Counts.ofStatus run.status = ⟨0, 0, 0, 1⟩ := by
  unfold TestCaseRecord.isPending at h
  cases hstatus : run.status <;> simp_all [Counts.ofStatus]

/-- A pending case is moved from the pending ones to those of its new status. -/
theorem counts_finish (h : store.WellFormed) (href : Separable ref) {run : TestCaseRecord}
    {f : TestCaseRecord → TestCaseRecord} {status : TestStatus} (hf : SameCase f)
    (hstatus : (f run).status = status) (hget : store.get ref testId = some run)
    (hpending : run.isPending = true) :
    ((store.modify ref testId f).counts bg).add (if ref = bg then ⟨0, 0, 0, 1⟩ else .zero) =
      (store.counts bg).add (if ref = bg then .ofStatus status else .zero) := by
  obtain ⟨before, after, hrecords, hmodify⟩ := modify_split h f hget
  have hold := counts_split bg before after run
  have hnew := counts_split bg before after (f run)
  rw [← hrecords] at hold
  rw [← hmodify] at hnew
  have hcase : run.blueGreenRef = ref :=
    ((recordKey_inj (h.separable run (mem_of_get hget)) href).mp (key_of_get hget)).1
  have hshare : shareOf bg run = if ref = bg then ⟨0, 0, 0, 1⟩ else .zero := by
    rw [shareOf, hcase, ofStatus_pending hpending]
  have hshare' : shareOf bg (f run) = if ref = bg then .ofStatus status else .zero := by
    rw [shareOf, (hf run).1, hcase, hstatus]
  show ((⟨(store.modify ref testId f).records⟩ : MemoryStore).counts bg).add _ =
    ((⟨store.records⟩ : MemoryStore).counts bg).add _
  rw [hold, hnew, hshare, hshare']
  simp only [Counts.add, Counts.mk.injEq]
  omega

/-- The same for whatever pending case there is. -/
theorem apply_finish (bg : String) (h : store.WellFormed) (href : Separable ref)
    {f : TestCaseRecord → TestCaseRecord} {status : TestStatus} (hf : SameCase f)
    (hstatus : ∀ run, (f run).status = status)
    (hpending : (store.get ref testId).any (·.isPending) = true) :
    ((store.modify ref testId f).counts bg).add (if ref = bg then ⟨0, 0, 0, 1⟩ else .zero) =
      (store.counts bg).add (if ref = bg then .ofStatus status else .zero) := by
  cases hget : store.get ref testId with
  | none =>
    rw [hget] at hpending
    cases hpending
  | some run =>
    rw [hget] at hpending
    exact counts_finish h href hf (hstatus run) hget hpending

theorem counts_append (run : TestCaseRecord) :
    (⟨store.records ++ [run]⟩ : MemoryStore).counts bg = (store.counts bg).add (shareOf bg run) := by
  rw [counts_split]
  simp [counts, countsForRuns, Counts.add, Counts.zero]

theorem counts_cleanup :
    ((store.cleanupBlueGreen ref).2).counts bg = if ref = bg then .zero else store.counts bg := by
  unfold cleanupBlueGreen counts
  simp only [List.filter_filter]
  by_cases hbg : ref = bg
  · rw [if_pos hbg, hbg]
    have hnone : store.records.filter (fun run => decide (run.blueGreenRef = bg) &&
        decide (run.blueGreenRef ≠ bg)) = [] := by
      rw [List.filter_eq_nil_iff]
      intro run _
      simp
    rw [hnone]
    rfl
  · rw [if_neg hbg]
    congr 1
    refine List.filter_congr fun run _ => ?_
    by_cases hrun : run.blueGreenRef = bg
    · simp [hrun, Ne.symm hbg]
    · simp [hrun]

/-- The cases that expire are taken from the pending ones. -/
theorem counts_expire (store : MemoryStore) (bg : String) (now : Timestamp) :
    ((store.cleanupExpired now).2.counts bg).add
        ⟨0, 0, 0, (store.records.countP (expires bg now) : Nat)⟩ = store.counts bg := by
  show ((⟨store.records.filter fun run => ¬ (run.isPending ∧ run.expiresAt < now)⟩ :
    MemoryStore).counts bg).add _ = (⟨store.records⟩ : MemoryStore).counts bg
  induction store.records with
  | nil => rfl
  | cons run records ih =>
    have hcons : ∀ (run : TestCaseRecord) (records : List TestCaseRecord),
        (⟨run :: records⟩ : MemoryStore).counts bg =
          (shareOf bg run).add ((⟨records⟩ : MemoryStore).counts bg) := by
      intro run records
      have hsplit := counts_split bg [] records run
      simpa [counts, countsForRuns, Counts.add, Counts.zero] using hsplit
    rw [hcons, ← ih]
    by_cases hover : run.isPending ∧ run.expiresAt < now
    · rw [List.filter_cons_of_neg (by simpa using hover)]
      by_cases hbg : run.blueGreenRef = bg
      · have hexpires : expires bg now run = true := by simp [expires, hbg, hover]
        rw [List.countP_cons_of_pos hexpires, shareOf, if_pos hbg, ofStatus_pending hover.1]
        simp only [Counts.add, Counts.mk.injEq, Nat.cast_add, Nat.cast_one]
        omega
      · have hexpires : ¬ expires bg now run = true := by simp [expires, hbg]
        rw [List.countP_cons_of_neg hexpires, shareOf, if_neg hbg]
        simp [Counts.add, Counts.zero]
    · have hexpires : ¬ expires bg now run = true := by
        intro hexpires
        simp only [expires, Bool.and_eq_true, decide_eq_true_eq] at hexpires
        exact hover hexpires.2
      rw [List.filter_cons, if_pos (decide_eq_true hover), hcons, List.countP_cons_of_neg hexpires]
      simp [Counts.add, Int.add_assoc]

/-- **One operation keeps the account.** -/
theorem apply_account (h : store.WellFormed) {op : StoreOp} (ha : op.Admissible) (hn : op.Named)
    {account : CaseAccount} (haccount : store.counts bg = account.counts) :
    (store.apply op).counts bg = (account.step bg store op).counts := by
  cases op with
  | register run =>
    show (store.register run).counts bg = _
    cases hget : store.get run.blueGreenRef run.testId with
    | none =>
      rw [register_of_none hget, counts_append, haccount, shareOf, CaseAccount.step, hget]
      by_cases hbg : run.blueGreenRef = bg
      · rw [if_pos hbg, if_pos ⟨hbg, rfl⟩, ha.1]
        simp only [Counts.add, Counts.ofStatus, CaseAccount.counts, Counts.mk.injEq]
        omega
      · rw [if_neg hbg, if_neg fun hand => hbg hand.1]
        simp [Counts.add, Counts.zero]
    | some existing =>
      have hstep : account.step bg store (.register run) = account :=
        if_neg fun hand => by
          rw [hget] at hand
          cases hand.2
      rw [register_of_get hget, hstep, ← haccount]
      split
      · rfl
      · exact counts_modify_same h hget rfl
  | setVerdict ref testId passed failureMessage =>
    have hstatus : ∀ run, (judged passed failureMessage run).status =
        if passed then .passed else .failed := fun _ => rfl
    by_cases hpending : (store.get ref testId).any (·.isPending) = true
    · have hanswer : store.setVerdict ref testId passed failureMessage =
          .ok (store.modify ref testId (judged passed failureMessage)) := by
        rw [setVerdict_eq, if_pos hpending]
      have hfinish := apply_finish bg h (hn _ rfl) (judged_sameCase passed failureMessage)
        hstatus hpending
      rw [haccount] at hfinish
      simp only [apply, CaseAccount.step, hanswer]
      by_cases hbg : ref = bg
      · rw [if_pos hbg, if_pos hbg] at hfinish
        rw [if_pos ⟨hbg, rfl⟩]
        cases passed <;>
          simp only [Counts.add, Counts.ofStatus, CaseAccount.counts, Counts.ext_iff] at hfinish ⊢ <;>
          simp at hfinish ⊢ <;> omega
      · rw [if_neg hbg, if_neg hbg, Counts.add_zero, Counts.add_zero] at hfinish
        rw [if_neg fun hand => hbg hand.1]
        exact hfinish
    · have hanswer : store.setVerdict ref testId passed failureMessage =
          .error (.notFound testId) := by
        rw [setVerdict_eq, if_neg hpending]
      simp only [apply, CaseAccount.step, hanswer]
      rw [if_neg fun hand => by cases hand.2]
      exact haccount
  | markTimedOut ref testId =>
    by_cases hpending : (store.get ref testId).any (·.isPending) = true
    · have hanswer : store.markTimedOut ref testId = .ok (store.modify ref testId timedOut) := by
        rw [markTimedOut_eq, if_pos hpending]
      have hfinish := apply_finish bg h (hn _ rfl) timedOut_sameCase
        (fun _ => rfl : ∀ run, (timedOut run).status = .timedOut) hpending
      rw [haccount] at hfinish
      simp only [apply, CaseAccount.step, hanswer]
      by_cases hbg : ref = bg
      · rw [if_pos hbg, if_pos hbg] at hfinish
        rw [if_pos ⟨hbg, rfl⟩]
        simp only [Counts.add, Counts.ofStatus, CaseAccount.counts, Counts.ext_iff] at hfinish ⊢
        push_cast at hfinish ⊢
        omega
      · rw [if_neg hbg, if_neg hbg, Counts.add_zero, Counts.add_zero] at hfinish
        rw [if_neg fun hand => hbg hand.1]
        exact hfinish
    · have hanswer : store.markTimedOut ref testId = .error (.notFound testId) := by
        rw [markTimedOut_eq, if_neg hpending]
      simp only [apply, CaseAccount.step, hanswer]
      rw [if_neg fun hand => by cases hand.2]
      exact haccount
  | decrementRetries ref testId =>
    show (store.apply (.decrementRetries ref testId)).counts bg = account.counts
    rw [← haccount]
    cases hget : store.get ref testId with
    | none =>
      have hanswer : store.decrementRetries ref testId = .error (.notFound testId) := by
        unfold decrementRetries
        rw [find_eq_get, hget]
      simp only [apply, hanswer]
    | some run =>
      by_cases htake : run.isPending ∧ run.retriesRemaining > 0
      · have hanswer : store.decrementRetries ref testId = .ok (some (run.retriesRemaining - 1),
            store.modify ref testId fun run =>
              { run with retriesRemaining := run.retriesRemaining - 1 }) := by
          unfold decrementRetries
          rw [find_eq_get, hget]
          exact if_pos htake
        simp only [apply, hanswer]
        exact counts_modify_same h hget rfl
      · have hanswer : store.decrementRetries ref testId = .ok (none, store) := by
          unfold decrementRetries
          rw [find_eq_get, hget]
          exact if_neg htake
        simp only [apply, hanswer]
  | cleanupBlueGreen ref =>
    show ((store.cleanupBlueGreen ref).2).counts bg =
      (if ref = bg then _ else _ : CaseAccount).counts
    rw [counts_cleanup]
    split
    · rfl
    · exact haccount
  | cleanupExpired now =>
    have hexpire := counts_expire store bg now
    show (store.cleanupExpired now).2.counts bg = _
    rw [haccount] at hexpire
    simp only [Counts.ext_iff, Counts.add, CaseAccount.counts, CaseAccount.step] at hexpire ⊢
    push_cast at hexpire ⊢
    omega

theorem applyAll_account (h : store.WellFormed) {ops : List StoreOp}
    (hops : ∀ op ∈ ops, op.Admissible ∧ op.Named) {account : CaseAccount}
    (haccount : store.counts bg = account.counts) :
    (store.applyAll ops).counts bg = (CaseAccount.after bg store account ops).counts := by
  induction ops generalizing store account with
  | nil => exact haccount
  | cons op ops ih =>
    obtain ⟨ha, hn⟩ := hops op List.mem_cons_self
    exact ih (h.apply ha) (fun op' hop => hops op' (List.mem_cons_of_mem _ hop))
      (apply_account h ha hn haccount)

end MemoryStore

/-- **The counts are the account.** After any operations of pollers, callers and cleanups, what the
store counts for a rollout are the verdicts and the timeouts that it accepted since the rollout was
last cleaned up, and the cases that were opened and have neither finished nor expired. -/
theorem counts_are_the_account (ops : List StoreOp) (hops : ∀ op ∈ ops, op.Admissible ∧ op.Named)
    (bg : String) :
    (MemoryStore.empty.applyAll ops).counts bg =
      (CaseAccount.after bg MemoryStore.empty .zero ops).counts :=
  MemoryStore.applyAll_account .empty hops rfl

/-- One case passes and is judged once more, another one expires. -/
def Sample.accounted : List StoreOp :=
  [.register (triggered "case-1"), .register (triggered "case-2"),
    .setVerdict "default/shop" "case-1" true none, .setVerdict "default/shop" "case-1" false none,
    .cleanupExpired 900000000000]

theorem accounted_counts : (MemoryStore.empty.applyAll Sample.accounted).counts "default/shop" =
    (CaseAccount.after "default/shop" MemoryStore.empty .zero Sample.accounted).counts :=
  counts_are_the_account Sample.accounted (by decide) "default/shop"

end FluidBG
