import FluidBG.HttpApi
import FluidBG.Sample
import FluidBG.Lib.Pool
import FluidBG.Proof.Status
import FluidBG.Proof.Tenancy
/-!
# Admitted cases and the end of a drain

A drain counts the pending cases of its rollout once and, when there are none, takes down what the
rollout has tested with. Cases are admitted as long as the drain lasts. What a drain has counted
stays true until it is done with deleting as long as no case of the rollout is stored anew between
the count and the deletions; then every case that was admitted is finalized when the evidence goes.
-/

set_option autoImplicit false

namespace FluidBG

open Lib

/-! ## What a step does to the store -/

/-- The operation on the store a call asks for. -/
def Call.storeOp : Call → Option StoreOp
  | .register run => some (.register run)
  | .setVerdict key testId passed failureMessage =>
    some (.setVerdict key testId passed failureMessage)
  | .markTimedOut key testId => some (.markTimedOut key testId)
  | .decrementRetries key testId => some (.decrementRetries key testId)
  | .cleanupBlueGreen key => some (.cleanupBlueGreen key)
  | _ => none

namespace World

variable {w w' : World}

theorem createDeployment_store (ns : String) (d : Deployment) :
    (w.createDeployment ns d).2.store = w.store := by
  unfold World.createDeployment
  split <;> rfl

theorem replaceDeployment_store (ns name : String) (d : Deployment) :
    (w.replaceDeployment ns name d).2.store = w.store := by
  unfold World.replaceDeployment
  split
  · rfl
  · split <;> rfl

theorem applyDeployment_store (ns name : String) (d : Deployment) :
    (w.applyDeployment ns name d).2.store = w.store := by
  unfold World.applyDeployment
  split <;> rfl

theorem deleteDeployment_store (ns name : String) :
    (w.deleteDeployment ns name).2.store = w.store := by
  unfold World.deleteDeployment
  split <;> rfl

theorem applyResource_store (kind : Kind) (ns name : String) (r : Resource) :
    (w.applyResource kind ns name r).2.store = w.store := by
  unfold World.applyResource
  dsimp only
  split <;> rfl

theorem deleteResource_store (kind : Kind) (ns name : String) :
    (w.deleteResource kind ns name).2.store = w.store := by
  unfold World.deleteResource
  split <;> rfl

/-- **A call changes the store by its operation**, or not at all. -/
theorem serve_store {c : Call} {o : Outcome} {a : Answer c} (h : w.serve c o = some (a, w')) :
    w'.store = w.store ∨ ∃ op, c.storeOp = some op ∧ w'.store = w.store.apply op := by
  cases c with
  | register run =>
    rcases respondStore_world h with rfl | rfl
    exacts [.inl rfl, .inr ⟨_, rfl, rfl⟩]
  | cleanupBlueGreen key =>
    rcases respondStore_world h with rfl | rfl
    exacts [.inl rfl, .inr ⟨_, rfl, rfl⟩]
  | setVerdict key testId passed failureMessage =>
    rcases respondStore_world h with rfl | rfl
    · exact .inl rfl
    · refine .inr ⟨_, rfl, ?_⟩
      simp only [MemoryStore.apply]
      cases w.store.setVerdict key testId passed failureMessage <;> rfl
  | markTimedOut key testId =>
    rcases respondStore_world h with rfl | rfl
    · exact .inl rfl
    · refine .inr ⟨_, rfl, ?_⟩
      simp only [MemoryStore.apply]
      cases w.store.markTimedOut key testId <;> rfl
  | decrementRetries key testId =>
    rcases respondStore_world h with rfl | rfl
    · exact .inl rfl
    · refine .inr ⟨_, rfl, ?_⟩
      simp only [MemoryStore.apply]
      cases w.store.decrementRetries key testId <;> rfl
  | counts _ | countsForMode _ _ | latestFailureMessage _ | getCase _ _ =>
    rcases respondStore_world h with rfl | rfl <;> exact .inl rfl
  | listBlueGreenRefs | listPending => rcases respondStore_world h with rfl | rfl <;> exact .inl rfl
  | replaceStatus ns name b =>
    rcases serve_replaceStatus h with rfl | ⟨stored, -, -, rfl⟩ <;> exact .inl rfl
  | patchStatus ns name patch =>
    rcases serve_patchStatus h with rfl | ⟨stored, -, rfl⟩ <;> exact .inl rfl
  | patchFinalizers ns name finalizers =>
    rcases serve_patchFinalizers h with rfl | rfl | ⟨stored, -, rfl⟩ <;> exact .inl rfl
  | createDeployment ns d =>
    rcases respond_world h with rfl | rfl
    exacts [.inl rfl, .inl (createDeployment_store ns d)]
  | replaceDeployment ns name d =>
    rcases respond_world h with rfl | rfl
    exacts [.inl rfl, .inl (replaceDeployment_store ns name d)]
  | applyDeployment ns name d =>
    rcases respond_world h with rfl | rfl
    exacts [.inl rfl, .inl (applyDeployment_store ns name d)]
  | deleteDeployment ns name =>
    rcases respond_world h with rfl | rfl
    exacts [.inl rfl, .inl (deleteDeployment_store ns name)]
  | applyResource kind ns name r =>
    rcases respond_world h with rfl | rfl
    exacts [.inl rfl, .inl (applyResource_store kind ns name r)]
  | deleteResource kind ns name =>
    rcases respond_world h with rfl | rfl
    exacts [.inl rfl, .inl (deleteResource_store kind ns name)]
  | note n => exact .inl (by rw [serve_note h])
  | pollVerifier _ _ | controlPlaneClient _ | postManager _ _ _ | postManagerSync _ _ _
    | postInceptor _ _ | getDrainStatus _ _ | postTraffic _ _ _ | sleep _ =>
    cases o <;> simp [World.serve] at h
    all_goals exact .inl (by simp [h])
  | now =>
    cases o <;> simp [World.serve] at h
    exact .inl (by simp [h])
  | _ => rcases respond_world h with rfl | rfl <;> exact .inl rfl

/-- A refused call changes nothing. -/
theorem serve_refused {c : Call} {text : String} {a : Answer c}
    (h : w.serve c (.refused text) = some (a, w')) : w' = w := by
  cases c <;> simp only [World.serve, World.respond, World.respondStore, Option.some.injEq,
    Prod.mk.injEq, reduceCtorEq] at h <;> exact h.2.symm

/-- A move that is no registration changes the store by an operation on one case, or not at all. -/
theorem move_store {v : Move} (hv : ∀ run, v ≠ .register run) (h : w.move v = some w') :
    w'.store = w.store ∨ ∃ op, w'.store = w.store.apply op ∧ op.case? ≠ none ∧
      ∀ run, op ≠ .register run := by
  cases v with
  | register run => exact absurd rfl (hv run)
  | editSpec spec =>
    obtain ⟨b, -, rfl⟩ := Option.map_eq_some_iff.mp h
    exact .inl rfl
  | delete =>
    obtain ⟨b, -, rfl⟩ := Option.map_eq_some_iff.mp h
    dsimp only
    split <;> exact .inl rfl
  | setVerdict key testId passed failureMessage =>
    refine .inr ⟨.setVerdict key testId passed failureMessage, ?_, by simp [StoreOp.case?], by simp⟩
    simp only [World.move] at h
    cases hstore : w.store.setVerdict key testId passed failureMessage with
    | error e =>
      rw [hstore] at h
      cases h
    | ok store =>
      rw [hstore] at h
      cases h
      simp only [MemoryStore.apply, hstore]
  | markTimedOut key testId =>
    refine .inr ⟨.markTimedOut key testId, ?_, by simp [StoreOp.case?], by simp⟩
    simp only [World.move] at h
    cases hstore : w.store.markTimedOut key testId with
    | error e =>
      rw [hstore] at h
      cases h
    | ok store =>
      rw [hstore] at h
      cases h
      simp only [MemoryStore.apply, hstore]
  | _ => cases h; exact .inl rfl

end World

/-! ## Settled rollouts -/

/-- No case of the rollout is pending. -/
def MemoryStore.Settled (store : MemoryStore) (key : String) : Prop :=
  ∀ run ∈ store.records, run.blueGreenRef = key → run.isFinalized = true

namespace MemoryStore

variable {store : MemoryStore} {key : String}

/-- The pending cases are what the counts say. -/
theorem pending_countsForRuns (runs : List TestCaseRecord) :
    (countsForRuns runs).pending = (runs.filter (·.isPending)).length := by
  induction runs with
  | nil => rfl
  | cons run runs ih =>
    rw [countsForRuns_cons]
    unfold TestCaseRecord.isPending at ih ⊢
    cases hstatus : run.status <;> simp [Counts.add, Counts.ofStatus, hstatus, ih] <;> omega

theorem settled_of_counts (h : ¬ (store.counts key).pending > 0) : store.Settled key := by
  intro run hmem hkey
  unfold counts at h
  rw [pending_countsForRuns] at h
  have hnone : ((store.records.filter fun run => run.blueGreenRef = key).filter
      (·.isPending)).length = 0 := by omega
  rw [TestCaseRecord.isFinalized_eq]
  cases hpending : run.isPending with
  | false => rfl
  | true =>
    rw [List.length_eq_zero_iff, List.filter_eq_nil_iff] at hnone
    exact absurd hpending (hnone run (List.mem_filter.mpr ⟨hmem, by simpa using hkey⟩))

/-- **A settled rollout stays settled** unless one of its cases is stored anew. -/
theorem Settled.apply (hwf : store.WellFormed) (h : store.Settled key) {op : StoreOp}
    (hop : ∀ run, op = .register run → store.get run.blueGreenRef run.testId = none →
      run.blueGreenRef ≠ key) : (store.apply op).Settled key := by
  have heffect := apply_effect store op
  generalize store.apply op = store' at heffect
  cases heffect with
  | none => exact h
  | added run hregister hnew =>
    intro run' hmem hkey
    rcases List.mem_append.mp hmem with hmem | hmem
    · exact h run' hmem hkey
    · cases List.mem_singleton.mp hmem
      exact absurd hkey (hop _ hregister hnew)
  | @revised ref testId f _ hf hpending =>
    intro run' hmem hkey
    obtain ⟨run, hrun, rfl⟩ := Keyed.mem_update.mp hmem
    split at hkey
    · -- the case is pending, so it is not of this rollout
      rename_i hthis
      rw [(hf.same run).1] at hkey
      have hget := hwf.keys.lookup_of_mem hrun
      rw [show run.key = recordKey ref testId from hthis] at hget
      have hfinal := h run hrun hkey
      rw [TestCaseRecord.isFinalized_eq] at hfinal
      rw [get_eq, hget, Option.any_some] at hpending
      rw [hpending] at hfinal
      cases hfinal
    · rename_i hthis
      rw [if_neg hthis]
      exact h run hrun hkey
  | dropped _ _ => exact fun run hmem => h run (List.mem_of_mem_filter hmem)

/-- A case that is stored stays there unless it is dropped. -/
theorem get_apply {ref testId : String} {op : StoreOp} (hcase : op.case? ≠ none)
    (h : (store.get ref testId).isSome) : ((store.apply op).get ref testId).isSome := by
  have heffect := apply_effect store op
  generalize store.apply op = store' at heffect
  cases heffect with
  | none => exact h
  | added run _ hnew =>
    rw [get_append_new hnew]
    split
    · rfl
    · exact h
  | revised _ hf _ =>
    rw [get_modify hf.same]
    split
    · rw [Option.isSome_map]
      exact h
    · exact h
  | dropped hnone _ => exact absurd hnone hcase

/-- A registered case is stored. -/
theorem isSome_get_register (run : TestCaseRecord) :
    ((store.register run).get run.blueGreenRef run.testId).isSome := by
  cases hget : store.get run.blueGreenRef run.testId with
  | none =>
    rw [register_of_none hget, get_append_new hget]
    exact if_pos rfl ▸ rfl
  | some existing =>
    have hcase : (StoreOp.register run).case? ≠ none := by simp [StoreOp.case?]
    exact get_apply hcase (Option.isSome_of_eq_some hget)

end MemoryStore

/-! ## Drains and handlers -/

/-- What a thread has been answered: a drain of a rollout before and after it has counted no pending
case, while it deletes, and when it is done with that; or something else. -/
inductive Drain where
  | other
  | waiting (key : String)
  | settled (key : String)
  | deleting (key : String)
  | concluded (key : String)
  deriving DecidableEq

/-- The call deletes an object. -/
def Call.DeletesObject : Call → Prop
  | .deleteDeployment _ _ => True
  | .deleteResource _ _ _ => True
  | _ => False

namespace Drain

/-- The rollout a drain is of. -/
def key : Drain → Option String
  | .other => none
  | .waiting key => some key
  | .settled key => some key
  | .deleting key => some key
  | .concluded key => some key

/-- The rollout whose cases a drain has found finalized, while it has not done its deletions. -/
def finishing : Drain → Option String
  | .settled key => some key
  | .deleting key => some key
  | _ => none

/-- What a thread remembers after a call. -/
def see (x : Drain) (c : Call) (a : Answer c) : Drain :=
  match x, c, a with
  | .waiting key, .counts counted, .ok counts =>
    if counted = key ∧ ¬ counts.pending > 0 then .settled key else .waiting key
  | .settled key, .deleteDeployment _ _, _ => .deleting key
  | .settled key, .deleteResource _ _ _, _ => .deleting key
  | .deleting key, .getBgd _ _, _ => .concluded key
  | x, _, _ => x

@[simp] theorem key_see (x : Drain) (c : Call) (a : Answer c) : (x.see c a).key = x.key := by
  unfold see
  split
  · split <;> rfl
  all_goals rfl

end Drain

/-- The cluster, and the cases whose registration was answered with success and whose record was not
cleaned up since. -/
structure Admitting where
  world : World
  admitted : List (String × String)

/-- The world after a call. -/
def Admitting.served (s : Admitting) (c : Call) (a : Answer c) (w : World) : Admitting :=
  match c, a with
  | .register run, .ok _ => ⟨w, (run.blueGreenRef, run.testId) :: s.admitted⟩
  | .cleanupBlueGreen _, _ =>
    ⟨w, s.admitted.filter fun case => (w.store.get case.1 case.2).isSome⟩
  | _, _ => ⟨w, s.admitted⟩

/-- The cluster shared by drains, handlers and everything else. Cases are registered by requests
only. -/
def admittingCluster : Shared Call Answer Drain Admitting Outcome Move where
  serve x s c o := (s.world.serve c o).map fun aw =>
    (aw.1, s.served c aw.1 aw.2, x.see c aw.1)
  move s v := match v with
    | .register _ => none
    | v => (s.world.move v).map fun w => ⟨w, s.admitted⟩

/-- A drain that is under way, a request to register a case, and any other work. -/
inductive AdmissionJob where
  | drain (ctx : Ctx) (bgd : BlueGreenDeployment)
  | register (ctx : Ctx) (authHeader : Option String) (req : RegisterTestCaseRequest)
  | other (work : Op Unit) (h : work.Calls fun c => c.registers = none)

/-- The key of an object's cases. -/
def BlueGreenDeployment.stateKey (bgd : BlueGreenDeployment) : String :=
  blueGreenStateKey bgd.metadata.ns bgd.metadata.name

def AdmissionJob.thread : AdmissionJob → Thread Call Answer ReconcileError Drain
  | .drain ctx bgd => ⟨reconcileDraining ctx bgd bgd.metadata.ns bgd.stateKey, .waiting bgd.stateKey⟩
  | .register ctx authHeader req => ⟨do let _ ← registerTestCase ctx authHeader req, .other⟩
  | .other work _ => ⟨work, .other⟩

/-- A registration that stores its case anew finds no drain of the rollout between its count and the
end of its deletions. -/
def AdmitsInTime (others : List Drain) (w : World) (run : TestCaseRecord) : Prop :=
  w.store.get run.blueGreenRef run.testId = none →
    ∀ x ∈ others, x.finishing ≠ some run.blueGreenRef

instance (others : List Drain) (w : World) (run : TestCaseRecord) :
    Decidable (AdmitsInTime others w run) :=
  inferInstanceAs (Decidable (_ → _))

/-- **No case of a rollout is stored anew between the count that ends its drain and the last
deletion.** -/
def admissionWatch : Watch Call Drain Admitting Outcome Move where
  call others _ s c o := match c, o with
    | _, .refused _ => True
    | .register run, _ => AdmitsInTime others s.world run
    | _, _ => True
  move _ _ _ := True

instance (others : List Drain) (x : Drain) (s : Admitting) (c : Call) (o : Outcome) :
    Decidable (admissionWatch.call others x s c o) :=
  decidable_of_iff (o.IsRefused ∨ ∀ run ∈ c.registers, AdmitsInTime others s.world run) (by
    unfold admissionWatch
    dsimp only
    split <;> simp_all [Outcome.IsRefused, Call.registers])

instance (all : List Drain) (s : Admitting) (v : Move) : Decidable (admissionWatch.move all s v) :=
  .isTrue trivial

/-! ## What the threads owe -/

/-- The store is well-formed, the names of objects do not contain the separator of the store's keys,
and what was admitted is stored. -/
structure Admitting.WellFormed (s : Admitting) : Prop where
  store : s.world.store.WellFormed
  named : ∀ b, s.world.bgd = some b → Separable b.stateKey
  admitted : ∀ case ∈ s.admitted, Separable case.1 ∧ (s.world.store.get case.1 case.2).isSome

/-- What a thread may do on its own account: register an admissible case when it is not a drain, and
delete, as a drain, when it has counted no pending case. -/
structure Drain.MayCall (x : Drain) (c : Call) : Prop where
  registers : ∀ run, c.registers = some run →
    (StoreOp.register run).Admissible ∧ x.finishing = none
  deletes : c.DeletesObject → ∀ key, x.key = some key → x.finishing = some key

/-- What a finishing drain has found still holds. -/
def Drain.Holds (x : Drain) (w : World) : Prop :=
  ∀ key, x.finishing = some key → w.store.Settled key

abbrev admissionDuty : Duty Call Drain Admitting :=
  ⟨Admitting.WellFormed, fun x s c => x.MayCall c ∧ x.Holds s.world⟩

section Admission

variable {s s' : Admitting} {x : Drain} {w w' : World}

@[simp] theorem Admitting.served_world (c : Call) (a : Answer c) : (s.served c a w).world = w := by
  unfold Admitting.served
  split <;> rfl

theorem admittingCluster_serve {c : Call} {o : Outcome} {a : Answer c} {x' : Drain}
    (h : admittingCluster.serve x s c o = some (a, s', x')) :
    ∃ w, s.world.serve c o = some (a, w) ∧ s' = s.served c a w ∧ x' = x.see c a := by
  obtain ⟨aw, hworld, heq⟩ := Option.map_eq_some_iff.mp h
  simp only [Prod.mk.injEq] at heq
  obtain ⟨rfl, rfl, rfl⟩ := heq
  exact ⟨aw.2, hworld, rfl, rfl⟩

theorem Call.storeOp_register {c : Call} {run : TestCaseRecord}
    (h : c.storeOp = some (.register run)) : c = .register run := by
  cases c <;> cases h
  rfl

/-- An operation on the store, but for a registration, is admissible. -/
theorem Drain.MayCall.admissible {c : Call} (h : x.MayCall c) {op : StoreOp}
    (hop : c.storeOp = some op) : op.Admissible := by
  cases op with
  | register run =>
    cases Call.storeOp_register hop
    exact (h.registers run rfl).1
  | _ => trivial

/-- **A call that may be made keeps the store well-formed and what was admitted stored.** -/
theorem Admitting.WellFormed.serve {c : Call} {o : Outcome} {a : Answer c} (h : s.WellFormed)
    (hmay : x.MayCall c) (hserve : s.world.serve c o = some (a, w)) : (s.served c a w).WellFormed := by
  have hstore : w.store.WellFormed := by
    rcases World.serve_store hserve with heq | ⟨op, hop, heq⟩
    · rw [heq]; exact h.store
    · rw [heq]; exact h.store.apply (hmay.admissible hop)
  have hnamed : ∀ b, w.bgd = some b → Separable b.stateKey := by
    intro b' hb'
    obtain ⟨b, hb, hns, hname, -⟩ := World.serve_bgd hserve hb'
    unfold BlueGreenDeployment.stateKey
    rw [hns, hname]
    exact h.named b hb
  -- what was admitted before stays, unless a cleanup has dropped it
  have hkept (hc : ∀ key, c ≠ .cleanupBlueGreen key) : ∀ case ∈ s.admitted,
      Separable case.1 ∧ (w.store.get case.1 case.2).isSome := by
    intro case hcase
    refine ⟨(h.admitted case hcase).1, ?_⟩
    rcases World.serve_store hserve with heq | ⟨op, hop, heq⟩
    · rw [heq]; exact (h.admitted case hcase).2
    · rw [heq]
      refine MemoryStore.get_apply (fun hnone => ?_) (h.admitted case hcase).2
      cases c <;> cases hop <;> first | exact absurd rfl (hc _) | cases hnone
  refine ⟨by rw [Admitting.served_world]; exact hstore,
    by rw [Admitting.served_world]; exact hnamed, ?_⟩
  unfold Admitting.served
  split
  · rename_i run _
    intro case hcase
    rcases List.mem_cons.mp hcase with rfl | hcase
    · refine ⟨(hmay.registers run rfl).1.2.2, ?_⟩
      cases o <;> simp only [World.serve, World.respondStore, Option.some.injEq, Prod.mk.injEq,
        reduceCtorEq, false_and] at hserve
      rw [← hserve.2]
      exact MemoryStore.isSome_get_register run
    · exact hkept (fun _ h => by cases h) case hcase
  · intro case hcase
    obtain ⟨hcase, hstored⟩ := List.mem_filter.mp hcase
    exact ⟨(h.admitted case hcase).1, by simpa using hstored⟩
  · rename_i hregister hcleanup
    exact hkept fun key hc => by subst hc; exact hcleanup _ _ rfl HEq.rfl

/-- A move of the cluster is none of the registrations. -/
theorem admittingCluster_move {v : Move} (h : admittingCluster.move s v = some s') :
    (∀ run, v ≠ .register run) ∧ s.world.move v = some s'.world ∧ s'.admitted = s.admitted := by
  have hmap (hmove : (s.world.move v).map (⟨·, s.admitted⟩) = some s') :
      s.world.move v = some s'.world ∧ s'.admitted = s.admitted := by
    obtain ⟨w, hworld, rfl⟩ := Option.map_eq_some_iff.mp hmove
    exact ⟨hworld, rfl⟩
  cases v with
  | register run => cases h
  | _ => exact ⟨fun _ h => (by cases h), hmap h⟩

theorem StoreOp.Admissible.of_ne {op : StoreOp} (h : ∀ run, op ≠ .register run) : op.Admissible := by
  cases op with
  | register run => exact absurd rfl (h run)
  | _ => trivial

theorem Admitting.WellFormed.move {v : Move} (h : s.WellFormed)
    (hmove : admittingCluster.move s v = some s') : s'.WellFormed := by
  obtain ⟨hv, hmove, hadmitted⟩ := admittingCluster_move hmove
  have hnamed : ∀ b, s'.world.bgd = some b → Separable b.stateKey := by
    intro b' hb'
    obtain ⟨b, hb, -, hns, hname, -⟩ := World.move_bgd hmove hb'
    unfold BlueGreenDeployment.stateKey
    rw [hns, hname]
    exact h.named b hb
  rcases World.move_store hv hmove with heq | ⟨op, heq, hcase, hop⟩
  · exact ⟨by rw [heq]; exact h.store, hnamed, by rw [heq, hadmitted]; exact h.admitted⟩
  · refine ⟨by rw [heq]; exact h.store.apply (.of_ne hop), hnamed, ?_⟩
    rw [heq, hadmitted]
    intro case hmem
    exact ⟨(h.admitted case hmem).1, MemoryStore.get_apply hcase (h.admitted case hmem).2⟩

/-- **What a drain has found stays true whatever the others do.** -/
theorem Drain.Holds.serve {others : List Drain} {y : Drain} {c : Call} {o : Outcome} {a : Answer c}
    (h : x.Holds s.world) (hwf : s.WellFormed) (hmem : x ∈ others)
    (hguard : admissionWatch.call others y s c o) (hserve : s.world.serve c o = some (a, w)) :
    x.Holds w := by
  intro key hkey
  by_cases hrefused : ∃ text, o = .refused text
  · obtain ⟨text, rfl⟩ := hrefused
    rw [World.serve_refused hserve]
    exact h key hkey
  rcases World.serve_store hserve with heq | ⟨op, hop, heq⟩
  · rw [heq]; exact h key hkey
  · rw [heq]
    refine (h key hkey).apply hwf.store fun run hregister hnew href => ?_
    subst hregister
    cases Call.storeOp_register hop
    have hintime : AdmitsInTime others s.world run := by
      cases o with
      | refused text => exact absurd ⟨text, rfl⟩ hrefused
      | _ => exact hguard
    exact hintime hnew x hmem (by rw [hkey, href])

theorem Drain.Holds.move {v : Move} (h : x.Holds s.world) (hwf : s.WellFormed)
    (hmove : admittingCluster.move s v = some s') : x.Holds s'.world := by
  intro key hkey
  obtain ⟨hv, hmove, -⟩ := admittingCluster_move hmove
  rcases World.move_store hv hmove with heq | ⟨op, heq, -, hop⟩
  · rw [heq]; exact h key hkey
  · rw [heq]
    exact (h key hkey).apply hwf.store fun run hregister _ => absurd hregister (hop run)

/-- What a thread finds by its own call holds. -/
theorem Drain.Holds.see {c : Call} {o : Outcome} {a : Answer c} (h : x.Holds s.world)
    (hwf : s.WellFormed) (hmay : x.MayCall c) (hserve : s.world.serve c o = some (a, w)) :
    (x.see c a).Holds w := by
  -- a drain registers nothing, so its own calls keep a rollout settled
  have hkept (key : String) (hkey : x.finishing = some key) : w.store.Settled key := by
    rcases World.serve_store hserve with heq | ⟨op, hop, heq⟩
    · rw [heq]; exact h key hkey
    · rw [heq]
      refine (h key hkey).apply hwf.store fun run hregister _ => ?_
      subst hregister
      cases Call.storeOp_register hop
      rw [(hmay.registers run rfl).2] at hkey
      cases hkey
  intro key hkey
  unfold Drain.see at hkey
  split at hkey
  · rename_i key' counted counts
    split at hkey
    · rename_i hnone
      cases hkey
      obtain ⟨rfl, hpending⟩ := hnone
      cases o <;> simp only [World.serve, World.respondStore, Option.some.injEq, Prod.mk.injEq,
        reduceCtorEq, false_and] at hserve
      obtain ⟨hcounts, rfl⟩ := hserve
      cases hcounts
      exact MemoryStore.settled_of_counts hpending
    · cases hkey
  · exact hkept key hkey
  · exact hkept key hkey
  · cases hkey
  · exact hkept key hkey

/-! ## The programs -/

/-- The code keeps its duty when it starts with this memory. -/
def Op.Evident (p : Op Unit) (x : Drain) : Prop :=
  ∀ s : Admitting, s.WellFormed → x.Holds s.world →
    (Pool.outside admittingCluster admissionWatch admissionDuty).Spec admissionDuty.contract
      (fun _ _ => True) (fun _ _ => True) p (s, x)

/-- Well-formedness and findings survive what the others do. -/
theorem holds_stable : (Pool.outside admittingCluster admissionWatch admissionDuty).Stable
    fun t => t.1.WellFormed ∧ t.2.Holds t.1.world := by
  refine Pool.stable ?_ ?_
  · intro all s x v s' h _ _ hmove
    exact ⟨h.1.move hmove, h.2.move h.1 hmove⟩
  · intro others s x y c o a s' y' h hmem _ hmay hguard hserve
    obtain ⟨w, hworld, rfl, -⟩ := admittingCluster_serve hserve
    refine ⟨h.1.serve hmay.1 hworld, ?_⟩
    rw [Admitting.served_world]
    exact h.2.serve h.1 hmem hguard hworld

namespace Op.Evident

variable {α : Type}

/-- The rule for a call whose answer tells something of the world. -/
theorem callOf {c : Call} {k : Answer c → Op Unit} (hmay : x.MayCall c) {V : Answer c → Prop}
    (hV : ∀ s : Admitting, s.WellFormed → ∀ o a w, s.world.serve c o = some (a, w) → V a)
    (hk : ∀ a, V a → Op.Evident (k a) (x.see c a)) : Op.Evident (.call c k) x := by
  intro s hwf hholds
  refine ⟨⟨hmay, hholds⟩, fun a t hanswer => ?_⟩
  obtain ⟨others, o, -, hserve⟩ := hanswer
  obtain ⟨s', x'⟩ := t
  obtain ⟨w, hworld, rfl, rfl⟩ := admittingCluster_serve hserve
  have hwf' := hwf.serve hmay hworld
  have hholds' : (x.see c a).Holds (s.served c a w).world := by
    rw [Admitting.served_world]
    exact hholds.see hwf hmay hworld
  refine ⟨hwf', fun t hlater _ => ?_⟩
  have hmemory := Pool.later_memory hlater
  obtain ⟨s'', x''⟩ := t
  cases hmemory
  have hkept := holds_stable.later ⟨hwf', hholds'⟩ hlater
  exact hk a (hV s hwf o a w hworld) s'' hkept.1 hkept.2

/-- The rule for a call. -/
theorem call {c : Call} {k : Answer c → Op Unit} (hmay : x.MayCall c)
    (hk : ∀ a, Op.Evident (k a) (x.see c a)) : Op.Evident (.call c k) x :=
  callOf hmay (V := fun _ => True) (fun _ _ _ _ _ _ => trivial) fun a _ => hk a

/-- The rule for code of a footprint that keeps to some memories. -/
theorem code {F : Call → Prop} {X : Drain → Prop} {p : Op α} {k : α → Op Unit} (hp : p.Calls F)
    (hF : ∀ c y, F c → X y → y.MayCall c ∧ ∀ a, X (y.see c a))
    (hk : ∀ a y, X y → Op.Evident (k a) y) (hx : X x) : Op.Evident (p.bind k) x := by
  induction p generalizing x with
  | pure a => exact hk a x hx
  | fail e => exact fun _ _ _ => trivial
  | call c k' ih =>
    obtain ⟨hmay, hsee⟩ := hF c x hp.1 hx
    exact call hmay fun a => ih a (hp.2 a) (hsee a)

end Op.Evident

/-- A call that neither registers nor deletes may be made with any memory. -/
theorem Drain.MayCall.of_harmless {c : Call} (hregisters : c.registers = none)
    (hdeletes : ¬ c.DeletesObject) : x.MayCall c := by
  refine ⟨fun run h => ?_, fun h => absurd h hdeletes⟩
  rw [hregisters] at h
  cases h

theorem Call.Asks.harmless {c : Call} (h : c.Asks) : c.registers = none ∧ ¬ c.DeletesObject := by
  cases c <;> first | exact ⟨rfl, id⟩ | exact h.elim

/-- Asking changes nothing of what a thread remembers before it has deleted anything. -/
theorem Call.Asks.see {c : Call} (h : c.Asks) (hx : ∀ key, x ≠ .deleting key) (a : Answer c) :
    x.see c a = x := by
  unfold Drain.see
  split
  · exact h.elim
  · exact h.elim
  · exact h.elim
  · exact absurd rfl (hx _)
  · rfl

/-- Taking things down keeps a finishing drain finishing. -/
theorem Call.Teardown.evident {c : Call} {key : String} (h : c.Teardown)
    (hx : x.finishing = some key) :
    x.MayCall c ∧ ∀ a, (x.see c a).finishing = some key := by
  refine ⟨⟨fun run hrun => ?_, fun _ key' hkey => ?_⟩, fun a => ?_⟩
  · cases c <;> first | exact h.elim | cases hrun
  · cases x <;> cases hx <;> exact hkey
  · cases x with
    | settled key' => cases c <;> exact hx
    | deleting key' => cases c <;> first | exact hx | exact h.elim
    | _ => cases hx

namespace Op.Evident

/-- Code that neither registers nor deletes, at the end of a thread. -/
theorem harmless {p : Op Unit} (hp : p.Calls fun c => c.registers = none ∧ ¬ c.DeletesObject) :
    Op.Evident p x := by
  rw [← Prog.bind_pure p]
  exact code (X := fun _ => True) hp (fun c y hc _ => ⟨.of_harmless hc.1 hc.2, fun _ => trivial⟩)
    (fun _ _ _ _ _ _ => trivial) trivial

/-- Code that asks, before anything is deleted. -/
theorem asks {α : Type} {p : Op α} {k : α → Op Unit} (hp : Op.Asks p)
    (hx : ∀ key, x ≠ .deleting key) (hk : ∀ a, Op.Evident (k a) x) : Op.Evident (p.bind k) x := by
  refine code (X := fun y => y = x) hp (fun c y hc hy => ?_) (fun a y hy => ?_) rfl
  · subst hy
    exact ⟨.of_harmless hc.harmless.1 hc.harmless.2, fun a => hc.see hx a⟩
  · subst hy
    exact hk a

/-- Code that takes down, at the end of a drain. -/
theorem teardown {α : Type} {key : String} {p : Op α} {k : α → Op Unit} (hp : Op.Teardown p)
    (hx : x.finishing = some key)
    (hk : ∀ a y, Drain.finishing y = some key → Op.Evident (k a) y) : Op.Evident (p.bind k) x :=
  code hp (fun _ _ hc hy => hc.evident hy) hk hx

/-! ### The drain -/

variable {ctx : Ctx} {bgd : BlueGreenDeployment} {ns key : String}

theorem updateStatusPhase (phase : BGDPhase) :
    Op.Evident (FluidBG.updateStatusPhase bgd ns phase) x := by
  refine harmless ((ask_calls ⟨rfl, id⟩).bind fun latest => ?_)
  cases latest with
  | error e => trivial
  | ok latest =>
    dsimp only
    split
    · exact (ask_calls ⟨rfl, id⟩).bind fun _ => (ask_calls ⟨rfl, id⟩).bind fun _ => trivial
    · trivial

theorem finalizeDraining (terminalCountsHaveFailure : Bool) :
    Op.Evident (FluidBG.finalizeDraining ctx bgd ns terminalCountsHaveFailure) (.settled key) := by
  have hplugins : Op.Asks (Prog.forEach bgd.spec.inceptionPoints (cleanupPlugin ctx bgd ns)) :=
    .forEach fun _ _ => Op.Asks.cleanupPlugin _ _ _ _
  refine asks hplugins (fun _ h => by cases h) fun _ => ?_
  refine teardown (Op.Teardown.cleanupInceptionResources bgd ns) rfl fun _ y hy => ?_
  refine teardown (Op.Teardown.cleanupTestResources bgd ns) hy fun _ y hy => ?_
  exact updateStatusPhase _

/-- **The end of a drain**: what it counts decides whether it goes on to delete. -/
theorem concludeDraining :
    Op.Evident (FluidBG.concludeDraining ctx bgd ns key) (.waiting key) := by
  refine call (.of_harmless rfl id) fun counts => ?_
  cases counts with
  | error e => exact fun _ _ _ => trivial
  | ok counts =>
    by_cases hpending : counts.pending > 0
    · refine harmless (.of_call ⟨rfl, id⟩ fun message => (stateStore_calls _).bind fun _ =>
        .of_call ⟨rfl, id⟩ fun _ => ?_)
      simp only [if_pos hpending]
      trivial
    · have hsettled : (Drain.waiting key).see (.counts key) (.ok counts) = .settled key :=
        if_pos ⟨rfl, hpending⟩
      rw [hsettled]
      refine call (.of_harmless rfl id) fun message => ?_
      cases message with
      | error e => exact fun _ _ _ => trivial
      | ok message =>
        refine call (.of_harmless rfl id) fun _ => ?_
        simp only [if_neg hpending]
        exact call (.of_harmless rfl id) fun _ => finalizeDraining _

theorem reconcileDraining :
    Op.Evident (FluidBG.reconcileDraining ctx bgd ns key) (.waiting key) := by
  have hloop (elapsed : Int) : (Prog.foldEach bgd.spec.inceptionPoints []
      (reconcileDrain ctx bgd ns elapsed)).Calls fun c =>
        c.Asks ∨ ∃ ip, c = .note (.drainStatusFailed bgd ip) :=
    .foldEach fun _ ip _ => (Op.Asks.reconcileDrain_calls _ _ _ _ _ ip).mono fun _ hc =>
      hc.imp id fun h => ⟨ip, h⟩
  refine asks (Op.Asks.drainStart bgd) (fun _ h => by cases h) fun started => ?_
  refine call (.of_harmless rfl id) fun now => call (.of_harmless rfl id) fun _ => ?_
  rw [Prog.pure_bind]
  refine code (X := fun y => y = .waiting key) (hloop _) (fun c y hc hy => ?_) (fun statuses y hy => ?_)
    rfl
  · subst hy
    rcases hc with hc | ⟨ip, rfl⟩
    · exact ⟨.of_harmless hc.harmless.1 hc.harmless.2,
        fun a => hc.see (fun _ h => by cases h) a⟩
    · exact ⟨.of_harmless rfl id, fun _ => rfl⟩
  · subst hy
    refine call (.of_harmless rfl id) fun _ => call (.of_harmless rfl id) fun _ => ?_
    show Op.Evident (if _ then _ else _) _
    split
    · exact fun _ _ _ => trivial
    · exact concludeDraining

/-! ### The handler -/

theorem validatePluginAuth_asks (ctx : Ctx) (headerValue : Option String) :
    Op.Asks (validatePluginAuth ctx headerValue) := by
  unfold validatePluginAuth
  split
  · trivial
  · refine (Op.Asks.validateInceptionAuthToken _ _).result.bind fun r => ?_
    cases r <;> trivial

/-- A registration is of a case of the object that was looked up. -/
theorem storeTestCase {claims : PluginAuthClaims} {authHeader : Option String}
    {req : RegisterTestCaseRequest} {k : Response TestCaseResponse → Op Unit}
    (hseparable : Separable (blueGreenStateKey claims.ns req.blueGreenRef))
    (hk : ∀ r, Op.Evident (k r) .other) :
    Op.Evident (Prog.bind (FluidBG.storeTestCase claims authHeader req) k) .other := by
  have htime : Op.Asks (triggerTime req) := by
    unfold triggerTime
    split
    · trivial
    · exact ask_calls trivial
  unfold FluidBG.storeTestCase
  simp only [Prog.bind_def, Prog.bind_assoc]
  refine asks htime (fun _ h => by cases h) fun triggeredAt => ?_
  cases timeoutDuration (req.timeoutSeconds.getD 60) with
  | error e => exact fun _ _ _ => trivial
  | ok timeout =>
    refine call ⟨fun run hrun => ?_, fun h => h.elim⟩ fun a => ?_
    · cases hrun
      exact ⟨⟨rfl, rfl, hseparable⟩, rfl⟩
    · cases a <;> exact hk _

/-- The object a request is checked against has a name without the separator. -/
theorem validateRegistrationBgd {claims : PluginAuthClaims} {req : RegisterTestCaseRequest}
    {k : Except (Nat × String) Unit → Op Unit} (herror : ∀ e, Op.Evident (k (.error e)) .other)
    (hk : Separable (blueGreenStateKey claims.ns req.blueGreenRef) → Op.Evident (k (.ok ())) .other) :
    Op.Evident (Prog.bind (FluidBG.validateRegistrationBgd claims req) k) .other := by
  unfold FluidBG.validateRegistrationBgd
  split
  · exact herror _
  · refine callOf (V := fun a => ∀ b, a = .ok b →
      Separable (blueGreenStateKey claims.ns req.blueGreenRef)) (.of_harmless rfl id) ?_ ?_
    · intro s hwf o a w hserve b hb
      obtain ⟨-, hread⟩ := World.serve_getBgd hserve
      obtain ⟨hbgd, hns, hname⟩ := hread b hb
      have hnamed := hwf.named b hbgd
      unfold BlueGreenDeployment.stateKey at hnamed
      rwa [hns, hname] at hnamed
    · intro a hseparable
      show Op.Evident _ .other
      cases a with
      | error e => cases e <;> exact herror _
      | ok b =>
        simp only [Prog.pure_bind]
        split
        · exact herror _
        · split
          · exact herror _
          · exact hk (hseparable b rfl)

theorem registerTestCase {authHeader : Option String} {req : RegisterTestCaseRequest}
    {k : Response TestCaseResponse → Op Unit} (hk : ∀ r, Op.Evident (k r) .other) :
    Op.Evident (Prog.bind (FluidBG.registerTestCase ctx authHeader req) k) .other := by
  unfold FluidBG.registerTestCase
  simp only [Prog.bind_def, Prog.bind_assoc]
  refine asks (validatePluginAuth_asks _ _) (fun _ h => by cases h) fun claims => ?_
  rcases claims with e | _ | claims
  · exact hk _
  · exact hk _
  · dsimp only
    split
    · rw [Prog.bind_assoc]
      refine validateRegistrationBgd (fun e => hk _) fun hseparable => ?_
      exact storeTestCase hseparable hk
    · exact hk _

end Op.Evident

theorem admissionJob_evident (job : AdmissionJob) :
    Op.Evident job.thread.prog job.thread.memory := by
  cases job with
  | drain ctx bgd => exact Op.Evident.reconcileDraining
  | register ctx authHeader req => exact Op.Evident.registerTestCase fun _ _ _ _ => trivial
  | other work h =>
    show Op.Evident work .other
    rw [← Prog.bind_pure work]
    refine Op.Evident.code (X := fun y => y.key = none) h (fun c y hc hy => ⟨⟨?_, ?_⟩, fun a => ?_⟩)
      (fun _ _ _ _ _ _ => trivial) rfl
    · intro run hrun
      rw [hc] at hrun
      cases hrun
    · intro _ key hkey
      rw [hy] at hkey
      cases hkey
    · rw [Drain.key_see, hy]

end Admission

/-! ## Runs -/

/-- Drains and handlers that race. -/
abbrev AdmissionPool := Pool Call Answer ReconcileError Drain Admitting

/-- Where a drain is about to delete an object, no case of its rollout is pending, and those that
were admitted are stored and finalized. -/
def AdmissionPool.KeepsEvidence (s : AdmissionPool) : Prop :=
  ∀ t ∈ s.threads, ∀ key, t.memory.key = some key → ∀ c k, t.prog = .call c k → c.DeletesObject →
    s.world.world.store.Settled key ∧ ∀ testId, (key, testId) ∈ s.world.admitted →
      ∃ run, s.world.world.store.get key testId = some run ∧ run.isFinalized = true

/-- **No admitted case loses its evidence**, in every run in which no case is stored anew between
the count that ends the drain of its rollout and the drain's last deletion. -/
theorem admitted_cases_keep_evidence {init s : AdmissionPool} (hidle : init.threads = [])
    (hinit : init.world.WellFormed)
    (r : Pool.Run admittingCluster AdmissionJob.thread admissionWatch init s) :
    s.KeepsEvidence := by
  obtain ⟨w, threads⟩ := init
  cases hidle
  have hgood : Pool.Good admittingCluster admissionWatch admissionDuty s := by
    refine Pool.Run.sound ?_ (fun job w hw => ?_) (.of_idle hinit) r
    · intro all w v w' hw _ hmove
      exact hw.move hmove
    · refine admissionJob_evident job w hw fun key hkey => ?_
      cases job <;> cases hkey
  intro t ht key hkey c k hprog hdeletes
  obtain ⟨hmay, hholds⟩ := hgood.may ht hprog
  have hsettled := hholds key (hmay.deletes hdeletes key hkey)
  refine ⟨hsettled, fun testId hadmitted => ?_⟩
  obtain ⟨hseparable, hstored⟩ := hgood.1.admitted _ hadmitted
  obtain ⟨run, hrun⟩ := Option.isSome_iff_exists.mp hstored
  have hmem := MemoryStore.mem_of_get hrun
  have hkeys := (recordKey_inj (hgood.1.store.separable run hmem) hseparable).mp
    (MemoryStore.key_of_get hrun)
  exact ⟨run, hrun, hsettled run hmem hkeys.1⟩

/-! ## A case that is admitted at the end -/

/-- The sample's object with a test, in its drain. -/
def Sample.draining : BlueGreenDeployment :=
  { bgd .draining with spec := { spec with
      test := some ⟨"verifier", deploymentSpec, ⟨.empty, []⟩, none, none⟩ } }

/-- No case has been registered, and nothing goes on. -/
def Sample.admissionStart : AdmissionPool :=
  ⟨⟨{ world .draining [] with bgd := some draining, resources := [signingSecret] }, []⟩, []⟩

/-- An inceptor registers a case of the sample. -/
def Sample.registers : AdmissionJob :=
  .register authCtx (some "Bearer t1") ⟨"case-1", "shop", "orders", some 0, none, none⟩

/-- `n` calls of the thread at `i` that are served. -/
def Sample.servedAt (i n : Nat) : List (Pool.Event AdmissionJob Outcome Move) :=
  List.replicate n (.answer i .ok)

/-- The next call of the first thread, when it deletes: the rollout it is a drain of, the cases that
were admitted, and those that are pending. -/
def Sample.deletes (s : AdmissionPool) :
    Option (Option String × List (String × String) × List (String × String)) :=
  match s.threads with
  | ⟨.call (.deleteDeployment _ _) _, x⟩ :: _ => some (x.key, s.world.admitted,
      s.world.world.store.listPending.map fun run => (run.blueGreenRef, run.testId))
  | _ => none

theorem Sample.admissionStart_wellFormed : admissionStart.world.WellFormed := by
  refine ⟨.empty, fun b hb => ?_, fun _ h => by cases h⟩
  cases hb
  decide +kernel

/-- The drain counts; a case is registered; the drain goes on to its first deletion. -/
def Sample.admittedLate : List (Pool.Event AdmissionJob Outcome Move) :=
  .start (.drain ctx draining) :: servedAt 0 6 ++ .start registers :: servedAt 1 3 ++ servedAt 0 8

def admittedCaseLosesVerifierRun :
    PLift ((Pool.run Watch.top admittingCluster AdmissionJob.thread Sample.admissionStart
      Sample.admittedLate).map Sample.deletes =
      some (some (some "default/shop", [("default/shop", "case-1")],
        [("default/shop", "case-1")]))) :=
  ⟨by decide +kernel⟩

/-- **The verifier of an admitted case is deleted while the case is pending.** -/
theorem admitted_case_loses_verifier :
    ¬ ∀ init s : AdmissionPool, init.threads = [] → init.world.WellFormed →
      Pool.Run admittingCluster AdmissionJob.thread Watch.top init s → s.KeepsEvidence := by
  intro h
  have hrun := admittedCaseLosesVerifierRun.down
  obtain ⟨s, r, hs⟩ := Pool.Run.exists_of_run hrun
  have hkeeps := h _ s rfl Sample.admissionStart_wellFormed r
  unfold Sample.deletes at hs
  split at hs
  · rename_i ns name k x threads hthreads
    simp only [Option.some.injEq, Prod.mk.injEq] at hs
    obtain ⟨hkey, -, hpending⟩ := hs
    have hsettled := (hkeeps ⟨.call (.deleteDeployment ns name) k, x⟩
      (by rw [hthreads]; exact List.mem_cons_self) _ hkey _ k rfl trivial).1
    have hlisted : ("default/shop", "case-1") ∈ s.world.world.store.listPending.map
        fun run => (run.blueGreenRef, run.testId) := by
      rw [hpending]
      exact List.mem_cons_self
    obtain ⟨run, hrun, hcase⟩ := List.mem_map.mp hlisted
    obtain ⟨hmem, hopen⟩ := List.mem_filter.mp hrun
    have hfinal := hsettled run hmem (congrArg Prod.fst hcase)
    rw [TestCaseRecord.isFinalized_eq, hopen] at hfinal
    cases hfinal
  · cases hs

/-- A case is registered and judged, and then the drain goes on to its first deletion. -/
def Sample.admittedInTime : List (Pool.Event AdmissionJob Outcome Move) :=
  .start registers :: servedAt 0 3 ++
    [.stop 0, .move (.setVerdict "default/shop" "case-1" true none), .start (.drain ctx draining)] ++
      servedAt 0 14

def admittedCasesKeepEvidenceJudgedRun :
    PLift ((Pool.run admissionWatch admittingCluster AdmissionJob.thread Sample.admissionStart
      Sample.admittedInTime).map Sample.deletes =
      some (some (some "default/shop", [("default/shop", "case-1")], []))) :=
  ⟨by decide +kernel⟩

/-- The case that was admitted in time has its verdict when its verifier is deleted. -/
theorem admitted_cases_keep_evidence_judged : ∃ s : AdmissionPool,
    Sample.deletes s = some (some "default/shop", [("default/shop", "case-1")], []) ∧
      s.KeepsEvidence := by
  have hrun := admittedCasesKeepEvidenceJudgedRun.down
  obtain ⟨s, r, hs⟩ := Pool.Run.exists_of_run hrun
  exact ⟨s, hs, admitted_cases_keep_evidence rfl Sample.admissionStart_wellFormed r⟩

end FluidBG
