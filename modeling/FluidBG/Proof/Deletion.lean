import FluidBG.HttpApi
import FluidBG.Sample
import FluidBG.Lib.Pool
import FluidBG.Proof.Status
import FluidBG.Proof.Tenancy
/-!
# Deletion is final

An attempt that has read the object before its deletion goes on with its copy and may create objects
to its end; an attempt that finds the object deleted only takes down. The two use no common lock. The
cleanup is final when it finds none of the former still under way: nobody who reads the object later
reads it undeleted, so nothing is put in place any more from the first step of the cleanup on.
-/

set_option autoImplicit false

namespace FluidBG

open Lib

/-! ## Attempts and cleanups -/

/-- The object is deleted: it is gone, or only waits for its finalizers. -/
def World.Deleting (w : World) : Prop :=
  ∀ b ∈ w.bgd, b.metadata.deletionTimestamp.isSome = true

instance (w : World) : Decidable w.Deleting :=
  inferInstanceAs (Decidable (∀ b ∈ w.bgd, _))

namespace Call

/-- The call creates or changes an object or a record of the rollout. -/
def Mutates : Call → Prop
  | .createDeployment _ _ => True
  | .applyDeployment _ _ _ => True
  | .replaceDeployment _ _ _ => True
  | .applyResource _ _ _ _ => True
  | .register _ => True
  | _ => False

/-- The call deletes an object or the records of a rollout, or takes the finalizer away. -/
def CleansUp : Call → Prop
  | .deleteDeployment _ _ => True
  | .deleteResource _ _ _ => True
  | .cleanupBlueGreen _ => True
  | .patchFinalizers _ _ finalizers => bgdFinalizer ∉ finalizers
  | _ => False

instance (c : Call) : Decidable c.CleansUp := by
  unfold CleansUp
  split
  · exact .isTrue trivial
  · exact .isTrue trivial
  · exact .isTrue trivial
  · infer_instance
  · exact .isFalse id

end Call

/-- What a thread has found: it has not read the object yet, has read it before its deletion, has
found it deleted, or has no business with it. -/
inductive Handling where
  | reader
  | live
  | cleaner
  | bystander
  deriving DecidableEq, Repr

/-- What a thread has found after a call; the first answer decides. -/
def Handling.see (x : Handling) (c : Call) (a : Answer c) : Handling :=
  match x, c, a with
  | .reader, .getBgd _ _, .ok b => if b.metadata.deletionTimestamp.isSome then .cleaner else .live
  | x, _, _ => x

/-- The cluster, and whether the cleanup of the deleted object has begun. -/
structure Tended where
  world : World
  cleaning : Bool

/-- The call is carried out. -/
def Outcome.CarriedOut : Outcome → Prop
  | .refused _ => False
  | _ => True

instance : (o : Outcome) → Decidable o.CarriedOut
  | .refused _ => .isFalse id
  | .ok | .lost _ | .manager _ | .inceptor _ | .drainStatus _ | .http _ | .verifier _ =>
    .isTrue trivial

/-- A step of a cleanup: who has found the object deleted takes something down. -/
def CleanupStep (x : Handling) (w : World) (c : Call) (o : Outcome) : Prop :=
  x = .cleaner ∧ c.CleansUp ∧ w.Deleting ∧ o.CarriedOut

instance (x : Handling) (w : World) (c : Call) (o : Outcome) : Decidable (CleanupStep x w c o) :=
  inferInstanceAs (Decidable (_ ∧ _ ∧ _ ∧ _))

/-- The cluster shared by reconciles, handlers and everything else. Cases are registered by requests
only. -/
def tendedCluster : Shared Call Answer Handling Tended Outcome Move where
  serve x s c o := (s.world.serve c o).map fun aw =>
    (aw.1, ⟨aw.2, s.cleaning || decide (CleanupStep x s.world c o)⟩, x.see c aw.1)
  move s v := match v with
    | .register _ => none
    | v => (s.world.move v).map fun w => ⟨w, s.cleaning⟩

/-- A reconcile, which the controller calls with the object of its cache, a request to register a
case, and other work that neither creates nor changes anything. A reconcile of an object that the
cache has as deleted cleans up without looking again. -/
inductive TendingJob where
  | reconcile (ctx : Ctx) (cached : BlueGreenDeployment)
  | register (ctx : Ctx) (authHeader : Option String) (req : RegisterTestCaseRequest)
  | other (work : Op Unit) (h : work.Calls fun c => ¬ c.Mutates)

def TendingJob.thread : TendingJob → Thread Call Answer ReconcileError Handling
  | .reconcile ctx cached => ⟨FluidBG.reconcile ctx cached,
      if cached.metadata.deletionTimestamp.isSome then .cleaner else .reader⟩
  | .register ctx authHeader req => ⟨do let _ ← registerTestCase ctx authHeader req, .reader⟩
  | .other work _ => ⟨work, .bystander⟩

/-- **A cleanup takes its steps while nobody is under way who has read the object before its
deletion.** -/
def cleanupWatch : Watch Call Handling Tended Outcome Move where
  call others x s c o := CleanupStep x s.world c o → ∀ y ∈ others, y ≠ .live
  move _ _ _ := True

instance (others : List Handling) (x : Handling) (s : Tended) (c : Call) (o : Outcome) :
    Decidable (cleanupWatch.call others x s c o) :=
  inferInstanceAs (Decidable (_ → _))

instance (all : List Handling) (s : Tended) (v : Move) : Decidable (cleanupWatch.move all s v) :=
  .isTrue trivial

/-! ## What the threads owe -/

/-- Once the cleanup has begun the object is deleted. -/
def Tended.WellFormed (s : Tended) : Prop := s.cleaning = true → s.world.Deleting

/-- Once the cleanup has begun, this thread is not one that has read the object before. -/
def Tended.Done (s : Tended) (x : Handling) : Prop := s.cleaning = true → x ≠ .live

/-- Only who has read the object before its deletion creates or changes anything, and nobody does
once the cleanup has begun. -/
abbrev deletionDuty : Duty Call Handling Tended :=
  ⟨Tended.WellFormed, fun x s c => (c.Mutates → x = .live) ∧ s.Done x⟩

section Deletion

variable {s s' : Tended} {x x' : Handling} {w w' : World}

theorem World.Deleting.serve {c : Call} {o : Outcome} {a : Answer c} (h : w.Deleting)
    (hserve : w.serve c o = some (a, w')) : w'.Deleting := by
  intro b' hb'
  obtain ⟨b, hb, -, -, -, hdeletion⟩ := World.serve_bgd hserve hb'
  rw [hdeletion]
  exact h b hb

theorem World.Deleting.move {v : Move} (h : w.Deleting) (hmove : w.move v = some w') :
    w'.Deleting := by
  have hsame (heq : w'.bgd = w.bgd) : w'.Deleting := fun b' hb' => h b' (heq ▸ hb')
  cases v with
  | editSpec spec =>
    obtain ⟨b, hb, rfl⟩ := Option.map_eq_some_iff.mp hmove
    intro b' hb'
    cases hb'
    exact h b hb
  | delete =>
    obtain ⟨b, hb, rfl⟩ := Option.map_eq_some_iff.mp hmove
    dsimp only
    split
    · intro b' hb'
      cases hb'
    · intro b' hb'
      cases hb'
      rfl
  | setVerdict key testId passed failureMessage =>
    simp only [World.move] at hmove
    split at hmove <;> cases hmove
    exact hsame rfl
  | markTimedOut key testId =>
    simp only [World.move] at hmove
    split at hmove <;> cases hmove
    exact hsame rfl
  | _ => cases hmove; exact hsame rfl

theorem tendedCluster_serve {c : Call} {o : Outcome} {a : Answer c}
    (h : tendedCluster.serve x s c o = some (a, s', x')) :
    s.world.serve c o = some (a, s'.world) ∧
      (s'.cleaning = true ↔ s.cleaning = true ∨ CleanupStep x s.world c o) ∧ x' = x.see c a := by
  obtain ⟨aw, hworld, heq⟩ := Option.map_eq_some_iff.mp h
  simp only [Prod.mk.injEq] at heq
  obtain ⟨rfl, rfl, rfl⟩ := heq
  exact ⟨hworld, by simp, rfl⟩

theorem tendedCluster_move {v : Move} (h : tendedCluster.move s v = some s') :
    s.world.move v = some s'.world ∧ s'.cleaning = s.cleaning := by
  have hmap (hmove : (s.world.move v).map (⟨·, s.cleaning⟩) = some s') :
      s.world.move v = some s'.world ∧ s'.cleaning = s.cleaning := by
    obtain ⟨w, hworld, rfl⟩ := Option.map_eq_some_iff.mp hmove
    exact ⟨hworld, rfl⟩
  cases v with
  | register run => cases h
  | _ => exact hmap h

theorem Tended.WellFormed.serve {c : Call} {o : Outcome} {a : Answer c} (h : s.WellFormed)
    (hserve : tendedCluster.serve x s c o = some (a, s', x')) : s'.WellFormed := by
  obtain ⟨hworld, hcleaning, -⟩ := tendedCluster_serve hserve
  intro hbegun
  rcases hcleaning.mp hbegun with hbefore | hstep
  · exact (h hbefore).serve hworld
  · exact hstep.2.2.1.serve hworld

theorem Tended.WellFormed.move {v : Move} (h : s.WellFormed)
    (hmove : tendedCluster.move s v = some s') : s'.WellFormed := by
  obtain ⟨hworld, hcleaning⟩ := tendedCluster_move hmove
  intro hbegun
  rw [hcleaning] at hbegun
  exact (h hbegun).move hworld

/-- **Whatever the others do**, a cleanup that begins finds this thread not among those that have
read the object before. -/
theorem done_stable : (Pool.outside tendedCluster cleanupWatch deletionDuty).Stable
    fun t => t.1.Done t.2 := by
  refine Pool.stable ?_ ?_
  · intro all s x v s' hdone _ _ hmove hbegun
    obtain ⟨-, hcleaning⟩ := tendedCluster_move hmove
    rw [hcleaning] at hbegun
    exact hdone hbegun
  · intro others s x y c o a s' y' hdone hmem _ _ hguard hserve hbegun
    obtain ⟨-, hcleaning, -⟩ := tendedCluster_serve hserve
    rcases hcleaning.mp hbegun with hbefore | hstep
    · exact hdone hbefore
    · exact hguard hstep x hmem

/-- Who reads the object after the cleanup has begun finds it deleted. -/
theorem Tended.Done.see {c : Call} {o : Outcome} {a : Answer c} (h : s.Done x) (hwf : s.WellFormed)
    (hserve : tendedCluster.serve x s c o = some (a, s', x')) : s'.Done x' := by
  obtain ⟨hworld, hcleaning, rfl⟩ := tendedCluster_serve hserve
  intro hbegun
  unfold Handling.see
  split
  · rename_i ns name b
    obtain ⟨-, hread⟩ := World.serve_getBgd hworld
    have hbefore : s.cleaning = true := by
      rcases hcleaning.mp hbegun with hbefore | hstep
      · exact hbefore
      · cases hstep.1
    have hdeleted := hwf hbefore b (hread b rfl).1
    rw [if_pos hdeleted]
    exact fun h => by cases h
  · rcases hcleaning.mp hbegun with hbefore | hstep
    · exact h hbefore
    · rw [hstep.1]
      exact fun h => by cases h

/-! ## The programs -/

/-- The code keeps its duty when it starts with this memory. -/
def Op.Final (p : Op Unit) (x : Handling) : Prop :=
  ∀ s : Tended, s.WellFormed → s.Done x →
    (Pool.outside tendedCluster cleanupWatch deletionDuty).Spec deletionDuty.contract
      (fun _ _ => True) (fun _ _ => True) p (s, x)

namespace Op.Final

/-- The rule for a call. -/
theorem call {c : Call} {k : Answer c → Op Unit} (hmay : c.Mutates → x = .live)
    (hk : ∀ a, Op.Final (k a) (x.see c a)) : Op.Final (.call c k) x := by
  intro s hwf hdone
  refine ⟨⟨hmay, hdone⟩, fun a t hanswer => ?_⟩
  obtain ⟨others, o, -, hserve⟩ := hanswer
  obtain ⟨s', x'⟩ := t
  have hwf' := hwf.serve hserve
  have hdone' := hdone.see hwf hserve
  obtain ⟨-, -, rfl⟩ := tendedCluster_serve hserve
  refine ⟨hwf', fun t hlater hi => ?_⟩
  have hmemory := Pool.later_memory hlater
  obtain ⟨s'', x''⟩ := t
  cases hmemory
  exact hk a s'' hi (done_stable.later hdone' hlater)

/-- Who has read the object before its deletion may do anything. -/
theorem live (p : Op Unit) : Op.Final p .live := by
  induction p with
  | pure a => exact fun _ _ _ => trivial
  | fail e => exact fun _ _ _ => trivial
  | call c k ih => exact call (fun _ => rfl) fun a => ih a

/-- Code that neither creates nor changes anything. -/
theorem of_calls {p : Op Unit} (hp : p.Calls fun c => ¬ c.Mutates) : Op.Final p x := by
  induction p generalizing x with
  | pure a => exact fun _ _ _ => trivial
  | fail e => exact fun _ _ _ => trivial
  | call c k ih => exact call (fun h => absurd h hp.1) fun a => ih a (hp.2 a)

/-- The object is read, and what is found decides what may be done. -/
theorem read {ns name : String} {k : Except KubeError BlueGreenDeployment → Op Unit}
    (herror : ∀ e, (k (.error e)).Calls fun c => ¬ c.Mutates)
    (hdeleted : ∀ b, b.metadata.deletionTimestamp.isSome = true →
      (k (.ok b)).Calls fun c => ¬ c.Mutates) :
    Op.Final (.call (.getBgd ns name) k) .reader := by
  refine call (fun h => h.elim) fun a => ?_
  cases a with
  | error e => exact of_calls (herror e)
  | ok b =>
    by_cases hdeletion : b.metadata.deletionTimestamp.isSome = true
    · exact of_calls (hdeleted b hdeletion)
    · have hlive : Handling.see .reader (.getBgd ns name) (.ok b) = .live := if_neg hdeletion
      rw [hlive]
      exact live _

end Op.Final

/-! ### Code that puts nothing in place -/

theorem Call.Asks.mutates {c : Call} (h : c.Asks) : ¬ c.Mutates := by
  cases c <;> first | exact id | exact h.elim

theorem Call.Teardown.mutates {c : Call} (h : c.Teardown) : ¬ c.Mutates := by
  cases c <;> first | exact id | exact h.elim

/-- The code neither creates nor changes anything. -/
abbrev Op.Sparing {α : Type} (p : Op α) : Prop := p.Calls fun c => ¬ c.Mutates

namespace Op.Sparing

variable {ctx : Ctx} {bgd : BlueGreenDeployment} {ns : String}

theorem cleanupRollout (stateKey : String) : Op.Sparing (FluidBG.cleanupRollout bgd ns stateKey) :=
  ((Op.Teardown.cleanupInceptionResources _ _).mono fun _ => Call.Teardown.mutates).bind fun _ =>
    ((Op.Teardown.cleanupTestResources _ _).mono fun _ => Call.Teardown.mutates).bind fun _ =>
      ((Op.Teardown.deleteResource _ _ _).mono fun _ => Call.Teardown.mutates).bind fun _ =>
        (ask_calls id).bind fun _ => (stateStore_calls _).bind fun _ => trivial

theorem cleanupDeletedBgd : Op.Sparing (FluidBG.cleanupDeletedBgd bgd) :=
  (cleanupRollout _).bind fun _ => askKube_calls id fun _ => trivial

theorem publishReconcileErrorStatus (error : ReconcileError) :
    Op.Sparing (FluidBG.publishReconcileErrorStatus bgd ns error) := by
  unfold FluidBG.publishReconcileErrorStatus
  split
  · exact (ask_calls id).bind fun _ => (ask_calls id).bind fun _ => trivial
  · refine (ask_calls id).bind fun latest => ?_
    cases latest with
    | error e => trivial
    | ok latest => exact (ask_calls id).bind fun _ => (ask_calls id).bind fun _ => trivial

theorem publishingErrors {work : Op Unit} (h : Op.Sparing work) :
    Op.Sparing (FluidBG.publishingErrors bgd work) := by
  refine h.result.bind fun r => ?_
  cases r with
  | ok u => trivial
  | error e =>
    exact (ask_calls id).bind fun _ => (publishReconcileErrorStatus e).bind fun _ => trivial

/-- A reconcile of an object that has been deleted only cleans up. -/
theorem reconcileLocked (h : bgd.metadata.deletionTimestamp.isSome = true) :
    Op.Sparing (FluidBG.reconcileLocked ctx bgd) := by
  refine (ask_calls id).bind fun _ => ?_
  dsimp only
  rw [if_pos h]
  exact cleanupDeletedBgd

theorem withLatest {work : BlueGreenDeployment → Op Unit} (h : ∀ b, Op.Sparing (work b)) :
    Op.Sparing (FluidBG.withLatest bgd work) := by
  refine (ask_calls id).bind fun latest => ?_
  cases latest with
  | ok b => exact h b
  | error e => cases e <;> trivial

end Op.Sparing

namespace Op.Final

variable {ctx : Ctx}

/-- A reconcile of an object that the cache has as deleted. -/
theorem reconcile_deleted {cached : BlueGreenDeployment}
    (h : cached.metadata.deletionTimestamp.isSome = true) :
    Op.Final (FluidBG.reconcile ctx cached) x := by
  unfold FluidBG.reconcile
  rw [if_pos h]
  refine of_calls ((ask_calls id).bind fun _ => ?_)
  exact Op.Sparing.publishingErrors (Op.Sparing.withLatest fun b => Op.Sparing.cleanupDeletedBgd)

/-- Any other reconcile reads the object first. -/
theorem reconcile_live {cached : BlueGreenDeployment}
    (h : ¬ cached.metadata.deletionTimestamp.isSome = true) :
    Op.Final (FluidBG.reconcile ctx cached) .reader := by
  unfold FluidBG.reconcile
  rw [if_neg h]
  refine call (fun h => h.elim) fun _ => read (fun e => ?_) fun b hdeleted => ?_
  · have hpublish (work : Op Unit) (hwork : Op.Sparing work) :
        Op.Sparing (publishingErrors cached work) := Op.Sparing.publishingErrors hwork
    cases e with
    | notFound text => exact hpublish (.pure ()) trivial
    | _ => exact hpublish (.fail _) trivial
  · exact Op.Sparing.publishingErrors (Op.Sparing.reconcileLocked hdeleted)

/-- Checking a token reads a Secret and nothing else. -/
theorem validatePluginAuth_calls (ctx : Ctx) (headerValue : Option String) :
    (validatePluginAuth ctx headerValue).Calls fun c =>
      ∃ kind ns name, c = .getResource kind ns name := by
  have hkey : (readOperatorSigningKey ctx.auth).Calls fun c =>
      ∃ kind ns name, c = .getResource kind ns name := by
    refine askKube_calls ⟨_, _, _, rfl⟩ fun secret => ?_
    split
    · split <;> trivial
    · trivial
  unfold validatePluginAuth
  split
  · trivial
  · refine (Prog.Calls.result (hkey.bind fun key => ?_)).bind fun r => ?_
    · split <;> trivial
    · cases r <;> trivial

/-- The rule for code of a footprint that leaves the memory alone. -/
theorem code {α : Type} {F : Call → Prop} {p : Op α} {k : α → Op Unit} (hp : p.Calls F)
    (hF : ∀ c, F c → ¬ c.Mutates ∧ ∀ a, x.see c a = x) (hk : ∀ a, Op.Final (k a) x) :
    Op.Final (p.bind k) x := by
  induction p with
  | pure a => exact hk a
  | fail e => exact fun _ _ _ => trivial
  | call c k' ih =>
    refine call (fun h => absurd h (hF c hp.1).1) fun a => ?_
    rw [(hF c hp.1).2 a]
    exact ih a (hp.2 a)

/-- A registration is of an object that was read before its deletion. -/
theorem registerTestCase {authHeader : Option String} {req : RegisterTestCaseRequest} :
    Op.Final (do let _ ← FluidBG.registerTestCase ctx authHeader req) .reader := by
  unfold FluidBG.registerTestCase
  simp only [Prog.bind_def, Prog.bind_assoc]
  refine code (validatePluginAuth_calls _ _) (fun c hc => ?_) fun claims => ?_
  · obtain ⟨kind, ns, name, rfl⟩ := hc
    exact ⟨id, fun _ => rfl⟩
  rcases claims with e | _ | claims
  · exact fun _ _ _ => trivial
  · exact fun _ _ _ => trivial
  · dsimp only
    split
    · unfold validateRegistrationBgd
      split
      · exact fun _ _ _ => trivial
      · refine read (fun e => ?_) fun b hdeleted => ?_
        · cases e <;> trivial
        · have hclosed : registrationClosed b = true := by
            unfold registrationClosed
            rw [hdeleted]
            rfl
          simp only [Prog.pure_bind, hclosed, if_true]
          split <;> trivial
    · exact fun _ _ _ => trivial

end Op.Final

theorem tendingJob_final (job : TendingJob) : Op.Final job.thread.prog job.thread.memory := by
  cases job with
  | reconcile ctx cached =>
    show Op.Final (reconcile ctx cached) (if _ then _ else _)
    split
    · rename_i h
      exact .reconcile_deleted h
    · rename_i h
      exact .reconcile_live h
  | register ctx authHeader req => exact .registerTestCase
  | other work h => exact .of_calls h

end Deletion

/-! ## Runs -/

/-- Reconciles, handlers and other work of several replicas. -/
abbrev TendingPool := Pool Call Answer ReconcileError Handling Tended

/-- Once the cleanup of the deleted object has begun, no thread is about to create or change
anything. -/
def TendingPool.Final (s : TendingPool) : Prop :=
  s.world.cleaning = true → ∀ t ∈ s.threads, ∀ c k, t.prog = .call c k → ¬ c.Mutates

/-- **Deletion is final**: from the first step of the cleanup on, through the removal of the
finalizer and ever after, no step creates or changes an object or a record of the rollout, in every
run in which a cleanup takes its steps while nobody is under way who has read the object before its
deletion. -/
theorem deletion_is_final {init s : TendingPool} (hidle : init.threads = [])
    (hinit : init.world.cleaning = false)
    (r : Pool.Run tendedCluster TendingJob.thread cleanupWatch init s) : s.Final := by
  obtain ⟨w, threads⟩ := init
  cases hidle
  have hwf : w.WellFormed := fun h => absurd (hinit.symm.trans h) (by simp)
  have hgood : Pool.Good tendedCluster cleanupWatch deletionDuty s := by
    refine Pool.Run.sound ?_ (fun job w hw => ?_) (.of_idle hwf) r
    · intro all w v w' hw _ hmove
      exact hw.move hmove
    · refine tendingJob_final job w hw fun _ => ?_
      cases job with
      | reconcile ctx cached =>
        show (if _ then Handling.cleaner else .reader) ≠ .live
        split <;> simp
      | _ => simp [TendingJob.thread]
  intro hbegun t ht c k hprog hmutates
  obtain ⟨hlive, hdone⟩ := hgood.may ht hprog
  exact hdone hbegun (hlive hmutates)

/-! ## Two replicas and a deletion -/

/-- A rollout of the sample is about to begin, beside the old green alone. -/
def Sample.tendingStart : TendingPool :=
  ⟨⟨{ world .pending [] with deployments := [deployment "shop-old" "true"] }, false⟩, []⟩

/-- The object as a controller's cache has it after its deletion. -/
def Sample.deletedBgd : BlueGreenDeployment :=
  let b := bgd .pending
  { b with metadata := { b.metadata with deletionTimestamp := some 1000000000 } }

/-- Whether the object is gone, whether its cleanup has begun, and the Deployment the first thread
is about to create. -/
def Sample.tended (s : TendingPool) : Bool × Bool × Option String :=
  (s.world.world.bgd.isNone, s.world.cleaning, match s.threads with
    | ⟨.call (.createDeployment _ d) _, _⟩ :: _ => some d.metadata.name
    | _ => none)

/-- A rollout begins, up to the creation of its candidate. -/
def Sample.begins : List (Pool.Event TendingJob Outcome Move) :=
  .start (.reconcile ctx (bgd .pending)) :: List.replicate 8 (.answer 0 .ok)

/-- The object is deleted, and the thread at `i` cleans it up. -/
def Sample.cleansUp (i : Nat) : List (Pool.Event TendingJob Outcome Move) :=
  .move .delete :: .start (.reconcile ctx deletedBgd) :: List.replicate 10 (.answer i .ok)

def candidateCreatedAfterCleanupRun :
    PLift ((Pool.run Watch.top tendedCluster TendingJob.thread Sample.tendingStart
      (Sample.begins ++ Sample.cleansUp 1)).map Sample.tended =
      some (true, true, some "shop-x7k2q9")) :=
  ⟨by decide +kernel⟩

/-- **The candidate of a deleted object is created** after its finalizer was removed. -/
theorem candidate_created_after_cleanup :
    ¬ ∀ init s : TendingPool, init.threads = [] → init.world.cleaning = false →
      Pool.Run tendedCluster TendingJob.thread Watch.top init s → s.Final := by
  intro h
  have hrun := candidateCreatedAfterCleanupRun.down
  obtain ⟨s, r, hs⟩ := Pool.Run.exists_of_run hrun
  have hfinal := h _ s rfl rfl r
  simp only [Sample.tended, Prod.mk.injEq] at hs
  obtain ⟨-, hcleaning, hcreates⟩ := hs
  split at hcreates
  · rename_i ns d k x threads hthreads
    refine hfinal hcleaning ⟨.call (.createDeployment ns d) k, x⟩ ?_ _ k rfl trivial
    rw [hthreads]
    exact List.mem_cons_self
  · cases hcreates

def deletionIsFinalCutOffRun :
    PLift ((Pool.run cleanupWatch tendedCluster TendingJob.thread Sample.tendingStart
      (Sample.begins ++ .stop 0 :: Sample.cleansUp 0)).map Sample.tended =
      some (true, true, none)) :=
  ⟨by decide +kernel⟩

/-- The object of an attempt that was cut off before is cleaned up for good. -/
theorem deletion_is_final_cut_off : ∃ s : TendingPool,
    Sample.tended s = (true, true, none) ∧ s.Final := by
  have hrun := deletionIsFinalCutOffRun.down
  obtain ⟨s, r, hs⟩ := Pool.Run.exists_of_run hrun
  exact ⟨s, hs, deletion_is_final rfl rfl r⟩

end FluidBG
