import FluidBG.Proof.Admission
import FluidBG.Tracker
/-!
# Decisions over a live store

Observing reconciles decide on the counts of a store that requests and the tracker keep changing.
What can be said of every decision of a run follows from what is known of every record: a fact about
the records that registrations bring along and nothing else can spoil gives a fact about the counts,
and so about the decisions made on them. The cluster below notes each decision with its time and
with the time the observation and the step had begun.
-/

set_option autoImplicit false

namespace FluidBG

open Lib

/-! ## Decisions and when they are made -/

/-- What a decision of an Observing reconcile is made on. -/
structure Decision where
  bgd : BlueGreenDeployment
  dataCounts : Counts
  customCounts : Counts

def Decision.action (d : Decision) : Except ReconcileError PromotionAction :=
  decidePromotionAction d.bgd d.dataCounts d.customCounts d.bgd.currentStep

/-- The decision a call notes. -/
def Call.decided : Call → Option Decision
  | .note (.decide bgd dataCounts customCounts) => some ⟨bgd, dataCounts, customCounts⟩
  | _ => none

/-- The call neither registers a case nor decides anything. -/
structure Call.Bystander (c : Call) : Prop where
  registers : c.registers = none
  decided : c.decided = none

/-- Since when the object is observed, and since when its step is under way. -/
structure Timeline where
  observing : Option Timestamp
  step : Option Timestamp

/-- The step the object of the cluster is at. -/
def World.currentStep (w : World) : Option Int := w.bgd.bind (·.currentStep)

/-- The cluster's object is being observed. -/
def World.Observes (w : World) : Prop := w.bgd.bind (·.phase) = some .observing

instance World.decidableObserves (w : World) : Decidable w.Observes :=
  inferInstanceAs (Decidable (w.bgd.bind (·.phase) = some .observing))

/-- The timeline after the cluster has changed. -/
def Timeline.next (timeline : Timeline) (before after : World) : Timeline :=
  if ¬ after.Observes then ⟨none, none⟩
  else if ¬ before.Observes then ⟨some after.clock, some after.clock⟩
  else if before.currentStep ≠ after.currentStep then ⟨timeline.observing, some after.clock⟩
  else timeline

/-- A decision with the time it was made at. -/
structure Dated where
  decision : Decision
  time : Timestamp
  timeline : Timeline

/-- The cluster, the timeline of its object, and the decisions that were made. -/
structure Deciding where
  world : World
  timeline : Timeline
  decisions : List Dated

namespace Deciding

/-- The decision a call notes, with its time. -/
def noted (s : Deciding) (c : Call) : List Dated :=
  c.decided.toList.map fun decision => ⟨decision, s.world.clock, s.timeline⟩

/-- The cluster after a step that leads to `w`. -/
def after (s : Deciding) (w : World) (noted : List Dated) : Deciding :=
  ⟨w, s.timeline.next s.world w, s.decisions ++ noted⟩

end Deciding

/-- The cluster shared by handlers, the tracker, reconciles and everything else. Cases are
registered by requests only. -/
def decidingCluster : Shared Call Answer Unit Deciding Outcome Move where
  serve _ s c o := (s.world.serve c o).map fun aw => (aw.1, s.after aw.2 (s.noted c), ())
  move s v := match v with
    | .register _ => none
    | v => (s.world.move v).map fun w => s.after w []

/-! ## Facts about records -/

/-- Something that is known of every record: registrations bring it along, verdicts and retries do
not touch it, and it tells something of the counts. -/
structure RecordFact where
  holds : TestCaseRecord → Prop
  counts : VerificationMode → Counts → Prop
  kept : ∀ {run run' : TestCaseRecord}, run'.verificationMode = run.verificationMode →
    run'.timeout = run.timeout → holds run → holds run'
  merged : ∀ {existing run : TestCaseRecord}, holds existing → holds run →
    holds (MemoryStore.mergeRegistration existing run)
  counted : ∀ {store : MemoryStore}, (∀ run ∈ store.records, holds run) → ∀ key mode,
    counts mode (store.countsForMode key mode)

namespace RecordFact

variable (fact : RecordFact)

/-- Every record of the store meets the fact. -/
def Everywhere (store : MemoryStore) : Prop := ∀ run ∈ store.records, fact.holds run

/-- The counts the decision was made on meet the fact. -/
structure Behind (d : Decision) : Prop where
  data : fact.counts .data d.dataCounts
  custom : fact.counts .custom d.customCounts

/-- The call registers only what meets the fact, and notes only decisions made on it. -/
structure Allows (c : Call) : Prop where
  registers : ∀ run, c.registers = some run → fact.holds run
  decided : ∀ d, c.decided = some d → fact.Behind d

/-- The store and the decisions there were meet the fact. -/
structure Throughout (s : Deciding) : Prop where
  store : fact.Everywhere s.world.store
  decisions : ∀ d ∈ s.decisions, fact.Behind d.decision

abbrev duty : Duty Call Unit Deciding := ⟨fact.Throughout, fun _ _ c => fact.Allows c⟩

end RecordFact

namespace RecordFact

variable {fact : RecordFact}

section Store

variable {store : MemoryStore}

theorem Everywhere.modify (h : fact.Everywhere store) {f : TestCaseRecord → TestCaseRecord}
    (hf : ∀ run, fact.holds run → fact.holds (f run)) (ref testId : String) :
    fact.Everywhere (store.modify ref testId f) := by
  intro run' hmem
  obtain ⟨run, hrun, rfl⟩ := List.mem_map.mp hmem
  split
  · exact hf run (h run hrun)
  · exact h run hrun

/-- A change that leaves alone what the fact may be about. -/
theorem Everywhere.edit (h : fact.Everywhere store) {f : TestCaseRecord → TestCaseRecord}
    (hmode : ∀ run, (f run).verificationMode = run.verificationMode)
    (htimeout : ∀ run, (f run).timeout = run.timeout) (ref testId : String) :
    fact.Everywhere (store.modify ref testId f) :=
  h.modify (fun run hrun => fact.kept (hmode run) (htimeout run) hrun) ref testId

theorem Everywhere.filter (h : fact.Everywhere store) (p : TestCaseRecord → Bool) :
    fact.Everywhere ⟨store.records.filter p⟩ := by
  intro run hmem
  exact h run (List.mem_of_mem_filter hmem)

/-- **Only a registration can bring in a record that does not meet the fact.** -/
theorem Everywhere.apply (h : fact.Everywhere store) {op : StoreOp}
    (hop : ∀ run, op = .register run → fact.holds run) : fact.Everywhere (store.apply op) := by
  cases op with
  | register run =>
    show fact.Everywhere (store.register run)
    cases hget : store.get run.blueGreenRef run.testId with
    | none =>
      rw [MemoryStore.register_of_none hget]
      intro run' hmem
      rcases List.mem_append.mp hmem with hmem | hmem
      · exact h run' hmem
      · rw [List.mem_singleton.mp hmem]
        exact hop run rfl
    | some existing =>
      rw [MemoryStore.register_of_get hget]
      split
      · exact h
      · exact h.modify (fun existing hexisting => fact.merged hexisting (hop run rfl)) _ _
  | setVerdict ref testId passed failureMessage =>
    simp only [MemoryStore.apply, MemoryStore.setVerdict_eq]
    by_cases hpending : (store.get ref testId).any (·.isPending)
    · rw [if_pos hpending]
      exact h.edit (f := MemoryStore.judged passed failureMessage) (fun _ => rfl) (fun _ => rfl) _ _
    · rw [if_neg hpending]
      exact h
  | markTimedOut ref testId =>
    simp only [MemoryStore.apply, MemoryStore.markTimedOut_eq]
    by_cases hpending : (store.get ref testId).any (·.isPending)
    · rw [if_pos hpending]
      exact h.edit (f := MemoryStore.timedOut) (fun _ => rfl) (fun _ => rfl) _ _
    · rw [if_neg hpending]
      exact h
  | decrementRetries ref testId =>
    simp only [MemoryStore.apply, MemoryStore.decrementRetries]
    cases store.find ref testId with
    | none => exact h
    | some run =>
      by_cases hretry : run.isPending ∧ run.retriesRemaining > 0
      · simp only [if_pos hretry]
        exact h.edit (f := fun run => { run with retriesRemaining := run.retriesRemaining - 1 })
          (fun _ => rfl) (fun _ => rfl) _ _
      · simp only [if_neg hretry]
        exact h
  | cleanupBlueGreen ref => exact h.filter _
  | cleanupExpired now => exact h.filter _

end Store

/-! ## Steps -/

theorem Allows.of_bystander {c : Call} (hc : c.Bystander) : fact.Allows c := by
  constructor
  · intro run h
    rw [hc.registers] at h
    cases h
  · intro d h
    rw [hc.decided] at h
    cases h

section Steps

variable {s s' : Deciding} {w : World}

/-- **A call that may be made keeps to the fact.** -/
theorem Throughout.serve {c : Call} {o : Outcome} {a : Answer c} (h : fact.Throughout s)
    (hc : fact.Allows c) (hserve : s.world.serve c o = some (a, w)) :
    fact.Throughout (s.after w (s.noted c)) := by
  constructor
  · show fact.Everywhere w.store
    rcases World.serve_store hserve with heq | ⟨op, hop, heq⟩
    · rw [heq]
      exact h.store
    · rw [heq]
      refine h.store.apply fun run hrun => ?_
      subst hrun
      rw [Call.storeOp_register hop] at hc
      exact hc.registers run rfl
  · intro d hd
    rcases List.mem_append.mp hd with hd | hd
    · exact h.decisions d hd
    · obtain ⟨decision, hdecision, rfl⟩ := List.mem_map.mp hd
      exact hc.decided decision (Option.mem_toList.mp hdecision)

/-- A move of the cluster registers nothing and decides nothing. -/
theorem Throughout.move {v : Move} (h : fact.Throughout s)
    (hmove : decidingCluster.move s v = some s') : fact.Throughout s' := by
  have hmap (hsome : (s.world.move v).map (fun w => s.after w []) = some s') :
      ∃ w, s.world.move v = some w ∧ s' = s.after w [] := by
    obtain ⟨w, hw, heq⟩ := Option.map_eq_some_iff.mp hsome
    exact ⟨w, hw, heq.symm⟩
  have hv : ∀ run, v ≠ .register run := by
    intro run heq
    subst heq
    cases hmove
  have hworld : ∃ w, s.world.move v = some w ∧ s' = s.after w [] := by
    cases v with
    | register run => exact absurd rfl (hv run)
    | _ => exact hmap hmove
  obtain ⟨w, hw, rfl⟩ := hworld
  constructor
  · show fact.Everywhere w.store
    rcases World.move_store hv hw with heq | ⟨op, heq, -, hop⟩
    · rw [heq]
      exact h.store
    · rw [heq]
      exact h.store.apply fun run hrun => absurd hrun (hop run)
  · intro d hd
    rcases List.mem_append.mp hd with hd | hd
    · exact h.decisions d hd
    · cases hd

end Steps

end RecordFact

/-! ## Code that neither registers nor decides -/

/-- The code neither registers a case nor decides anything. -/
abbrev Op.Bystander {α : Type} (p : Op α) : Prop := p.Calls Call.Bystander

theorem Call.Asks.bystander {c : Call} (h : c.Asks) : c.Bystander := by
  refine ⟨h.harmless.1, ?_⟩
  cases c <;> first | rfl | exact h.elim

theorem Call.Teardown.bystander {c : Call} (h : c.Teardown) : c.Bystander := by
  cases c <;> first | exact ⟨rfl, rfl⟩ | exact h.elim

theorem Call.Rewires.bystander {c : Call} (h : c.Rewires) : c.Bystander := by
  cases c with
  | replaceDeployment ns name d => exact ⟨rfl, rfl⟩
  | _ =>
    rcases h with hasks | hteardown
    · exact hasks.bystander
    · exact hteardown.bystander

theorem Call.Reports.bystander {c : Call} (h : c.Reports) : c.Bystander := by
  cases c <;> first | exact ⟨rfl, rfl⟩ | exact h.elim

namespace Op.Bystander

variable {α : Type} {p : Op α}

theorem of_asks (hp : Op.Asks p) : Op.Bystander p := hp.mono fun _ => Call.Asks.bystander

theorem of_rewires (hp : Op.Rewires p) : Op.Bystander p :=
  hp.mono fun _ => Call.Rewires.bystander

theorem of_reports (hp : Op.Reports p) : Op.Bystander p :=
  hp.mono fun _ => Call.Reports.bystander

theorem ask {c : Call} (hr : c.registers = none) (hd : c.decided = none) :
    Op.Bystander (Op.ask c) :=
  ask_calls ⟨hr, hd⟩

theorem performAction {ctx : Ctx} {bgd : BlueGreenDeployment} {ns : String}
    (action : PromotionAction) : Op.Bystander (FluidBG.performAction ctx bgd ns action) := by
  cases action with
  | continueObserving => trivial
  | promote => exact of_reports (Op.Reports.updateStatusPhase _ _ _)
  | rollback =>
    refine Prog.Calls.bind ?_ fun _ => of_reports (Op.Reports.startDrain _ _)
    exact (ask rfl rfl).bind fun _ =>
      (of_rewires (Op.Rewires.startPluginDraining _ _ _ _)).bind fun _ =>
        (of_rewires (Op.Teardown.deleteDeployment _ _).rewires).bind fun _ => ask rfl rfl
  | advanceStep step percent =>
    refine Prog.Calls.bind ?_ fun _ => of_reports (Op.Reports.patchStatus _ _ _)
    refine .forEach fun ip _ => askKube_calls ⟨rfl, rfl⟩ fun plugin => ?_
    exact (of_asks (Op.Asks.controlPlaneClient _)).bind fun _ =>
      (of_asks (Op.Asks.signInceptionAuthToken _ _ _ _ _)).bind fun _ =>
        withRetries_calls (ask rfl rfl) ⟨rfl, rfl⟩

theorem pollPending : Op.Bystander FluidBG.pollPending := by
  have hretry (run : TestCaseRecord) : Op.Bystander (takeRetry run) := by
    refine (ask rfl rfl).bind fun r => ?_
    rcases r with e | _ | _
    · trivial
    · exact (ask rfl rfl).bind fun _ => trivial
    · trivial
  refine (ask rfl rfl).bind fun _ => (stateStore_calls _).bind fun pending => ?_
  refine .forEach fun run _ => (ask rfl rfl).bind fun answer => ?_
  cases answer with
  | body response =>
    dsimp only
    split
    · exact (ask rfl rfl).bind fun _ => trivial
    · trivial
  | unparsable =>
    dsimp only
    split
    · exact hretry run
    · trivial
  | sendError text => trivial

theorem checkTimeouts : Op.Bystander FluidBG.checkTimeouts := by
  refine (ask rfl rfl).bind fun _ => (stateStore_calls _).bind fun pending => ?_
  refine (ask rfl rfl).bind fun now => .forEach fun run _ => ?_
  split
  · exact (ask rfl rfl).bind fun _ => trivial
  · trivial

variable {ctx : Ctx} {authHeader : Option String}

theorem setVerdict (req : VerdictRequest) :
    Op.Bystander (FluidBG.setVerdict ctx authHeader req) := by
  have hjudge (stateKey : String) (record : TestCaseRecord) :
      Op.Bystander (judgeRecord authHeader stateKey req record) := by
    unfold judgeRecord
    split
    · refine (ask rfl rfl).bind fun r => ?_
      cases r <;> trivial
    · trivial
  unfold FluidBG.setVerdict
  split
  · trivial
  · refine (of_asks (Op.Evident.validatePluginAuth_asks _ _)).bind fun claims => ?_
    rcases claims with e | _ | claims
    · trivial
    · trivial
    · dsimp only
      split
      · refine (ask rfl rfl).bind fun r => ?_
        rcases r with e | _ | record
        · trivial
        · trivial
        · exact hjudge _ record
      · trivial

theorem getCounts (bgRef : String) : Op.Bystander (FluidBG.getCounts ctx authHeader bgRef) := by
  refine (of_asks (Op.Evident.validatePluginAuth_asks _ _)).bind fun claims => ?_
  rcases claims with e | _ | claims
  · trivial
  · trivial
  · dsimp only
    split
    · refine (ask rfl rfl).bind fun r => ?_
      cases r <;> trivial
    · trivial

end Op.Bystander

/-! ## The programs -/

namespace RecordFact

variable {fact : RecordFact}

/-- The code keeps to the fact wherever it starts. -/
def Keeps (fact : RecordFact) (p : Op Unit) : Prop :=
  ∀ s : Deciding, fact.Throughout s →
    (Pool.outside decidingCluster Watch.top fact.duty).Spec fact.duty.contract
      (fun _ _ => True) (fun _ _ => True) p (s, ())

namespace Keeps

variable {α : Type}

/-- The rule for a call whose answer tells something of the world. -/
theorem callOf {c : Call} {k : Answer c → Op Unit} (hc : fact.Allows c) {V : Answer c → Prop}
    (hV : ∀ s, fact.Throughout s → ∀ o a w, s.world.serve c o = some (a, w) → V a)
    (hk : ∀ a, V a → fact.Keeps (k a)) : fact.Keeps (.call c k) := by
  intro s hs
  refine ⟨hc, fun a t hanswer => ?_⟩
  obtain ⟨others, o, -, hserve⟩ := hanswer
  obtain ⟨s', x'⟩ := t
  obtain ⟨⟨b, w⟩, hworld, heq⟩ := Option.map_eq_some_iff.mp hserve
  cases heq
  refine ⟨hs.serve hc hworld, fun t hlater hinv => ?_⟩
  exact hk b (hV s hs o b w hworld) t.1 hinv

/-- The rule for a call. -/
theorem call {c : Call} {k : Answer c → Op Unit} (hc : fact.Allows c)
    (hk : ∀ a, fact.Keeps (k a)) : fact.Keeps (.call c k) :=
  callOf hc (V := fun _ => True) (fun _ _ _ _ _ _ => trivial) fun a _ => hk a

/-- Code whose calls may all be made, before other code. -/
theorem code {p : Op α} {k : α → Op Unit} (hp : p.Calls fact.Allows)
    (hk : ∀ a, fact.Keeps (k a)) : fact.Keeps (p.bind k) := by
  induction p with
  | pure b => exact hk b
  | fail e => exact fun _ _ => trivial
  | call c k' ih => exact call hp.1 fun a => ih a (hp.2 a)

/-- Code whose calls may all be made. -/
theorem of_calls {p : Op Unit} (hp : p.Calls fact.Allows) : fact.Keeps p := by
  rw [← Prog.bind_pure p]
  exact code hp fun _ _ _ => trivial

theorem bystander {p : Op α} {k : α → Op Unit} (hp : Op.Bystander p)
    (hk : ∀ a, fact.Keeps (k a)) : fact.Keeps (p.bind k) :=
  code (hp.mono fun _ => Allows.of_bystander) hk

theorem of_bystander {p : Op Unit} (hp : Op.Bystander p) : fact.Keeps p :=
  of_calls (hp.mono fun _ => Allows.of_bystander)

/-- The counts for a criterion, where they are read. -/
theorem counting {key : String} {mode : VerificationMode} {k : Counts → Op Unit}
    (hk : ∀ counts, fact.counts mode counts → fact.Keeps (k counts)) :
    fact.Keeps (.call (.countsForMode key mode) fun r => Prog.bind (Op.stateStore r) k) := by
  refine callOf (.of_bystander ⟨rfl, rfl⟩)
    (V := fun a => ∀ counts, a = .ok counts → fact.counts mode counts) ?_ fun r hr => ?_
  · intro s hs o a w hserve counts hcounts
    subst hcounts
    cases o with
    | ok =>
      cases hserve
      exact fact.counted hs.store key mode
    | _ => cases hserve
  · cases r with
    | ok counts => exact hk counts (hr counts rfl)
    | error e => exact fun _ _ => trivial

/-- **An Observing reconcile decides on counts that meet the fact.** -/
theorem reconcileObserving {ctx : Ctx} {bgd : BlueGreenDeployment} {ns : String}
    (stateKey : String) : fact.Keeps (FluidBG.reconcileObserving ctx bgd ns stateKey) := by
  refine bystander (lift_calls _) fun _ => ?_
  refine bystander (Op.Bystander.ask rfl rfl) fun counts => ?_
  refine bystander (stateStore_calls _) fun counts => ?_
  refine counting fun data hdata => counting fun custom hcustom => ?_
  refine bystander (Op.Bystander.ask rfl rfl) fun message => ?_
  refine bystander (stateStore_calls _) fun message => ?_
  refine bystander (.of_reports (Op.Reports.patchStatus _ _ _)) fun _ => ?_
  refine call ⟨fun run hrun => (by cases hrun), fun d hd => ?_⟩ fun _ => ?_
  · cases hd
    exact ⟨hdata, hcustom⟩
  · rw [Prog.pure_bind]
    exact bystander (lift_calls _) fun action => of_bystander (.performAction action)

end Keeps

/-- A registration request keeps to the fact when what it would register does. -/
theorem allows_registerTestCase {ctx : Ctx} {authHeader : Option String}
    {req : RegisterTestCaseRequest}
    (h : ∀ claims triggeredAt timeout,
      timeoutDuration (req.timeoutSeconds.getD 60) = .ok timeout →
        fact.holds (registeredRecord claims authHeader req triggeredAt timeout)) :
    (registerTestCase ctx authHeader req).Calls fact.Allows := by
  have hby {α : Type} {p : Op α} (hp : Op.Bystander p) : p.Calls fact.Allows :=
    hp.mono fun _ => Allows.of_bystander
  have hstore (claims : PluginAuthClaims) :
      (storeTestCase claims authHeader req).Calls fact.Allows := by
    have htime : Op.Bystander (triggerTime req) := by
      unfold triggerTime
      split
      · trivial
      · exact Op.Bystander.ask rfl rfl
    refine (hby htime).bind fun triggeredAt => liftBind_calls fun timeout htimeout => ?_
    have hregister : fact.Allows (.register (registeredRecord claims authHeader req triggeredAt
        timeout)) := by
      refine ⟨fun run hrun => ?_, fun d hd => ?_⟩
      · cases hrun
        exact h claims triggeredAt timeout htimeout
      · cases hd
    refine (ask_calls hregister).bind fun r => ?_
    cases r <;> trivial
  have hcheck (claims : PluginAuthClaims) : Op.Bystander (validateRegistrationBgd claims req) := by
    unfold validateRegistrationBgd
    split
    · trivial
    · refine (Op.Bystander.ask rfl rfl).bind fun r => ?_
      rcases r with e | bgd
      · cases e <;> trivial
      · dsimp only
        split
        · trivial
        · split <;> trivial
  refine (hby (.of_asks (Op.Evident.validatePluginAuth_asks _ _))).bind fun claims => ?_
  rcases claims with e | _ | claims
  · trivial
  · trivial
  · dsimp only
    split
    · refine (hby (hcheck claims)).bind fun checked => ?_
      cases checked with
      | error e => trivial
      | ok _ => exact hstore claims
    · trivial

/-- A request that registers nothing, or only what meets the fact. -/
theorem allows_router {ctx : Ctx} {authHeader : Option String} {req : ApiRequest}
    (h : ∀ reg, req = .registerTestCase reg → ∀ claims triggeredAt timeout,
      timeoutDuration (reg.timeoutSeconds.getD 60) = .ok timeout →
        fact.holds (registeredRecord claims authHeader reg triggeredAt timeout)) :
    (router ctx authHeader req).Calls fact.Allows := by
  cases req with
  | registerTestCase reg =>
    exact (allows_registerTestCase (h reg rfl)).bind fun _ => trivial
  | setVerdict verdict =>
    exact ((Op.Bystander.setVerdict verdict).mono fun _ => Allows.of_bystander).bind
      fun _ => trivial
  | getCounts bgRef =>
    exact ((Op.Bystander.getCounts bgRef).mono fun _ => Allows.of_bystander).bind
      fun _ => trivial

/-! ## Runs -/

/-- **What is known of every record is known of every decision**, whatever the jobs are, as long as
each keeps to the fact. -/
theorem Throughout.of_run {J : Type} {jobs : J → Thread Call Answer ReconcileError Unit}
    {start : Deciding} {s : Pool Call Answer ReconcileError Unit Deciding}
    (hstart : fact.Throughout start) (hjobs : ∀ j, fact.Keeps (jobs j).prog)
    (h : Pool.Run decidingCluster jobs Watch.top ⟨start, []⟩ s) : fact.Throughout s.world := by
  have hgood : Pool.Good decidingCluster Watch.top fact.duty
      (⟨start, []⟩ : Pool Call Answer ReconcileError Unit Deciding) := .of_idle hstart
  have hmoves : ∀ (all : List Unit) (t : Deciding) (v : Move) (t' : Deciding),
      fact.Throughout t → (Watch.top : Watch Call Unit Deciding Outcome Move).move all t v →
      decidingCluster.move t v = some t' → fact.Throughout t' :=
    fun _ _ _ _ ht _ hmove => ht.move hmove
  exact (Pool.Run.sound hmoves (fun j t ht => hjobs j t ht) hgood h).1

end RecordFact

end FluidBG
