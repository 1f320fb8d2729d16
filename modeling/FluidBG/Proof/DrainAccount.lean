import FluidBG.Plugins.Sample
import FluidBG.Proof.AmqpBarrier
import FluidBG.Proof.Assignments
import FluidBG.Proof.SubjectAccount
/-!
# The account of the NATS drain

A drain status of the NATS inceptor adds up what two consumers have left. That says what became of
the messages of a temporary subject, since whoever acknowledges one for such a consumer is an
application or has published it again. It says nothing about other consumers: where an application
consumes under another durable than the drain looks at, the drain hands back what the application is
done with. And a message that an input worker has fetched is in no temporary subject yet.

Here the programs are held to where they may make which call, and the two invariants do the rest.
-/

set_option autoImplicit false

namespace FluidBG.Nats

open Lib

/-! ## The programs -/

section Programs

variable (input : Bool) (temp : List String) (targets : List DrainTarget)

/-- What a thread comes to that keeps to where it may make which call. -/
abbrev Does {α : Type} (Q : α → SubjectMemory → Prop) (E : SubjectMemory → Prop)
    (p : SubjectOp α) (x : SubjectMemory) : Prop :=
  (Pool.alone subjectProcess).Spec (Pool.protocol (SubjectMay input temp targets)) Q
    (fun _ => E) p x

/-- A thread that holds nothing. -/
def Calm (looked : Option RuntimeMode) (counted : List (String × String)) (x : SubjectMemory) :
    Prop :=
  x.looked = looked ∧ x.counted = counted ∧ x.hand = none

/-- A thread that holds a message of the subject, and has published it so far. -/
def Fetched (looked : Option RuntimeMode) (counted : List (String × String)) (subject : String)
    (sent : List String) (x : SubjectMemory) : Prop :=
  x.looked = looked ∧ x.counted = counted ∧
    ∃ hand, x.hand = some hand ∧ hand.subject = subject ∧ hand.sent = sent

/-- A thread that may or may not hold something. -/
def Busy (looked : Option RuntimeMode) (counted : List (String × String)) (x : SubjectMemory) :
    Prop :=
  x.looked = looked ∧ x.counted = counted

/-- A program that holds nothing in the end, and has neither looked nor counted. -/
def Settles (p : SubjectOp Unit) : Prop :=
  ∀ looked counted x, Calm looked counted x →
    Does input temp targets (fun _ => Calm looked counted) (Calm looked counted) p x

variable {input temp targets} {looked : Option RuntimeMode} {counted : List (String × String)}
  {x : SubjectMemory} {α β : Type}

/-- The rule for a call, which the server always answers. -/
theorem does_call {Q : α → SubjectMemory → Prop} {E : SubjectMemory → Prop} {c : SubjectCall}
    {k : SubjectAnswer c → SubjectOp α} (hmay : SubjectMay input temp targets x c)
    (h : ∀ w o, Does input temp targets Q E (k (SubjectWorld.serve x w o c).1)
      (SubjectWorld.serve x w o c).2.2) :
    Does input temp targets Q E (.call c k) x := by
  refine Pool.alone_call hmay fun w o a w' x' hserve => ?_
  have hpair := Option.some.inj hserve
  have ha : a = (w.serve x o c).1 := by rw [hpair]
  have hx' : x' = (w.serve x o c).2.2 := by rw [hpair]
  rw [ha, hx']
  exact h w o

theorem settles_connect : Settles input temp targets SubjectOp.connect := by
  intro looked counted x hx
  refine does_call trivial fun w o => ?_
  show Does input temp targets _ _ (Prog.ofExcept (o.call.answer () w w).1) x
  cases o.call with
  | ok => exact hx
  | refused => exact hx
  | lost => exact hx

theorem does_mode (hx : Calm looked [] x) : Does input temp targets
    (fun mode => Calm (some mode) []) (Calm looked []) SubjectOp.mode x := by
  refine does_call ⟨hx.2.1, hx.2.2⟩ fun w o => ?_
  exact ⟨rfl, hx.2.1, hx.2.2⟩

/-- A fetch, for the durable that the drain looks at where it looks at one. -/
theorem does_fetch {policy : DeliverPolicy} {subject durable : String}
    (hdurable : ∀ t ∈ targets, t.subject = subject → t.durable = durable)
    (hx : Calm looked counted x) :
    Does input temp targets
      (fun message x' => (message = none → Calm looked counted x') ∧
        ∀ m, message = some m → Fetched looked counted subject [] x')
      (Calm looked counted) (SubjectOp.fetch policy subject durable) x := by
  refine does_call hdurable fun w o => ?_
  show Does input temp targets _ _ (Prog.ofExcept _) _
  simp only [SubjectWorld.serve]
  split
  · cases o.call with
    | ok =>
      refine ⟨fun h => ?_, fun m _ => ⟨hx.1, hx.2.1, _, rfl, rfl, rfl⟩⟩
      cases h
    | refused => exact hx
    | lost => exact hx
  · cases o.call with
    | ok =>
      refine ⟨fun _ => hx, fun m h => ?_⟩
      cases h
    | refused => exact hx
    | lost => exact hx

/-- What is done with a message in scope ends with nothing in hand. -/
theorem does_holding {p : WorkerOp Unit}
    (hp : Does input temp targets (fun _ => Busy looked counted) (Busy looked counted)
      (SubjectOp.work p) x) :
    Does input temp targets (fun _ => Calm looked counted) (Calm looked counted)
      (SubjectOp.holding p) x := by
  refine Outside.Spec.bind (R := fun (_ : Except Unit Unit) x' => Busy looked counted x')
    (Outside.Spec.result hp) fun r x' hx' => ?_
  refine does_call trivial fun w o => ?_
  cases r with
  | ok a => exact ⟨hx'.1, hx'.2, rfl⟩
  | error e => exact ⟨hx'.1, hx'.2, rfl⟩

theorem work_bind (p : WorkerOp α) (f : α → WorkerOp β) :
    SubjectOp.work (p.bind f) = (SubjectOp.work p).bind fun a => SubjectOp.work (f a) :=
  Prog.lift_bind _ _ p f

/-- A request leaves the message in hand alone. -/
theorem does_requests {p : WorkerOp α} (hp : p.Calls Rabbitmq.Requests) :
    Does input temp targets (fun _ x' => x' = x) (fun x' => x' = x) (SubjectOp.work p) x := by
  have hlift : (SubjectOp.work p).Calls fun c => ∃ work, c = .work work ∧ Rabbitmq.Requests work :=
    Prog.Calls.lift (hp.mono fun work hwork => ⟨work, rfl, hwork⟩)
  refine (Outside.Spec.of_calls (P := fun x' => x' = x) hlift
    (fun _ _ _ hm => False.elim hm) rfl trivial ?_ ?_).mono (fun _ _ h => h.1) fun _ _ h => h.1
  · rintro y c ⟨work, rfl, hwork⟩ - -
    cases work with
    | publish target message => exact hwork.elim
    | ack => exact hwork.elim
    | _ => trivial
  · rintro y c a y' ⟨work, rfl, hwork⟩ - hy ⟨w, o, w', hserve⟩
    refine ⟨trivial, ?_⟩
    have hy' : y' = (w.serve y o (.work work)).2.2 := by rw [Option.some.inj hserve]
    rw [hy', ← hy]
    cases work with
    | publish target message => exact hwork.elim
    | ack => exact hwork.elim
    | _ => rfl

section Target

variable {t : DrainTarget} (hapart : Apart targets) (ht : t ∈ targets)
include ht

/-- A message of a target is published to its base. -/
theorem does_publishTo {message : Message} (hx : Fetched looked counted t.subject [] x) :
    Does input temp targets (fun _ => Fetched looked counted t.subject [t.base])
      (Busy looked counted) (SubjectOp.work (publishTo message t.base)) x := by
  obtain ⟨hlooked, hcounted, hand, hhand, hsubject, hsent⟩ := hx
  refine does_call ⟨hand, hhand, .inr ⟨hsent, t, ht, hsubject.symm, rfl⟩⟩ fun w o => ?_
  show Does input temp targets _ _ (SubjectOp.work (Prog.ofExcept _)) _
  simp only [SubjectWorld.serve, serveSubjectWork]
  cases o.call with
  | ok =>
    refine ⟨hlooked, hcounted, { hand with sent := t.base :: hand.sent }, ?_, hsubject, ?_⟩
    · simp [SubjectMemory.publish, hhand]
    · simp [hsent]
  | refused => exact ⟨hlooked, hcounted⟩
  | lost => exact ⟨hlooked, hcounted⟩

include hapart

/-- It may be acknowledged afterwards. -/
theorem does_ack (hx : Fetched looked counted t.subject [t.base] x) :
    Does input temp targets (fun _ => Busy looked counted) (Busy looked counted)
      (SubjectOp.work ack) x := by
  obtain ⟨hlooked, hcounted, hand, hhand, hsubject, hsent⟩ := hx
  refine does_call (fun hand' hhand' u hu hsame => ?_) fun w o => ?_
  · rw [hhand] at hhand'
    cases hhand'
    -- the subject has one target
    rw [hsubject] at hsame
    rw [(hapart u hu t ht).2 hsame, hsent]
    exact List.mem_singleton_self _
  · show Does input temp targets _ _ (SubjectOp.work (Prog.ofExcept _)) _
    simp only [SubjectWorld.serve, serveSubjectWork, hhand]
    cases o.call with
    | ok => exact ⟨hlooked, hcounted⟩
    | refused => exact ⟨hlooked, hcounted⟩
    | lost => exact ⟨hlooked, hcounted⟩

theorem durable_of_subject {u : DrainTarget} (hu : u ∈ targets) (h : u.subject = t.subject) :
    u.durable = t.durable := by
  rw [(hapart u hu t ht).2 h]

/-- **A drain of one target** leaves nothing in hand. -/
theorem does_moveSubjectMessages (max : Nat) (hx : Calm looked counted x) :
    Does input temp targets (fun _ => Calm looked counted) (Calm looked counted)
      (moveSubjectMessages t.subject t.base t.durable max) x := by
  induction max generalizing x with
  | zero => exact hx
  | succ max ih =>
    refine Outside.Spec.bind
      (does_fetch (fun u hu h => durable_of_subject hapart ht hu h) hx) fun message x₁ hx₁ => ?_
    cases message with
    | none => exact hx₁.1 rfl
    | some message =>
      have hhold : Does input temp targets (fun _ => Calm looked counted) (Calm looked counted)
          (SubjectOp.holding do
            publishTo message t.base
            ack) x₁ := by
        refine does_holding ?_
        show Does input temp targets _ _ (SubjectOp.work (Prog.bind _ _)) _
        rw [work_bind]
        exact Outside.Spec.bind (does_publishTo ht (hx₁.2 message rfl))
          fun _ x₂ hx₂ => does_ack hapart ht hx₂
      refine Outside.Spec.bind hhold fun _ x₂ hx₂ => ?_
      exact Outside.Spec.bind (ih hx₂) fun _ x₃ hx₃ => hx₃

theorem settles_drainOutputSubject (hdurable : t.durable = combinerDurable t.subject) :
    Settles input temp targets (drainOutputSubject t.subject t.base) := by
  intro looked counted x hx
  refine Outside.Spec.bind (settles_connect looked counted x hx) fun _ x₁ hx₁ => ?_
  rw [← hdurable]
  exact Outside.Spec.bind (does_moveSubjectMessages hapart ht 10000 hx₁) fun _ x₂ hx₂ => hx₂

/-- The combiner publishes a message, reports it and acknowledges it. -/
theorem does_processOutputMessage (state : WorkerState Config)
    (hjet : state.config.mode.isCore = false) (message : Message)
    (hx : Fetched looked counted t.subject [] x) :
    Does input temp targets (fun _ => Busy looked counted) (Busy looked counted)
      (SubjectOp.work (processOutputMessage state message t.subject t.base)) x := by
  unfold processOutputMessage
  cases state.config.combiner with
  | none => exact ⟨hx.1, hx.2.1⟩
  | some combiner =>
    simp only [hjet, Bool.false_eq_true, if_false]
    show Does input temp targets _ _ (SubjectOp.work (Prog.bind _ _)) _
    rw [work_bind]
    refine Outside.Spec.bind (does_publishTo ht hx) fun _ x₁ hx₁ => ?_
    show Does input temp targets _ _ (SubjectOp.work (Prog.bind _ _)) _
    rw [work_bind]
    refine Outside.Spec.bind (R := fun _ x' => x' = x₁) ((does_requests
      (Rabbitmq.requests_report _ _ _ _ _)).mono (fun _ _ h => h) fun _ x' h => ?_)
      fun _ x₂ hx₂ => ?_
    · rw [h]
      exact ⟨hx₁.1, hx₁.2.1⟩
    · rw [hx₂]
      exact does_ack hapart ht hx₁

end Target

end Programs

/-! ### The targets of a configuration -/

section Targets

variable {roles : List PluginRole} {config : Config} {worker : Option QueueWorkerRole}

/-- The roles of an inceptor that runs exclude each other. -/
theorem roles_of_worker (h : queueWorkerRole roles = .ok worker) :
    (movesInputSubjects roles = true → hasRole roles .combiner = false) ∧
      (hasRole roles .duplicator = true → hasRole roles .splitter = false) ∧
      (worker = some .input → hasRole roles .combiner = false) ∧
      (worker = some .combiner → hasRole roles .combiner = true) := by
  by_cases hd : PluginRole.duplicator ∈ roles <;> by_cases hs : PluginRole.splitter ∈ roles <;>
    by_cases hc : PluginRole.combiner ∈ roles <;> by_cases hk : PluginRole.consumer ∈ roles <;>
      simp [queueWorkerRole, hd, hs, hc, hk] at h <;>
        simp [movesInputSubjects, hasRole, hd, hs, hc, ← h]

theorem base_of_mem_targets {q : DrainedSubjects} {t : DrainTarget} (h : t ∈ q.targets) :
    t.base = q.base := by
  simp only [DrainedSubjects.targets, List.mem_cons, List.not_mem_nil, or_false] at h
  rcases h with rfl | rfl <;> rfl

theorem mem_drainTargets_of_input {q : DrainedSubjects} (hinput : movesInputSubjects roles = true)
    (hq : inputDrainTargets roles config = .ok q) {t : DrainTarget} (ht : t ∈ q.targets) :
    t ∈ drainTargets roles config := by
  simp only [drainTargets, hinput, if_true, hq]
  exact List.mem_append_left _ ht

theorem mem_drainTargets_of_output {q : DrainedSubjects}
    (hcombiner : hasRole roles .combiner = true) (hq : outputDrainTargets config = .ok q)
    {t : DrainTarget} (ht : t ∈ q.targets) : t ∈ drainTargets roles config := by
  simp only [drainTargets, hcombiner, if_true, hq]
  exact List.mem_append_right _ ht

/-- What the drain looks at in the names of an input block. -/
theorem blockDrainTargets_eq_ok {block : Option InputRoleConfig} {q : DrainedSubjects}
    (h : blockDrainTargets block = .ok q) : ∃ b, block = some b ∧ b.inputSubject = some q.base ∧
      b.greenInputSubject = some q.green ∧ b.blueInputSubject = some q.blue ∧
      q.greenDurable = inputConsumerDurable (b.greenQueueGroup.or b.queueGroup) q.green ∧
      q.blueDurable = inputConsumerDurable (b.blueQueueGroup.or b.queueGroup) q.blue := by
  obtain ⟨b, hb, h⟩ := bind_eq_ok.mp h
  obtain ⟨base, hbase, h⟩ := bind_eq_ok.mp h
  obtain ⟨green, hgreen, h⟩ := bind_eq_ok.mp h
  obtain ⟨blue, hblue, h⟩ := bind_eq_ok.mp h
  cases h
  exact ⟨b, required_eq_ok.mp hb, required_eq_ok.mp hbase, required_eq_ok.mp hgreen,
    required_eq_ok.mp hblue, rfl, rfl⟩

theorem outputDrainTargets_eq_ok {q : DrainedSubjects} (h : outputDrainTargets config = .ok q) :
    ∃ c, config.combiner = some c ∧ c.greenOutputSubject = some q.green ∧
      c.blueOutputSubject = some q.blue ∧ c.outputSubject = some q.base ∧
      q.greenDurable = combinerDurable q.green ∧ q.blueDurable = combinerDurable q.blue := by
  obtain ⟨c, hc, h⟩ := bind_eq_ok.mp h
  obtain ⟨green, hgreen, h⟩ := bind_eq_ok.mp h
  obtain ⟨blue, hblue, h⟩ := bind_eq_ok.mp h
  obtain ⟨base, hbase, h⟩ := bind_eq_ok.mp h
  cases h
  exact ⟨c, required_eq_ok.mp hc, required_eq_ok.mp hgreen, required_eq_ok.mp hblue,
    required_eq_ok.mp hbase, rfl, rfl⟩

/-- The block of the role that moves input. -/
def movedBlock (roles : List PluginRole) (config : Config) : Option InputRoleConfig :=
  if hasRole roles .duplicator then config.duplicator else config.splitter

/-- What the prepare assigns for the block that moves input, it assigns last. -/
theorem prepared_of_block (hroles : queueWorkerRole roles = .ok worker)
    (hmoves : movesInputSubjects roles = true) {block : InputRoleConfig}
    (hblock : movedBlock roles config = some block) :
    buildPrepareAssignments config roles = inputAssignments block block.greenInputSubject
      block.blueInputSubject block.greenQueueGroup block.blueQueueGroup := by
  have hcombiner := (roles_of_worker hroles).1 hmoves
  unfold movedBlock at hblock
  by_cases hd : hasRole roles .duplicator = true
  · have hs := (roles_of_worker hroles).2.1 hd
    rw [if_pos hd] at hblock
    simp [buildPrepareAssignments, hd, hs, hcombiner, hblock]
  · have hs : hasRole roles .splitter = true := by
      simpa [movesInputSubjects, hd] using hmoves
    rw [if_neg hd] at hblock
    simp [buildPrepareAssignments, hd, hs, hcombiner, hblock]

/-- **A queue group that the prepare assigns** is the one whose durable the drain looks at, whatever
the variable was before. -/
theorem durable_of_prepared (hroles : queueWorkerRole roles = .ok worker)
    (hmoves : movesInputSubjects roles = true) {block : InputRoleConfig}
    (hblock : movedBlock roles config = some block) {q : DrainedSubjects}
    (hq : inputDrainTargets roles config = .ok q) (env : Variable → Option String)
    {name queueGroup : String} :
    (block.greenQueueGroupEnvVar = some name → block.greenQueueGroup = some queueGroup →
      assignAll env ((buildPrepareAssignments config roles).map (·.entry)) (.green, name) =
          some queueGroup ∧ queueGroupDurable queueGroup q.green = q.greenDurable) ∧
      (block.blueQueueGroupEnvVar = some name → block.blueQueueGroup = some queueGroup →
        assignAll env ((buildPrepareAssignments config roles).map (·.entry)) (.blue, name) =
            some queueGroup ∧ queueGroupDurable queueGroup q.blue = q.blueDurable) := by
  have htargets : blockDrainTargets (some block) = .ok q := by
    unfold movedBlock at hblock
    unfold inputDrainTargets at hq
    by_cases hd : hasRole roles .duplicator = true
    · rw [if_pos hd] at hblock hq
      exact hblock ▸ hq
    · rw [if_neg hd] at hblock hq
      exact hblock ▸ hq
  obtain ⟨b, hb, -, -, -, hgreen, hblue⟩ := blockDrainTargets_eq_ok htargets
  cases hb
  rw [prepared_of_block hroles hmoves hblock, hgreen, hblue]
  constructor
  · intro hname hgroup
    refine ⟨?_, by simp [hgroup, inputConsumerDurable]⟩
    -- the last assignment to green is that of the queue group
    cases hother : block.blueQueueGroupEnvVar <;> cases block.blueQueueGroup <;>
      simp [inputAssignments, pushSubjectAssignment, hname, hgroup, hother, assignAll,
        assigned_cons, PropertyAssignment.entry, PropertyAssignment.variable]
  · intro hname hgroup
    refine ⟨?_, by simp [hgroup, inputConsumerDurable]⟩
    simp [inputAssignments, pushSubjectAssignment, hname, hgroup, assignAll, assigned_cons,
      PropertyAssignment.entry, PropertyAssignment.variable]

/-- **The subject that an input worker reads** is not one of the temporary ones. -/
theorem subject_ne_of_source (hroles : queueWorkerRole roles = .ok (some .input))
    (hapart : Apart (drainTargets roles config)) {subject : String}
    (hsource : inputSourceSubject roles config = .ok subject) :
    ∀ t ∈ drainTargets roles config, t.subject ≠ subject := by
  intro t ht
  have hcombiner := (roles_of_worker hroles).2.2.1 rfl
  have hself := (hapart t ht t ht).1
  have ht' := ht
  simp only [drainTargets, hcombiner, Bool.false_eq_true, if_false, List.append_nil] at ht'
  split at ht'
  · rename_i hinput
    cases hq : inputDrainTargets roles config with
    | error e =>
      rw [hq] at ht'
      cases ht'
    | ok q =>
      rw [hq] at ht'
      have hbase : some q.base = some subject := by
        unfold inputSourceSubject at hsource
        unfold inputDrainTargets at hq
        by_cases hd : hasRole roles .duplicator = true
        · rw [if_pos hd] at hsource hq
          obtain ⟨b, hb, hname, -⟩ := blockDrainTargets_eq_ok hq
          obtain ⟨b', hb', hs⟩ := bind_eq_ok.mp hsource
          rw [required_eq_ok.mp hb'] at hb
          cases hb
          rw [← hname, required_eq_ok.mp hs]
        · rw [if_neg hd] at hsource hq
          have hsplitter : hasRole roles .splitter = true := by
            simpa [movesInputSubjects, hd] using hinput
          rw [if_pos hsplitter] at hsource
          obtain ⟨b, hb, hname, -⟩ := blockDrainTargets_eq_ok hq
          obtain ⟨b', hb', hs⟩ := bind_eq_ok.mp hsource
          rw [required_eq_ok.mp hb'] at hb
          cases hb
          rw [← hname, required_eq_ok.mp hs]
      intro heq
      refine hself ?_
      rw [base_of_mem_targets ht', Option.some.inj hbase, heq]
  · cases ht'

/-- What is known once both drains of a status call have found their subjects. -/
def Complete (roles : List PluginRole) (config : Config) : Prop :=
  (movesInputSubjects roles = true → ∃ q, inputDrainTargets roles config = .ok q) ∧
    (hasRole roles .combiner = true → ∃ q, outputDrainTargets config = .ok q)

/-- **The temporary subjects** are then all drained. -/
theorem Complete.covers (h : Complete roles config) (hroles : queueWorkerRole roles = .ok worker) :
    ∀ subject ∈ temporarySubjects roles config, ∃ t ∈ drainTargets roles config,
      t.subject = subject := by
  have hinput : ∀ block b, (movesInputSubjects roles = true) →
      inputDrainTargets roles config = blockDrainTargets block → block = some b →
      ∀ subject ∈ InputRoleConfig.tempSubjects b, ∃ t ∈ drainTargets roles config,
        t.subject = subject := by
    rintro block b hmoves heq rfl subject hsubject
    obtain ⟨q, hq⟩ := h.1 hmoves
    obtain ⟨b', hb', -, hgreen, hblue, -⟩ := blockDrainTargets_eq_ok (heq ▸ hq)
    cases hb'
    simp only [InputRoleConfig.tempSubjects, hgreen, hblue, Option.toList_some, List.cons_append,
      List.nil_append, List.mem_cons, List.not_mem_nil, or_false] at hsubject
    rcases hsubject with rfl | rfl
    · exact ⟨⟨q.green, q.greenDurable, q.base⟩,
        mem_drainTargets_of_input hmoves hq (by simp [DrainedSubjects.targets]), rfl⟩
    · exact ⟨⟨q.blue, q.blueDurable, q.base⟩,
        mem_drainTargets_of_input hmoves hq (by simp [DrainedSubjects.targets]), rfl⟩
  intro subject hsubject
  obtain ⟨role, hrole, hsubject⟩ := List.mem_flatMap.mp hsubject
  have hhas := (List.mem_filter.mp hrole).2
  cases role with
  | duplicator =>
    simp only [Config.tempSubjects] at hsubject
    cases hb : config.duplicator with
    | none => simp [hb] at hsubject
    | some b =>
      simp only [hb, Option.map_some, Option.getD_some] at hsubject
      refine hinput (some b) b ?_ ?_ rfl subject hsubject
      · simp [movesInputSubjects, hhas]
      · simp [inputDrainTargets, hhas, hb]
  | splitter =>
    simp only [Config.tempSubjects] at hsubject
    have hd : hasRole roles .duplicator = false := by
      by_contra hd
      have hs := (roles_of_worker hroles).2.1 (by simpa using hd)
      rw [hs] at hhas
      cases hhas
    cases hb : config.splitter with
    | none => simp [hb] at hsubject
    | some b =>
      simp only [hb, Option.map_some, Option.getD_some] at hsubject
      refine hinput (some b) b ?_ ?_ rfl subject hsubject
      · simp [movesInputSubjects, hhas]
      · simp [inputDrainTargets, hd, hb]
  | combiner =>
    simp only [Config.tempSubjects] at hsubject
    obtain ⟨q, hq⟩ := h.2 hhas
    obtain ⟨c, hc, hgreen, hblue, -⟩ := outputDrainTargets_eq_ok hq
    simp only [hc, Option.map_some, Option.getD_some, CombinerConfig.tempSubjects, hgreen, hblue,
      Option.toList_some, List.cons_append, List.nil_append, List.mem_cons, List.not_mem_nil,
      or_false] at hsubject
    rcases hsubject with rfl | rfl
    · exact ⟨⟨q.green, q.greenDurable, q.base⟩,
        mem_drainTargets_of_output hhas hq (by simp [DrainedSubjects.targets]), rfl⟩
    · exact ⟨⟨q.blue, q.blueDurable, q.base⟩,
        mem_drainTargets_of_output hhas hq (by simp [DrainedSubjects.targets]), rfl⟩
  | writer => cases hsubject
  | consumer => cases hsubject
  | observer => cases hsubject
  | mock => cases hsubject

/-- And the status looks at them all. -/
theorem Complete.backlogs (h : Complete roles config) :
    drainBacklogTargets roles config = .ok ((drainTargets roles config).map (·.consumer)) := by
  have hcombine : hasRole roles .combiner = true → ∃ q, outputDrainTargets config = .ok q ∧
      ∃ c, config.combiner = some c ∧ c.greenOutputSubject = some q.green ∧
        c.blueOutputSubject = some q.blue ∧ q.greenDurable = combinerDurable q.green ∧
        q.blueDurable = combinerDurable q.blue := by
    intro hcombiner
    obtain ⟨q, hq⟩ := h.2 hcombiner
    obtain ⟨c, hc, hgreen, hblue, -, hrest⟩ := outputDrainTargets_eq_ok hq
    exact ⟨q, hq, c, hc, hgreen, hblue, hrest⟩
  unfold drainBacklogTargets drainTargets
  by_cases hmoves : movesInputSubjects roles = true
  · obtain ⟨p, hp⟩ := h.1 hmoves
    by_cases hcombiner : hasRole roles .combiner = true
    · obtain ⟨q, hq, c, hc, hgreen, hblue, hgd, hbd⟩ := hcombine hcombiner
      simp [hmoves, hp, hcombiner, hq, hc, hgreen, hblue, required, bind, Except.bind, pure,
        Except.pure, DrainedSubjects.targets, DrainTarget.consumer, hgd, hbd]
    · simp [hmoves, hp, hcombiner, bind, Except.bind, pure, Except.pure, DrainedSubjects.targets,
        DrainTarget.consumer]
  · by_cases hcombiner : hasRole roles .combiner = true
    · obtain ⟨q, hq, c, hc, hgreen, hblue, hgd, hbd⟩ := hcombine hcombiner
      simp [hmoves, hcombiner, hq, hc, hgreen, hblue, required, bind, Except.bind, pure,
        Except.pure, DrainedSubjects.targets, DrainTarget.consumer, hgd, hbd]
    · simp [hmoves, hcombiner, bind, Except.bind, pure, Except.pure]

end Targets

/-! ### The drains and the status -/

section Status

variable {input : Bool} {temp : List String} {looked : Option RuntimeMode}
  {counted : List (String × String)} {x : SubjectMemory} (state : WorkerState Config)
  (hjet : state.config.mode.isCore = false)
  (hapart : Apart (drainTargets state.roles state.config))
include hjet hapart

theorem does_drainInputSubjects (hx : Calm looked counted x) :
    Does input temp (drainTargets state.roles state.config)
      (fun _ x' => Calm looked counted x' ∧ (movesInputSubjects state.roles = true →
        ∃ q, inputDrainTargets state.roles state.config = .ok q))
      (Calm looked counted) (drainInputSubjects state) x := by
  unfold drainInputSubjects
  by_cases hmoves : movesInputSubjects state.roles = true
  · simp only [hjet, hmoves, Bool.not_true, Bool.or_self, Bool.false_eq_true, if_false]
    refine Outside.Spec.ofExcept_bind (fun _ _ => hx) fun q hq => ?_
    refine Outside.Spec.bind (settles_connect looked counted x hx) fun _ x₁ hx₁ => ?_
    refine (Outside.Spec.forEach (P := Calm looked counted) hx₁ fun target htarget x₂ hx₂ => ?_).mono
      (fun _ _ h => ⟨h, fun _ => ⟨q, hq⟩⟩) fun _ _ h => h
    -- the loop goes through the two targets of the input block
    have ht : ⟨target.1, target.2, q.base⟩ ∈ drainTargets state.roles state.config := by
      refine mem_drainTargets_of_input hmoves hq ?_
      simp only [List.mem_cons, List.not_mem_nil, or_false] at htarget
      rcases htarget with rfl | rfl <;> simp [DrainedSubjects.targets]
    exact Outside.Spec.bind (does_moveSubjectMessages hapart ht 10000 hx₂) fun _ x₃ hx₃ => hx₃
  · simp only [hmoves, Bool.not_false, Bool.or_true, if_true]
    exact ⟨hx, fun h => by cases h⟩

theorem does_drainOutputSubjects (hx : Calm looked counted x) :
    Does input temp (drainTargets state.roles state.config)
      (fun _ x' => Calm looked counted x' ∧ (hasRole state.roles .combiner = true →
        ∃ q, outputDrainTargets state.config = .ok q))
      (Calm looked counted) (drainOutputSubjects state) x := by
  unfold drainOutputSubjects
  by_cases hcombiner : hasRole state.roles .combiner = true
  · simp only [hjet, hcombiner, Bool.not_true, Bool.or_self, Bool.false_eq_true, if_false]
    refine Outside.Spec.ofExcept_bind (fun _ _ => hx) fun q hq => ?_
    obtain ⟨-, -, -, -, -, hgreen, hblue⟩ := outputDrainTargets_eq_ok hq
    have hg : ⟨q.green, q.greenDurable, q.base⟩ ∈ drainTargets state.roles state.config :=
      mem_drainTargets_of_output hcombiner hq (by simp [DrainedSubjects.targets])
    have hb : ⟨q.blue, q.blueDurable, q.base⟩ ∈ drainTargets state.roles state.config :=
      mem_drainTargets_of_output hcombiner hq (by simp [DrainedSubjects.targets])
    refine Outside.Spec.bind (settles_drainOutputSubject hapart hg hgreen looked counted x hx)
      fun _ x₁ hx₁ => ?_
    exact (settles_drainOutputSubject hapart hb hblue looked counted x₁ hx₁).mono
      (fun _ _ h => ⟨h, fun _ => ⟨q, hq⟩⟩) fun _ _ h => h
  · simp only [hcombiner, Bool.not_false, Bool.or_true, if_true]
    exact ⟨hx, fun h => by cases h⟩

omit hjet hapart in
/-- The sums are zero when every backlog is, and each of these is then counted. -/
theorem does_addBacklogs (consumers : List (String × String)) (sums : Nat × Nat) :
    ∀ x : SubjectMemory, Does input temp (drainTargets state.roles state.config)
      (fun total x' => x'.looked = x.looked ∧ (∀ c ∈ x.counted, c ∈ x'.counted) ∧
        (total = (0, 0) → sums = (0, 0) ∧ ∀ c ∈ consumers, c ∈ x'.counted))
      (fun _ => True)
      (Prog.foldEach consumers sums fun sums target => do
        let backlog ← SubjectOp.consumerBacklog target.1 target.2
        pure (sums.1 + backlog.pending, sums.2 + backlog.ackPending)) x := by
  induction consumers generalizing sums with
  | nil => exact fun x => ⟨rfl, fun _ h => h, fun h => ⟨h, by simp⟩⟩
  | cons target consumers ih =>
    intro x
    -- one look at a backlog
    have hone : Does input temp (drainTargets state.roles state.config)
        (fun after x' => x'.looked = x.looked ∧ (∀ c ∈ x.counted, c ∈ x'.counted) ∧
          (after = (0, 0) → sums = (0, 0) ∧ target ∈ x'.counted)) (fun _ => True)
        (do
          let backlog ← SubjectOp.consumerBacklog target.1 target.2
          pure (sums.1 + backlog.pending, sums.2 + backlog.ackPending)) x := by
      refine does_call trivial fun w o => ?_
      simp only [SubjectWorld.serve]
      cases o.call with
      | ok =>
        show _ ∧ _ ∧ _
        by_cases hzero : w.log.pending target.1 target.2 + w.log.ackPending target.1 target.2 = 0
        · rw [if_pos ⟨rfl, hzero⟩]
          refine ⟨rfl, fun c hc => List.mem_cons_of_mem _ hc, fun h => ⟨?_, List.mem_cons_self⟩⟩
          obtain ⟨h1, h2⟩ := Prod.mk.inj h
          exact Prod.ext (by simp; omega) (by simp; omega)
        · rw [if_neg fun h => hzero h.2]
          refine ⟨rfl, fun c hc => hc, fun h => ?_⟩
          obtain ⟨h1, h2⟩ := Prod.mk.inj h
          simp only at h1 h2
          omega
      | refused => trivial
      | lost => trivial
    refine Outside.Spec.bind hone fun after x₁ hx₁ => ?_
    refine (ih after x₁).mono (fun total x₂ hx₂ => ?_) fun _ _ h => h
    obtain ⟨hlooked, hkeep, htotal⟩ := hx₂
    refine ⟨hlooked.trans hx₁.1, fun c hc => hkeep c (hx₁.2.1 c hc), fun hzero => ?_⟩
    obtain ⟨hafter, hrest⟩ := htotal hzero
    obtain ⟨hsums, htarget⟩ := hx₁.2.2 hafter
    refine ⟨hsums, fun c hc => ?_⟩
    rcases List.mem_cons.mp hc with rfl | hc
    · exact hkeep c htarget
    · exact hrest c hc

/-- **A status** that says drained has looked at all targets, where it was asked for in a drain. -/
theorem does_computeDrainStatus {worker : Option QueueWorkerRole}
    (hroles : queueWorkerRole state.roles = .ok worker) (hx : Calm looked [] x) :
    Does input (temporarySubjects state.roles state.config)
      (drainTargets state.roles state.config)
      (fun status x' => SubjectMay input (temporarySubjects state.roles state.config)
        (drainTargets state.roles state.config) x' (.respond status))
      (fun _ => True) (computeDrainStatus state) x := by
  unfold computeDrainStatus
  rw [if_neg (by simp [hjet])]
  have hmode : Does input (temporarySubjects state.roles state.config)
      (drainTargets state.roles state.config) (fun mode => Calm (some mode) []) (Calm looked [])
      SubjectOp.mode x := does_mode hx
  refine Outside.Spec.bind (hmode.mono (fun _ _ h => h) fun _ _ _ => trivial) fun mode x₁ hx₁ => ?_
  -- both drains come first, where the inceptor is draining
  have hdrains : Does input (temporarySubjects state.roles state.config)
      (drainTargets state.roles state.config)
      (fun _ x' => Calm (some mode) [] x' ∧
        (mode = .draining → Complete state.roles state.config)) (fun _ => True)
      (if mode = .draining then do
        drainInputSubjects state
        drainOutputSubjects state
      else pure ()) x₁ := by
    by_cases hdraining : mode = .draining
    · rw [if_pos hdraining]
      refine Outside.Spec.bind ((does_drainInputSubjects state hjet hapart hx₁).mono
        (fun _ _ h => h) fun _ _ _ => trivial) fun _ x₂ hx₂ => ?_
      refine (does_drainOutputSubjects state hjet hapart hx₂.1).mono
        (fun _ x₃ hx₃ => ⟨hx₃.1, fun _ => ⟨hx₂.2, hx₃.2⟩⟩) fun _ _ _ => trivial
    · rw [if_neg hdraining]
      exact ⟨hx₁, fun h => absurd h hdraining⟩
  refine Outside.Spec.bind hdrains fun _ x₂ hx₂ => ?_
  refine Outside.Spec.bind ((settles_connect _ _ x₂ hx₂.1).mono (fun _ _ h => h)
    fun _ _ _ => trivial) fun _ x₃ hx₃ => ?_
  refine Outside.Spec.ofExcept_bind (fun _ _ => trivial) fun consumers hconsumers => ?_
  refine Outside.Spec.bind (does_addBacklogs state consumers (0, 0) x₃) fun total x₄ hx₄ => ?_
  intro hasked hdrained
  have hcomplete : Complete state.roles state.config := by
    refine hx₂.2 ?_
    have hlooked : some mode = some RuntimeMode.draining := by
      rw [← hx₃.1, ← hx₄.1]
      exact hasked
    exact Option.some.inj hlooked
  rw [hcomplete.backlogs] at hconsumers
  cases hconsumers
  have hzero : total = (0, 0) := by
    simp only [subjectDrainStatus, decide_eq_true_eq] at hdrained
    exact Prod.ext hdrained.1 hdrained.2
  refine ⟨fun t ht => ?_, hcomplete.covers hroles⟩
  exact (hx₄.2.2 hzero).2 _ (List.mem_map_of_mem ht)

end Status

/-! ### The workers -/

section Workers

variable {temp : List String} {looked : Option RuntimeMode} {counted : List (String × String)}
  {x : SubjectMemory} (state : WorkerState Config) (hjet : state.config.mode.isCore = false)

/-- The call publishes only where the roles move input. -/
def PublishesInput (roles : List PluginRole) (c : WorkCall) : Prop :=
  ∀ target message, c = .publish target message → movesInputSubjects roles = true

theorem Requests.publishesInput {roles : List PluginRole} {c : WorkCall} (h : Rabbitmq.Requests c) :
    PublishesInput roles c := by
  rintro target message rfl
  exact h.elim

theorem publishesInput_forwardInput (roles : List PluginRole) (duplicator splitter : Option TempPair)
    (sendToBlue : Bool) (message : Message) :
    (forwardInput roles duplicator splitter sendToBlue message).Calls (PublishesInput roles) := by
  by_cases hmoves : movesInputSubjects roles = true
  · exact (Prog.Calls.any _).mono fun c _ target message _ => hmoves
  · have hnone : hasRole roles .duplicator = false ∧ hasRole roles .splitter = false := by
      simpa [movesInputSubjects] using hmoves
    unfold forwardInput
    simp only [hnone.1, hnone.2, Bool.false_eq_true, if_false]
    trivial

include hjet

theorem publishesInput_processInputMessage (message : Message) :
    (processInputMessage state message).Calls (PublishesInput state.roles) := by
  unfold processInputMessage processInputPayload
  simp only [hjet, Bool.false_eq_true, if_false]
  refine Prog.Calls.bind (Prog.Calls.bind (publishesInput_forwardInput _ _ _ _ _) fun route => ?_)
    fun _ => ?_
  · exact (Rabbitmq.requests_report _ _ _ _ _).mono fun c hc => Requests.publishesInput hc
  · refine Prog.Calls.bind (Prog.Calls.of_ask.mpr ?_) fun r => Prog.Calls.of_ofExcept r
    rintro target message h
    cases h

/-- **An input worker** deals with a message that is in no temporary subject. -/
theorem does_processInputMessage {targets : List DrainTarget} (message : Message)
    {subject : String} (hother : ∀ t ∈ targets, t.subject ≠ subject)
    (hx : Fetched (some .active) counted subject [] x) :
    Does (movesInputSubjects state.roles) temp targets
      (fun _ => Busy (some .active) counted) (Busy (some .active) counted)
      (SubjectOp.work (processInputMessage state message)) x := by
  have hcalls : (SubjectOp.work (processInputMessage state message)).Calls
      fun c => ∃ work, c = .work work ∧ PublishesInput state.roles work :=
    Prog.Calls.lift ((publishesInput_processInputMessage state hjet message).mono
      fun work hwork => ⟨work, rfl, hwork⟩)
  refine (Outside.Spec.of_calls (P := fun y => Busy (some .active) counted y ∧
      ∃ hand, y.hand = some hand ∧ hand.subject = subject) hcalls
    (fun _ _ _ hm => False.elim hm) ?_ trivial ?_ ?_).mono (fun _ _ h => h.1.1) fun _ _ h => h.1.1
  · obtain ⟨hlooked, hcounted, hand, hhand, hsubject, -⟩ := hx
    exact ⟨⟨hlooked, hcounted⟩, hand, hhand, hsubject⟩
  · rintro y c ⟨work, rfl, hwork⟩ - ⟨hy, hand, hhand, hsubject⟩
    cases work with
    | publish target body =>
      refine ⟨hand, hhand, .inl ⟨hwork target body rfl, hy.1, fun t ht => ?_⟩⟩
      rw [hsubject]
      exact hother t ht
    | ack =>
      intro hand' hhand' t ht hsame
      rw [hhand] at hhand'
      cases hhand'
      exact absurd (hsame.trans hsubject) (hother t ht)
    | _ => trivial
  · rintro y c a y' ⟨work, rfl, hwork⟩ - ⟨hy, hand, hhand, hsubject⟩ ⟨w, o, w', hserve⟩
    refine ⟨trivial, ?_⟩
    have hy' : y' = (w.serve y o (.work work)).2.2 := by rw [Option.some.inj hserve]
    rw [hy']
    cases work with
    | publish target body =>
      simp only [SubjectWorld.serve, serveSubjectWork]
      split
      · exact ⟨hy, hand, hhand, hsubject⟩
      · exact ⟨hy, { hand with sent := target :: hand.sent }, by simp [SubjectMemory.publish, hhand],
          hsubject⟩
    | ack =>
      simp only [SubjectWorld.serve, serveSubjectWork]
      split <;> exact ⟨hy, hand, hhand, hsubject⟩
    | _ => exact ⟨hy, hand, hhand, hsubject⟩

variable (hapart : Apart (drainTargets state.roles state.config))
include hapart

theorem does_runInputPipeline (hroles : queueWorkerRole state.roles = .ok (some .input))
    (hx : Calm looked [] x) :
    Does (movesInputSubjects state.roles) temp (drainTargets state.roles state.config)
      (fun _ _ => True) (fun _ => True) (runInputPipeline state) x := by
  refine Outside.Spec.ofExcept_bind (fun _ _ => trivial) fun subject hsubject => ?_
  have hother := subject_ne_of_source hroles hapart hsubject
  refine Outside.Spec.bind ((does_mode hx).mono (fun _ _ h => h) fun _ _ _ => trivial)
    fun mode x₁ hx₁ => ?_
  cases mode with
  | idle => trivial
  | draining =>
    refine Outside.Spec.bind (R := fun _ _ => True) (Outside.Spec.result
      ((does_drainInputSubjects state hjet hapart hx₁).mono (fun _ _ _ => trivial)
        fun _ _ _ => trivial)) fun _ _ _ => trivial
  | active =>
    refine Outside.Spec.ofExcept_bind (fun _ _ => trivial) fun source hsource => ?_
    have hfetch : Does (movesInputSubjects state.roles) temp (drainTargets state.roles state.config)
        (fun message y => (message = none → Calm (some .active) [] y) ∧
          ∀ m, message = some m → Fetched (some .active) [] subject [] y)
        (Calm (some .active) [])
        (SubjectOp.fetch (sourcePolicy state.roles source) subject source.name) x₁ :=
      does_fetch (fun t ht h => absurd h (hother t ht)) hx₁
    refine Outside.Spec.bind (R := fun r y => ∀ m, r = .ok (some m) →
      Fetched (some .active) [] subject [] y) (Outside.Spec.result
        (hfetch.mono (fun m y hy m' heq => ?_) fun _ y _ m' heq => ?_)) fun r y hy => ?_
    · cases heq
      exact hy.2 m' rfl
    · cases heq
    · cases r with
      | error e => trivial
      | ok message =>
        cases message with
        | none => trivial
        | some message =>
          exact Outside.Spec.bind (R := fun _ _ => True) (Outside.Spec.result
            ((does_holding (does_processInputMessage state hjet message hother
              (hy message rfl))).mono (fun _ _ _ => trivial) fun _ _ _ => trivial))
            fun _ _ _ => trivial

theorem does_runCombineLoop {input : Bool} {t : DrainTarget}
    (ht : t ∈ drainTargets state.roles state.config)
    (hdurable : t.durable = combinerDurable t.subject) (hx : Calm looked [] x) :
    Does input temp (drainTargets state.roles state.config) (fun _ _ => True) (fun _ => True)
      (runCombineLoop state t.subject t.base) x := by
  refine Outside.Spec.bind ((does_mode hx).mono (fun _ _ h => h) fun _ _ _ => trivial)
    fun mode x₁ hx₁ => ?_
  cases mode with
  | idle => trivial
  | _ =>
    -- an active and a draining combiner run the same turn, and look again
    refine Outside.Spec.bind ((settles_connect _ _ x₁ hx₁).mono (fun _ _ h => h)
      fun _ _ _ => trivial) fun _ x₂ hx₂ => ?_
    refine Outside.Spec.bind ((does_mode hx₂).mono (fun _ _ h => h) fun _ _ _ => trivial)
      fun mode x₃ hx₃ => ?_
    by_cases hdraining : mode = .draining
    · rw [if_pos hdraining]
      exact (settles_drainOutputSubject hapart ht hdurable _ _ x₃ hx₃).mono (fun _ _ _ => trivial)
        fun _ _ _ => trivial
    · rw [if_neg hdraining]
      have hfetch : Does input temp (drainTargets state.roles state.config)
          (fun message y => (message = none → Calm (some mode) [] y) ∧
            ∀ m, message = some m → Fetched (some mode) [] t.subject [] y)
          (Calm (some mode) [])
          (SubjectOp.fetch .all t.subject (durableName "combiner" t.subject)) x₃ :=
        does_fetch (fun u hu h => (durable_of_subject hapart ht hu h).trans hdurable) hx₃
      refine Outside.Spec.bind (R := fun r y => ∀ m, r = .ok (some m) →
        Fetched (some mode) [] t.subject [] y) (Outside.Spec.result
          (hfetch.mono (fun m y hy m' heq => ?_) fun _ y _ m' heq => ?_)) fun r y hy => ?_
      · cases heq
        exact hy.2 m' rfl
      · cases heq
      · cases r with
        | error e => trivial
        | ok message =>
          cases message with
          | none => trivial
          | some message =>
            exact (does_holding (does_processOutputMessage hapart ht state hjet message
              (hy message rfl))).mono (fun _ _ _ => trivial) fun _ _ _ => trivial

theorem does_subjectProgram {worker : Option QueueWorkerRole}
    (hroles : queueWorkerRole state.roles = .ok worker) (job : SubjectJob) :
    Does (movesInputSubjects state.roles) (temporarySubjects state.roles state.config)
      (drainTargets state.roles state.config) (fun _ _ => True) (fun _ => True)
      (subjectProgram state worker job) .start := by
  have hstart : Calm none [] SubjectMemory.start := ⟨rfl, rfl, rfl⟩
  cases job with
  | input trafficPercent =>
    simp only [subjectProgram]
    by_cases hworker : worker = some .input
    · rw [if_pos hworker]
      rw [hworker] at hroles
      exact does_runInputPipeline { state with trafficPercent := trafficPercent } hjet hapart
        hroles hstart
    · rw [if_neg hworker]
      trivial
  | combine blue =>
    simp only [subjectProgram]
    by_cases hworker : worker = some .combiner
    · rw [if_pos hworker]
      have hcombiner := (roles_of_worker hroles).2.2.2 hworker
      refine Outside.Spec.ofExcept_bind (fun _ _ => trivial) fun q hq => ?_
      obtain ⟨-, -, -, -, -, hgreen, hblue⟩ := outputDrainTargets_eq_ok hq
      have hg : ⟨q.green, q.greenDurable, q.base⟩ ∈ drainTargets state.roles state.config :=
        mem_drainTargets_of_output hcombiner hq (by simp [DrainedSubjects.targets])
      have hb : ⟨q.blue, q.blueDurable, q.base⟩ ∈ drainTargets state.roles state.config :=
        mem_drainTargets_of_output hcombiner hq (by simp [DrainedSubjects.targets])
      cases blue with
      | true =>
        exact does_runCombineLoop (t := ⟨q.blue, q.blueDurable, q.base⟩) state hjet hapart hb hblue
          hstart
      | false =>
        exact does_runCombineLoop (t := ⟨q.green, q.greenDurable, q.base⟩) state hjet hapart hg
          hgreen hstart
    · rw [if_neg hworker]
      trivial
  | drain => exact does_call trivial fun w o => trivial
  | status =>
    refine Outside.Spec.bind (does_computeDrainStatus state hjet hapart hroles hstart)
      fun status x' hstatus => ?_
    exact does_call hstatus fun w o => trivial

/-- **Every thread of an inceptor** keeps to where it may make which call. -/
theorem follows_subjectJobs (job : SubjectJob) :
    Pool.Follows subjectProcess (SubjectMay (movesInputSubjects state.roles)
      (temporarySubjects state.roles state.config) (drainTargets state.roles state.config))
      (fun _ _ => True) (subjectJobs state job).prog (subjectJobs state job).memory := by
  cases hroles : queueWorkerRole state.roles with
  | error e =>
    simp only [subjectJobs, hroles]
    trivial
  | ok worker =>
    simp only [subjectJobs, hroles]
    exact does_subjectProgram state hjet hapart hroles job

end Workers

/-! ## Drained -/

/-- **The account of the drain.** Once a status call that found the inceptor draining has answered
that it is drained, an application has acknowledged every message of the temporary subjects or it
was published to its base; no input worker holds a message that it is going to publish; and nothing
was published to a base that an application had acknowledged before. This holds in every run whose
steps keep the account. -/
theorem drained_accounts_for_all (state : WorkerState Config)
    (hjet : state.config.mode.isCore = false)
    (hapart : Apart (drainTargets state.roles state.config))
    (messages : List (String × Message)) (mode : RuntimeMode)
    {s : Pool SubjectCall SubjectAnswer Unit SubjectMemory SubjectWorld}
    (r : Pool.Run subjectProcess (subjectJobs state)
      (account (movesInputSubjects state.roles) (drainTargets state.roles state.config))
      ⟨.start messages mode, []⟩ s)
    (hdrained : s.world.drained = true) :
    (∀ subject ∈ temporarySubjects state.roles state.config, ∃ t ∈ drainTargets state.roles
        state.config, t.subject = subject ∧
      (∀ i, s.world.IsOf i t → i ∈ s.world.acknowledged ∨ s.world.Republished i t.base) ∧
      (movesInputSubjects state.roles = true → ∀ u ∈ s.threads, ¬ Holds u.memory)) ∧
    ∀ p ∈ s.world.published, ∀ t ∈ drainTargets state.roles state.config,
      s.world.IsOf p.entry t → p.target = t.base → p.late = false := by
  have hstart : Counted (movesInputSubjects state.roles)
      (temporarySubjects state.roles state.config) (drainTargets state.roles state.config)
      (.start messages mode) [] := by
    constructor <;> simp [SubjectWorld.start, Covered]
  have hmemory : ∀ job, (subjectJobs state job).memory = .start := fun _ => rfl
  have hcounted := (Pool.Run.keeps (counted_keeps hapart _ hmemory)
    (follows_subjectJobs state hjet hapart) hstart r).1
  have haccounted := (Pool.Run.keeps (accounted_keeps _ hmemory)
    (follows_subjectJobs state hjet hapart) (accounted_start messages mode) r).1
  constructor
  · intro subject hsubject
    obtain ⟨t, ht, hsame⟩ := (hcounted.drained hdrained).2 subject hsubject
    obtain ⟨hidle, hsettled⟩ := hcounted.covered t ht (.inl hdrained)
    refine ⟨t, ht, hsame, fun i hi => ?_, fun hmoves u hu => ?_⟩
    · obtain ⟨e, he, hof⟩ := hi
      exact haccounted.justified i e he t ht hof.symm (hsettled i e he hof)
    · exact hidle hmoves u.memory (List.mem_map_of_mem hu)
  · intro p hp t ht hof htarget
    obtain ⟨e, he, hlate⟩ := haccounted.ontime p hp
    obtain ⟨e', he', hsubject⟩ := hof
    rw [he] at he'
    cases he'
    exact hlate t ht hsubject.symm htarget.symm

section Runs

variable (input : Bool) (targets : List DrainTarget)

instance (others : List SubjectMemory) (x : SubjectMemory) (w : SubjectWorld) :
    (c : SubjectCall) → (o : SubjectOutcome) →
      Decidable ((account input targets).call others x w c o)
  | .backlog _ _, _ =>
    inferInstanceAs (Decidable (x.Asked → input = true → ∀ y ∈ others, ¬ Holds y))
  | .fetch _ _ _, o => inferInstanceAs (Decidable (input = true → x.looked = some .active →
      o.call = .ok → o.pick ≠ none → w.drained = false ∧ ∀ y ∈ others, y.Asked → y.counted = []))
  | .mode, _ => .isTrue trivial
  | .setDraining, _ => .isTrue trivial
  | .connect, _ => .isTrue trivial
  | .drop, _ => .isTrue trivial
  | .work _, _ => .isTrue trivial
  | .respond _, _ => .isTrue trivial

instance (all : List SubjectMemory) (w : SubjectWorld) : (v : SubjectMove) →
    Decidable ((account input targets).move all w v)
  | .store subject _ =>
    inferInstanceAs (Decidable (∀ t ∈ targets, t.subject = subject → ¬ Covered w all t))
  | .handOut _ _ => .isTrue trivial
  | .acknowledge i queueGroup => inferInstanceAs (Decidable (∀ t ∈ targets, w.IsOf i t →
      queueGroupDurable queueGroup t.subject = t.durable ∧ ∀ x ∈ all, ¬ HoldsBack x i t.base))
  | .discard i => inferInstanceAs (Decidable (∀ t ∈ targets, w.IsOf i t →
      i ∈ w.acknowledged ∨ w.Republished i t.base))

end Runs

/-! ### Runs of an inceptor -/

namespace Runs

/-- A splitter of the subject `orders`, with or without queue groups. -/
def splitter (green blue : Option String) : WorkerState Config where
  crates := FluidBG.Sample.workerCrates
  config := {
    mode := .jetStream
    stream := .empty
    duplicator := none
    splitter := some {
      inputSubject := some "orders"
      queueGroup := none
      greenInputSubject := some "fluidbg-green-in"
      blueInputSubject := some "fluidbg-blue-in"
      greenInputSubjectEnvVar := some "INPUT_SUBJECT"
      blueInputSubjectEnvVar := some "INPUT_SUBJECT"
      greenQueueGroup := green
      blueQueueGroup := blue
      greenQueueGroupEnvVar := some "QUEUE_GROUP"
      blueQueueGroupEnvVar := some "QUEUE_GROUP"
      temporarySubjectIdentifier := none }
    combiner := none
    writer := none
    consumer := none
    observer := none }
  roles := [.splitter]
  trafficPercent := 0
  runtime := FluidBG.Sample.workerRuntime

/-- Calls of the thread succeed; a fetch is answered with the message, if there is one. -/
def answers (i : Nat) (pick : Option Nat) (n : Nat) :
    List (Pool.Event SubjectJob SubjectOutcome SubjectMove) :=
  List.replicate n (.answer i ⟨.ok, pick, some 200, 0⟩)

/-- The application of green consumes its message. -/
def consumes (i : Nat) (queueGroup : String) :
    List (Pool.Event SubjectJob SubjectOutcome SubjectMove) :=
  [.move (.handOut i queueGroup), .move (.acknowledge i queueGroup)]

/-- A status call of a drain that finds these messages in green, one after the other. -/
def statusCall (i : Nat) (picks : List Nat) :
    List (Pool.Event SubjectJob SubjectOutcome SubjectMove) :=
  [.start .status] ++ answers i none 2 ++ picks.flatMap (fun pick => answers i (some pick) 4) ++
    answers i none 6

/-- The application is done with the message when the drain begins. -/
def done : List (Pool.Event SubjectJob SubjectOutcome SubjectMove) :=
  consumes 0 "shop" ++ [.start .drain] ++ answers 0 none 1 ++ statusCall 1 [0]

/-- A worker fetches a message before the drain, and publishes it after the status call. -/
def late : List (Pool.Event SubjectJob SubjectOutcome SubjectMove) :=
  [.start (.input 0)] ++ answers 0 (some 0) 2 ++ [.start .drain] ++ answers 1 none 1 ++
    statusCall 2 [] ++ answers 0 none 1

/-- One message of green is consumed, the other is moved back. -/
def orderly : List (Pool.Event SubjectJob SubjectOutcome SubjectMove) :=
  consumes 0 "shop-green" ++ [.start .drain] ++ answers 0 none 1 ++ statusCall 1 [1]

end Runs

def drainHandsBackWhatIsDoneDone :
    PLift ((Pool.run Watch.top subjectProcess (subjectJobs (Runs.splitter none none))
      ⟨.start [("fluidbg-green-in", FluidBG.Sample.order)] .active, []⟩ Runs.done).map
        (fun s => (s.world.drained, s.world.published)) = some (true, [⟨0, "orders", true⟩])) :=
  ⟨by decide +kernel⟩

def drainHandsBackWhatIsDoneLate : PLift ((Pool.run Watch.top subjectProcess
      (subjectJobs (Runs.splitter (some "shop-green") (some "shop-blue")))
      ⟨.start [("orders", FluidBG.Sample.order)] .active, []⟩ Runs.late).map
        (fun s => (s.world.drained, s.world.log.entries.map (·.subject), s.world.acknowledged)) =
      some (true, ["orders", "fluidbg-green-in"], [])) :=
  ⟨by decide +kernel⟩

/-- **What the drain gets wrong.** Without a queue group it looks at a durable of its own, and hands
back what the application is done with; and a message that was fetched before the drain is published
after the status call has answered that all is drained. -/
theorem drain_hands_back_what_is_done :
    (∃ s, Pool.Run subjectProcess (subjectJobs (Runs.splitter none none)) Watch.top
        ⟨.start [("fluidbg-green-in", FluidBG.Sample.order)] .active, []⟩ s ∧
      (s.world.drained, s.world.published) = (true, [⟨0, "orders", true⟩])) ∧
    ∃ s, Pool.Run subjectProcess (subjectJobs (Runs.splitter (some "shop-green") (some "shop-blue")))
        Watch.top ⟨.start [("orders", FluidBG.Sample.order)] .active, []⟩ s ∧
      (s.world.drained, s.world.log.entries.map (·.subject), s.world.acknowledged) =
        (true, ["orders", "fluidbg-green-in"], []) := by
  have hdone := drainHandsBackWhatIsDoneDone.down
  have hlate := drainHandsBackWhatIsDoneLate.down
  exact ⟨Pool.Run.exists_of_run hdone, Pool.Run.exists_of_run hlate⟩

def drainedAccountsForSplitterRun : PLift ((Pool.run (account (movesInputSubjects [.splitter])
        (drainTargets [.splitter] (Runs.splitter (some "shop-green") (some "shop-blue")).config))
      subjectProcess (subjectJobs (Runs.splitter (some "shop-green") (some "shop-blue")))
      ⟨.start [("fluidbg-green-in", FluidBG.Sample.order),
        ("fluidbg-green-in", FluidBG.Sample.order)] .active, []⟩ Runs.orderly).map
        (fun s => (s.world.drained, s.world.acknowledged, s.world.published)) =
      some (true, [0], [⟨1, "orders", false⟩])) :=
  ⟨by decide +kernel⟩

/-- Of two messages of green one is consumed and the other is moved back. -/
theorem drained_accounts_for_splitter :
    ∃ s : Pool SubjectCall SubjectAnswer Unit SubjectMemory SubjectWorld,
      (s.world.drained = true ∧ s.world.acknowledged = [0] ∧
        s.world.published = [⟨1, "orders", false⟩]) ∧
      (∀ subject ∈ temporarySubjects [.splitter]
          (Runs.splitter (some "shop-green") (some "shop-blue")).config,
        ∃ t ∈ drainTargets [.splitter] (Runs.splitter (some "shop-green") (some "shop-blue")).config,
          t.subject = subject ∧
        (∀ i, s.world.IsOf i t → i ∈ s.world.acknowledged ∨ s.world.Republished i t.base) ∧
        (movesInputSubjects [.splitter] = true → ∀ u ∈ s.threads, ¬ Holds u.memory)) ∧
      ∀ p ∈ s.world.published,
        ∀ t ∈ drainTargets [.splitter] (Runs.splitter (some "shop-green") (some "shop-blue")).config,
          s.world.IsOf p.entry t → p.target = t.base → p.late = false := by
  have h := drainedAccountsForSplitterRun.down
  obtain ⟨s, r, hs⟩ := Pool.Run.exists_of_run h
  obtain ⟨hdrained, hacknowledged, hpublished⟩ : s.world.drained = true ∧
      s.world.acknowledged = [0] ∧ s.world.published = [⟨1, "orders", false⟩] := by
    simpa only [Prod.mk.injEq] using hs
  exact ⟨s, ⟨hdrained, hacknowledged, hpublished⟩,
    drained_accounts_for_all (Runs.splitter (some "shop-green") (some "shop-blue")) rfl
      (by decide +kernel) _ _ r hdrained⟩

end FluidBG.Nats
