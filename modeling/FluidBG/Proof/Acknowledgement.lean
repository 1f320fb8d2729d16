import FluidBG.Plugins.Sample
import FluidBG.Plugins.Worker
import FluidBG.Lib.Trace
/-!
# What an acknowledgement stands for

A worker takes a message off its source by acknowledging it. The record of its calls tells what has
been done for the message by then. Between the publishing and the acknowledgement stands the
observer, whose failures the workers only log; so an acknowledgement stands for everything a message
is due exactly where nothing of that kind can fail unnoticed.
-/

set_option autoImplicit false

namespace FluidBG

open Lib

/-! ## The record of the calls -/

inductive PublishOutcome where
  | delivered
  | refused
  /-- Nothing confirms that the broker has the message, and it has not. -/
  | dropped
  deriving DecidableEq

/-- How the next call ends, whichever it is. -/
structure WorkOutcome where
  publish : PublishOutcome
  notify : Option Nat
  register : Option Nat
  ack : Bool
  requeue : Bool
  now : Timestamp

/-- The request was answered, and not with an error. -/
def accepted (answer : Option Nat) : Bool := answer.any fun status => !isErrorStatus status

/-- A call, and whether it did what it is for. -/
structure WorkEntry where
  call : WorkCall
  done : Bool

def WorkOutcome.does (o : WorkOutcome) : WorkCall → Bool
  | .publish _ _ => o.publish = .delivered
  | .now => true
  | .notify _ _ _ => accepted o.notify
  | .register _ _ _ => accepted o.register
  | .ack => o.ack
  | .requeue => o.requeue

def WorkOutcome.answer (o : WorkOutcome) : (c : WorkCall) → WorkAnswer c
  | .publish _ _ => if o.publish = .refused then .error () else .ok ()
  | .now => o.now
  | .notify _ _ _ => o.notify
  | .register _ _ _ => o.register
  | .ack => if o.ack then .ok () else .error ()
  | .requeue => if o.requeue then .ok () else .error ()

/-- The services around a worker, seen as the record of its calls. -/
def line : Machine WorkCall WorkAnswer (List WorkEntry) WorkOutcome Unit where
  serve log c o := some (o.answer c, log ++ [⟨c, o.does c⟩])
  move _ _ := none
  halt log := log

/-- What may go wrong around a worker. -/
structure Hazards where
  verifierFails : Bool
  registryFails : Bool
  /-- A message may be lost after it was sent, where the plugin does not wait for a confirmation. -/
  drops : Bool

def Hazards.guard (hazards : Hazards) (confirms : Bool) :
    Guard WorkCall (List WorkEntry) WorkOutcome Unit where
  call _ c o := match c with
    | .publish _ _ => o.publish = .dropped → hazards.drops = true ∧ confirms = false
    | .notify _ _ _ => hazards.verifierFails = true ∨ accepted o.notify = true
    | .register _ _ _ => hazards.registryFails = true ∨ accepted o.register = true
    | _ => True
  move _ _ := False

/-! ## What a message is due -/

structure Due where
  message : Message
  /-- The queues or subjects the role publishes to; a name may be missing. -/
  targets : List (Option String)
  observed : Option (ObserverConfig × String)
  route : TrafficRoute

def Published (due : Due) (target : String) (log : List WorkEntry) : Prop :=
  ⟨.publish target due.message, true⟩ ∈ log

def Notified (log : List WorkEntry) : Prop :=
  ∃ url notification authToken, ⟨.notify url notification authToken, true⟩ ∈ log

def Registered (log : List WorkEntry) : Prop :=
  ∃ url request authToken, ⟨.register url request authToken, true⟩ ∈ log

/-- Everything is done for the message. -/
structure Due.Met (due : Due) (log : List WorkEntry) : Prop where
  published : ∀ target ∈ due.targets, ∃ name, target = some name ∧ Published due name log
  complete : ∀ target, ⟨.publish target due.message, false⟩ ∉ log
  notified : due.observed.isSome → Notified log
  registered : due.observed.isSome → due.route.shouldRegisterCase → Registered log

/-- A message is acknowledged only when everything is done for it, and a case registered only after
its notification. -/
def Due.contract (due : Due) : Contract WorkCall (List WorkEntry) where
  inv _ := True
  may log c := match c with
    | .ack => due.Met log
    | .register _ _ _ => Notified log
    | _ => True

/-- Nothing a message is due can fail unnoticed. -/
structure Due.Safe (due : Due) (hazards : Hazards) (confirms handsOn : Bool) : Prop where
  named : ∀ target ∈ due.targets, target.isSome
  confirmed : due.targets = [] ∨ confirms = true ∨ hazards.drops = false
  notifies : ∀ observer testId, due.observed = some (observer, testId) →
    observer.notifyPath.isSome ∧ hazards.verifierFails = false
  registers : due.observed.isSome → due.route.shouldRegisterCase →
    handsOn = true ∨ hazards.registryFails = false

/-! ## Requests with retries -/

theorem statusRound_of_accepted {answer : Option Nat} (h : accepted answer) :
    statusRound answer = .pure (some ()) := by
  cases answer with
  | none => simp [accepted] at h
  | some status =>
    have hstatus : isErrorStatus status = false := by simpa [accepted] using h
    simp only [statusRound]
    by_cases hsuccess : isSuccess status
    · rw [if_pos hsuccess]
    · have hretry : retryableStatus status = false := by
        simp only [isErrorStatus, isSuccess, retryableStatus, Bool.and_eq_false_iff,
          Bool.and_eq_true, decide_eq_true_eq, decide_eq_false_iff_not, Bool.or_eq_false_iff] at *
        omega
      rw [if_neg hsuccess, hretry, hstatus]
      rfl

/-- Any other answer ends the request or calls for another round. -/
theorem statusRound_of_not_accepted {answer : Option Nat} (h : ¬ accepted answer) :
    statusRound answer = .fail () ∨ statusRound answer = .pure none := by
  cases answer with
  | none => exact .inr rfl
  | some status =>
    have hstatus : isErrorStatus status = true := by simpa [accepted] using h
    have hsuccess : isSuccess status = false := by
      simp only [isErrorStatus, isSuccess, Bool.and_eq_false_iff, Bool.and_eq_true,
        decide_eq_true_eq, decide_eq_false_iff_not] at *
      omega
    simp only [statusRound, hsuccess, hstatus]
    cases retryableStatus status
    · exact .inl rfl
    · exact .inr rfl

section Steps

variable {hazards : Hazards} {confirms handsOn : Bool} {due : Due}

/-- The record has grown, and not by another publication. -/
def Extends (log log' : List WorkEntry) : Prop :=
  ∃ more, log' = log ++ more ∧ ∀ target message done, ⟨.publish target message, done⟩ ∉ more

namespace Extends

theorem refl (log : List WorkEntry) : Extends log log := ⟨[], by simp, by simp⟩

theorem snoc {log log' : List WorkEntry} {e : WorkEntry} (h : Extends log log')
    (he : ∀ target message done, e ≠ ⟨.publish target message, done⟩) :
    Extends log (log' ++ [e]) := by
  obtain ⟨more, rfl, hmore⟩ := h
  refine ⟨more ++ [e], by simp, fun target message done hmem => ?_⟩
  rcases List.mem_append.mp hmem with hmem | hmem
  · exact hmore target message done hmem
  · exact he target message done (List.mem_singleton.mp hmem).symm

theorem trans {log log' log'' : List WorkEntry} (h : Extends log log') (h' : Extends log' log'') :
    Extends log log'' := by
  obtain ⟨more, rfl, hmore⟩ := h
  obtain ⟨more', rfl, hmore'⟩ := h'
  refine ⟨more ++ more', by simp, fun target message done hmem => ?_⟩
  rcases List.mem_append.mp hmem with hmem | hmem
  · exact hmore target message done hmem
  · exact hmore' target message done hmem

theorem mem {log log' : List WorkEntry} (h : Extends log log') {e : WorkEntry} (he : e ∈ log) :
    e ∈ log' := by
  obtain ⟨more, rfl, _⟩ := h
  exact List.mem_append_left _ he

theorem mem_publish {log log' : List WorkEntry} (h : Extends log log') {target : String}
    {message : Message} {done : Bool} (he : ⟨.publish target message, done⟩ ∈ log') :
    ⟨.publish target message, done⟩ ∈ log := by
  obtain ⟨more, rfl, hmore⟩ := h
  exact (List.mem_append.mp he).resolve_right (hmore target message done)

theorem notified {log log' : List WorkEntry} (h : Extends log log') (hn : Notified log) :
    Notified log' := by
  obtain ⟨url, notification, authToken, hmem⟩ := hn
  exact ⟨url, notification, authToken, h.mem hmem⟩

end Extends

/-- **A request with retries** ends well when one answer is accepted, and otherwise has failed. -/
theorem retryStatusRequest_spec {K : Contract WorkCall (List WorkEntry)}
    {P D : List WorkEntry → Prop} {canFail : Prop} {request : WorkerOp (Option Nat)}
    {log : List WorkEntry} (hP : P log)
    (h : ∀ log, P log → (line.outside (hazards.guard confirms)).Spec K
      (fun answer log' => P log' ∧ (accepted answer → D log') ∧ (accepted answer ∨ canFail))
      (fun _ _ => False) request log) :
    (line.outside (hazards.guard confirms)).Spec K (fun _ log' => P log' ∧ D log')
      (fun _ log' => P log' ∧ canFail) (retryStatusRequest request) log := by
  by_cases hcan : canFail
  · refine Outside.Spec.retry hP (fun _ log hlog => ?_) fun log hlog => ⟨hlog, hcan⟩
    refine Outside.Spec.bind ((h log hlog).mono (fun _ _ h => h) fun _ _ hf => hf.elim)
      fun answer log' hlog' => ?_
    by_cases haccepted : accepted answer
    · rw [statusRound_of_accepted haccepted]
      exact ⟨hlog'.1, hlog'.2.1 haccepted⟩
    · rcases statusRound_of_not_accepted haccepted with heq | heq
      · rw [heq]
        exact ⟨hlog'.1, hcan⟩
      · rw [heq]
        exact hlog'.1
  · -- every answer is accepted, so the first round is the last
    refine Outside.Spec.retryWithin (by decide) hP fun _ log _ hlog => ?_
    refine Outside.Spec.bind ((h log hlog).mono (fun _ _ h => h) fun _ _ hf => hf.elim)
      fun answer log' hlog' => ?_
    have haccepted : accepted answer := hlog'.2.2.resolve_right hcan
    rw [statusRound_of_accepted haccepted]
    exact ⟨hlog'.1, hlog'.2.1 haccepted⟩

/-! ## The steps of a pipeline -/

/-- The notification of the verifier. -/
theorem notify_spec (runtime : InceptorRuntime) (path testId : String) (payload : Json)
    (route : TrafficRoute) (log : List WorkEntry) :
    (line.outside (hazards.guard confirms)).Spec due.contract
      (fun _ log' => Extends log log' ∧ Notified log')
      (fun _ log' => Extends log log' ∧ hazards.verifierFails = true)
      (runtime.notifyObserver path testId payload route) log := by
  refine retryStatusRequest_spec (Extends.refl log) fun log₁ hlog₁ => ?_
  refine ⟨trivial, fun answer log₂ ⟨o, hguard, hserve⟩ => ⟨trivial, fun log₃ hlater _ => ?_⟩⟩
  cases hserve
  cases Machine.later_eq (fun _ _ => id) hlater
  refine ⟨hlog₁.snoc (by simp), fun haccepted => ?_, hguard.symm⟩
  have hdone : accepted o.notify = true := haccepted
  simp only [Notified, WorkOutcome.does, hdone]
  exact ⟨_, _, _, List.mem_append_right _ (List.mem_singleton_self _)⟩

/-- The registration of the case, after its notification. -/
theorem register_spec (hazards : Hazards) (confirms : Bool) (due : Due)
    (runtime : InceptorRuntime) (testId : String) {log : List WorkEntry}
    (hnotified : Notified log) :
    (line.outside (hazards.guard confirms)).Spec due.contract
      (fun _ log' => Extends log log' ∧ Registered log')
      (fun _ log' => Extends log log' ∧ hazards.registryFails = true)
      (runtime.registerTestCase testId) log := by
  refine ⟨trivial, fun now log₀ ⟨o, _, hserve⟩ => ⟨trivial, fun log₀' hlater _ => ?_⟩⟩
  cases hserve
  cases Machine.later_eq (fun _ _ => id) hlater
  refine retryStatusRequest_spec ((Extends.refl log).snoc (by simp)) fun log₁ hlog₁ => ?_
  refine ⟨hlog₁.notified hnotified, fun answer log₂ ⟨o', hguard, hserve⟩ =>
    ⟨trivial, fun log₃ hlater _ => ?_⟩⟩
  cases hserve
  cases Machine.later_eq (fun _ _ => id) hlater
  refine ⟨hlog₁.snoc (by simp), fun haccepted => ?_, hguard.symm⟩
  have hdone : accepted o'.register = true := haccepted
  simp only [Registered, WorkOutcome.does, hdone]
  exact ⟨_, _, _, List.mem_append_right _ (List.mem_singleton_self _)⟩

/-- `notify_observer` of the crates says `true` only after a notification. -/
theorem notifyObserver_spec (runtime : InceptorRuntime) (observer : ObserverConfig)
    (testId : String) (payload : Json) (route : TrafficRoute) (log : List WorkEntry) :
    (line.outside (hazards.guard confirms)).Spec due.contract
      (fun notified log' => Extends log log' ∧ (notified = true → Notified log') ∧
        (notified = false → observer.notifyPath = none ∨ hazards.verifierFails = true))
      (fun _ _ => True) (notifyObserver runtime observer testId payload route) log := by
  unfold notifyObserver
  cases hpath : observer.notifyPath with
  | none => exact ⟨Extends.refl log, by simp, fun _ => .inl rfl⟩
  | some path =>
    refine Outside.Spec.bind (R := fun r log' => Extends log log' ∧
      (r = .ok () → Notified log') ∧ (r = .error () → hazards.verifierFails = true)) ?_ ?_
    · refine Outside.Spec.result ((notify_spec runtime path testId payload route log).mono
        (fun _ _ h => ⟨h.1, fun _ => h.2, by simp⟩) fun _ _ h => ⟨h.1, by simp, fun _ => h.2⟩)
    · intro r log' hr
      cases r with
      | ok => exact ⟨hr.1, fun _ => hr.2.1 rfl, by simp⟩
      | error => exact ⟨hr.1, by simp, fun _ => .inr (hr.2.2 rfl)⟩

/-- **The observer's part** leaves the publications alone. Where nothing of it can fail unnoticed,
it is done at the end. -/
theorem report_spec (runtime : InceptorRuntime) (payload : Json) (log : List WorkEntry) :
    (line.outside (hazards.guard confirms)).Spec due.contract
      (fun _ log' => Extends log log' ∧ (due.Safe hazards confirms handsOn →
        (due.observed.isSome → Notified log') ∧
        (due.observed.isSome → due.route.shouldRegisterCase → Registered log')))
      (fun _ _ => True) (report runtime handsOn due.observed payload due.route) log := by
  cases hobserved : due.observed with
  | none => exact ⟨Extends.refl log, fun _ => by simp⟩
  | some observed =>
    obtain ⟨observer, testId⟩ := observed
    have hmust : due.Safe hazards confirms handsOn →
        ¬ (observer.notifyPath = none ∨ hazards.verifierFails = true) := by
      intro hsafe hcan
      obtain ⟨hpath, hverifier⟩ := hsafe.notifies observer testId hobserved
      rcases hcan with hcan | hcan
      · simp [hcan] at hpath
      · simp [hcan] at hverifier
    refine (notifyObserver_spec runtime observer testId payload due.route log).bind
      fun notified log₁ hnotified => ?_
    obtain ⟨hextends, htrue, hfalse⟩ := hnotified
    cases notified with
    | false => exact ⟨hextends, fun hsafe => absurd (hfalse rfl) (hmust hsafe)⟩
    | true =>
      cases hroute : due.route.shouldRegisterCase with
      | false => exact ⟨hextends, fun _ => ⟨fun _ => htrue rfl, by simp⟩⟩
      | true =>
        have hregister := register_spec hazards confirms due runtime testId (htrue rfl)
        cases handsOn with
        | true =>
          exact hregister.mono (fun _ log₂ h => ⟨hextends.trans h.1, fun _ =>
            ⟨fun _ => h.1.notified (htrue rfl), fun _ _ => h.2⟩⟩) fun _ _ _ => trivial
        | false =>
          refine Outside.Spec.bind (R := fun r log₂ => Extends log₁ log₂ ∧
            (r = .ok () → Registered log₂) ∧ (r = .error () → hazards.registryFails = true)) ?_ ?_
          · exact Outside.Spec.result (hregister.mono
              (fun _ _ h => ⟨h.1, fun _ => h.2, by simp⟩) fun _ _ h => ⟨h.1, by simp, fun _ => h.2⟩)
          · intro r log₂ hr
            refine ⟨hextends.trans hr.1, fun hsafe =>
              ⟨fun _ => hr.1.notified (htrue rfl), fun _ _ => ?_⟩⟩
            cases r with
            | ok => exact hr.2.1 rfl
            | error =>
              have hregistry := hsafe.registers (by simp [hobserved]) hroute
              simp [hr.2.2 rfl] at hregistry

/-- The publishing of a role: one name after the other, as far as there are names. -/
def publishAll (message : Message) (targets : List (Option String)) : WorkerOp Unit :=
  Prog.forEach targets fun target => match target with
    | some target => publishTo message target
    | none => .pure ()

/-- **The publishing** reaches every target, where no name is missing and nothing is lost. -/
theorem publishAll_spec (handsOn : Bool) :
    (line.outside (hazards.guard confirms)).Spec due.contract
      (fun _ log' => due.Safe hazards confirms handsOn →
        (∀ target ∈ due.targets, ∃ name, target = some name ∧ Published due name log') ∧
        ∀ target, ⟨.publish target due.message, false⟩ ∉ log')
      (fun _ _ => True) (publishAll due.message due.targets) [] := by
  refine (Outside.Spec.forEachDone (E := fun _ _ => True) (P := fun done log' =>
    due.Safe hazards confirms handsOn →
      (∀ target ∈ done, ∃ name, target = some name ∧ Published due name log') ∧
      ∀ target, ⟨.publish target due.message, false⟩ ∉ log') (by simp) ?_).mono
      (fun _ _ h => h) fun _ _ _ => trivial
  intro done target htarget log hlog
  cases target with
  | none => exact fun hsafe => by simpa using hsafe.named none htarget
  | some name =>
    refine ⟨trivial, fun a log₁ ⟨o, hguard, hserve⟩ => ⟨trivial, fun log₂ hlater _ => ?_⟩⟩
    cases hserve
    cases Machine.later_eq (fun _ _ => id) hlater
    simp only [WorkOutcome.answer]
    split
    · trivial
    · rename_i hrefused
      intro hsafe
      obtain ⟨hdone, hcomplete⟩ := hlog hsafe
      -- it was not refused, and cannot have been dropped
      have hdelivered : o.publish = .delivered := by
        cases hpublish : o.publish with
        | delivered => rfl
        | refused => exact absurd hpublish hrefused
        | dropped =>
          obtain ⟨hdrops, hconfirms⟩ := hguard hpublish
          rcases hsafe.confirmed with hnil | hconfirmed | hnodrops
          · rw [hnil] at htarget
            simp at htarget
          · simp [hconfirms] at hconfirmed
          · simp [hdrops] at hnodrops
      simp only [WorkOutcome.does, hdelivered, decide_true]
      refine ⟨fun other hother => ?_, fun other hmem => ?_⟩
      · rcases List.mem_append.mp hother with hother | hother
        · obtain ⟨name', heq, hpublished⟩ := hdone other hother
          exact ⟨name', heq, List.mem_append_left _ hpublished⟩
        · exact ⟨name, List.mem_singleton.mp hother,
            List.mem_append_right _ (List.mem_singleton_self _)⟩
      · rcases List.mem_append.mp hmem with hmem | hmem
        · exact hcomplete other hmem
        · simp at hmem

/-- What a pipeline does for a message before it acknowledges it. -/
def Due.work (due : Due) (runtime : InceptorRuntime) (handsOn : Bool) (payload : Json) :
    WorkerOp Unit :=
  (publishAll due.message due.targets).bind fun _ =>
    report runtime handsOn due.observed payload due.route

theorem work_spec (runtime : InceptorRuntime) (payload : Json) :
    (line.outside (hazards.guard confirms)).Spec due.contract
      (fun _ log' => due.Safe hazards confirms handsOn → due.Met log') (fun _ _ => True)
      (due.work runtime handsOn payload) [] := by
  refine (publishAll_spec handsOn).bind fun _ log hlog => ?_
  refine (report_spec runtime payload log).mono (fun _ log' hlog' hsafe => ?_) fun _ _ _ => trivial
  obtain ⟨hpublished, hcomplete⟩ := hlog hsafe
  obtain ⟨hnotified, hregistered⟩ := hlog'.2 hsafe
  refine ⟨fun target htarget => ?_, fun target hmem => ?_, hnotified, hregistered⟩
  · obtain ⟨name, heq, hmem⟩ := hpublished target htarget
    exact ⟨name, heq, hlog'.1.mem hmem⟩
  · exact hcomplete target (hlog'.1.mem_publish hmem)

end Steps

/-! ## What can fail unnoticed does -/

section Failures

variable {o : WorkOutcome} {log log' : List WorkEntry}

/-- On the path where every call ends alike, the record says so. -/
theorem eval_line {α : Type} {p : WorkerOp α} {r : Except Unit α} {F : WorkCall → Prop}
    (hp : p.Calls F) (h : line.eval o p log = some (r, log')) :
    ∃ more, log' = log ++ more ∧ ∀ e ∈ more, e.done = o.does e.call ∧ F e.call := by
  induction p generalizing log with
  | pure a => cases h; exact ⟨[], by simp, by simp⟩
  | fail e => cases h; exact ⟨[], by simp, by simp⟩
  | call c k ih =>
    obtain ⟨more, hmore, hdone⟩ := ih (o.answer c) (hp.2 _) h
    refine ⟨⟨c, o.does c⟩ :: more, by simpa using hmore, fun e he => ?_⟩
    rcases List.mem_cons.mp he with rfl | he
    · exact ⟨rfl, hp.1⟩
    · exact hdone e he

/-- In a record from the start, every entry is of that kind. -/
theorem done_of_eval {α : Type} {p : WorkerOp α} {r : Except Unit α}
    (h : line.eval o p [] = some (r, log')) {c : WorkCall} {done : Bool}
    (hmem : ⟨c, done⟩ ∈ log') : done = o.does c := by
  obtain ⟨more, rfl, hmore⟩ := eval_line (Prog.Calls.any p) h
  exact (hmore _ hmem).1

/-- A caught outcome always is one. -/
theorem completes_result {α : Type} (p : WorkerOp α) :
    line.Completes o (p.result : WorkerOp (Except Unit α)) := by
  induction p with
  | pure a => exact .pure _
  | fail e => exact .pure _
  | call c k ih => exact fun log => ih (o.answer c) _

theorem completes_publishAll (message : Message) (targets : List (Option String))
    (h : o.publish ≠ .refused) : line.Completes o (publishAll message targets) := by
  refine .forEach fun target _ => ?_
  cases target with
  | none => exact .pure ()
  | some target =>
    intro log
    refine ⟨(), log ++ [⟨.publish target message, o.does (.publish target message)⟩], ?_⟩
    simp [publishTo, Prog.ask, Machine.eval, line, WorkOutcome.answer, h, Prog.ofExcept]

/-- An accepted answer ends the request in its first round. -/
theorem completes_retryStatusRequest {request : WorkerOp (Option Nat)} {answer : Option Nat}
    (hrequest : ∀ log, ∃ log', line.eval o request log = some (.ok answer, log'))
    (h : accepted answer) : line.Completes o (retryStatusRequest request) := by
  intro log
  obtain ⟨log', hlog'⟩ := hrequest log
  have hround : line.eval o (request.bind statusRound) log = some (.ok (some ()), log') := by
    rw [Machine.eval_bind hlog', statusRound_of_accepted h]
    rfl
  exact ⟨(), log', Machine.eval_bind hround⟩

theorem completes_registerTestCase (runtime : InceptorRuntime) (testId : String)
    (h : accepted o.register) : line.Completes o (runtime.registerTestCase testId) := by
  have hnow : line.Completes o (Prog.ask WorkCall.now : WorkerOp Timestamp) :=
    fun log => ⟨o.now, log ++ [⟨.now, true⟩], rfl⟩
  exact hnow.bind fun now => completes_retryStatusRequest (fun log => ⟨_, rfl⟩) h

theorem completes_report (runtime : InceptorRuntime) (handsOn : Bool)
    (observed : Option (ObserverConfig × String)) (payload : Json) (route : TrafficRoute)
    (h : handsOn = true → accepted o.register) :
    line.Completes o (report runtime handsOn observed payload route) := by
  cases observed with
  | none => exact .pure ()
  | some observed =>
    have hnotify : line.Completes o
        (notifyObserver runtime observed.1 observed.2 payload route) := by
      unfold notifyObserver
      cases observed.1.notifyPath with
      | none => exact .pure _
      | some path =>
        refine (completes_result _).bind fun r => ?_
        cases r <;> exact .pure _
    refine hnotify.bind fun notified => ?_
    split
    · cases handsOn with
      | true => exact completes_registerTestCase runtime observed.2 (h rfl)
      | false => exact (completes_result _).bind fun _ => .pure ()
    · exact .pure ()

theorem Due.completes_work (due : Due) (o : WorkOutcome) (handsOn : Bool)
    (runtime : InceptorRuntime) (payload : Json) (hpublish : o.publish ≠ .refused)
    (hregister : handsOn = true → accepted o.register) :
    line.Completes o (due.work runtime handsOn payload) :=
  (completes_publishAll _ _ hpublish).bind fun _ => completes_report _ _ _ _ _ hregister

/-- The publishing makes no call to the verifier. -/
theorem calls_publishAll (message : Message) (targets : List (Option String)) :
    (publishAll message targets).Calls fun c => ∀ url notification authToken,
      c ≠ .notify url notification authToken := by
  refine Prog.Calls.forEach fun target _ => ?_
  cases target with
  | none => trivial
  | some target =>
    refine Prog.Calls.bind (Prog.Calls.of_ask.mpr (by simp)) fun r => ?_
    cases r <;> trivial

/-- The outcome with which nothing goes wrong. -/
def WorkOutcome.good : WorkOutcome := ⟨.delivered, some 200, some 200, true, true, 0⟩

theorem good_accepted : accepted (some 200) = true := by decide

variable {hazards : Hazards} {confirms handsOn : Bool} {due : Due}

/-- **Where something can fail unnoticed**, there is a path on which the pipeline ends well and the
message has not got what it is due. -/
theorem unmet_of_not_safe (runtime : InceptorRuntime) (payload : Json)
    (h : ¬ due.Safe hazards confirms handsOn) :
    ∃ o log', (∀ w c, (hazards.guard confirms).call w c o) ∧
      line.eval o (due.work runtime handsOn payload) [] = some (.ok (), log') ∧
      ¬ due.Met log' := by
  by_cases hnamed : ∀ target ∈ due.targets, target.isSome
  · by_cases hconfirmed : due.targets = [] ∨ confirms = true ∨ hazards.drops = false
    · by_cases hverifier : due.observed.isSome → hazards.verifierFails = false
      · by_cases hpath : ∀ observer testId, due.observed = some (observer, testId) →
            observer.notifyPath.isSome
        · -- what is left is a registration whose failure is only logged
          have hregistry : due.observed.isSome ∧ due.route.shouldRegisterCase ∧ handsOn = false ∧
              hazards.registryFails = true := by
            by_contra hcontra
            refine h ⟨hnamed, hconfirmed, fun observer testId hobserved =>
              ⟨hpath observer testId hobserved, hverifier (by simp [hobserved])⟩,
              fun hobserved hroute => ?_⟩
            by_contra hboth
            simp only [not_or, Bool.not_eq_true, Bool.not_eq_false] at hboth
            exact hcontra ⟨hobserved, hroute, hboth⟩
          obtain ⟨hobserved, hroute, hhands, hfails⟩ := hregistry
          obtain ⟨_, log', hlog'⟩ := due.completes_work { WorkOutcome.good with register := none }
            handsOn runtime payload (by simp [WorkOutcome.good]) (by simp [hhands]) []
          refine ⟨_, log', fun w c => ?_, hlog', fun hmet => ?_⟩
          · cases c <;> simp [Hazards.guard, WorkOutcome.good, hfails, good_accepted]
          · obtain ⟨url, request, authToken, hmem⟩ := hmet.registered hobserved hroute
            simpa [WorkOutcome.does, accepted] using done_of_eval hlog' hmem
        · -- without a path nobody is notified, and the message is acknowledged
          simp only [not_forall] at hpath
          obtain ⟨observer, testId, hobserved, hnone⟩ := hpath
          obtain ⟨_, log', hlog'⟩ := completes_publishAll (o := .good) due.message due.targets
            (by simp [WorkOutcome.good]) []
          refine ⟨.good, log', fun w c => ?_, ?_, fun hmet => ?_⟩
          · cases c <;> simp [Hazards.guard, WorkOutcome.good, good_accepted]
          · have hreport : report runtime handsOn due.observed payload due.route = .pure () := by
              have hpath : observer.notifyPath = none := by simpa using hnone
              simp [report, hobserved, notifyObserver, hpath]
            rw [Due.work, Machine.eval_bind hlog', hreport]
            rfl
          · obtain ⟨url, notification, authToken, hmem⟩ := hmet.notified (by simp [hobserved])
            obtain ⟨more, rfl, hmore⟩ := eval_line (calls_publishAll _ _) hlog'
            exact (hmore _ hmem).2 url notification authToken rfl
      · -- the verifier takes no notification, and the message is acknowledged
        simp only [Classical.not_imp, Bool.not_eq_false] at hverifier
        obtain ⟨hobserved, hfails⟩ := hverifier
        obtain ⟨_, log', hlog'⟩ := due.completes_work { WorkOutcome.good with notify := none }
          handsOn runtime payload (by simp [WorkOutcome.good]) (fun _ => good_accepted) []
        refine ⟨_, log', fun w c => ?_, hlog', fun hmet => ?_⟩
        · cases c <;> simp [Hazards.guard, WorkOutcome.good, hfails, good_accepted]
        · obtain ⟨url, notification, authToken, hmem⟩ := hmet.notified hobserved
          simpa [WorkOutcome.does, accepted] using done_of_eval hlog' hmem
    · -- a publication is lost without an error
      simp only [not_or, Bool.not_eq_true, Bool.not_eq_false] at hconfirmed
      obtain ⟨hne, hconfirms, hdrops⟩ := hconfirmed
      obtain ⟨_, log', hlog'⟩ := due.completes_work { WorkOutcome.good with publish := .dropped }
        handsOn runtime payload (by simp) (fun _ => good_accepted) []
      refine ⟨_, log', fun w c => ?_, hlog', fun hmet => ?_⟩
      · cases c <;> simp [Hazards.guard, WorkOutcome.good, hdrops, hconfirms, good_accepted]
      · obtain ⟨target, htarget⟩ := List.exists_mem_of_ne_nil _ hne
        obtain ⟨name, _, hmem⟩ := hmet.published target htarget
        simpa [WorkOutcome.does] using done_of_eval hlog' hmem
  · -- a name is missing
    obtain ⟨_, log', hlog'⟩ := due.completes_work .good handsOn runtime payload
      (by simp [WorkOutcome.good]) (fun _ => good_accepted) []
    refine ⟨.good, log', fun w c => ?_, hlog', fun hmet => hnamed fun target htarget => ?_⟩
    · cases c <;> simp [Hazards.guard, WorkOutcome.good, good_accepted]
    · obtain ⟨name, rfl, _⟩ := hmet.published target htarget
      rfl

end Failures

/-! ## The ends of a pipeline -/

section Ends

variable (hazards : Hazards) (confirms handsOn : Bool) (due : Due) (runtime : InceptorRuntime)
  (payload : Json)

theorem ack_spec {log : List WorkEntry} (h : due.Met log) :
    (line.outside (hazards.guard confirms)).Spec due.contract (fun _ _ => True) (fun _ _ => True)
      ack log := by
  refine ⟨h, fun a log' _ => ⟨trivial, fun log'' _ _ => ?_⟩⟩
  cases a <;> trivial

theorem requeue_spec (log : List WorkEntry) :
    (line.outside (hazards.guard confirms)).Spec due.contract (fun _ _ => True) (fun _ _ => True)
      requeue log := by
  refine ⟨trivial, fun a log' _ => ⟨trivial, fun log'' _ _ => ?_⟩⟩
  cases a <;> trivial

/-- **A pipeline that acknowledges at its end.** -/
theorem work_ack_iff :
    (line.outside (hazards.guard confirms)).Spec due.contract (fun _ _ => True) (fun _ _ => True)
      ((due.work runtime handsOn payload).bind fun _ => ack) [] ↔
    due.Safe hazards confirms handsOn := by
  constructor
  · intro hspec
    by_contra hsafe
    obtain ⟨o, log', hguard, heval, hunmet⟩ := unmet_of_not_safe runtime payload hsafe
    exact hunmet (Machine.spec_of_bind hguard hspec heval).1
  · intro hsafe
    exact (work_spec runtime payload).bind fun _ log hmet => ack_spec _ _ _ (hmet hsafe)

/-- **A turn that completes or abandons the lock at its end.** -/
theorem settle_iff :
    (line.outside (hazards.guard confirms)).Spec due.contract (fun _ _ => True) (fun _ _ => True)
      (ServiceBus.settle (due.work runtime handsOn payload)) [] ↔
    due.Safe hazards confirms handsOn := by
  constructor
  · intro hspec
    by_contra hsafe
    obtain ⟨o, log', hguard, heval, hunmet⟩ := unmet_of_not_safe runtime payload hsafe
    exact hunmet (Machine.spec_of_bind hguard hspec (Machine.eval_result heval)).1
  · intro hsafe
    refine Outside.Spec.bind (R := fun r log => r = .ok () → due.Met log) ?_ fun r log hr => ?_
    · exact Outside.Spec.result ((work_spec runtime payload).mono (fun _ _ hmet _ => hmet hsafe)
        fun _ _ _ => by simp)
    · cases r with
      | ok =>
        refine Outside.Spec.bind (R := fun _ _ => True) ?_ fun _ _ _ => trivial
        exact Outside.Spec.result (ack_spec hazards confirms due (hr rfl))
      | error =>
        refine Outside.Spec.bind (R := fun _ _ => True) ?_ fun _ _ _ => trivial
        exact Outside.Spec.result (requeue_spec hazards confirms due log)

/-- A pipeline that acknowledges nothing. -/
theorem work_only :
    (line.outside (hazards.guard confirms)).Spec due.contract (fun _ _ => True) (fun _ _ => True)
      (due.work runtime handsOn payload) [] :=
  (work_spec runtime payload).mono (fun _ _ _ => trivial) fun _ _ _ => trivial

end Ends

/-! ## The three plugins -/

/-- The block of the role that moves input is missing. -/
def blockMissing (roles : List PluginRole) (duplicator splitter : Option TempPair) : Bool :=
  if hasRole roles .duplicator then duplicator.isNone
  else if hasRole roles .splitter then splitter.isNone
  else false

/-- What the role has to publish to: both for a duplicator, the selected one for a splitter. -/
def inputTargets (roles : List PluginRole) (duplicator splitter : Option TempPair)
    (sendToBlue : Bool) : List (Option String) :=
  if hasRole roles .duplicator then
    [duplicator.bind (·.1), duplicator.bind (·.2)]
  else if hasRole roles .splitter then
    [if sendToBlue then splitter.bind (·.2) else splitter.bind (·.1)]
  else []

def inputRoute (roles : List PluginRole) (splitter : Option TempPair) (sendToBlue : Bool) :
    TrafficRoute :=
  if hasRole roles .duplicator then .both
  else if hasRole roles .splitter then
    if sendToBlue then .blue else if (splitter.bind (·.1)).isSome then .green else .unknown
  else .unknown

/-- The publishing of an input role, name by name. -/
theorem forwardInput_eq (roles : List PluginRole) (duplicator splitter : Option TempPair)
    (sendToBlue : Bool) (message : Message) :
    forwardInput roles duplicator splitter sendToBlue message =
      if blockMissing roles duplicator splitter then .fail ()
      else (publishAll message (inputTargets roles duplicator splitter sendToBlue)).bind fun _ =>
        .pure (inputRoute roles splitter sendToBlue) := by
  unfold forwardInput blockMissing inputTargets inputRoute
  by_cases hduplicator : hasRole roles .duplicator
  · cases duplicator with
    | none => simp [hduplicator]
    | some block =>
      obtain ⟨green, blue⟩ := block
      cases green <;> cases blue <;>
        simp [hduplicator, publishAll, Prog.forEach, Prog.bind_assoc]
  · by_cases hsplitter : hasRole roles .splitter
    · cases splitter with
      | none => simp [hduplicator, hsplitter]
      | some block =>
        obtain ⟨green, blue⟩ := block
        cases sendToBlue <;> cases green <;> cases blue <;>
          simp [hduplicator, hsplitter, publishAll, Prog.forEach, Prog.bind_assoc]
    · simp [hduplicator, hsplitter, publishAll, Prog.forEach]

/-- What a worker is given: the messages of the base queue, or those of a temporary output queue with
the target they go to. -/
inductive Work where
  | input
  | combine (source target : String)

/-- An inceptor of one of the three plugins. -/
inductive Inceptor where
  | rabbitmq (state : WorkerState Rabbitmq.Config)
  | nats (state : WorkerState Nats.Config)
  | serviceBus (state : WorkerState ServiceBus.Config)

namespace Inceptor

/-- What the worker does with a message that it received, in the mode it then finds. Without its
block a combiner has no worker. -/
def handle (inceptor : Inceptor) (mode : RuntimeMode) (work : Work) (message : Message) :
    WorkerOp Unit :=
  match inceptor, work with
  | .rabbitmq state, .input => Rabbitmq.processInputDelivery state message
  | .rabbitmq state, .combine source target => match state.config.combiner with
    | none => .fail ()
    | some combiner => Rabbitmq.processOutputDelivery state message combiner mode source target
  | .nats state, .input => Nats.processInputMessage state message
  | .nats state, .combine source target => Nats.processOutputMessage state message source target
  | .serviceBus state, .input => ServiceBus.inputTurn state message mode
  | .serviceBus state, .combine source target => match state.config.combiner with
    | none => .fail ()
    | some combiner => ServiceBus.combineTurn state message combiner mode source target

/-- Whether the plugin waits for the broker to confirm a publication. -/
def confirms : Inceptor → Bool
  | .rabbitmq _ => false
  | .nats state => !state.config.mode.isCore
  | .serviceBus _ => true

/-- Whether the plugin hands on a registration that failed. -/
def handsOn : Inceptor → Bool
  | .nats _ => true
  | _ => false

/-- The temporary names of the blocks of duplicator and splitter. -/
def inputBlocks : Inceptor → Option TempPair × Option TempPair
  | .rabbitmq state =>
    (state.config.duplicator.map fun block => (block.greenInputQueue, block.blueInputQueue),
      state.config.splitter.map fun block => (block.greenInputQueue, block.blueInputQueue))
  | .nats state =>
    (state.config.duplicator.map fun block => (block.greenInputSubject, block.blueInputSubject),
      state.config.splitter.map fun block => (block.greenInputSubject, block.blueInputSubject))
  | .serviceBus state =>
    (state.config.duplicator.map fun block => (block.greenInputQueue, block.blueInputQueue),
      state.config.splitter.map fun block => (block.greenInputQueue, block.blueInputQueue))

def roles : Inceptor → List PluginRole
  | .rabbitmq state => state.roles
  | .nats state => state.roles
  | .serviceBus state => state.roles

def sendsToBlue (message : Message) : Inceptor → Bool
  | .rabbitmq state => routesToBlue state.crates message.body state.trafficPercent
  | .nats state => routesToBlue state.crates message.body state.trafficPercent
  | .serviceBus state => routesToBlue state.crates message.body state.trafficPercent

def runtime : Inceptor → InceptorRuntime
  | .rabbitmq state => state.runtime
  | .nats state => state.runtime
  | .serviceBus state => state.runtime

/-- The body of the message. RabbitMQ's input worker repairs its encoding first. -/
def payload (work : Work) (message : Message) : Inceptor → Json
  | .rabbitmq state => match work with
    | .input => (state.crates.parseLossy message.body).getD .null
    | .combine _ _ => (state.crates.parseSlice message.body).getD .null
  | .nats state => (state.crates.parseSlice message.body).getD .null
  | .serviceBus state => (state.crates.parseSlice message.body).getD .null

/-- What the observer makes of the message. -/
def observed (inceptor : Inceptor) (work : Work) (message : Message) :
    Option (ObserverConfig × String) :=
  match inceptor with
  | .rabbitmq state => Rabbitmq.observed state message (inceptor.payload work message)
  | .nats state => Nats.observed state (inceptor.payload work message)
  | .serviceBus state => ServiceBus.observed state message (inceptor.payload work message)

/-- The route of a message of a temporary output queue; there is none without the combiner's
block. -/
def outputRoute (source : String) : Inceptor → Option TrafficRoute
  | .rabbitmq state => state.config.combiner.map fun block => routeFromOutputSource block source
  | .nats state => state.config.combiner.map fun block => Nats.routeFromOutputSource block source
  | .serviceBus state => state.config.combiner.map fun block => routeFromOutputSource block source

def due (inceptor : Inceptor) (work : Work) (message : Message) : Due where
  message := message
  targets := match work with
    | .input => inputTargets inceptor.roles inceptor.inputBlocks.1 inceptor.inputBlocks.2
        (inceptor.sendsToBlue message)
    | .combine _ target => [some target]
  observed := inceptor.observed work message
  route := match work with
    | .input => inputRoute inceptor.roles inceptor.inputBlocks.2 (inceptor.sendsToBlue message)
    | .combine source _ => (inceptor.outputRoute source).getD .unknown

/-- The block of the role is missing. -/
def blockMissing (inceptor : Inceptor) : Work → Bool
  | .input => FluidBG.blockMissing inceptor.roles inceptor.inputBlocks.1 inceptor.inputBlocks.2
  | .combine source _ => (inceptor.outputRoute source).isNone

/-- Whether a worker that is past its publications acknowledges: it looked again and was still
active, and NATS is not in its core mode. -/
def takes (mode : RuntimeMode) (work : Work) : Inceptor → Bool
  | .rabbitmq _ => match work with
    | .input => true
    | .combine _ _ => mode = .active
  | .nats state => !state.config.mode.isCore
  | .serviceBus _ => mode = .active

/-- Whether the worker gets to an acknowledgement when no call fails. -/
def acknowledges (inceptor : Inceptor) (mode : RuntimeMode) (work : Work) : Bool :=
  !inceptor.blockMissing work && inceptor.takes mode work

end Inceptor

/-! ### The pipelines, in terms of what a message is due -/

section Pipelines

variable (message : Message)

theorem rabbitmq_input_eq (state : WorkerState Rabbitmq.Config) :
    Rabbitmq.processInputDelivery state message =
      if (Inceptor.rabbitmq state).blockMissing .input then .fail ()
      else (((Inceptor.rabbitmq state).due .input message).work state.runtime false
        ((state.crates.parseLossy message.body).getD .null)).bind fun _ => ack := by
  simp only [Rabbitmq.processInputDelivery, forwardInput_eq, Prog.bind_def]
  by_cases hblock : (Inceptor.rabbitmq state).blockMissing .input
  · have hraw := hblock
    simp only [Inceptor.blockMissing, Inceptor.inputBlocks, Inceptor.roles] at hraw
    rw [if_pos hblock, if_pos hraw]
    rfl
  · have hraw := hblock
    simp only [Inceptor.blockMissing, Inceptor.inputBlocks, Inceptor.roles] at hraw
    rw [if_neg hblock, if_neg hraw, Prog.bind_assoc, Due.work, Prog.bind_assoc]
    rfl

theorem nats_input_eq (state : WorkerState Nats.Config) :
    Nats.processInputMessage state message =
      if (Inceptor.nats state).blockMissing .input then .fail ()
      else (((Inceptor.nats state).due .input message).work state.runtime true
        ((state.crates.parseSlice message.body).getD .null)).bind fun _ =>
          if state.config.mode.isCore then .pure () else ack := by
  simp only [Nats.processInputMessage, Nats.processInputPayload, forwardInput_eq, Prog.bind_def,
    Prog.pure_def]
  by_cases hblock : (Inceptor.nats state).blockMissing .input
  · have hraw := hblock
    simp only [Inceptor.blockMissing, Inceptor.inputBlocks, Inceptor.roles] at hraw
    rw [if_pos hblock, if_pos hraw]
    rfl
  · have hraw := hblock
    simp only [Inceptor.blockMissing, Inceptor.inputBlocks, Inceptor.roles] at hraw
    rw [if_neg hblock, if_neg hraw, Prog.bind_assoc, Prog.bind_assoc, Due.work, Prog.bind_assoc]
    rfl

theorem serviceBus_input_eq (state : WorkerState ServiceBus.Config) :
    ServiceBus.processInputMessage state message =
      if (Inceptor.serviceBus state).blockMissing .input then .fail ()
      else ((Inceptor.serviceBus state).due .input message).work state.runtime false
        ((state.crates.parseSlice message.body).getD .null) := by
  simp only [ServiceBus.processInputMessage, forwardInput_eq, Prog.bind_def]
  by_cases hblock : (Inceptor.serviceBus state).blockMissing .input
  · have hraw := hblock
    simp only [Inceptor.blockMissing, Inceptor.inputBlocks, Inceptor.roles] at hraw
    rw [if_pos hblock, if_pos hraw]
    rfl
  · have hraw := hblock
    simp only [Inceptor.blockMissing, Inceptor.inputBlocks, Inceptor.roles] at hraw
    rw [if_neg hblock, if_neg hraw, Prog.bind_assoc, Due.work]
    rfl

variable {source target : String}

theorem rabbitmq_output_eq {state : WorkerState Rabbitmq.Config} {combiner : CombinerConfig}
    (hcombiner : state.config.combiner = some combiner) :
    Rabbitmq.processOutputDelivery state message combiner .active source target =
      (((Inceptor.rabbitmq state).due (.combine source target) message).work state.runtime false
        ((state.crates.parseSlice message.body).getD .null)).bind fun _ => ack := by
  simp only [Rabbitmq.processOutputDelivery, Due.work, Inceptor.due, Inceptor.outputRoute,
    Inceptor.observed, Inceptor.payload, hcombiner, publishAll, Prog.forEach, Prog.bind_assoc,
    Prog.bind_def, Prog.pure_bind, if_true, Option.map_some, Option.getD_some]

theorem nats_output_eq {state : WorkerState Nats.Config} {combiner : Nats.CombinerConfig}
    (hcombiner : state.config.combiner = some combiner) :
    Nats.processOutputMessage state message source target =
      (((Inceptor.nats state).due (.combine source target) message).work state.runtime true
        ((state.crates.parseSlice message.body).getD .null)).bind fun _ =>
          if state.config.mode.isCore then .pure () else ack := by
  simp only [Nats.processOutputMessage, Due.work, Inceptor.due, Inceptor.outputRoute,
    Inceptor.observed, Inceptor.payload, hcombiner, publishAll, Prog.forEach, Prog.bind_assoc,
    Prog.bind_def, Prog.pure_bind, Prog.pure_def, Option.map_some, Option.getD_some]

theorem serviceBus_output_eq {state : WorkerState ServiceBus.Config} {combiner : CombinerConfig}
    (hcombiner : state.config.combiner = some combiner) :
    ServiceBus.combineTurn state message combiner .active source target =
      ServiceBus.settle (((Inceptor.serviceBus state).due (.combine source target) message).work
        state.runtime false ((state.crates.parseSlice message.body).getD .null)) := by
  simp only [ServiceBus.combineTurn, Due.work, Inceptor.due, Inceptor.outputRoute,
    Inceptor.observed, Inceptor.payload, hcombiner, publishAll, Prog.forEach, Prog.bind_assoc,
    Prog.bind_def, Prog.pure_bind, if_true, Option.map_some, Option.getD_some]

end Pipelines

/-! ## The theorem -/

/-- A lock that is given back is not an acknowledgement. -/
theorem abandonLate_spec (hazards : Hazards) (confirms : Bool) (due : Due)
    (log : List WorkEntry) :
    (line.outside (hazards.guard confirms)).Spec due.contract (fun _ _ => True) (fun _ _ => True)
      ServiceBus.abandonLate log := by
  refine Outside.Spec.bind (R := fun _ _ => True) ?_ fun _ _ _ => trivial
  exact Outside.Spec.result (requeue_spec hazards confirms due log)

/-- The same of a turn whose pipeline fails at once. -/
theorem settle_fail_spec (hazards : Hazards) (confirms : Bool) (due : Due)
    (log : List WorkEntry) :
    (line.outside (hazards.guard confirms)).Spec due.contract (fun _ _ => True) (fun _ _ => True)
      (ServiceBus.settle (.fail ())) log := by
  show (line.outside (hazards.guard confirms)).Spec due.contract (fun _ _ => True)
    (fun _ _ => True) ServiceBus.abandonLate log
  exact abandonLate_spec hazards confirms due log

/-- Without its block a worker acknowledges nothing. -/
theorem handle_spec_of_blockMissing (hazards : Hazards) (inceptor : Inceptor) (mode : RuntimeMode)
    (work : Work) (message : Message) (hblock : inceptor.blockMissing work = true) :
    (line.outside (hazards.guard inceptor.confirms)).Spec (inceptor.due work message).contract
      (fun _ _ => True) (fun _ _ => True) (inceptor.handle mode work message) [] := by
  cases inceptor with
  | rabbitmq state =>
    cases work with
    | input =>
      simp only [Inceptor.handle, rabbitmq_input_eq, hblock, if_true]
      trivial
    | combine source target =>
      cases hcombiner : state.config.combiner with
      | none =>
        simp only [Inceptor.handle, hcombiner]
        trivial
      | some combiner => simp [Inceptor.blockMissing, Inceptor.outputRoute, hcombiner] at hblock
  | nats state =>
    cases work with
    | input =>
      simp only [Inceptor.handle, nats_input_eq, hblock, if_true]
      trivial
    | combine source target =>
      cases hcombiner : state.config.combiner with
      | none =>
        simp only [Inceptor.handle, Nats.processOutputMessage, hcombiner]
        trivial
      | some combiner => simp [Inceptor.blockMissing, Inceptor.outputRoute, hcombiner] at hblock
  | serviceBus state =>
    cases work with
    | input =>
      simp only [Inceptor.handle, ServiceBus.inputTurn, serviceBus_input_eq, hblock, if_true]
      by_cases hmode : mode = .active
      · rw [if_pos hmode]
        exact settle_fail_spec _ _ _ _
      · rw [if_neg hmode]
        exact abandonLate_spec _ _ _ _
    | combine source target =>
      cases hcombiner : state.config.combiner with
      | none =>
        simp only [Inceptor.handle, hcombiner]
        trivial
      | some combiner => simp [Inceptor.blockMissing, Inceptor.outputRoute, hcombiner] at hblock

/-- With its block, but without taking the message, it acknowledges nothing either. -/
theorem handle_spec_of_not_takes (hazards : Hazards) (inceptor : Inceptor) (mode : RuntimeMode)
    (work : Work) (message : Message) (hblock : inceptor.blockMissing work = false)
    (htakes : inceptor.takes mode work = false) :
    (line.outside (hazards.guard inceptor.confirms)).Spec (inceptor.due work message).contract
      (fun _ _ => True) (fun _ _ => True) (inceptor.handle mode work message) [] := by
  cases inceptor with
  | rabbitmq state =>
    cases work with
    | input => simp [Inceptor.takes] at htakes
    | combine source target =>
      cases hcombiner : state.config.combiner with
      | none => simp [Inceptor.blockMissing, Inceptor.outputRoute, hcombiner] at hblock
      | some combiner =>
        have hmode : mode ≠ .active := by simpa [Inceptor.takes] using htakes
        simp only [Inceptor.handle, hcombiner, Rabbitmq.processOutputDelivery, if_neg hmode]
        exact requeue_spec _ _ _ _
  | nats state =>
    have hcore : state.config.mode.isCore = true := by simpa [Inceptor.takes] using htakes
    cases work with
    | input =>
      simp only [Inceptor.handle, nats_input_eq, hblock, hcore, if_true, Bool.false_eq_true,
        if_false]
      exact (work_only _ _ _ _ _ _).bind fun _ _ _ => trivial
    | combine source target =>
      cases hcombiner : state.config.combiner with
      | none => simp [Inceptor.blockMissing, Inceptor.outputRoute, hcombiner] at hblock
      | some combiner =>
        simp only [Inceptor.handle, nats_output_eq message hcombiner, hcore, if_true]
        exact (work_only _ _ _ _ _ _).bind fun _ _ _ => trivial
  | serviceBus state =>
    have hmode : mode ≠ .active := by simpa [Inceptor.takes] using htakes
    cases work with
    | input =>
      simp only [Inceptor.handle, ServiceBus.inputTurn, if_neg hmode]
      exact abandonLate_spec _ _ _ _
    | combine source target =>
      cases hcombiner : state.config.combiner with
      | none => simp [Inceptor.blockMissing, Inceptor.outputRoute, hcombiner] at hblock
      | some combiner =>
        simp only [Inceptor.handle, hcombiner, ServiceBus.combineTurn, if_neg hmode]
        exact abandonLate_spec _ _ _ _

/-- **A worker that takes the message** acknowledges it exactly where nothing can fail unnoticed. -/
theorem handle_iff_of_takes (hazards : Hazards) (inceptor : Inceptor) (mode : RuntimeMode)
    (work : Work) (message : Message) (hblock : inceptor.blockMissing work = false)
    (htakes : inceptor.takes mode work = true) :
    (line.outside (hazards.guard inceptor.confirms)).Spec (inceptor.due work message).contract
      (fun _ _ => True) (fun _ _ => True) (inceptor.handle mode work message) [] ↔
    (inceptor.due work message).Safe hazards inceptor.confirms inceptor.handsOn := by
  cases inceptor with
  | rabbitmq state =>
    cases work with
    | input =>
      simp only [Inceptor.handle, rabbitmq_input_eq, hblock, Bool.false_eq_true, if_false]
      exact work_ack_iff _ _ _ _ _ _
    | combine source target =>
      cases hcombiner : state.config.combiner with
      | none => simp [Inceptor.blockMissing, Inceptor.outputRoute, hcombiner] at hblock
      | some combiner =>
        have hmode : mode = .active := by simpa [Inceptor.takes] using htakes
        simp only [Inceptor.handle, hcombiner, hmode, rabbitmq_output_eq message hcombiner]
        exact work_ack_iff _ _ _ _ _ _
  | nats state =>
    have hcore : state.config.mode.isCore = false := by simpa [Inceptor.takes] using htakes
    cases work with
    | input =>
      simp only [Inceptor.handle, nats_input_eq, hblock, hcore, Bool.false_eq_true, if_false]
      exact work_ack_iff _ _ _ _ _ _
    | combine source target =>
      cases hcombiner : state.config.combiner with
      | none => simp [Inceptor.blockMissing, Inceptor.outputRoute, hcombiner] at hblock
      | some combiner =>
        simp only [Inceptor.handle, nats_output_eq message hcombiner, hcore, Bool.false_eq_true,
          if_false]
        exact work_ack_iff _ _ _ _ _ _
  | serviceBus state =>
    have hmode : mode = .active := by simpa [Inceptor.takes] using htakes
    cases work with
    | input =>
      simp only [Inceptor.handle, ServiceBus.inputTurn, hmode, if_true, serviceBus_input_eq, hblock,
        Bool.false_eq_true, if_false]
      exact settle_iff _ _ _ _ _ _
    | combine source target =>
      cases hcombiner : state.config.combiner with
      | none => simp [Inceptor.blockMissing, Inceptor.outputRoute, hcombiner] at hblock
      | some combiner =>
        simp only [Inceptor.handle, hcombiner, hmode, serviceBus_output_eq message hcombiner]
        exact settle_iff _ _ _ _ _ _

/-- **An acknowledgement means that everything is done for the message**, exactly where nothing the
message is due can fail unnoticed, or where the worker acknowledges nothing. -/
theorem acknowledged_means_delivered (hazards : Hazards) (inceptor : Inceptor) (mode : RuntimeMode)
    (work : Work) (message : Message) :
    (line.outside (hazards.guard inceptor.confirms)).Spec (inceptor.due work message).contract
      (fun _ _ => True) (fun _ _ => True) (inceptor.handle mode work message) [] ↔
    (inceptor.acknowledges mode work = true →
      (inceptor.due work message).Safe hazards inceptor.confirms inceptor.handsOn) := by
  cases hblock : inceptor.blockMissing work with
  | true =>
    simp only [Inceptor.acknowledges, hblock, Bool.not_true, Bool.false_and, Bool.false_eq_true,
      false_implies, iff_true]
    exact handle_spec_of_blockMissing hazards inceptor mode work message hblock
  | false =>
    cases htakes : inceptor.takes mode work with
    | false =>
      simp only [Inceptor.acknowledges, htakes, Bool.and_false, Bool.false_eq_true, false_implies,
        iff_true]
      exact handle_spec_of_not_takes hazards inceptor mode work message hblock htakes
    | true =>
      simp only [Inceptor.acknowledges, hblock, htakes, Bool.not_false, Bool.and_self, true_implies]
      exact handle_iff_of_takes hazards inceptor mode work message hblock htakes

/-! ### The verifier is down -/

namespace Sample

/-- The configuration of a splitter with an observer, as a request of the inception `orders` gets it
back from the manager. -/
def splitterConfig : Nats.Config where
  mode := .jetStream
  stream := Nats.StreamConfig.empty
  duplicator := none
  splitter := some {
    inputSubject := some "orders"
    queueGroup := none
    greenInputSubject := some (ordersClaims.inceptionId.tempName "splitter" "green-input" none)
    blueInputSubject := some (ordersClaims.inceptionId.tempName "splitter" "blue-input" none)
    greenInputSubjectEnvVar := some "INPUT_SUBJECT"
    blueInputSubjectEnvVar := some "INPUT_SUBJECT"
    greenQueueGroup := none
    blueQueueGroup := none
    greenQueueGroupEnvVar := none
    blueQueueGroupEnvVar := none
    temporarySubjectIdentifier := none }
  combiner := none
  writer := none
  consumer := none
  observer := some {
    testId := some ⟨some "nats.body", some "$.orderId", none, none⟩
    conditions := []
    notifyPath := some "/observe/\x7btestId\x7d" }

def splitterWorker : WorkerState Nats.Config where
  crates := workerCrates
  config := splitterConfig
  roles := [.splitter, .observer]
  trafficPercent := 100
  runtime := workerRuntime

end Sample

/-- **A verifier that answers 503 to every attempt** is told of nothing, and the message is
acknowledged. -/
theorem acknowledged_without_notification :
    ((Inceptor.nats Sample.splitterWorker).observed .input Sample.order).isSome = true ∧
    ∃ log, line.eval { WorkOutcome.good with notify := some 503 }
        ((Inceptor.nats Sample.splitterWorker).handle .active .input Sample.order) [] =
          some (.ok (), log) ∧
      ⟨.ack, true⟩ ∈ log ∧ ¬ Notified log := by
  refine ⟨by decide +kernel, _, rfl, by simp [WorkOutcome.does, WorkOutcome.good], ?_⟩
  rintro ⟨url, notification, authToken, hmem⟩
  simp [WorkOutcome.does, accepted, isErrorStatus] at hmem

end FluidBG
