import FluidBG.Plugins.Sample
import FluidBG.Plugins.SubjectTasks
/-!
# The worker tasks survive

The input pipeline catches every error of a turn: it logs it and connects again. The combiner hands
the errors of a publication, a registration, an acknowledgement and a drain on with `?`, and with the
first of them its task is over. A message is acknowledged only after everything else about it went
well, and a task that is still there takes the next one.
-/

set_option autoImplicit false

namespace FluidBG.Nats

open Lib

/-! ## What a task may suffer -/

/-- The calls whose errors the combiner does not catch do not fail: to publish and to acknowledge,
what a drain asks of the server after the turn has connected, and a registration to its end. -/
def Spared (s : TaskWorld) (o : SubjectOutcome) : SubjectCall → Prop
  | .work (.publish _ _) => o.call = .ok
  | .work .ack => o.call = .ok
  | .work (.register _ _ _) => givesUp s.turn.registrations o.status = false
  | .connect => s.turn.connects = 0 ∨ o.call = .ok
  | .fetch _ _ _ => s.turn.connects ≤ 1 ∨ o.call = .ok
  | _ => True

/-- The condition on the runs of a combiner. -/
def sparing : Guard SubjectCall TaskWorld SubjectOutcome TaskMove :=
  ⟨fun s c o => Spared s o c, fun _ _ => True⟩

/-- A message is acknowledged where nothing about it has failed. -/
def careful : Contract SubjectCall TaskWorld :=
  ⟨fun _ => True, fun s c => c = .work .ack → s.turn.failed = false⟩

theorem answer_failed {α W : Type} {o : CallOutcome} (h : o ≠ .ok) (a : α) (w after : W) :
    (o.answer a w after).1 = .error () := by
  cases o with
  | ok => exact absurd rfl h
  | refused => rfl
  | lost => rfl

/-! ## The turns of the worker threads -/

/-- What a step that cannot fail any more returns is nothing to who only logs it. -/
theorem logged_result {α β : Type} (p : SubjectOp α) (f : Except Unit α → SubjectOp β)
    (hf : ∀ r, ∃ b, f r = .pure b) :
    SubjectOp.logged (p.result.bind f) = SubjectOp.logged (SubjectOp.logged p) := by
  induction p with
  | pure a =>
    obtain ⟨b, hb⟩ := hf (.ok a)
    exact congrArg SubjectOp.logged hb
  | fail e =>
    obtain ⟨b, hb⟩ := hf (.error e)
    exact congrArg SubjectOp.logged hb
  | call c k ih => exact congrArg (Prog.call c) (funext ih)

/-- A turn of the combiner is the one of the worker thread, whose errors end it. -/
theorem logged_combineTurn (state : WorkerState Config) (source target : String) :
    (combineTurn state source target).logged = (runCombineLoop state source target).logged := by
  refine congrArg (Prog.call SubjectCall.mode) (funext fun mode => ?_)
  cases mode with
  | idle => rfl
  | active | draining =>
    refine congrArg (Prog.call SubjectCall.connect) (funext fun r => ?_)
    cases r with
    | error e => rfl
    | ok a => rfl

/-- A turn of the input pipeline that has a subject to poll is the one of the worker thread. -/
theorem logged_inputTurn (state : WorkerState Config) {inputSubject : String}
    (h : inputSourceSubject state.roles state.config = .ok inputSubject) :
    (inputTurn state (some inputSubject)).logged = (runInputPipeline state).logged := by
  unfold runInputPipeline
  rw [h]
  refine congrArg (Prog.call SubjectCall.mode) (funext fun mode => ?_)
  cases mode with
  | idle => rfl
  | draining =>
    have hbind : (drainInputSubjects state).logged.bind (fun _ => .pure (some inputSubject)) =
        (drainInputSubjects state).result.bind fun _ => .pure (some inputSubject) := by
      rw [SubjectOp.logged, Prog.bind_assoc]
      rfl
    exact (congrArg SubjectOp.logged hbind).trans (logged_result _ _ fun _ => ⟨_, rfl⟩)
  | active =>
    show SubjectOp.logged ((Prog.ofExcept
        (inputSourceDurable state.roles state.config inputSubject)).bind _) =
      SubjectOp.logged ((Prog.ofExcept
        (inputSourceDurable state.roles state.config inputSubject)).bind _)
    cases inputSourceDurable state.roles state.config inputSubject with
    | error e => rfl
    | ok source =>
      refine congrArg (Prog.call _) (funext fun r => ?_)
      cases r with
      | error e => rfl
      | ok m =>
        cases m with
        | none => rfl
        | some message =>
          refine logged_result (SubjectOp.holding (processInputMessage state message)) _ ?_
          intro r
          cases r with
          | ok a => exact ⟨_, rfl⟩
          | error e => exact ⟨_, rfl⟩

/-! ## What the outside leaves alone -/

theorem extends_refl {S D M : Type} (l : Log S D M) : l.Extends l :=
  fun _ e h => ⟨e, h, rfl, fun _ h => h⟩

theorem extends_trans {S D M : Type} {l l' l'' : Log S D M} (h : l.Extends l')
    (h' : l'.Extends l'') : l.Extends l'' := by
  intro i e he
  obtain ⟨e', he', hs, hacked⟩ := h i e he
  obtain ⟨e'', he'', hs', hacked'⟩ := h' i e' he'
  exact ⟨e'', he'', hs'.trans hs, fun d hd => hacked' d (hacked d hd)⟩

theorem extends_hand {l l' : Log String String Message} {subject durable : String} {i : Nat}
    {message : Message} (h : l.hand subject durable i = some (message, l')) : l.Extends l' := by
  obtain ⟨_, _, _, rfl⟩ := Log.open_of_hand h
  exact Log.extends_modify Log.onward_hand

/-- What others do leaves the task and its turn alone, and the log only grows. -/
theorem taskMachine_move {s s' : TaskWorld} {v : TaskMove} (h : taskMachine.move s v = some s') :
    s'.memory = s.memory ∧ s'.turn = s.turn ∧ s.world.log.Extends s'.world.log := by
  cases v with
  | setMode mode =>
    cases h
    exact ⟨rfl, rfl, extends_refl _⟩
  | others v =>
    obtain ⟨w, hw, rfl⟩ := Option.map_eq_some_iff.mp h
    refine ⟨rfl, rfl, ?_⟩
    cases v with
    | store subject message =>
      cases hw
      exact Log.extends_append
    | discard i =>
      cases hw
      exact Log.extends_modify Log.onward_discard
    | handOut i queueGroup =>
      simp only [SubjectWorld.move] at hw
      split at hw
      · obtain ⟨handed, hhanded, rfl⟩ := Option.map_eq_some_iff.mp hw
        exact extends_hand hhanded
      · cases hw
    | acknowledge i queueGroup =>
      simp only [SubjectWorld.move] at hw
      split at hw
      · split at hw
        · cases hw
          exact Log.extends_modify Log.onward_ack
        · cases hw
      · cases hw

section Outside

variable {G : Guard SubjectCall TaskWorld SubjectOutcome TaskMove}

/-- An assertion about the task, its turn and a growing log is stable. -/
theorem stable_of_extends {P : TaskWorld → Prop}
    (h : ∀ s s', s'.memory = s.memory → s'.turn = s.turn → s.world.log.Extends s'.world.log →
      P s → P s') : (taskMachine.outside G).Stable P := by
  intro s s' hs hm
  obtain ⟨v, _, hv⟩ := hm
  obtain ⟨hmemory, hturn, hlog⟩ := taskMachine_move hv
  exact h s s' hmemory hturn hlog hs

/-- How a call is answered. -/
theorem answers_iff {s s' : TaskWorld} {c : SubjectCall} {a : SubjectAnswer c} :
    (taskMachine.outside G).answers s c a s' ↔ ∃ o, G.call s c o ∧
      a = (s.world.serve s.memory o c).1 ∧ s'.world = (s.world.serve s.memory o c).2.1 ∧
      s'.memory = (s.world.serve s.memory o c).2.2 ∧ s'.turn = s.turn.see c a := by
  constructor
  · intro ⟨o, hg, hserve⟩
    obtain ⟨rfl, rfl⟩ := Prod.mk.inj (Option.some.inj hserve)
    exact ⟨o, hg, rfl, rfl, rfl, rfl⟩
  · intro ⟨o, hg, ha, hworld, hmemory, hturn⟩
    subst ha
    obtain ⟨w, x, t⟩ := s'
    simp only at hworld hmemory hturn
    subst hworld hmemory hturn
    exact ⟨o, hg, rfl⟩

end Outside

/-! ## A message in hand -/

/-- The task holds the message for the durable, and nothing about it has failed; the turn has
connected `connects` times and tried `tries` times to register the message. -/
structure Carries (i : Nat) (durable : String) (connects tries : Nat) (s : TaskWorld) : Prop where
  hand : ∃ hand, s.memory.hand = some hand ∧ hand.entry = i ∧ hand.durable = durable
  entry : ∃ e, s.world.log.entries[i]? = some e
  turn : s.turn = ⟨connects, tries, false⟩

/-- The durable has acknowledged the message, and nothing has failed. -/
structure Settling (i : Nat) (durable : String) (connects tries : Nat) (s : TaskWorld) : Prop where
  acked : ∃ e, s.world.log.entries[i]? = some e ∧ durable ∈ e.acked
  turn : s.turn = ⟨connects, tries, false⟩

section Message

variable {G : Guard SubjectCall TaskWorld SubjectOutcome TaskMove} {allowed : Prop}
  {i connects tries : Nat} {durable : String}

theorem Carries.stable : (taskMachine.outside G).Stable (Carries i durable connects tries) := by
  refine stable_of_extends fun s s' hmemory hturn hlog h => ?_
  obtain ⟨e, he⟩ := h.entry
  obtain ⟨e', he', _⟩ := hlog i e he
  exact ⟨hmemory ▸ h.hand, ⟨e', he'⟩, hturn ▸ h.turn⟩

theorem Settling.stable : (taskMachine.outside G).Stable (Settling i durable connects tries) := by
  refine stable_of_extends fun s s' hmemory hturn hlog h => ?_
  obtain ⟨e, he, hacked⟩ := h.acked
  obtain ⟨e', he', _, hmore⟩ := hlog i e he
  exact ⟨⟨e', he', hmore _ hacked⟩, hturn ▸ h.turn⟩

/-- What a program of the worker expects of the outside, and has to keep. -/
abbrev workOutside (G : Guard SubjectCall TaskWorld SubjectOutcome TaskMove) :
    Outside WorkCall WorkAnswer TaskWorld :=
  (taskMachine.outside G).lifted SubjectCall.work fun _ a => a

abbrev workCareful : Contract WorkCall TaskWorld := careful.lifted SubjectCall.work

variable (hG : ∀ s c o, G.call s c o → allowed ∨ Spared s o c)

/-- A call after which the message is still in hand, where nothing about it fails. -/
theorem Carries.after {s s' : TaskWorld} (h : Carries i durable connects tries s)
    (hhand : s'.memory.hand = s.memory.hand.map fun hand => { hand with
      sent := (s'.memory.hand.map (·.sent)).getD [] })
    (hlog : s.world.log.Extends s'.world.log) (hturn : s'.turn = s.turn) :
    Carries i durable connects tries s' := by
  obtain ⟨hand, hsome, hentry, hdurable⟩ := h.hand
  obtain ⟨e, he⟩ := h.entry
  obtain ⟨e', he', _⟩ := hlog i e he
  rw [hsome, Option.map_some] at hhand
  exact ⟨⟨_, hhand, hentry, hdurable⟩, ⟨e', he'⟩, hturn ▸ h.turn⟩

include hG in
/-- A message that is published is still in hand. -/
theorem publishTo_carries (message : Message) (target : String) {s : TaskWorld}
    (h : Carries i durable connects tries s) :
    (workOutside G).Spec workCareful (fun _ => Carries i durable connects tries) (fun _ _ => allowed)
      (publishTo message target) s := by
  refine Outside.Spec.bind (R := fun r s => r = .ok () ∧ Carries i durable connects tries s ∨
    r = .error () ∧ allowed) (Outside.Spec.ask (by simp [Contract.lifted, careful]) ?_) ?_
  · intro a s' ⟨a', ha, heq⟩
    obtain rfl := heq
    obtain ⟨o, hg, ha, hworld, hmemory, hturn⟩ := answers_iff.mp ha
    refine ⟨trivial, fun s'' hl _ => ?_⟩
    have hanswer : a' = (o.call.answer () s.world (s.world.publish s.memory target message)).1 := ha
    by_cases hcall : o.call = .ok
    · rw [hcall] at hanswer
      subst hanswer
      refine .inl ⟨rfl, Carries.stable.later (h.after ?_ ?_ hturn) hl⟩
      · obtain ⟨hand, hsome, _⟩ := h.hand
        rw [hmemory]
        simp [SubjectWorld.serve, serveSubjectWork, hcall, SubjectMemory.publish, hsome]
      · rw [hworld]
        simp only [SubjectWorld.serve, serveSubjectWork, hcall, CallOutcome.answer]
        exact Log.extends_append
    · refine .inr ⟨?_, ?_⟩
      · rw [hanswer, answer_failed hcall]
      · exact (hG s _ o hg).resolve_right hcall
  · intro r s' hr
    rcases hr with ⟨rfl, h⟩ | ⟨rfl, hallowed⟩
    · exact h
    · exact hallowed

/-- A call that asks for the time or notifies the verifier. -/
def Harmless (c : WorkCall) : Prop :=
  c = .now ∨ ∃ url notification token, c = .notify url notification token

theorem Carries.harmless {s s' : TaskWorld} {c : WorkCall} {a : WorkAnswer c}
    (h : Carries i durable connects tries s) (hc : Harmless c)
    (ha : (workOutside G).answers s c a s') : Carries i durable connects tries s' := by
  obtain ⟨a', ha, _⟩ := ha
  obtain ⟨o, _, _, hworld, hmemory, hturn⟩ := answers_iff.mp ha
  obtain ⟨hand, hsome, _⟩ := h.hand
  rcases hc with rfl | ⟨url, notification, token, rfl⟩
  · refine h.after ?_ (hworld ▸ extends_refl _) hturn
    simp [hmemory, SubjectWorld.serve, serveSubjectWork, hsome]
  · refine h.after ?_ (hworld ▸ extends_refl _) hturn
    simp [hmemory, SubjectWorld.serve, serveSubjectWork, hsome]

theorem harmless_may {s : TaskWorld} {c : WorkCall} (hc : Harmless c) : workCareful.may s c := by
  intro hack
  rcases hc with rfl | ⟨url, notification, token, rfl⟩ <;> cases hack

/-- What only makes such calls leaves the message in hand. -/
theorem harmless_carries {α : Type} {p : WorkerOp α} (hp : p.Calls Harmless) {s : TaskWorld}
    (h : Carries i durable connects tries s) :
    (workOutside G).Spec workCareful (fun _ => Carries i durable connects tries)
      (fun _ => Carries i durable connects tries) p s :=
  (Outside.Spec.of_calls hp Carries.stable h trivial (fun _ _ hc _ _ => harmless_may hc)
    fun _ _ _ _ hc _ h ha => ⟨trivial, h.harmless hc ha⟩).mono (fun _ _ h => h.1) fun _ _ h => h.1

theorem calls_retryStatusRequest {F : WorkCall → Prop} {request : WorkerOp (Option Nat)}
    (h : request.Calls F) : (retryStatusRequest request).Calls F := by
  refine Prog.Calls.retry (fun _ => h.bind fun answer => ?_) trivial
  unfold statusRound
  split
  · split
    · trivial
    · split
      · split <;> trivial
      · trivial
  · trivial

theorem notifyObserver_carries (runtime : InceptorRuntime) (observer : ObserverConfig)
    (testId : String) (payload : Json) (route : TrafficRoute) {s : TaskWorld}
    (h : Carries i durable connects tries s) :
    (workOutside G).Spec workCareful (fun _ => Carries i durable connects tries) (fun _ _ => allowed)
      (notifyObserver runtime observer testId payload route) s := by
  unfold notifyObserver
  cases observer.notifyPath with
  | none => exact h
  | some path =>
    have hcalls : (runtime.notifyObserver path testId payload route).Calls Harmless :=
      calls_retryStatusRequest (Prog.Calls.of_ask.mpr (Or.inr ⟨_, _, _, rfl⟩))
    have hnotified : (workOutside G).Spec workCareful (fun _ => Carries i durable connects tries)
        (fun _ _ => allowed)
        ((runtime.notifyObserver path testId payload route).result : WorkerOp (Except Unit Unit))
        s := Outside.Spec.result (harmless_carries hcalls h)
    refine hnotified.bind fun r s h => ?_
    cases r <;> exact h

/-- What becomes of a registration with one more answer. -/
theorem register_answers {url : String} {request : RegisterTestCaseRequest} {token : Option String}
    {s s' : TaskWorld} {status : Option Nat} (h : Carries i durable connects tries s)
    (ha : (workOutside G).answers s (.register url request token) status s') :
    (givesUp tries status = false ∧ Carries i durable connects (tries + 1) s') ∨
      givesUp tries status = true ∧ ∃ o, G.call s (.work (.register url request token)) o ∧
        o.status = status := by
  obtain ⟨a', ha, rfl⟩ := ha
  obtain ⟨o, hg, ha, hworld, hmemory, hturn⟩ := answers_iff.mp ha
  have hstatus : a' = o.status := ha
  subst hstatus
  cases hgives : givesUp tries o.status with
  | true => exact .inr ⟨rfl, o, hg, rfl⟩
  | false =>
    refine .inl ⟨rfl, ?_, ?_, ?_⟩
    · rw [hmemory]
      exact h.hand
    · rw [hworld]
      exact h.entry
    · rw [hturn]
      simp [TurnLog.see, h.turn, hgives]

include hG in
/-- One attempt to register: it succeeds, it is given up, or there is another one. -/
theorem registerRound_carries {url : String} {request : RegisterTestCaseRequest}
    {token : Option String} {s : TaskWorld} (h : Carries i durable connects tries s) :
    (workOutside G).Spec workCareful (fun o s => o = some () ∧ Carries i durable connects (tries + 1) s ∨
        o = none ∧ (tries + 1 ≠ deliveryAttempts ∧ Carries i durable connects (tries + 1) s ∨
          tries + 1 = deliveryAttempts ∧ allowed))
      (fun _ _ => allowed)
      ((Prog.ask (WorkCall.register url request token) : WorkerOp (Option Nat)).bind statusRound)
      s := by
  refine Outside.Spec.bind (R := fun status s =>
    (givesUp tries status = false ∧ Carries i durable connects (tries + 1) s) ∨
      givesUp tries status = true ∧ allowed) (Outside.Spec.ask ?_ ?_) fun status s hs => ?_
  · intro hack
    cases hack
  · intro status s' ha
    refine ⟨trivial, fun s'' hl _ => ?_⟩
    rcases register_answers h ha with ⟨hgives, h'⟩ | ⟨hgives, o, hg, rfl⟩
    · exact .inl ⟨hgives, Carries.stable.later h' hl⟩
    · refine .inr ⟨hgives, (hG s _ o hg).resolve_right fun hspared => ?_⟩
      have hspared : givesUp s.turn.registrations o.status = false := hspared
      rw [h.turn, hgives] at hspared
      cases hspared
  · -- an attempt is given up with an error, or it is the last one
    have hagain : givesUp tries status = decide (tries + 1 = deliveryAttempts) →
        tries + 1 ≠ deliveryAttempts ∧ Carries i durable connects (tries + 1) s ∨
          tries + 1 = deliveryAttempts ∧ allowed := by
      intro hlast
      rw [hlast] at hs
      simpa using hs
    unfold statusRound
    cases status with
    | none => exact .inr ⟨rfl, hagain rfl⟩
    | some status =>
      by_cases hsuccess : isSuccess status
      · simp only [hsuccess, if_true]
        simp only [givesUp, hsuccess, Bool.not_true, Bool.false_and] at hs
        exact .inl ⟨rfl, by simpa using hs⟩
      · by_cases hretry : retryableStatus status
        · simp only [hsuccess, hretry, Bool.false_eq_true, if_false, Bool.not_true]
          refine .inr ⟨rfl, hagain ?_⟩
          simp [givesUp, hsuccess, hretry]
        · by_cases herror : isErrorStatus status
          · simp only [hsuccess, hretry, herror, Bool.false_eq_true, if_false, Bool.not_false,
              if_true]
            simp only [givesUp, hsuccess, hretry, herror] at hs
            simpa using hs
          · simp only [hsuccess, hretry, herror, Bool.false_eq_true, if_false, Bool.not_false,
              if_true]
            simp only [givesUp, hsuccess, hretry, herror] at hs
            exact .inl ⟨rfl, by simpa using hs⟩

include hG in
/-- A registration that succeeds leaves the message in hand, with nothing failed. -/
theorem registerTestCase_carries (runtime : InceptorRuntime) (testId : String) {s : TaskWorld}
    (h : Carries i durable connects 0 s) :
    (workOutside G).Spec workCareful (fun _ s => ∃ tries, Carries i durable connects tries s)
      (fun _ _ => allowed) (runtime.registerTestCase testId) s := by
  unfold InceptorRuntime.registerTestCase
  have hnow : (workOutside G).Spec workCareful (fun _ => Carries i durable connects 0) (fun _ _ => allowed)
      (Prog.ask WorkCall.now : WorkerOp Timestamp) s :=
    Outside.Spec.ask (harmless_may (.inl rfl)) fun a s' ha =>
      ⟨trivial, fun s'' hl _ => Carries.stable.later (h.harmless (.inl rfl) ha) hl⟩
  refine hnow.bind fun now s h => ?_
  -- the number of the attempt is that of the registrations so far
  suffices hgo : ∀ n k s request, k + (n + 1) = deliveryAttempts → Carries i durable connects k s →
      (workOutside G).Spec workCareful (fun _ s => ∃ tries, Carries i durable connects tries s)
        (fun _ _ => allowed) (Prog.retry.go (fun _ => (Prog.ask (WorkCall.register
          runtime.testcaseRegistrationUrl request runtime.authToken)).bind statusRound)
            (.fail ()) (n + 1) k : WorkerOp Unit) s by
    exact hgo 9 0 s _ rfl h
  intro n
  induction n with
  | zero =>
    intro k s request hk h
    refine (registerRound_carries hG h).bind fun o s ho => ?_
    rcases ho with ⟨rfl, h⟩ | ⟨rfl, ⟨hmore, _⟩ | ⟨_, hallowed⟩⟩
    · exact ⟨_, h⟩
    · exact absurd hk hmore
    · exact hallowed
  | succ n ih =>
    intro k s request hk h
    refine (registerRound_carries hG h).bind fun o s ho => ?_
    rcases ho with ⟨rfl, h⟩ | ⟨rfl, ⟨_, h⟩ | ⟨hlast, _⟩⟩
    · exact ⟨_, h⟩
    · exact ih (k + 1) s request (by omega) h
    · omega

include hG in
/-- What the observer makes of a message leaves it in hand. -/
theorem report_carries (runtime : InceptorRuntime) (observed : Option (ObserverConfig × String))
    (payload : Json) (route : TrafficRoute) {s : TaskWorld} (h : Carries i durable connects 0 s) :
    (workOutside G).Spec workCareful (fun _ s => ∃ tries, Carries i durable connects tries s)
      (fun _ _ => allowed) (report runtime true observed payload route) s := by
  cases observed with
  | none => exact ⟨0, h⟩
  | some observed =>
    unfold report
    refine (notifyObserver_carries runtime observed.1 observed.2 payload route h).bind
      fun notified s h => ?_
    simp only [if_true]
    split
    · exact registerTestCase_carries hG runtime observed.2 h
    · exact ⟨0, h⟩

include hG in
/-- **An acknowledgement** settles the message in hand. -/
theorem ack_settles {s : TaskWorld} (h : Carries i durable connects tries s) :
    (workOutside G).Spec workCareful (fun _ => Settling i durable connects tries) (fun _ _ => allowed) ack s := by
  refine Outside.Spec.bind (R := fun r s => r = .ok () ∧ Settling i durable connects tries s ∨
    r = .error () ∧ allowed) (Outside.Spec.ask (fun _ => by rw [h.turn]) ?_) fun r s hr => ?_
  · intro a s' ⟨a', ha, heq⟩
    obtain rfl := heq
    obtain ⟨o, hg, ha, hworld, hmemory, hturn⟩ := answers_iff.mp ha
    refine ⟨trivial, fun s'' hl _ => ?_⟩
    obtain ⟨hand, hsome, rfl, rfl⟩ := h.hand
    obtain ⟨e, he⟩ := h.entry
    have hserve : s.world.serve s.memory o (.work .ack) =
        ((o.call.answer () s.world.log (s.world.log.ack hand.entry hand.durable)).1,
          { s.world with
            log := (o.call.answer () s.world.log (s.world.log.ack hand.entry hand.durable)).2 },
          s.memory) := by
      simp [SubjectWorld.serve, serveSubjectWork, hsome]
    rw [hserve] at ha hworld
    by_cases hcall : o.call = .ok
    · rw [hcall] at ha hworld
      refine .inl ⟨ha, Settling.stable.later ⟨⟨{ e with acked := hand.durable :: e.acked }, ?_,
        List.mem_cons_self⟩, hturn ▸ h.turn⟩ hl⟩
      rw [hworld]
      show (s.world.log.ack hand.entry hand.durable).entries[hand.entry]? = _
      rw [Log.ack, Log.modify_get he, if_pos rfl]
    · refine .inr ⟨?_, (hG s _ o hg).resolve_right hcall⟩
      rw [ha, answer_failed hcall]
  · rcases hr with ⟨rfl, h⟩ | ⟨rfl, hallowed⟩
    · exact h
    · exact hallowed

include hG in
/-- **Forwarding** leaves the message in hand, where no block is missing. -/
theorem forwardInput_carries {roles : List PluginRole} {duplicator splitter : Option TempPair}
    (hduplicator : hasRole roles .duplicator = true → duplicator ≠ none)
    (hsplitter : hasRole roles .duplicator = false → hasRole roles .splitter = true →
      splitter ≠ none)
    (sendToBlue : Bool) (message : Message) {s : TaskWorld} (h : Carries i durable connects tries s) :
    (workOutside G).Spec workCareful (fun _ => Carries i durable connects tries)
      (fun _ _ => allowed) (forwardInput roles duplicator splitter sendToBlue message) s := by
  unfold forwardInput
  by_cases hdup : hasRole roles .duplicator = true
  · simp only [hdup, if_true]
    cases duplicator with
    | none => exact absurd rfl (hduplicator hdup)
    | some pair =>
      refine Outside.Spec.bind (R := fun _ => Carries i durable connects tries) ?_ fun _ s h => ?_
      · cases pair.1 with
        | none => exact h
        | some green => exact publishTo_carries hG message green h
      refine Outside.Spec.bind (R := fun _ => Carries i durable connects tries) ?_ fun _ s h => h
      cases pair.2 with
      | none => exact h
      | some blue => exact publishTo_carries hG message blue h
  · simp only [hdup, Bool.false_eq_true, if_false]
    by_cases hsplit : hasRole roles .splitter = true
    · simp only [hsplit, if_true]
      cases splitter with
      | none => exact absurd rfl (hsplitter (by simpa using hdup) hsplit)
      | some pair =>
        cases sendToBlue with
        | true =>
          refine Outside.Spec.bind (R := fun _ => Carries i durable connects tries) ?_
            fun _ s h => h
          cases pair.2 with
          | none => exact h
          | some blue => exact publishTo_carries hG message blue h
        | false =>
          obtain ⟨green, blue⟩ := pair
          cases green with
          | none => exact h
          | some green => exact (publishTo_carries hG message green h).bind fun _ s h => h
    · simp only [hsplit, Bool.false_eq_true, if_false]
      exact h

variable {state : WorkerState Config} {message : Message}

include hG in
/-- **A message of the input pipeline** is settled, or something about it has failed. -/
theorem processInputMessage_settles {inputSubject : String}
    (hcomplete : inputSourceSubject state.roles state.config = .ok inputSubject)
    (hmode : state.config.mode.isCore = false) {s : TaskWorld} (h : Carries i durable connects 0 s) :
    (workOutside G).Spec workCareful (fun _ s => ∃ tries, Settling i durable connects tries s)
      (fun _ _ => allowed) (processInputMessage state message) s := by
  unfold processInputMessage processInputPayload
  rw [hmode]
  refine Outside.Spec.bind (R := fun _ s => ∃ tries, Carries i durable connects tries s) ?_
    fun _ s hs => ?_
  · refine (forwardInput_carries hG ?_ ?_ _ _ h).bind fun route s h =>
      report_carries hG state.runtime _ _ route h
    · intro hdup hnone
      rw [Option.map_eq_none_iff] at hnone
      simp only [inputSourceSubject, hdup, hnone, required, if_true] at hcomplete
      cases hcomplete
    · intro hdup hsplit hnone
      rw [Option.map_eq_none_iff] at hnone
      simp only [inputSourceSubject, hdup, hsplit, hnone, required, if_true, Bool.false_eq_true,
        if_false] at hcomplete
      cases hcomplete
  · obtain ⟨tries, h⟩ := hs
    exact (ack_settles hG h).mono (fun _ _ h => ⟨tries, h⟩) fun _ _ h => h

include hG in
/-- **A message of the combiner** is settled, or something about it has failed. -/
theorem processOutputMessage_settles {combiner : CombinerConfig} {source target : String}
    (hcomplete : state.config.combiner = some combiner)
    (hmode : state.config.mode.isCore = false) {s : TaskWorld} (h : Carries i durable connects 0 s) :
    (workOutside G).Spec workCareful (fun _ s => ∃ tries, Settling i durable connects tries s)
      (fun _ _ => allowed) (processOutputMessage state message source target) s := by
  unfold processOutputMessage
  rw [hmode, hcomplete]
  refine (publishTo_carries hG message target h).bind fun _ s h => ?_
  refine (report_carries hG state.runtime _ _ _ h).bind fun _ s ⟨tries, h⟩ => ?_
  exact (ack_settles hG h).mono (fun _ _ h => ⟨tries, h⟩) fun _ _ h => h

/-! ## The calls around a message -/

/-- A turn that has connected so many times, and has nothing to report of a message. -/
def Begun (connects : Nat) (s : TaskWorld) : Prop := s.turn = ⟨connects, 0, false⟩

theorem Begun.stable : (taskMachine.outside G).Stable (Begun connects) :=
  stable_of_extends fun _ _ _ hturn _ h => hturn.trans h

include hG in
/-- A message that is fetched is in hand. -/
theorem fetch_carries (policy : DeliverPolicy) (subject durable : String) {s : TaskWorld}
    (h : Begun connects s) :
    (taskMachine.outside G).Spec careful
      (fun m s => (m = none → Begun connects s) ∧
        (m ≠ none → ∃ i, Carries i durable connects 0 s))
      (fun _ s => Begun connects s ∧ (connects ≤ 1 ∨ allowed))
      (SubjectOp.fetch policy subject durable) s := by
  refine Outside.Spec.bind (R := fun r s => (r = .ok none ∧ Begun connects s) ∨
    (∃ message i, r = .ok (some message) ∧ Carries i durable connects 0 s) ∨
    r = .error () ∧ Begun connects s ∧ (connects ≤ 1 ∨ allowed)) (Outside.Spec.ask ?_ ?_)
    fun r s hr => ?_
  · intro hack
    cases hack
  · intro a s' ha
    refine ⟨trivial, fun s'' hl _ => ?_⟩
    obtain ⟨o, hg, ha, hworld, hmemory, hturn⟩ := answers_iff.mp ha
    have hbegun : Begun connects s' := hturn.trans h
    by_cases hcall : o.call = .ok
    · cases hpick : o.pick.bind fun i => (s.world.log.hand subject durable i).map fun handed =>
        (i, handed) with
      | none =>
        simp only [SubjectWorld.serve, hpick, hcall, CallOutcome.answer] at ha
        exact .inl ⟨ha, Begun.stable.later hbegun hl⟩
      | some picked =>
        obtain ⟨i, message, log⟩ := picked
        obtain ⟨_, hi, hhand⟩ := Option.bind_eq_some_iff.mp hpick
        obtain ⟨handed, hhand, heq⟩ := Option.map_eq_some_iff.mp hhand
        cases heq
        simp only [SubjectWorld.serve, hpick, hcall, CallOutcome.answer, if_true] at ha hworld hmemory
        refine .inr (.inl ⟨message, i, ha, Carries.stable.later ⟨?_, ?_, hbegun⟩ hl⟩)
        · exact ⟨_, by rw [hmemory], rfl, rfl⟩
        · obtain ⟨e, he, _⟩ := Log.open_of_hand hhand
          obtain ⟨e', he', _⟩ := extends_hand hhand i e he
          rw [hworld]
          exact ⟨e', he'⟩
    · refine .inr (.inr ⟨?_, Begun.stable.later hbegun hl, ?_⟩)
      · rw [ha]
        simp only [SubjectWorld.serve]
        split <;> exact answer_failed hcall _ _ _
      · -- in a drain the turn has connected twice
        rcases hG s _ o hg with hallowed | hearly | hok
        · exact .inr hallowed
        · rw [h] at hearly
          exact .inl hearly
        · exact absurd hok hcall
  · rcases hr with ⟨rfl, h⟩ | ⟨message, i, rfl, h⟩ | ⟨rfl, h⟩
    · exact ⟨fun _ => h, fun hne => absurd rfl hne⟩
    · exact ⟨nofun, fun _ => ⟨i, h⟩⟩
    · exact h

include hG in
/-- A turn connects, and the first time it may fail. -/
theorem connect_begins {s : TaskWorld} (h : Begun connects s) :
    (taskMachine.outside G).Spec careful (fun _ => Begun (connects + 1))
      (fun _ s => Begun (connects + 1) s ∧ (connects = 0 ∨ allowed)) SubjectOp.connect s := by
  refine Outside.Spec.bind (R := fun r s => Begun (connects + 1) s ∧
    (r = .ok () ∨ r = .error () ∧ (connects = 0 ∨ allowed))) (Outside.Spec.ask ?_ ?_)
    fun r s hr => ?_
  · intro hack
    cases hack
  · intro a s' ha
    refine ⟨trivial, fun s'' hl _ => ?_⟩
    obtain ⟨o, hg, ha, _, _, hturn⟩ := answers_iff.mp ha
    have hbegun : Begun (connects + 1) s' := by
      rw [Begun, hturn, TurnLog.see, h]
    refine ⟨Begun.stable.later hbegun hl, ?_⟩
    by_cases hcall : o.call = .ok
    · left
      rw [ha, SubjectWorld.serve, hcall]
      rfl
    · right
      refine ⟨ha.trans (answer_failed hcall () s.world s.world), ?_⟩
      rcases hG s _ o hg with hallowed | hfirst | hok
      · exact .inr hallowed
      · rw [h] at hfirst
        exact .inl hfirst
      · exact absurd hok hcall
  · obtain ⟨h, rfl | ⟨rfl, hfails⟩⟩ := hr
    · exact h
    · exact ⟨h, hfails⟩

theorem mode_begins {ε : Type} {s : TaskWorld} (h : Begun connects s) {E : ε → TaskWorld → Prop} :
    (taskMachine.outside G).Spec careful (fun _ => Begun connects) E
      (Prog.ask SubjectCall.mode : Prog SubjectCall SubjectAnswer ε RuntimeMode) s := by
  refine Outside.Spec.ask ?_ ?_
  · intro hack
    cases hack
  · intro a s' ha
    obtain ⟨o, _, _, _, _, hturn⟩ := answers_iff.mp ha
    exact ⟨trivial, fun s'' hl _ => Begun.stable.later (hturn.trans h) hl⟩

/-- What holds of the message still holds when it has gone out of scope. -/
theorem holding_keeps {P : TaskWorld → Prop} {p : WorkerOp Unit}
    (hstable : (taskMachine.outside G).Stable P)
    (hdrop : ∀ s s', s'.world = s.world → s'.turn = s.turn → P s → P s') {s : TaskWorld}
    (h : (workOutside G).Spec workCareful (fun _ => P) (fun _ _ => allowed) p s) :
    (taskMachine.outside G).Spec careful (fun _ => P) (fun _ _ => allowed)
      (SubjectOp.holding p) s := by
  have hwork : (taskMachine.outside G).Spec careful
      (fun r s => (r = .ok () ∧ P s) ∨ (r = .error () ∧ allowed)) (fun (_ : Unit) _ => allowed)
      ((SubjectOp.work p).result : SubjectOp (Except Unit Unit)) s := by
    refine Outside.Spec.result (Outside.Spec.lift (h.mono ?_ ?_))
    · exact fun _ _ h => .inl ⟨rfl, h⟩
    · exact fun _ _ h => .inr ⟨rfl, h⟩
  refine hwork.bind fun r s hr => ?_
  refine Outside.Spec.bind (R := fun _ s => (r = .ok () ∧ P s) ∨ (r = .error () ∧ allowed))
    (Outside.Spec.ask ?_ ?_) fun _ s hr => ?_
  · intro hack
    cases hack
  · intro a s' ha
    obtain ⟨o, _, _, hworld, _, hturn⟩ := answers_iff.mp ha
    refine ⟨trivial, fun s'' hl _ => hr.imp (fun hr => ⟨hr.1, ?_⟩) id⟩
    exact hstable.later (hdrop s s' hworld hturn hr.2) hl
  · rcases hr with ⟨rfl, h⟩ | ⟨rfl, hallowed⟩
    · exact h
    · exact hallowed

include hG in
/-- **The messages a drain moves back** are settled one by one. -/
theorem moveSubjectMessages_begins (source target durable : String) (max : Nat) {s : TaskWorld}
    (h : Begun connects s) :
    (taskMachine.outside G).Spec careful (fun _ => Begun connects)
      (fun _ _ => connects ≤ 1 ∨ allowed) (moveSubjectMessages source target durable max) s := by
  induction max generalizing s with
  | zero => exact h
  | succ max ih =>
    refine ((fetch_carries hG .all source durable h).mono (fun _ _ h => h) fun _ _ h => h.2).bind
      fun m s hm => ?_
    cases m with
    | none => exact hm.1 rfl
    | some message =>
      obtain ⟨i, hcarries⟩ := hm.2 nofun
      have hmoved : (workOutside G).Spec workCareful (fun _ => Settling i durable connects 0)
          (fun _ _ => allowed) (do publishTo message target; ack) s :=
        (publishTo_carries hG message target hcarries).bind fun _ s h => ack_settles hG h
      refine ((holding_keeps Settling.stable ?_ hmoved).mono (fun _ _ h => h)
        fun _ _ h => .inr h).bind fun _ s h => ?_
      · exact fun s s' hworld hturn h => ⟨hworld ▸ h.acked, hturn ▸ h.turn⟩
      · exact (ih h.turn).bind fun _ s h => h

/-- A message that is settled stays so when it has gone out of scope. -/
theorem holding_settles {p : WorkerOp Unit} {s : TaskWorld}
    (h : (workOutside G).Spec workCareful (fun _ s => ∃ tries, Settling i durable connects tries s)
      (fun _ _ => allowed) p s) :
    (taskMachine.outside G).Spec careful (fun _ s => ∃ tries, Settling i durable connects tries s)
      (fun _ _ => allowed) (SubjectOp.holding p) s := by
  refine holding_keeps ?_ ?_ h
  · intro s s' hs hm
    obtain ⟨tries, hs⟩ := hs
    exact ⟨tries, Settling.stable s s' hs hm⟩
  · intro s s' hworld hturn hs
    obtain ⟨tries, hs⟩ := hs
    exact ⟨tries, hworld ▸ hs.acked, hturn ▸ hs.turn⟩

include hG in
/-- A poll whose error is caught. -/
theorem poll_carries {E : Unit → TaskWorld → Prop} (policy : DeliverPolicy)
    (subject durable : String) {s : TaskWorld} (h : Begun connects s) :
    (taskMachine.outside G).Spec careful
      (fun r s => ∀ message, r = .ok (some message) → ∃ i, Carries i durable connects 0 s) E
      ((SubjectOp.fetch policy subject durable).result :
        SubjectOp (Except Unit (Option Message))) s := by
  refine Outside.Spec.result ((fetch_carries hG policy subject durable h).mono ?_ ?_)
  · intro m s hm message heq
    cases heq
    exact hm.2 nofun
  · intro e s _ message heq
    cases heq

/-! ## A turn -/

/-- An error that is only logged is none of the turn. -/
theorem logged_begins {α : Type} {p : SubjectOp α} {Q : α → TaskWorld → Prop}
    {E : Unit → TaskWorld → Prop} {s : TaskWorld}
    (h : (taskMachine.outside G).Spec careful Q E p s) :
    (taskMachine.outside G).Spec careful (fun _ _ => True) (fun _ _ => False) p.logged s := by
  have hcaught : (taskMachine.outside G).Spec careful (fun _ _ => True) (fun (_ : Unit) _ => False)
      (p.result : SubjectOp (Except Unit α)) s :=
    Outside.Spec.result (h.mono (fun _ _ _ => trivial) fun _ _ _ => trivial)
  exact hcaught.bind fun _ _ _ => trivial

theorem drainInputSubjects_begins {s : TaskWorld} (h : Begun connects s) :
    (taskMachine.outside G).Spec careful (fun _ _ => True) (fun _ _ => True)
      (drainInputSubjects state) s := by
  have hany : ∀ s c o, G.call s c o → True ∨ Spared s o c := fun _ _ _ _ => .inl trivial
  unfold drainInputSubjects
  split
  · trivial
  · refine Outside.Spec.ofExcept_bind (fun _ _ => trivial) fun targets _ => ?_
    refine ((connect_begins hany h).mono (fun _ _ h => h) fun _ _ _ => trivial).bind fun _ s h => ?_
    refine (Outside.Spec.forEach (P := Begun (connects + 1)) h fun target _ s h => ?_).mono
      (fun _ _ _ => trivial) fun _ _ h => h
    exact ((moveSubjectMessages_begins hany _ _ _ _ h).mono (fun _ _ h => h)
      fun _ _ _ => trivial).bind fun _ s h => h

include hG in
theorem drainOutputSubject_begins (source target : String) {s : TaskWorld} (h : Begun 1 s) :
    (taskMachine.outside G).Spec careful (fun _ _ => True) (fun _ _ => allowed)
      (drainOutputSubject source target) s := by
  refine ((connect_begins hG h).mono (fun _ _ h => h) fun _ _ hfails => ?_).bind fun _ s h => ?_
  · exact hfails.2.resolve_left nofun
  · refine ((moveSubjectMessages_begins hG source target _ _ h).mono (fun _ _ h => h)
      fun _ _ hfails => ?_).bind fun _ s h => trivial
    exact hfails.resolve_left (by omega)

variable (state) in
/-- **A turn of the input pipeline** ends well, whatever fails, and hands on the subject it polls or
none, for which the next one connects again. -/
theorem inputTurn_survives {inputSubject : String} {source : SourceDurable}
    (hsubject : inputSourceSubject state.roles state.config = .ok inputSubject)
    (hdurable : inputSourceDurable state.roles state.config inputSubject = .ok source)
    (hmode : state.config.mode.isCore = false) {l : Option String}
    (hl : l = none ∨ l = some inputSubject) {s : TaskWorld} (h : Begun 0 s) :
    (taskMachine.outside G).Spec careful (fun l _ => l = none ∨ l = some inputSubject)
      (fun _ _ => False) (inputTurn state l) s := by
  have hany : ∀ s c o, G.call s c o → True ∨ Spared s o c := fun _ _ _ _ => .inl trivial
  rcases hl with rfl | rfl
  · refine (mode_begins h).bind fun mode s h => ?_
    have hconnect : (taskMachine.outside G).Spec careful (fun _ _ => True) (fun _ _ => False)
        (SubjectOp.connect.result : SubjectOp (Except Unit Unit)) s :=
      Outside.Spec.result ((connect_begins hany h).mono (fun _ _ _ => trivial)
        fun _ _ _ => trivial)
    cases mode with
    | idle => exact .inl rfl
    | active | draining =>
      refine hconnect.bind fun r s _ => ?_
      cases r with
      | error e => exact .inl rfl
      | ok a =>
        refine Outside.Spec.ofExcept_bind (fun e he => ?_) fun subject' hsubject' => ?_
        · rw [hsubject] at he
          cases he
        · rw [hsubject] at hsubject'
          cases hsubject'
          exact .inr rfl
  · refine (mode_begins h).bind fun mode s h => ?_
    cases mode with
    | idle => exact .inr rfl
    | draining => exact (logged_begins (drainInputSubjects_begins h)).bind fun _ _ _ => .inr rfl
    | active =>
      refine Outside.Spec.ofExcept_bind (fun e he => ?_) fun source' hsource => ?_
      · rw [hdurable] at he
        cases he
      · refine (poll_carries hany _ _ _ h).bind fun r s hr => ?_
        cases r with
        | error e => exact .inl rfl
        | ok m =>
          cases m with
          | none => exact .inr rfl
          | some message =>
            obtain ⟨i, hcarries⟩ := hr message rfl
            have hcaught : (taskMachine.outside G).Spec careful (fun _ _ => True)
                (fun (_ : Unit) _ => False)
                ((SubjectOp.holding (processInputMessage state message)).result :
                  SubjectOp (Except Unit Unit)) s :=
              Outside.Spec.result ((holding_settles
                (processInputMessage_settles hany hsubject hmode hcarries)).mono
                  (fun _ _ _ => trivial) fun _ _ _ => trivial)
            refine hcaught.bind fun r s _ => ?_
            cases r with
            | ok a => exact .inr rfl
            | error e => exact .inl rfl

include hG in
/-- **A turn of the combiner** ends well where what it does not catch does not fail. -/
theorem combineTurn_survives {combiner : CombinerConfig} {source target : String}
    (hcomplete : state.config.combiner = some combiner)
    (hmode : state.config.mode.isCore = false) {s : TaskWorld} (h : Begun 0 s) :
    (taskMachine.outside G).Spec careful (fun _ _ => True) (fun _ _ => allowed)
      (combineTurn state source target) s := by
  refine (mode_begins h).bind fun mode s h => ?_
  have hconnect : (taskMachine.outside G).Spec careful (fun _ => Begun 1)
      (fun (_ : Unit) _ => allowed) (SubjectOp.connect.result : SubjectOp (Except Unit Unit)) s :=
    Outside.Spec.result ((connect_begins hG h).mono (fun _ _ h => h) fun _ _ h => h.1)
  cases mode with
  | idle => trivial
  | active | draining =>
    refine hconnect.bind fun r s h => ?_
    cases r with
    | error e => trivial
    | ok a =>
      refine (mode_begins h).bind fun mode s h => ?_
      split
      · exact drainOutputSubject_begins hG source target h
      · refine (poll_carries hG _ _ _ h).bind fun r s hr => ?_
        cases r with
        | error e => trivial
        | ok m =>
          cases m with
          | none => trivial
          | some message =>
            obtain ⟨i, hcarries⟩ := hr message rfl
            exact (holding_settles (processOutputMessage_settles hG hcomplete hmode hcarries)).mono
              (fun _ _ _ => trivial) fun _ _ h => h

end Message

/-! ## A turn that nothing disturbs -/

/-- A call goes well; a poll is answered with the message at this place of the log. -/
def SubjectOutcome.fine (i : Nat) (now : Timestamp) : SubjectOutcome := ⟨.ok, some i, some 200, now⟩

/-- A message waits for the durable, and the mode is active. -/
structure Waits (subject durable : String) (i connects : Nat) (s : TaskWorld) : Prop where
  active : s.world.mode = .active
  hand : (s.world.log.hand subject durable i).isSome
  begun : Begun connects s

section Undisturbed

variable {i connects : Nat} {now : Timestamp} {subject durable : String}

abbrev undisturbed (i : Nat) (now : Timestamp) :
    Outside SubjectCall SubjectAnswer TaskWorld :=
  taskMachine.outside (Task.only (.fine i now))

theorem fine_spared (s : TaskWorld) (c : SubjectCall) (o : SubjectOutcome)
    (h : (Task.only (.fine i now) : Guard _ _ _ TaskMove).call s c o) : False ∨ Spared s o c := by
  cases (h : o = .fine i now)
  right
  cases c with
  | connect => exact .inr rfl
  | fetch policy subject durable => exact .inr rfl
  | work c => cases c <;> first | rfl | trivial
  | mode => trivial
  | setDraining => trivial
  | drop => trivial
  | backlog subject durable => trivial
  | respond status => trivial

/-- The one answer there is to a call. -/
theorem undisturbed_ask {ε : Type} {c : SubjectCall} {Q : SubjectAnswer c → TaskWorld → Prop}
    {E : ε → TaskWorld → Prop} {s s' : TaskWorld} {a : SubjectAnswer c} (hc : c ≠ .work .ack)
    (hs : taskMachine.serve s c (.fine i now) = some (a, s')) (h : Q a s') :
    (undisturbed i now).Spec careful Q E (Prog.ask c : Prog SubjectCall SubjectAnswer ε _) s := by
  refine Outside.Spec.ask (fun hack => absurd hack hc) fun a' w ha => ?_
  obtain ⟨o, ho, hw⟩ := ha
  cases (ho : o = .fine i now)
  rw [hs] at hw
  cases hw
  refine ⟨trivial, fun w' hl _ => ?_⟩
  rw [Machine.later_eq (fun _ _ hmove => hmove) hl]
  exact h

theorem mode_waits {ε : Type} {E : ε → TaskWorld → Prop} {s : TaskWorld}
    (h : Waits subject durable i connects s) :
    (undisturbed i now).Spec careful
      (fun mode s => mode = .active ∧ Waits subject durable i connects s) E
      (Prog.ask SubjectCall.mode : Prog SubjectCall SubjectAnswer ε RuntimeMode) s :=
  undisturbed_ask nofun rfl ⟨h.active, h.active, h.hand, h.begun⟩

theorem connect_waits {s : TaskWorld} (h : Waits subject durable i connects s) :
    (undisturbed i now).Spec careful
      (fun r s => r = .ok () ∧ Waits subject durable i (connects + 1) s) (fun (_ : Unit) _ => False)
      (SubjectOp.connect.result : SubjectOp (Except Unit Unit)) s := by
  refine Outside.Spec.result (Outside.Spec.bind (R := fun r s => r = .ok () ∧
    Waits subject durable i (connects + 1) s) (undisturbed_ask nofun rfl ⟨rfl, ?_⟩)
      fun r s hr => ?_)
  · refine ⟨h.active, h.hand, ?_⟩
    have hbegun : s.turn = ⟨connects, 0, false⟩ := h.begun
    simp [Begun, TurnLog.see, hbegun]
  · obtain ⟨rfl, h⟩ := hr
    exact ⟨rfl, h⟩

/-- The message that waits comes in hand. -/
theorem fetch_waits {policy : DeliverPolicy} {s : TaskWorld}
    (h : Waits subject durable i connects s) :
    (undisturbed i now).Spec careful
      (fun r s => ∃ message, r = .ok (some message) ∧ Carries i durable connects 0 s)
      (fun (_ : Unit) _ => False)
      ((SubjectOp.fetch policy subject durable).result :
        SubjectOp (Except Unit (Option Message))) s := by
  obtain ⟨⟨message, log⟩, hhand⟩ := Option.isSome_iff_exists.mp h.hand
  have hserve : taskMachine.serve s (.fetch policy subject durable) (.fine i now) =
      some (.ok (some message), ⟨{ s.world with log := log },
        { s.memory with hand := some ⟨i, subject, durable, []⟩ }, s.turn⟩) := by
    simp [taskMachine, SubjectWorld.serve, SubjectOutcome.fine, hhand, CallOutcome.answer,
      TurnLog.see]
  refine Outside.Spec.result (Outside.Spec.bind (R := fun r s => ∃ message,
    r = .ok (some message) ∧ Carries i durable connects 0 s)
      (undisturbed_ask nofun hserve ⟨message, rfl, ?_⟩) fun r s hr => ?_)
  · obtain ⟨e, he, _⟩ := Log.open_of_hand hhand
    obtain ⟨e', he', _⟩ := extends_hand hhand i e he
    exact ⟨⟨_, rfl, rfl, rfl⟩, ⟨e', he'⟩, h.begun⟩
  · obtain ⟨message, rfl, h⟩ := hr
    exact ⟨message, rfl, h⟩

/-- The entry is acknowledged by the durable. -/
def Acked (i : Nat) (durable : String) (s : TaskWorld) : Prop :=
  ∃ e, s.world.log.entries[i]? = some e ∧ durable ∈ e.acked

variable {state : WorkerState Config}

variable (now) in
/-- **The turn of the combiner that nothing disturbs** takes the message that waits. -/
theorem combineTurn_settles {combiner : CombinerConfig} {source target : String}
    (hcomplete : state.config.combiner = some combiner)
    (hmode : state.config.mode.isCore = false) {s : TaskWorld}
    (h : Waits source (durableName "combiner" source) i 0 s) :
    (undisturbed i now).Spec careful (fun _ => Acked i (durableName "combiner" source))
      (fun _ _ => False) (combineTurn state source target) s := by
  refine (mode_waits h).bind fun mode s hs => ?_
  obtain ⟨rfl, h⟩ := hs
  refine (connect_waits h).bind fun r s hr => ?_
  obtain ⟨rfl, h⟩ := hr
  refine (mode_waits h).bind fun mode s hs => ?_
  obtain ⟨rfl, h⟩ := hs
  refine (fetch_waits h).bind fun r s hr => ?_
  obtain ⟨message, rfl, hcarries⟩ := hr
  refine (holding_settles (processOutputMessage_settles fine_spared hcomplete hmode
    hcarries)).mono (fun _ s hs => ?_) fun _ _ h => h
  obtain ⟨tries, hs⟩ := hs
  exact hs.acked

variable (state now) in
/-- The turn in which the input pipeline connects. -/
theorem inputTurn_connects {inputSubject : String}
    (hsubject : inputSourceSubject state.roles state.config = .ok inputSubject) {s : TaskWorld}
    (h : Waits subject durable i 0 s) :
    (undisturbed i now).Spec careful
      (fun l s => l = some inputSubject ∧ Waits subject durable i 1 s)
      (fun _ _ => False) (inputTurn state none) s := by
  refine (mode_waits h).bind fun mode s hs => ?_
  obtain ⟨rfl, h⟩ := hs
  refine (connect_waits h).bind fun r s hr => ?_
  obtain ⟨rfl, h⟩ := hr
  refine Outside.Spec.ofExcept_bind (fun e he => ?_) fun subject' hsubject' => ?_
  · rw [hsubject] at he
    cases he
  · rw [hsubject] at hsubject'
    cases hsubject'
    exact ⟨rfl, h⟩

variable (state now) in
/-- **The turn of the input pipeline that nothing disturbs** takes the message that waits. -/
theorem inputTurn_settles {inputSubject : String} {source : SourceDurable}
    (hsubject : inputSourceSubject state.roles state.config = .ok inputSubject)
    (hdurable : inputSourceDurable state.roles state.config inputSubject = .ok source)
    (hmode : state.config.mode.isCore = false) {s : TaskWorld}
    (h : Waits inputSubject source.name i 0 s) :
    (undisturbed i now).Spec careful
      (fun l s => l = some inputSubject ∧ Acked i source.name s)
      (fun _ _ => False) (inputTurn state (some inputSubject)) s := by
  refine (mode_waits h).bind fun mode s hs => ?_
  obtain ⟨rfl, h⟩ := hs
  refine Outside.Spec.ofExcept_bind (fun e he => ?_) fun source' hsource => ?_
  · rw [hdurable] at he
    cases he
  · rw [hdurable] at hsource
    cases hsource
    refine (fetch_waits h).bind fun r s hr => ?_
    obtain ⟨message, rfl, hcarries⟩ := hr
    have hcaught : (undisturbed i now).Spec careful
        (fun r s => r = .ok () ∧ Acked i source.name s) (fun (_ : Unit) _ => False)
        ((SubjectOp.holding (processInputMessage state message)).result :
          SubjectOp (Except Unit Unit)) s := by
      refine Outside.Spec.result ((holding_settles
        (processInputMessage_settles fine_spared hsubject hmode hcarries)).mono ?_ ?_)
      · intro _ s hs
        obtain ⟨tries, hs⟩ := hs
        exact ⟨rfl, hs.acked⟩
      · exact fun _ _ h => h.elim
    refine hcaught.bind fun r s hr => ?_
    obtain ⟨rfl, hacked⟩ := hr
    exact ⟨rfl, hacked⟩

end Undisturbed

/-! ## The tasks -/

/-- **What a task has to be in every state.** It is there; it acknowledges a message only where
nothing about it has failed; and between two turns, undisturbed, it goes on to the message that
waits. -/
structure Survives {J L : Type} (T : Steps (Task SubjectCall SubjectAnswer Unit TaskWorld L)
    (Task.Event J SubjectOutcome TaskMove)) (subject durable : String)
    (s : Task SubjectCall SubjectAnswer Unit TaskWorld L) : Prop where
  running : s.returned = false
  unacked : ∀ k, s.prog = .call (.work .ack) k → s.world.turn.failed = false
  goesOn : ∀ (j : J) i now l, s.prog = .pure l → s.world.world.mode = .active →
    (s.world.world.log.hand subject durable i).isSome →
    ∃ s' l', T.Run (Task.Undisturbed (.fine i now) j) s s' ∧ s'.prog = .pure l' ∧
      Acked i durable s'.world

theorem returned_of_alive {L : Type} {G : Guard SubjectCall TaskWorld SubjectOutcome TaskMove}
    {R : L → Prop} {s : Task SubjectCall SubjectAnswer Unit TaskWorld L}
    (h : Task.Alive taskMachine G careful R s) : s.returned = false := by
  obtain ⟨w, p⟩ := s
  cases p with
  | pure l => rfl
  | call c k => rfl
  | fail e => exact absurd rfl (h.not_returned e)

/-- A turn begins with nothing in hand, and the world is as the last one has left it. -/
theorem waits_halt {subject durable : String} {i : Nat} {s : TaskWorld}
    (hactive : s.world.mode = .active) (hhand : (s.world.log.hand subject durable i).isSome) :
    Waits subject durable i 0 (taskMachine.halt s) := ⟨hactive, hhand, rfl⟩

section Tasks

variable {state : WorkerState Config} {messages : List (String × Message)}

theorem inputTask_survives {inputSubject : String} {source : SourceDurable}
    (hsubject : inputSourceSubject state.roles state.config = .ok inputSubject)
    (hdurable : inputSourceDurable state.roles state.config inputSubject = .ok source)
    (hmode : state.config.mode.isCore = false)
    {s : Task SubjectCall SubjectAnswer Unit TaskWorld (Option String)}
    (r : (inputTask state).Run (fun _ _ => True) ⟨.start messages, .pure none⟩ s) :
    Survives (inputTask state) inputSubject source.name s := by
  have halive : Task.Alive taskMachine .top careful
      (fun l => l = none ∨ l = some inputSubject) s := by
    refine Task.Run.alive (P := Begun 0) ?_ Begun.stable (fun _ _ => ⟨trivial, rfl⟩) ?_ trivial
      (.inl rfl) (r.mono fun s e _ => Task.meets_top s e)
    · intro _ _ _ _
      trivial
    · intro j l w hl _ hbegun
      exact inputTurn_survives { state with trafficPercent := j } hsubject hdurable hmode hl hbegun
  refine ⟨returned_of_alive halive, fun k hk => halive.may hk rfl, ?_⟩
  intro j i now l hl hactive hhand
  obtain ⟨w, p⟩ := s
  cases hl
  -- with a subject the next turn takes the message
  have htakes : ∀ w', w'.world.mode = .active →
      (w'.world.log.hand inputSubject source.name i).isSome →
      (inputTask state).Run (Task.Undisturbed (.fine i now) j) ⟨w, .pure l⟩
        ⟨w', .pure (some inputSubject)⟩ →
      ∃ s' l', (inputTask state).Run (Task.Undisturbed (.fine i now) j) ⟨w, .pure l⟩ s' ∧
        s'.prog = .pure l' ∧ Acked i source.name s'.world := by
    intro w' hactive hhand r
    obtain ⟨w'', l', r, hl', hacked⟩ := Task.Run.next (fun _ _ => rfl) r
      (inputTurn_settles now { state with trafficPercent := j } hsubject hdurable hmode
        (waits_halt hactive hhand))
    exact ⟨_, l', r, rfl, hacked⟩
  rcases halive.between rfl with rfl | rfl
  · have hstart : (inputTask state).Run (Task.Undisturbed (.fine i now) j) ⟨w, .pure none⟩
        ⟨w, .pure none⟩ := .nil
    obtain ⟨w', l', r, rfl, hwaits⟩ := Task.Run.next (fun _ _ => rfl) hstart
      (inputTurn_connects now { state with trafficPercent := j } hsubject (waits_halt hactive hhand))
    exact htakes w' hwaits.active hwaits.hand r
  · exact htakes w hactive hhand .nil

theorem combineTask_survives {combiner : CombinerConfig} {source target : String}
    (hcomplete : state.config.combiner = some combiner)
    (hmode : state.config.mode.isCore = false)
    {s : Task SubjectCall SubjectAnswer Unit TaskWorld Unit}
    (r : (combineTask state source target).Run (Task.Meets sparing) ⟨.start messages, .pure ()⟩ s) :
    Survives (combineTask state source target) source (durableName "combiner" source) s := by
  have halive : Task.Alive taskMachine sparing careful (fun _ => True) s := by
    refine Task.Run.alive (P := Begun 0) ?_ Begun.stable (fun _ _ => ⟨trivial, rfl⟩) ?_ trivial
      trivial r
    · intro _ _ _ _
      trivial
    · intro _ _ w _ _ hbegun
      exact combineTurn_survives (fun _ _ _ h => .inr h) hcomplete hmode hbegun
  refine ⟨returned_of_alive halive, fun k hk => halive.may hk rfl, ?_⟩
  intro j i now l hl hactive hhand
  obtain ⟨w, p⟩ := s
  cases hl
  have hstart : (combineTask state source target).Run (Task.Undisturbed (.fine i now) j)
      ⟨w, .pure ()⟩ ⟨w, .pure ()⟩ := .nil
  obtain ⟨w', l', r, hacked⟩ := Task.Run.next (fun _ _ => rfl) hstart
    (combineTurn_settles now hcomplete hmode (waits_halt hactive hhand))
  exact ⟨_, l', r, rfl, hacked⟩

/-- **Pipelines survive.** In every run the task of the input pipeline is there, acknowledges only
what went well and goes on to the next message; so is that of the combiner, in every run in which
what its turns hand on as their own errors does not fail. -/
theorem pipelines_survive (state : WorkerState Config) (messages : List (String × Message))
    (hmode : state.config.mode.isCore = false) :
    (∀ inputSubject source, inputSourceSubject state.roles state.config = .ok inputSubject →
      inputSourceDurable state.roles state.config inputSubject = .ok source →
      ∀ s, (inputTask state).Run (fun _ _ => True) ⟨.start messages, .pure none⟩ s →
        Survives (inputTask state) inputSubject source.name s) ∧
    ∀ targets, outputDrainTargets state.config = .ok targets →
      ∀ source ∈ [targets.green, targets.blue],
      ∀ s, (combineTask state source targets.base).Run (Task.Meets sparing)
          ⟨.start messages, .pure ()⟩ s →
        Survives (combineTask state source targets.base) source (combinerDurable source) s := by
  constructor
  · intro inputSubject source hsubject hdurable s r
    exact inputTask_survives hsubject hdurable hmode r
  · intro targets htargets source _ s r
    cases hcombiner : state.config.combiner with
    | none =>
      simp only [outputDrainTargets, hcombiner, required] at htargets
      cases htargets
    | some combiner => exact combineTask_survives hcombiner hmode r

end Tasks

/-! ## Runs -/

section Sample

/-- An inceptor that splits the orders and combines the invoices. -/
def orderShop : WorkerState Config where
  crates := FluidBG.Sample.workerCrates
  config := {
    mode := .jetStream
    stream := .empty
    duplicator := none
    splitter := some {
      inputSubject := some "orders"
      greenInputSubject := some "fluidbg-green-in"
      blueInputSubject := some "fluidbg-blue-in"
      queueGroup := none
      greenQueueGroup := none
      blueQueueGroup := none
      greenInputSubjectEnvVar := none
      blueInputSubjectEnvVar := none
      greenQueueGroupEnvVar := none
      blueQueueGroupEnvVar := none
      temporarySubjectIdentifier := none }
    combiner := some {
      outputSubject := some "invoices"
      greenOutputSubject := some "fluidbg-green-out"
      blueOutputSubject := some "fluidbg-blue-out"
      greenOutputSubjectEnvVar := none
      blueOutputSubjectEnvVar := none
      temporarySubjectIdentifier := none }
    writer := none
    consumer := none
    observer := none }
  roles := [.splitter, .combiner]
  trafficPercent := 0
  runtime := FluidBG.Sample.workerRuntime

instance decidableSpared (s : TaskWorld) (o : SubjectOutcome) :
    (c : SubjectCall) → Decidable (Spared s o c)
  | .work (.publish _ _) => inferInstanceAs (Decidable (o.call = .ok))
  | .work .ack => inferInstanceAs (Decidable (o.call = .ok))
  | .work (.register _ _ _) =>
    inferInstanceAs (Decidable (givesUp s.turn.registrations o.status = false))
  | .connect => inferInstanceAs (Decidable (s.turn.connects = 0 ∨ o.call = .ok))
  | .fetch _ _ _ => inferInstanceAs (Decidable (s.turn.connects ≤ 1 ∨ o.call = .ok))
  | .work .requeue => .isTrue trivial
  | .work .now => .isTrue trivial
  | .work (.notify _ _ _) => .isTrue trivial
  | .mode => .isTrue trivial
  | .setDraining => .isTrue trivial
  | .drop => .isTrue trivial
  | .backlog _ _ => .isTrue trivial
  | .respond _ => .isTrue trivial

instance decidableSparing (s : TaskWorld) (c : SubjectCall) (o : SubjectOutcome) :
    Decidable (sparing.call s c o) := decidableSpared s o c

instance decidableSparingMove (s : TaskWorld) (v : TaskMove) : Decidable (sparing.move s v) :=
  .isTrue trivial

/-- A call that ends so, while the first message of the log is at hand. -/
def ends {J : Type} (call : CallOutcome) : Task.Event J SubjectOutcome TaskMove :=
  .answer ⟨call, some 0, some 200, 0⟩

/-- The combiner fetches a message, and the publication of it ends so. -/
def combines (call : CallOutcome) : List (Task.Event Unit SubjectOutcome TaskMove) :=
  [.move (.setMode .active), .again ()] ++ List.replicate 4 (ends .ok) ++ [ends call]

/-- The first connect of the input pipeline fails, and later the publication of a message. -/
def pipes : List (Task.Event Nat SubjectOutcome TaskMove) :=
  [.move (.setMode .active), .again 0, ends .ok, ends .refused, .again 0, ends .ok, ends .ok,
    .again 0, ends .ok, ends .ok, ends .refused]

def pipelinesSurviveOrdersInput : PLift ((Steps.run (inputTask orderShop) (fun _ _ => True)
      ⟨.start [("orders", FluidBG.Sample.order)], .pure none⟩ pipes).map
        (·.world.turn.failed) = some true) :=
  ⟨by decide +kernel⟩

def pipelinesSurviveOrdersOutput :
    PLift ((Steps.run (combineTask orderShop "fluidbg-green-out" "invoices")
      (Task.Meets sparing) ⟨.start [("fluidbg-green-out", FluidBG.Sample.order)], .pure ()⟩
        (combines .ok)).map (fun s => s.world.memory.hand.map (·.sent)) =
      some (some ["invoices"])) :=
  ⟨by decide +kernel⟩

/-- The tasks survive what fails there. -/
theorem pipelines_survive_orders :
    (∃ s, s.world.turn.failed = true ∧
      Survives (inputTask orderShop) "orders" (durableName "input" "orders") s) ∧
    ∃ s, s.world.memory.hand.map (·.sent) = some ["invoices"] ∧
      Survives (combineTask orderShop "fluidbg-green-out" "invoices") "fluidbg-green-out"
        (combinerDurable "fluidbg-green-out") s := by
  have hinput := pipelinesSurviveOrdersInput.down
  have houtput := pipelinesSurviveOrdersOutput.down
  obtain ⟨s, r, hs⟩ := Steps.Run.exists_of_run hinput
  obtain ⟨s', r', hs'⟩ := Steps.Run.exists_of_run houtput
  exact ⟨⟨s, hs, (pipelines_survive orderShop _ rfl).1 "orders"
      ⟨durableName "input" "orders", false⟩ rfl rfl s r⟩,
    ⟨s', hs', (pipelines_survive orderShop _ rfl).2 ⟨"invoices", "fluidbg-green-out",
      combinerDurable "fluidbg-green-out", "fluidbg-blue-out", combinerDurable "fluidbg-blue-out"⟩
      rfl _ (List.mem_cons_self) s' r'⟩⟩

def combinerReturnsRun :
    PLift ((Steps.run (combineTask orderShop "fluidbg-green-out" "invoices") (fun _ _ => True)
      ⟨.start [("fluidbg-green-out", FluidBG.Sample.order)], .pure ()⟩
        (combines .refused ++ [ends .ok])).map (·.returned) = some true) :=
  ⟨by decide +kernel⟩

/-- A message of the combiner is not published, and its task has ended. -/
theorem combiner_returns :
    ∃ s, (combineTask orderShop "fluidbg-green-out" "invoices").Run (fun _ _ => True)
      ⟨.start [("fluidbg-green-out", FluidBG.Sample.order)], .pure ()⟩ s ∧ s.returned = true := by
  have h := combinerReturnsRun.down
  exact Steps.Run.exists_of_run h

end Sample

end FluidBG.Nats
