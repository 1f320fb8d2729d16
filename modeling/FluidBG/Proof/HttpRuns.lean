import FluidBG.Lib.Runs
import FluidBG.Proof.ProxyBodies
/-!
# The runs of the HTTP proxy

What a request leaves behind, whatever the verifier, the operator and the endpoint answer. A run is
the list of the calls that were made with their answers, so a statement about all runs holds for
every order of failures the outside can come up with.
-/

set_option autoImplicit false

namespace FluidBG

open Lib

/-! ## Deliveries of the SDK -/

/-- The answers after which `retry_status_request` asks again: none at all, or a status that says
that a later try may go better. -/
def asksAgain (answer : Option Nat) : Bool := answer.all retryableStatus

/-- **One delivery**: the answers it got, and how it ended. -/
inductive Delivered : List (Option Nat) → Except Unit Unit → Prop
  | answered (again : List (Option Nat)) (status : Nat) (hagain : ∀ a ∈ again, asksAgain a)
      (htries : again.length < deliveryAttempts) (hfinal : retryableStatus status = false) :
      Delivered (again ++ [some status]) (if isErrorStatus status then .error () else .ok ())
  | exhausted (again : List (Option Nat)) (hagain : ∀ a ∈ again, asksAgain a)
      (htries : again.length = deliveryAttempts) : Delivered again (.error ())

theorem not_retryable_of_isSuccess {status : Nat} (h : isSuccess status = true) :
    retryableStatus status = false := by
  simp only [isSuccess, Bool.and_eq_true, decide_eq_true_eq] at h
  simp only [retryableStatus, Bool.or_eq_false_iff, Bool.and_eq_false_iff, decide_eq_false_iff_not]
  omega

theorem not_error_of_isSuccess {status : Nat} (h : isSuccess status = true) :
    isErrorStatus status = false := by
  simp only [isSuccess, Bool.and_eq_true, decide_eq_true_eq] at h
  simp only [isErrorStatus, Bool.and_eq_false_iff, decide_eq_false_iff_not]
  omega

/-- What one round makes of a final status. -/
theorem statusRound_final {status : Nat} (h : retryableStatus status = false) :
    statusRound (some status) = if isErrorStatus status then .fail () else .pure (some ()) := by
  unfold statusRound
  by_cases hsuccess : isSuccess status
  · simp [hsuccess, not_error_of_isSuccess hsuccess]
  · simp [hsuccess, h]

theorem statusRound_again {answer : Option Nat} (h : asksAgain answer) :
    statusRound answer = .pure none := by
  cases answer with
  | none => rfl
  | some status =>
    have hretry : retryableStatus status = true := h
    have hsuccess : isSuccess status = false := by
      cases hs : isSuccess status with
      | false => rfl
      | true =>
        rw [not_retryable_of_isSuccess hs] at hretry
        cases hretry
    simp [statusRound, hsuccess, hretry]

/-- Every answer is one of the two kinds. -/
theorem asksAgain_or_final (answer : Option Nat) :
    asksAgain answer = true ∨ ∃ status, answer = some status ∧ retryableStatus status = false := by
  cases answer with
  | none => exact .inl rfl
  | some status =>
    cases h : retryableStatus status with
    | true => exact .inl h
    | false => exact .inr ⟨status, rfl, h⟩

theorem statusRound_eq_again_iff {answer : Option Nat} :
    statusRound answer = .pure none ↔ asksAgain answer := by
  constructor
  · intro h
    rcases asksAgain_or_final answer with hagain | ⟨status, rfl, hfinal⟩
    · exact hagain
    · rw [statusRound_final hfinal] at h
      split at h <;> cases h
  · exact statusRound_again

theorem statusRound_leaf (answer : Option Nat) : Prog.Leaf (statusRound answer) := by
  rcases asksAgain_or_final answer with hagain | ⟨status, rfl, hfinal⟩
  · exact .inl (statusRound_again hagain)
  · rw [statusRound_final hfinal]
    cases isErrorStatus status with
    | true => exact .inr (.inr ⟨(), rfl⟩)
    | false => exact .inr (.inl ⟨(), rfl⟩)

theorem statusRound_ends_iff {c : WorkCall} {round : WorkAnswer c → WorkerOp (Option Unit)}
    {a : WorkAnswer c} {answer : Option Nat} (hround : round a = statusRound answer)
    {r : Except Unit Unit} :
    Prog.Ends round a r ↔ ∃ status, answer = some status ∧ retryableStatus status = false ∧
      r = if isErrorStatus status then .error () else .ok () := by
  unfold Prog.Ends
  rw [hround]
  rcases asksAgain_or_final answer with hagain | ⟨status, rfl, hfinal⟩
  · rw [statusRound_again hagain]
    constructor
    · rintro (⟨b, h, -⟩ | ⟨e, h, -⟩) <;> cases h
    · rintro ⟨status, rfl, hfinal, -⟩
      have hretry : retryableStatus status = true := hagain
      rw [hfinal] at hretry
      cases hretry
  · rw [statusRound_final hfinal]
    constructor
    · intro h
      refine ⟨status, rfl, hfinal, ?_⟩
      cases herror : isErrorStatus status with
      | true =>
        simp only [herror, if_true] at h
        rcases h with ⟨b, h, -⟩ | ⟨e, h, hr⟩
        · cases h
        · exact hr
      | false =>
        simp only [herror] at h
        rcases h with ⟨b, h, hr⟩ | ⟨e, h, -⟩
        · exact hr
        · cases h
    · rintro ⟨status', hstatus, -, hr⟩
      cases hstatus
      cases herror : isErrorStatus status with
      | true =>
        rw [herror] at hr
        exact .inr ⟨(), rfl, hr⟩
      | false =>
        rw [herror] at hr
        exact .inl ⟨(), rfl, hr⟩

/-- The runs of `retry_status_request` on a call that is answered with a status. -/
theorem run_delivery_iff {c : WorkCall} {round : WorkAnswer c → WorkerOp (Option Unit)}
    {read : WorkAnswer c → Option Nat} {back : Option Nat → WorkAnswer c}
    (hread : ∀ a, read (back a) = a) (hback : ∀ a, back (read a) = a)
    (hround : ∀ a, round a = statusRound (read a)) {trace : List (Prog.Event WorkAnswer)}
    {r : Except Unit Unit} :
    (Prog.retry deliveryAttempts (fun _ => (Prog.ask c).bind round) (.fail ())).Run trace r ↔
      ∃ answers, Delivered answers r ∧ trace = answers.map fun a => ⟨c, back a⟩ := by
  have hagain : ∀ a, round a = .pure none ↔ asksAgain (read a) := fun a => by
    rw [hround]
    exact statusRound_eq_again_iff
  rw [Prog.run_retry_iff fun a => hround a ▸ statusRound_leaf (read a)]
  constructor
  · intro h
    obtain ⟨again, hall, hcases⟩ := h
    have hmap : again.map (fun a => (⟨c, a⟩ : Prog.Event WorkAnswer)) =
        (again.map read).map fun a => ⟨c, back a⟩ := by
      rw [List.map_map]
      exact List.map_congr_left fun a _ => by simp [hback]
    have hasks : ∀ a ∈ again.map read, asksAgain a := by
      intro a ha
      obtain ⟨b, hb, rfl⟩ := List.mem_map.mp ha
      exact (hagain b).mp (hall b hb)
    rcases hcases with ⟨last, hlength, htrace, hlast⟩ | ⟨a, htries, htrace, hends⟩
    · cases hlast
      refine ⟨again.map read, .exhausted _ hasks (by simpa using hlength), ?_⟩
      rw [htrace, List.append_nil, hmap]
    · obtain ⟨status, hstatus, hfinal, hr⟩ := (statusRound_ends_iff (hround a)).mp hends
      rw [hr]
      refine ⟨again.map read ++ [some status],
        .answered _ status hasks (by simpa using htries) hfinal, ?_⟩
      rw [htrace, hmap, List.map_append, List.map_singleton, ← hstatus, hback]
  · intro h
    obtain ⟨answers, hdelivered, htrace⟩ := h
    have hall : ∀ again : List (Option Nat), (∀ a ∈ again, asksAgain a) →
        ∀ a ∈ again.map back, round a = .pure none := by
      intro again hasks a ha
      obtain ⟨b, hb, rfl⟩ := List.mem_map.mp ha
      rw [hagain, hread]
      exact hasks b hb
    cases hdelivered with
    | answered again status hasks htries hfinal =>
      refine ⟨again.map back, hall again hasks, .inr ⟨back (some status), by simpa using htries,
        by simp [htrace, Function.comp_def], ?_⟩⟩
      exact (statusRound_ends_iff (hround _)).mpr ⟨status, hread _, hfinal, rfl⟩
    | exhausted _ hasks htries =>
      exact ⟨answers.map back, hall answers hasks, .inl ⟨[], by simpa using htries,
        by simp [htrace, Function.comp_def], .fail ()⟩⟩

section Sdk

variable (runtime : InceptorRuntime)

/-- One try of `notify_observer`. -/
def noticeEvent (notifyPath testId : String) (payload : Json) (route : TrafficRoute)
    (answer : Option Nat) : Prog.Event WorkAnswer :=
  ⟨.notify (runtime.containerUrl
      (InceptorRuntime.renderPath notifyPath testId runtime.inceptionPoint))
    ⟨testId, runtime.inceptionPoint, route.asStr, payload⟩ runtime.authToken, answer⟩

/-- One try of `register_test_case`, which was begun at `now`. -/
def registrationEvent (testId : String) (now : Timestamp) (answer : Option Nat) :
    Prog.Event WorkAnswer :=
  ⟨.register runtime.testcaseRegistrationUrl {
    testId := testId
    blueGreenRef := runtime.blueGreenRef
    inceptionPoint := runtime.inceptionPoint
    triggeredAt := some now
    timeoutSeconds := some 120
    verifyUrl := runtime.testcaseVerifyPathTemplate.map fun path =>
      runtime.containerUrl (InceptorRuntime.renderPath path testId runtime.inceptionPoint) }
    runtime.authToken, answer⟩

variable {trace : List (Prog.Event WorkAnswer)} {r : Except Unit Unit}

theorem notifyObserver_run_iff (notifyPath testId : String) (payload : Json)
    (route : TrafficRoute) :
    (runtime.notifyObserver notifyPath testId payload route).Run trace r ↔
      ∃ answers, Delivered answers r ∧
        trace = answers.map (noticeEvent runtime notifyPath testId payload route) :=
  run_delivery_iff (fun _ => rfl) (fun _ => rfl) fun _ => rfl

theorem registerTestCase_run_iff (testId : String) :
    (runtime.registerTestCase testId).Run trace r ↔
      ∃ now answers, Delivered answers r ∧
        trace = ⟨.now, now⟩ :: answers.map (registrationEvent runtime testId now) := by
  unfold InceptorRuntime.registerTestCase
  rw [Prog.bind_def, Prog.Run.ask_bind_iff]
  constructor
  · intro h
    obtain ⟨now, rest, htrace, hrest⟩ := h
    obtain ⟨answers, hdelivered, hanswers⟩ :=
      (run_delivery_iff (fun _ => rfl) (fun _ => rfl) fun _ => rfl).mp hrest
    exact ⟨now, answers, hdelivered, by rw [htrace, hanswers]; rfl⟩
  · intro h
    obtain ⟨now, answers, hdelivered, htrace⟩ := h
    exact ⟨now, _, htrace,
      (run_delivery_iff (fun _ => rfl) (fun _ => rfl) fun _ => rfl).mpr ⟨answers, hdelivered, rfl⟩⟩

/-- **The runs of a delivery**: the same request again and again, at most ten times, and again only
after no answer or a status that says so. The time in a registration is read once, before the
first try. -/
theorem delivery_runs (notifyPath testId : String) (payload : Json) (route : TrafficRoute) :
    ((runtime.notifyObserver notifyPath testId payload route).Run trace r ↔
      ∃ answers, Delivered answers r ∧
        trace = answers.map (noticeEvent runtime notifyPath testId payload route)) ∧
    ((runtime.registerTestCase testId).Run trace r ↔
      ∃ now answers, Delivered answers r ∧
        trace = ⟨.now, now⟩ :: answers.map (registrationEvent runtime testId now)) :=
  ⟨notifyObserver_run_iff runtime notifyPath testId payload route,
    registerTestCase_run_iff runtime testId⟩

end Sdk

namespace Http

section Proxy

variable {crate : ProxyCrate}

/-! ## What a request leaves behind -/

/-- A call of the SDK, among those of the proxy. -/
def sdkEvent (e : Prog.Event WorkAnswer) : Prog.Event (@ProxyAnswer crate) := ⟨.runtime e.1, e.2⟩

/-- **The observer's part**: at most one notice, and a registration only after a notice that was
heard, for a route that is registered. -/
inductive Observed (state : ProxyState) (route : TrafficRoute) :
    Option (String × ObservationNotification) → List (Prog.Event (@ProxyAnswer crate)) → Prop
  | silent : Observed state route none []
  | noticed (url : String) (notification : ObservationNotification) (answer : Option Nat)
      (hend : route = .green ∨ answer.all isErrorStatus) :
      Observed state route (some (url, notification))
        [⟨.runtime (.notify url notification state.runtime.authToken), answer⟩]
  | registered (url : String) (notification : ObservationNotification) (status : Nat)
      (now : Timestamp) (answers : List (Option Nat)) (r : Except Unit Unit)
      (hheard : isErrorStatus status = false) (hroute : route ≠ .green)
      (hdelivered : Delivered answers r) :
      Observed state route (some (url, notification))
        (⟨.runtime (.notify url notification state.runtime.authToken), some status⟩ ::
          ⟨.runtime .now, now⟩ ::
          answers.map fun a => sdkEvent (registrationEvent state.runtime notification.testId now a))

/-- **The forwarding**: one request at most, and the response is made of its answer. -/
inductive Forwarded : Except (ProxyResponse crate) (ClientRequest crate) →
    List (Prog.Event (@ProxyAnswer crate)) → ProxyResponse crate → Prop
  | refused (response : ProxyResponse crate) : Forwarded (.error response) [] response
  | answered (sent : ClientRequest crate) (response : ClientResponse crate) :
      Forwarded (.ok sent) [⟨.send sent, some response⟩] (responseFromReqwest response)
  | unanswered (sent : ClientRequest crate) :
      Forwarded (.ok sent) [⟨.send sent, none⟩] (.plain 502 "upstream error")

/-- The notice a request leads to. A request that is streamed is not looked into. -/
def noticeFor (state : ProxyState) (request : ProxyRequest crate) (body : Body) :
    Option (String × ObservationNotification) :=
  if requestRequiresBuffer state then
    bodyNotice state request ((body.toBytes bodyLimit).getD [])
  else none

/-- Where a request is sent. -/
def targetFor (state : ProxyState) (request : ProxyRequest crate) (body : Body) :
    Except (ProxyResponse crate) (ClientRequest crate) :=
  if requestRequiresBuffer state then
    bodyTarget state request ((body.toBytes bodyLimit).getD [])
  else streamingTarget state request body

def routeFor (state : ProxyState) (body : Body) : TrafficRoute :=
  if requestRequiresBuffer state then bodyRoute state ((body.toBytes bodyLimit).getD [])
  else .blue

theorem proxyAdmitted_eq (state : ProxyState) (request : ProxyRequest crate) (body : Body) :
    proxyAdmitted state request body =
      (observe state (routeFor state body) (noticeFor state request body)).bind fun _ =>
        forwardTo (targetFor state request body) := by
  unfold proxyAdmitted routeFor noticeFor targetFor
  by_cases hbuffer : requestRequiresBuffer state
  · simp only [hbuffer, if_true]
    rfl
  · simp only [hbuffer]
    rfl

variable {trace : List (Prog.Event (@ProxyAnswer crate))}

theorem forwardTo_run_iff {target : Except (ProxyResponse crate) (ClientRequest crate)}
    {r : Except Unit (ProxyResponse crate)} :
    (forwardTo target).Run trace r ↔ ∃ response, Forwarded target trace response ∧
      r = .ok response := by
  cases target with
  | error response =>
    constructor
    · intro h
      cases h
      exact ⟨response, .refused response, rfl⟩
    · intro h
      obtain ⟨response', hforwarded, hr⟩ := h
      rw [hr]
      cases hforwarded
      exact .pure response
  | ok sent =>
    constructor
    · intro h
      cases h with
      | call _ _ answer rest _ hrest =>
        cases answer with
        | none =>
          cases hrest
          exact ⟨_, .unanswered sent, rfl⟩
        | some response =>
          cases hrest
          exact ⟨_, .answered sent response, rfl⟩
    · intro h
      obtain ⟨response, hforwarded, hr⟩ := h
      rw [hr]
      cases hforwarded with
      | answered _ response => exact Prog.Run.ask_bind_iff.mpr ⟨some response, [], rfl, .pure _⟩
      | unanswered => exact Prog.Run.ask_bind_iff.mpr ⟨none, [], rfl, .pure _⟩

theorem registerObserved_run_iff {state : ProxyState} {testId : String} {r : Except Unit Unit} :
    (@registerObserved crate state testId).Run trace r ↔ ∃ now answers delivery,
      Delivered answers delivery ∧ r = .ok () ∧
      trace = ⟨.runtime .now, now⟩ ::
        answers.map fun a => sdkEvent (registrationEvent state.runtime testId now a) := by
  have hlift : ∀ {trace : List (Prog.Event (@ProxyAnswer crate))} {o : Except Unit Unit},
      ((state.runtime.registerTestCase testId).lift (@ProxyCall.runtime crate)
        fun _ answer => answer).Run trace o ↔
      ∃ now answers, Delivered answers o ∧ trace = ⟨.runtime .now, now⟩ ::
        answers.map fun a => sdkEvent (registrationEvent state.runtime testId now a) := by
    intro trace o
    rw [Prog.Run.lift_iff]
    constructor
    · intro h
      obtain ⟨events, hrun, htrace⟩ := h
      obtain ⟨now, answers, hdelivered, hevents⟩ :=
        (registerTestCase_run_iff state.runtime testId).mp hrun
      have hself : events.map (fun e => (⟨e.1, e.2⟩ : Prog.Event WorkAnswer)) = events :=
        List.map_id events
      rw [hself] at hevents
      refine ⟨now, answers, hdelivered, ?_⟩
      rw [htrace, hevents, List.map_cons, List.map_map]
      rfl
    · intro h
      obtain ⟨now, answers, hdelivered, htrace⟩ := h
      refine ⟨⟨.now, now⟩ :: answers.map (registrationEvent state.runtime testId now),
        (registerTestCase_run_iff state.runtime testId).mpr ⟨now, answers, hdelivered, ?_⟩, ?_⟩
      · exact List.map_id _
      · rw [htrace, List.map_cons, List.map_map]
        rfl
  unfold registerObserved
  rw [Prog.bind_def, Prog.Run.bind_iff]
  constructor
  · intro h
    rcases h with ⟨e, hrun, -⟩ | ⟨o, first, rest, hrun, hrest, htrace⟩
    · obtain ⟨_, _, he⟩ := Prog.Run.result_iff.mp hrun
      cases he
    · cases hrest
      obtain ⟨delivery, hdelivery, -⟩ := Prog.Run.result_iff.mp hrun
      obtain ⟨now, answers, hdelivered, hfirst⟩ := hlift.mp hdelivery
      exact ⟨now, answers, delivery, hdelivered, rfl, by rw [htrace, List.append_nil, hfirst]⟩
  · intro h
    obtain ⟨now, answers, delivery, hdelivered, hr, htrace⟩ := h
    refine .inr ⟨delivery, trace, [], Prog.Run.result_iff.mpr ⟨delivery, ?_, rfl⟩, ?_, ?_⟩
    · exact hlift.mpr ⟨now, answers, hdelivered, htrace⟩
    · rw [hr]
      exact .pure ()
    · exact (List.append_nil trace).symm

/-- The observer's part, once there is something to notice. -/
theorem observe_notice (state : ProxyState) (route : TrafficRoute) (url : String)
    (notification : ObservationNotification) :
    @observe crate state route (some (url, notification)) =
      (Prog.ask (.runtime (.notify url notification state.runtime.authToken))).bind
        fun (answer : Option Nat) =>
          if (answer.any fun status => !isErrorStatus status) && route.shouldRegisterCase then
            registerObserved state notification.testId
          else .pure () := by
  refine congrArg (Prog.call _) (funext fun answer => ?_)
  cases answer with
  | none => rfl
  | some status => rfl

theorem observe_run_iff {state : ProxyState} {route : TrafficRoute}
    {notice : Option (String × ObservationNotification)} {r : Except Unit Unit} :
    (@observe crate state route notice).Run trace r ↔ Observed state route notice trace ∧
      r = .ok () := by
  cases notice with
  | none =>
    constructor
    · intro h
      cases h
      exact ⟨.silent, rfl⟩
    · intro h
      rw [h.2]
      cases h.1
      exact .pure ()
  | some notice =>
    obtain ⟨url, notification⟩ := notice
    rw [observe_notice, Prog.Run.ask_bind_iff]
    constructor
    · intro h
      obtain ⟨answer, rest, htrace, hrest⟩ := h
      by_cases hregister : ((answer : Option Nat).any fun status => !isErrorStatus status) &&
          route.shouldRegisterCase
      · rw [if_pos hregister] at hrest
        obtain ⟨now, answers, delivery, hdelivered, hr, htail⟩ :=
          registerObserved_run_iff.mp hrest
        rw [Bool.and_eq_true, Option.any_eq_true] at hregister
        obtain ⟨⟨status, hstatus, hheard⟩, hroute⟩ := hregister
        rw [htrace, htail, hstatus]
        exact ⟨.registered url notification status now answers delivery (by simpa using hheard)
          (by simpa [TrafficRoute.shouldRegisterCase] using hroute) hdelivered, hr⟩
      · rw [if_neg hregister] at hrest
        obtain ⟨hnil, hr⟩ := Prog.Run.pure_iff.mp hrest
        rw [htrace, hnil]
        refine ⟨.noticed url notification answer ?_, hr⟩
        rw [Bool.and_eq_true, not_and_or] at hregister
        rcases hregister with hunheard | hroute
        · right
          cases hanswer : (answer : Option Nat) with
          | none => rfl
          | some status => simpa [hanswer] using hunheard
        · left
          simpa [TrafficRoute.shouldRegisterCase] using hroute
    · intro h
      rw [h.2]
      cases h.1 with
      | noticed _ _ answer hend =>
        refine ⟨answer, [], rfl, ?_⟩
        have hregister : ((answer.any fun status => !isErrorStatus status) &&
            route.shouldRegisterCase) = false := by
          rcases hend with hroute | hunheard
          · simp [hroute, TrafficRoute.shouldRegisterCase]
          · cases answer with
            | none => rfl
            | some status =>
              have herror : isErrorStatus status = true := hunheard
              simp [herror]
        rw [hregister]
        exact .pure ()
      | registered _ _ status now answers delivery hheard hroute hdelivered =>
        refine ⟨some status, _, rfl, ?_⟩
        have hregister : (((some status).any fun status => !isErrorStatus status) &&
            route.shouldRegisterCase) = true := by
          simp [hheard, TrafficRoute.shouldRegisterCase, hroute]
        rw [if_pos hregister]
        exact registerObserved_run_iff.mpr ⟨now, answers, delivery, hdelivered, rfl, rfl⟩

/-- **The runs of the proxy**, for a request it has admitted: the observer's part first, which
cannot end the handler or change what comes after it, and one request to the target then. -/
theorem proxied_runs (state : ProxyState) (request : ProxyRequest crate) (body : Body)
    (r : Except Unit (ProxyResponse crate)) :
    (proxyAdmitted state request body).Run trace r ↔ ∃ observed sent response,
      Observed state (routeFor state body) (noticeFor state request body) observed ∧
      Forwarded (targetFor state request body) sent response ∧
      trace = observed ++ sent ∧ r = .ok response := by
  rw [proxyAdmitted_eq, Prog.Run.bind_iff]
  constructor
  · intro h
    rcases h with ⟨e, hrun, -⟩ | ⟨_, observed, sent, hobserve, hforward, htrace⟩
    · cases (observe_run_iff.mp hrun).2
    · obtain ⟨response, hforwarded, hr⟩ := forwardTo_run_iff.mp hforward
      exact ⟨observed, sent, response, (observe_run_iff.mp hobserve).1, hforwarded, htrace, hr⟩
  · intro h
    obtain ⟨observed, sent, response, hobserved, hforwarded, htrace, hr⟩ := h
    exact .inr ⟨(), observed, sent, observe_run_iff.mpr ⟨hobserved, rfl⟩,
      forwardTo_run_iff.mpr ⟨response, hforwarded, hr⟩, htrace⟩

/-! ## What goes to whom -/

/-- The headers of a client that may be passed on. -/
def clientHeaders (request : ProxyRequest crate) : List (String × crate.HeaderValue) :=
  request.headers.entries.filter fun entry => shouldForwardRequestHeader entry.1

/-- An endpoint of the configuration. -/
def Endpoint (config : Config) (endpoint : String) : Prop :=
  config.blueEndpoint = some endpoint ∨ config.greenEndpoint = some endpoint ∨
    config.realEndpoint = some endpoint

/-- **What the handler may call**: the token of the plugin goes to the verifier and the operator
alone, and to the verifier goes no authorization of the client beside it. An endpoint gets what the
client sent. -/
inductive MayCall (state : ProxyState) (request : ProxyRequest crate) : ProxyCall crate → Prop
  | notice (path : String) (notification : ObservationNotification)
      (hpath : ∃ filter ∈ state.config.allFilters, filter.notifyPath = some path) :
      MayCall state request (.runtime (.notify (verifierUrl state path notification.testId)
        notification state.runtime.authToken))
  | clock : MayCall state request (.runtime .now)
  | registration (req : RegisterTestCaseRequest) :
      MayCall state request (.runtime (.register state.runtime.testcaseRegistrationUrl req
        state.runtime.authToken))
  | endpoint (endpoint : String) (hendpoint : Endpoint state.config endpoint)
      (body : BodyPayload) :
      MayCall state request (.send {
        method := request.method
        url := joinTargetUrl (state.resolveRuntimeEndpoint endpoint) request.pathAndQuery
        headers := clientHeaders request
        extraHeaders := []
        body := body })
  | verifier (path testId : String) (route : TrafficRoute) (body : BodyPayload)
      (hpath : state.config.mockPath = some path ∨
        ∃ filter ∈ state.config.allFilters, filter.mockPath = some path) :
      MayCall state request (.send {
        method := request.method
        url := verifierUrl state path testId
        headers := (clientHeaders request).filter fun entry =>
          !(state.runtime.authToken.isSome && isAuthorization entry.1)
        extraHeaders := verifierHeaders state testId route
        body := body })

theorem mem_of_matchingFilter {isMatch : String → String → Option Bool} {config : Config}
    {method path : String} {headers : HeaderMap crate.toHttpCrate} {body : Json}
    {filter : NotificationFilter}
    (h : matchingFilter isMatch config method path headers body = some filter) :
    filter ∈ config.allFilters :=
  List.mem_of_find?_eq_some h

theorem forwardedHeaders_none (request : ProxyRequest crate) :
    forwardedHeaders request.headers [] = clientHeaders request := by
  simp [forwardedHeaders, clientHeaders]

theorem any_isAuthorization_verifierHeaders (state : ProxyState) (testId : String)
    (route : TrafficRoute) :
    ((verifierHeaders state testId route).any fun header => isAuthorization header.1) =
      state.runtime.authToken.isSome := by
  have hrest : isAuthorization "x-fluidbg-test-id" = false ∧
      isAuthorization "x-fluidbg-inception-point" = false ∧
      isAuthorization "x-fluidbg-blue-green-ref" = false ∧
      isAuthorization "x-fluidbg-route" = false ∧ isAuthorization "authorization" = true := by
    decide +kernel
  unfold verifierHeaders
  cases state.runtime.authToken with
  | none => simp [hrest]
  | some token => simp [hrest]

theorem forwardedHeaders_verifier (state : ProxyState) (request : ProxyRequest crate)
    (testId : String) (route : TrafficRoute) :
    forwardedHeaders request.headers (verifierHeaders state testId route) =
      (clientHeaders request).filter fun entry =>
        !(state.runtime.authToken.isSome && isAuthorization entry.1) := by
  unfold forwardedHeaders clientHeaders
  rw [any_isAuthorization_verifierHeaders, List.filter_filter]

section Footprint

variable {state : ProxyState} {request : ProxyRequest crate}

theorem routed_endpoint {route : TrafficRoute} {url : String}
    (h : state.routedProxyTarget route = some url) :
    ∃ endpoint, Endpoint state.config endpoint ∧ url = state.resolveRuntimeEndpoint endpoint := by
  have hor : ∀ {first : Option String},
      (first.or state.config.realEndpoint).map state.resolveRuntimeEndpoint = some url →
      ∃ endpoint, (first = some endpoint ∨ state.config.realEndpoint = some endpoint) ∧
        url = state.resolveRuntimeEndpoint endpoint := by
    intro first hfirst
    obtain ⟨endpoint, hendpoint, hurl⟩ := Option.map_eq_some_iff.mp hfirst
    cases first with
    | none => exact ⟨endpoint, .inr hendpoint, hurl.symm⟩
    | some first => exact ⟨endpoint, .inl hendpoint, hurl.symm⟩
  cases route with
  | blue =>
    obtain ⟨endpoint, hendpoint, hurl⟩ := hor h
    exact ⟨endpoint, hendpoint.imp id .inr, hurl⟩
  | green =>
    obtain ⟨endpoint, hendpoint, hurl⟩ := hor h
    exact ⟨endpoint, .inr hendpoint, hurl⟩
  | both =>
    obtain ⟨endpoint, hendpoint, hurl⟩ := Option.map_eq_some_iff.mp h
    exact ⟨endpoint, .inr (.inr hendpoint), hurl.symm⟩
  | unknown =>
    obtain ⟨endpoint, hendpoint, hurl⟩ := Option.map_eq_some_iff.mp h
    exact ⟨endpoint, .inr (.inr hendpoint), hurl.symm⟩

theorem mayCall_proxyTarget {route : TrafficRoute} {body : BodyPayload}
    {sent : ClientRequest crate} (h : proxyTarget state route request body = .ok sent) :
    MayCall state request (.send sent) := by
  unfold proxyTarget at h
  cases htarget : state.routedProxyTarget route with
  | none =>
    rw [htarget] at h
    cases h
  | some url =>
    rw [htarget] at h
    obtain ⟨endpoint, hendpoint, hurl⟩ := routed_endpoint htarget
    cases h
    rw [hurl, clientRequest, forwardedHeaders_none]
    exact .endpoint endpoint hendpoint body

theorem mayCall_mockTarget {filter : Option NotificationFilter} {testId : Option String}
    {route : TrafficRoute} {body : BodyPayload} {sent : ClientRequest crate}
    (hfilter : ∀ f, filter = some f → f ∈ state.config.allFilters)
    (h : mockTarget state filter testId route request body = .ok sent) :
    MayCall state request (.send sent) := by
  unfold mockTarget at h
  cases hpath : mockPath state.config filter with
  | none =>
    rw [hpath] at h
    cases h
  | some path =>
    rw [hpath] at h
    cases h
    rw [clientRequest, forwardedHeaders_verifier]
    refine .verifier path _ route body ?_
    rcases Option.or_eq_some_iff.mp hpath with hmock | ⟨-, hmock⟩
    · obtain ⟨f, hf, hpath⟩ := Option.bind_eq_some_iff.mp hmock
      exact .inr ⟨f, hfilter f hf, hpath⟩
    · exact .inl hmock

theorem mayCall_target {body : Body} {sent : ClientRequest crate}
    (h : targetFor state request body = .ok sent) : MayCall state request (.send sent) := by
  unfold targetFor at h
  by_cases hbuffer : requestRequiresBuffer state
  · rw [if_pos hbuffer] at h
    unfold bodyTarget at h
    split at h
    · exact mayCall_mockTarget (fun f hf => mem_of_matchingFilter hf) h
    · exact mayCall_proxyTarget h
  · rw [if_neg hbuffer] at h
    unfold streamingTarget at h
    split at h
    · exact mayCall_mockTarget (fun f hf => mem_of_matchingFilter hf) h
    · exact mayCall_proxyTarget h

theorem mayCall_notice {body : Body} {url : String} {notification : ObservationNotification}
    (h : noticeFor state request body = some (url, notification)) :
    MayCall state request
      (.runtime (.notify url notification state.runtime.authToken)) := by
  unfold noticeFor at h
  by_cases hbuffer : requestRequiresBuffer state
  · rw [if_pos hbuffer] at h
    unfold bodyNotice at h
    split at h
    · obtain ⟨testId, -, hnotice⟩ := Option.bind_eq_some_iff.mp h
      obtain ⟨path, hpath, heq⟩ := Option.map_eq_some_iff.mp hnotice
      obtain ⟨filter, hfilter, hnotify⟩ := Option.bind_eq_some_iff.mp hpath
      obtain ⟨hurl, hnotification⟩ := Prod.mk.inj heq
      have htestId : notification.testId = testId := by rw [← hnotification]
      rw [← hurl, ← htestId]
      exact .notice path notification ⟨filter, mem_of_matchingFilter hfilter, hnotify⟩
    · cases h
  · rw [if_neg hbuffer] at h
    cases h

end Footprint

/-- **Credentials stay where they belong**, for every answer the outside may give: every call of
the handler is one of those. -/
theorem credentials_stay (state : ProxyState) (request : ProxyRequest crate) (body : Body) :
    (proxyAdmitted state request body).Calls (MayCall state request) := by
  rw [proxyAdmitted_eq]
  refine Prog.Calls.bind ?_ fun _ => ?_
  · cases hnotice : noticeFor state request body with
    | none => exact .of_pure ()
    | some notice =>
      obtain ⟨url, notification⟩ := notice
      rw [observe_notice]
      refine (Prog.Calls.of_ask.mpr (mayCall_notice hnotice)).bind fun answer => ?_
      split
      · refine Prog.Calls.bind (Prog.Calls.result (Prog.Calls.lift ?_)) fun _ => .of_pure ()
        refine (Prog.Calls.of_ask.mpr .clock).bind fun now => ?_
        exact .retry (fun _ => (Prog.Calls.of_ask.mpr (.registration _)).bind fun answer => by
          rcases statusRound_leaf answer with hleaf | ⟨_, hleaf⟩ | ⟨_, hleaf⟩ <;> simp [hleaf])
          (.of_fail ())
      · exact .of_pure ()
  · cases htarget : targetFor state request body with
    | error response => exact .of_pure response
    | ok sent =>
      refine (Prog.Calls.of_ask.mpr (mayCall_target htarget)).bind fun answer => ?_
      cases answer with
      | none => exact .of_pure _
      | some response => exact .of_pure _

end Proxy

end Http

end FluidBG
