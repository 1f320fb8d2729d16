import FluidBG.Plugins.HttpProxy
/-!
# The body of a proxied request

A body that is streamed goes through as it comes. A body that is read first is kept up to a limit,
and stands as an empty one where it is too long or breaks off. What the handler does is decided by
two values, the notice to the verifier and the target, and both are read off the bytes it kept.
-/

set_option autoImplicit false

namespace FluidBG.Http

open Lib

/-! ## Reading a body -/

theorem collectChunks_eq (broken : Bool) (left : Nat) (chunks : List (List Nat)) :
    collectChunks broken left chunks =
      if broken = false ∧ chunks.flatten.length ≤ left then some chunks.flatten else none := by
  induction chunks generalizing left with
  | nil => cases broken <;> simp [collectChunks]
  | cons chunk chunks ih =>
    rw [collectChunks, List.flatten_cons, List.length_append]
    by_cases hlong : left < chunk.length
    · rw [if_pos hlong, if_neg fun h => by omega]
    · rw [if_neg hlong, ih]
      by_cases hfits : broken = false ∧ chunks.flatten.length ≤ left - chunk.length
      · rw [if_pos hfits, if_pos ⟨hfits.1, by omega⟩]
        rfl
      · rw [if_neg hfits, if_neg fun h => hfits ⟨h.1, by omega⟩]
        rfl

/-- A body is kept when it is complete and not over the limit. -/
theorem Body.toBytes_eq (body : Body) (limit : Nat) :
    body.toBytes limit =
      if body.broken = false ∧ body.bytes.length ≤ limit then some body.bytes else none :=
  collectChunks_eq body.broken limit body.chunks

section Handler

variable {crate : ProxyCrate}

/-! ## What a handler does, it shows -/

theorem bodyTarget_payload {state : ProxyState} {request : ProxyRequest crate} {bytes : List Nat}
    {sent : ClientRequest crate} (h : bodyTarget state request bytes = .ok sent) :
    sent.body = .buffered bytes := by
  unfold bodyTarget at h
  split at h
  · unfold mockTarget at h
    split at h
    · cases h
    · cases h
      rfl
  · unfold proxyTarget at h
    split at h
    · cases h
    · cases h
      rfl

theorem bodyTarget_error {state : ProxyState} {request : ProxyRequest crate} {bytes : List Nat}
    {response : ProxyResponse crate} (h : bodyTarget state request bytes = .error response) :
    ∃ text, response = .plain 502 text := by
  unfold bodyTarget at h
  split at h
  · unfold mockTarget at h
    split at h
    · cases h
      exact ⟨_, rfl⟩
    · cases h
  · unfold proxyTarget at h
    split at h
    · cases h
      exact ⟨_, rfl⟩
    · cases h

/-- A target is what the end of the handler sends or answers. -/
theorem forwardTo_injective {a b : Except (ProxyResponse crate) (ClientRequest crate)}
    (h : forwardTo a = forwardTo b) : a = b := by
  cases a with
  | error response =>
    cases b with
    | error response' =>
      cases h
      rfl
    | ok request => cases h
  | ok request =>
    cases b with
    | error response => cases h
    | ok request' =>
      have hcall := (Prog.call.inj h).1
      cases hcall
      rfl

/-- A notice that goes out is the first call of the handler. -/
theorem observe_some (state : ProxyState) (route : TrafficRoute) (url : String)
    (notification : ObservationNotification)
    (target : Except (ProxyResponse crate) (ClientRequest crate)) :
    ∃ k : Option Nat → ProxyOp crate (ProxyResponse crate), k none = forwardTo target ∧
      (observe state route (some (url, notification))).bind (fun _ => forwardTo target) =
        .call (.runtime (.notify url notification state.runtime.authToken)) k :=
  ⟨_, rfl, rfl⟩

/-- **The handler shows its notice and its target.** -/
theorem observe_forward_injective {state : ProxyState} {r r' : TrafficRoute}
    {n n' : Option (String × ObservationNotification)}
    {t t' : Except (ProxyResponse crate) (ClientRequest crate)}
    (h : (observe state r n).bind (fun _ => forwardTo t) =
      (observe state r' n').bind fun _ => forwardTo t') : n = n' ∧ t = t' := by
  have hsilent : ∀ {r n} {t t' : Except (ProxyResponse crate) (ClientRequest crate)},
      forwardTo t = (observe state r (some n)).bind (fun _ => forwardTo t') → False := by
    intro r n t t' h
    obtain ⟨k, -, hk⟩ := observe_some state r n.1 n.2 t'
    rw [hk] at h
    cases t with
    | error response => cases h
    | ok request => exact absurd (Prog.call.inj h).1 (by simp)
  cases n with
  | none =>
    cases n' with
    | none => exact ⟨rfl, forwardTo_injective h⟩
    | some n' => exact (hsilent h).elim
  | some n =>
    cases n' with
    | none => exact (hsilent h.symm).elim
    | some n' =>
      obtain ⟨k, hnone, hk⟩ := observe_some state r n.1 n.2 t
      obtain ⟨k', hnone', hk'⟩ := observe_some state r' n'.1 n'.2 t'
      rw [hk, hk'] at h
      obtain ⟨hcall, hcont⟩ := Prog.call.inj h
      have hnotice : n = n' := by
        have hcall := WorkCall.notify.inj (ProxyCall.runtime.inj hcall)
        exact Prod.ext hcall.1 hcall.2.1
      subst hnotice
      have hk : k = k' := eq_of_heq hcont
      have htarget : forwardTo t = forwardTo t' := by rw [← hnone, ← hnone', hk]
      exact ⟨rfl, forwardTo_injective htarget⟩

/-! ## The body that was received -/

theorem proxyBytes_eq_bind (state : ProxyState) (request : ProxyRequest crate)
    (bytes : List Nat) : proxyBytes state request bytes =
      (observe state (bodyRoute state bytes) (bodyNotice state request bytes)).bind fun _ =>
        forwardTo (bodyTarget state request bytes) := rfl

theorem asStr_injective {r r' : TrafficRoute} (h : r.asStr = r'.asStr) : r = r' := by
  cases r <;> cases r' <;> first | rfl | exact absurd h (by decide)

theorem bodyNotice_route {state : ProxyState} {request : ProxyRequest crate} {bytes : List Nat}
    {notice : String × ObservationNotification}
    (h : bodyNotice state request bytes = some notice) :
    notice.2.route = (bodyRoute state bytes).asStr := by
  unfold bodyNotice at h
  split at h
  · obtain ⟨testId, -, h⟩ := Option.bind_eq_some_iff.mp h
    obtain ⟨path, -, rfl⟩ := Option.map_eq_some_iff.mp h
    rfl
  · cases h

/-- Two bodies with one notice and one target are handled alike. -/
theorem proxyBytes_congr {state : ProxyState} {request : ProxyRequest crate} {a b : List Nat}
    (hnotice : bodyNotice state request a = bodyNotice state request b)
    (htarget : bodyTarget state request a = bodyTarget state request b) :
    proxyBytes state request a = proxyBytes state request b := by
  rw [proxyBytes_eq_bind, proxyBytes_eq_bind, htarget]
  cases ha : bodyNotice state request a with
  | none =>
    rw [← hnotice, ha]
    rfl
  | some notice =>
    have hb := hnotice.symm.trans ha
    have hroute : bodyRoute state a = bodyRoute state b :=
      asStr_injective ((bodyNotice_route ha).symm.trans (bodyNotice_route hb))
    rw [hb, hroute]

/-- What the handler forwards is the bytes it was given. -/
theorem proxyBytes_calls (state : ProxyState) (request : ProxyRequest crate) (bytes : List Nat) :
    (proxyBytes state request bytes).Calls fun call =>
      ∀ sent, call = .send sent → sent.body = .buffered bytes := by
  have hobserve : (observe state (bodyRoute state bytes)
      (bodyNotice state request bytes)).Calls fun call =>
        ∀ sent : ClientRequest crate, call = .send sent → sent.body = .buffered bytes := by
    cases bodyNotice state request bytes with
    | none => trivial
    | some notice =>
      refine Prog.Calls.bind ?_ fun notified => ?_
      · refine ⟨fun sent h => by simp at h, fun answer => ?_⟩
        cases answer <;> trivial
      · split
        · refine Prog.Calls.bind (Prog.Calls.result (Prog.Calls.lift ?_)) fun _ => trivial
          exact Prog.Calls.mono (fun call _ sent h => by simp at h) (Prog.Calls.any _)
        · trivial
  refine hobserve.bind fun _ => ?_
  cases htarget : bodyTarget state request bytes with
  | error response => trivial
  | ok sent =>
    refine ⟨fun sent' h => ?_, fun answer => ?_⟩
    · rw [← ProxyCall.send.inj h]
      exact bodyTarget_payload htarget
    · cases answer <;> trivial

/-- **The proxy forwards what it received.** A body that arrives complete decides the notice, the
route and the target, and is what goes out; for one that breaks off, the client gets an error and
nothing is sent to anyone. -/
structure ForwardsReceived (state : ProxyState) (request : ProxyRequest crate) (body : Body) :
    Prop where
  complete : body.broken = false →
    proxyAdmitted state request body = proxyBytes state request body.bytes ∧
      (proxyAdmitted state request body).Calls fun call =>
        ∀ sent, call = .send sent → sent.body = .buffered body.bytes
  broken : body.broken = true → ∃ status text, 400 ≤ status ∧
    proxyAdmitted state request body = .pure (.plain status text)

/-- The body is kept; or an empty one goes nowhere, and is not noticed otherwise than the body
itself. -/
def Harmless (state : ProxyState) (request : ProxyRequest crate) (body : Body) : Prop :=
  (body.broken = false ∧ body.bytes.length ≤ bodyLimit) ∨
    (∃ response, bodyTarget state request [] = .error response) ∧
      if body.broken then bodyNotice state request [] = none
      else bodyNotice state request [] = bodyNotice state request body.bytes ∧
        bodyTarget state request [] = bodyTarget state request body.bytes

theorem proxyAdmitted_buffered {state : ProxyState} (h : requestRequiresBuffer state = true)
    (request : ProxyRequest crate) (body : Body) :
    proxyAdmitted state request body =
      proxyBytes state request ((body.toBytes bodyLimit).getD []) := if_pos h

theorem toBytes_kept {body : Body}
    (h : body.broken = false ∧ body.bytes.length ≤ bodyLimit) :
    (body.toBytes bodyLimit).getD [] = body.bytes := by
  rw [Body.toBytes_eq, if_pos h]
  rfl

theorem toBytes_lost {body : Body}
    (h : ¬ (body.broken = false ∧ body.bytes.length ≤ bodyLimit)) :
    (body.toBytes bodyLimit).getD [] = [] := by
  rw [Body.toBytes_eq, if_neg h]
  rfl

theorem forwardsReceived_of_kept {state : ProxyState} (h : requestRequiresBuffer state = true)
    (request : ProxyRequest crate) {body : Body}
    (hkept : body.broken = false ∧ body.bytes.length ≤ bodyLimit) :
    ForwardsReceived state request body := by
  have hcode := proxyAdmitted_buffered h request body
  rw [toBytes_kept hkept] at hcode
  refine ⟨fun _ => ⟨hcode, ?_⟩, fun hbroken => ?_⟩
  · rw [hcode]
    exact proxyBytes_calls state request body.bytes
  · rw [hkept.1] at hbroken
    cases hbroken

/-- The handler of an empty body ends at once, without a call. -/
theorem proxyBytes_eq_pure_iff (state : ProxyState) (request : ProxyRequest crate)
    (bytes : List Nat) :
    (∃ status text, 400 ≤ status ∧
      proxyBytes state request bytes = .pure (.plain status text)) ↔
      (∃ response, bodyTarget state request bytes = .error response) ∧
        bodyNotice state request bytes = none := by
  rw [proxyBytes_eq_bind]
  constructor
  · intro ⟨status, text, _, h⟩
    have hforward : (observe state (bodyRoute state bytes) (bodyNotice state request bytes)).bind
        (fun _ => forwardTo (bodyTarget state request bytes)) =
          (observe state (bodyRoute state bytes) none).bind
            fun _ => forwardTo (.error (.plain status text)) := h
    obtain ⟨hnotice, htarget⟩ := observe_forward_injective hforward
    exact ⟨⟨_, htarget⟩, hnotice⟩
  · intro ⟨⟨response, htarget⟩, hnotice⟩
    obtain ⟨text, rfl⟩ := bodyTarget_error htarget
    rw [htarget, hnotice]
    exact ⟨502, text, by omega, rfl⟩

/-- **The body that is read is the body that is forwarded**, exactly where it is read to its end
and within the limit, or where an empty body would do no harm. -/
theorem proxy_forwards_received_iff (state : ProxyState) (request : ProxyRequest crate)
    (body : Body) (h : requestRequiresBuffer state = true) :
    ForwardsReceived state request body ↔ Harmless state request body := by
  by_cases hkept : body.broken = false ∧ body.bytes.length ≤ bodyLimit
  · exact iff_of_true (forwardsReceived_of_kept h request hkept) (.inl hkept)
  · have hcode := proxyAdmitted_buffered h request body
    rw [toBytes_lost hkept] at hcode
    cases hbroken : body.broken with
    | true =>
      have hiff := proxyBytes_eq_pure_iff state request []
      constructor
      · intro hforwards
        have hpure := hforwards.broken hbroken
        rw [hcode] at hpure
        refine .inr ⟨(hiff.mp hpure).1, ?_⟩
        rw [if_pos hbroken]
        exact (hiff.mp hpure).2
      · intro hharmless
        rcases hharmless with hharmless | ⟨htarget, hnotice⟩
        · exact absurd hharmless hkept
        · rw [if_pos hbroken] at hnotice
          refine ⟨fun hcomplete => ?_, fun _ => ?_⟩
          · rw [hbroken] at hcomplete
            cases hcomplete
          · rw [hcode]
            exact hiff.mpr ⟨htarget, hnotice⟩
    | false =>
      have hnotEmpty : body.bytes ≠ [] := by
        intro hempty
        exact hkept ⟨hbroken, by simp [hempty]⟩
      constructor
      · intro hforwards
        have hsame := (hforwards.complete hbroken).1
        rw [hcode, proxyBytes_eq_bind, proxyBytes_eq_bind] at hsame
        obtain ⟨hnotice, htarget⟩ := observe_forward_injective hsame
        refine .inr ⟨?_, ?_⟩
        · -- a request that went out would carry both bodies
          cases hempty : bodyTarget state request [] with
          | error response => exact ⟨response, rfl⟩
          | ok sent =>
            have hbytes := bodyTarget_payload (htarget.symm.trans hempty)
            rw [bodyTarget_payload hempty] at hbytes
            exact absurd (BodyPayload.buffered.inj hbytes).symm hnotEmpty
        · rw [if_neg (by simp [hbroken])]
          exact ⟨hnotice, htarget⟩
      · intro hharmless
        rcases hharmless with hharmless | ⟨_, hsame⟩
        · exact absurd hharmless hkept
        · rw [if_neg (by simp [hbroken])] at hsame
          have hprog := hcode.trans (proxyBytes_congr hsame.1 hsame.2)
          refine ⟨fun _ => ⟨hprog, ?_⟩, fun htrue => ?_⟩
          · rw [hprog]
            exact proxyBytes_calls state request body.bytes
          · rw [hbroken] at htrue
            cases htrue

end Handler

/-! ## A body that breaks off -/

namespace Sample

def proxyCrate : ProxyCrate where
  headerName name := some (asciiLower name)
  isText _ := true
  isText_empty := rfl
  HeaderValue := String
  toStr := some
  isText_of_toStr _ _ _ := rfl

def splitterConfig : Config where
  port := none
  proxyProtocol := none
  writeProtocol := none
  realEndpoint := some "http://blue"
  targetUrl := none
  greenEndpoint := none
  blueEndpoint := none
  envVarName := none
  writeEnvVar := none
  verifierEndpoint := none
  mockPath := none
  testId := none
  conditions := []
  filters := []
  ingress := none
  egress := none
  tls := ⟨⟨false, none, none, none⟩⟩
  clientTls := ⟨none, false⟩

def splitterState : ProxyState where
  crates :=
    { parseSlice := fun _ => none
      parseLossy := fun _ => none
      jsonText := fun _ => ""
      hash := fun _ => 0
      isMatch := fun _ _ => none }
  config := splitterConfig
  roles := [.splitter]
  runtime :=
    { testcaseRegistrationUrl := "http://operator/testcases"
      testContainerUrl := "http://verifier"
      testcaseVerifyPathTemplate := none
      inceptionPoint := "orders"
      blueGreenRef := "shop"
      authToken := none }
  testContainerEnv := ""
  trafficPercent := 0

def postRequest : ProxyRequest proxyCrate where
  method := "POST"
  pathAndQuery := "/orders"
  headers := ⟨[], by simp⟩

end Sample

theorem splitter_forwards_kept_body :
    ForwardsReceived Sample.splitterState Sample.postRequest ⟨[[1, 2], [3]], false⟩ :=
  (proxy_forwards_received_iff Sample.splitterState Sample.postRequest ⟨[[1, 2], [3]], false⟩
    rfl).mpr (.inl ⟨rfl, by decide⟩)

/-- A body that breaks off after its first chunk goes on as an empty one. -/
theorem broken_body_is_forwarded :
    ¬ ∀ (state : ProxyState) (request : ProxyRequest Sample.proxyCrate) (body : Body),
      requestRequiresBuffer state = true → ForwardsReceived state request body := by
  intro h
  obtain ⟨status, text, -, hpure⟩ :=
    (h Sample.splitterState Sample.postRequest ⟨[[1, 2]], true⟩ rfl).broken rfl
  have hcall : ∃ sent k, proxyAdmitted Sample.splitterState Sample.postRequest ⟨[[1, 2]], true⟩ =
      .call (.send sent) k := ⟨_, _, rfl⟩
  obtain ⟨sent, k, hcall⟩ := hcall
  rw [hcall] at hpure
  cases hpure

/-! ## Bodies that are streamed -/

section Streaming

variable {crate : ProxyCrate}

/-- A streamed request as one whose body was read first. -/
def ClientRequest.inMemory (sent : ClientRequest crate) : ClientRequest crate :=
  { sent with body := match sent.body with
      | .streaming body => .buffered body.bytes
      | .buffered bytes => .buffered bytes }

theorem resolveHttpField_of_ne {condition : FilterCondition} (h : condition.field ≠ "http.body")
    (method path : String) (a b : Json) (headerLookup : String → Option String) :
    resolveHttpField method path a headerLookup condition =
      resolveHttpField method path b headerLookup condition := by
  unfold resolveHttpField
  simp only [if_neg h]

theorem matchesFilter_of_not_body {conditions : List FilterCondition}
    (h : conditionsUseBody conditions = false) (isMatch : String → String → Option Bool)
    (method path : String) (headers : HeaderMap crate.toHttpCrate) (a b : Json) :
    matchesFilter isMatch conditions method path headers a =
      matchesFilter isMatch conditions method path headers b := by
  have hfields : ∀ c ∈ conditions, c.field ≠ "http.body" := by
    simpa [conditionsUseBody] using h
  unfold matchesFilter
  rw [Bool.eq_iff_iff, List.all_eq_true, List.all_eq_true]
  refine forall₂_congr fun c hc => ?_
  rw [resolveHttpField_of_ne (hfields c hc) method path a b]

theorem extractTestId_of_not_body {selector : TestIdSelector}
    (h : selectorUsesBody (some selector) = false) (path : String)
    (headers : HeaderMap crate.toHttpCrate) (a b : Json) :
    extractTestId selector a path headers = extractTestId selector b path headers := by
  unfold extractTestId extractHttpTestId
  cases selector.value with
  | some value => rfl
  | none =>
    cases hfield : selector.field with
    | none => rfl
    | some field =>
      have hne : field ≠ "http.body" := by simpa [selectorUsesBody, hfield] using h
      simp only [Option.bind_some, if_neg hne]

/-- Nothing of the configuration looks at a body. -/
theorem not_body_of_config {config : Config} (h : configUsesBody config = false) :
    selectorUsesBody config.testId = false ∧ conditionsUseBody config.conditions = false ∧
      ∀ filter ∈ config.allFilters, conditionsUseBody filter.conditions = false := by
  simp only [configUsesBody, Bool.or_eq_false_iff] at h
  obtain ⟨⟨⟨⟨hselector, hroot⟩, hfilters⟩, hingress⟩, hegress⟩ := h
  refine ⟨hselector, hroot, fun filter hfilter => ?_⟩
  have hof : ∀ {filters : List NotificationFilter}, filters.any filterUsesBody = false →
      filter ∈ filters → conditionsUseBody filter.conditions = false := by
    intro filters hany hmem
    exact Bool.eq_false_iff.mpr (List.any_eq_false.mp hany filter hmem)
  rcases List.mem_append.mp hfilter with hmem | hmem
  · exact hof hfilters hmem
  · obtain ⟨direction, hdirection, hmem⟩ := List.mem_flatMap.mp hmem
    rcases List.mem_append.mp hdirection with hdirection | hdirection
    · rw [Option.mem_toList.mp hdirection] at hingress
      exact hof hingress hmem
    · rw [Option.mem_toList.mp hdirection] at hegress
      exact hof hegress hmem

theorem matchingFilter_of_not_body {config : Config} (h : configUsesBody config = false)
    (isMatch : String → String → Option Bool) (method path : String)
    (headers : HeaderMap crate.toHttpCrate) (a b : Json) :
    matchingFilter isMatch config method path headers a =
      matchingFilter isMatch config method path headers b := by
  have hfilters := (not_body_of_config h).2.2
  unfold matchingFilter
  generalize config.allFilters = filters at hfilters
  induction filters with
  | nil => rfl
  | cons filter filters ih =>
    have hsame := matchesFilter_of_not_body (hfilters filter List.mem_cons_self) isMatch method
      path headers a b
    have hrest := ih fun f hf => hfilters f (List.mem_cons_of_mem _ hf)
    rw [List.find?_cons, List.find?_cons, hsame, hrest]

theorem matched_of_not_body {config : Config} (h : configUsesBody config = false)
    (isMatch : String → String → Option Bool) (method path : String)
    (headers : HeaderMap crate.toHttpCrate) (a b : Json) :
    matched isMatch config method path headers a = matched isMatch config method path headers b := by
  unfold matched
  rw [matchesFilter_of_not_body (not_body_of_config h).2.1 isMatch method path headers a b,
    matchingFilter_of_not_body h isMatch method path headers a b]

theorem mockTarget_inMemory (state : ProxyState) (filter : Option NotificationFilter)
    (testId : Option String) (route : TrafficRoute) (request : ProxyRequest crate) (body : Body) :
    (mockTarget state filter testId route request (.streaming body)).map ClientRequest.inMemory =
      mockTarget state filter testId route request (.buffered body.bytes) := by
  unfold mockTarget
  cases mockPath state.config filter with
  | none => rfl
  | some path => rfl

theorem proxyTarget_inMemory (state : ProxyState) (route : TrafficRoute)
    (request : ProxyRequest crate) (body : Body) :
    (proxyTarget state route request (.streaming body)).map ClientRequest.inMemory =
      proxyTarget state route request (.buffered body.bytes) := by
  unfold proxyTarget
  cases state.routedProxyTarget route with
  | none => rfl
  | some endpoint => rfl

/-- **The streaming path is the buffered path.** Where the plugin streams a request, its target is
the one it would have for the body in memory, and so is all it would do. -/
theorem streamed_as_buffered (state : ProxyState) (request : ProxyRequest crate) (body : Body)
    (h : requestRequiresBuffer state = false) (hcomplete : body.broken = false)
    (hlimit : body.bytes.length ≤ bodyLimit) :
    ∃ target : Except (ProxyResponse crate) (ClientRequest crate),
      proxyAdmitted state request body = forwardTo target ∧
      proxyBuffered state request body = forwardTo (target.map ClientRequest.inMemory) ∧
      ∀ sent, target = .ok sent → sent.body = .streaming body := by
  simp only [requestRequiresBuffer, Bool.or_eq_false_iff] at h
  obtain ⟨⟨hsplitter, hobserver⟩, hconfig⟩ := h
  have hadmitted : proxyAdmitted state request body =
      forwardTo (streamingTarget state request body) := by
    simp [proxyAdmitted, requestRequiresBuffer, hsplitter, hobserver, hconfig]
  refine ⟨streamingTarget state request body, hadmitted, ?_, ?_⟩
  · have hroute : bodyRoute state body.bytes = .blue := by simp [bodyRoute, hsplitter]
    have hnotice : bodyNotice state request body.bytes = none := by simp [bodyNotice, hobserver]
    have hmatched : bodyMatched state request body.bytes = matchesWithoutBody state request :=
      matched_of_not_body hconfig ..
    have hfilter : bodyFilter state request body.bytes = filterWithoutBody state request :=
      matchingFilter_of_not_body hconfig ..
    have htestId : bodyTestId state request body.bytes = state.config.testId.bind fun selector =>
        extractTestId selector .null request.pathAndQuery request.headers.texts := by
      have hselector := (not_body_of_config hconfig).1
      unfold bodyTestId
      cases htestId : state.config.testId with
      | none => rfl
      | some selector =>
        rw [htestId] at hselector
        exact extractTestId_of_not_body hselector ..
    have htarget : bodyTarget state request body.bytes =
        (streamingTarget state request body).map ClientRequest.inMemory := by
      unfold bodyTarget streamingTarget
      rw [hmatched, hfilter, htestId, hroute]
      split
      · exact (mockTarget_inMemory ..).symm
      · exact (proxyTarget_inMemory ..).symm
    rw [proxyBuffered, toBytes_kept ⟨hcomplete, hlimit⟩, proxyBytes_eq_bind, hnotice, htarget]
    rfl
  · intro sent hsent
    unfold streamingTarget at hsent
    split at hsent
    · unfold mockTarget at hsent
      split at hsent
      · cases hsent
      · cases hsent
        rfl
    · unfold proxyTarget at hsent
      split at hsent
      · cases hsent
      · cases hsent
        rfl

end Streaming

def Sample.mockState : ProxyState :=
  { Sample.splitterState with
    roles := [.mock]
    config := { Sample.splitterConfig with mockPath := some "/mock/\x7btestId\x7d" } }

theorem mock_streams_as_buffered :
    ∃ target : Except (ProxyResponse Sample.proxyCrate) (ClientRequest Sample.proxyCrate),
      proxyAdmitted Sample.mockState Sample.postRequest ⟨[[1], [2]], false⟩ = forwardTo target ∧
      proxyBuffered Sample.mockState Sample.postRequest ⟨[[1], [2]], false⟩ =
        forwardTo (target.map ClientRequest.inMemory) ∧
      ∀ sent, target = .ok sent → sent.body = .streaming ⟨[[1], [2]], false⟩ :=
  streamed_as_buffered Sample.mockState Sample.postRequest ⟨[[1], [2]], false⟩ rfl rfl (by decide)

end FluidBG.Http
