import FluidBG.Lib.Runs
import FluidBG.Plugins.WorkloadIdentity
/-!
# The token caches of a workload identity

A client asks for one authorization header after the other, for either of its scopes, and whatever
it is answered. What a cache holds is the last token that was issued for its scope, and a header is
made of that token or of one that was issued just now.
-/

set_option autoImplicit false

namespace FluidBG.ServiceBus

open Lib Identity

variable {config : WorkloadIdentityConfig}

/-! ## Runs of token requests -/

/-- **A token is issued** for a scope: its request is answered with it, and its end is counted from
the time read after that. -/
def Issues (config : WorkloadIdentityConfig) (scope : Scope)
    (trace : List (Prog.Event IdentityAnswer)) (token : CachedToken) : Prop :=
  ∃ (before : List (Prog.Event IdentityAnswer)) (assertion : String) (reply : TokenReply)
    (response : TokenResponse) (now : Timestamp),
    trace = before ++ [⟨.readTokenFile config.tokenFile, .ok assertion⟩,
      ⟨.postForm config.tokenUrl (config.tokenForm scope.text assertion), .ok reply⟩,
      ⟨.now, now⟩] ∧
    isSuccess reply.status ∧ reply.token = .ok response ∧
    token = ⟨response.accessToken, now + seconds (response.expiresIn.getD 3600)⟩

/-- No token is issued. -/
def Barren (config : WorkloadIdentityConfig) (scope : Scope)
    (trace : List (Prog.Event IdentityAnswer)) : Prop :=
  ∀ token, ¬ Issues config scope trace token

/-- The run makes a token request. -/
def Asks (trace : List (Prog.Event IdentityAnswer)) : Prop :=
  ∃ path a, (⟨.readTokenFile path, a⟩ : Prog.Event IdentityAnswer) ∈ trace

section Request

variable {scope : Scope} {trace : List (Prog.Event IdentityAnswer)}

/-- A run that does not end with reading the time issues no token. -/
theorem barren_of_last {event : Prog.Event IdentityAnswer} (hlast : trace.getLast? = some event)
    (h : ∀ now, event ≠ ⟨.now, now⟩) : Barren config scope trace := by
  intro token hissues
  obtain ⟨before, assertion, reply, response, now, rfl, -⟩ := hissues
  simp only [List.getLast?_append, List.getLast?_singleton, List.getLast?_cons_cons,
    Option.some_or, Option.some.injEq] at hlast
  exact h now hlast.symm

/-- Neither does one that is too short. -/
theorem barren_singleton (event : Prog.Event IdentityAnswer) : Barren config scope [event] := by
  intro token hissues
  obtain ⟨first, assertion, reply, response, now, htrace, -⟩ := hissues
  have hlength := congrArg List.length htrace
  simp only [List.length_append, List.length_cons, List.length_nil] at hlength
  omega

/-- The runs of a token request: a token is issued and returned, or none is. -/
theorem requestToken_run {r : Except String CachedToken}
    (h : (requestToken tokenErrors config scope.text).Run trace r) :
    Asks trace ∧
      ((∃ token, r = .ok token ∧ ∀ before, Issues config scope (before ++ trace) token) ∨
        ∃ text, r = .error text ∧ ∀ before, Barren config scope (before ++ trace)) := by
  obtain ⟨file, rest, rfl, hrest⟩ := Prog.Run.ask_bind_iff.mp h
  refine ⟨⟨_, file, List.mem_cons_self⟩, ?_⟩
  cases file with
  | error text =>
    obtain ⟨rfl, rfl⟩ := Prog.Run.fail_iff.mp hrest
    have hlast : ∀ before : List (Prog.Event IdentityAnswer),
        (before ++ [(⟨.readTokenFile config.tokenFile, .error text⟩ :
          Prog.Event IdentityAnswer)]).getLast? =
            some ⟨.readTokenFile config.tokenFile, .error text⟩ := by simp
    exact .inr ⟨_, rfl, fun before => barren_of_last (hlast before) fun now heq => by
      cases heq⟩
  | ok assertion =>
    obtain ⟨answer, rest', rfl, hanswer⟩ := Prog.Run.ask_bind_iff.mp hrest
    have hbarren : ∀ before, Barren config scope (before ++ [
        (⟨.readTokenFile config.tokenFile, .ok assertion⟩ : Prog.Event IdentityAnswer),
        ⟨.postForm config.tokenUrl (config.tokenForm scope.text assertion), answer⟩]) := by
      intro before
      have hlast : (before ++ [
          (⟨.readTokenFile config.tokenFile, .ok assertion⟩ : Prog.Event IdentityAnswer),
          ⟨.postForm config.tokenUrl (config.tokenForm scope.text assertion), answer⟩]).getLast? =
            some ⟨.postForm config.tokenUrl (config.tokenForm scope.text assertion), answer⟩ := by
        simp
      refine barren_of_last hlast fun now heq => ?_
      cases heq
    cases answer with
    | error text =>
      obtain ⟨rfl, rfl⟩ := Prog.Run.fail_iff.mp hanswer
      exact .inr ⟨_, rfl, hbarren⟩
    | ok reply =>
      have hreply : (tokenOfReply tokenErrors reply).Run rest' r := hanswer
      unfold tokenOfReply at hreply
      by_cases hsuccess : isSuccess reply.status
      · simp only [hsuccess, Bool.not_true, Bool.false_eq_true, if_false] at hreply
        cases htoken : reply.token with
        | error text =>
          rw [htoken] at hreply
          obtain ⟨rfl, rfl⟩ := Prog.Run.fail_iff.mp hreply
          exact .inr ⟨_, rfl, hbarren⟩
        | ok response =>
          rw [htoken] at hreply
          obtain ⟨now, rest'', rfl, hnow⟩ := Prog.Run.ask_bind_iff.mp hreply
          obtain ⟨rfl, rfl⟩ := Prog.Run.pure_iff.mp hnow
          exact .inl ⟨_, rfl, fun before =>
            ⟨before, assertion, reply, response, now, rfl, hsuccess, htoken, rfl⟩⟩
      · simp only [hsuccess, Bool.not_false, if_true] at hreply
        obtain ⟨rfl, rfl⟩ := Prog.Run.fail_iff.mp hreply
        exact .inr ⟨_, rfl, hbarren⟩

theorem freshToken_run {r : Except String (String × Option CachedToken)}
    (h : (freshToken tokenErrors config scope.text).Run trace r) :
    Asks trace ∧
      ((∃ token, r = .ok (token.accessToken, some token) ∧
          ∀ before, Issues config scope (before ++ trace) token) ∨
        ∃ text, r = .error text ∧ ∀ before, Barren config scope (before ++ trace)) := by
  rcases Prog.Run.bind_iff.mp h with ⟨text, hrun, rfl⟩ | ⟨token, first, rest, hrun, hrest, rfl⟩
  · obtain ⟨hasks, ⟨token, htoken, -⟩ | ⟨text', htext, hbarren⟩⟩ := requestToken_run hrun
    · cases htoken
    · exact ⟨hasks, .inr ⟨text, rfl, hbarren⟩⟩
  · obtain ⟨rfl, rfl⟩ := Prog.Run.pure_iff.mp hrest
    rw [List.append_nil]
    obtain ⟨hasks, ⟨token', htoken, hissues⟩ | ⟨text, htext, -⟩⟩ := requestToken_run hrun
    · rw [Except.ok.inj htoken]
      exact ⟨hasks, .inl ⟨token', rfl, hissues⟩⟩
    · cases htext

/-- The cached token has more than five minutes left. -/
def Current (cached : CachedToken) (now : Timestamp) : Prop := now + seconds 300 < cached.expiresAt

/-- The runs of a token from a cache: it is current and taken, or another one is asked for. -/
theorem tokenFrom_run {cache : Option CachedToken} {r : Except String (String × Option CachedToken)}
    (h : (tokenFrom tokenErrors config scope.text cache).Run trace r) :
    (∃ cached now, cache = some cached ∧ trace = [⟨.now, now⟩] ∧ Current cached now ∧
      r = .ok (cached.accessToken, some cached)) ∨
    ((cache = none ∨ ∃ cached now, cache = some cached ∧ trace.head? = some ⟨.now, now⟩ ∧
        ¬ Current cached now) ∧ Asks trace ∧
      ((∃ token, Issues config scope trace token ∧ r = .ok (token.accessToken, some token)) ∨
        ∃ text, Barren config scope trace ∧ r = .error text)) := by
  cases cache with
  | none =>
    obtain ⟨hasks, hcases⟩ := freshToken_run h
    refine .inr ⟨.inl rfl, hasks, ?_⟩
    rcases hcases with ⟨token, hr, hissues⟩ | ⟨text, hr, hbarren⟩
    · exact .inl ⟨token, hissues [], hr⟩
    · exact .inr ⟨text, hbarren [], hr⟩
  | some cached =>
    obtain ⟨now, rest, rfl, hrest⟩ := Prog.Run.ask_bind_iff.mp h
    by_cases hcurrent : now + seconds 300 < cached.expiresAt
    · rw [if_pos hcurrent] at hrest
      obtain ⟨rfl, rfl⟩ := Prog.Run.pure_iff.mp hrest
      exact .inl ⟨cached, now, rfl, rfl, hcurrent, rfl⟩
    · rw [if_neg hcurrent] at hrest
      obtain ⟨⟨path, a, hmem⟩, hcases⟩ := freshToken_run hrest
      refine .inr ⟨.inr ⟨cached, now, rfl, rfl, hcurrent⟩,
        ⟨path, a, List.mem_cons_of_mem _ hmem⟩, ?_⟩
      rcases hcases with ⟨token, hr, hissues⟩ | ⟨text, hr, hbarren⟩
      · exact .inl ⟨token, hissues [⟨.now, now⟩], hr⟩
      · exact .inr ⟨text, hbarren [⟨.now, now⟩], hr⟩

end Request

/-! ## A client at work -/

/-- One header that was asked for, and what came of it. -/
structure Entry where
  scope : Scope
  trace : List (Prog.Event IdentityAnswer)
  outcome : Except String String

/-- The headers a client was asked for one after the other, from some caches to others. An error
leaves the caches alone. -/
inductive Served (config : WorkloadIdentityConfig) : TokenCaches → List Entry → TokenCaches → Prop
  | nil (caches : TokenCaches) : Served config caches [] caches
  | header {caches next last : TokenCaches} {log : List Entry} (scope : Scope)
      (trace : List (Prog.Event IdentityAnswer)) (header : String)
      (hrun : (workloadIdentityHeader config caches scope).Run trace (.ok (header, next)))
      (hrest : Served config next log last) :
      Served config caches (⟨scope, trace, .ok header⟩ :: log) last
  | error {caches last : TokenCaches} {log : List Entry} (scope : Scope)
      (trace : List (Prog.Event IdentityAnswer)) (text : String)
      (hrun : (workloadIdentityHeader config caches scope).Run trace (.error text))
      (hrest : Served config caches log last) :
      Served config caches (⟨scope, trace, .error text⟩ :: log) last

/-- The last token that was issued for a scope, if there was one. -/
def Latest (config : WorkloadIdentityConfig) (log : List Entry) (scope : Scope) :
    Option CachedToken → Prop
  | none => ∀ e ∈ log, e.scope = scope → Barren config scope e.trace
  | some token => ∃ before e after, log = before ++ e :: after ∧ e.scope = scope ∧
      Issues config scope e.trace token ∧
      ∀ e' ∈ after, e'.scope = scope → Barren config scope e'.trace

/-- **What an entry is**, with the last token issued for its scope before. -/
structure Sound (config : WorkloadIdentityConfig) (last : Option CachedToken) (e : Entry) :
    Prop where
  /-- A header is made of a token that was just issued, or of the last one, which is current. -/
  made : ∀ header, e.outcome = .ok header → ∃ token,
    header = s!"Bearer {token.accessToken}" ∧
      (Issues config e.scope e.trace token ∨
        last = some token ∧ ∃ now, e.trace = [⟨.now, now⟩] ∧ Current token now)
  /-- A token is asked for only where there was none, or the last one is not current. -/
  asked : Asks e.trace → last = none ∨ ∃ token now, last = some token ∧
    e.trace.head? = some ⟨.now, now⟩ ∧ ¬ Current token now

section Steps

variable {caches : TokenCaches} {log : List Entry}

/-- The caches hold the last tokens. -/
def Caught (config : WorkloadIdentityConfig) (log : List Entry) (caches : TokenCaches) : Prop :=
  ∀ scope, Latest config log scope (caches.get scope)

theorem Latest.snoc_barren {scope : Scope} {last : Option CachedToken}
    (h : Latest config log scope last) {e : Entry}
    (he : e.scope = scope → Barren config scope e.trace) :
    Latest config (log ++ [e]) scope last := by
  cases last with
  | none =>
    intro e' he' hscope
    rcases List.mem_append.mp he' with hmem | hmem
    · exact h e' hmem hscope
    · rw [List.mem_singleton.mp hmem] at hscope ⊢
      exact he hscope
  | some token =>
    obtain ⟨before, found, after, rfl, hscope, hissues, hafter⟩ := h
    refine ⟨before, found, after ++ [e], by simp, hscope, hissues, fun e' he' hscope' => ?_⟩
    rcases List.mem_append.mp he' with hmem | hmem
    · exact hafter e' hmem hscope'
    · rw [List.mem_singleton.mp hmem] at hscope' ⊢
      exact he hscope'

theorem Latest.snoc_issues {scope : Scope} {e : Entry} {token : CachedToken}
    (hscope : e.scope = scope) (hissues : Issues config scope e.trace token) :
    Latest config (log ++ [e]) scope (some token) :=
  ⟨log, e, [], rfl, hscope, hissues, by simp⟩

theorem not_asks_now (now : Timestamp) : ¬ Asks [⟨.now, now⟩] := by
  intro h
  obtain ⟨path, a, hmem⟩ := h
  cases List.mem_singleton.mp hmem

/-- What an entry does to the other scope's last token. -/
theorem Caught.snoc {scope : Scope} {last : Option CachedToken} (h : Caught config log caches)
    {e : Entry} (he : e.scope = scope) (hlast : Latest config (log ++ [e]) scope last) :
    Caught config (log ++ [e]) (caches.set scope last) := by
  intro other
  by_cases hother : other = scope
  · rw [hother, TokenCaches.get_set]
    exact hlast
  · rw [TokenCaches.get_set_of_ne caches hother]
    exact (h other).snoc_barren fun heq => absurd (heq.symm.trans he) hother

/-- A header that is returned leaves the caches with the last tokens. -/
theorem Caught.header {scope : Scope} {trace : List (Prog.Event IdentityAnswer)} {header : String}
    {next : TokenCaches} (h : Caught config log caches)
    (hrun : (workloadIdentityHeader config caches scope).Run trace (.ok (header, next))) :
    Sound config (caches.get scope) ⟨scope, trace, .ok header⟩ ∧
      Caught config (log ++ [⟨scope, trace, .ok header⟩]) next := by
  rcases Prog.Run.bind_iff.mp hrun with ⟨text, -, htext⟩ | ⟨answer, first, rest, hfirst, hrest, rfl⟩
  · cases htext
  · obtain ⟨rfl, hpair⟩ := Prog.Run.pure_iff.mp hrest
    obtain ⟨hheader, hnext⟩ := Prod.mk.inj (Except.ok.inj hpair)
    rw [List.append_nil, hnext]
    rcases tokenFrom_run hfirst with ⟨cached, now, hcache, htrace, hcurrent, hanswer⟩ |
      ⟨hold, hasks, ⟨token, hissues, hanswer⟩ | ⟨text, -, hanswer⟩⟩
    · rw [Except.ok.inj hanswer] at hheader ⊢
      refine ⟨⟨fun other hother => ⟨cached, ?_, .inr ⟨hcache, now, htrace, hcurrent⟩⟩,
        fun hasks => ?_⟩, h.snoc rfl ?_⟩
      · rw [← Except.ok.inj hother]
        exact hheader
      · exact absurd (htrace ▸ hasks) (not_asks_now now)
      · rw [← hcache]
        refine (h scope).snoc_barren fun _ => ?_
        rw [htrace]
        exact barren_singleton _
    · rw [Except.ok.inj hanswer] at hheader ⊢
      refine ⟨⟨fun other hother => ⟨token, ?_, .inl hissues⟩, fun _ => hold⟩,
        h.snoc rfl (Latest.snoc_issues rfl hissues)⟩
      rw [← Except.ok.inj hother]
      exact hheader
    · cases hanswer

/-- An error leaves them with the last tokens as well. -/
theorem Caught.error {scope : Scope} {trace : List (Prog.Event IdentityAnswer)} {text : String}
    (h : Caught config log caches)
    (hrun : (workloadIdentityHeader config caches scope).Run trace (.error text)) :
    Sound config (caches.get scope) ⟨scope, trace, .error text⟩ ∧
      Caught config (log ++ [⟨scope, trace, .error text⟩]) caches := by
  rcases Prog.Run.bind_iff.mp hrun with ⟨text', hfirst, -⟩ | ⟨answer, first, rest, -, hrest, -⟩
  · rcases tokenFrom_run hfirst with ⟨cached, now, -, -, -, hanswer⟩ |
      ⟨hold, hasks, ⟨token, -, hanswer⟩ | ⟨text'', hbarren, -⟩⟩
    · cases hanswer
    · cases hanswer
    · refine ⟨⟨fun header hheader => ?_, fun _ => hold⟩, fun other => ?_⟩
      · cases hheader
      · refine (h other).snoc_barren fun heq => ?_
        have hscope : scope = other := heq
        rw [← hscope]
        exact hbarren
  · cases (Prog.Run.pure_iff.mp hrest).2

end Steps

/-- Every entry is sound, after any entries before it. -/
theorem sound_of_served {caches last : TokenCaches} {log : List Entry}
    (h : Served config caches log last) {past : List Entry} (hpast : Caught config past caches)
    {before after : List Entry} {e : Entry} (hlog : log = before ++ e :: after) :
    ∃ token, Latest config (past ++ before) e.scope token ∧ Sound config token e := by
  induction h generalizing past before with
  | nil caches => simp at hlog
  | @header caches next last log scope trace header hrun hrest ih =>
    obtain ⟨hsound, hcaught⟩ := hpast.header hrun
    cases before with
    | nil =>
      obtain ⟨rfl, -⟩ := List.cons.inj hlog
      rw [List.append_nil]
      exact ⟨caches.get scope, hpast scope, hsound⟩
    | cons first before =>
      obtain ⟨rfl, hrest⟩ := List.cons.inj hlog
      have hentry := ih hcaught hrest
      rwa [List.append_assoc, List.singleton_append] at hentry
  | @error caches last log scope trace text hrun hrest ih =>
    obtain ⟨hsound, hcaught⟩ := hpast.error hrun
    cases before with
    | nil =>
      obtain ⟨rfl, -⟩ := List.cons.inj hlog
      rw [List.append_nil]
      exact ⟨caches.get scope, hpast scope, hsound⟩
    | cons first before =>
      obtain ⟨rfl, hrest⟩ := List.cons.inj hlog
      have hentry := ih hcaught hrest
      rwa [List.append_assoc, List.singleton_append] at hentry

theorem caught_empty : Caught config [] TokenCaches.empty := by
  intro scope
  cases scope <;> exact fun e he => absurd he List.not_mem_nil

/-- **Headers of a workload identity**, from the start of the client on and for any answers: each is
made of a token that was issued for its scope, the last one before it or one of its own, and the one
before only with more than five minutes left. A token is asked for in no other case. -/
theorem served_headers {last : TokenCaches} {before after : List Entry} {e : Entry}
    (h : Served config TokenCaches.empty (before ++ e :: after) last) :
    ∃ token, Latest config before e.scope token ∧ Sound config token e :=
  sound_of_served h caught_empty rfl

namespace Sample

def identity : WorkloadIdentityConfig :=
  ⟨"tenant", "client", "/var/run/token", "https://login.microsoftonline.com"⟩

def issuedToken : CachedToken := ⟨"abc", seconds 3600⟩

/-- A token for ARM is asked for. -/
def firstEntry : Entry :=
  ⟨.arm, [⟨.readTokenFile identity.tokenFile, .ok "assertion"⟩,
      ⟨.postForm identity.tokenUrl (identity.tokenForm Scope.arm.text "assertion"),
        .ok ⟨200, "", .ok ⟨"abc", none⟩⟩⟩,
      ⟨.now, (0 : Timestamp)⟩], .ok (s!"Bearer {issuedToken.accessToken}")⟩

/-- A minute later it is still good. -/
def secondEntry : Entry :=
  ⟨.arm, [⟨.now, seconds 60⟩], .ok (s!"Bearer {issuedToken.accessToken}")⟩

theorem served_twice : Served identity .empty ([firstEntry] ++ secondEntry :: [])
    ⟨none, some issuedToken⟩ := by
  have hissued : (requestToken tokenErrors identity Scope.arm.text).Run firstEntry.trace
      (.ok issuedToken) :=
    Prog.Run.ask_bind_iff.mpr ⟨Except.ok "assertion", _, rfl,
      Prog.Run.ask_bind_iff.mpr ⟨Except.ok ⟨200, "", .ok ⟨"abc", none⟩⟩, _, rfl,
        Prog.Run.ask_bind_iff.mpr ⟨(0 : Timestamp), [], rfl, .pure _⟩⟩⟩
  have hfirst : (workloadIdentityHeader identity .empty .arm).Run firstEntry.trace
      (.ok (s!"Bearer {issuedToken.accessToken}", ⟨none, some issuedToken⟩)) :=
    Prog.Run.bind_iff.mpr (.inr ⟨(issuedToken.accessToken, some issuedToken), firstEntry.trace, [],
      Prog.Run.bind_iff.mpr (.inr ⟨issuedToken, firstEntry.trace, [], hissued, .pure _, rfl⟩),
      .pure _, rfl⟩)
  have hcurrent : seconds 60 + seconds 300 < issuedToken.expiresAt := by decide
  have hsecond : (workloadIdentityHeader identity ⟨none, some issuedToken⟩ .arm).Run
      secondEntry.trace
      (.ok (s!"Bearer {issuedToken.accessToken}", ⟨none, some issuedToken⟩)) := by
    refine Prog.Run.bind_iff.mpr (.inr ⟨(issuedToken.accessToken, some issuedToken),
      secondEntry.trace, [], Prog.Run.ask_bind_iff.mpr ⟨seconds 60, [], rfl, ?_⟩, .pure _, rfl⟩)
    rw [if_pos hcurrent]
    exact .pure _
  exact .header .arm _ _ hfirst (.header .arm _ _ hsecond (.nil _))

end Sample

theorem second_header_is_cached : ∃ token,
    Latest Sample.identity [Sample.firstEntry] Sample.secondEntry.scope token ∧
      Sound Sample.identity token Sample.secondEntry :=
  served_headers Sample.served_twice

end FluidBG.ServiceBus
