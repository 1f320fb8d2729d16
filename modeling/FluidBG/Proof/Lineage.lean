import FluidBG.Cluster
import FluidBG.Tracker
import FluidBG.Sample
import FluidBG.Lib.Pool
import FluidBG.Proof.Registry
/-!
# Whose verdict it is

A round of the tracker works on the list it read first, and the store knows a case by its name only.
Each time a case is stored anew it gets a number here, its registration, and a round remembers the
registrations it has listed. A round judges the registration it has listed as long as no case it may
yet judge is stored anew.
-/

set_option autoImplicit false

namespace FluidBG

open Lib

/-! ## Registrations -/

/-- The cluster, and how often a case was stored anew under each key. -/
structure Tracked where
  world : World
  births : String → Nat

/-- The case of `run` is stored now and was not before. -/
def Tracked.register (s : Tracked) (run : TestCaseRecord) (w : World) : Tracked where
  world := w
  births := if s.world.store.get run.blueGreenRef run.testId = none ∧
      w.store.get run.blueGreenRef run.testId ≠ none then
    Function.update s.births run.key (s.births run.key + 1) else s.births

/-- The cases a round of the tracker may yet judge, each with the registration it has listed; `none`
for what is not a round of the tracker. -/
abbrev Round := Option (List (TestCaseRecord × Nat))

/-- The answer of a verifier leads to a verdict, or takes a retry. -/
def PollAnswer.mayJudge (run : TestCaseRecord) : PollAnswer → Bool
  | .body response => response.passed.isSome
  | .unparsable => run.verificationMode = .custom
  | .sendError _ => false

/-- The first case is polled, and done with unless its verdict is next. -/
def afterPoll (answer : PollAnswer) : List (TestCaseRecord × Nat) → List (TestCaseRecord × Nat)
  | [] => []
  | entry :: rest => if answer.mayJudge entry.1 then entry :: rest else rest

/-- What a round remembers after a call. -/
def seePending (births : String → Nat) (pending : List (TestCaseRecord × Nat)) (c : Call)
    (a : Answer c) : List (TestCaseRecord × Nat) :=
  match c, a with
  | .listPending, .ok runs => runs.map fun run => (run, births run.key)
  | .pollVerifier _ _, answer => afterPoll answer pending
  | .now, now => pending.filter fun entry => entry.1.expiresAt < now
  | .decrementRetries _ _, .ok none => pending
  | .decrementRetries _ _, _ => pending.tail
  | .setVerdict _ _ _ _, _ => pending.tail
  | .markTimedOut _ _, _ => pending.tail
  | _, _ => pending

/-- The world after a call. -/
def Tracked.served (s : Tracked) (c : Call) (w : World) : Tracked :=
  match c with
  | .register run => s.register run w
  | _ => ⟨w, s.births⟩

/-- The world after a move. -/
def Tracked.moved (s : Tracked) (v : Move) (w : World) : Tracked :=
  match v with
  | .register run => s.register run w
  | _ => ⟨w, s.births⟩

/-- The cluster shared by rounds of the tracker and by everything else. -/
def trackedCluster : Shared Call Answer Round Tracked Outcome Move where
  serve x s c o := (s.world.serve c o).map fun aw =>
    (aw.1, s.served c aw.2, x.map fun pending => seePending s.births pending c aw.1)
  move s v := (s.world.move v).map (s.moved v)

/-- The tracker's rounds, and any other work on the cluster: handlers, reconciles, sweeps. -/
inductive TrackerJob where
  | pollPending
  | checkTimeouts
  | other (work : Op Unit)

def TrackerJob.thread : TrackerJob → Thread Call Answer ReconcileError Round
  | .pollPending => ⟨FluidBG.pollPending, some []⟩
  | .checkTimeouts => ⟨FluidBG.checkTimeouts, some []⟩
  | .other work => ⟨work, none⟩

/-! ## The condition -/

/-- No round among them may yet judge the case under this key. -/
def Unlisted (rounds : List Round) (key : String) : Prop :=
  ∀ round ∈ rounds, ∀ pending ∈ round, ∀ entry ∈ pending, entry.1.key ≠ key

instance (rounds : List Round) (key : String) : Decidable (Unlisted rounds key) :=
  inferInstanceAs (Decidable (∀ round ∈ rounds, ∀ pending ∈ round, _))

/-- A registration that stores its case anew finds no round that may yet judge the case. -/
def RegistersAfresh (rounds : List Round) (s : Tracked) (run : TestCaseRecord) : Prop :=
  s.world.store.get run.blueGreenRef run.testId = none → Unlisted rounds run.key

instance (rounds : List Round) (s : Tracked) (run : TestCaseRecord) :
    Decidable (RegistersAfresh rounds s run) :=
  inferInstanceAs (Decidable (_ → _))

/-- **No case is stored anew while a round that has listed it may yet judge it.** -/
def afreshWatch : Watch Call Round Tracked Outcome Move where
  call others _ s c o := match c, o with
    | .register _, .refused _ => True
    | .register run, _ => RegistersAfresh others s run
    | _, _ => True
  move all s v := match v with
    | .register run => RegistersAfresh all s run
    | _ => True

instance (others : List Round) (x : Round) (s : Tracked) (c : Call) (o : Outcome) :
    Decidable (afreshWatch.call others x s c o) :=
  decidable_of_iff (o.IsRefused ∨ ∀ run ∈ c.registers, RegistersAfresh others s run) (by
    unfold afreshWatch
    dsimp only
    split <;> simp_all [Outcome.IsRefused, Call.registers])

instance (all : List Round) (s : Tracked) (v : Move) : Decidable (afreshWatch.move all s v) := by
  unfold afreshWatch
  dsimp only
  split
  · infer_instance
  · exact .isTrue trivial

/-! ## What a round knows -/

/-- The key of the case a call of the tracker finalizes. -/
def Call.judges : Call → Option String
  | .setVerdict key testId _ _ => some (recordKey key testId)
  | .markTimedOut key testId => some (recordKey key testId)
  | _ => none

/-- What a round has listed is still the last registration of each case. -/
def Tracked.Current (s : Tracked) (pending : List (TestCaseRecord × Nat)) : Prop :=
  ∀ entry ∈ pending, s.births entry.1.key = entry.2

/-- A round judges what it has listed. -/
def JudgesListed (x : Round) (s : Tracked) (c : Call) : Prop :=
  ∀ pending ∈ x, ∀ key ∈ c.judges, ∃ entry ∈ pending, entry.1.key = key ∧ s.births key = entry.2

abbrev lineageDuty : Duty Call Round Tracked := ⟨fun _ => True, JudgesListed⟩

section Rounds

variable {s s' : Tracked} {run : TestCaseRecord} {pending : List (TestCaseRecord × Nat)}

/-- A registration leaves the other cases their registrations, and its own one too where the case is
there already. -/
theorem Tracked.register_births {w : World} {key : String}
    (h : s.world.store.get run.blueGreenRef run.testId = none → run.key ≠ key) :
    (s.register run w).births key = s.births key := by
  unfold Tracked.register
  dsimp only
  split
  · rename_i hanew
    exact Function.update_of_ne (h hanew.1).symm _ _
  · rfl

theorem Tracked.Current.register {w : World} {rounds : List Round}
    (h : s.Current pending) (hmem : some pending ∈ rounds) (hafresh : RegistersAfresh rounds s run) :
    (s.register run w).Current pending := by
  intro entry hentry
  rw [Tracked.register_births fun hnone => ?_]
  · exact h entry hentry
  · exact (hafresh hnone _ hmem pending rfl entry hentry).symm

/-- A refused registration stores nothing. -/
theorem Tracked.register_same {w : World} (h : w = s.world) : (s.register run w).births = s.births := by
  subst h
  unfold Tracked.register
  dsimp only
  rw [if_neg fun h => h.2 h.1]

theorem Tracked.Current.of_births (h : s.Current pending) (hb : s'.births = s.births) :
    s'.Current pending := by
  intro entry hentry
  rw [hb]
  exact h entry hentry

/-- **Whatever the others do, what a round has listed stays current.** -/
theorem current_stable : (Pool.outside trackedCluster afreshWatch lineageDuty).Stable
    fun t => ∀ pending ∈ t.2, t.1.Current pending := by
  refine Pool.stable ?_ ?_
  · intro all s x v s' hcurrent hmem hguard hmove pending hpending
    cases hpending
    obtain ⟨w, -, rfl⟩ := Option.map_eq_some_iff.mp hmove
    have hlisted := hcurrent pending rfl
    cases v with
    | register run => exact hlisted.register hmem hguard
    | _ => exact hlisted.of_births rfl
  · intro others s x y c o a s' y' hcurrent hmem _ _ hguard hserve pending hpending
    cases hpending
    obtain ⟨aw, hworld, heq⟩ := Option.map_eq_some_iff.mp hserve
    cases heq
    have hlisted := hcurrent pending rfl
    cases c with
    | register run =>
      cases o with
      | refused text =>
        have hsame : aw.2 = s.world := by
          have hpair := Option.some.inj hworld
          exact (congrArg Prod.snd hpair).symm
        exact hlisted.of_births (Tracked.register_same hsame)
      | _ => exact hlisted.register hmem hguard
    | _ => exact hlisted.of_births rfl

theorem mem_of_afterPoll {answer : PollAnswer} {entry : TestCaseRecord × Nat}
    (h : entry ∈ afterPoll answer pending) : entry ∈ pending := by
  cases pending with
  | nil => exact h
  | cons first rest =>
    rw [afterPoll] at h
    split at h
    · exact h
    · exact List.mem_cons_of_mem _ h

/-- What a round adds to its list is current, and it only drops other cases. -/
theorem Tracked.Current.see (h : s.Current pending) {c : Call} (hc : ∀ run, c ≠ .register run)
    (a : Answer c) (w : World) : (s.served c w).Current (seePending s.births pending c a) := by
  have hbirths : (s.served c w).births = s.births := by
    unfold Tracked.served
    split
    · exact absurd rfl (hc _)
    · rfl
  refine Tracked.Current.of_births ?_ hbirths
  unfold seePending
  split
  · intro entry hentry
    obtain ⟨run, -, rfl⟩ := List.mem_map.mp hentry
    rfl
  · exact fun e he => h e (mem_of_afterPoll he)
  · exact fun e he => h e (List.mem_of_mem_filter he)
  · exact h
  · exact fun e he => h e (List.mem_of_mem_tail he)
  · exact fun e he => h e (List.mem_of_mem_tail he)
  · exact fun e he => h e (List.mem_of_mem_tail he)
  · exact h

/-! ## The rounds -/

/-- The code of a round keeps its duty. -/
abbrev Op.Round (p : Op Unit) (s : Tracked) (pending : List (TestCaseRecord × Nat)) : Prop :=
  (Pool.outside trackedCluster afreshWatch lineageDuty).Spec lineageDuty.contract
    (fun _ _ => True) (fun _ _ => True) p (s, some pending)

/-- The rule for one call: the round goes on, its list still current. -/
theorem Op.Round.call {c : Call} {k : Answer c → Op Unit} (hcurrent : s.Current pending)
    (hc : ∀ run, c ≠ .register run)
    (hjudges : ∀ key ∈ c.judges, ∃ entry ∈ pending, entry.1.key = key)
    (hk : ∀ a s', s'.Current (seePending s.births pending c a) →
      Op.Round (k a) s' (seePending s.births pending c a)) :
    Op.Round (.call c k) s pending := by
  refine ⟨fun pending' hpending key hkey => ?_, fun a t hanswer => ?_⟩
  · cases hpending
    obtain ⟨entry, hentry, rfl⟩ := hjudges key hkey
    exact ⟨entry, hentry, rfl, hcurrent entry hentry⟩
  · obtain ⟨others, o, -, hserve⟩ := hanswer
    obtain ⟨aw, -, heq⟩ := Option.map_eq_some_iff.mp hserve
    obtain ⟨s', x'⟩ := t
    cases heq
    refine ⟨trivial, fun t hlater _ => ?_⟩
    have hsee := hcurrent.see hc aw.1 aw.2
    have hmemory := Pool.later_memory hlater
    obtain ⟨s'', x''⟩ := t
    cases hmemory
    refine hk aw.1 s'' ?_
    refine current_stable.later ?_ hlater _ rfl
    intro pending' hpending'
    cases hpending'
    exact hsee

/-- The call about the first case of the list. -/
theorem judges_head {run : TestCaseRecord} {n : Nat} {rest : List (TestCaseRecord × Nat)} {c : Call}
    (hc : c.judges = some (recordKey run.blueGreenRef run.testId)) :
    ∀ key ∈ c.judges, ∃ entry ∈ (run, n) :: rest, entry.1.key = key := by
  intro key hkey
  rw [hc] at hkey
  cases hkey
  exact ⟨(run, n), List.mem_cons_self, rfl⟩

theorem judges_none {c : Call} (hc : c.judges = none) :
    ∀ key ∈ c.judges, ∃ entry ∈ pending, entry.1.key = key := by
  intro key hkey
  rw [hc] at hkey
  cases hkey

/-- A custom case whose verifier is not understood. -/
theorem takeRetry_round {n : Nat} {rest : List (TestCaseRecord × Nat)} {k : Unit → Op Unit}
    (hcurrent : s.Current ((run, n) :: rest))
    (hk : ∀ s', s'.Current rest → Op.Round (k ()) s' rest) :
    Op.Round (Prog.bind (takeRetry run) k) s ((run, n) :: rest) := by
  refine Op.Round.call hcurrent (fun _ h => by cases h) (judges_none rfl) fun a s' hs' => ?_
  cases a with
  | error e => exact hk s' hs'
  | ok remaining =>
    cases remaining with
    | some left => exact hk s' hs'
    | none =>
      refine Op.Round.call hs' (fun _ h => by cases h) (judges_head rfl) fun a s'' hs'' => ?_
      exact hk s'' hs''

/-- One turn of the poll is about the first case of the list, and leaves the rest of it. -/
theorem pollCase_round {n : Nat} {rest : List (TestCaseRecord × Nat)} {k : Unit → Op Unit}
    (hcurrent : s.Current ((run, n) :: rest))
    (hk : ∀ s', s'.Current rest → Op.Round (k ()) s' rest) :
    Op.Round (Prog.bind (pollCase run) k) s ((run, n) :: rest) := by
  refine Op.Round.call hcurrent (fun _ h => by cases h) (judges_none rfl) fun a s' hs' => ?_
  cases a with
  | sendError text => exact hk s' hs'
  | body response =>
    obtain ⟨passed, errorMessage⟩ := response
    cases passed with
    | none => exact hk s' hs'
    | some passed =>
      refine Op.Round.call hs' (fun _ h => by cases h) (judges_head rfl) fun a s'' hs'' => ?_
      exact hk s'' hs''
  | unparsable =>
    have hsee : seePending s.births ((run, n) :: rest)
        (.pollVerifier run.verifyUrl (if run.verifierAuthToken = "" then ""
          else bearerValue run.verifierAuthToken)) .unparsable =
        if run.verificationMode = .custom then (run, n) :: rest else rest := by
      simp [seePending, afterPoll, PollAnswer.mayJudge]
    rw [hsee] at hs' ⊢
    show Op.Round (Prog.bind (if run.verificationMode = .custom then takeRetry run
      else .pure ()) k) _ _
    by_cases hmode : run.verificationMode = .custom
    · simp only [if_pos hmode] at hs' ⊢
      exact takeRetry_round hs' hk
    · simp only [if_neg hmode] at hs' ⊢
      exact hk s' hs'

theorem pollAll_round (runs : List TestCaseRecord) (hcurrent : s.Current pending)
    (hruns : pending.map (·.1) = runs) : Op.Round (Prog.forEach runs pollCase) s pending := by
  induction runs generalizing s pending with
  | nil => trivial
  | cons run runs ih =>
    obtain ⟨⟨run', n⟩, rest, rfl, hrun, hrest⟩ := List.map_eq_cons_iff.mp hruns
    cases hrun
    exact pollCase_round hcurrent fun s' hs' => ih hs' hrest

theorem expireAll_round (now : Timestamp) (runs : List TestCaseRecord)
    (hcurrent : s.Current pending)
    (hruns : pending.map (·.1) = runs.filter fun run => run.expiresAt < now) :
    Op.Round (Prog.forEach runs fun run => if run.expiresAt < now then expireCase run else pure ())
      s pending := by
  induction runs generalizing s pending with
  | nil => trivial
  | cons run runs ih =>
    rw [Prog.forEach]
    by_cases hover : run.expiresAt < now
    · rw [List.filter_cons_of_pos (by simpa using hover)] at hruns
      obtain ⟨⟨run', n⟩, rest, rfl, hrun, hrest⟩ := List.map_eq_cons_iff.mp hruns
      cases hrun
      rw [if_pos hover]
      refine Op.Round.call hcurrent (fun _ h => by cases h) (judges_head rfl) fun a s' hs' => ?_
      exact ih hs' hrest
    · rw [List.filter_cons_of_neg (by simpa using hover)] at hruns
      rw [if_neg hover]
      exact ih hcurrent hruns

theorem listed_cases (births : String → Nat) (runs : List TestCaseRecord) :
    (runs.map fun run => (run, births run.key)).map (·.1) = runs := by
  rw [List.map_map]
  exact List.map_id runs

theorem pollPending_round : Op.Round pollPending s [] := by
  refine Op.Round.call (fun _ h => by cases h) (fun _ h => by cases h) (judges_none rfl)
    fun a s' hs' => ?_
  cases a with
  | error e => trivial
  | ok runs => exact pollAll_round runs hs' (listed_cases s.births runs)

theorem checkTimeouts_round : Op.Round checkTimeouts s [] := by
  refine Op.Round.call (fun _ h => by cases h) (fun _ h => by cases h) (judges_none rfl)
    fun a s' hs' => ?_
  cases a with
  | error e => trivial
  | ok runs =>
    refine Op.Round.call hs' (fun _ h => by cases h) (judges_none rfl) fun now s'' hs'' => ?_
    refine expireAll_round now runs hs'' ?_
    show ((runs.map fun run => (run, s.births run.key)).filter
      fun entry => entry.1.expiresAt < now).map (·.1) = _
    rw [List.filter_map, List.map_map]
    exact List.map_id _

end Rounds

/-! ## Runs -/

/-- Rounds of the tracker among everything else that works on the cluster. -/
abbrev TrackerPool := Pool Call Answer ReconcileError Round Tracked

/-- What is not a round of the tracker owes nothing. -/
theorem other_spec (work : Op Unit) (s : Tracked) :
    (Pool.outside trackedCluster afreshWatch lineageDuty).Spec lineageDuty.contract
      (fun _ _ => True) (fun _ _ => True) work (s, none) := by
  induction work generalizing s with
  | pure a => trivial
  | fail e => trivial
  | call c k ih =>
    refine ⟨fun pending hpending => (by cases hpending), fun a t hanswer => ⟨trivial, ?_⟩⟩
    intro t' hlater _
    obtain ⟨others, o, -, hserve⟩ := hanswer
    obtain ⟨aw, -, heq⟩ := Option.map_eq_some_iff.mp hserve
    obtain ⟨s', x'⟩ := t
    cases heq
    have hmemory := Pool.later_memory hlater
    obtain ⟨s'', x''⟩ := t'
    cases hmemory
    exact ih aw.1 s''

theorem trackerJob_spec (job : TrackerJob) (s : Tracked) :
    (Pool.outside trackedCluster afreshWatch lineageDuty).Spec lineageDuty.contract
      (fun _ _ => True) (fun _ _ => True) job.thread.prog (s, job.thread.memory) := by
  cases job with
  | pollPending => exact pollPending_round
  | checkTimeouts => exact checkTimeouts_round
  | other work => exact other_spec work s

/-- Every store write of a round that finalizes a case, and so changes the store, is about a
registration the round has listed. -/
def TrackerPool.Truthful (s : TrackerPool) : Prop :=
  ∀ t ∈ s.threads, ∀ pending ∈ t.memory, ∀ c k, t.prog = .call c k → ∀ key ∈ c.judges,
    ∀ o a w, s.world.world.serve c o = some (a, w) → w.store ≠ s.world.world.store →
      ∃ entry ∈ pending, entry.1.key = key ∧ s.world.births key = entry.2

/-- A case of the sample that waits for its verdict. -/
def Sample.waiting (triggeredAt : Timestamp) (verifyUrl : String) : TestCaseRecord where
  testId := "case-1"
  blueGreenRef := "default/shop"
  triggeredAt := triggeredAt
  sourceInceptionPoint := "orders"
  timeout := 60000000000
  status := .triggered
  verdict := none
  verificationMode := .data
  verifyUrl := verifyUrl
  verifierAuthToken := "t1"
  retriesRemaining := 0
  failureMessage := none

/-- One case waits, and nothing else goes on. -/
def Sample.trackerStart : TrackerPool :=
  ⟨⟨world .observing [waiting 0 "http://verifier/old"], fun _ => 0⟩, []⟩

/-- The verdict of a verifier. -/
def Sample.passes? : Outcome := .verifier (.body ⟨some true, none⟩)

/-- The next call of the first thread: the key it judges, the registrations its round has listed,
the registration that is stored, and whether it changes the store. -/
def Sample.judging (s : TrackerPool) : Option (String × List Nat × Nat × Bool) :=
  match s.threads with
  | ⟨.call c _, some pending⟩ :: _ => c.judges.bind fun key =>
    (s.world.world.serve c .ok).map fun aw =>
      (key, pending.map (·.2), s.world.births key, decide (aw.2.store ≠ s.world.world.store))
  | _ => none

/-- A round lists the case; while its verifier works, the rollout is cleaned up and the next one
registers a case of that name. -/
def Sample.overtaken : List (Pool.Event TrackerJob Outcome Move) :=
  [.start .pollPending, .answer 0 .ok,
    .start (.other (do let _ ← Op.ask (.cleanupBlueGreen "default/shop"); pure ())),
    .answer 1 .ok, .stop 1, .move (.register (waiting 5000000000 "http://verifier/new")),
    .answer 0 passes?]

def verdictOfAnotherRegistrationRun :
    PLift ((Pool.run Watch.top trackedCluster TrackerJob.thread Sample.trackerStart
      Sample.overtaken).map Sample.judging =
      some (some (recordKey "default/shop" "case-1", [0], 1, true))) :=
  ⟨by decide +kernel⟩

/-- The round that lists the case after it was stored anew. -/
def Sample.undisturbed : List (Pool.Event TrackerJob Outcome Move) :=
  [.start (.other (do let _ ← Op.ask (.cleanupBlueGreen "default/shop"); pure ())),
    .answer 0 .ok, .stop 0, .move (.register (waiting 5000000000 "http://verifier/new")),
    .start .pollPending, .answer 0 .ok, .answer 0 passes?]

def verdictsOfListedRegistrationsPolledRun :
    PLift ((Pool.run afreshWatch trackedCluster TrackerJob.thread Sample.trackerStart
      Sample.undisturbed).map Sample.judging =
      some (some (recordKey "default/shop" "case-1", [1], 1, true))) :=
  ⟨by decide +kernel⟩

end FluidBG
