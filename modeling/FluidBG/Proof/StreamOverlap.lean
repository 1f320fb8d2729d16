import FluidBG.Plugins.Nats
import FluidBG.Plugins.Sample
import FluidBG.Lib.Trace
import FluidBG.Lib.Wildcard
/-!
# The streams that one preparation creates

A preparation creates a stream for each managed subject, and gives all of them the subjects of the
configuration's `stream` block. JetStream refuses a stream with a subject that overlaps one of
another stream. So this block may name subjects only where there is one stream to create: that is
the whole condition, next to the managed subjects' own overlaps.
-/

set_option autoImplicit false

namespace FluidBG.Nats

open Lib

/-! ## Subjects with wildcards -/

/-- The pattern of a list of tokens. A wildcard is a whole token, and `>` the last one. -/
def tokensPattern : List String → Pattern String
  | [] => .done
  | token :: tokens =>
    if token = ">" ∧ tokens = [] then .rest
    else if token = "*" then .any (tokensPattern tokens)
    else .lit token (tokensPattern tokens)

def subjectPattern (subject : String) : Pattern String :=
  tokensPattern (splitDots subject.toList)

/-- Streams with these subjects would both store some message. -/
def SubjectsOverlap (xs ys : List String) : Prop :=
  ∃ x ∈ xs, ∃ y ∈ ys, (subjectPattern x).Overlaps (subjectPattern y)

instance (xs ys : List String) : Decidable (SubjectsOverlap xs ys) :=
  inferInstanceAs (Decidable (∃ x ∈ xs, ∃ y ∈ ys, (subjectPattern x).Overlaps (subjectPattern y)))

example : SubjectsOverlap ["orders.*.created"] ["audit", "orders.eu.>"] := by decide +kernel

theorem SubjectsOverlap.of_mem {x : String} {xs ys : List String} (hx : x ∈ xs) (hy : x ∈ ys) :
    SubjectsOverlap xs ys :=
  ⟨x, hx, x, hy, .refl _⟩

theorem SubjectsOverlap.symm {xs ys : List String} (h : SubjectsOverlap xs ys) :
    SubjectsOverlap ys xs := by
  obtain ⟨x, hx, y, hy, h⟩ := h
  exact ⟨y, hy, x, hx, h.symm⟩

@[simp] theorem subjectsOverlap_singleton {x y : String} :
    SubjectsOverlap [x] [y] ↔ (subjectPattern x).Overlaps (subjectPattern y) := by
  simp [SubjectsOverlap]

/-! ## The stream of a subject -/

theorem mem_streamConfig_subjects (subject : String) (cfg : StreamConfig) :
    subject ∈ (streamConfig subject cfg).subjects := by
  by_cases h : subject ∈ if cfg.subjects = [] then [subject] else cfg.subjects
  · simp only [streamConfig, if_pos h]
    exact h
  · simp [streamConfig, if_neg h]

theorem streamConfig_subjects_of_nil {cfg : StreamConfig} (h : cfg.subjects = [])
    (subject : String) : (streamConfig subject cfg).subjects = [subject] := by
  simp [streamConfig, h]

theorem mem_streamConfig_subjects_of_mem {cfg : StreamConfig} {x : String} (h : x ∈ cfg.subjects)
    (subject : String) : x ∈ (streamConfig subject cfg).subjects := by
  have hne : cfg.subjects ≠ [] := List.ne_nil_of_mem h
  by_cases hmem : subject ∈ cfg.subjects
  · simpa [streamConfig, hne, hmem] using h
  · simp [streamConfig, hne, hmem, h]

/-! ## A server that refuses overlaps -/

/-- JetStream with these streams. -/
def serveJetStream (streams : List StreamSettings) :
    (c : StreamCall) → StreamAnswer c × List StreamSettings
  | .connect _ => (.ok (), streams)
  | .getOrCreateStream settings =>
    if ∃ stream ∈ streams, stream.name = settings.name then (.ok (), streams)
    else if ∃ stream ∈ streams, SubjectsOverlap stream.subjects settings.subjects then
      (.error (), streams)
    else (.ok (), streams ++ [settings])
  | .deleteStream name => (.ok (), streams.filter (·.name ≠ name))
  | .streamNames => (.ok (streams.map (·.name)), streams)

def jetStream : Machine StreamCall StreamAnswer (List StreamSettings) Unit Unit where
  serve streams c _ := some (serveJetStream streams c)
  move _ _ := none
  halt streams := streams

/-! ## What a preparation creates -/

section Preparation

variable (state : ManagerState) (roles : List PluginRole) (config : Config)

/-- The streams that the manager asks for when every call is answered. -/
def createdStreams : List StreamSettings :=
  (server.trace .ok (reconcileStreams state roles config true) []).filterMap fun
    | .getOrCreateStream settings => some settings
    | _ => none

/-- The streams do not overlap, each stores its own subject, and a server without other streams
accepts them. -/
structure Prepares : Prop where
  apart : (createdStreams state roles config).Pairwise fun s s' =>
    ¬ SubjectsOverlap s.subjects s'.subjects
  own : ∀ s ∈ createdStreams state roles config, ∃ subject ∈ managedSubjects roles config,
    s.name = streamName subject ∧ subject ∈ s.subjects
  succeeds : (jetStream.eval () (reconcileStreams state roles config true) []).map (·.1) =
    some (.ok ())

variable {state roles config}

theorem trace_ensure (subjects : List String) (cfg : StreamConfig) (streams : List String) :
    server.trace .ok (Prog.forEach subjects fun subject => ensureSubjectStream subject cfg)
      streams = subjects.map fun subject => .getOrCreateStream (streamConfig subject cfg) := by
  induction subjects generalizing streams with
  | nil => rfl
  | cons subject subjects ih =>
    rw [List.map_cons, ← ih]
    rfl

theorem createdStreams_eq : createdStreams state roles config =
    if config.mode.isCore then [] else
      (managedSubjects roles config).map (streamConfig · config.stream) := by
  by_cases hcore : config.mode.isCore
  · rw [if_pos hcore, createdStreams, reconcileStreams, if_pos hcore]
    rfl
  · rw [if_neg hcore, createdStreams, reconcileStreams, if_neg hcore]
    show (StreamCall.connect state.natsUrl :: server.trace .ok (Prog.forEach
      (managedSubjects roles config) fun subject => ensureSubjectStream subject config.stream)
        []).filterMap _ = _
    rw [trace_ensure]
    simp [List.filterMap_map]

/-- Streams that do not overlap one another, nor those that are there, are accepted one after the
other. -/
theorem eval_ensure {cfg : StreamConfig} {subjects : List String} {streams : List StreamSettings}
    (hthere : ∀ s ∈ streams, ∀ subject ∈ subjects,
      ¬ SubjectsOverlap s.subjects (streamConfig subject cfg).subjects)
    (hapart : subjects.Pairwise fun x y =>
      ¬ SubjectsOverlap (streamConfig x cfg).subjects (streamConfig y cfg).subjects) :
    ∃ streams', jetStream.eval () (Prog.forEach subjects fun subject =>
      ensureSubjectStream subject cfg) streams = some (.ok (), streams') := by
  induction subjects generalizing streams with
  | nil => exact ⟨streams, rfl⟩
  | cons subject subjects ih =>
    rw [List.pairwise_cons] at hapart
    have hlater : ∀ s ∈ streams, ∀ subject ∈ subjects,
        ¬ SubjectsOverlap s.subjects (streamConfig subject cfg).subjects := by
      intro s hs x hx
      exact hthere s hs x (List.mem_cons_of_mem _ hx)
    have hcall : ∀ streams', serveJetStream streams
        (.getOrCreateStream (streamConfig subject cfg)) = (.ok (), streams') →
        jetStream.eval () (Prog.forEach (subject :: subjects) fun subject =>
          ensureSubjectStream subject cfg) streams =
        jetStream.eval () (Prog.forEach subjects fun subject =>
          ensureSubjectStream subject cfg) streams' := by
      intro streams' h
      refine Machine.eval_bind (a := ()) ?_
      simp [ensureSubjectStream, ManagerOp.ask, Prog.ask, Machine.eval, jetStream, h]
    by_cases hname : ∃ stream ∈ streams, stream.name = (streamConfig subject cfg).name
    · rw [hcall streams (by rw [serveJetStream, if_pos hname])]
      exact ih hlater hapart.2
    · have hnew : ¬ ∃ stream ∈ streams,
          SubjectsOverlap stream.subjects (streamConfig subject cfg).subjects := by
        intro h
        obtain ⟨stream, hstream, hoverlap⟩ := h
        exact hthere stream hstream subject List.mem_cons_self hoverlap
      rw [hcall (streams ++ [streamConfig subject cfg])
        (by rw [serveJetStream, if_neg hname, if_neg hnew])]
      refine ih ?_ hapart.2
      intro s hs x hx
      rcases List.mem_append.mp hs with hs | hs
      · exact hlater s hs x hx
      · rw [List.mem_singleton.mp hs]
        exact hapart.1 x hx

/-- What does not overlap is accepted. -/
theorem succeeds_of_apart (hcore : ¬ config.mode.isCore)
    (h : (managedSubjects roles config).Pairwise fun x y =>
      ¬ SubjectsOverlap (streamConfig x config.stream).subjects
        (streamConfig y config.stream).subjects) :
    (jetStream.eval () (reconcileStreams state roles config true) []).map (·.1) =
      some (.ok ()) := by
  obtain ⟨streams, hstreams⟩ := @eval_ensure config.stream _ [] (by simp) h
  rw [reconcileStreams, if_neg hcore]
  show (jetStream.eval () (Prog.forEach (managedSubjects roles config) fun subject =>
    ensureSubjectStream subject config.stream) []).map (·.1) = some (.ok ())
  rw [hstreams]
  rfl

theorem pairwise_of_length {α : Type} {R : α → α → Prop} {xs : List α} (h : xs.length ≤ 1) :
    xs.Pairwise R := by
  cases xs with
  | nil => exact .nil
  | cons x xs => simp [List.length_eq_zero_iff.mp (Nat.le_zero.mp (Nat.le_of_succ_le_succ h))]

/-- Whether two streams overlap, in terms of the configuration. -/
theorem apart_iff {cfg : StreamConfig} {subjects : List String} :
    (subjects.Pairwise fun x y =>
      ¬ SubjectsOverlap (streamConfig x cfg).subjects (streamConfig y cfg).subjects) ↔
      subjects.length ≤ 1 ∨ cfg.subjects = [] ∧ subjects.Pairwise fun x y =>
        ¬ (subjectPattern x).Overlaps (subjectPattern y) := by
  by_cases hcfg : cfg.subjects = []
  · simp only [streamConfig_subjects_of_nil hcfg, subjectsOverlap_singleton, hcfg, true_and]
    constructor
    · intro h
      exact .inr h
    · intro h
      rcases h with h | h
      · exact pairwise_of_length h
      · exact h
  · -- a subject of the block is in both of the first two streams
    obtain ⟨x, hx⟩ := List.exists_mem_of_ne_nil _ hcfg
    simp only [hcfg, false_and, or_false]
    constructor
    · intro h
      cases subjects with
      | nil => simp
      | cons first subjects =>
        cases subjects with
        | nil => simp
        | cons second subjects =>
          have hapart := (List.pairwise_cons.mp h).1 second List.mem_cons_self
          exact absurd (.of_mem (mem_streamConfig_subjects_of_mem hx first)
            (mem_streamConfig_subjects_of_mem hx second)) hapart
    · intro h
      exact pairwise_of_length h

/-- **The streams of one preparation.** They overlap exactly when the `stream` block names subjects
and there is more than one stream to give them to, or when the managed subjects overlap
themselves. -/
theorem prepares_iff (state : ManagerState) (roles : List PluginRole) (config : Config) :
    Prepares state roles config ↔
      config.mode = .core ∨ (managedSubjects roles config).length ≤ 1 ∨
        config.stream.subjects = [] ∧ (managedSubjects roles config).Pairwise fun x y =>
          ¬ (subjectPattern x).Overlaps (subjectPattern y) := by
  rw [← apart_iff]
  by_cases hcore : config.mode.isCore
  · have hcreated : createdStreams state roles config = [] := by
      rw [createdStreams_eq, if_pos hcore]
    have hmode : config.mode = .core := by simpa [NatsMode.isCore] using hcore
    refine iff_of_true ⟨?_, ?_, ?_⟩ (.inl hmode)
    · rw [hcreated]
      exact .nil
    · rw [hcreated]
      simp
    · rw [reconcileStreams, if_pos hcore]
      rfl
  · have hmode : config.mode ≠ .core := by simpa [NatsMode.isCore] using hcore
    have hcreated : createdStreams state roles config =
        (managedSubjects roles config).map (streamConfig · config.stream) := by
      rw [createdStreams_eq, if_neg hcore]
    simp only [hmode, false_or]
    constructor
    · intro h
      have hapart := h.apart
      rwa [hcreated, List.pairwise_map] at hapart
    · intro h
      refine ⟨?_, ?_, succeeds_of_apart hcore h⟩
      · rwa [hcreated, List.pairwise_map]
      · rw [hcreated]
        intro s hs
        obtain ⟨subject, hsubject, rfl⟩ := List.mem_map.mp hs
        exact ⟨subject, hsubject, rfl, mem_streamConfig_subjects _ _⟩

end Preparation

/-! ## A shared subject -/

/-- A duplicator whose streams shall store the subjects under `orders` too. -/
def sharedSubjects : Config where
  mode := .jetStream
  stream := { StreamConfig.empty with subjects := ["orders.>"] }
  duplicator := some ⟨some "orders.created", none, some "green-orders", some "blue-orders",
    some "INPUT", some "INPUT", none, none, none, none, none⟩
  splitter := none
  combiner := none
  writer := none
  consumer := none
  observer := none

def sharedSubjectsRefusedRefused :
    PLift ((jetStream.eval () (reconcileStreams ⟨Sample.managerCrates, "signing-key",
      "nats://broker", "nats://broker"⟩ [.duplicator] sharedSubjects true) []).map (·.1) =
      some (.error .internalServerError)) :=
  ⟨by decide +kernel⟩

/-- The second of its three streams is refused, and the preparation fails. -/
theorem shared_subjects_refused :
    ¬ ∀ (state : ManagerState) (roles : List PluginRole) (config : Config),
      (managedSubjects roles config).Nodup → Prepares state roles config := by
  intro h
  have hprepares := h ⟨Sample.managerCrates, "signing-key", "nats://broker", "nats://broker"⟩
    [.duplicator] sharedSubjects (by decide)
  have hrefused := sharedSubjectsRefusedRefused.down
  rw [hprepares.succeeds] at hrefused
  cases hrefused

end FluidBG.Nats
