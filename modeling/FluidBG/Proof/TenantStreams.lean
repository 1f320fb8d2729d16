import FluidBG.Plugins.Nats
import FluidBG.Plugins.Sample
import FluidBG.Proof.SuppliedNames
import FluidBG.Lib.Trace
/-!
# The streams a NATS manager deletes

A request deletes streams in two ways. `cleanup` deletes those of the temporary subjects it reads
from the rewritten configuration, and both requests end with a sweep over all streams that look
temporary and that the inventory of the request does not list. The claims fix neither the blocks
that the rewrite does not reach nor the inventory, so both have to be as the claims would have them.
-/

set_option autoImplicit false

namespace FluidBG.Nats

open Lib

/-! ## Where the subjects are read from -/

/-- The fields of a role's block that name temporary subjects. -/
def tempPlaces : PluginRole → NamePlaces
  | .duplicator => ⟨"duplicator", 2, [("greenInputSubject", 2), ("blueInputSubject", 3)]⟩
  | .splitter => ⟨"splitter", 3, [("greenInputSubject", 2), ("blueInputSubject", 3)]⟩
  | .combiner => ⟨"combiner", 4, [("greenOutputSubject", 1), ("blueOutputSubject", 2)]⟩
  | _ => ⟨"", 0, []⟩

/-- The field of a role's block that names a subject of the application. -/
def basePlaces : PluginRole → NamePlaces
  | .duplicator => ⟨"duplicator", 2, [("inputSubject", 0)]⟩
  | .splitter => ⟨"splitter", 3, [("inputSubject", 0)]⟩
  | .combiner => ⟨"combiner", 4, [("outputSubject", 0)]⟩
  | .writer => ⟨"writer", 5, [("targetSubject", 0)]⟩
  | .consumer => ⟨"consumer", 6, [("inputSubject", 0)]⟩
  | _ => ⟨"", 0, []⟩

theorem tempPlaces_rewritten (role : PluginRole) :
    (tempPlaces role).Rewritten subjectTempNames := by
  cases role <;> decide

/-! ## The reading, field by field -/

theorem InputRoleConfig.subjects_of_decode {block : Json} {config : InputRoleConfig}
    (h : InputRoleConfig.decode block = some config) :
    config.inputSubject = (Serde.fieldAt "inputSubject" 0 block).bind Json.asStr ∧
      config.greenInputSubject = (Serde.fieldAt "greenInputSubject" 2 block).bind Json.asStr ∧
      config.blueInputSubject = (Serde.fieldAt "blueInputSubject" 3 block).bind Json.asStr := by
  have h₀ : InputRoleConfig.fields.Reads config block := Serde.Fields.reads_of_decode h
  obtain ⟨_, h₁, rfl⟩ := h₀.last_string (.inl rfl)
  obtain ⟨_, h₂, rfl⟩ := h₁.last_string (.inl rfl)
  obtain ⟨_, h₃, rfl⟩ := h₂.last_string (.inl rfl)
  obtain ⟨_, h₄, rfl⟩ := h₃.last_string (.inl rfl)
  obtain ⟨_, h₅, rfl⟩ := h₄.last_string (.inl rfl)
  obtain ⟨_, h₆, rfl⟩ := h₅.last_string (.inl rfl)
  obtain ⟨_, h₇, rfl⟩ := h₆.last_string (.inl rfl)
  obtain ⟨_, h₈, rfl⟩ := h₇.last_string (.inl rfl)
  obtain ⟨_, h₉, rfl⟩ := h₈.last_string (.inl rfl)
  obtain ⟨_, h₁₀, rfl⟩ := h₉.last_string (.inl rfl)
  obtain ⟨_, h₁₁, rfl⟩ := h₁₀.last_string (.inl rfl)
  cases h₁₁.eq_of_nil
  exact ⟨rfl, rfl, rfl⟩

theorem CombinerConfig.subjects_of_decode {block : Json} {config : CombinerConfig}
    (h : CombinerConfig.decode block = some config) :
    config.outputSubject = (Serde.fieldAt "outputSubject" 0 block).bind Json.asStr ∧
      config.greenOutputSubject = (Serde.fieldAt "greenOutputSubject" 1 block).bind Json.asStr ∧
      config.blueOutputSubject = (Serde.fieldAt "blueOutputSubject" 2 block).bind Json.asStr := by
  have h₀ : CombinerConfig.fields.Reads config block := Serde.Fields.reads_of_decode h
  obtain ⟨_, h₁, rfl⟩ := h₀.last_string (.inl rfl)
  obtain ⟨_, h₂, rfl⟩ := h₁.last_string (.inl rfl)
  obtain ⟨_, h₃, rfl⟩ := h₂.last_string (.inl rfl)
  obtain ⟨_, h₄, rfl⟩ := h₃.last_string (.inl rfl)
  obtain ⟨_, h₅, rfl⟩ := h₄.last_string (.inl rfl)
  obtain ⟨_, h₆, rfl⟩ := h₅.last_string (.inl rfl)
  cases h₆.eq_of_nil
  exact ⟨rfl, rfl, rfl⟩

theorem WriterConfig.subject_of_decode {block : Json} {config : WriterConfig}
    (h : WriterConfig.fields.decode false block = some config) :
    config.targetSubject = (Serde.fieldAt "targetSubject" 0 block).bind Json.asStr := by
  obtain ⟨_, h₁, rfl⟩ := (Serde.Fields.reads_of_decode h).last_string (.inl rfl)
  cases h₁.eq_of_nil
  rfl

theorem ConsumerConfig.subject_of_decode {block : Json} {config : ConsumerConfig}
    (h : ConsumerConfig.fields.decode false block = some config) :
    config.inputSubject = (Serde.fieldAt "inputSubject" 0 block).bind Json.asStr := by
  obtain ⟨_, h₁, rfl⟩ := (Serde.Fields.reads_of_decode h).last_string (.inl rfl)
  cases h₁.eq_of_nil
  rfl

/-- The blocks of a configuration that was read. -/
theorem Config.blocks_of_decode {v : Json} {config : Config} (h : Config.decode v = some config) :
    ((Serde.fieldAt "duplicator" 2 v).map (Serde.option InputRoleConfig.decode)).getD
      (some none) = some config.duplicator ∧
    ((Serde.fieldAt "splitter" 3 v).map (Serde.option InputRoleConfig.decode)).getD
      (some none) = some config.splitter ∧
    ((Serde.fieldAt "combiner" 4 v).map (Serde.option CombinerConfig.decode)).getD
      (some none) = some config.combiner ∧
    ((Serde.fieldAt "writer" 5 v).map (Serde.option (WriterConfig.fields.decode false))).getD
      (some none) = some config.writer ∧
    ((Serde.fieldAt "consumer" 6 v).map (Serde.option (ConsumerConfig.fields.decode false))).getD
      (some none) = some config.consumer := by
  have h₀ : Config.fields.Reads config v := Serde.Fields.reads_of_decode h
  obtain ⟨_, _, h₁, rfl, _⟩ := h₀.last_getD (.inr rfl)
  obtain ⟨_, _, h₂, rfl, hconsumer⟩ := h₁.last_getD (.inr rfl)
  obtain ⟨_, _, h₃, rfl, hwriter⟩ := h₂.last_getD (.inr rfl)
  obtain ⟨_, _, h₄, rfl, hcombiner⟩ := h₃.last_getD (.inr rfl)
  obtain ⟨_, _, h₅, rfl, hsplitter⟩ := h₄.last_getD (.inr rfl)
  obtain ⟨_, _, h₆, rfl, hduplicator⟩ := h₅.last_getD (.inr rfl)
  obtain ⟨_, _, h₇, rfl, _⟩ := h₆.last_getD (.inr rfl)
  obtain ⟨_, _, h₈, rfl, _⟩ := h₇.last_getD (.inr rfl)
  cases h₈.eq_of_nil
  exact ⟨hduplicator, hsplitter, hcombiner, hwriter, hconsumer⟩

/-- **The temporary subjects of a role** are the names at its places. -/
theorem Config.tempSubjects_of_decode {v : Json} {config : Config}
    (h : Config.decode v = some config) (role : PluginRole) :
    config.tempSubjects role = (tempPlaces role).inConfig v := by
  obtain ⟨hduplicator, hsplitter, hcombiner, _⟩ := Config.blocks_of_decode h
  have hinput : ∀ p : NamePlaces, p.fields = [("greenInputSubject", 2), ("blueInputSubject", 3)] →
      ∀ value b, InputRoleConfig.decode value = some b → b.tempSubjects = p.inBlock value := by
    intro p hp value b hb
    obtain ⟨_, hgreen, hblue⟩ := InputRoleConfig.subjects_of_decode hb
    rw [NamePlaces.inBlock_pair hp, InputRoleConfig.tempSubjects, hgreen, hblue]
  cases role with
  | duplicator =>
    exact NamePlaces.inConfig_of_read hduplicator (hinput (tempPlaces .duplicator) rfl) rfl
  | splitter =>
    exact NamePlaces.inConfig_of_read hsplitter (hinput (tempPlaces .splitter) rfl) rfl
  | combiner =>
    refine NamePlaces.inConfig_of_read (p := tempPlaces .combiner) hcombiner
      (fun value b hb => ?_) rfl
    obtain ⟨_, hgreen, hblue⟩ := CombinerConfig.subjects_of_decode hb
    rw [NamePlaces.inBlock_pair rfl, CombinerConfig.tempSubjects, hgreen, hblue]
  | observer => unfold NamePlaces.inConfig; cases Serde.fieldAt _ _ v <;> rfl
  | mock => unfold NamePlaces.inConfig; cases Serde.fieldAt _ _ v <;> rfl
  | writer => unfold NamePlaces.inConfig; cases Serde.fieldAt _ _ v <;> rfl
  | consumer => unfold NamePlaces.inConfig; cases Serde.fieldAt _ _ v <;> rfl

/-- The subject of the application, read the same way. -/
theorem Config.baseSubject_of_decode {v : Json} {config : Config}
    (h : Config.decode v = some config) (role : PluginRole) :
    (config.baseSubject role).toList = (basePlaces role).inConfig v := by
  obtain ⟨hduplicator, hsplitter, hcombiner, hwriter, hconsumer⟩ := Config.blocks_of_decode h
  have hbind : ∀ {B : Type} (block : Option B) (base : B → Option String),
      (block.bind base).toList = (block.map fun b => (base b).toList).getD [] := by
    intro B block base
    cases block <;> rfl
  have hinput : ∀ p : NamePlaces, p.fields = [("inputSubject", 0)] →
      ∀ value b, InputRoleConfig.decode value = some b →
        b.inputSubject.toList = p.inBlock value := by
    intro p hp value b hb
    rw [NamePlaces.inBlock_single hp, (InputRoleConfig.subjects_of_decode hb).1]
  cases role with
  | duplicator =>
    exact (hbind _ _).trans
      (NamePlaces.inConfig_of_read hduplicator (hinput (basePlaces .duplicator) rfl) rfl)
  | splitter =>
    exact (hbind _ _).trans
      (NamePlaces.inConfig_of_read hsplitter (hinput (basePlaces .splitter) rfl) rfl)
  | combiner =>
    refine (hbind _ _).trans (NamePlaces.inConfig_of_read (p := basePlaces .combiner) hcombiner
      (fun value b hb => ?_) rfl)
    rw [NamePlaces.inBlock_single rfl, (CombinerConfig.subjects_of_decode hb).1]
  | writer =>
    refine (hbind _ _).trans (NamePlaces.inConfig_of_read (p := basePlaces .writer) hwriter
      (fun value b hb => ?_) rfl)
    rw [NamePlaces.inBlock_single rfl, WriterConfig.subject_of_decode hb]
  | consumer =>
    refine (hbind _ _).trans (NamePlaces.inConfig_of_read (p := basePlaces .consumer) hconsumer
      (fun value b hb => ?_) rfl)
    rw [NamePlaces.inBlock_single rfl, ConsumerConfig.subject_of_decode hb]
  | observer => unfold NamePlaces.inConfig; cases Serde.fieldAt _ _ v <;> rfl
  | mock => unfold NamePlaces.inConfig; cases Serde.fieldAt _ _ v <;> rfl

/-! ## Requests -/

section Handlers

variable (state : ManagerState)

def handle (kind : LifecycleRequest) (header : Option String)
    (req : PluginManagerLifecycleRequest) : ManagerOp Unit :=
  match kind with
  | .prepare => (prepareHandler state header req).bind fun _ => .pure ()
  | .cleanup => cleanupHandler state header req

/-- The manager takes the request for one of the claims' own. -/
structure Accepts (header : Option String) (req : PluginManagerLifecycleRequest)
    (claims : PluginAuthClaims) : Prop where
  authorized : authorize state header = .ok claims
  matching : ensureRequestMatchesClaims req claims = .ok ()

end Handlers

/-- Only these streams are deleted. -/
def deleting (mayDelete : String → Prop) : Contract StreamCall (List String) where
  inv _ := True
  may _ c := match c with
    | .deleteStream stream => mayDelete stream
    | _ => True

/-- The stream is the one of a temporary subject derived for the inception, and none of those that
belong to others. -/
def OwnStream (id : InceptionId) (others : List String) (stream : String) : Prop :=
  (∃ subject, id.Derived subject ∧ stream = streamName subject) ∧ stream ∉ others

/-- The streams that the sweep takes for leftovers. -/
def Swept (req : PluginManagerLifecycleRequest) (stream : String) : Prop :=
  "fbg_fluidbg".toList.isPrefixOf stream.toList ∧ stream ∉ activeStreamNames req.activeInceptions

/-- The configuration can be read after the rewrite, and asks for streams. -/
def UsesStreams (id : InceptionId) (config : Json) : Prop :=
  ∃ c, Config.decode (rewriteTempSubjects id config) = some c ∧ c.mode.isCore = false

/-- The request brings nothing along that the manager takes for a temporary stream of the inception
and is not one. -/
structure BringsNothing (kind : LifecycleRequest) (id : InceptionId) (others : List String)
    (req : PluginManagerLifecycleRequest) (streams : List String) : Prop where
  /-- The subjects that the rewrite does not reach might as well have been derived. -/
  supplied : kind = .cleanup → UsesStreams id req.config → ∀ role ∈ subjectRoles,
    hasRole (parseRoles req.roles) role → ∀ subject ∈ (tempPlaces role).supplied req.config,
      ∃ temp, id.Derived temp ∧ streamName subject = streamName temp
  /-- No temporary subject shares its stream with somebody else's. -/
  apart : kind = .cleanup → UsesStreams id req.config → ∀ role ∈ subjectRoles,
    hasRole (parseRoles req.roles) role →
      ∀ subject ∈ (tempPlaces role).inConfig (rewriteTempSubjects id req.config),
        streamName subject ∉ others
  /-- The inventory lists the streams there are, but for the inception's own. -/
  existing : ∀ stream ∈ streams, Swept req stream → OwnStream id others stream
  /-- It also lists those that `prepare` is about to create. -/
  created : kind = .prepare → UsesStreams id req.config → ∀ role ∈ subjectRoles,
    hasRole (parseRoles req.roles) role →
      ∀ subject ∈ (basePlaces role).inConfig (rewriteTempSubjects id req.config) ++
        (tempPlaces role).inConfig (rewriteTempSubjects id req.config),
        Swept req (streamName subject) → OwnStream id others (streamName subject)

/-! ## What the parts of a handler do -/

section Parts

variable {state : ManagerState} {claims : PluginAuthClaims} {req : PluginManagerLifecycleRequest}
  {mayDelete : String → Prop}

theorem handle_cleanup {header : Option String} (h : Accepts state header req claims) :
    handle state .cleanup header req =
      (reconcileStreams state (parseRoles req.roles) (securedConfigFromClaims claims req).2
        false).bind fun _ => garbageCollectTempStreams state req.activeInceptions := by
  simp only [handle, cleanupHandler, h.authorized, h.matching, Prog.bind_def, Prog.pure_bind,
    Prog.ofExcept]

theorem handle_prepare {header : Option String} (h : Accepts state header req claims) :
    handle state .prepare header req =
      (Prog.ofExcept (checkRoles (parseRoles req.roles))).bind fun _ =>
        (reconcileStreams state (parseRoles req.roles) (securedConfigFromClaims claims req).2
          true).bind fun _ => garbageCollectTempStreams state req.activeInceptions := by
  simp only [handle, prepareHandler, h.authorized, h.matching, Prog.bind_def, Prog.pure_def,
    Prog.bind_assoc, Prog.pure_bind, Prog.ofExcept]
  congr 1
  funext _
  congr 1
  funext _
  exact Prog.bind_pure _

theorem connect_spec {K : Contract StreamCall (List String)} (hinv : ∀ w, K.inv w)
    (hmay : ∀ w url, K.may w (.connect url)) (url : String) (w : List String) :
    (server.outside Guard.still).Spec K (fun _ w' => w' = w) (fun _ _ => True)
      (connect url) w := by
  refine ⟨hmay w url, fun a w₁ ⟨o, _, hserve⟩ => ⟨hinv w₁, fun w₂ hlater _ => ?_⟩⟩
  cases Machine.later_still hlater
  cases o with
  | ok => cases hserve; rfl
  | refused => cases hserve; trivial
  | lost => cases hserve; trivial

theorem completes_connect (url : String) : server.Completes .ok (connect url) :=
  fun w => ⟨(), w, rfl⟩

theorem completes_deleteStreamName (stream : String) :
    server.Completes .ok (deleteStreamName stream) :=
  fun w => ⟨(), w.filter (· ≠ stream), rfl⟩

theorem completes_ensureSubjectStream (subject : String) (cfg : StreamConfig) :
    server.Completes .ok (ensureSubjectStream subject cfg) :=
  fun _ => ⟨(), _, rfl⟩

/-- The streams after a deletion are those before it, but perhaps for the one. -/
theorem deleteStreamName_spec {stream : String} (h : mayDelete stream) (w : List String) :
    (server.outside Guard.still).Spec (deleting mayDelete)
      (fun _ w' => (∀ s ∈ w', s ∈ w) ∧ ∀ s ∈ w, s ≠ stream → s ∈ w') (fun _ _ => True)
      (deleteStreamName stream) w := by
  refine ⟨h, fun a w₁ ⟨o, _, hserve⟩ => ⟨trivial, fun w₂ hlater _ => ?_⟩⟩
  cases Machine.later_still hlater
  have hfilter : (∀ s ∈ w.filter (· ≠ stream), s ∈ w) ∧
      ∀ s ∈ w, s ≠ stream → s ∈ w.filter (· ≠ stream) :=
    ⟨fun s hs => (List.mem_filter.mp hs).1,
      fun s hs hne => List.mem_filter.mpr ⟨hs, by simpa using hne⟩⟩
  cases o with
  | ok => cases hserve; exact hfilter
  | refused => cases hserve; exact ⟨fun _ h => h, fun _ h _ => h⟩
  | lost => cases hserve; exact hfilter

theorem ensureSubjectStream_spec (subject : String) (cfg : StreamConfig) (w : List String) :
    (server.outside Guard.still).Spec (deleting mayDelete)
      (fun _ w' => ∀ s, s ∈ w' ↔ s ∈ w ∨ s = streamName subject) (fun _ _ => True)
      (ensureSubjectStream subject cfg) w := by
  refine ⟨trivial, fun a w₁ ⟨o, _, hserve⟩ => ⟨trivial, fun w₂ hlater _ => ?_⟩⟩
  cases Machine.later_still hlater
  cases o with
  | ok =>
    cases hserve
    intro s
    show s ∈ (if streamName subject ∈ w then w else w ++ [streamName subject]) ↔ _
    split
    · rename_i hmem
      exact ⟨.inl, fun h => h.elim id fun h => h ▸ hmem⟩
    · simp
  | refused => cases hserve; trivial
  | lost => cases hserve; trivial

/-- **The streams of a deletion** are among those before it, and only the subjects' are gone. -/
theorem reconcileStreams_delete_spec (state : ManagerState) (mayDelete : String → Prop)
    {roles : List PluginRole} {config : Config}
    (w : List String) (h : config.mode.isCore = false → ∀ subject ∈ temporarySubjects roles config,
      mayDelete (streamName subject)) :
    (server.outside Guard.still).Spec (deleting mayDelete)
      (fun _ w' => (∀ s ∈ w', s ∈ w) ∧ ∀ s ∈ w, (config.mode.isCore = false →
        ∀ subject ∈ temporarySubjects roles config, s ≠ streamName subject) → s ∈ w')
      (fun _ _ => True) (reconcileStreams state roles config false) w := by
  unfold reconcileStreams
  split
  · exact ⟨fun _ h => h, fun _ h _ => h⟩
  · rename_i hmode
    have hstreams : config.mode.isCore = false := by simpa using hmode
    refine (connect_spec (fun _ => trivial) (fun _ _ => trivial) _ w).bind fun _ w₁ hw₁ => ?_
    subst hw₁
    refine (Outside.Spec.forEachDone (E := fun _ _ => True) (P := fun done w' =>
      (∀ s ∈ w', s ∈ w₁) ∧ ∀ s ∈ w₁, (∀ subject ∈ done, s ≠ streamName subject) → s ∈ w')
      ⟨fun _ h => h, fun _ h _ => h⟩ ?_).mono (fun _ w' hw' => ⟨hw'.1, fun s hs hne =>
        hw'.2 s hs (hne hstreams)⟩) fun _ _ _ => trivial
    intro done subject hsubject w₂ hw₂
    refine (deleteStreamName_spec (h hstreams subject hsubject) w₂).mono (fun _ w₃ hw₃ => ?_)
      fun _ _ _ => trivial
    refine ⟨fun s hs => hw₂.1 s (hw₃.1 s hs), fun s hs hne => ?_⟩
    exact hw₃.2 s (hw₂.2 s hs fun other hother => hne other (by simp [hother]))
      (hne subject (by simp))

/-- **The streams of a preparation** are those before it and the subjects'. -/
theorem reconcileStreams_create_spec (state : ManagerState) (mayDelete : String → Prop)
    {roles : List PluginRole} {config : Config} (w : List String) :
    (server.outside Guard.still).Spec (deleting mayDelete)
      (fun _ w' => ∀ s, s ∈ w' ↔ s ∈ w ∨ config.mode.isCore = false ∧
        ∃ subject ∈ managedSubjects roles config, s = streamName subject)
      (fun _ _ => True) (reconcileStreams state roles config true) w := by
  unfold reconcileStreams
  split
  · rename_i hmode
    exact fun s => by simp [hmode]
  · rename_i hmode
    refine (connect_spec (fun _ => trivial) (fun _ _ => trivial) _ w).bind fun _ w₁ hw₁ => ?_
    subst hw₁
    refine (Outside.Spec.forEachDone (E := fun _ _ => True) (P := fun done w' =>
      ∀ s, s ∈ w' ↔ s ∈ w₁ ∨ ∃ subject ∈ done, s = streamName subject) (by simp) ?_).mono
        (fun _ w' hw' => by simpa [hmode] using hw') fun _ _ _ => trivial
    intro done subject _ w₂ hw₂
    refine (ensureSubjectStream_spec subject config.stream w₂).mono (fun _ w₃ hw₃ => ?_)
      fun _ _ _ => trivial
    intro s
    rw [hw₃ s, hw₂ s]
    simp only [List.mem_append, List.mem_singleton]
    constructor
    · rintro ((h | ⟨other, hother, rfl⟩) | rfl)
      · exact .inl h
      · exact .inr ⟨other, .inl hother, rfl⟩
      · exact .inr ⟨subject, .inr rfl, rfl⟩
    · rintro (h | ⟨other, hother | rfl, rfl⟩)
      · exact .inl (.inl h)
      · exact .inl (.inr ⟨other, hother, rfl⟩)
      · exact .inr rfl

theorem completes_reconcileStreams (state : ManagerState) (roles : List PluginRole)
    (config : Config) (create : Bool) :
    server.Completes .ok (reconcileStreams state roles config create) := by
  unfold reconcileStreams
  split
  · exact .pure ()
  · refine (completes_connect _).bind fun _ => ?_
    split
    · exact .forEach fun subject _ => completes_ensureSubjectStream _ _
    · exact .forEach fun subject _ => completes_deleteStreamName _

/-- The sweep deletes no stream but those that it may. -/
theorem sweep_spec {w : List String} (h : ∀ stream ∈ w, Swept req stream → mayDelete stream) :
    (server.outside Guard.still).Spec (deleting mayDelete) (fun _ _ => True) (fun _ _ => True)
      (garbageCollectTempStreams state req.activeInceptions) w := by
  refine (connect_spec (fun _ => trivial) (fun _ _ => trivial) _ w).bind fun _ w₁ hw₁ => ?_
  subst hw₁
  refine Outside.Spec.bind (R := fun streams _ => ∀ stream ∈ streams, Swept req stream →
    mayDelete stream) ?_ ?_
  · refine ⟨trivial, fun a w' ⟨o, _, hserve⟩ => ⟨trivial, fun w'' _ _ => ?_⟩⟩
    cases o with
    | ok => cases hserve; exact h
    | refused => cases hserve; trivial
    | lost => cases hserve; trivial
  · intro streams w' hstreams
    refine Outside.Spec.forEach (P := fun _ => True) trivial fun stream hstream w'' _ => ?_
    split
    · rename_i hswept
      exact (deleteStreamName_spec (hstreams stream hstream ⟨hswept.1, hswept.2⟩) w'').mono
        (fun _ _ _ => trivial) fun _ _ _ => trivial
    · trivial

/-- The sweep does delete every stream it takes for a leftover. -/
theorem mem_trace_sweep {w : List String} {stream : String} (hstream : stream ∈ w)
    (hswept : Swept req stream) :
    StreamCall.deleteStream stream ∈ server.trace .ok
      (garbageCollectTempStreams state req.activeInceptions) w := by
  have hconnect : server.eval .ok (connect state.natsUrl) w = some (.ok (), w) := rfl
  refine Machine.mem_trace_bind_right hconnect ?_
  have hlist : server.eval .ok (ManagerOp.ask (Prog.ask StreamCall.streamNames)) w =
      some (.ok w, w) := rfl
  refine Machine.mem_trace_bind_right hlist ?_
  refine Machine.mem_trace_forEach (x := stream) (fun other _ => ?_) hstream fun w' => ?_
  · split
    · exact completes_deleteStreamName other
    · exact .pure ()
  · rw [if_pos ⟨hswept.1, hswept.2⟩]
    exact List.mem_cons_self

end Parts

/-! ## The subjects of a request -/

section Subjects

variable {claims : PluginAuthClaims} {req : PluginManagerLifecycleRequest} {subject : String}

/-- The subjects whose streams `cleanup` deletes. -/
theorem mem_temporarySubjects :
    ((securedConfigFromClaims claims req).2.mode.isCore = false ∧
      subject ∈ temporarySubjects (parseRoles req.roles) (securedConfigFromClaims claims req).2) ↔
    UsesStreams claims.inceptionId req.config ∧ ∃ role ∈ subjectRoles,
      hasRole (parseRoles req.roles) role ∧
      subject ∈ (tempPlaces role).inConfig (rewriteTempSubjects claims.inceptionId req.config) := by
  unfold UsesStreams securedConfigFromClaims temporarySubjects
  simp only [List.mem_flatMap, List.mem_filter]
  cases hread : Config.decode (rewriteTempSubjects claims.inceptionId req.config) with
  | none =>
    -- the default configuration has no block, and hence no subject
    simp only [Option.getD_none, Config.empty, reduceCtorEq, false_and, exists_false, iff_false]
    rintro ⟨_, role, _, hsubject⟩
    cases role <;> simp [Config.tempSubjects] at hsubject
  | some config =>
    simp only [Option.getD_some, Option.some.injEq, Config.tempSubjects_of_decode hread]
    constructor
    · rintro ⟨hmode, role, ⟨hrole, hhas⟩, hsubject⟩
      exact ⟨⟨config, rfl, hmode⟩, role, hrole, hhas, hsubject⟩
    · rintro ⟨⟨_, rfl, hmode⟩, role, hrole, hhas, hsubject⟩
      exact ⟨hmode, role, ⟨hrole, hhas⟩, hsubject⟩

/-- The subjects whose streams `prepare` creates. -/
theorem mem_managedSubjects :
    ((securedConfigFromClaims claims req).2.mode.isCore = false ∧
      subject ∈ managedSubjects (parseRoles req.roles) (securedConfigFromClaims claims req).2) ↔
    UsesStreams claims.inceptionId req.config ∧ ∃ role ∈ subjectRoles,
      hasRole (parseRoles req.roles) role ∧
      subject ∈ (basePlaces role).inConfig (rewriteTempSubjects claims.inceptionId req.config) ++
        (tempPlaces role).inConfig (rewriteTempSubjects claims.inceptionId req.config) := by
  unfold UsesStreams securedConfigFromClaims managedSubjects
  simp only [List.mem_flatMap, List.mem_filter]
  cases hread : Config.decode (rewriteTempSubjects claims.inceptionId req.config) with
  | none =>
    simp only [Option.getD_none, Config.empty, reduceCtorEq, false_and, exists_false, iff_false]
    rintro ⟨_, role, _, hsubject⟩
    cases role <;> simp [Config.tempSubjects, Config.baseSubject] at hsubject
  | some config =>
    simp only [Option.getD_some, Option.some.injEq, Config.tempSubjects_of_decode hread,
      Config.baseSubject_of_decode hread]
    constructor
    · rintro ⟨hmode, role, ⟨hrole, hhas⟩, hsubject⟩
      exact ⟨⟨config, rfl, hmode⟩, role, hrole, hhas, hsubject⟩
    · rintro ⟨⟨_, rfl, hmode⟩, role, hrole, hhas, hsubject⟩
      exact ⟨hmode, role, ⟨hrole, hhas⟩, hsubject⟩

end Subjects

/-! ## The theorem -/

variable {state : ManagerState}

/-- **A request deletes only streams of its own** exactly when it brings nothing along that the
manager takes for one, or when `prepare` refuses its roles. -/
theorem request_deletes_own_streams (kind : LifecycleRequest) (header : Option String)
    (req : PluginManagerLifecycleRequest) (claims : PluginAuthClaims) (others : List String)
    (streams : List String) (haccepts : Accepts state header req claims) :
    (server.outside Guard.still).Spec (deleting (OwnStream claims.inceptionId others))
      (fun _ _ => True) (fun _ _ => True) (handle state kind header req) streams ↔
    ((kind = .prepare → checkRoles (parseRoles req.roles) = .ok ()) →
      BringsNothing kind claims.inceptionId others req streams) := by
  cases kind with
  | cleanup =>
    rw [handle_cleanup haccepts]
    constructor
    · intro hspec _
      obtain ⟨_, w₁, hw₁⟩ := completes_reconcileStreams state (parseRoles req.roles)
        (securedConfigFromClaims claims req).2 false streams
      have hmay : ∀ stream, StreamCall.deleteStream stream ∈ server.trace .ok
          ((reconcileStreams state (parseRoles req.roles) (securedConfigFromClaims claims req).2
            false).bind fun _ => garbageCollectTempStreams state req.activeInceptions) streams →
          OwnStream claims.inceptionId others stream := by
        intro stream hmem
        obtain ⟨_, hmay⟩ := Machine.may_of_mem_trace (fun _ _ => trivial) hspec hmem
        exact hmay
      have hown : UsesStreams claims.inceptionId req.config → ∀ role ∈ subjectRoles,
          hasRole (parseRoles req.roles) role → ∀ subject ∈ (tempPlaces role).inConfig
            (rewriteTempSubjects claims.inceptionId req.config),
          OwnStream claims.inceptionId others (streamName subject) := by
        intro huses role hrole hhas subject hsubject
        obtain ⟨hmode, hmem⟩ := mem_temporarySubjects.mpr ⟨huses, role, hrole, hhas, hsubject⟩
        refine hmay _ (Machine.mem_trace_bind_left ?_)
        rw [reconcileStreams, if_neg (by simp [hmode])]
        have hconnect : server.eval .ok (connect state.natsUrl) streams =
          some (.ok (), streams) := rfl
        exact Machine.mem_trace_bind_right hconnect (Machine.mem_trace_forEach
          (fun other _ => completes_deleteStreamName _) hmem fun _ => List.mem_cons_self)
      refine ⟨fun _ huses role hrole hhas subject hsubject => ?_,
        fun _ huses role hrole hhas subject hsubject =>
          (hown huses role hrole hhas subject hsubject).2,
        fun stream hstream hswept => ?_, fun h => by simp at h⟩
      · exact (hown huses role hrole hhas subject (NamePlaces.mem_inConfig_of_supplied hsubject)).1
      · -- a stream is gone after the first part, or the sweep finds it
        by_cases hgone : (securedConfigFromClaims claims req).2.mode.isCore = false ∧
            ∃ subject ∈ temporarySubjects (parseRoles req.roles)
              (securedConfigFromClaims claims req).2, stream = streamName subject
        · obtain ⟨hmode, subject, hsubject, rfl⟩ := hgone
          obtain ⟨huses, role, hrole, hhas, hmem⟩ := mem_temporarySubjects.mp ⟨hmode, hsubject⟩
          exact hown huses role hrole hhas subject hmem
        · have hstays := Machine.eval_spec (fun _ _ => trivial)
            (reconcileStreams_delete_spec state (fun _ => True) streams fun _ _ _ => trivial) hw₁
          refine hmay _ (Machine.mem_trace_bind_right hw₁ (mem_trace_sweep
            (hstays.2 stream hstream fun hmode subject hsubject heq => ?_) hswept))
          exact hgone ⟨hmode, subject, hsubject, heq⟩
    · intro h
      have hcovers := h (by simp)
      refine (reconcileStreams_delete_spec _ _ streams fun hmode subject hsubject => ?_).bind
        fun _ w₁ hw₁ => sweep_spec fun stream hstream hswept =>
          hcovers.existing stream (hw₁.1 stream hstream) hswept
      obtain ⟨huses, role, hrole, hhas, hmem⟩ := mem_temporarySubjects.mp ⟨hmode, hsubject⟩
      refine ⟨?_, hcovers.apart rfl huses role hrole hhas subject hmem⟩
      rcases NamePlaces.mem_inConfig (tempPlaces_rewritten role) hmem with hsupplied | hderived
      · exact hcovers.supplied rfl huses role hrole hhas subject hsupplied
      · exact ⟨subject, hderived, rfl⟩
  | prepare =>
    rw [handle_prepare haccepts]
    constructor
    · intro hspec hroles
      rw [hroles rfl, Prog.ofExcept, Prog.pure_bind] at hspec
      obtain ⟨_, w₁, hw₁⟩ := completes_reconcileStreams state (parseRoles req.roles)
        (securedConfigFromClaims claims req).2 true streams
      have hstreams := Machine.eval_spec (fun _ _ => trivial)
        (reconcileStreams_create_spec state
        (fun _ => True) streams) hw₁
      have hmay : ∀ stream ∈ w₁, Swept req stream →
          OwnStream claims.inceptionId others stream := by
        intro stream hstream hswept
        obtain ⟨_, hmay⟩ := Machine.may_of_mem_trace (fun _ _ => trivial) hspec
          (Machine.mem_trace_bind_right hw₁ (mem_trace_sweep hstream hswept))
        exact hmay
      refine ⟨fun h => by simp at h, fun h => by simp at h, fun stream hstream hswept => ?_,
        fun _ huses role hrole hhas subject hsubject hswept => ?_⟩
      · exact hmay stream ((hstreams stream).mpr (.inl hstream)) hswept
      · obtain ⟨hmode, hmem⟩ := mem_managedSubjects.mpr ⟨huses, role, hrole, hhas, hsubject⟩
        exact hmay _ ((hstreams _).mpr (.inr ⟨hmode, subject, hmem, rfl⟩)) hswept
    · intro h
      refine Outside.Spec.ofExcept_bind (fun _ _ => trivial) fun _ hroles => ?_
      have hcovers := h fun _ => hroles
      refine (reconcileStreams_create_spec _ _ streams).bind fun _ w₁ hw₁ => sweep_spec
        fun stream hstream hswept => ?_
      rcases (hw₁ stream).mp hstream with hstream | ⟨hmode, subject, hsubject, rfl⟩
      · exact hcovers.existing stream hstream hswept
      · obtain ⟨huses, role, hrole, hhas, hmem⟩ := mem_managedSubjects.mp ⟨hmode, hsubject⟩
        exact hcovers.created rfl huses role hrole hhas subject hmem hswept

/-! ### A manager with two tenants -/

section Sample

open Sample

def sampleState : ManagerState where
  crates := managerCrates
  signingKey := "signing-key"
  natsUrl := "nats://broker"
  inceptorUrl := "nats://broker"

/-- A duplicator of the subject `orders`. -/
def duplicatorConfig : Json :=
  .obj [("duplicator", .obj [("inputSubject", .str "orders"),
    ("greenInputSubject", .str ""), ("blueInputSubject", .str "")])]

/-- The streams of both inceptions, and one of an application. -/
def sampleStreams : List String :=
  [streamName (otherClaims.inceptionId.tempName "duplicator" "green-input" none),
    streamName (otherClaims.inceptionId.tempName "duplicator" "blue-input" none),
    streamName (ordersClaims.inceptionId.tempName "duplicator" "green-input" none),
    streamName "payments"]

/-- A request with both inceptions in its inventory. -/
def sampleRequest : PluginManagerLifecycleRequest :=
  request ["duplicator"] duplicatorConfig [active ordersClaims ["duplicator"] duplicatorConfig,
    active otherClaims ["duplicator"] duplicatorConfig]

/-- The streams of an inception that duplicates `orders`. -/
def duplicatorStreams (claims : PluginAuthClaims) : List String :=
  [streamName (claims.inceptionId.tempName "duplicator" "green-input" none),
    streamName (claims.inceptionId.tempName "duplicator" "blue-input" none)]

theorem activeStreamNames_duplicator (claims : PluginAuthClaims) :
    activeStreamNames [active claims ["duplicator"] duplicatorConfig] =
      duplicatorStreams claims := rfl

/-- The rewritten configuration names its base subject and the two derived ones. -/
theorem placesInDuplicator (claims : PluginAuthClaims) :
    ∀ role ∈ subjectRoles, ∀ subject ∈
      (basePlaces role).inConfig (rewriteTempSubjects claims.inceptionId duplicatorConfig) ++
        (tempPlaces role).inConfig (rewriteTempSubjects claims.inceptionId duplicatorConfig),
      subject = "orders" ∨ streamName subject ∈ duplicatorStreams claims := by
  intro role hrole subject hsubject
  have hplaces : (basePlaces .duplicator).inConfig
        (rewriteTempSubjects claims.inceptionId duplicatorConfig) ++
      (tempPlaces .duplicator).inConfig
        (rewriteTempSubjects claims.inceptionId duplicatorConfig) =
      ["orders", claims.inceptionId.tempName "duplicator" "green-input" none,
        claims.inceptionId.tempName "duplicator" "blue-input" none] := rfl
  have hnone : ∀ role ∈ subjectRoles, role ≠ .duplicator →
      (basePlaces role).inConfig (rewriteTempSubjects claims.inceptionId duplicatorConfig) ++
        (tempPlaces role).inConfig (rewriteTempSubjects claims.inceptionId duplicatorConfig) =
          [] := by
    intro role hrole hne
    cases role with
    | duplicator => exact absurd rfl hne
    | _ => rfl
  by_cases hrole' : role = .duplicator
  · subst hrole'
    rw [hplaces] at hsubject
    simp only [List.mem_cons, List.not_mem_nil, or_false] at hsubject
    rcases hsubject with rfl | rfl | rfl
    · exact .inl rfl
    · exact .inr (by simp [duplicatorStreams])
    · exact .inr (by simp [duplicatorStreams])
  · rw [hnone role hrole hrole'] at hsubject
    cases hsubject

/-- It leaves the streams of both alone. -/
theorem request_deletes_own_streams_listed :
    (server.outside Guard.still).Spec
      (deleting (OwnStream ordersClaims.inceptionId [streamName "payments"]))
      (fun _ _ => True) (fun _ _ => True)
      (handle sampleState .prepare (some "Bearer orders") sampleRequest) sampleStreams := by
  have hactive : activeStreamNames sampleRequest.activeInceptions =
      duplicatorStreams ordersClaims ++ duplicatorStreams otherClaims := by
    rw [← activeStreamNames_duplicator, ← activeStreamNames_duplicator]
    rfl
  have hkept {stream : String} (h : stream ∈ duplicatorStreams ordersClaims ++
      duplicatorStreams otherClaims) : ¬ Swept sampleRequest stream := by
    intro hswept
    rw [Swept, hactive] at hswept
    exact hswept.2 h
  have hforeign {subject : String}
      (h : ¬ "fbg_fluidbg".toList.isPrefixOf (streamName subject).toList) :
      ¬ Swept sampleRequest (streamName subject) := fun hswept => h hswept.1
  have hexisting : ∀ stream ∈ sampleStreams, ¬ Swept sampleRequest stream := by
    intro stream hstream
    simp only [sampleStreams, List.mem_cons, List.not_mem_nil, or_false] at hstream
    rcases hstream with rfl | rfl | rfl | rfl
    · exact hkept (by simp [duplicatorStreams])
    · exact hkept (by simp [duplicatorStreams])
    · exact hkept (by simp [duplicatorStreams])
    · exact hforeign (by decide +kernel)
  have hcreated : ∀ role ∈ subjectRoles,
      ∀ subject ∈ (basePlaces role).inConfig (rewriteTempSubjects ordersClaims.inceptionId
          sampleRequest.config) ++ (tempPlaces role).inConfig (rewriteTempSubjects
            ordersClaims.inceptionId sampleRequest.config),
        ¬ Swept sampleRequest (streamName subject) := by
    intro role hrole subject hsubject
    have hplaces := placesInDuplicator ordersClaims role hrole subject hsubject
    rcases hplaces with rfl | hplaces
    · exact hforeign (by decide +kernel)
    · exact hkept (List.mem_append_left _ hplaces)
  refine (request_deletes_own_streams .prepare _ _ ordersClaims _ _ ⟨by rfl, by decide +kernel⟩).mpr
    fun _ => ⟨fun h => by simp at h, fun h => by simp at h, fun stream hstream hswept => ?_,
      fun _ _ role hrole _ subject hsubject hswept => ?_⟩
  · exact absurd hswept (hexisting stream hstream)
  · exact absurd hswept (hcreated role hrole subject hsubject)

theorem streamName_of_derived {id : InceptionId} {subject : String} (h : id.Derived subject) :
    "fbg_fluidbg-".toList.isPrefixOf (streamName subject).toList := by
  have hstarts := h.starts
  rw [List.isPrefixOf_iff_prefix] at hstarts ⊢
  obtain ⟨rest, hrest⟩ := hstarts
  have hhint : ∃ more, (subject.toList.filter fun c => c.isAlphanum || c = '-' || c = '_').take 24 =
      "fluidbg-".toList ++ more := by
    have hkept : ("fluidbg-".toList.filter fun c => c.isAlphanum || c = '-' || c = '_') =
        "fluidbg-".toList := by decide
    rw [← hrest, List.filter_append, List.take_append, hkept, List.take_of_length_le (by decide)]
    exact ⟨_, rfl⟩
  obtain ⟨more, hmore⟩ := hhint
  simp only [streamName, hmore, toString, String.toList_append, String.toList_ofList,
    List.append_assoc]
  exact ⟨_, rfl⟩

/-- A block in the shape of an array, and an inventory without anybody else. -/
theorem streams_of_others_are_deleted :
    Accepts sampleState (some "Bearer orders") (request ["duplicator"] (.obj [("duplicator",
      .arr [.str "orders", .null, .str "payments", .null, .null, .null, .null, .null, .null, .null,
        .null])]) []) ordersClaims ∧
    (server.eval .ok (handle sampleState .cleanup (some "Bearer orders") (request ["duplicator"]
      (.obj [("duplicator", .arr [.str "orders", .null, .str "payments", .null, .null, .null, .null,
        .null, .null, .null, .null])]) [])) sampleStreams).map (·.2) = some [] ∧
    ¬ ∃ subject, ordersClaims.inceptionId.Derived subject ∧
      streamName "payments" = streamName subject := by
  refine ⟨⟨by rfl, by decide +kernel⟩, by decide +kernel, ?_⟩
  rintro ⟨subject, hderived, heq⟩
  have hstarts := streamName_of_derived hderived
  rw [← heq] at hstarts
  exact absurd hstarts (by decide +kernel)

end Sample

end FluidBG.Nats
