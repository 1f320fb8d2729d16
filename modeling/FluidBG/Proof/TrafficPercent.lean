import FluidBG.Lib.Runs
import FluidBG.Proof.Criteria
import FluidBG.Proof.Footprint
import FluidBG.Sample
/-!
# The traffic percentage that is delivered

A percentage leaves the operator twice: to every splitter, in the byte of a traffic request, and to
the status. The byte wraps and the plugins cut it off at a hundred; the status keeps it as it is.
-/

set_option autoImplicit false

namespace FluidBG

open Lib

/-- `set_traffic_percent` of a plugin: what it keeps of the byte it is sent. -/
def setTrafficPercent (percent : Nat) : Nat := min percent 100

/-- The URL of the traffic requests to a splitter. -/
def trafficUrl (plugin : InceptionPlugin) (ns blueGreenRef inceptionPoint : String) : String :=
  inceptorUrl plugin ns blueGreenRef inceptionPoint
    ((plugin.spec.lifecycle.bind (·.trafficShiftPath)).getD "/traffic")

/-- The run writes this percentage into the status. -/
def Records (bgd : BlueGreenDeployment) (ns : String) (trace : List (Prog.Event Answer))
    (percent : Int) : Prop :=
  ∃ step a, (⟨.patchStatus ns bgd.metadata.name (.progress step percent), a⟩ :
    Prog.Event Answer) ∈ trace

/-- **The recorded percentage is the delivered one**: it is a percentage, every splitter has
accepted a traffic request before it was written, and whichever request was sent left that value in
the plugin. -/
structure Delivers (bgd : BlueGreenDeployment) (ns : String) (trace : List (Prog.Event Answer)) :
    Prop where
  bounded : ∀ percent, Records bgd ns trace percent → 0 ≤ percent ∧ percent ≤ 100
  reached : ∀ percent, Records bgd ns trace percent →
    ∀ ip ∈ bgd.spec.inceptionPoints.filter isSplitter, ∃ plugin bearer byte,
      (⟨.getPlugin ip.pluginRef.name, .ok plugin⟩ : Prog.Event Answer) ∈ trace ∧
      (⟨.postTraffic (trafficUrl plugin ns bgd.metadata.name ip.name) bearer byte, .ok ()⟩ :
        Prog.Event Answer) ∈ trace
  stored : ∀ percent, Records bgd ns trace percent → ∀ url bearer byte a,
    (⟨.postTraffic url bearer byte, a⟩ : Prog.Event Answer) ∈ trace →
      (setTrafficPercent byte : Int) = percent

/-! ## The requests to the splitters -/

section Requests

variable {ctx : Ctx} {bgd : BlueGreenDeployment} {ns : String} {percent : Int}

/-- A call that sends the byte of this percentage, or none, and writes no progress. -/
def TrafficCall (percent : Int) : Call → Prop
  | .postTraffic _ _ byte => byte = asU8 percent
  | .patchStatus _ _ _ => False
  | _ => True

theorem TrafficCall.of_reads {c : Call} (h : c.Reads) : TrafficCall percent c := by
  cases c <;> trivial

theorem applySplitterTrafficPercent_calls (ctx : Ctx) (bgd : BlueGreenDeployment) (ns : String)
    (percent : Int) :
    (applySplitterTrafficPercent ctx bgd ns percent).Calls (TrafficCall percent) := by
  refine .forEach fun ip _ => askKube_calls trivial fun plugin => ?_
  refine ((Op.Reads.controlPlaneClient _).mono fun _ => TrafficCall.of_reads).bind fun _ => ?_
  refine ((Op.Reads.signInceptionAuthToken ..).mono fun _ => TrafficCall.of_reads).bind
    fun token => ?_
  exact withRetries_calls (ask_calls rfl) trivial

/-- A request that ended well was answered. -/
theorem posted_of_retry {url bearer : String} {byte : Nat} {failed : String → ReconcileError}
    {n i : Nat} {trace : List (Prog.Event Answer)}
    (h : (Prog.retry.go (fun i => (Op.ask (.postTraffic url bearer byte)).bind
      (httpTry (i + 1 = 10) failed failed id)) (.pure ()) n i).Run trace (.ok ()))
    (hlast : i + n = 10) (hn : 0 < n) :
    (⟨.postTraffic url bearer byte, .ok ()⟩ : Prog.Event Answer) ∈ trace := by
  induction n generalizing i trace with
  | zero => exact absurd hn (Nat.lt_irrefl 0)
  | succ n ih =>
    rw [Prog.retry.go] at h
    cases h with
    | call _ _ answer rest _ hrest =>
      cases answer with
      | ok value => exact List.mem_cons_self
      | statusError text => cases hrest
      | decodeError text => cases hrest
      | sendError text =>
        simp only [Prog.pure_bind, httpTry] at hrest
        by_cases hend : i + 1 = 10
        · rw [if_pos (by simpa using hend)] at hrest
          cases hrest
        · rw [if_neg (by simpa using hend)] at hrest
          cases hrest with
          | call _ _ _ rest _ hrest =>
            exact List.mem_cons_of_mem _ (List.mem_cons_of_mem _ (ih hrest (by omega) (by omega)))

/-- A turn of the loop over the splitters that came to its end. -/
theorem posted_of_turn {ip : InceptionPoint} {trace : List (Prog.Event Answer)}
    (h : Prog.Run (Prog.bind (Op.ask (.getPlugin ip.pluginRef.name)) fun r =>
      Prog.bind (Op.kube r) fun plugin =>
        invokeInceptorTrafficShift ctx bgd.metadata.name ns ip.name plugin (asU8 percent))
      trace (.ok ())) :
    ∃ plugin bearer byte,
      (⟨.getPlugin ip.pluginRef.name, .ok plugin⟩ : Prog.Event Answer) ∈ trace ∧
      (⟨.postTraffic (trafficUrl plugin ns bgd.metadata.name ip.name) bearer byte, .ok ()⟩ :
        Prog.Event Answer) ∈ trace := by
  cases h with
  | call _ _ answer rest _ hrest =>
    cases answer with
    | error e => cases hrest
    | ok plugin =>
      refine ⟨plugin, ?_⟩
      have hrun : (invokeInceptorTrafficShift ctx bgd.metadata.name ns ip.name plugin
        (asU8 percent)).Run rest (.ok ()) := hrest
      rcases Prog.Run.of_bind hrun with ⟨e, -, he⟩ | ⟨_, connected, rest, -, hafter, rfl⟩
      · cases he
      · rcases Prog.Run.of_bind hafter with ⟨e, -, he⟩ | ⟨token, signed, posted, -, hposted, rfl⟩
        · cases he
        · refine ⟨bearerValue token, asU8 percent, List.mem_cons_self, ?_⟩
          have hmem := posted_of_retry hposted (by omega) (by omega)
          exact List.mem_cons_of_mem _ (List.mem_append_right _ (List.mem_append_right _ hmem))

/-- The byte is the percentage, where there is one. -/
theorem setTrafficPercent_asU8 (h : 0 ≤ percent ∧ percent ≤ 100) :
    (setTrafficPercent (asU8 percent) : Int) = percent := by
  unfold setTrafficPercent asU8
  omega

end Requests

/-! ## A percentage that is sent and recorded -/

section Recorded

variable {ctx : Ctx} {bgd : BlueGreenDeployment} {ns : String} {step percent : Int}

/-- The two callers send a percentage first and record it then. -/
def sendAndRecord (ctx : Ctx) (bgd : BlueGreenDeployment) (ns : String) (step percent : Int) :
    Op Unit := do
  applySplitterTrafficPercent ctx bgd ns percent
  updateStatusProgress bgd ns step percent

theorem not_patch_of_apply {trace : List (Prog.Event Answer)} {r : Except ReconcileError Unit}
    (h : (applySplitterTrafficPercent ctx bgd ns percent).Run trace r) {name : String}
    {patch : StatusPatch} {a : Answer (.patchStatus ns name patch)} :
    (⟨.patchStatus ns name patch, a⟩ : Prog.Event Answer) ∉ trace := by
  intro hmem
  exact h.calls (applySplitterTrafficPercent_calls ctx bgd ns percent) _ hmem

/-- What is written is what was sent. -/
theorem recorded_of_run {trace : List (Prog.Event Answer)} {r : Except ReconcileError Unit}
    (h : (sendAndRecord ctx bgd ns step percent).Run trace r) {recorded : Int}
    (hrecords : Records bgd ns trace recorded) : recorded = percent ∧ ∃ sent a,
      (applySplitterTrafficPercent ctx bgd ns percent).Run sent (.ok ()) ∧
      trace = sent ++ [⟨.patchStatus ns bgd.metadata.name (.progress step percent), a⟩] := by
  obtain ⟨s, a, hmem⟩ := hrecords
  rcases Prog.Run.of_bind h with ⟨e, hsent, -⟩ | ⟨_, sent, rest, hsent, hrest, rfl⟩
  · exact absurd hmem (not_patch_of_apply hsent)
  · cases hrest with
    | call _ _ b tail _ htail =>
      cases htail
      refine ⟨?_, sent, b, hsent, rfl⟩
      rcases List.mem_append.mp hmem with hmem | hmem
      · exact absurd hmem (not_patch_of_apply hsent)
      · cases List.mem_singleton.mp hmem
        rfl

theorem delivers_of_run (hpercent : 0 ≤ percent ∧ percent ≤ 100)
    {trace : List (Prog.Event Answer)} {r : Except ReconcileError Unit}
    (h : (sendAndRecord ctx bgd ns step percent).Run trace r) : Delivers bgd ns trace where
  bounded recorded hrecords := by
    rw [(recorded_of_run h hrecords).1]
    exact hpercent
  reached recorded hrecords ip hip := by
    obtain ⟨-, sent, a, hsent, rfl⟩ := recorded_of_run h hrecords
    obtain ⟨turn, hturn, hmem⟩ := hsent.of_forEach ip hip
    obtain ⟨plugin, bearer, byte, hplugin, hposted⟩ := posted_of_turn hturn
    exact ⟨plugin, bearer, byte, List.mem_append_left _ (hmem _ hplugin),
      List.mem_append_left _ (hmem _ hposted)⟩
  stored recorded hrecords url bearer byte a hposted := by
    obtain ⟨rfl, sent, b, hsent, rfl⟩ := recorded_of_run h hrecords
    rcases List.mem_append.mp hposted with hposted | hposted
    · have hbyte : byte = asU8 recorded :=
        hsent.calls (applySplitterTrafficPercent_calls ctx bgd ns recorded) _ hposted
      rw [hbyte]
      exact setTrafficPercent_asU8 hpercent
    · cases List.mem_singleton.mp hposted

/-- Tokens can be signed. -/
def Signs (ctx : Ctx) : Prop := ∀ claims key, ∃ token, ctx.crates.signToken claims key = .ok token

/-- Some run signs a token: the Secret is there, and the object has its uid. -/
theorem exists_signing (ctx : Ctx) {blueGreenRef point token : String} {plugin : InceptionPlugin}
    (htoken : ctx.crates.signToken
      (PluginAuthClaims.newWithUid ns blueGreenRef "uid" point plugin.name) "key" = .ok token) :
    ∃ trace, (signInceptionAuthToken ctx ns blueGreenRef point plugin).Run trace (.ok token) := by
  let secret : Resource :=
    { Sample.signingSecret with data := .ofList [(ctx.auth.signingSecretKey, "key")] }
  let stored : BlueGreenDeployment :=
    { Sample.bgd .pending with metadata := { (Sample.bgd .pending).metadata with
        uid := some "uid" } }
  have hget : secret.data.get ctx.auth.signingSecretKey = some "key" :=
    OrdMap.get_ofList_of_mem (by simp) List.mem_cons_self
  have hkey : ∃ trace, (readOperatorSigningKey ctx.auth).Run trace (.ok "key") := by
    refine ⟨_, .call _ _ (.ok secret) [] _ ?_⟩
    simp only [Op.kube, Prog.bind_def, Prog.pure_bind, hget]
    rw [if_pos (by decide)]
    exact .pure "key"
  obtain ⟨read, hread⟩ := hkey
  refine ⟨_, hread.bind (.call _ _ (.ok stored) [] _ ?_)⟩
  simp only [Op.kube, Prog.bind_def, Prog.pure_bind, stored, htoken]
  exact .pure token

/-- Some run records the percentage, whichever it is. -/
theorem exists_recording (hsigns : Signs ctx) (bgd : BlueGreenDeployment) (ns : String)
    (step percent : Int) : ∃ trace, (sendAndRecord ctx bgd ns step percent).Run trace (.ok ()) ∧
      Records bgd ns trace percent := by
  have hturns : ∃ trace,
      (applySplitterTrafficPercent ctx bgd ns percent).Run trace (.ok ()) := by
    refine Prog.Run.forEach fun ip _ => ?_
    obtain ⟨token, htoken⟩ := hsigns (PluginAuthClaims.newWithUid ns bgd.metadata.name "uid" ip.name
      Sample.plugin.name) "key"
    obtain ⟨signed, hsigned⟩ := exists_signing ctx htoken
    have hconnected : ∀ tls, (controlPlaneClient tls).Run [⟨.controlPlaneClient tls, .ok ()⟩]
        (.ok ()) := by
      intro tls
      refine @Prog.Run.call Call Answer _ _ (.controlPlaneClient tls) _ (.ok ()) [] _ ?_
      exact .pure ()
    have hposted : ∀ url failed, (withRetries 10
        (Op.ask (.postTraffic url (bearerValue token) (asU8 percent))) failed failed id ()).Run
          [⟨.postTraffic url (bearerValue token) (asU8 percent), .ok ()⟩] (.ok ()) :=
      by
        intro url failed
        refine @Prog.Run.call Call Answer _ _ (.postTraffic url _ _) _ (.ok ()) [] _ ?_
        exact .pure ()
    have hshifted : ∃ trace, (invokeInceptorTrafficShift ctx bgd.metadata.name ns ip.name
        Sample.plugin (asU8 percent)).Run trace (.ok ()) :=
      ⟨_, (hconnected _).bind (hsigned.bind (hposted _ _))⟩
    obtain ⟨shifted, hshifted⟩ := hshifted
    refine ⟨_, .call _ _ (.ok Sample.plugin) shifted _ ?_⟩
    exact hshifted
  obtain ⟨sent, hsent⟩ := hturns
  refine ⟨_, hsent.bind (.call _ _ (.ok ()) [] _ (.pure ())), step, .ok (), ?_⟩
  exact List.mem_append_right _ List.mem_cons_self

/-- **One percentage**: the runs that send and record it deliver it exactly where it is one. -/
theorem delivers_iff (hsigns : Signs ctx) (bgd : BlueGreenDeployment) (ns : String)
    (step percent : Int) :
    (∀ trace r, (sendAndRecord ctx bgd ns step percent).Run trace r → Delivers bgd ns trace) ↔
      0 ≤ percent ∧ percent ≤ 100 := by
  constructor
  · intro h
    obtain ⟨trace, hrun, hrecords⟩ := exists_recording hsigns bgd ns step percent
    exact (h trace _ hrun).bounded percent hrecords
  · intro hpercent trace r hrun
    exact delivers_of_run hpercent hrun

end Recorded

/-! ## The percentages of a rollout -/

/-- The rollout sends this percentage: at its start, or when the decision is to climb a step. -/
def SendsPercent (bgd : BlueGreenDeployment) (percent : Int) : Prop :=
  initialSplitterTrafficPercent bgd = some percent ∨
    ∃ dataCounts customCounts step,
      decidePromotionAction bgd dataCounts customCounts bgd.currentStep =
        .ok (.advanceStep step percent)

/-- Every step of the spec has a percentage. -/
def StepsBounded (bgd : BlueGreenDeployment) : Prop :=
  ∀ promotion ∈ bgd.spec.promotion, ∀ progressive ∈ promotion.strategy.progressive,
    ∀ step ∈ progressive.steps, 0 ≤ step.trafficPercent ∧ step.trafficPercent ≤ 100

section Percentages

variable {bgd : BlueGreenDeployment} {percent : Int}

theorem initial_bounded (h : StepsBounded bgd)
    (hpercent : initialSplitterTrafficPercent bgd = some percent) :
    0 ≤ percent ∧ percent ≤ 100 := by
  unfold initialSplitterTrafficPercent at hpercent
  split at hpercent
  · obtain ⟨promotion, hpromotion, hpercent⟩ := Option.bind_eq_some_iff.mp hpercent
    split at hpercent
    · cases hpercent
      omega
    · obtain ⟨progressive, hprogressive, hpercent⟩ := Option.bind_eq_some_iff.mp hpercent
      obtain ⟨step, hstep, rfl⟩ := Option.map_eq_some_iff.mp hpercent
      exact h promotion hpromotion progressive hprogressive step (List.mem_of_head? hstep)
  · cases hpercent

theorem decide_step {s : ProgressiveStrategy} {counts : Counts} {currentStep : Option Int}
    {step : Int} (h : s.decide counts currentStep = .advanceStep step percent) :
    ∃ next ∈ s.steps, next.trafficPercent = percent := by
  unfold ProgressiveStrategy.decide at h
  dsimp only at h
  split at h
  · cases h
  · split at h
    · cases h
    · split at h
      · cases h
      · split at h
        · split at h <;> cases h
        · split at h
          · cases h
          · rename_i next hnext
            have hpercent := (PromotionAction.advanceStep.inj h).2
            exact ⟨next, List.mem_of_getElem? hnext, hpercent⟩

theorem combineActions_advance {data : PromotionAction} {custom : Option PromotionAction}
    {step : Int} (h : combineActions (some data) custom = .ok (.advanceStep step percent)) :
    data = .advanceStep step percent := by
  cases custom with
  | none =>
    cases data with
    | advanceStep s p => simpa [combineActions] using h
    | _ => exact absurd h (by simp [combineActions])
  | some action => cases data <;> cases action <;> exact absurd h (by simp [combineActions])

theorem combineActions_none_advance {custom : Option PromotionAction} {step : Int} :
    combineActions none custom ≠ .ok (.advanceStep step percent) := by
  cases custom with
  | none => simp [combineActions]
  | some action => cases action <;> simp [combineActions]

theorem sendsPercent_bounded (h : StepsBounded bgd) (hsends : SendsPercent bgd percent) :
    0 ≤ percent ∧ percent ≤ 100 := by
  rcases hsends with hinitial | ⟨dataCounts, customCounts, step, hdecide⟩
  · exact initial_bounded h hinitial
  · unfold decidePromotionAction at hdecide
    split at hdecide
    · cases hdecide
    · rename_i promotion hpromotion
      split at hdecide
      · exact absurd hdecide combineActions_none_advance
      · split at hdecide
        · rename_i data _ dataAction hdata
          have haction := combineActions_advance hdecide
          rw [haction] at hdata
          unfold decideDataPromotion at hdata
          split at hdata
          · exact absurd (Except.ok.inj hdata)
              (HardSwitchStrategy.decide_ne_advanceStep _ _ step percent)
          · split at hdata
            · rename_i progressive hprogressive
              obtain ⟨next, hnext, rfl⟩ := decide_step (Except.ok.inj hdata)
              exact h promotion hpromotion progressive hprogressive next hnext
            · cases hdata
        · cases hdecide

end Percentages

theorem initialize_eq_sendAndRecord {bgd : BlueGreenDeployment} {percent : Int}
    (h : initialSplitterTrafficPercent bgd = some percent) (ctx : Ctx) (ns : String) :
    initializeSplitterTraffic ctx bgd ns = sendAndRecord ctx bgd ns 0 percent := by
  unfold initializeSplitterTraffic
  rw [h]
  rfl

/-- Nothing to send, nothing is recorded. -/
theorem delivers_of_none {bgd : BlueGreenDeployment}
    (h : initialSplitterTrafficPercent bgd = none) {ctx : Ctx} {ns : String}
    {trace : List (Prog.Event Answer)} {r : Except ReconcileError Unit}
    (hrun : (initializeSplitterTraffic ctx bgd ns).Run trace r) : Delivers bgd ns trace := by
  have hempty : trace = [] := by
    unfold initializeSplitterTraffic at hrun
    rw [h] at hrun
    cases hrun
    rfl
  have hnone : ∀ percent, ¬ Records bgd ns trace percent := by
    intro percent hrecords
    obtain ⟨step, a, hmem⟩ := hrecords
    rw [hempty] at hmem
    cases hmem
  exact ⟨fun percent h => absurd h (hnone percent), fun percent h => absurd h (hnone percent),
    fun percent h => absurd h (hnone percent)⟩

/-- **The delivered percentage is the recorded one**, in every run of the two places that send it,
exactly where what is sent is a percentage; and it is one where every step of the spec has one. -/
theorem delivered_percent_is_recorded_iff (ctx : Ctx) (bgd : BlueGreenDeployment) (ns : String)
    (hsigns : Signs ctx) :
    (((∀ trace r, (initializeSplitterTraffic ctx bgd ns).Run trace r → Delivers bgd ns trace) ∧
        ∀ dataCounts customCounts step percent,
          decidePromotionAction bgd dataCounts customCounts bgd.currentStep =
            .ok (.advanceStep step percent) →
          ∀ trace r, (performAction ctx bgd ns (.advanceStep step percent)).Run trace r →
            Delivers bgd ns trace) ↔
      ∀ percent, SendsPercent bgd percent → 0 ≤ percent ∧ percent ≤ 100) ∧
    (StepsBounded bgd → ∀ percent, SendsPercent bgd percent → 0 ≤ percent ∧ percent ≤ 100) := by
  refine ⟨⟨fun h percent hsends => ?_, fun h => ⟨fun trace r hrun => ?_, ?_⟩⟩,
    fun h percent hsends => sendsPercent_bounded h hsends⟩
  · rcases hsends with hinitial | ⟨dataCounts, customCounts, step, hdecide⟩
    · have hruns := h.1
      rw [initialize_eq_sendAndRecord hinitial] at hruns
      exact (delivers_iff hsigns bgd ns 0 percent).mp hruns
    · exact (delivers_iff hsigns bgd ns step percent).mp
        (h.2 dataCounts customCounts step percent hdecide)
  · cases hinitial : initialSplitterTrafficPercent bgd with
    | none => exact delivers_of_none hinitial hrun
    | some percent =>
      rw [initialize_eq_sendAndRecord hinitial] at hrun
      exact delivers_of_run (h percent (.inl hinitial)) hrun
  · intro dataCounts customCounts step percent hdecide trace r hrun
    exact delivers_of_run (h percent (.inr ⟨dataCounts, customCounts, step, hdecide⟩)) hrun

namespace Sample

/-- A progressive rollout whose only step asks for this much. -/
def climbingBgd (percent : Int) : BlueGreenDeployment :=
  let bgd := Sample.bgd .pending
  { bgd with spec := { bgd.spec with
      inceptionPoints := [{ Sample.orders with roles := [.splitter] }]
      promotion := bgd.spec.promotion.map fun promotion => { promotion with
        strategy := { promotion.strategy with
          strategyType := .progressive
          progressive := some ⟨[⟨percent, 10, 1⟩], true, none⟩ } } } }

theorem ctx_signs : Signs Sample.ctx := fun _ _ => ⟨_, rfl⟩

end Sample

theorem quarter_is_recorded :
    (((∀ trace r, (initializeSplitterTraffic Sample.ctx (Sample.climbingBgd 25) "shop").Run trace r →
          Delivers (Sample.climbingBgd 25) "shop" trace) ∧
        ∀ dataCounts customCounts step percent,
          decidePromotionAction (Sample.climbingBgd 25) dataCounts customCounts
            (Sample.climbingBgd 25).currentStep = .ok (.advanceStep step percent) →
          ∀ trace r, (performAction Sample.ctx (Sample.climbingBgd 25) "shop"
            (.advanceStep step percent)).Run trace r →
            Delivers (Sample.climbingBgd 25) "shop" trace) ↔
      ∀ percent, SendsPercent (Sample.climbingBgd 25) percent → 0 ≤ percent ∧ percent ≤ 100) ∧
    (StepsBounded (Sample.climbingBgd 25) → ∀ percent, SendsPercent (Sample.climbingBgd 25) percent →
      0 ≤ percent ∧ percent ≤ 100) :=
  delivered_percent_is_recorded_iff Sample.ctx (Sample.climbingBgd 25) "shop" Sample.ctx_signs

/-- A step of three hundred percent is recorded as it is. -/
theorem three_hundred_percent_is_recorded :
    ¬ ∀ (ctx : Ctx) (bgd : BlueGreenDeployment) (ns : String) (trace : List (Prog.Event Answer))
      (r : Except ReconcileError Unit), (initializeSplitterTraffic ctx bgd ns).Run trace r →
        Delivers bgd ns trace := by
  intro h
  have hinitial : initialSplitterTrafficPercent (Sample.climbingBgd 300) = some 300 := rfl
  obtain ⟨trace, hrun, hrecords⟩ := exists_recording Sample.ctx_signs (Sample.climbingBgd 300)
    "shop" 0 300
  rw [← initialize_eq_sendAndRecord hinitial] at hrun
  have hbounded := (h _ _ _ trace _ hrun).bounded 300 hrecords
  omega

end FluidBG
