import FluidBG.Proof.LiveDecisions
import FluidBG.Proof.Evidence
/-!
# Custom cases

A case is counted for the criterion of its mode, and the only place that fixes a mode is the
handler that registers the case. It registers every case for the data criterion, whichever
verification the test configures. So the store never holds a custom case, the custom criterion never
sees one, and a promotion that has such a criterion waits for ever.
-/

set_option autoImplicit false

namespace FluidBG

open Lib

/-- The store holds cases of the data criterion only. -/
def MemoryStore.DataOnly (store : MemoryStore) : Prop :=
  ∀ run ∈ store.records, run.verificationMode = .data

/-- Without custom cases there is nothing to count for the custom criterion. -/
theorem MemoryStore.DataOnly.countsForMode_custom {store : MemoryStore} (h : store.DataOnly)
    (key : String) : store.countsForMode key .custom = .zero := by
  have hnone : (store.records.filter fun run =>
      run.blueGreenRef = key ∧ run.verificationMode = .custom) = [] := by
    rw [List.filter_eq_nil_iff]
    intro run hrun
    simp [h run hrun]
  unfold MemoryStore.countsForMode
  rw [hnone]
  rfl

/-- Every case is one of the data criterion, and so no custom ones are counted. -/
def dataCase : RecordFact where
  holds run := run.verificationMode = .data
  counts mode counts := mode = .custom → counts = .zero
  kept hmode _ h := hmode.trans h
  merged h _ := h
  counted h key mode hmode := by
    rw [hmode]
    exact MemoryStore.DataOnly.countsForMode_custom h key

/-! ## Runs -/

/-- An Observing reconcile, a request to the API, a round of the tracker, and other work that
neither registers a case nor decides anything. -/
inductive EvidenceJob where
  | observing (ctx : Ctx) (bgd : BlueGreenDeployment)
  | request (ctx : Ctx) (authHeader : Option String) (req : ApiRequest)
  | pollPending
  | checkTimeouts
  | other (work : Op Unit) (h : Op.Bystander work)

def EvidenceJob.thread : EvidenceJob → Thread Call Answer ReconcileError Unit
  | .observing ctx bgd => ⟨reconcileObserving ctx bgd bgd.metadata.ns bgd.stateKey, ()⟩
  | .request ctx authHeader req => ⟨do let _ ← router ctx authHeader req, ()⟩
  | .pollPending => ⟨FluidBG.pollPending, ()⟩
  | .checkTimeouts => ⟨FluidBG.checkTimeouts, ()⟩
  | .other work _ => ⟨work, ()⟩

/-- Requests, rounds of the tracker and reconciles that race. -/
abbrev EvidencePool := Pool Call Answer ReconcileError Unit Deciding

/-- What a run from `w` can lead to. -/
def Evolves (w : World) (s : EvidencePool) : Prop :=
  Pool.Run decidingCluster EvidenceJob.thread Watch.top ⟨⟨w, ⟨none, none⟩, []⟩, []⟩ s

/-- Some run brings a custom case into the store. -/
def RecordsCustom (w : World) : Prop :=
  ∃ s, Evolves w s ∧ ∃ run ∈ s.world.world.store.records, run.verificationMode = .custom

/-- Some run leads to a case that is counted for the custom criterion. -/
def CountsCustom (w : World) : Prop :=
  ∃ s, Evolves w s ∧ ∃ key, s.world.world.store.countsForMode key .custom ≠ .zero

/-- Some run decides to promote an object of this spec. -/
def CanPromote (spec : BlueGreenDeploymentSpec) (w : World) : Prop :=
  ∃ s, Evolves w s ∧ ∃ d ∈ s.world.decisions,
    d.decision.bgd.spec = spec ∧ d.decision.action = .ok .promote

/-- **The custom criterion of a spec can be met.** -/
structure CustomLive (spec : BlueGreenDeploymentSpec) (w : World) : Prop where
  recorded : RecordsCustom w
  counted : CountsCustom w
  promotes : CanPromote spec w

/-- The spec has a custom criterion. -/
def BlueGreenDeploymentSpec.AsksCustom (spec : BlueGreenDeploymentSpec) : Prop :=
  ∃ promotion, spec.promotion = some promotion ∧ promotion.custom ≠ none

/-- **No run brings a custom case**, or a decision that counted one: the handler fixes the mode. -/
theorem Evolves.dataOnly {w : World} {s : EvidencePool} (hw : w.store.DataOnly)
    (h : Evolves w s) : dataCase.Throughout s.world := by
  have hstart : dataCase.Throughout ⟨w, ⟨none, none⟩, []⟩ := by
    refine ⟨hw, fun d hd => ?_⟩
    cases hd
  refine RecordFact.Throughout.of_run hstart (fun job => ?_) h
  cases job with
  | observing ctx bgd => exact .reconcileObserving _
  | request ctx authHeader req =>
    have hrouter : (router ctx authHeader req).Calls dataCase.Allows :=
      RecordFact.allows_router fun _ _ _ _ _ _ => rfl
    exact .of_calls (hrouter.bind fun _ => trivial)
  | pollPending => exact .of_bystander Op.Bystander.pollPending
  | checkTimeouts => exact .of_bystander Op.Bystander.checkTimeouts
  | other work h => exact .of_bystander h

/-- A decision that saw no custom case does not promote where some are asked for. -/
theorem Decision.action_ne_promote {d : Decision} (hcustom : d.bgd.spec.AsksCustom)
    (hzero : d.customCounts = .zero) : d.action ≠ .ok .promote := by
  intro hpromote
  obtain ⟨promotion, hp, hne⟩ := hcustom
  obtain ⟨custom, hc⟩ := Option.ne_none_iff_exists'.mp hne
  have hmet := ((decidePromotionAction_promote hp).mp hpromote).2.1 custom hc
  rw [hzero] at hmet
  simp [decideCustomPromotion, Counts.zero] at hmet

section Dead

variable {spec : BlueGreenDeploymentSpec} {w : World}

theorem not_recordsCustom (hw : w.store.DataOnly) : ¬ RecordsCustom w := by
  rintro ⟨s, hs, run, hrun, hmode⟩
  rw [(hs.dataOnly hw).store run hrun] at hmode
  cases hmode

theorem not_countsCustom (hw : w.store.DataOnly) : ¬ CountsCustom w := by
  rintro ⟨s, hs, key, hkey⟩
  exact hkey (MemoryStore.DataOnly.countsForMode_custom (hs.dataOnly hw).store key)

theorem not_canPromote (hspec : spec.AsksCustom) (hw : w.store.DataOnly) :
    ¬ CanPromote spec w := by
  rintro ⟨s, hs, d, hd, hsame, hpromote⟩
  have hzero : d.decision.customCounts = .zero := ((hs.dataOnly hw).decisions d hd).custom rfl
  rw [← hsame] at hspec
  exact d.decision.action_ne_promote hspec hzero hpromote

/-- **The custom criterion is dead.** From a store without custom cases no run of requests,
verdicts, rounds of the tracker and reconciles records such a case or counts one, and none comes to
promote a rollout that asks for some: it waits for ever, or rolls back on its data criterion. -/
theorem custom_criterion_dead (hspec : spec.AsksCustom) (hw : w.store.DataOnly) :
    ¬ RecordsCustom w ∧ ¬ CountsCustom w ∧ ¬ CanPromote spec w :=
  ⟨not_recordsCustom hw, not_countsCustom hw, not_canPromote hspec hw⟩

end Dead

/-! ## A test that is verified by its own means -/

/-- The sample with a test of its own verification, and the criterion for it. -/
def Sample.customSpec : BlueGreenDeploymentSpec :=
  { spec with
    test := some {
      name := "checks"
      deployment := deploymentSpec
      service := ⟨.empty, [⟨none, 80, none⟩]⟩
      dataVerification := none
      customVerification := some ⟨"/start", "/verify", some 60, some 3⟩ }
    promotion := some ⟨none, some ⟨some 600, some 3⟩, ⟨.hardSwitch, none⟩⟩ }

def Sample.customBgd : BlueGreenDeployment :=
  { bgd .observing with spec := customSpec }

/-- The cluster of a fresh operator. -/
def Sample.customWorld : World :=
  { world .observing [] with bgd := some customBgd }

theorem Sample.customSpec_asksCustom : customSpec.AsksCustom :=
  ⟨⟨none, some ⟨some 600, some 3⟩, ⟨.hardSwitch, none⟩⟩, rfl, nofun⟩

theorem Sample.customWorld_dataOnly : customWorld.store.DataOnly := by
  intro run hrun
  cases hrun

/-- The sample never promotes. -/
theorem custom_criterion_dead_sample :
    ¬ RecordsCustom Sample.customWorld ∧ ¬ CountsCustom Sample.customWorld ∧
      ¬ CanPromote Sample.customSpec Sample.customWorld :=
  custom_criterion_dead Sample.customSpec_asksCustom Sample.customWorld_dataOnly

/-- **A rollout that is accepted and can never promote**: its test brings a verification and its
promotion asks for nothing else. -/
theorem accepted_custom_never_met :
    validateTestConfiguration Sample.customBgd = .ok () ∧
      ¬ CustomLive Sample.customBgd.spec Sample.customWorld := by
  refine ⟨by decide +kernel, fun hlive => ?_⟩
  exact not_canPromote Sample.customSpec_asksCustom Sample.customWorld_dataOnly hlive.promotes

end FluidBG
