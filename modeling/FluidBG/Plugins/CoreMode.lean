import FluidBG.Lib.Steps
import FluidBG.Plugins.Subjects
import Mathlib.Logic.Function.Basic
/-!
# The readiness of a NATS inceptor in core mode

`run_core_input_pipeline` of `plugins/nats/src/input.rs` and `run_core_combine_loop` of `combiner.rs`,
with the handlers of `lifecycle.rs` and what `config.rs` keeps for them: a mode, a mask with a bit for
each pipeline that has subscribed, and the requests that wait for the mask. Nothing orders the tasks,
so each step is one access to what they share, or one call and its answer.
-/

set_option autoImplicit false

namespace FluidBG.Nats

open Lib

/-! ## What the tasks share -/

inductive CorePipeline where
  | input
  | greenOutput
  | blueOutput
  deriving DecidableEq, Repr

namespace CorePipeline

/-- The place of the bit. -/
def bit : CorePipeline → Nat
  | input => 0
  | greenOutput => 1
  | blueOutput => 2

/-- `CORE_READY_INPUT`, `CORE_READY_GREEN_OUTPUT` and `CORE_READY_BLUE_OUTPUT`. -/
def mask (p : CorePipeline) : Nat := 2 ^ p.bit

end CorePipeline

/-- `core_readiness_mask`. -/
def coreReadinessMask (roles : List PluginRole) : Nat :=
  if hasRole roles .combiner then CorePipeline.greenOutput.mask ||| CorePipeline.blueOutput.mask
  else if hasRole roles .duplicator || hasRole roles .splitter || hasRole roles .consumer then
    CorePipeline.input.mask
  else 0

/-- Where a pipeline is. -/
inductive PipelinePoint where
  /-- Before it looks at the mode, outside of its receive loop. -/
  | modeCheck
  | connecting
  | subscribing
  /-- Subscribed, before `fetch_or`. -/
  | subscribed
  /-- Between `fetch_or` and `notify_waiters`. -/
  | recorded
  /-- In the receive loop, before it looks at the mode. -/
  | loopCheck
  | polling
  | processing
  /-- The task has returned, or was never started. -/
  | returned
  deriving DecidableEq, Repr

/-- Where a request to `/activate` is. -/
inductive ActivationPoint where
  | resetting
  | activating
  /-- Before `core_ready`. -/
  | checking
  /-- Between a check that failed and `notified()`. -/
  | creating
  | waiting (woken : Bool)
  | answering (ok : Bool)
  | answered (ok : Bool)
  deriving DecidableEq, Repr

structure CoreState where
  mode : RuntimeMode
  mask : Nat
  pipelines : CorePipeline → PipelinePoint
  activations : List ActivationPoint

/-- `core_ready`. -/
def CoreState.coreReady (s : CoreState) (expected : Nat) : Bool :=
  expected = 0 || s.mask &&& expected = expected

/-! ## The steps -/

/-- What comes of a call of a pipeline; for a message, whether there is one, the subscription has
ended, or the time is over. -/
inductive PipelineResult where
  | ok
  | failed
  | timedOut
  deriving DecidableEq, Repr

inductive CoreEvent where
  /-- A request to `/activate` comes in. -/
  | request
  /-- The next step of a request. -/
  | activate (i : Nat)
  /-- The ten seconds of a request are over. -/
  | timeout (i : Nat)
  | prepare
  | drain
  | cleanup
  /-- The next step of a pipeline. -/
  | pipeline (p : CorePipeline) (result : PipelineResult)
  deriving DecidableEq, Repr

/-- `notify_waiters` wakes those that wait now. -/
def ActivationPoint.notify : ActivationPoint → ActivationPoint
  | .waiting _ => .waiting true
  | point => point

section Steps

variable (state : WorkerState Config) (s : CoreState)

/-- The pipeline finds its subject; the combiner has checked its own before it started the two. -/
def hasSubject : CorePipeline → Bool
  | .input => (inputSourceSubject state.roles state.config).isOk
  | _ => true

/-- Where the pipeline goes. -/
def PipelinePoint.next (subject : Bool) (mode : RuntimeMode) (result : PipelineResult) :
    PipelinePoint → PipelinePoint
  | modeCheck =>
    if mode = .idle ∨ mode = .draining then .modeCheck
    else if subject then .connecting
    else .returned
  | connecting => if result = .ok then .subscribing else .modeCheck
  | subscribing => if result = .ok then .subscribed else .modeCheck
  | subscribed => .recorded
  | recorded => .loopCheck
  | loopCheck => if mode = .active then .polling else .modeCheck
  | polling => match result with
    | .ok => .processing
    | .failed => .modeCheck
    | .timedOut => .loopCheck
  | processing => .loopCheck
  | returned => .returned

/-- One step of a pipeline, with what it does to the mask and to those that wait. -/
def CoreState.stepPipeline (p : CorePipeline) (result : PipelineResult) : CoreState where
  mode := s.mode
  mask := if s.pipelines p = .subscribed then s.mask ||| p.mask else s.mask
  pipelines := Function.update s.pipelines p
    ((s.pipelines p).next (hasSubject state p) s.mode result)
  activations :=
    if s.pipelines p = .recorded then s.activations.map ActivationPoint.notify else s.activations

/-- One step of `activate_handler` and `wait_for_core_ready`, at the point where the request is. -/
def CoreState.stepActivation (i : Nat) : ActivationPoint → Option CoreState
  | .resetting => some { s with mask := 0, activations := s.activations.set i .activating }
  | .activating =>
    some { s with mode := .active, activations := s.activations.set i .checking }
  | .checking => some { s with
      activations := s.activations.set i
        (if s.coreReady (coreReadinessMask state.roles) then .answering true else .creating) }
  | .creating => some { s with activations := s.activations.set i (.waiting false) }
  | .waiting true => some { s with activations := s.activations.set i .checking }
  | .answering ok => some { s with activations := s.activations.set i (.answered ok) }
  | .waiting false => none
  | .answered _ => none

def CoreState.step : CoreEvent → Option CoreState
  | .request => some { s with activations := s.activations ++ [.resetting] }
  | .activate i => s.activations[i]?.bind (s.stepActivation state i)
  | .timeout i =>
    if s.activations[i]? = some (.waiting false) then
      some { s with activations := s.activations.set i (.answering false) }
    else none
  | .prepare => some { s with mode := .idle }
  | .drain => some { s with mode := .draining }
  | .cleanup => some { s with mode := .idle }
  | .pipeline p result =>
    if s.pipelines p = .returned then none else some (s.stepPipeline state p result)

/-- The pipelines that `main` starts for the roles; a combiner without its subjects starts none. -/
def startsPipeline : CorePipeline → Bool
  | .input => queueWorkerRole state.roles = .ok (some .input)
  | _ => queueWorkerRole state.roles = .ok (some .combiner) &&
      (outputDrainTargets state.config).isOk

/-- The inceptor when it has started. -/
def CoreState.start : CoreState where
  mode := .idle
  mask := 0
  pipelines p := if startsPipeline state p then .modeCheck else .returned
  activations := []

/-- A NATS inceptor in core mode. -/
def coreInceptor : Steps CoreState CoreEvent := ⟨fun s => s.step state⟩

end Steps

end FluidBG.Nats
