import FluidBG.Lib.Task
import FluidBG.Plugins.Subjects
/-!
# The worker tasks of a NATS inceptor

`run_input_pipeline` and `run_combine_loop` as the endless loops they are, in jetStream mode: where
`FluidBG.Plugins.Subjects` has what one turn does, this has also what becomes of the loop after it.
An error of a turn is one that the loop hands on with `?`, and it ends the task; nothing starts it
again, and the process goes on serving its handlers.
-/

set_option autoImplicit false

namespace FluidBG.Nats

open Lib

/-! ## The loops -/

section Loops

variable (state : WorkerState Config)

/-- One turn of `run_input_pipeline`: of its outer loop where it has no client, and else of its inner
loop, with the subject it polls. -/
def inputTurn : Option String → SubjectOp (Option String)
  | none => do
    match ← SubjectOp.mode with
    | .idle => pure none
    | _ => do
      match ← SubjectOp.connect.result with
      | .error (_ : Unit) => pure none
      | .ok _ => do
        let inputSubject ← Prog.ofExcept (inputSourceSubject state.roles state.config)
        pure (some inputSubject)
  | some inputSubject => do
    match ← SubjectOp.mode with
    | .idle => pure (some inputSubject)
    | .draining => do
      (drainInputSubjects state).logged
      pure (some inputSubject)
    | .active => do
      let source ← Prog.ofExcept (inputSourceDurable state.roles state.config inputSubject)
      match ← (SubjectOp.fetch (sourcePolicy state.roles source) inputSubject source.name).result with
      | .ok (some message) => do
        match ← (SubjectOp.holding (processInputMessage state message)).result with
        | .ok _ => pure (some inputSubject)
        | .error (_ : Unit) => pure none
      | .ok none => pure (some inputSubject)
      | .error (_ : Unit) => pure none

/-- One turn of `run_combine_loop`, which connects every time. -/
def combineTurn (source target : String) : SubjectOp Unit := do
  match ← SubjectOp.mode with
  | .idle => pure ()
  | _ => do
    match ← SubjectOp.connect.result with
    | .error (_ : Unit) => pure ()
    | .ok _ => do
      let mode ← SubjectOp.mode
      if mode = .draining then drainOutputSubject source target
      else
        match ← (SubjectOp.fetch .all source (durableName "combiner" source)).result with
        | .ok (some message) => SubjectOp.holding (processOutputMessage state message source target)
        | .ok none => pure ()
        | .error (_ : Unit) => pure ()

end Loops

/-! ## The tasks -/

/-- What has happened in a turn. -/
structure TurnLog where
  connects : Nat
  registrations : Nat
  /-- A message was not published, or its registration was given up. -/
  failed : Bool
  deriving DecidableEq

def TurnLog.start : TurnLog := ⟨0, 0, false⟩

/-- The registration is given up with this answer, after `n` others. -/
def givesUp (n : Nat) (status : Option Nat) : Bool :=
  match status with
  | some status =>
    !isSuccess status &&
      if retryableStatus status then n + 1 = deliveryAttempts else isErrorStatus status
  | none => n + 1 = deliveryAttempts

def TurnLog.see (turn : TurnLog) : (c : SubjectCall) → SubjectAnswer c → TurnLog
  | .connect, _ => { turn with connects := turn.connects + 1 }
  | .work (.publish _ _), .error _ => { turn with failed := true }
  | .work (.register _ _ _), status => { turn with
      registrations := turn.registrations + 1
      failed := turn.failed || givesUp turn.registrations status }
  | _, _ => turn

/-- The server and the inceptor, what the task holds, and what its turn has come to. -/
structure TaskWorld where
  world : SubjectWorld
  memory : SubjectMemory
  turn : TurnLog

inductive TaskMove where
  | others (v : SubjectMove)
  /-- A handler sets the mode. -/
  | setMode (mode : RuntimeMode)
  deriving DecidableEq

/-- The outside of a task. A turn begins with nothing in hand. -/
def taskMachine : Machine SubjectCall SubjectAnswer TaskWorld SubjectOutcome TaskMove where
  serve s c o :=
    let r := s.world.serve s.memory o c
    some (r.1, ⟨r.2.1, r.2.2, s.turn.see c r.1⟩)
  move s
    | .others v => (s.world.move v).map fun w => { s with world := w }
    | .setMode mode => some { s with world := { s.world with mode := mode } }
  halt s := ⟨s.world, .start, .start⟩

/-- A worker task of an inceptor that has just started. -/
def TaskWorld.start (messages : List (String × Message)) : TaskWorld :=
  ⟨.start messages .idle, .start, .start⟩

/-- The task of `run_input_pipeline`; the input of a turn is the traffic percentage it finds. -/
def inputTask (state : WorkerState Config) :
    Steps (Task SubjectCall SubjectAnswer Unit TaskWorld (Option String))
      (Task.Event Nat SubjectOutcome TaskMove) :=
  Task.steps taskMachine fun trafficPercent =>
    inputTurn { state with trafficPercent := trafficPercent }

/-- The task of `run_combine_loop`. -/
def combineTask (state : WorkerState Config) (source target : String) :
    Steps (Task SubjectCall SubjectAnswer Unit TaskWorld Unit)
      (Task.Event Unit SubjectOutcome TaskMove) :=
  Task.steps taskMachine fun _ _ => combineTurn state source target

end FluidBG.Nats
