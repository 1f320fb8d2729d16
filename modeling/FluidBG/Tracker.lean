import FluidBG.Controller.PluginLifecycle
/-!
# The tracker of test cases

`inception.rs`: one round of polling the verifiers of the pending cases, and one round of letting
cases expire. Both work on the list they read first.
-/

set_option autoImplicit false

namespace FluidBG

open Lib

/-- A custom verifier gave an answer that does not decode: a retry less, or the case has failed. -/
def takeRetry (run : TestCaseRecord) : Op Unit := do
  match ← Op.ask (.decrementRetries run.blueGreenRef run.testId) with
  | .ok (some _) => pure ()
  | .ok none =>
    let _ ← Op.ask (.setVerdict run.blueGreenRef run.testId false
      (some "custom verification retries exhausted"))
    pure ()
  | .error _ => pure ()

/-- One turn of the loop of `poll_pending`. -/
def pollCase (run : TestCaseRecord) : Op Unit := do
  let bearer := if run.verifierAuthToken = "" then "" else bearerValue run.verifierAuthToken
  match ← Op.ask (.pollVerifier run.verifyUrl bearer) with
  | .body response => match response.passed with
    | some passed =>
      let _ ← Op.ask (.setVerdict run.blueGreenRef run.testId passed response.errorMessage)
      pure ()
    | none => pure ()
  | .unparsable => if run.verificationMode = .custom then takeRetry run else pure ()
  | .sendError _ => pure ()

def pollPending : Op Unit := do
  let pending ← Op.stateStore (← Op.ask .listPending)
  Prog.forEach pending pollCase

/-- One turn of the loop of `check_timeouts` that reaches the store. -/
def expireCase (run : TestCaseRecord) : Op Unit := do
  let _ ← Op.ask (.markTimedOut run.blueGreenRef run.testId)
  pure ()

def checkTimeouts : Op Unit := do
  let pending ← Op.stateStore (← Op.ask .listPending)
  let now ← Op.ask .now
  Prog.forEach pending fun run => if run.expiresAt < now then expireCase run else pure ()

end FluidBG
