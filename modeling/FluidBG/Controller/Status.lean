import FluidBG.Api
/-!
# Status writers

`controller/status.rs`. Every writer is best effort: it returns nothing, and an error of the API
server ends it silently. Only `updateStatusPhase` looks at what is stored before it writes.
-/

set_option autoImplicit false

namespace FluidBG

/-! ## The guard of a phase write -/

def BGDPhase.rank : BGDPhase → Nat
  | .pending => 0
  | .observing => 1
  | .promoting => 2
  | .draining => 3
  | .completed => 4
  | .rolledBack => 4
  | .invalid => 4

def phaseTransitionIsCurrent (latestPhase : Option BGDPhase) (latestGeneration : Int)
    (requestedPhase : BGDPhase) (requestedGeneration : Int) : Bool :=
  if latestGeneration > requestedGeneration then false
  else if latestGeneration < requestedGeneration then true
  else match latestPhase with
    | none => true
    | some latestPhase =>
      if latestPhase = requestedPhase then true
      else if latestPhase.IsTerminal then false
      else requestedPhase.rank ≥ latestPhase.rank

def phaseUpdateIsCurrent (latest : BlueGreenDeployment) (requestedPhase : BGDPhase)
    (requestedGeneration : Int) : Bool :=
  phaseTransitionIsCurrent latest.phase (latest.observedGeneration.getD 0) requestedPhase
    requestedGeneration

/-! ## Conditions -/

/-- What a phase says in its conditions: ready, progressing, degraded, reason and message. -/
structure PhaseReport where
  ready : ConditionStatus
  progressing : ConditionStatus
  degraded : ConditionStatus
  reason : String
  message : String

def phaseReport : BGDPhase → PhaseReport
  | .pending => ⟨.isFalse, .isTrue, .isFalse, "Pending", "Rollout is queued or initializing."⟩
  | .observing =>
    ⟨.isFalse, .isTrue, .isFalse, "Observing", "Rollout is collecting test evidence."⟩
  | .promoting => ⟨.isFalse, .isTrue, .isFalse, "Promoting",
      "Rollout met promotion criteria and is switching traffic."⟩
  | .draining => ⟨.isFalse, .isTrue, .isFalse, "Draining",
      "Rollout is draining temporary resources before completion."⟩
  | .completed => ⟨.isTrue, .isFalse, .isFalse, "Completed", "Rollout completed successfully."⟩
  | .rolledBack => ⟨.isFalse, .isFalse, .isTrue, "RolledBack",
      "Rollout failed promotion criteria or timed out and was rolled back."⟩
  | .invalid => ⟨.isFalse, .isFalse, .isTrue, "InvalidSpec", "Rollout specification is invalid."⟩

def condition (conditionType : String) (status : ConditionStatus) (reason message : String)
    (observedGeneration : Int) (now : Timestamp) : BlueGreenDeploymentCondition where
  conditionType := conditionType
  status := status
  reason := reason
  message := message
  observedGeneration := observedGeneration
  lastTransitionTime := now

def conditionsForPhase (phase : BGDPhase) (observedGeneration : Int) (now : Timestamp) :
    List BlueGreenDeploymentCondition :=
  let report := phaseReport phase
  let cond := fun conditionType status =>
    condition conditionType status report.reason report.message observedGeneration now
  [cond "Ready" report.ready, cond "Progressing" report.progressing,
    cond "Degraded" report.degraded] ++
    if phase = .completed then [cond "ReconcileFailed" .isFalse] else []

/-- `conditions.retain(..)` and `conditions.push(..)`. -/
def putCondition (conditions : List BlueGreenDeploymentCondition)
    (c : BlueGreenDeploymentCondition) : List BlueGreenDeploymentCondition :=
  (conditions.filter fun old => old.conditionType ≠ c.conditionType) ++ [c]

/-! ## Writers that replace the status they have read -/

/-- The status of a phase write. -/
def withPhase (latest : BlueGreenDeployment) (phase : BGDPhase) (observedGeneration : Int)
    (conditions : List BlueGreenDeploymentCondition) : BlueGreenDeployment :=
  let status := latest.status.getD .default
  { latest with
    status := some { status with
      phase := some phase
      observedGeneration := some observedGeneration
      conditions := conditions } }

def updateStatusPhase (bgd : BlueGreenDeployment) (ns : String) (phase : BGDPhase) : Op Unit := do
  let observedGeneration := currentRolloutGeneration bgd
  match ← Op.ask (.getBgd ns bgd.metadata.name) with
  | .error _ => pure ()
  | .ok latest =>
    if phaseUpdateIsCurrent latest phase observedGeneration then
      let now ← Op.ask .now
      let conditions := conditionsForPhase phase observedGeneration now
      let _ ← Op.ask (.replaceStatus ns bgd.metadata.name
        (withPhase latest phase observedGeneration conditions))
      pure ()
    else pure ()

/-- The object with other conditions. -/
def withConditions (latest : BlueGreenDeployment)
    (f : List BlueGreenDeploymentCondition → List BlueGreenDeploymentCondition) :
    BlueGreenDeployment :=
  let status := latest.status.getD .default
  { latest with status := some { status with conditions := f status.conditions } }

def updateStatusUpdateDeferred (bgd : BlueGreenDeployment) (ns : String) : Op Unit := do
  match ← Op.ask (.getBgd ns bgd.metadata.name) with
  | .error _ => pure ()
  | .ok latest =>
    let generation := bgd.metadata.generation.getD 0
    let rolloutGeneration := bgd.rolloutGeneration.getD 0
    let now ← Op.ask .now
    let deferred := condition "UpdateDeferred" .isTrue "ActiveRollout"
      s!"Spec generation {generation} is deferred until rollout generation {rolloutGeneration} reaches a terminal phase."
      generation now
    let _ ← Op.ask (.replaceStatus ns bgd.metadata.name
      (withConditions latest fun conditions => putCondition conditions deferred))
    pure ()

def updateStatusReconcileFailure (bgd : BlueGreenDeployment) (ns reason message : String) :
    Op Unit := do
  match ← Op.ask (.getBgd ns bgd.metadata.name) with
  | .error _ => pure ()
  | .ok latest =>
    let observedGeneration := currentRolloutGeneration bgd
    let now ← Op.ask .now
    let failed := fun conditionType =>
      condition conditionType .isTrue reason message observedGeneration now
    let _ ← Op.ask (.replaceStatus ns bgd.metadata.name
      (withConditions latest fun conditions =>
        putCondition (putCondition conditions (failed "ReconcileFailed")) (failed "Degraded")))
    pure ()

/-! ## Writers that send a merge patch -/

def patchStatus (bgd : BlueGreenDeployment) (ns : String) (patch : StatusPatch) : Op Unit := do
  let _ ← Op.ask (.patchStatus ns bgd.metadata.name patch)
  pure ()

def ensureRolloutGeneration (bgd : BlueGreenDeployment) (ns : String) : Op Unit :=
  match bgd.rolloutGeneration with
  | some _ => pure ()
  | none => patchStatus bgd ns (.rolloutGeneration (bgd.metadata.generation.getD 0))

def resetStatusForNewRollout (bgd : BlueGreenDeployment) (ns : String) : Op Unit := do
  let observedGeneration := bgd.metadata.generation.getD 0
  let now ← Op.ask .now
  patchStatus bgd ns
    (.reset observedGeneration (conditionsForPhase .pending observedGeneration now))

def updateStatusInvalid (bgd : BlueGreenDeployment) (ns reason message : String) : Op Unit := do
  let observedGeneration := currentRolloutGeneration bgd
  let now ← Op.ask .now
  let cond := fun conditionType status =>
    condition conditionType status reason message observedGeneration now
  patchStatus bgd ns (.invalid observedGeneration
    [cond "Ready" .isFalse, cond "Progressing" .isFalse, cond "Degraded" .isTrue,
      cond "ReconcileFailed" .isTrue])

def updateDrainStartedAt (bgd : BlueGreenDeployment) (ns : String) : Op Unit := do
  let now ← Op.ask .now
  patchStatus bgd ns (.drainStartedAt now)

def updateInceptionPointDrainStatuses (bgd : BlueGreenDeployment) (ns : String)
    (statuses : List InceptionPointDrainStatus) : Op Unit :=
  patchStatus bgd ns (.inceptionPointDrains statuses)

def updateStatusGeneratedDeploymentName (bgd : BlueGreenDeployment) (ns name : String) :
    Op Unit :=
  patchStatus bgd ns (.generatedDeploymentName name)

def updateStatusCounts (bgd : BlueGreenDeployment) (ns : String) (counts : Counts)
    (successRate : Rat) (lastFailureMessage : Option String) : Op Unit :=
  patchStatus bgd ns (.caseCounts counts successRate lastFailureMessage)

def updateStatusProgress (bgd : BlueGreenDeployment) (ns : String) (step trafficPercent : Int) :
    Op Unit :=
  patchStatus bgd ns (.progress step trafficPercent)

end FluidBG
