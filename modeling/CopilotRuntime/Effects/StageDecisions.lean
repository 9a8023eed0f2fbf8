import CopilotRuntime.Effects.Coordinator
import CopilotRuntime.Effects.Staging

/-!
# Owner-scoped stage decisions

Approval routes reach the stager through this service. It finds the caller's
run, admits only stages whose executor the route may act on, and derives the
idempotency key of a decision or a retry from the reviewed snapshot.

## Implementation notes

The verdict of the rollout admission is a parameter: `none` denies the lane.
A command that does not validate raises before it is enqueued.
-/

namespace CopilotRuntime.Effects

open Foundation StagedWrites

/-- A caller names one stage of one of its runs. -/
structure StageAddress where
  orgId : String
  userId : String
  runId : String
  stageId : String

/-- The revision and digests a caller has reviewed. -/
structure ReviewedSnapshot where
  revision : Nat
  proposalDigest : String
  targetDigest : String

structure OwnedStage where
  run : RunRecord
  scope : EffectStageScope
  state : EffectStageState

/-- The governed capabilities of a lane, if the rollout admits it. -/
abbrev RolloutAdmission := RunRecord → EffectExecutorKind → Option (Option (List String))

def userPrincipal (userId : String) : String := "principal://users/" ++ userId

/-- A foreign run, an unknown stage and a foreign executor are all not found. -/
def ownedStage (allowed : List EffectExecutorKind) (a : StageAddress) :
    EffectProgram OwnedStage :=
  if allowed.isEmpty || (EffectStageIdCodec.parse a.stageId).isNone then
    .raised (.stage .notFound)
  else do
    match ← unwrap (← perform (.getRun a.orgId a.runId)) with
    | none => .raised (.stage .notFound)
    | some run =>
        let scope : EffectStageScope := ⟨run.runId, userPrincipal run.userId⟩
        if run.userId ≠ a.userId then .raised (.stage .notFound)
        else if scope.errors ≠ [] then .raised (.validation scope.errors)
        else do
          let state ← getState scope a.stageId
          if !allowed.contains state.executor then .raised (.stage .notFound)
          else pure ⟨run, scope, state⟩

/-- The stage, and its events as a second read lists them. -/
def stageHistory (allowed : List EffectExecutorKind) (a : StageAddress) :
    EffectProgram (EffectStageState × List StructuralEvent) := do
  let owned ← ownedStage allowed a
  let events ← unwrap (← perform (.listStageEvents owned.scope a.stageId))
  pure (owned.state, events)

/-- The failed rows of the latest recorded row results, if that event is the basis. -/
def latestFailedScope (events : List StructuralEvent) (basisLedgerId : String) :
    Option (List String) := do
  let latest ← latestWhere (fun e => (rowResultItems e).isSome) events
  if latest.ledgerId ≠ basisLedgerId then none
  else
    let items ← rowResultItems latest
    let failed ← failedRows [] [] items
    if failed.isEmpty then none else some failed

section Keys
variable (sha256 : String → String)

/-- One retry key for the exact reviewed snapshot. -/
def decisionKey (keyNamespace : String) (a : StageAddress) (pins : ReviewedSnapshot)
    (decision : EffectDecisionKind) (rowKeys : Option (List String)) : String :=
  keyNamespace ++ "-" ++ sha256 (Json.dumps (.obj [("run_id", .str a.runId),
    ("stage_id", .str a.stageId), ("revision", .int pins.revision),
    ("decision", .str decision.value), ("proposal_digest", .str pins.proposalDigest),
    ("target_digest", .str pins.targetDigest),
    ("row_keys", match rowKeys with
      | some keys => Json.strings keys
      | none => .null)]))

/-- A retry key names the set of rows, not their order. -/
def retryKey (a : StageAddress) (pins : ReviewedSnapshot) (rowKeys : List String)
    (basisLedgerId : String) : String :=
  "effect-rowset-retry-" ++ sha256 (Json.dumps (.obj [("run_id", .str a.runId),
    ("stage_id", .str a.stageId), ("revision", .int pins.revision),
    ("proposal_digest", .str pins.proposalDigest), ("target_digest", .str pins.targetDigest),
    ("row_keys", Json.strings (rowKeys.insertionSort (· ≤ ·))),
    ("basis_ledger_id", .str basisLedgerId)]))

end Keys

section Decisions
variable (sha256 : String → String) (admission : RolloutAdmission)
  (allowed : List EffectExecutorKind)

/-- The request the stager gets for a user's decision. -/
def decisionRequest (owned : OwnedStage) (a : StageAddress) (pins : ReviewedSnapshot)
    (decision : EffectDecisionKind) (rowKeys : Option (List String)) (keyNamespace : String)
    (governedCapabilities : Option (List String)) : DecideRequest where
  scope := owned.scope
  stageId := a.stageId
  revision := pins.revision
  decision := decision
  proposalDigest := pins.proposalDigest
  targetDigest := pins.targetDigest
  actor := ⟨.user, userPrincipal owned.run.userId⟩
  idempotencyKey :=
    decisionKey sha256 keyNamespace { a with runId := owned.run.runId } pins decision rowKeys
  rowKeys := rowKeys
  governedCapabilities := governedCapabilities

/-- Record an exact user decision; only a fresh approval is enqueued. -/
def recordDecision (a : StageAddress) (pins : ReviewedSnapshot) (decision : EffectDecisionKind)
    (rowKeys : Option (List String)) (keyNamespace now : String) :
    EffectProgram EffectStageState := do
  let owned ← ownedStage allowed a
  match admission owned.run owned.state.executor with
  | none => .raised (.stage .forbidden)
  | some governed =>
      decide sha256
        (decisionRequest sha256 owned a pins decision rowKeys keyNamespace governed) now

/-- The request the stager gets for a user's row postures. -/
def postureRequest (owned : OwnedStage) (a : StageAddress) (pins : ReviewedSnapshot)
    (decisions : List (String × String)) (idempotencyKey : String) : RowDecisionsRequest where
  scope := owned.scope
  stageId := a.stageId
  revision := pins.revision
  decisions := decisions
  proposalDigest := pins.proposalDigest
  targetDigest := pins.targetDigest
  actor := ⟨.user, userPrincipal owned.run.userId⟩
  idempotencyKey := idempotencyKey

/-- Persist the user's row postures. -/
def recordPostures (a : StageAddress) (pins : ReviewedSnapshot)
    (decisions : List (String × String)) (idempotencyKey now : String) :
    EffectProgram EffectStageState := do
  let owned ← ownedStage allowed a
  recordRowDecisions sha256 (postureRequest owned a pins decisions idempotencyKey) now

/-- The command that retries the failed rows of a recorded result. -/
def retryCommand (a : StageAddress) (pins : ReviewedSnapshot) (decisionLedgerId : String)
    (rowKeys : List String) (basisLedgerId : String)
    (governedCapabilities : Option (List String)) : EffectCommitCommand where
  runId := a.runId
  stageId := a.stageId
  revision := pins.revision
  decisionLedgerId := decisionLedgerId
  proposalDigest := pins.proposalDigest
  targetDigest := pins.targetDigest
  idempotencyKey := retryKey sha256 a pins rowKeys basisLedgerId
  rowKeys := some rowKeys
  retryBasisLedgerId := some basisLedgerId
  governedCapabilities := governedCapabilities

/-- The approval of the reviewed snapshot, with the rows it names. -/
def retriableDecision (state : EffectStageState) (pins : ReviewedSnapshot) :
    Option (EffectStageDecision × List String) := do
  let decision ← state.decision
  let decided ← decision.rowKeys
  if decision.decision = .approve ∧ state.currentRevision.revision = pins.revision ∧
      state.currentRevision.proposalDigest = pins.proposalDigest ∧
      state.targetDigest = pins.targetDigest then
    some (decision, decided)
  else none

/-- Enqueue exactly the failed rows of the latest recorded result. -/
def enqueueRowsetRetry (a : StageAddress) (pins : ReviewedSnapshot) (rowKeys : List String)
    (basisLedgerId : String) : EffectProgram EffectStageState := do
  let owned ← ownedStage allowed a
  match retriableDecision owned.state pins with
  | none => .raised (.stage .invalidTransition)
  | some (decision, decided) => do
      let events ← unwrap (← perform (.listStageEvents owned.scope a.stageId))
      let matching := (latestFailedScope events basisLedgerId).any fun failed =>
        sameElements rowKeys failed && rowKeys.all (decided.contains ·)
      if !matching then .raised (.stage .invalidTransition)
      else match admission owned.run owned.state.executor with
        | none => .raised (.stage .forbidden)
        | some governed =>
            let command := retryCommand sha256 { a with runId := owned.run.runId } pins
              decision.ledgerId rowKeys basisLedgerId governed
            if command.errors ≠ [] then .raised (.validation command.errors)
            else do
              unwrap (← perform (.enqueueAfterDecision command))
              pure owned.state

end Decisions

section Footprints

/-- Looking up runs and listing stage events. -/
def ReadingOp : EffectOp → Prop
  | .getRun _ _ | .listStageEvents _ _ => True
  | _ => False

theorem onlyAwaits_ownedStage (allowed : List EffectExecutorKind) (a : StageAddress) :
    (ownedStage allowed a).OnlyAwaits ReadingOp := by
  unfold ownedStage
  split
  · exact .raised _
  · refine onlyAwaits_perform_bind (by trivial) fun reply => ?_
    refine (onlyAwaits_unwrap reply).bind fun found => ?_
    cases found with
    | none => exact .raised _
    | some run =>
        dsimp only
        split
        · exact .raised _
        · split
          · exact .raised _
          · refine (onlyAwaits_getState (by trivial)).bind fun state => ?_
            split
            · exact .raised _
            · exact .done _

theorem onlyAwaits_stageHistory (allowed : List EffectExecutorKind) (a : StageAddress) :
    (stageHistory allowed a).OnlyAwaits ReadingOp := by
  refine (onlyAwaits_ownedStage allowed a).bind fun owned => ?_
  refine onlyAwaits_perform_bind (by trivial) fun reply => ?_
  exact (onlyAwaits_unwrap reply).bind_pure _

end Footprints

end CopilotRuntime.Effects
