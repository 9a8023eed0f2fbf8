import CopilotRuntime.Effects.Dispatch

/-!
# The effect coordinator

Handling a commit command re-proves the approval against the folded ledger
before it dispatches. Reconciling a claim asks the executor what happened and
records the answer; it has no way to apply an effect.

## Implementation notes

The digest function is a parameter. The coordinator's statuses have the same
members as the dispatcher's, so one enumeration serves both.
-/

namespace CopilotRuntime.Effects

open Foundation

abbrev EffectCoordinatorStatus := EffectDispatchStatus

structure EffectCoordinatorResult where
  status : EffectCoordinatorStatus
  stageId : String
  revision : Nat
  claimId : Option String
  outcome : Option EffectOutcome
  safeCode : String

/-- A recovery task names one claim of an organisation, never a new effect. -/
structure EffectReconcileCommand where
  orgId : String
  claimId : String

def publicUnknownOutcome : String := "The effect outcome could not be confirmed."

def eventClaimed : String := "effect.claimed"
def eventApplied : String := "effect.applied"
def eventIndeterminate : String := "effect.indeterminate"
def eventReconciled : String := "effect.reconciled"

section Recorder
variable (sha256 : String → String)

def phaseKey (identity phase : String) : String := "effect:" ++ phase ++ ":" ++ sha256 identity

def phaseFingerprint (phase : String) (value : Payload) : String :=
  sha256 (Json.dumps (.obj [("phase", .str phase), ("value", .obj value)]))

/-- Append one phase fact of a claim. Its key makes a repeated publication idempotent. -/
def appendPhase (scope : EffectStageScope) (phase : String) (claim : EffectClaim)
    (eventType : String) (payload : Payload) : EffectProgram Unit := do
  let reply ← perform (.appendStageEvent scope {
    eventType
    payload
    idempotencyKey := phaseKey sha256 claim.claimId phase
    requestFingerprint := phaseFingerprint sha256 phase payload })
  let _ ← unwrap reply
  pure ()

def recordClaimed (scope : EffectStageScope) (claim : EffectClaim) : EffectProgram Unit :=
  appendPhase sha256 scope "claimed" claim eventClaimed
    [("v", .int 1), ("stage_id", .str claim.stageId), ("revision", .int claim.revision),
      ("claim_id", .str claim.claimId), ("executor", .str claim.executor.value),
      ("attempt", .int claim.attempt)]

def rowResultJson (r : WriteAppliedRowResult) : Json :=
  .obj [("row_key", .str r.rowKey), ("outcome", .str r.outcome.value),
    ("detail", Json.ofOption r.detail)]

/-- The terminal fact of a claim with the given outcome. -/
def appliedPayload (claim : EffectClaim) (outcome : EffectOutcome) : Payload :=
  [("v", .int 1), ("stage_id", .str claim.stageId), ("revision", .int claim.revision),
    ("outcome", .str outcome.value)] ++
  (claim.receiptRef.map fun ref => ("receipt_ref", Json.str ref)).toList ++
  (claim.resultDigest.map fun digest => ("result_digest", Json.str digest)).toList ++
  (claim.rowResults.map fun rows => ("row_results", Json.arr (rows.map rowResultJson))).toList

/-- Publish the terminal fact that follows a durable claim transition. -/
def recordCompletion (scope : EffectStageScope) (claim : EffectClaim) : EffectProgram Unit :=
  if claim.state = .indeterminate then
    appendPhase sha256 scope "indeterminate" claim eventIndeterminate
      [("v", .int 1), ("stage_id", .str claim.stageId), ("revision", .int claim.revision),
        ("claim_id", .str claim.claimId),
        ("reason", .str ((safeMessage? claim.safeMessage).getD publicUnknownOutcome))]
  else match claim.outcome with
    | none => pure ()
    | some outcome =>
        appendPhase sha256 scope "applied" claim eventApplied (appliedPayload claim outcome)

def recordReconciled (scope : EffectStageScope) (claim : EffectClaim) : EffectProgram Unit :=
  match claim.outcome with
  | none => pure ()
  | some outcome =>
      appendPhase sha256 scope "reconciled" claim eventReconciled
        ([("v", .int 1), ("stage_id", .str claim.stageId), ("revision", .int claim.revision),
          ("claim_id", .str claim.claimId), ("outcome", .str outcome.value)] ++
        ((claim.receiptRef.filter fun ref => !ref.isEmpty).map
          fun ref => ("receipt_ref", Json.str ref)).toList)

/-- Record a prepare-time drift; no claim exists yet. -/
def recordPreclaimDrift (scope : EffectStageScope) (command : EffectCommitCommand) :
    EffectProgram Unit := do
  let reply ← perform (.appendStageEvent scope {
    eventType := eventApplied
    payload := [("v", .int 1), ("stage_id", .str command.stageId),
      ("revision", .int command.revision),
      ("outcome", .str EffectOutcome.preconditionDrift.value)]
    idempotencyKey := phaseKey sha256 command.idempotencyKey "preclaim-drift"
    requestFingerprint := phaseFingerprint sha256 "preclaim-drift"
      [("stage_id", .str command.stageId), ("revision", .int command.revision),
        ("proposal_digest", .str command.proposalDigest),
        ("target_digest", .str command.targetDigest)] })
  let _ ← unwrap reply
  pure ()

end Recorder

section Approval

/-- A command and a row result, as an applied event lists them. -/
def failedRows (seen failed : List String) : List Json → Option (List String)
  | [] => some failed
  | .obj item :: rest =>
      match Payload.string item "row_key", Payload.string item "outcome" with
      | some rowKey, some outcome =>
          if rowKey.isEmpty || seen.contains rowKey then none
          else if outcome = "applied" then failedRows (rowKey :: seen) failed rest
          else if outcome = "failed" then failedRows (rowKey :: seen) (failed ++ [rowKey]) rest
          else none
      | _, _ => none
  | _ :: _ => none

/-- The row results of an applied event, if it lists any. -/
def rowResultItems (event : StructuralEvent) : Option (List Json) :=
  if event.eventType = eventApplied then
    match Json.lookup event.payload "row_results" with
    | some (.arr items) => some items
    | _ => none
  else none

/-- The latest event, in ledger order, that satisfies the predicate. -/
def latestWhere (p : StructuralEvent → Bool) (events : List StructuralEvent) :
    Option StructuralEvent :=
  (events.filter p).foldl (fun best event =>
    match best with
    | none => some event
    | some b => if EffectStageFold.eventLe event b then some b else some event) none

def sameElements (xs ys : List String) : Bool := xs.all (ys.contains ·) && ys.all (xs.contains ·)

/-- Re-prove the row scope of a command, at first delivery or on a recorded retry basis. -/
def commandRowScopeMatches (events : List StructuralEvent) (decisionRowKeys : Option (List String))
    (command : EffectCommitCommand) : Bool :=
  match command.retryBasisLedgerId with
  | none => decisionRowKeys == command.rowKeys
  | some basis =>
      match decisionRowKeys, command.rowKeys with
      | some decided, some keys =>
          keys.all (decided.contains ·) &&
            match latestWhere (fun e => (rowResultItems e).isSome) events with
            | none => false
            | some latest =>
                latest.ledgerId == basis &&
                  match (rowResultItems latest).bind (failedRows [] []) with
                  | none => false
                  | some failed => !failed.isEmpty && sameElements keys failed
      | _, _ => false

/-- Every fact a command pins, checked against the folded stage. -/
def authorises (scope : EffectStageScope) (events : List StructuralEvent)
    (state : EffectStageState) (command : EffectCommitCommand) : Bool :=
  state.scope == scope && state.status == .approved && state.approvalReady &&
    (match state.decision with
      | none => false
      | some decision =>
          decision.decision == .approve && decision.revision == command.revision &&
            decision.ledgerId == command.decisionLedgerId &&
            decision.proposalDigest == command.proposalDigest &&
            decision.targetDigest == command.targetDigest &&
            commandRowScopeMatches events decision.rowKeys command) &&
    state.currentRevision.revision == command.revision &&
    state.currentRevision.proposalDigest == command.proposalDigest &&
    state.targetDigest == command.targetDigest

/-- Fold the stage's history and keep it only if it authorises the command. -/
def loadAuthorisedStage (scope : EffectStageScope) (command : EffectCommitCommand) :
    EffectProgram (Option EffectStageState) := do
  match ← perform (.listStageEvents scope command.stageId) with
  | .error _ => pure none
  | .ok events =>
      match EffectStageFold.fold events with
      | none => pure none
      | some state => pure (if authorises scope events state command then some state else none)

/-- Both immutable references still have the digests that were approved. -/
def referencesMatch (scope : EffectExecutionScope) (state : EffectStageState) :
    EffectProgram Bool :=
  match state.currentRevision.proposalContentRef with
  | none => pure false
  | some contentRef => do
      let proposalDigest : Option String ← perform (.digestReference scope contentRef)
      let targetDigest : Option String ← perform (.digestReference scope state.target.targetRef)
      pure (proposalDigest == some state.currentRevision.proposalDigest &&
        targetDigest == some state.targetDigest)

/-- The request an authorised stage and its command dispatch. -/
def dispatchFields (state : EffectStageState) (decision : EffectStageDecision)
    (contentRef : String) (command : EffectCommitCommand) : EffectDispatchFields where
  stageId := state.stageId
  revision := command.revision
  idempotencyKey := command.idempotencyKey
  executor := state.executor
  targetRef := state.target.targetRef
  targetDigest := state.targetDigest
  proposalRef := state.currentRevision.proposalRef
  proposalContentRef := contentRef
  proposalDigest := state.currentRevision.proposalDigest
  actor := decision.actor.actor
  decisionLedgerId := decision.ledgerId
  rowKeys := command.rowKeys

def dispatchRequest (state : EffectStageState) (command : EffectCommitCommand) :
    Except EffectError EffectDispatchRequest :=
  match state.decision, state.currentRevision.proposalContentRef with
  | none, _ => .error (.external "an approved effect stage requires an approval decision")
  | some _, none => .error (.external "an executable effect stage requires proposal content")
  | some decision, some contentRef =>
      let fields := dispatchFields state decision contentRef command
      if h : fields.errors = [] then .ok ⟨fields, h⟩ else .error (.validation fields.errors)

end Approval

section Programs
variable (sha256 : String → String)

def refuse (command : EffectCommitCommand) (code : String) :
    EffectProgram EffectCoordinatorResult := do
  let reply ← perform (.audit "effect.commit.refused"
    [("run_id", .str command.runId), ("stage_id", .str command.stageId),
      ("revision", .int command.revision), ("code", .str code)])
  let _ ← unwrap reply
  pure ⟨.refused, command.stageId, command.revision, none, none, code⟩

def auditFacts (command : EffectCommitCommand) (state : EffectStageState)
    (claimId : Option String) : Payload :=
  [("run_id", .str command.runId), ("stage_id", .str state.stageId),
    ("revision", .int command.revision), ("decision_ledger_id", .str command.decisionLedgerId),
    ("executor", .str state.executor.value), ("operation_id", .str state.operationId),
    ("claim_id", Json.ofOption claimId),
    ("row_count", match command.rowKeys with
      | some keys => .int keys.length
      | none => .null)]

def audit (action : String) (facts : Payload) : EffectProgram Unit := do
  let reply ← perform (.audit action facts)
  unwrap reply

/-- Publish the new claim to the ledger and the audit log before the effect. -/
def observeClaim (stageScope : EffectStageScope) (state : EffectStageState)
    (command : EffectCommitCommand) (scope : EffectExecutionScope) (claim : EffectClaim) :
    EffectProgram Unit :=
  if scope.runId ≠ stageScope.runId then
    .raised (.external "effect dispatch scope changed before apply")
  else do
    recordClaimed sha256 stageScope claim
    audit "effect.commit.claimed" (auditFacts command state (some claim.claimId))

def auditDispatch (dispatched : EffectDispatchResult) (claim : EffectClaim)
    (state : EffectStageState) (command : EffectCommitCommand) : EffectProgram Unit :=
  let facts := auditFacts command state (some claim.claimId)
  match dispatched.status with
  | .refused =>
      audit "effect.commit.authorization_denied"
        (facts ++ [("authorization_code", .str dispatched.safeCode)])
  | .applied => audit "effect.commit.completed" facts
  | .indeterminate => audit "effect.commit.indeterminate" facts
  | _ => pure ()

/-- Publish a dispatch result on the stage ledger and in the audit log. -/
def resultFromDispatch (dispatched : EffectDispatchResult) (scope : EffectStageScope)
    (state : EffectStageState) (command : EffectCommitCommand) :
    EffectProgram EffectCoordinatorResult :=
  match dispatched.claim with
  | none => refuse command dispatched.safeCode
  | some claim => do
      if dispatched.status = .claimed then recordClaimed sha256 scope claim
      else recordCompletion sha256 scope claim
      auditDispatch dispatched claim state command
      pure ⟨dispatched.status, claim.stageId, claim.revision, some claim.claimId, claim.outcome,
        dispatched.safeCode⟩

/-- Dispatch an authorised stage and publish what came of it. -/
def handleAuthorised (cancellable : Bool) (scope : EffectExecutionScope)
    (stageScope : EffectStageScope) (state : EffectStageState) (command : EffectCommitCommand)
    (mint : Minted) : EffectProgram EffectCoordinatorResult := do
  let request ← unwrap (dispatchRequest state command)
  let resolved ← perform (.resolveExecutor state.executor scope)
  let executor ← unwrap resolved
  let isCancelled : EffectExecutionScope → EffectDispatchRequest → EffectProgram Bool :=
    fun active _ => do unwrap (← perform (.isCancelled active command))
  let dispatched ← dispatch scope request executor {
    expectedPreconditionDigest := state.currentRevision.preconditionDigest
    cancellation := if cancellable then some isCancelled else none
    observer := some (observeClaim sha256 stageScope state command) } mint
  if dispatched.status = .preconditionDrift then
    recordPreclaimDrift sha256 stageScope command
    audit "effect.commit.precondition_drift" (auditFacts command state none)
    pure ⟨.preconditionDrift, command.stageId, command.revision, none, some .preconditionDrift,
      "precondition_drift"⟩
  else resultFromDispatch sha256 dispatched stageScope state command

/-- Validate, prepare, claim, apply and complete one approved effect. -/
def handle (cancellable : Bool) (command : EffectCommitCommand) (mint : Minted) :
    EffectProgram EffectCoordinatorResult := do
  match ← unwrap (← perform (.resolveScope command.runId)) with
  | none => refuse command "run_unavailable"
  | some scope =>
      if scope.runId ≠ command.runId then refuse command "run_unavailable"
      else
        let stageScope : EffectStageScope := ⟨scope.runId, scope.ownerRef⟩
        if stageScope.errors ≠ [] then .raised (.validation stageScope.errors)
        else do
          match ← loadAuthorisedStage stageScope command with
          | none => refuse command "approval_mismatch"
          | some state =>
              if ← referencesMatch scope state then
                handleAuthorised sha256 cancellable scope stageScope state command mint
              else refuse command "immutable_ref_mismatch"

def resultFromClaim (claim : EffectClaim) (status : EffectCoordinatorStatus) :
    EffectCoordinatorResult where
  status := status
  stageId := claim.stageId
  revision := claim.revision
  claimId := some claim.claimId
  outcome := claim.outcome
  safeCode := match claim.outcome with
    | some outcome => outcome.value
    | none => claim.state.value

/-- The claim after reconciliation could not establish an outcome. -/
def indeterminateFields (claim : EffectClaim) (safeMessage : Option String) (now : String) :
    EffectClaimFields :=
  { claim.toEffectClaimFields with
    state := .indeterminate
    outcome := some .indeterminate
    receiptRef := none
    resultDigest := none
    safeMessage := some ((safeMessage? safeMessage).getD publicUnknownOutcome)
    rowResults := none
    updatedAt := now }

/-- Validate a rebuilt claim and write it over its predecessor. -/
def persistClaim (fields : EffectClaimFields) : EffectProgram EffectClaim :=
  match EffectClaim.modelValidate fields with
  | .error errors => .raised (.validation errors)
  | .ok claim => do unwrapClaim (← perform (.claimUpdate claim))

/-- An unresolved claim stays or becomes indeterminate. -/
def markReconcileIndeterminate (scope : EffectStageScope) (claim : EffectClaim)
    (safeMessage : Option String) (now : String) : EffectProgram EffectCoordinatorResult :=
  if claim.state = .indeterminate then do
    recordCompletion sha256 scope claim
    pure (resultFromClaim claim .indeterminate)
  else do
    let stored ← persistClaim (indeterminateFields claim safeMessage now)
    recordCompletion sha256 scope stored
    pure (resultFromClaim stored .indeterminate)

/-- Ask the executor about an unresolved claim and record its answer. -/
def reconcileUnresolved (scope : EffectStageScope) (executor : EffectExecutor)
    (claim : EffectClaim) (now : String) : EffectProgram EffectCoordinatorResult :=
  if !executor.capabilities.supportsReconcile then
    markReconcileIndeterminate sha256 scope claim none now
  else do
    match ← perform (.reconcile executor claim) with
    | .error _ => markReconcileIndeterminate sha256 scope claim none now
    | .ok result =>
        if result.outcome = .indeterminate then
          markReconcileIndeterminate sha256 scope claim result.safeMessage now
        else do
          let stored ← persistClaim (completedFields claim result .completed now)
          recordReconciled sha256 scope stored
          recordCompletion sha256 scope stored
          pure (resultFromClaim stored .applied)

/-- Resolve one prior claim. No path of this program applies an effect. -/
def reconcile (command : EffectReconcileCommand) (now : String) :
    EffectProgram EffectCoordinatorResult := do
  match ← perform (.claimGetByClaimId command.orgId command.claimId) with
  | none => pure ⟨.refused, "unknown", 1, none, none, "claim_not_found"⟩
  | some claim =>
      match ← unwrap (← perform (.resolveScope claim.runId)) with
      | none => pure (resultFromClaim claim .refused)
      | some scope =>
          if scope.orgId ≠ claim.orgId then pure (resultFromClaim claim .refused)
          else
            let stageScope : EffectStageScope := ⟨claim.runId, scope.ownerRef⟩
            if stageScope.errors ≠ [] then .raised (.validation stageScope.errors)
            else if claim.state = .completed ∨ claim.state = .cancelled then do
              recordCompletion sha256 stageScope claim
              pure (resultFromClaim claim .replayed)
            else do
              let executor ← unwrap (← perform (.resolveExecutor claim.executor scope))
              reconcileUnresolved sha256 stageScope executor claim now

end Programs

end CopilotRuntime.Effects
