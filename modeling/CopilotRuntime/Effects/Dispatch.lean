import CopilotRuntime.Effects.Operations

/-!
# The claim-before-effect dispatcher

One dispatch prepares an approved request, acquires its durable claim, checks
cancellation and live authorization, applies the effect once, and records how
it ended. Each stage of the protocol is a program of its own.

## Implementation notes

Identifiers and timestamps that the source generates are given to a dispatch
when it starts, so a program is a function of its inputs.
-/

namespace CopilotRuntime.Effects

open Foundation

inductive EffectDispatchStatus
  | applied | replayed | refused | preconditionDrift | cancelled | indeterminate | claimed
  deriving DecidableEq

/-- The safe result of one dispatch attempt. -/
structure EffectDispatchResult where
  status : EffectDispatchStatus
  stageId : String
  revision : Nat
  safeCode : String
  claim : Option EffectClaim
  outcome : Option EffectOutcome

/-- The generated values of one dispatch. -/
structure Minted where
  claimId : String
  createdAt : String
  claimUpdatedAt : String
  updatedAt : String

/-- What a caller may add to a dispatch. -/
structure DispatchOptions where
  expectedPreconditionDigest : Option String := none
  cancellation : Option (EffectExecutionScope → EffectDispatchRequest → EffectProgram Bool) := none
  observer : Option (EffectExecutionScope → EffectClaim → EffectProgram Unit) := none

/-- Caller-supplied checks and observers are calls the environment answers. -/
def callerOptions (expectedPreconditionDigest : Option String) (cancellable observed : Bool) :
    DispatchOptions where
  expectedPreconditionDigest := expectedPreconditionDigest
  cancellation :=
    if cancellable then
      some fun scope request => do unwrap (← perform (.cancellation scope request))
    else none
  observer :=
    if observed then some fun scope claim => do unwrap (← perform (.observe scope claim))
    else none

theorem expectedPreconditionDigest_callerOptions (expected : Option String)
    (cancellable observed : Bool) :
    (callerOptions expected cancellable observed).expectedPreconditionDigest = expected := rfl

/-- The claim one prepared request proposes. -/
def claimFields (scope : EffectExecutionScope) (request : EffectDispatchRequest)
    (prepared : PreparedEffect) (mint : Minted) : EffectClaimFields where
  orgId := scope.orgId
  runId := scope.runId
  stageId := request.stageId
  revision := request.revision
  claimId := mint.claimId
  idempotencyKey := request.idempotencyKey
  executor := request.executor
  proposalDigest := request.proposalDigest
  targetDigest := request.targetDigest
  state := .claimed
  attempt := 1
  preparedRef := prepared.preparedRef
  receiptRef := none
  outcome := none
  resultDigest := none
  safeMessage := none
  targetRef := request.targetRef
  proposalRef := request.proposalRef
  proposalContentRef := some request.proposalContentRef
  actor := request.actor
  decisionLedgerId := request.decisionLedgerId
  rowKeys := request.rowKeys
  rowResults := none
  createdAt := mint.createdAt
  updatedAt := mint.claimUpdatedAt

/-- The semantic fields of a claim equal those of the request in its scope. -/
def claimMatches (claim : EffectClaim) (scope : EffectExecutionScope)
    (request : EffectDispatchRequest) : Bool :=
  claim.orgId == scope.orgId && claim.runId == scope.runId && claim.stageId == request.stageId &&
    claim.revision == request.revision && claim.idempotencyKey == request.idempotencyKey &&
    claim.executor == request.executor && claim.proposalDigest == request.proposalDigest &&
    claim.targetDigest == request.targetDigest && claim.targetRef == request.targetRef &&
    claim.proposalRef == request.proposalRef &&
    claim.proposalContentRef == some request.proposalContentRef &&
    claim.actor == request.actor && claim.decisionLedgerId == request.decisionLedgerId &&
    claim.rowKeys == request.rowKeys

/-- A message that fits a claim, or nothing. -/
def safeMessage? (value : Option String) : Option String :=
  value.filter isSafeMessage

/-- The claim after an attempt ended with a result. -/
def completedFields (claim : EffectClaim) (result : EffectExecutionResult)
    (state : EffectClaimState) (updatedAt : String) : EffectClaimFields :=
  { claim.toEffectClaimFields with
    state := state
    outcome := some result.outcome
    receiptRef := result.receiptRef
    resultDigest := result.resultDigest
    safeMessage := safeMessage? result.safeMessage
    rowResults := result.rowResults
    updatedAt := updatedAt }

def refused (request : EffectDispatchRequest) (code : String) : EffectDispatchResult where
  status := .refused
  stageId := request.stageId
  revision := request.revision
  safeCode := code
  claim := none
  outcome := none

def fromClaim (claim : EffectClaim) (status : EffectDispatchStatus) : EffectDispatchResult where
  status := status
  stageId := claim.stageId
  revision := claim.revision
  safeCode := match claim.outcome with
    | some outcome => outcome.value
    | none => claim.state.value
  claim := some claim
  outcome := claim.outcome

/-- What a redelivery reports about the claim that already exists. -/
def existingResult (claim : EffectClaim) : EffectDispatchResult :=
  match claim.state with
  | .claimed => fromClaim claim .claimed
  | .indeterminate => fromClaim claim .indeterminate
  | _ => fromClaim claim .replayed

/-- What a delivery reports about a claim it did not create. -/
def redelivered (claim : EffectClaim) (scope : EffectExecutionScope)
    (request : EffectDispatchRequest) : EffectDispatchResult :=
  if !claimMatches claim scope request then refused request "effect_claim_conflict"
  else existingResult claim

/-- Release a prepared reservation; a failing release is ignored. -/
def abortSafely (executor : EffectExecutor) (prepared : PreparedEffect) : EffectProgram Unit := do
  let _ ← perform (.abort executor prepared)
  pure ()

/-- Prepare a request. Nothing has been claimed, so a failure is only a refusal. -/
def prepareRequest (executor : EffectExecutor) (request : EffectDispatchRequest) :
    EffectProgram (Option PreparedEffect) :=
  if !executor.capabilities.supportsPrepare then
    pure (some ⟨.dispatch request, none, none⟩)
  else do
    match ← perform (.prepare executor request) with
    | .ok prepared => pure (some prepared)
    | .error _ => pure none

/-- The live verdict. Failures and values that are no verdict deny. -/
def verdict : Except EffectError (Option EffectExecutionAuthorization) →
    EffectExecutionAuthorization
  | .ok (some decision) => decision
  | .ok none => ⟨false, "authorization_invalid"⟩
  | .error _ => ⟨false, "authorization_unavailable"⟩

def authorizePrepared (executor : EffectExecutor) (prepared : PreparedEffect) :
    EffectProgram EffectExecutionAuthorization := do
  let reply ← perform (.authorize executor prepared)
  pure (verdict reply)

/-- Persist how an attempt ended. An inadmissible record raises before the store is reached. -/
def settle (claim : EffectClaim) (result : EffectExecutionResult) (state : EffectClaimState)
    (updatedAt : String) : EffectProgram EffectClaim :=
  match EffectClaim.modelValidate (completedFields claim result state updatedAt) with
  | .error errors => .raised (.validation errors)
  | .ok completed => do
      let stored ← perform (.claimUpdate completed)
      unwrapClaim stored

def cancelledResult : EffectExecutionResult :=
  .plain .cancelled "The effect was cancelled before it was applied."

def deniedResult : EffectExecutionResult :=
  .plain .failed "Authorization is no longer available; no external change was made."

def unconfirmedResult : EffectExecutionResult :=
  .plain .indeterminate "The effect outcome could not be confirmed."

/-- Record that the outcome of a claimed effect is unknown. -/
def settleIndeterminate (claim : EffectClaim) (result : EffectExecutionResult)
    (mint : Minted) : EffectProgram EffectDispatchResult := do
  let stored ← settle claim result .indeterminate mint.updatedAt
  pure (fromClaim stored .indeterminate)

/-- Record what an attempt to apply reported. After a claim, a raised error may have escaped
an effect. -/
def recordApplied (claim : EffectClaim) (mint : Minted) :
    Except EffectError EffectExecutionResult → EffectProgram EffectDispatchResult
  | .error _ => settleIndeterminate claim unconfirmedResult mint
  | .ok result =>
      if result.outcome = .indeterminate then settleIndeterminate claim result mint
      else do
        let stored ← settle claim result .completed mint.updatedAt
        pure (fromClaim stored .applied)

/-- Apply the prepared effect and record its outcome. -/
def applyAuthorized (executor : EffectExecutor) (prepared : PreparedEffect) (claim : EffectClaim)
    (mint : Minted) : EffectProgram EffectDispatchResult := do
  let reply ← perform (.apply executor prepared)
  recordApplied claim mint reply

/-- A denied effect is released and its claim completed as failed. -/
def refuseDenied (request : EffectDispatchRequest) (executor : EffectExecutor)
    (prepared : PreparedEffect) (claim : EffectClaim)
    (authorization : EffectExecutionAuthorization) (mint : Minted) :
    EffectProgram EffectDispatchResult := do
  abortSafely executor prepared
  let stored ← settle claim deniedResult .completed mint.updatedAt
  pure {
    status := .refused
    stageId := request.stageId
    revision := request.revision
    safeCode := authorization.safeCode
    claim := some stored
    outcome := stored.outcome }

/-- Everything after the cancellation check of a freshly created claim. -/
def dispatchUncancelled (request : EffectDispatchRequest) (executor : EffectExecutor)
    (prepared : PreparedEffect) (claim : EffectClaim) (mint : Minted) :
    EffectProgram EffectDispatchResult := do
  let authorization ← authorizePrepared executor prepared
  if authorization.allowed then applyAuthorized executor prepared claim mint
  else refuseDenied request executor prepared claim authorization mint

/-- Ask the caller whether the run was cancelled, when it supplied a check. -/
def checkCancelled (scope : EffectExecutionScope) (request : EffectDispatchRequest)
    (options : DispatchOptions) : EffectProgram Bool :=
  match options.cancellation with
  | some check => check scope request
  | none => pure false

/-- Publish a new claim to the caller's observer, when it supplied one. -/
def publishClaim (scope : EffectExecutionScope) (options : DispatchOptions)
    (claim : EffectClaim) : EffectProgram Unit :=
  match options.observer with
  | some observe => observe scope claim
  | none => pure ()

/-- Everything a dispatch does with the claim it has just created. -/
def dispatchClaimed (scope : EffectExecutionScope) (request : EffectDispatchRequest)
    (executor : EffectExecutor) (options : DispatchOptions) (prepared : PreparedEffect)
    (claim : EffectClaim) (mint : Minted) : EffectProgram EffectDispatchResult := do
  publishClaim scope options claim
  let cancelled ← checkCancelled scope request options
  if cancelled then
    abortSafely executor prepared
    let stored ← settle claim cancelledResult .cancelled mint.updatedAt
    pure (fromClaim stored .cancelled)
  else dispatchUncancelled request executor prepared claim mint

/-- Losing the race to another delivery releases only a reservation of one's own. -/
def dispatchLost (scope : EffectExecutionScope) (request : EffectDispatchRequest)
    (executor : EffectExecutor) (prepared : PreparedEffect) (claim : EffectClaim) :
    EffectProgram EffectDispatchResult :=
  if claim.preparedRef ≠ prepared.preparedRef then do
    abortSafely executor prepared
    pure (redelivered claim scope request)
  else pure (redelivered claim scope request)

/-- Acquire the claim and continue with it if this delivery created it. -/
def dispatchPrepared (scope : EffectExecutionScope) (request : EffectDispatchRequest)
    (executor : EffectExecutor) (options : DispatchOptions) (prepared : PreparedEffect)
    (mint : Minted) : EffectProgram EffectDispatchResult :=
  match EffectClaim.modelValidate (claimFields scope request prepared mint) with
  | .error errors => .raised (.validation errors)
  | .ok proposed => do
      let reply ← perform (.claimCreate proposed)
      let acquisition ← unwrapClaim reply
      if acquisition.created then
        dispatchClaimed scope request executor options prepared acquisition.claim mint
      else dispatchLost scope request executor prepared acquisition.claim

/-- The prepared effect observed another precondition than the approved one. -/
def preconditionDrifted (prepared : PreparedEffect) (expected : Option String) : Bool :=
  expected.isSome && prepared.observedPreconditionDigest != expected

/-- Check what was prepared against the request and its precondition. -/
def dispatchUnclaimed (scope : EffectExecutionScope) (request : EffectDispatchRequest)
    (executor : EffectExecutor) (options : DispatchOptions) (mint : Minted) :
    EffectProgram EffectDispatchResult := do
  match ← prepareRequest executor request with
  | none => pure (refused request "prepare_failed")
  | some prepared =>
      if prepared.request ≠ .dispatch request then
        abortSafely executor prepared
        pure (refused request "prepare_request_mismatch")
      else if preconditionDrifted prepared options.expectedPreconditionDigest then
        abortSafely executor prepared
        pure {
          status := .preconditionDrift
          stageId := request.stageId
          revision := request.revision
          safeCode := "precondition_drift"
          claim := none
          outcome := some .preconditionDrift }
      else dispatchPrepared scope request executor options prepared mint

/-- Prepare, claim, reauthorize, and apply once for an approved request. -/
def dispatch (scope : EffectExecutionScope) (request : EffectDispatchRequest)
    (executor : EffectExecutor) (options : DispatchOptions) (mint : Minted) :
    EffectProgram EffectDispatchResult :=
  if executor.kind ≠ request.executor then pure (refused request "executor_mismatch")
  else do
    match ← perform (.claimGet ⟨scope.orgId, request.executor, request.idempotencyKey⟩) with
    | some existing => pure (redelivered existing scope request)
    | none => dispatchUnclaimed scope request executor options mint

/-- What each outside call of one dispatch replies. No dispatch makes a call twice. -/
structure CallReplies where
  prepare : Except EffectError PreparedEffect
  observe : Except EffectError Unit := .ok ()
  cancellation : Except EffectError Bool := .ok false
  authorize : Except EffectError (Option EffectExecutionAuthorization)
  apply : Except EffectError EffectExecutionResult
  abort : Except EffectError Unit := .ok ()

/-- The replies as answers to operations; calls no dispatch makes are unavailable. -/
def CallReplies.external (replies : CallReplies) : (op : EffectOp) → op.Reply
  | .claimGet _ => none
  | .claimGetByClaimId _ _ => none
  | .claimCreate _ => .error .storage
  | .claimUpdate _ => .error .storage
  | .prepare _ _ => replies.prepare
  | .authorize _ _ => replies.authorize
  | .apply _ _ => replies.apply
  | .reconcile _ _ => .error (.external "unavailable")
  | .abort _ _ => replies.abort
  | .observe _ _ => replies.observe
  | .cancellation _ _ => replies.cancellation
  | .isCancelled _ _ => .error (.external "unavailable")
  | .resolveScope _ => .error (.external "unavailable")
  | .resolveExecutor _ _ => .error (.external "unavailable")
  | .digestReference _ _ => none
  | .listStageEvents _ _ => .error (.external "unavailable")
  | .appendStageEvent _ _ => .error (.external "unavailable")
  | .enqueueAfterDecision _ => .error (.external "unavailable")
  | .audit _ _ => .error (.external "unavailable")
  | .getRun _ _ => .error (.external "unavailable")
  | .listWriteEvents _ _ => .error (.external "unavailable")
  | .emitWriteEvent _ _ => .error (.external "unavailable")
  | .enqueueStageCommit _ => .error (.external "unavailable")

namespace Sample

def digest : String := "0123456789abcdef0123456789abcdef0123456789abcdef0123456789abcdef"

def stageId : String := "stg_0f8fad5b-d9cb-469f-a165-70867728950e"

def scope : EffectExecutionScope :=
  ⟨"org-1", "user-1", none, "run-1", "principal://users/user-1"⟩

/-- An approved connector write, for all rows or for the given ones. -/
def requestFields (rowKeys : Option (List String)) : EffectDispatchFields where
  stageId := stageId
  revision := 1
  idempotencyKey := "effect:1"
  executor := .mcp
  targetRef := "mcp://crm/contacts"
  targetDigest := digest
  proposalRef := "proposal://" ++ stageId ++ "/revisions/1"
  proposalContentRef := "artifact://content/1"
  proposalDigest := digest
  actor := .user
  decisionLedgerId := "rrun·002"
  rowKeys := rowKeys

theorem requestFields_errors (rowKeys : Option (List String)) :
    (requestFields rowKeys).errors =
      fieldErrors "row_keys" (optionalChecks rowKeys fun keys => [uniqueRowKeys keys]) := by
  have hstage : fieldErrors "stage_id" (identifierChecks stageId) = [] := by decide +kernel
  have hkey : fieldErrors "idempotency_key" (identifierChecks "effect:1") = [] := by decide +kernel
  have htarget : fieldErrors "target_ref" (dispatchReferenceChecks "mcp://crm/contacts") = [] := by
    decide +kernel
  have hdigest (field : String) : fieldErrors field [sha256Hex digest] = [] := by
    have hhex : isSha256Hex digest = true := by decide +kernel
    simp [fieldErrors_eq_nil_iff, sha256Hex, hhex]
  have hproposal : fieldErrors "proposal_ref"
      (dispatchReferenceChecks ("proposal://" ++ stageId ++ "/revisions/1")) = [] := by
    decide +kernel
  have hcontent : fieldErrors "proposal_content_ref"
      (dispatchReferenceChecks "artifact://content/1") = [] := by decide +kernel
  have hledger : fieldErrors "decision_ledger_id" (identifierChecks "rrun·002") = [] := by
    decide +kernel
  have hrevision : fieldErrors "revision" [positive 1] = [] := rfl
  simp only [EffectDispatchFields.errors, requestFields, hstage, hrevision, hkey, htarget, hdigest,
    hproposal, hcontent, hledger, List.nil_append]

def request : EffectDispatchRequest := ⟨requestFields none, requestFields_errors none⟩

def rowRequest : EffectDispatchRequest :=
  ⟨requestFields (some ["r1", "r2"]), (requestFields_errors _).trans (by decide)⟩

def executor : EffectExecutor := ⟨.mcp, {}⟩

def mint : Minted := ⟨"claim-1", "t0", "t0", "t1"⟩

/-- The executor prepares the request and answers with the given verdict and outcome. -/
def replies (request : EffectDispatchRequest) (allowed : Bool) (result : EffectExecutionResult) :
    CallReplies where
  prepare := .ok ⟨.dispatch request, some "prepared://crm/1", none⟩
  authorize := .ok (some ⟨allowed, "verdict"⟩)
  apply := .ok result

end Sample

end CopilotRuntime.Effects
