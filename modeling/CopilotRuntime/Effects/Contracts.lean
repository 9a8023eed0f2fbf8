import CopilotRuntime.Effects.Vocabulary

/-!
# Dispatch contracts

The values the dispatcher and its executors exchange. Each contract carries
the proof that its validators accept it, so an inadmissible value cannot be
built.
-/

namespace CopilotRuntime.Effects

open Foundation

/-- Verified facts of the run a command belongs to. -/
structure EffectExecutionScope where
  orgId : String
  userId : String
  conversationId : Option String
  runId : String
  ownerRef : String

def EffectExecutionScope.errors (s : EffectExecutionScope) : List FieldError :=
  fieldErrors "org_id" [minLength 1 s.orgId, maxLength 255 s.orgId] ++
  fieldErrors "user_id" [minLength 1 s.userId, maxLength 255 s.userId] ++
  fieldErrors "conversation_id" (optionalChecks s.conversationId fun id => [maxLength 255 id]) ++
  fieldErrors "run_id" [minLength 1 s.runId, maxLength 255 s.runId] ++
  fieldErrors "owner_ref" [minLength 1 s.ownerRef, maxLength maxReferenceLength s.ownerRef]

/-- The data of a dispatch request before validation. -/
structure EffectDispatchFields where
  stageId : String
  revision : Nat
  idempotencyKey : String
  executor : EffectExecutorKind
  targetRef : String
  targetDigest : String
  proposalRef : String
  proposalContentRef : String
  proposalDigest : String
  actor : EffectActor
  decisionLedgerId : String
  rowKeys : Option (List String)
  deriving DecidableEq

/-- A bounded identifier without blanks around it or separators inside. -/
def identifierChecks (value : String) : List Check :=
  [minLength 1 value, maxLength 255 value,
    ⟨isOpaqueToken value, "effect dispatch identifier must be an opaque token"⟩]

def dispatchReferenceChecks (value : String) : List Check :=
  [minLength 1 value, maxLength maxReferenceLength value,
    safeReferenceCheck "effect dispatch reference" value]

def EffectDispatchFields.errors (r : EffectDispatchFields) : List FieldError :=
  fieldErrors "stage_id" (identifierChecks r.stageId) ++
  fieldErrors "revision" [positive r.revision] ++
  fieldErrors "idempotency_key" (identifierChecks r.idempotencyKey) ++
  fieldErrors "target_ref" (dispatchReferenceChecks r.targetRef) ++
  fieldErrors "target_digest" [sha256Hex r.targetDigest] ++
  fieldErrors "proposal_ref" (dispatchReferenceChecks r.proposalRef) ++
  fieldErrors "proposal_content_ref" (dispatchReferenceChecks r.proposalContentRef) ++
  fieldErrors "proposal_digest" [sha256Hex r.proposalDigest] ++
  fieldErrors "decision_ledger_id" (identifierChecks r.decisionLedgerId) ++
  fieldErrors "row_keys" (optionalChecks r.rowKeys fun keys => [uniqueRowKeys keys])

/-- The exact server-derived facts one dispatch consumes. -/
structure EffectDispatchRequest extends EffectDispatchFields where
  valid : toEffectDispatchFields.errors = []
  deriving DecidableEq

/-- What an executor may have prepared. Dispatch only ever applies the first kind. -/
inductive EffectPreparedRequest
  | dispatch (request : EffectDispatchRequest)
  | execution
  deriving DecidableEq

/-- The prepared handle an executor returns. -/
structure PreparedEffect where
  request : EffectPreparedRequest
  preparedRef : Option String
  observedPreconditionDigest : Option String

/-- The live authorization verdict immediately before an effect. -/
structure EffectExecutionAuthorization where
  allowed : Bool
  safeCode : String

structure WriteAppliedRowResult where
  rowKey : String
  outcome : RowOutcome
  detail : Option String
  deriving DecidableEq

/-- The data of an execution result before validation. -/
structure EffectExecutionFields where
  outcome : EffectOutcome
  receiptRef : Option String
  resultDigest : Option String
  retryable : Bool
  safeMessage : Option String
  rowResults : Option (List WriteAppliedRowResult)

def receiptRefCheck (value : String) : Check :=
  ⟨(EffectReceiptRefCodec.parse value).isSome, "not a valid effect receipt reference"⟩

def EffectExecutionFields.errors (r : EffectExecutionFields) : List FieldError :=
  fieldErrors "receipt_ref" (optionalChecks r.receiptRef fun ref => [receiptRefCheck ref]) ++
  fieldErrors "result_digest" (optionalChecks r.resultDigest fun digest => [sha256Hex digest])

/-- What an executor reports about one attempted effect. -/
structure EffectExecutionResult extends EffectExecutionFields where
  valid : toEffectExecutionFields.errors = []

/-- A result that carries no reference, digest or row outcomes is always valid. -/
def EffectExecutionResult.plain (outcome : EffectOutcome) (safeMessage : String) :
    EffectExecutionResult where
  outcome := outcome
  receiptRef := none
  resultDigest := none
  retryable := false
  safeMessage := some safeMessage
  rowResults := none
  valid := rfl

structure EffectExecutorCapabilities where
  supportsPrepare : Bool := true
  supportsReconcile : Bool := false
  nativeIdempotency : Bool := false
  preparePerformsMutation : Bool := false

/-- The static declaration of one executor. Its calls are awaited operations. -/
structure EffectExecutor where
  kind : EffectExecutorKind
  capabilities : EffectExecutorCapabilities

end CopilotRuntime.Effects
