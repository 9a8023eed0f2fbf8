import CopilotRuntime.Effects.Vocabulary
import CopilotRuntime.Foundation.Json

/-!
# Stage contracts

The immutable parts of a staged effect, the folded stage state, the structural
ledger event, and the body-free command an approval enqueues.

## Implementation notes

Parts that are validated whenever they are constructed carry that proof. The
folded state is updated by copying, which runs no validator, so it is a plain
record.
-/

namespace CopilotRuntime.Effects

open Foundation

/-- The trusted run and owner a stage belongs to. -/
structure EffectStageScope where
  runId : String
  ownerRef : String
  deriving DecidableEq

def EffectStageScope.errors (s : EffectStageScope) : List FieldError :=
  fieldErrors "run_id" [⟨isStableKey s.runId, "run_id must be a stable opaque identifier"⟩] ++
  fieldErrors "owner_ref" [safeReferenceCheck "owner_ref" s.ownerRef]

/-- An actor kind and the opaque principal behind it. -/
structure EffectActorIdentity where
  actor : EffectActor
  principalRef : String
  deriving DecidableEq

def EffectActorIdentity.errors (a : EffectActorIdentity) : List FieldError :=
  fieldErrors "principal_ref" [safeReferenceCheck "principal_ref" a.principalRef]

structure EffectTarget where
  executor : EffectExecutorKind
  capability : String
  op : String
  targetRef : String
  preconditionRef : Option String
  displayLabel : String
  deriving DecidableEq

def targetReferenceCheck (value : String) : Check :=
  ⟨targetReference value, "effect references must be opaque URI references"⟩

def EffectTarget.errors (t : EffectTarget) : List FieldError :=
  fieldErrors "target_ref" [targetReferenceCheck t.targetRef] ++
  fieldErrors "precondition_ref" (optionalChecks t.preconditionRef fun ref =>
    [targetReferenceCheck ref])

/-- One immutable content and target snapshot of a staged effect. -/
structure EffectStageRevision where
  revision : Nat
  proposalKind : EffectProposalKind
  proposalRef : String
  proposalContentRef : Option String
  proposalDigest : String
  proposalMediaType : String
  targetRef : String
  targetDigest : String
  displayTarget : String
  preconditionRef : Option String
  preconditionDigest : Option String
  safeDiffRef : Option String
  author : EffectActorIdentity
  createdAt : String
  deriving DecidableEq

def optionalSafeReference (value : Option String) : List Check :=
  optionalChecks value fun ref => [safeReferenceCheck "reference" ref]

def immutableContentRefCheck (value : String) : Check :=
  ⟨immutableContentRef value, "proposal_content_ref must be an opaque safe URI reference"⟩

def mediaTypeCheck (value : String) : Check :=
  ⟨isMediaType value, "proposal_media_type must be a media type"⟩

namespace EffectStageRevision

def ownErrors (r : EffectStageRevision) : List FieldError :=
  fieldErrors "revision" [positive r.revision] ++
  fieldErrors "proposal_ref"
    [⟨(ProposalUriCodec.parse r.proposalRef).isSome, "not a valid proposal reference"⟩] ++
  fieldErrors "proposal_content_ref"
    (optionalChecks r.proposalContentRef fun ref => [immutableContentRefCheck ref]) ++
  fieldErrors "proposal_digest" [sha256Hex r.proposalDigest] ++
  fieldErrors "proposal_media_type" [mediaTypeCheck r.proposalMediaType] ++
  fieldErrors "target_ref" [safeReferenceCheck "reference" r.targetRef] ++
  fieldErrors "target_digest" [sha256Hex r.targetDigest] ++
  fieldErrors "precondition_ref" (optionalSafeReference r.preconditionRef) ++
  fieldErrors "precondition_digest"
    (optionalChecks r.preconditionDigest fun digest => [sha256Hex digest]) ++
  fieldErrors "safe_diff_ref" (optionalSafeReference r.safeDiffRef)

def errors (r : EffectStageRevision) : List FieldError :=
  match r.ownErrors with
  | [] => fieldErrors "" [refDigestPair "precondition" r.preconditionRef r.preconditionDigest]
  | found => found

/-- Validate a revision; media types are stored in lower case. -/
def modelValidate (r : EffectStageRevision) : Option EffectStageRevision :=
  if r.errors = [] then some { r with proposalMediaType := Text.lower r.proposalMediaType }
  else none

end EffectStageRevision

/-- A decision pinned to the exact proposal and target digests it was made on. -/
structure EffectStageDecision where
  revision : Nat
  decision : EffectDecisionKind
  actor : EffectActorIdentity
  proposalDigest : String
  targetDigest : String
  decidedAt : String
  ledgerId : String
  rowKeys : Option (List String)
  deriving DecidableEq

def EffectStageDecision.errors (d : EffectStageDecision) : List FieldError :=
  fieldErrors "revision" [positive d.revision] ++
  fieldErrors "proposal_digest" [sha256Hex d.proposalDigest] ++
  fieldErrors "target_digest" [sha256Hex d.targetDigest] ++
  fieldErrors "row_keys" (optionalChecks d.rowKeys fun keys => [uniqueRowKeys keys])

inductive RowDecision
  | approve | hold
  deriving DecidableEq

def RowDecision.value : RowDecision → String
  | .approve => "approve"
  | .hold => "hold"

def RowDecision.parse : String → Option RowDecision := ofText [.approve, .hold] value

/-- The latest posture of one row in a row-set revision. -/
structure EffectRowDecisionState where
  rowKey : String
  decision : RowDecision
  actor : EffectActorIdentity
  decidedAt : String
  ledgerId : String
  deriving DecidableEq

def EffectRowDecisionState.errors (r : EffectRowDecisionState) : List FieldError :=
  fieldErrors "row_key" [minLength 1 r.rowKey, maxLength 256 r.rowKey]

/-- The retained projection version bound to one stage revision. -/
structure EffectProjectionBinding where
  revision : Nat
  projectionRef : String
  proposalDigest : String
  targetDigest : String
  boundAt : String
  ledgerId : String
  deriving DecidableEq

def EffectProjectionBinding.errors (b : EffectProjectionBinding) : List FieldError :=
  fieldErrors "revision" [positive b.revision] ++
  fieldErrors "projection_ref" [safeReferenceCheck "projection_ref" b.projectionRef] ++
  fieldErrors "proposal_digest" [sha256Hex b.proposalDigest] ++
  fieldErrors "target_digest" [sha256Hex b.targetDigest]

inductive EffectStageStatus
  | proposed | held | revised | approved | rejected | cancelled | superseded
  deriving DecidableEq

/-- The folded state of one stage. The current revision is the last one. -/
structure EffectStageState where
  stageId : String
  scope : EffectStageScope
  operationId : String
  executor : EffectExecutorKind
  target : EffectTarget
  targetDigest : String
  displayTarget : String
  effectClass : EffectClass
  policySnapshotRef : String
  policy : EffectPolicy
  agentHold : Bool
  earlierRevisions : List EffectStageRevision
  currentRevision : EffectStageRevision
  status : EffectStageStatus
  projectionRequired : Bool
  projectionBinding : Option EffectProjectionBinding
  decision : Option EffectStageDecision
  rowDecisions : List EffectRowDecisionState
  supersededRevision : Option Nat
  createdAt : String
  updatedAt : String
  deriving DecidableEq

namespace EffectStageState

/-- All revisions, oldest first. -/
def revisions (s : EffectStageState) : List EffectStageRevision :=
  s.earlierRevisions ++ [s.currentRevision]

/-- A projection binding identifies the current revision and target. -/
def bindsCurrent (s : EffectStageState) (b : EffectProjectionBinding) : Bool :=
  b.revision == s.currentRevision.revision &&
    b.proposalDigest == s.currentRevision.proposalDigest && b.targetDigest == s.targetDigest

/-- The current revision can receive an approval decision. -/
def approvalReady (s : EffectStageState) : Bool :=
  !s.projectionRequired || s.projectionBinding.any s.bindsCurrent

/-- The oldest revision. -/
def initialRevision (s : EffectStageState) : EffectStageRevision :=
  s.earlierRevisions.headD s.currentRevision

/-- The checks a newly constructed state passes. -/
def consistencyChecks (s : EffectStageState) : List Check :=
  (s.revisions.flatMap fun r =>
    [⟨r.targetRef == s.target.targetRef && r.targetDigest == s.targetDigest &&
        r.displayTarget == s.displayTarget,
      "every revision must retain the immutable stage target"⟩,
    ⟨r.preconditionRef == s.initialRevision.preconditionRef &&
        r.preconditionDigest == s.initialRevision.preconditionDigest,
      "every revision must retain the immutable stage precondition"⟩,
    ⟨ProposalUriCodec.parse r.proposalRef == some ⟨s.stageId, r.revision⟩,
      "proposal_ref must identify its owning stage and revision"⟩]) ++
  [⟨s.decision.all fun d => d.revision == s.currentRevision.revision,
      "decision must bind the current revision"⟩,
    ⟨s.projectionBinding.all s.bindsCurrent,
      "projection binding must identify the current revision"⟩]

def errors (s : EffectStageState) : List FieldError :=
  let own :=
    fieldErrors "stage_id"
      [⟨(EffectStageIdCodec.parse s.stageId).isSome, "not a valid effect_stage_id"⟩] ++
    fieldErrors "operation_id"
      [⟨(OperationIdCodec.parse s.operationId).isSome, "not a valid operation_id"⟩] ++
    fieldErrors "target_digest" [sha256Hex s.targetDigest]
  match own with
  | [] => fieldErrors "" s.consistencyChecks
  | found => found

end EffectStageState

/-- One structural ledger event, as the fold reads it. -/
structure StructuralEvent where
  runId : String
  ledgerId : String
  sequenceNo : Nat
  eventType : String
  payload : List (String × Json)
  createdAt : String
  deriving DecidableEq

/-- The body-free command one approval enqueues. -/
structure EffectCommitCommand where
  runId : String
  stageId : String
  revision : Nat
  decisionLedgerId : String
  proposalDigest : String
  targetDigest : String
  idempotencyKey : String
  rowKeys : Option (List String)
  retryBasisLedgerId : Option String
  governedCapabilities : Option (List String)
  deriving DecidableEq

def EffectCommitCommand.errors (c : EffectCommitCommand) : List FieldError :=
  fieldErrors "run_id" [⟨isStableKey c.runId, "run_id must be a stable opaque identifier"⟩] ++
  fieldErrors "stage_id"
    [⟨(EffectStageIdCodec.parse c.stageId).isSome, "not a valid effect_stage_id"⟩] ++
  fieldErrors "revision" [positive c.revision] ++
  fieldErrors "proposal_digest" [sha256Hex c.proposalDigest] ++
  fieldErrors "target_digest" [sha256Hex c.targetDigest] ++
  fieldErrors "idempotency_key"
    [⟨isStableKey c.idempotencyKey, "idempotency_key must be a stable opaque key"⟩] ++
  fieldErrors "row_keys" (optionalChecks c.rowKeys fun keys => [uniqueRowKeys keys]) ++
  fieldErrors "retry_basis_ledger_id" (optionalChecks c.retryBasisLedgerId fun ref =>
    [⟨!ref.isEmpty && ref.length ≤ 255 && isOpaqueToken ref,
      "retry_basis_ledger_id must be an opaque identifier"⟩])

end CopilotRuntime.Effects
