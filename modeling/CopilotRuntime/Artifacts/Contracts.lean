import CopilotRuntime.Foundation.Dict

/-!
# Artifacts and the commands of their repository

An artifact is a numbered chain of immutable revisions. The commands of its
repository carry what they are about to store, the key that makes a retry
recognisable, and the ledger events that announce the change.

## Implementation notes

Timestamps are instants: their text is written from an instant and read back
to it. A reference edge is known by the tuple its id digests.
-/

namespace CopilotRuntime.Artifacts

open Foundation

/-! ### Artifacts -/

inductive ArtifactKind
  | code | document | dataset | file
  deriving DecidableEq

inductive ArtifactAuthor
  | model | subagent | user | system | imported
  deriving DecidableEq

/-- What caused a mutation: activity of a run, or a user acting on the conversation. -/
inductive ArtifactCausalLane
  | run | conversation
  deriving DecidableEq

structure Artifact where
  artifactId : String
  orgId : String
  userId : String
  conversationId : String
  runId : String
  kind : ArtifactKind
  title : String
  mediaType : String
  currentRevision : Nat
  createdBy : ArtifactAuthor
  accent : Option String
  createdAt : Int
  updatedAt : Int
  deletedAt : Option Int
  deriving DecidableEq

structure ArtifactRevision where
  artifactId : String
  revision : Nat
  parentRevision : Option Nat
  contentRef : String
  contentDigest : String
  byteSize : Nat
  author : ArtifactAuthor
  sourceRef : Option String
  createdAt : Int
  deriving DecidableEq

/-- A revision with the key of its bytes, which is their digest. -/
structure ArtifactStoredRevision where
  revision : ArtifactRevision
  blobKey : String
  rangeSupported : Bool
  blob_matches : revision.contentDigest = blobKey
  deriving DecidableEq

structure ArtifactStoredRecord where
  artifact : Artifact
  currentRevision : ArtifactStoredRevision
  suggestedFilename : Option String
  deriving DecidableEq

/-- The record's artifact is at the revision the record holds. -/
def ArtifactStoredRecord.CurrentRevisionMatches (r : ArtifactStoredRecord) : Prop :=
  r.currentRevision.revision.artifactId = r.artifact.artifactId ∧
    r.currentRevision.revision.revision = r.artifact.currentRevision

instance (r : ArtifactStoredRecord) : Decidable r.CurrentRevisionMatches := by
  unfold ArtifactStoredRecord.CurrentRevisionMatches
  infer_instance

structure ArtifactMutationResult where
  record : ArtifactStoredRecord
  replayed : Bool

/-! ### Ledger events -/

/-- Whose mutation it is, and what it belongs to. -/
structure ArtifactScope where
  orgId : String
  userId : String
  conversationId : String
  runId : Option String
  traceId : String
  lane : ArtifactCausalLane
  runIsTerminal : Bool
  lane_names_its_subject : runId.isSome ↔ lane = .run

/-- What an artifact event says. -/
inductive ArtifactEventPayload
  | created (artifactId : String) (kind : ArtifactKind) (revision : Nat)
      (contentRef contentDigest : String) (author : ArtifactAuthor)
  | presentationDecided (artifactId decision basis : String)
  | promoted (artifactId sourceRef : String) (kind : ArtifactKind) (revision : Nat)
  | revised (artifactId : String) (revision parentRevision : Nat)
      (contentRef contentDigest : String) (author : ArtifactAuthor)
  deriving DecidableEq

structure ArtifactLedgerEvent where
  eventId : String
  scope : ArtifactScope
  payload : ArtifactEventPayload
  createdAt : Int

/-- The durable publication of one event in its run's ledger. -/
structure RuntimeArtifactEventCommand where
  eventId : String
  orgId : String
  userId : String
  runId : String
  conversationId : String
  traceId : String
  payload : ArtifactEventPayload
  createdAt : Int
  deriving DecidableEq

inductive OutboxStatus
  | pending | completed | deadLetter
  deriving DecidableEq

structure OutboxRow where
  id : String
  aggregateId : String
  orgId : String
  command : RuntimeArtifactEventCommand
  status : OutboxStatus
  deriving DecidableEq

/-- The outbox row of an event; an event outside any run has none. -/
def artifactEventOutboxRow (event : ArtifactLedgerEvent) (artifactId : String) :
    Option OutboxRow :=
  event.scope.runId.map fun runId =>
    { id := event.eventId
      aggregateId := artifactId
      orgId := event.scope.orgId
      command :=
        { eventId := event.eventId
          orgId := event.scope.orgId
          userId := event.scope.userId
          runId
          conversationId := event.scope.conversationId
          traceId := event.scope.traceId
          payload := event.payload
          createdAt := event.createdAt }
      status := .pending }

/-! ### Commands -/

/-- Where and under which key a retry of a command is looked up. -/
structure IdempotencyKey where
  orgId : String
  userId : String
  route : String
  key : String
  deriving DecidableEq

structure ArtifactIdempotencyBinding where
  key : IdempotencyKey
  requestDigest : String

/-- Store an artifact at its first revision. -/
structure ArtifactCreateCommand where
  record : ArtifactStoredRecord
  idempotency : ArtifactIdempotencyBinding
  ledgerEvents : List ArtifactLedgerEvent
  record_matches : record.CurrentRevisionMatches
  is_revision_one : record.artifact.currentRevision = 1
  has_no_parent : record.currentRevision.revision.parentRevision = none
  has_event : ledgerEvents ≠ []

/-- Store the revision after an expected one. -/
structure ArtifactAppendCommand where
  scope : ArtifactScope
  artifactId : String
  expectedRevision : Nat
  revision : ArtifactStoredRevision
  idempotency : ArtifactIdempotencyBinding
  ledgerEvent : Option ArtifactLedgerEvent
  expected_pos : 0 < expectedRevision
  names_artifact : revision.revision.artifactId = artifactId
  parent_is_expected : revision.revision.parentRevision = some expectedRevision
  increments : revision.revision.revision = expectedRevision + 1
  lane_matches : ledgerEvent.isSome ↔ scope.lane = .run

structure ArtifactSoftDeleteCommand where
  orgId : String
  userId : String
  artifactId : String
  deletedAt : Int
  idempotency : ArtifactIdempotencyBinding

/-- The part of an organisation's artifacts that retention works on. -/
structure ArtifactRetentionScope where
  orgId : String
  userId : Option String
  conversationId : Option String
  protectedConversationIds : List String

def ArtifactRetentionScope.protectsConversation (scope : ArtifactRetentionScope)
    (conversationId : String) : Bool :=
  scope.protectedConversationIds.contains conversationId

/-- The record lies in the scope and is not protected. -/
def ArtifactRetentionScope.covers (scope : ArtifactRetentionScope) (a : Artifact) : Bool :=
  scope.userId.all (· == a.userId) && scope.conversationId.all (· == a.conversationId) &&
    !scope.protectsConversation a.conversationId

end CopilotRuntime.Artifacts
