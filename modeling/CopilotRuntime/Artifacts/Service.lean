import CopilotRuntime.Artifacts.MetadataStore
import CopilotRuntime.Effects.Identifiers

/-!
# The artifact service

Every way to create an artifact ends in one function. It puts the bytes, mints
the artifact and its events, asks the store to create it, and hands the events
it minted to the ledger publisher. A revision and a deletion end in the store;
what the outbox holds is published when the run is about to seal.

## Implementation notes

SHA-256 is a parameter: of the bytes, of a request and of the subject of an
event. What a call meets outside the store is its context: the runs and
conversations, the sources, the clock, the fresh id and whether the ledger
takes an event. A body is the text of its bytes.
-/

namespace CopilotRuntime.Artifacts

open Foundation

/-! ### Requests -/

inductive ArtifactPresentationPreference
  | auto | canvas | chatCard | none
  deriving DecidableEq

structure ArtifactCreateRequest where
  runId : String
  kind : ArtifactKind
  title : String
  mediaType : String
  suggestedFilename : Option String
  presentationPreference : ArtifactPresentationPreference
  accent : Option String
  expectedDigest : Option String
  idempotencyKey : String

structure ArtifactRevisionRequest where
  artifactId : String
  parentRevision : Nat
  expectedDigest : Option String
  idempotencyKey : String
  actingRunId : Option String
  parent_pos : 0 < parentRevision

structure ArtifactProvenance where
  author : ArtifactAuthor
  sourceRef : Option String

structure ArtifactPromotionRequest where
  runId : String
  sourceRef : String
  kind : ArtifactKind
  title : Option String
  mediaType : Option String
  suggestedFilename : Option String
  idempotencyKey : String

inductive ArtifactOperation
  | create | publish | promote | revise | delete
  deriving DecidableEq

/-- The durable idempotency route of an operation. -/
def Routes.forOperation : ArtifactOperation → String
  | .create => "POST:/v1/agent/runs/\x7brun_id\x7d/artifacts"
  | .revise => "POST:/v1/agent/artifacts/\x7bartifact_id\x7d/revisions"
  | .promote => "POST:/v1/agent/artifacts:promote"
  | .publish => "INTERNAL:artifact.publish"
  | .delete => "DELETE:/v1/agent/artifacts/\x7bartifact_id\x7d"

/-- A message, the result of an operation, or a payload. -/
def validateArtifactSourceRef (value : String) : Bool :=
  let tail := fun c => Text.isAsciiAlnum c || c == '.' || c == '_' || c == ':' || c == '-'
  let rest := fun (scheme : String) =>
    (Text.dropPrefix? value.toList scheme.toList).map String.ofList
  (rest "message://").any (Text.matchesToken Text.isAsciiAlnum tail 255) ||
    (rest "operation://").any (fun text => match Text.split text '/' with
      | [operationId, "result"] => (Effects.OperationIdCodec.parse operationId).isSome
      | _ => false) ||
    (rest "payload://").any
      (Text.matchesToken Text.isAsciiAlnum (fun c => tail c || c == '/') 1023)

def ArtifactIdCodec.parse : String → Option String := Effects.parsePrefixedUuid "art_"

def ArtifactContentRefCodec.format (artifactId : String) (revision : Nat) : String :=
  "artifact://" ++ artifactId ++ "/revisions/" ++ toString revision

/-! ### Digests -/

/-- What the id of an event digests. -/
structure PublicationKey where
  runId : Option String
  artifactId : String
  revision : Nat
  eventType : String
  ordinal : Nat

/-- What was asked for: the values a request digest is taken of. -/
inductive RequestValues
  | create (route runId : String) (kind : ArtifactKind) (title mediaType : String)
      (suggestedFilename : Option String) (preference : ArtifactPresentationPreference)
      (author : ArtifactAuthor) (sourceRef : Option String) (contentDigest : String)
      (createdAt : Option Int)
  | revise (route artifactId : String) (parentRevision : Nat) (author : ArtifactAuthor)
      (sourceRef : Option String) (contentDigest : String) (createdAt : Option Int)
  | delete (route artifactId : String)
  deriving DecidableEq

structure Digests where
  content : String → String
  request : RequestValues → String
  publication : PublicationKey → String

/-! ### What a call meets outside the store -/

structure RunRecord where
  userId : String
  conversationId : String
  traceId : String
  isTerminal : Bool

structure ArtifactSourceDescriptor where
  sourceRef : String
  contentDigest : String
  mediaType : Option String
  title : Option String
  suggestedFilename : Option String

structure ArtifactSourceResolver where
  resolveSource : ArtifactScope → String → Option ArtifactSourceDescriptor
  openSource : ArtifactScope → ArtifactSourceDescriptor → Option String

structure CallContext where
  getRun : String → String → Option RunRecord
  ownsConversation : String → String → String → Bool
  sources : Option ArtifactSourceResolver
  now : Int
  freshId : String
  appendApiEvent : Option (String → ArtifactLedgerEvent → Bool)

structure ArtifactLimits where
  maximumBytes : ArtifactKind → Nat
  maximumTitleBytes : Nat
  maximumTitleCharacters : Nat

/-- The launch limits. -/
def ArtifactLimits.default : ArtifactLimits where
  maximumBytes
    | .code => 10 * 1024 * 1024
    | .document => 20 * 1024 * 1024
    | .dataset => 100 * 1024 * 1024
    | .file => 250 * 1024 * 1024
  maximumTitleBytes := 16 * 1024
  maximumTitleCharacters := 240

inductive ArtifactServiceError
  | notFound
  | invalidSource
  | sealedRun
  | tooLarge
  | digestMismatch
  | blobUnavailable
  | value (message : String)
  | store (e : ArtifactStoreError)
  deriving DecidableEq

namespace CallContext

/-- The scope of a run of the caller. -/
def requireRunScope (ctx : CallContext) (orgId userId runId : String) :
    Except ArtifactServiceError { scope : ArtifactScope // scope.runId = some runId } :=
  match ctx.getRun orgId runId with
  | none => .error .notFound
  | some run =>
      if run.userId ≠ userId then .error .notFound
      else .ok ⟨
        { orgId, userId := run.userId, conversationId := run.conversationId, runId := some runId
          traceId := run.traceId, lane := .run, runIsTerminal := run.isTerminal
          lane_names_its_subject := by simp }, rfl⟩

/-- The scope of a conversation of the caller; it names no run. -/
def requireConversationScope (ctx : CallContext) (orgId userId conversationId : String) :
    Except ArtifactServiceError ArtifactScope :=
  if ctx.ownsConversation orgId userId conversationId then .ok
    { orgId, userId, conversationId, runId := none, traceId := conversationId
      lane := .conversation, runIsTerminal := false, lane_names_its_subject := by simp }
  else .error .notFound

end CallContext

/-! ### Bytes -/

structure ArtifactBlobWriteResult where
  contentDigest : String
  byteSize : Nat

/-- Put a body under its digest. -/
def putStream (d : Digests) (c : ArtifactPublicationCoordinator) (expectedDigest : Option String)
    (body : String) (byteLimit : Nat) :
    Except ArtifactServiceError ArtifactBlobWriteResult × ArtifactPublicationCoordinator :=
  if byteLimit < body.length then (.error .tooLarge, c)
  else
    let actual := d.content body
    if expectedDigest.any (· ≠ actual) then (.error .digestMismatch, c)
    else
      let c := c.restore actual
      let written := { contentDigest := actual, byteSize := body.length }
      match c.blobs.get? actual with
      | none => (.ok written, { c with blobs := c.blobs.set actual body })
      | some found => (if found = body then .ok written else .error .blobUnavailable, c)

/-! ### Where an artifact appears -/

/-- The decision for an artifact with a supported renderer, and its basis. -/
def PresentationPolicy.decide (preference : ArtifactPresentationPreference) (kind : ArtifactKind)
    (size : Nat) : String × String :=
  match preference with
  | .none => ("none", "explicit_artifact_none")
  | .canvas => ("canvas", "explicit_artifact_canvas")
  | .chatCard => ("chat_card", "explicit_artifact_chat_card")
  | .auto =>
      if kind ≠ .file then ("canvas", "durable_supported_artifact_auto")
      else if size ≤ 512 * 1024 then ("canvas", "bounded_file_artifact_auto")
      else ("chat_card", "artifact_raw_or_large_auto")

/-! ### Creation -/

/-- What an entry point hands to the creation. -/
structure Creation where
  scope : ArtifactScope
  request : ArtifactCreateRequest
  provenance : ArtifactProvenance
  body : String
  operation : ArtifactOperation
  promotedSourceRef : Option String
  artifactId : String
  createdAt : Option Int
  now : Int
  in_run : scope.runId = some request.runId
  creates : operation = .create ∨ operation = .publish ∨ operation = .promote
  promoted_matches : promotedSourceRef =
    if operation = .promote then provenance.sourceRef else none

namespace Creation

/-- The time an importer gives, else the clock. -/
def trustedCreatedAt (c : Creation) : Int := c.createdAt.getD c.now

/-- The values of the request digest. -/
def values (c : Creation) (contentDigest : String) : RequestValues :=
  .create (Routes.forOperation c.operation) c.request.runId c.request.kind c.request.title
    c.request.mediaType c.request.suggestedFilename c.request.presentationPreference
    c.provenance.author c.provenance.sourceRef contentDigest c.createdAt

end Creation

def eventType : ArtifactEventPayload → String
  | .created .. => "artifact.created"
  | .presentationDecided .. => "artifact.presentation_decided"
  | .promoted .. => "artifact.promoted"
  | .revised .. => "artifact.revised"

/-- An event with the id of its subject. -/
def ledgerEvent (d : Digests) (scope : ArtifactScope) (artifactId : String) (revision ordinal : Nat)
    (payload : ArtifactEventPayload) (createdAt : Int) : ArtifactLedgerEvent where
  eventId := "artevt_" ++
    d.publication ⟨scope.runId, artifactId, revision, eventType payload, ordinal⟩
  scope
  payload
  createdAt

namespace Creation

/-- The events of a creation, in order. -/
def payloads (c : Creation) (written : ArtifactBlobWriteResult) : List ArtifactEventPayload :=
  let presentation := PresentationPolicy.decide c.request.presentationPreference c.request.kind
    written.byteSize
  [.created c.artifactId c.request.kind 1 (ArtifactContentRefCodec.format c.artifactId 1)
      written.contentDigest c.provenance.author,
    .presentationDecided c.artifactId presentation.1 presentation.2] ++
    (c.promotedSourceRef.map fun sourceRef =>
      .promoted c.artifactId sourceRef c.request.kind 1).toList

def events (d : Digests) (c : Creation) (written : ArtifactBlobWriteResult) :
    List ArtifactLedgerEvent :=
  (c.payloads written).mapIdx fun ordinal payload =>
    ledgerEvent d c.scope c.artifactId 1 ordinal payload c.trustedCreatedAt

/-- The command that stores the artifact. -/
def command (d : Digests) (c : Creation) (written : ArtifactBlobWriteResult) :
    ArtifactCreateCommand where
  record :=
    { artifact :=
        { artifactId := c.artifactId, orgId := c.scope.orgId, userId := c.scope.userId
          conversationId := c.scope.conversationId, runId := c.request.runId
          kind := c.request.kind, title := c.request.title, mediaType := c.request.mediaType
          currentRevision := 1, createdBy := c.provenance.author, accent := c.request.accent
          createdAt := c.trustedCreatedAt, updatedAt := c.trustedCreatedAt, deletedAt := none }
      currentRevision :=
        { revision :=
            { artifactId := c.artifactId, revision := 1, parentRevision := none
              contentRef := ArtifactContentRefCodec.format c.artifactId 1
              contentDigest := written.contentDigest, byteSize := written.byteSize
              author := c.provenance.author, sourceRef := c.provenance.sourceRef
              createdAt := c.trustedCreatedAt }
          blobKey := written.contentDigest, rangeSupported := true, blob_matches := rfl }
      suggestedFilename := c.request.suggestedFilename }
  idempotency :=
    ⟨⟨c.scope.orgId, c.scope.userId, Routes.forOperation c.operation, c.request.idempotencyKey⟩,
      d.request (c.values written.contentDigest)⟩
  ledgerEvents := c.events d written
  record_matches := ⟨rfl, rfl⟩
  is_revision_one := rfl
  has_no_parent := rfl
  has_event := by simp [events, payloads]

end Creation

/-! ### Publication -/

/-- One event in the ledger of a run. -/
structure Publication where
  orgId : String
  runId : String
  eventId : String
  payload : ArtifactEventPayload
  deriving DecidableEq

/-- Append an event to the ledger of its run, if the run is there and the owner's. -/
def publish (ctx : CallContext) (event : ArtifactLedgerEvent) : Option Publication := do
  let appendApiEvent ← ctx.appendApiEvent
  let runId ← event.scope.runId
  let run ← ctx.getRun event.scope.orgId runId
  if run.userId = event.scope.userId ∧ appendApiEvent runId event then
    some ⟨event.scope.orgId, runId, event.eventId, event.payload⟩
  else none

/-- Hand the events over one by one; one that is refused does not stop the others. -/
def publishLedgerEvents (ctx : CallContext) (events : List ArtifactLedgerEvent) :
    List Publication :=
  events.filterMap (publish ctx)

/-- What a step answers and publishes, and the store it leaves. -/
structure Outcome where
  answer : Except ArtifactServiceError (Option ArtifactMutationResult)
  published : List Publication
  store : ArtifactMetadataStore

/-- Create an artifact in its scope. -/
def createInScope (d : Digests) (limits : ArtifactLimits) (ctx : CallContext)
    (s : ArtifactMetadataStore) (c : Creation) : Outcome :=
  if limits.maximumTitleCharacters < c.request.title.length then
    ⟨.error (.value "title exceeds maximum_title_characters"), [], s⟩
  else if limits.maximumTitleBytes < c.request.title.utf8ByteSize then
    ⟨.error (.value "title exceeds maximum_title_bytes"), [], s⟩
  else
    match putStream d s.coordinator c.request.expectedDigest c.body
        (limits.maximumBytes c.request.kind) with
    | (.error e, coordinator) => ⟨.error e, [], { s with coordinator }⟩
    | (.ok written, coordinator) =>
        let command := c.command d written
        match ArtifactMetadataStore.createArtifact { s with coordinator } command with
        | (.error e, s) => ⟨.error (.store e), [], s⟩
        | (.ok result, s) =>
            ⟨.ok (some result), publishLedgerEvents ctx command.ledgerEvents, s⟩

/-! ### Entry points of creation -/

section Entry
variable (ctx : CallContext) (orgId userId : String)

def createFromStream (request : ArtifactCreateRequest) (provenance : ArtifactProvenance)
    (body : String) : Except ArtifactServiceError Creation := do
  let scope ← ctx.requireRunScope orgId userId request.runId
  return { scope := scope.1, request, provenance, body, operation := .create
           promotedSourceRef := none, artifactId := ctx.freshId, createdAt := none
           now := ctx.now, in_run := scope.2, creates := .inl rfl, promoted_matches := rfl }

def publishFromStream (request : ArtifactCreateRequest) (provenance : ArtifactProvenance)
    (body : String) : Except ArtifactServiceError Creation := do
  let scope ← ctx.requireRunScope orgId userId request.runId
  return { scope := scope.1, request, provenance, body, operation := .publish
           promotedSourceRef := none, artifactId := ctx.freshId, createdAt := none
           now := ctx.now, in_run := scope.2, creates := .inr (.inl rfl), promoted_matches := rfl }

/-- Resolve a source in a scope and open it. -/
def resolveAndOpen (sources : ArtifactSourceResolver) (scope : ArtifactScope)
    (sourceRef : String) : Except ArtifactServiceError (ArtifactSourceDescriptor × String) :=
  match sources.resolveSource scope sourceRef with
  | none => .error .notFound
  | some descriptor =>
      match sources.openSource scope descriptor with
      | none => .error .notFound
      | some body => .ok (descriptor, body)

/-- The source resolver, for a reference of a source. -/
def requireSources (sourceRef : String) : Except ArtifactServiceError ArtifactSourceResolver :=
  match ctx.sources with
  | none => .error .notFound
  | some sources => if validateArtifactSourceRef sourceRef then .ok sources
      else .error .invalidSource

/-- Publish a source under the author a producer supplies. -/
def publishFromSource (request : ArtifactCreateRequest) (provenance : ArtifactProvenance)
    (sourceRef : String) : Except ArtifactServiceError Creation := do
  let sources ← requireSources ctx sourceRef
  let scope ← ctx.requireRunScope orgId userId request.runId
  let (_, body) ← resolveAndOpen sources scope.1 sourceRef
  return { scope := scope.1, request, provenance := { provenance with sourceRef := some sourceRef }
           body, operation := .publish, promotedSourceRef := none, artifactId := ctx.freshId
           createdAt := none, now := ctx.now, in_run := scope.2, creates := .inr (.inl rfl)
           promoted_matches := rfl }

/-- Create an artifact under an id the server derives from the draft. -/
def createDraftFromBytes (request : ArtifactCreateRequest) (provenance : ArtifactProvenance)
    (body artifactId : String) (createdAt : Option Int) :
    Except ArtifactServiceError Creation :=
  match ArtifactIdCodec.parse artifactId with
  | none => .error (.value "not a valid artifact_id")
  | some _ => do
      let scope ← ctx.requireRunScope orgId userId request.runId
      return { scope := scope.1, request, provenance, body, operation := .publish
               promotedSourceRef := none, artifactId, createdAt, now := ctx.now
               in_run := scope.2, creates := .inr (.inl rfl), promoted_matches := rfl }

/-- Import a source the user points at. -/
def promoteSource (request : ArtifactPromotionRequest) :
    Except ArtifactServiceError Creation := do
  let sources ← requireSources ctx request.sourceRef
  let scope ← ctx.requireRunScope orgId userId request.runId
  let (descriptor, body) ← resolveAndOpen sources scope.1 request.sourceRef
  .ok
    { scope := scope.1
      request :=
        { runId := request.runId, kind := request.kind
          title := (request.title.or descriptor.title).getD "Promoted artifact"
          mediaType := (request.mediaType.or descriptor.mediaType).getD "application/octet-stream"
          suggestedFilename := request.suggestedFilename.or descriptor.suggestedFilename
          presentationPreference := .auto, accent := none
          expectedDigest := some descriptor.contentDigest
          idempotencyKey := request.idempotencyKey }
      provenance := ⟨.imported, some descriptor.sourceRef⟩
      body, operation := .promote, promotedSourceRef := some descriptor.sourceRef
      artifactId := ctx.freshId, createdAt := none, now := ctx.now, in_run := scope.2
      creates := .inr (.inr rfl), promoted_matches := rfl }

end Entry

/-! ### Revisions and deletions -/

/-- An artifact of a user. -/
def getArtifact (s : ArtifactMetadataStore) (orgId userId artifactId : String)
    (includeDeleted : Bool) : Option ArtifactStoredRecord :=
  (s.records.get? (orgId, artifactId)).filter fun record =>
    record.artifact.userId == userId && (record.artifact.deletedAt.isNone || includeDeleted)

/-- What caused a revision: the conversation for the user's own, else the acting run. -/
def requireRevisionScope (ctx : CallContext) (orgId userId : String)
    (request : ArtifactRevisionRequest) (author : ArtifactAuthor)
    (current : ArtifactStoredRecord) : Except ArtifactServiceError ArtifactScope :=
  if author = .user then
    ctx.requireConversationScope orgId userId current.artifact.conversationId
  else do
    let scope ← ctx.requireRunScope orgId userId
      (request.actingRunId.getD current.artifact.runId)
    if request.actingRunId.isSome && scope.1.runIsTerminal then .error .sealedRun
    else .ok scope.1

/-- The command that stores a revision; only a run announces one. -/
def revisionCommand (d : Digests) (scope : ArtifactScope) (request : ArtifactRevisionRequest)
    (provenance : ArtifactProvenance) (written : ArtifactBlobWriteResult)
    (createdAt : Option Int) (now : Int) : ArtifactAppendCommand where
  scope
  artifactId := request.artifactId
  expectedRevision := request.parentRevision
  revision :=
    { revision :=
        { artifactId := request.artifactId, revision := request.parentRevision + 1
          parentRevision := some request.parentRevision
          contentRef := ArtifactContentRefCodec.format request.artifactId
            (request.parentRevision + 1)
          contentDigest := written.contentDigest, byteSize := written.byteSize
          author := provenance.author, sourceRef := provenance.sourceRef
          createdAt := createdAt.getD now }
      blobKey := written.contentDigest, rangeSupported := true, blob_matches := rfl }
  idempotency :=
    ⟨⟨scope.orgId, scope.userId, Routes.forOperation .revise, request.idempotencyKey⟩,
      d.request (.revise (Routes.forOperation .revise) request.artifactId request.parentRevision
        provenance.author provenance.sourceRef written.contentDigest createdAt)⟩
  ledgerEvent :=
    if scope.lane = .run then
      some (ledgerEvent d scope request.artifactId (request.parentRevision + 1) 0
        (.revised request.artifactId (request.parentRevision + 1) request.parentRevision
          (ArtifactContentRefCodec.format request.artifactId (request.parentRevision + 1))
          written.contentDigest provenance.author) (createdAt.getD now))
    else none
  expected_pos := request.parent_pos
  names_artifact := rfl
  parent_is_expected := rfl
  increments := rfl
  lane_matches := by split <;> simp_all

/-- Append a revision; its event, if it has one, waits in the outbox. -/
def appendRevisionFromStream (d : Digests) (limits : ArtifactLimits) (ctx : CallContext)
    (s : ArtifactMetadataStore) (orgId userId : String) (request : ArtifactRevisionRequest)
    (provenance : ArtifactProvenance) (body : String) (createdAt : Option Int) : Outcome :=
  match getArtifact s orgId userId request.artifactId false with
  | none => ⟨.error .notFound, [], s⟩
  | some current =>
      match requireRevisionScope ctx orgId userId request provenance.author current with
      | .error e => ⟨.error e, [], s⟩
      | .ok scope =>
          match putStream d s.coordinator request.expectedDigest body
              (limits.maximumBytes current.artifact.kind) with
          | (.error e, coordinator) => ⟨.error e, [], { s with coordinator }⟩
          | (.ok written, coordinator) =>
              match ArtifactMetadataStore.appendRevision { s with coordinator }
                  (revisionCommand d scope request provenance written createdAt ctx.now) with
              | (.error e, s) => ⟨.error (.store e), [], s⟩
              | (.ok result, s) => ⟨.ok (some result), [], s⟩

/-- The command that deletes an artifact. -/
def deletionCommand (d : Digests) (orgId userId artifactId idempotencyKey : String)
    (deletedAt : Int) : ArtifactSoftDeleteCommand where
  orgId
  userId
  artifactId
  deletedAt
  idempotency := ⟨⟨orgId, userId, Routes.forOperation .delete, idempotencyKey⟩,
    d.request (.delete (Routes.forOperation .delete) artifactId)⟩

def softDelete (d : Digests) (ctx : CallContext) (s : ArtifactMetadataStore)
    (orgId userId artifactId idempotencyKey : String) : Outcome :=
  match getArtifact s orgId userId artifactId true with
  | none => ⟨.error .notFound, [], s⟩
  | some _ =>
      match ArtifactMetadataStore.softDelete s
          (deletionCommand d orgId userId artifactId idempotencyKey ctx.now) with
      | (.error e, s) => ⟨.error (.store e), [], s⟩
      | (.ok none, s) => ⟨.error .notFound, [], s⟩
      | (.ok (some _), s) => ⟨.ok none, [], s⟩

/-! ### The outbox -/

def RuntimeArtifactEventCommand.publication (command : RuntimeArtifactEventCommand) :
    Publication :=
  ⟨command.orgId, command.runId, command.eventId, command.payload⟩

/-- Publish the pending events of a run before it seals. -/
def drainForRun (s : ArtifactMetadataStore) (orgId runId : String) : List Publication :=
  (s.pendingArtifactEvents.filter fun command =>
    command.runId == runId && command.orgId == orgId).map (·.publication)

/-! ### Steps -/

/-- The ways to create an artifact. -/
inductive CreateCall
  | createFromStream (request : ArtifactCreateRequest) (provenance : ArtifactProvenance)
      (body : String)
  | publishFromStream (request : ArtifactCreateRequest) (provenance : ArtifactProvenance)
      (body : String)
  | publishFromSource (request : ArtifactCreateRequest) (provenance : ArtifactProvenance)
      (sourceRef : String)
  | createDraftFromBytes (request : ArtifactCreateRequest) (provenance : ArtifactProvenance)
      (body artifactId : String) (createdAt : Option Int)
  | promoteSource (request : ArtifactPromotionRequest)

/-- What an entry point hands to the creation. -/
def CreateCall.creation (ctx : CallContext) (orgId userId : String) :
    CreateCall → Except ArtifactServiceError Creation
  | createFromStream request provenance body =>
      Artifacts.createFromStream ctx orgId userId request provenance body
  | publishFromStream request provenance body =>
      Artifacts.publishFromStream ctx orgId userId request provenance body
  | publishFromSource request provenance sourceRef =>
      Artifacts.publishFromSource ctx orgId userId request provenance sourceRef
  | createDraftFromBytes request provenance body artifactId createdAt =>
      Artifacts.createDraftFromBytes ctx orgId userId request provenance body artifactId createdAt
  | promoteSource request => Artifacts.promoteSource ctx orgId userId request

/-- The calls of the service, and what else happens to the outbox and the bytes. -/
inductive ServiceStep
  | create (ctx : CallContext) (orgId userId : String) (call : CreateCall)
  | revise (ctx : CallContext) (orgId userId : String) (request : ArtifactRevisionRequest)
      (provenance : ArtifactProvenance) (body : String) (createdAt : Option Int)
  | delete (ctx : CallContext) (orgId userId artifactId idempotencyKey : String)
  | drainForRun (orgId runId : String)
  | acknowledge (eventId : String) (status : OutboxStatus)
  | quarantineBlob (blobKey : String)

/-- What a step creates. -/
def ServiceStep.creation? : ServiceStep → Option Creation
  | .create ctx orgId userId call => (call.creation ctx orgId userId).toOption
  | _ => none

/-- One step of the service on the store. -/
def serve (d : Digests) (limits : ArtifactLimits) (s : ArtifactMetadataStore) :
    ServiceStep → Outcome
  | .create ctx orgId userId call =>
      match call.creation ctx orgId userId with
      | .error e => ⟨.error e, [], s⟩
      | .ok c => createInScope d limits ctx s c
  | .revise ctx orgId userId request provenance body createdAt =>
      appendRevisionFromStream d limits ctx s orgId userId request provenance body createdAt
  | .delete ctx orgId userId artifactId idempotencyKey =>
      softDelete d ctx s orgId userId artifactId idempotencyKey
  | .drainForRun orgId runId => ⟨.ok none, drainForRun s orgId runId, s⟩
  | .acknowledge eventId status => ⟨.ok none, [], s.acknowledgeArtifactEvent eventId status⟩
  | .quarantineBlob blobKey =>
      ⟨.ok none, [],
        match s.coordinator.blobs.get? blobKey with
        | none => s
        | some body =>
            { s with coordinator := { s.coordinator with
                blobs := s.coordinator.blobs.erase blobKey
                quarantine := s.coordinator.quarantine.set blobKey body } }⟩

/-- The store after a run of steps. -/
def servedAll (d : Digests) (limits : ArtifactLimits) (s : ArtifactMetadataStore)
    (steps : List ServiceStep) : ArtifactMetadataStore :=
  steps.foldl (fun s step => (serve d limits s step).store) s

end CopilotRuntime.Artifacts
