import CopilotRuntime.Artifacts.Contracts
import Mathlib.Data.List.Sort
import Mathlib.Data.Prod.Lex
import Mathlib.Data.String.Basic

/-!
# The artifact metadata store

Artifacts, revisions, idempotency rows, the outbox and the lifecycle evidence
are separate tables that six commands update together. Every check of a
command precedes its first write to a table; only the bytes may be brought back
from quarantine before the last check.

## Implementation notes

Every command runs under one lock without awaiting anything, so it is one
step. Deleted bytes wait in quarantine; who puts them there is not part of the
store. Reference edges of other owners than artifacts are left out.
-/

namespace CopilotRuntime.Artifacts

open Foundation

/-! ### Bytes and references -/

/-- Ownership that outlives the metadata of a digest. -/
structure ArtifactGcCandidateScope where
  orgId : String
  userId : Option String
  conversationId : Option String
  deriving DecidableEq

structure ArtifactCandidateState where
  provenanceOrgId : Option String
  candidateSince : Int
  scopes : List ArtifactGcCandidateScope

/-- The bytes of all blobs, those in quarantine, and those no metadata refers to any more. -/
structure ArtifactPublicationCoordinator where
  blobs : Dict String String
  quarantine : Dict String String
  candidates : Dict String ArtifactCandidateState

namespace ArtifactPublicationCoordinator

/-- Bring quarantined bytes back. -/
def restore (c : ArtifactPublicationCoordinator) (blobKey : String) :
    ArtifactPublicationCoordinator :=
  match c.quarantine.get? blobKey with
  | none => c
  | some body =>
      { c with quarantine := c.quarantine.erase blobKey, blobs := c.blobs.set blobKey body }

def isActive (c : ArtifactPublicationCoordinator) (blobKey : String) : Bool :=
  (c.blobs.get? blobKey).isSome

def cancelCandidate (c : ArtifactPublicationCoordinator) (blobKey : String) :
    ArtifactPublicationCoordinator :=
  { c with candidates := c.candidates.erase blobKey }

def scopeKey (s : ArtifactGcCandidateScope) : String ×ₗ String ×ₗ String :=
  toLex (s.orgId, toLex (s.userId.getD "", s.conversationId.getD ""))

/-- All scopes of two lists, each once and in order. -/
def mergeScopes (a b : List ArtifactGcCandidateScope) : List ArtifactGcCandidateScope :=
  (a ++ b).dedup.insertionSort fun s t => scopeKey s ≤ scopeKey t

/-- Record that nothing refers to a digest any more, keeping the oldest clock. -/
def recordCandidate (c : ArtifactPublicationCoordinator) (blobKey : String)
    (provenanceOrgId : Option String) (candidateSince : Int)
    (scopes : List ArtifactGcCandidateScope) : ArtifactPublicationCoordinator :=
  let current := c.candidates.get? blobKey
  { c with
    candidates := c.candidates.set blobKey
      { provenanceOrgId := (current.bind (·.provenanceOrgId)).or provenanceOrgId
        candidateSince := current.elim candidateSince fun s => min s.candidateSince candidateSince
        scopes := mergeScopes (current.elim [] (·.scopes)) scopes } }

end ArtifactPublicationCoordinator

/-- What the id of a revision's edge digests. -/
structure EdgeKey where
  orgId : String
  artifactId : String
  revision : Nat
  blobKey : String
  deriving DecidableEq

structure ArtifactReferenceEdge where
  key : EdgeKey
  userId : String
  createdAt : Int
  deriving DecidableEq

/-! ### The tables -/

structure ArtifactDeletionInventory where
  artifactRows : Nat
  revisionRows : Nat
  idempotencyRows : Nat
  referenceEdgeRows : Nat
  gcCandidateRows : Nat
  quarantinedDigestRows : Nat
  artifactIds : List String
  blobKeys : List String

structure ArtifactLifecycleEvidence where
  evidenceId : String
  scope : ArtifactRetentionScope
  reason : String
  createdAt : Int
  tombstonedArtifactIds : List String
  inventoryBefore : ArtifactDeletionInventory

structure ArtifactMetadataStore where
  records : Dict (String × String) ArtifactStoredRecord
  revisions : Dict (String × String × Nat) ArtifactStoredRevision
  idempotency : Dict IdempotencyKey (String × Option ArtifactMutationResult)
  idempotencyArtifact : Dict IdempotencyKey String
  outbox : Dict String OutboxRow
  lifecycleEvidence : Dict (String × String) ArtifactLifecycleEvidence
  edges : Dict EdgeKey ArtifactReferenceEdge
  coordinator : ArtifactPublicationCoordinator

inductive ArtifactStoreError
  | conflict
  | idempotencyConflict
  | blobUnavailable
  | edgeExists
  | validation
  deriving DecidableEq

namespace ArtifactMetadataStore

def initial : ArtifactMetadataStore :=
  ⟨Dict.empty, Dict.empty, Dict.empty, Dict.empty, Dict.empty, Dict.empty, Dict.empty,
    ⟨Dict.empty, Dict.empty, Dict.empty⟩⟩

/-! ### Shared steps of the commands -/

/-- The earlier result under a key, if there is one; the digests must agree. -/
def replay (s : ArtifactMetadataStore) (binding : ArtifactIdempotencyBinding) :
    Except ArtifactStoreError (Option (Option ArtifactMutationResult)) :=
  match s.idempotency.get? binding.key with
  | none => .ok none
  | some (requestDigest, result) =>
      if requestDigest = binding.requestDigest then
        .ok (some (result.map fun r => { r with replayed := true }))
      else .error .idempotencyConflict

/-- Remember the result of a command under its key. -/
def bind (s : ArtifactMetadataStore) (binding : ArtifactIdempotencyBinding)
    (result : Option ArtifactMutationResult) (artifactId : String) : ArtifactMetadataStore :=
  { s with
    idempotency := s.idempotency.set binding.key (binding.requestDigest, result)
    idempotencyArtifact := s.idempotencyArtifact.set binding.key artifactId }

/-- No row of another content stands under the id of one of the rows. -/
def outboxAccepts (s : ArtifactMetadataStore) (rows : List OutboxRow) : Bool :=
  rows.all fun row => (s.outbox.get? row.id).all (· == row)

def insertOutbox (outbox : Dict String OutboxRow) (rows : List OutboxRow) :
    Dict String OutboxRow :=
  rows.foldl (fun outbox row => outbox.set row.id row) outbox

def edgeAccepts (s : ArtifactMetadataStore) (edge : ArtifactReferenceEdge) : Bool :=
  (s.edges.get? edge.key).all (· == edge)

/-- Store a reference edge to bytes that are there. -/
def putEdge (s : ArtifactMetadataStore) (edge : ArtifactReferenceEdge) :
    Except ArtifactStoreError Unit × ArtifactMetadataStore :=
  if !s.edgeAccepts edge then (.error .edgeExists, s)
  else
    let s := { s with coordinator := s.coordinator.restore edge.key.blobKey }
    if !s.coordinator.isActive edge.key.blobKey then (.error .blobUnavailable, s)
    else (.ok (), { s with edges := s.edges.set edge.key edge })

/-- Write a record with its new revision, its edge and its events, and remember the result. -/
def commit (s : ArtifactMetadataStore) (binding : ArtifactIdempotencyBinding)
    (record : ArtifactStoredRecord) (orgId artifactId : String) (rows : List OutboxRow)
    (edge : ArtifactReferenceEdge) :
    Except ArtifactStoreError ArtifactMutationResult × ArtifactMetadataStore :=
  if !s.outboxAccepts rows || !s.edgeAccepts edge then (.error .conflict, s)
  else
    let s := { s with coordinator := s.coordinator.restore edge.key.blobKey }
    if !s.coordinator.isActive edge.key.blobKey then (.error .blobUnavailable, s)
    else
      let s := { s with
        outbox := insertOutbox s.outbox rows
        records := s.records.set (orgId, artifactId) record
        revisions := s.revisions.set (orgId, artifactId, edge.key.revision)
          record.currentRevision }
      match s.putEdge edge with
      | (.error e, s) => (.error e, s)
      | (.ok _, s) =>
          let s := { s with coordinator := s.coordinator.cancelCandidate edge.key.blobKey }
          let result := { record, replayed := false }
          (.ok result, s.bind binding (some result) artifactId)

/-! ### Commands -/

/-- Store a new artifact with its first revision. -/
def createArtifact (s : ArtifactMetadataStore) (command : ArtifactCreateCommand) :
    Except ArtifactStoreError ArtifactMutationResult × ArtifactMetadataStore :=
  match s.replay command.idempotency with
  | .error e => (.error e, s)
  | .ok (some none) => (.error .conflict, s)
  | .ok (some (some result)) => (.ok result, s)
  | .ok none =>
      let artifact := command.record.artifact
      let revision := command.record.currentRevision
      if (s.records.get? (artifact.orgId, artifact.artifactId)).isSome then (.error .conflict, s)
      else
        match command.ledgerEvents.mapM (artifactEventOutboxRow · artifact.artifactId) with
        | none => (.error .validation, s)
        | some rows =>
            s.commit command.idempotency command.record artifact.orgId artifact.artifactId rows
              { key := ⟨artifact.orgId, artifact.artifactId, 1, revision.blobKey⟩
                userId := artifact.userId
                createdAt := revision.revision.createdAt }

/-- The record of an artifact once a revision is appended to it. -/
def appended (current : ArtifactStoredRecord) (revision : ArtifactStoredRevision) :
    ArtifactStoredRecord :=
  { current with
    artifact := { current.artifact with
      currentRevision := revision.revision.revision
      updatedAt := revision.revision.createdAt }
    currentRevision := revision }

/-- Append a revision to an artifact that is at the expected one. -/
def appendRevision (s : ArtifactMetadataStore) (command : ArtifactAppendCommand) :
    Except ArtifactStoreError ArtifactMutationResult × ArtifactMetadataStore :=
  match s.replay command.idempotency with
  | .error e => (.error e, s)
  | .ok (some none) => (.error .conflict, s)
  | .ok (some (some result)) => (.ok result, s)
  | .ok none =>
      match s.records.get? (command.scope.orgId, command.artifactId) with
      | none => (.error .conflict, s)
      | some current =>
          if current.artifact.userId ≠ command.scope.userId ∨
              current.artifact.deletedAt.isSome ∨
              current.artifact.currentRevision ≠ command.expectedRevision then
            (.error .conflict, s)
          else
            match command.ledgerEvent.toList.mapM
                (artifactEventOutboxRow · command.artifactId) with
            | none => (.error .validation, s)
            | some rows =>
                s.commit command.idempotency (appended current command.revision)
                  command.scope.orgId command.artifactId rows
                  { key := ⟨command.scope.orgId, command.artifactId,
                      command.revision.revision.revision, command.revision.blobKey⟩
                    userId := command.scope.userId
                    createdAt := command.revision.revision.createdAt }

/-- The record of an artifact once it is deleted. -/
def tombstoned (record : ArtifactStoredRecord) (deletedAt : Int) : ArtifactStoredRecord :=
  { record with
    artifact := { record.artifact with deletedAt := some deletedAt, updatedAt := deletedAt } }

/-- Mark an artifact as deleted; without one to delete there is no record to return. -/
def softDelete (s : ArtifactMetadataStore) (command : ArtifactSoftDeleteCommand) :
    Except ArtifactStoreError (Option ArtifactStoredRecord) × ArtifactMetadataStore :=
  match s.replay command.idempotency with
  | .error e => (.error e, s)
  | .ok (some result) => (.ok (result.map (·.record)), s)
  | .ok none =>
      match s.records.get? (command.orgId, command.artifactId) with
      | none => (.ok none, s.bind command.idempotency none command.artifactId)
      | some current =>
          if current.artifact.userId ≠ command.userId ∨ current.artifact.deletedAt.isSome then
            (.ok none, s.bind command.idempotency none command.artifactId)
          else
            let record := tombstoned current command.deletedAt
            let s := { s with records := s.records.set (command.orgId, command.artifactId) record }
            (.ok (some record),
              s.bind command.idempotency (some ⟨record, false⟩) command.artifactId)

/-! ### Retention -/

structure ArtifactRetentionPurgeResult where
  purgedArtifactIds : List String
  eligibleCandidates : List (String × Int)

/-- The deleted artifacts a purge takes, oldest first. -/
def victims (s : ArtifactMetadataStore) (scope : ArtifactRetentionScope) (deletedBefore : Int)
    (limit : Nat) : List ((String × String) × ArtifactStoredRecord) :=
  ((s.records.entries.filter fun entry =>
      entry.1.1 == scope.orgId && entry.2.artifact.deletedAt.any (· < deletedBefore) &&
        scope.covers entry.2.artifact).insertionSort fun a b =>
      toLex (a.2.artifact.deletedAt.getD 0, a.1.2) ≤
        toLex (b.2.artifact.deletedAt.getD 0, b.1.2)).take limit

/-- A digest with the time from which it may be collected and the artifact that held it. -/
structure ReleasedDigest where
  blobKey : String
  since : Int
  scope : ArtifactGcCandidateScope

/-- The digests of all revisions of some artifacts. -/
def releasedDigests (s : ArtifactMetadataStore) (orgId : String) (artifactIds : List String) :
    List ReleasedDigest :=
  s.revisions.entries.filterMap fun entry =>
    if entry.1.1 == orgId && artifactIds.contains entry.1.2.1 then
      (s.records.get? (entry.1.1, entry.1.2.1)).map fun record =>
        { blobKey := entry.2.blobKey
          since := record.artifact.deletedAt.getD 0
          scope := ⟨record.artifact.orgId, some record.artifact.userId,
            some record.artifact.conversationId⟩ }
    else none

/-- Each released digest with its oldest time. -/
def digestSince (released : List ReleasedDigest) : Dict String Int :=
  released.foldl (fun since r =>
    since.set r.blobKey ((since.get? r.blobKey).elim r.since (min · r.since))) Dict.empty

/-- Forget the tables' rows of some artifacts. -/
def forget (s : ArtifactMetadataStore) (orgId : String) (artifactIds : List String) :
    ArtifactMetadataStore :=
  let kept := fun key : IdempotencyKey =>
    !(key.orgId == orgId && (s.idempotencyArtifact.get? key).any artifactIds.contains)
  { s with
    records := s.records.restrict fun key => !(key.1 == orgId && artifactIds.contains key.2)
    revisions := s.revisions.restrict fun key =>
      !(key.1 == orgId && artifactIds.contains key.2.1)
    edges := s.edges.restrict fun key =>
      !(key.orgId == orgId && artifactIds.contains key.artifactId)
    idempotency := s.idempotency.restrict kept
    idempotencyArtifact := s.idempotencyArtifact.restrict kept }

/-- Record every released digest as collectable. -/
def recordCandidates (c : ArtifactPublicationCoordinator) (orgId : String)
    (released : List ReleasedDigest) : ArtifactPublicationCoordinator :=
  (digestSince released).entries.foldl (fun c entry =>
    c.recordCandidate entry.1 (some orgId) entry.2
      ((released.filter (·.blobKey == entry.1)).map (·.scope))) c

/-- Remove deleted artifacts with everything stored about them, and release their bytes. -/
def purgeTombstones (s : ArtifactMetadataStore) (scope : ArtifactRetentionScope)
    (deletedBefore : Int) (limit : Nat) : ArtifactRetentionPurgeResult × ArtifactMetadataStore :=
  let artifactIds := (s.victims scope deletedBefore limit).map (·.1.2)
  let released := s.releasedDigests scope.orgId artifactIds
  let kept := s.forget scope.orgId artifactIds
  ({ purgedArtifactIds := artifactIds.dedup.insertionSort (· ≤ ·)
     eligibleCandidates := (digestSince released).entries.insertionSort fun a b =>
       toLex (a.2, a.1) ≤ toLex (b.2, b.1) },
    { kept with coordinator := recordCandidates kept.coordinator scope.orgId released })

def matchesScope (record : ArtifactStoredRecord) (scope : ArtifactRetentionScope) : Bool :=
  record.artifact.orgId == scope.orgId && scope.covers record.artifact

/-- What retention would find in a scope. -/
def deletionInventory (s : ArtifactMetadataStore) (scope : ArtifactRetentionScope) :
    ArtifactDeletionInventory :=
  let records := s.records.values.filter (matchesScope · scope)
  let artifactIds := (records.map (·.artifact.artifactId)).dedup
  let revisions := s.revisions.entries.filter fun entry =>
    entry.1.1 == scope.orgId && artifactIds.contains entry.1.2.1
  let idempotencyKeys := s.idempotencyArtifact.entries.filter fun entry =>
    entry.1.orgId == scope.orgId && artifactIds.contains entry.2
  let edges := s.edges.values.filter fun edge =>
    edge.key.orgId == scope.orgId && (artifactIds.contains edge.key.artifactId ||
      (scope.conversationId.isNone && scope.userId.all (· == edge.userId)))
  let blobKeys := (revisions.map (·.2.blobKey)).dedup
  let candidateKeys := (s.coordinator.candidates.entries.filter fun entry =>
    entry.2.provenanceOrgId == some scope.orgId &&
      (scope.userId.isNone || blobKeys.contains entry.1)).map (·.1)
  let quarantineKeys := (s.coordinator.quarantine.entries.map (·.1)).filter fun key =>
    candidateKeys.contains key || blobKeys.contains key
  { artifactRows := records.length
    revisionRows := revisions.length
    idempotencyRows := idempotencyKeys.length
    referenceEdgeRows := edges.length
    gcCandidateRows := candidateKeys.length
    quarantinedDigestRows := quarantineKeys.length
    artifactIds := artifactIds.insertionSort (· ≤ ·)
    blobKeys := (blobKeys ++ candidateKeys ++ quarantineKeys).dedup.insertionSort (· ≤ ·) }

structure ArtifactLifecycleTombstoneResult where
  evidence : ArtifactLifecycleEvidence
  inventoryAfter : ArtifactDeletionInventory

/-- Delete every artifact of a scope and keep evidence of it; the evidence makes it happen once. -/
def tombstoneForLifecycle (s : ArtifactMetadataStore) (scope : ArtifactRetentionScope)
    (deletedAt : Int) (evidenceId reason : String) :
    ArtifactLifecycleTombstoneResult × ArtifactMetadataStore :=
  match s.lifecycleEvidence.get? (scope.orgId, evidenceId) with
  | some evidence => (⟨evidence, s.deletionInventory scope⟩, s)
  | none =>
      let targets := s.records.entries.filter fun entry =>
        matchesScope entry.2 scope && entry.2.artifact.deletedAt.isNone
      let evidence :=
        { evidenceId, scope, reason, createdAt := deletedAt
          tombstonedArtifactIds :=
            (targets.map (·.2.artifact.artifactId)).insertionSort (· ≤ ·)
          inventoryBefore := s.deletionInventory scope }
      let s := { s with
        records := targets.foldl (fun records entry =>
          records.set entry.1 (tombstoned entry.2 deletedAt)) s.records
        lifecycleEvidence := s.lifecycleEvidence.set (scope.orgId, evidenceId) evidence }
      (⟨evidence, s.deletionInventory scope⟩, s)

/-- Close the outbox row of an event that was published or given up. -/
def acknowledgeArtifactEvent (s : ArtifactMetadataStore) (eventId : String)
    (status : OutboxStatus) : ArtifactMetadataStore :=
  match s.outbox.get? eventId with
  | none => s
  | some row => { s with outbox := s.outbox.set eventId { row with status } }

/-- The events still to be published. -/
def pendingArtifactEvents (s : ArtifactMetadataStore) : List RuntimeArtifactEventCommand :=
  (s.outbox.values.filter (·.status == .pending)).map (·.command)

end ArtifactMetadataStore

end CopilotRuntime.Artifacts
