import CopilotRuntime.Artifacts.MetadataStore
import Mathlib.Data.List.Dedup

/-!
# The laws of the artifact store

The tables stay in step through every command: an artifact at revision `n` has
the revisions up to `n` and no other, and none is ever rewritten. A command
that fails writes nothing. What a key was used for is remembered as long as the
artifact it was used on: a purge forgets both.

## Implementation notes

The result of a mutation is compared by the record it returns; that it was
returned before is marked on it.
-/

namespace CopilotRuntime.Artifacts

open Foundation

/-! ### Bytes come back at most once -/

namespace ArtifactPublicationCoordinator

theorem restore_of_not_isActive {c : ArtifactPublicationCoordinator} {blobKey : String}
    (h : (c.restore blobKey).isActive blobKey = false) : c.restore blobKey = c := by
  unfold restore at h ⊢
  cases hq : c.quarantine.get? blobKey with
  | none => rfl
  | some body => simp [hq, isActive] at h

theorem restore_restore (c : ArtifactPublicationCoordinator) (blobKey : String) :
    (c.restore blobKey).restore blobKey = c.restore blobKey := by
  cases hq : c.quarantine.get? blobKey with
  | none => simp [restore, hq]
  | some body => simp [restore, hq]

end ArtifactPublicationCoordinator

namespace ArtifactMetadataStore

/-! ### What a commit does -/

/-- The store once a commit has gone through. -/
def committed (s : ArtifactMetadataStore) (binding : ArtifactIdempotencyBinding)
    (record : ArtifactStoredRecord) (orgId artifactId : String) (rows : List OutboxRow)
    (edge : ArtifactReferenceEdge) : ArtifactMetadataStore :=
  { s with
    outbox := insertOutbox s.outbox rows
    records := s.records.set (orgId, artifactId) record
    revisions := s.revisions.set (orgId, artifactId, edge.key.revision) record.currentRevision
    edges := s.edges.set edge.key edge
    coordinator := (s.coordinator.restore edge.key.blobKey).cancelCandidate edge.key.blobKey
    idempotency := s.idempotency.set binding.key
      (binding.requestDigest, some ⟨record, false⟩)
    idempotencyArtifact := s.idempotencyArtifact.set binding.key artifactId }

/-- The checks of a commit, all of them before its first write. -/
def Admits (s : ArtifactMetadataStore) (rows : List OutboxRow) (edge : ArtifactReferenceEdge) :
    Prop :=
  s.outboxAccepts rows = true ∧ s.edgeAccepts edge = true ∧
    (s.coordinator.restore edge.key.blobKey).isActive edge.key.blobKey = true

variable {s : ArtifactMetadataStore}

theorem commit_of_admits {rows : List OutboxRow} {edge : ArtifactReferenceEdge}
    (h : s.Admits rows edge) (binding : ArtifactIdempotencyBinding)
    (record : ArtifactStoredRecord) (orgId artifactId : String) :
    s.commit binding record orgId artifactId rows edge =
      (.ok ⟨record, false⟩, s.committed binding record orgId artifactId rows edge) := by
  obtain ⟨houtbox, hedge, hactive⟩ := h
  have hedges : ∀ s' : ArtifactMetadataStore, s'.edges = s.edges → s'.edgeAccepts edge = true := by
    intro s' heq
    simpa [edgeAccepts, heq] using hedge
  simp only [commit, houtbox, hedge, Bool.not_true, Bool.or_self, Bool.false_eq_true, if_false,
    hactive, putEdge, hedges, ArtifactPublicationCoordinator.restore_restore]
  rfl

/-- A commit fails with the store as it was, or writes everything. -/
theorem commit_cases (s : ArtifactMetadataStore) (binding : ArtifactIdempotencyBinding)
    (record : ArtifactStoredRecord) (orgId artifactId : String) (rows : List OutboxRow)
    (edge : ArtifactReferenceEdge) :
    (∃ e, s.commit binding record orgId artifactId rows edge = (.error e, s)) ∨
      (s.Admits rows edge ∧ s.commit binding record orgId artifactId rows edge =
        (.ok ⟨record, false⟩, s.committed binding record orgId artifactId rows edge)) := by
  by_cases h : s.Admits rows edge
  · exact .inr ⟨h, commit_of_admits h binding record orgId artifactId⟩
  · refine .inl ?_
    unfold commit
    split
    · exact ⟨_, rfl⟩
    · next haccept =>
        simp only [Bool.or_eq_true, Bool.not_eq_true', not_or, Bool.not_eq_false] at haccept
        have hinactive : (s.coordinator.restore edge.key.blobKey).isActive edge.key.blobKey =
            false := by
          cases hactive : (s.coordinator.restore edge.key.blobKey).isActive edge.key.blobKey with
          | false => rfl
          | true => exact (h ⟨haccept.1, haccept.2, hactive⟩).elim
        have hsame := ArtifactPublicationCoordinator.restore_of_not_isActive hinactive
        rw [hsame] at hinactive
        simp only [hsame, hinactive, Bool.not_false, if_true]
        exact ⟨_, rfl⟩

/-! ### What a key remembers -/

/-- The key is free. -/
def Unused (s : ArtifactMetadataStore) (key : IdempotencyKey) : Prop :=
  s.idempotency.get? key = none

theorem replay_of_unused {binding : ArtifactIdempotencyBinding} (h : s.Unused binding.key) :
    s.replay binding = .ok none := by
  have hnone : s.idempotency.get? binding.key = none := h
  simp [replay, hnone]

variable {digest : String} {result : Option ArtifactMutationResult}

theorem replay_of_bound {binding : ArtifactIdempotencyBinding}
    (h : s.idempotency.get? binding.key = some (digest, result)) :
    s.replay binding =
      if digest = binding.requestDigest then
        .ok (some (result.map fun r => { r with replayed := true }))
      else .error .idempotencyConflict := by
  simp [replay, h]

/-! ### Mutations -/

/-- The commands that carry an idempotency key. -/
inductive Mutation
  | create (command : ArtifactCreateCommand)
  | append (command : ArtifactAppendCommand)
  | softDelete (command : ArtifactSoftDeleteCommand)

namespace Mutation

def binding : Mutation → ArtifactIdempotencyBinding
  | .create command => command.idempotency
  | .append command => command.idempotency
  | .softDelete command => command.idempotency

/-- The artifact a mutation is about. -/
def artifactId : Mutation → String
  | .create command => command.record.artifact.artifactId
  | .append command => command.artifactId
  | .softDelete command => command.artifactId

/-- Two mutations are commands of one kind. -/
def SameKind : Mutation → Mutation → Prop
  | .create _, .create _ => True
  | .append _, .append _ => True
  | .softDelete _, .softDelete _ => True
  | _, _ => False

end Mutation

/-- What a mutation answers, by the record it returns, and the store it leaves. -/
def answer (s : ArtifactMetadataStore) :
    Mutation → Except ArtifactStoreError (Option ArtifactStoredRecord) × ArtifactMetadataStore
  | .create command =>
      ((s.createArtifact command).1.map fun r => some r.record, (s.createArtifact command).2)
  | .append command =>
      ((s.appendRevision command).1.map fun r => some r.record, (s.appendRevision command).2)
  | .softDelete command => s.softDelete command

/-- The edge of an artifact's first revision. -/
def createEdge (command : ArtifactCreateCommand) : ArtifactReferenceEdge where
  key := ⟨command.record.artifact.orgId, command.record.artifact.artifactId, 1,
    command.record.currentRevision.blobKey⟩
  userId := command.record.artifact.userId
  createdAt := command.record.currentRevision.revision.createdAt

def appendEdge (command : ArtifactAppendCommand) : ArtifactReferenceEdge where
  key := ⟨command.scope.orgId, command.artifactId, command.revision.revision.revision,
    command.revision.blobKey⟩
  userId := command.scope.userId
  createdAt := command.revision.revision.createdAt

/-- A record the user may still change. -/
def Deletable (s : ArtifactMetadataStore) (command : ArtifactSoftDeleteCommand)
    (current : ArtifactStoredRecord) : Prop :=
  s.records.get? (command.orgId, command.artifactId) = some current ∧
    current.artifact.userId = command.userId ∧ current.artifact.deletedAt = none

/-- The mutations that are carried out, with the record they return and the store they leave. -/
inductive Performs (s : ArtifactMetadataStore) :
    Mutation → Option ArtifactStoredRecord → ArtifactMetadataStore → Prop
  | created {command : ArtifactCreateCommand} {rows : List OutboxRow}
      (hfree : s.records.get?
        (command.record.artifact.orgId, command.record.artifact.artifactId) = none)
      (hrows : command.ledgerEvents.mapM
        (artifactEventOutboxRow · command.record.artifact.artifactId) = some rows)
      (hadmits : s.Admits rows (createEdge command)) :
      Performs s (.create command) (some command.record)
        (s.committed command.idempotency command.record command.record.artifact.orgId
          command.record.artifact.artifactId rows (createEdge command))
  | appended {command : ArtifactAppendCommand} {current : ArtifactStoredRecord}
      {rows : List OutboxRow}
      (hcurrent : s.records.get? (command.scope.orgId, command.artifactId) = some current)
      (huser : current.artifact.userId = command.scope.userId)
      (hlive : current.artifact.deletedAt = none)
      (hexpected : current.artifact.currentRevision = command.expectedRevision)
      (hrows : command.ledgerEvent.toList.mapM
        (artifactEventOutboxRow · command.artifactId) = some rows)
      (hadmits : s.Admits rows (appendEdge command)) :
      Performs s (.append command) (some (ArtifactMetadataStore.appended current command.revision))
        (s.committed command.idempotency
          (ArtifactMetadataStore.appended current command.revision) command.scope.orgId
          command.artifactId rows (appendEdge command))
  | deleted {command : ArtifactSoftDeleteCommand} {current : ArtifactStoredRecord}
      (hcurrent : s.Deletable command current) :
      Performs s (.softDelete command) (some (tombstoned current command.deletedAt))
        (ArtifactMetadataStore.bind
          { s with
            records := s.records.set (command.orgId, command.artifactId)
              (tombstoned current command.deletedAt) }
          command.idempotency (some ⟨tombstoned current command.deletedAt, false⟩)
          command.artifactId)
  | missed {command : ArtifactSoftDeleteCommand}
      (hnone : ∀ current, ¬ s.Deletable command current) :
      Performs s (.softDelete command) none
        (s.bind command.idempotency none command.artifactId)

variable {m : Mutation}

/-- A key that holds another digest refuses a mutation. -/
theorem answer_of_other_digest (h : s.idempotency.get? m.binding.key = some (digest, result))
    (hdigest : digest ≠ m.binding.requestDigest) :
    s.answer m = (.error .idempotencyConflict, s) := by
  have hreplay : s.replay m.binding = .error .idempotencyConflict := by
    rw [replay_of_bound h, if_neg hdigest]
  cases m with
  | create command =>
      change s.replay command.idempotency = _ at hreplay
      simp [answer, createArtifact, hreplay, Except.map]
  | append command =>
      change s.replay command.idempotency = _ at hreplay
      simp [answer, appendRevision, hreplay, Except.map]
  | softDelete command =>
      change s.replay command.idempotency = _ at hreplay
      simp [answer, softDelete, hreplay]

/-- A key that holds the same digest repeats its result, or refuses it. -/
theorem answer_of_bound
    (h : s.idempotency.get? m.binding.key = some (m.binding.requestDigest, result)) :
    s.answer m = (.ok (result.map (·.record)), s) ∨
      (∀ command, m ≠ .softDelete command) ∧ result = none ∧
        s.answer m = (.error .conflict, s) := by
  have hreplay : s.replay m.binding =
      .ok (some (result.map fun r => { r with replayed := true })) := by
    rw [replay_of_bound h, if_pos rfl]
  cases m with
  | create command =>
      change s.replay command.idempotency = _ at hreplay
      cases result with
      | none =>
          exact .inr ⟨by simp, rfl, by simp [answer, createArtifact, hreplay, Except.map]⟩
      | some r => exact .inl (by simp [answer, createArtifact, hreplay, Except.map])
  | append command =>
      change s.replay command.idempotency = _ at hreplay
      cases result with
      | none =>
          exact .inr ⟨by simp, rfl, by simp [answer, appendRevision, hreplay, Except.map]⟩
      | some r => exact .inl (by simp [answer, appendRevision, hreplay, Except.map])
  | softDelete command =>
      change s.replay command.idempotency = _ at hreplay
      refine .inl ?_
      simp [answer, softDelete, hreplay, Option.map_map, Function.comp_def]

/-- Under a free key a mutation fails with the store as it was, or is carried out. -/
theorem answer_of_unused (h : s.Unused m.binding.key) :
    (∃ e, s.answer m = (.error e, s)) ∨
      ∃ record s', s.Performs m record s' ∧ s.answer m = (.ok record, s') := by
  have hreplay := replay_of_unused h
  cases m with
  | create command =>
      change s.replay command.idempotency = _ at hreplay
      simp only [answer, createArtifact, hreplay]
      cases hfree : s.records.get?
          (command.record.artifact.orgId, command.record.artifact.artifactId) with
      | some _ => exact .inl ⟨.conflict, by simp [Except.map]⟩
      | none =>
          cases hrows : command.ledgerEvents.mapM
              (artifactEventOutboxRow · command.record.artifact.artifactId) with
          | none => exact .inl ⟨.validation, by simp [Except.map]⟩
          | some rows =>
              rcases s.commit_cases command.idempotency command.record
                  command.record.artifact.orgId command.record.artifact.artifactId rows
                  (createEdge command) with ⟨e, he⟩ | ⟨hadmits, hok⟩
              · refine .inl ⟨e, ?_⟩
                simp only [createEdge] at he
                simp [he, Except.map]
              · refine .inr ⟨_, _, .created hfree hrows hadmits, ?_⟩
                simp only [createEdge] at hok ⊢
                simp [hok, Except.map]
  | append command =>
      change s.replay command.idempotency = _ at hreplay
      simp only [answer, appendRevision, hreplay]
      cases hcurrent : s.records.get? (command.scope.orgId, command.artifactId) with
      | none => exact .inl ⟨.conflict, by simp [Except.map]⟩
      | some current =>
          simp only
          split
          · exact .inl ⟨.conflict, by simp [Except.map]⟩
          · next hfits =>
              simp only [not_or, not_not, Bool.not_eq_true, Option.isSome_eq_false_iff,
                Option.isNone_iff_eq_none] at hfits
              obtain ⟨huser, hlive, hexpected⟩ := hfits
              cases hrows : command.ledgerEvent.toList.mapM
                  (artifactEventOutboxRow · command.artifactId) with
              | none => exact .inl ⟨.validation, by simp [Except.map]⟩
              | some rows =>
                  rcases s.commit_cases command.idempotency
                      (appended current command.revision) command.scope.orgId
                      command.artifactId rows (appendEdge command) with
                    ⟨e, he⟩ | ⟨hadmits, hok⟩
                  · refine .inl ⟨e, ?_⟩
                    simp only [appendEdge] at he
                    simp [he, Except.map]
                  · refine .inr ⟨_, _, .appended hcurrent huser hlive hexpected hrows hadmits, ?_⟩
                    simp only [appendEdge] at hok ⊢
                    simp [hok, Except.map]
  | softDelete command =>
      change s.replay command.idempotency = _ at hreplay
      refine .inr ?_
      simp only [answer, softDelete, hreplay]
      cases hcurrent : s.records.get? (command.orgId, command.artifactId) with
      | none =>
          refine ⟨_, _, .missed fun current hdeletable => ?_, rfl⟩
          rw [Deletable, hcurrent] at hdeletable
          cases hdeletable.1
      | some current =>
          simp only
          split
          · next hkept =>
              refine ⟨_, _, .missed fun other hdeletable => ?_, rfl⟩
              obtain ⟨hrecord, huser, hlive⟩ := hdeletable
              rw [hcurrent] at hrecord
              obtain rfl := Option.some.inj hrecord
              simp [huser, hlive] at hkept
          · next hchanged =>
              simp only [not_or, not_not, Bool.not_eq_true, Option.isSome_eq_false_iff,
                Option.isNone_iff_eq_none] at hchanged
              exact ⟨_, _, .deleted ⟨hcurrent, hchanged.1, hchanged.2⟩, rfl⟩

/-- A mutation fails with the store as it was, repeats what its key remembers, or is carried
out under a key that was free. -/
theorem answer_cases (s : ArtifactMetadataStore) (m : Mutation) :
    (∃ e, s.answer m = (.error e, s)) ∨
      (∃ result, s.idempotency.get? m.binding.key = some (m.binding.requestDigest, result) ∧
        s.answer m = (.ok (result.map (·.record)), s)) ∨
      (s.Unused m.binding.key ∧ ∃ record s', s.Performs m record s' ∧
        s.answer m = (.ok record, s')) := by
  cases hkey : s.idempotency.get? m.binding.key with
  | none =>
      rcases answer_of_unused (show s.Unused m.binding.key from hkey) with herror | hperformed
      · exact .inl herror
      · exact .inr (.inr ⟨hkey, hperformed⟩)
  | some bound =>
      obtain ⟨digest, result⟩ := bound
      by_cases hdigest : digest = m.binding.requestDigest
      · subst hdigest
        rcases answer_of_bound hkey with hok | ⟨-, -, herror⟩
        · exact .inr (.inl ⟨result, rfl, hok⟩)
        · exact .inl ⟨_, herror⟩
      · exact .inl ⟨_, answer_of_other_digest hkey hdigest⟩

/-! ### Runs of commands -/

/-- What may happen to the store, the blob store and the collector of bytes included. -/
inductive StoreCommand
  | mutate (m : Mutation)
  | purge (scope : ArtifactRetentionScope) (deletedBefore : Int) (limit : Nat)
  | tombstone (scope : ArtifactRetentionScope) (deletedAt : Int) (evidenceId reason : String)
  | acknowledge (eventId : String) (status : OutboxStatus)
  | publishBlob (blobKey body : String)
  | quarantineBlob (blobKey : String)

def takeCommand (s : ArtifactMetadataStore) : StoreCommand → ArtifactMetadataStore
  | .mutate m => (s.answer m).2
  | .purge scope deletedBefore limit => (s.purgeTombstones scope deletedBefore limit).2
  | .tombstone scope deletedAt evidenceId reason =>
      (s.tombstoneForLifecycle scope deletedAt evidenceId reason).2
  | .acknowledge eventId status => s.acknowledgeArtifactEvent eventId status
  | .publishBlob blobKey body =>
      { s with coordinator := { s.coordinator with
          blobs := (s.coordinator.restore blobKey).blobs.set blobKey body
          quarantine := (s.coordinator.restore blobKey).quarantine } }
  | .quarantineBlob blobKey =>
      match s.coordinator.blobs.get? blobKey with
      | none => s
      | some body =>
          { s with coordinator := { s.coordinator with
              blobs := s.coordinator.blobs.erase blobKey
              quarantine := s.coordinator.quarantine.set blobKey body } }

/-- A command purges an artifact. -/
def Purges (s : ArtifactMetadataStore) : StoreCommand → String → String → Prop
  | .purge scope deletedBefore limit, orgId, artifactId =>
      scope.orgId = orgId ∧
        artifactId ∈ (s.purgeTombstones scope deletedBefore limit).1.purgedArtifactIds
  | _, _, _ => False

/-! ### The chains of revisions -/

/-- Revisions `1..n` are stored for an artifact at revision `n`, and no others. -/
structure Consistent (s : ArtifactMetadataStore) : Prop where
  named : ∀ key record, s.records.get? key = some record →
    (record.artifact.orgId, record.artifact.artifactId) = key
  chain : ∀ orgId artifactId n, (s.revisions.get? (orgId, artifactId, n)).isSome ↔
    ∃ record, s.records.get? (orgId, artifactId) = some record ∧
      1 ≤ n ∧ n ≤ record.artifact.currentRevision
  current : ∀ orgId artifactId record, s.records.get? (orgId, artifactId) = some record →
    s.revisions.get? (orgId, artifactId, record.artifact.currentRevision) =
      some record.currentRevision

theorem consistent_initial : Consistent initial := by
  constructor <;> simp [initial]

/-- The revision an artifact is at, zero where there is none. -/
def revisionOf (s : ArtifactMetadataStore) (orgId artifactId : String) : Nat :=
  (s.records.get? (orgId, artifactId)).elim 0 (·.artifact.currentRevision)

variable {artifactId : String}

/-- A commit adds the revision after the current one. -/
theorem Consistent.committed (h : Consistent s) (binding : ArtifactIdempotencyBinding)
    {record : ArtifactStoredRecord} {orgId : String} (rows : List OutboxRow)
    {edge : ArtifactReferenceEdge}
    (hnamed : (record.artifact.orgId, record.artifact.artifactId) = (orgId, artifactId))
    (hnumber : edge.key.revision = record.artifact.currentRevision)
    (hnext : record.artifact.currentRevision = s.revisionOf orgId artifactId + 1) :
    Consistent (s.committed binding record orgId artifactId rows edge) where
  named key found hfound := by
    simp only [ArtifactMetadataStore.committed, Dict.get?_set] at hfound
    split at hfound
    · next heq =>
        obtain rfl := Option.some.inj hfound
        exact hnamed.trans heq
    · exact h.named key found hfound
  chain org id n := by
    simp only [ArtifactMetadataStore.committed, Dict.get?_set, hnumber]
    by_cases hkey : (orgId, artifactId) = (org, id)
    · obtain ⟨rfl, rfl⟩ := Prod.mk.inj hkey
      rw [if_pos rfl]
      have hchain := h.chain orgId artifactId n
      by_cases hn : record.artifact.currentRevision = n
      · subst hn
        simp only [if_true, Option.isSome_some, true_iff]
        exact ⟨record, rfl, by omega, le_rfl⟩
      · have hne : (orgId, artifactId, record.artifact.currentRevision) ≠
            (orgId, artifactId, n) := by simpa using hn
        rw [if_neg hne, hchain]
        constructor
        · rintro ⟨old, hold, hpos, hle⟩
          have hold' : s.revisionOf orgId artifactId = old.artifact.currentRevision := by
            simp [revisionOf, hold]
          exact ⟨record, rfl, hpos, by omega⟩
        · rintro ⟨found, hfound, hpos, hle⟩
          obtain rfl := Option.some.inj hfound
          cases hold : s.records.get? (orgId, artifactId) with
          | none =>
              have hzero : s.revisionOf orgId artifactId = 0 := by simp [revisionOf, hold]
              omega
          | some old =>
              have hold' : s.revisionOf orgId artifactId = old.artifact.currentRevision := by
                simp [revisionOf, hold]
              exact ⟨old, rfl, hpos, by omega⟩
    · have hne : (orgId, artifactId, record.artifact.currentRevision) ≠ (org, id, n) := by
        intro heq
        simp only [Prod.mk.injEq] at heq
        exact hkey (by rw [heq.1, heq.2.1])
      rw [if_neg hkey, if_neg hne]
      exact h.chain org id n
  current org id found hfound := by
    simp only [ArtifactMetadataStore.committed, Dict.get?_set, hnumber] at hfound ⊢
    by_cases hkey : (orgId, artifactId) = (org, id)
    · rw [if_pos hkey] at hfound
      obtain rfl := Option.some.inj hfound
      obtain ⟨rfl, rfl⟩ := Prod.mk.inj hkey
      rw [if_pos rfl]
    · have hne : (orgId, artifactId, record.artifact.currentRevision) ≠
          (org, id, found.artifact.currentRevision) := by
        intro heq
        simp only [Prod.mk.injEq] at heq
        exact hkey (by rw [heq.1, heq.2.1])
      rw [if_neg hkey] at hfound
      rw [if_neg hne]
      exact h.current org id found hfound

/-- Two records of an artifact at the same revision. -/
def SameChain (a b : ArtifactStoredRecord) : Prop :=
  b.artifact.orgId = a.artifact.orgId ∧ b.artifact.artifactId = a.artifact.artifactId ∧
    b.artifact.currentRevision = a.artifact.currentRevision ∧
    b.currentRevision = a.currentRevision

theorem sameChain_tombstoned (record : ArtifactStoredRecord) (deletedAt : Int) :
    SameChain record (tombstoned record deletedAt) :=
  ⟨rfl, rfl, rfl, rfl⟩

variable {s' : ArtifactMetadataStore}

/-- Changing records in other ways than their revision keeps the chains. -/
theorem Consistent.of_sameChain (h : Consistent s)
    (hrevisions : s'.revisions = s.revisions)
    (hrecords : ∀ key, (s.records.get? key = none ∧ s'.records.get? key = none) ∨
      ∃ a b, s.records.get? key = some a ∧ s'.records.get? key = some b ∧ SameChain a b) :
    Consistent s' where
  named key found hfound := by
    rcases hrecords key with ⟨-, hnone⟩ | ⟨a, b, ha, hb, horg, hid, -, -⟩
    · rw [hnone] at hfound
      cases hfound
    · rw [hb] at hfound
      obtain rfl := Option.some.inj hfound
      rw [horg, hid]
      exact h.named key a ha
  chain orgId artifactId n := by
    rw [hrevisions, h.chain]
    rcases hrecords (orgId, artifactId) with ⟨hnone, hnone'⟩ | ⟨a, b, ha, hb, -, -, hnumber, -⟩
    · simp [hnone, hnone']
    · simp [ha, hb, hnumber]
  current orgId artifactId found hfound := by
    rw [hrevisions]
    rcases hrecords (orgId, artifactId) with
      ⟨-, hnone⟩ | ⟨a, b, ha, hb, -, -, hnumber, hrevision⟩
    · rw [hnone] at hfound
      cases hfound
    · rw [hb] at hfound
      obtain rfl := Option.some.inj hfound
      rw [hnumber, hrevision]
      exact h.current orgId artifactId a ha

/-- Forgetting whole artifacts keeps the chains of the others. -/
theorem Consistent.forget (h : Consistent s) (orgId : String) (artifactIds : List String) :
    Consistent (s.forget orgId artifactIds) where
  named key found hfound := by
    simp only [ArtifactMetadataStore.forget, Dict.get?_restrict] at hfound
    split at hfound
    · exact h.named key found hfound
    · cases hfound
  chain org id n := by
    simp only [ArtifactMetadataStore.forget, Dict.get?_restrict]
    split
    · exact h.chain org id n
    · simp
  current org id found hfound := by
    simp only [ArtifactMetadataStore.forget, Dict.get?_restrict] at hfound ⊢
    split at hfound
    · next hkept =>
        rw [if_pos hkept]
        exact h.current org id found hfound
    · cases hfound

/-- Only records change when a scope is deleted, and none of them in its revision. -/
theorem tombstone_records (s : ArtifactMetadataStore) (scope : ArtifactRetentionScope)
    (deletedAt : Int) (evidenceId reason : String) (key : String × String) :
    (s.records.get? key = none ∧ (s.tombstoneForLifecycle scope deletedAt evidenceId reason).2.records.get?
        key = none) ∨
      ∃ a b, s.records.get? key = some a ∧
        (s.tombstoneForLifecycle scope deletedAt evidenceId reason).2.records.get? key = some b ∧
        SameChain a b := by
  have hsame : ∀ records : Dict (String × String) ArtifactStoredRecord, records = s.records →
      (s.records.get? key = none ∧ records.get? key = none) ∨
        ∃ a b, s.records.get? key = some a ∧ records.get? key = some b ∧ SameChain a b := by
    rintro records rfl
    cases hrecord : s.records.get? key with
    | none => exact .inl ⟨rfl, rfl⟩
    | some a => exact .inr ⟨a, a, rfl, rfl, rfl, rfl, rfl, rfl⟩
  unfold tombstoneForLifecycle
  split
  · exact hsame _ rfl
  · generalize htargets : (s.records.entries.filter fun entry =>
      matchesScope entry.2 scope && entry.2.artifact.deletedAt.isNone) = targets
    have hsub : ∀ entry ∈ targets, s.records.get? entry.1 = some entry.2 := by
      intro entry hmem
      rw [← htargets] at hmem
      exact Dict.mem_entries_iff.mp (List.mem_filter.mp hmem).1
    clear htargets
    simp only
    -- Induction on the records still to be written; those written keep their revision.
    suffices hfold : ∀ records : Dict (String × String) ArtifactStoredRecord,
        ((s.records.get? key = none ∧ records.get? key = none) ∨
          ∃ a b, s.records.get? key = some a ∧ records.get? key = some b ∧ SameChain a b) →
        ((s.records.get? key = none ∧ (targets.foldl (fun records entry =>
            records.set entry.1 (tombstoned entry.2 deletedAt)) records).get? key = none) ∨
          ∃ a b, s.records.get? key = some a ∧ (targets.foldl (fun records entry =>
            records.set entry.1 (tombstoned entry.2 deletedAt)) records).get? key = some b ∧
              SameChain a b) from hfold s.records (hsame _ rfl)
    induction targets with
    | nil => exact fun _ h => h
    | cons entry rest ih =>
        intro records hrecords
        refine ih (fun e he => hsub e (List.mem_cons_of_mem _ he)) _ ?_
        rw [Dict.get?_set]
        split
        · next heq =>
            subst heq
            exact .inr ⟨entry.2, _, hsub entry List.mem_cons_self, rfl,
              sameChain_tombstoned entry.2 deletedAt⟩
        · exact hrecords

theorem tombstone_revisions (s : ArtifactMetadataStore) (scope : ArtifactRetentionScope)
    (deletedAt : Int) (evidenceId reason : String) :
    (s.tombstoneForLifecycle scope deletedAt evidenceId reason).2.revisions = s.revisions := by
  unfold tombstoneForLifecycle
  split <;> rfl

variable {record : Option ArtifactStoredRecord}

/-- What a mutation that is carried out does to the chains: a new revision at the end of one, or
a change of a record that leaves its revision. -/
theorem Performs.chains (h : s.Performs m record s') (hs : Consistent s) :
    (∃ binding new orgId artifactId rows edge, s' =
        s.committed binding new orgId artifactId rows edge ∧
      (new.artifact.orgId, new.artifact.artifactId) = (orgId, artifactId) ∧
      edge.key.revision = new.artifact.currentRevision ∧
      new.artifact.currentRevision = s.revisionOf orgId artifactId + 1) ∨
    (s'.revisions = s.revisions ∧
      ∀ key, (s.records.get? key = none ∧ s'.records.get? key = none) ∨
        ∃ a b, s.records.get? key = some a ∧ s'.records.get? key = some b ∧ SameChain a b) := by
  cases h with
  | @created command rows hfree hrows hadmits =>
      refine .inl ⟨_, _, _, _, _, _, rfl, rfl, ?_, ?_⟩
      · rw [command.is_revision_one]
        rfl
      · rw [command.is_revision_one, revisionOf, hfree]
        rfl
  | @appended command current rows hcurrent huser hlive hexpected hrows hadmits =>
      refine .inl ⟨_, _, _, _, _, _, rfl, ?_, rfl, ?_⟩
      · exact hs.named _ current hcurrent
      · have hnumber : s.revisionOf command.scope.orgId command.artifactId =
            command.expectedRevision := by
          rw [revisionOf, hcurrent]
          exact hexpected
        rw [hnumber]
        exact command.increments
  | @deleted command current hcurrent =>
      refine .inr ⟨rfl, fun key => ?_⟩
      simp only [ArtifactMetadataStore.bind, Dict.get?_set]
      split
      · next heq =>
          subst heq
          exact .inr ⟨current, _, hcurrent.1, rfl, sameChain_tombstoned _ _⟩
      · cases hrecord : s.records.get? key with
        | none => exact .inl ⟨rfl, rfl⟩
        | some a => exact .inr ⟨a, a, rfl, rfl, rfl, rfl, rfl, rfl⟩
  | missed hnone =>
      refine .inr ⟨rfl, fun key => ?_⟩
      cases hrecord : s.records.get? key with
      | none => exact .inl ⟨rfl, hrecord⟩
      | some a => exact .inr ⟨a, a, rfl, hrecord, rfl, rfl, rfl, rfl⟩

theorem Performs.consistent (h : s.Performs m record s') (hs : Consistent s) :
    Consistent s' := by
  rcases h.chains hs with
    ⟨binding, new, orgId, artifactId, rows, edge, rfl, hnamed, hnumber, hnext⟩ |
    ⟨hrevisions, hrecords⟩
  · exact hs.committed binding rows hnamed hnumber hnext
  · exact hs.of_sameChain hrevisions hrecords

theorem Consistent.answer (h : Consistent s) (m : Mutation) :
    Consistent (s.answer m).2 := by
  rcases s.answer_cases m with ⟨e, he⟩ | ⟨result, -, hok⟩ | ⟨-, record, s', hperforms, hok⟩
  · rw [he]
    exact h
  · rw [hok]
    exact h
  · rw [hok]
    exact hperforms.consistent h

/-- Every command keeps the chains. -/
theorem Consistent.takeCommand (h : Consistent s) (command : StoreCommand) :
    Consistent (takeCommand s command) := by
  have hframe : ∀ s' : ArtifactMetadataStore, s'.revisions = s.revisions →
      s'.records = s.records → Consistent s' := by
    intro s' hrevisions hrecords
    refine h.of_sameChain hrevisions fun key => ?_
    rw [hrecords]
    cases hrecord : s.records.get? key with
    | none => exact .inl ⟨rfl, rfl⟩
    | some a => exact .inr ⟨a, a, rfl, rfl, rfl, rfl, rfl, rfl⟩
  cases command with
  | mutate m => exact h.answer m
  | purge scope deletedBefore limit =>
      have hkept := h.forget scope.orgId ((s.victims scope deletedBefore limit).map (·.1.2))
      exact ⟨hkept.named, hkept.chain, hkept.current⟩
  | tombstone scope deletedAt evidenceId reason =>
      exact h.of_sameChain (tombstone_revisions s scope deletedAt evidenceId reason)
        (tombstone_records s scope deletedAt evidenceId reason)
  | acknowledge eventId status =>
      refine hframe _ ?_ ?_ <;> simp only [ArtifactMetadataStore.takeCommand,
        acknowledgeArtifactEvent] <;> split <;> rfl
  | publishBlob blobKey body => exact hframe _ rfl rfl
  | quarantineBlob blobKey =>
      refine hframe _ ?_ ?_ <;> simp only [ArtifactMetadataStore.takeCommand] <;> split <;> rfl

theorem consistent_foldl (h : Consistent s) (commands : List StoreCommand) :
    Consistent (commands.foldl takeCommand s) := by
  induction commands generalizing s with
  | nil => exact h
  | cons command rest ih => exact ih (h.takeCommand command)

/-! ### Revisions are never rewritten -/

theorem mem_purgedArtifactIds {scope : ArtifactRetentionScope} {deletedBefore : Int} {limit : Nat} :
    artifactId ∈ (s.purgeTombstones scope deletedBefore limit).1.purgedArtifactIds ↔
      artifactId ∈ (s.victims scope deletedBefore limit).map (·.1.2) := by
  simp only [purgeTombstones]
  rw [List.mem_insertionSort, List.mem_dedup]

/-- A stored revision stays as it is until its artifact is purged. -/
theorem revision_kept (h : Consistent s) {command : StoreCommand} {orgId : String} {n : Nat}
    {revision : ArtifactStoredRevision}
    (hstored : s.revisions.get? (orgId, artifactId, n) = some revision)
    (hkept : ¬ Purges s command orgId artifactId) :
    (takeCommand s command).revisions.get? (orgId, artifactId, n) = some revision := by
  cases command with
  | mutate m =>
      simp only [takeCommand]
      rcases s.answer_cases m with ⟨e, he⟩ | ⟨result, -, hok⟩ | ⟨-, record, s', hperforms, hok⟩
      · rw [he]
        exact hstored
      · rw [hok]
        exact hstored
      · rw [hok]
        rcases hperforms.chains h with
          ⟨binding, new, org, id, rows, edge, rfl, hnamed, hnumber, hnext⟩ | ⟨hrevisions, -⟩
        · -- The number of a new revision is past every stored one.
          have hchain := (h.chain orgId artifactId n).mp (by rw [hstored]; rfl)
          obtain ⟨old, hold, -, hle⟩ := hchain
          have hne : (org, id, edge.key.revision) ≠ (orgId, artifactId, n) := by
            intro heq
            simp only [Prod.mk.injEq] at heq
            obtain ⟨rfl, rfl, rfl⟩ := heq
            have hcurrent : s.revisionOf org id = old.artifact.currentRevision := by
              simp [revisionOf, hold]
            omega
          simp only [committed]
          rw [Dict.get?_set_of_ne _ _ hne]
          exact hstored
        · rw [hrevisions]
          exact hstored
  | purge scope deletedBefore limit =>
      simp only [Purges, mem_purgedArtifactIds, not_and] at hkept
      simp only [takeCommand, purgeTombstones, forget, Dict.get?_restrict]
      rw [if_pos, hstored]
      rw [Bool.not_eq_true', Bool.and_eq_false_iff]
      by_cases horg : scope.orgId = orgId
      · right
        have hnot := hkept horg
        cases hcontains : ((s.victims scope deletedBefore limit).map (·.1.2)).contains
            artifactId with
        | false => rfl
        | true => exact (hnot (List.contains_iff_mem.mp hcontains)).elim
      · left
        simpa using Ne.symm horg
  | tombstone scope deletedAt evidenceId reason =>
      simp only [takeCommand, tombstone_revisions]
      exact hstored
  | acknowledge eventId status =>
      simp only [takeCommand, acknowledgeArtifactEvent]
      split <;> exact hstored
  | publishBlob blobKey body => exact hstored
  | quarantineBlob blobKey =>
      simp only [takeCommand]
      split <;> exact hstored

/-! ### What a key was used for is remembered -/

/-- A key with what it was used for and the artifact it was used on. -/
def Remembers (s : ArtifactMetadataStore) (key : IdempotencyKey) (digest : String)
    (result : Option ArtifactMutationResult) (artifactId : String) : Prop :=
  s.idempotency.get? key = some (digest, result) ∧
    s.idempotencyArtifact.get? key = some artifactId

/-- A mutation that is carried out is remembered with its record. -/
theorem Performs.remembers (h : s.Performs m record s') :
    s'.Remembers m.binding.key m.binding.requestDigest (record.map (⟨·, false⟩)) m.artifactId := by
  cases h <;> exact ⟨Dict.get?_set_self _ _ _, Dict.get?_set_self _ _ _⟩

variable {key : IdempotencyKey}

theorem Performs.idempotency_of_ne (h : s.Performs m record s') (hkey : m.binding.key ≠ key) :
    s'.idempotency.get? key = s.idempotency.get? key ∧
      s'.idempotencyArtifact.get? key = s.idempotencyArtifact.get? key := by
  cases h <;> exact ⟨Dict.get?_set_of_ne _ _ hkey, Dict.get?_set_of_ne _ _ hkey⟩

/-- What a key was used for is remembered until the artifact it was used on is purged. -/
theorem Remembers.takeCommand (h : s.Remembers key digest result artifactId)
    {command : StoreCommand} (hkept : ¬ Purges s command key.orgId artifactId) :
    (takeCommand s command).Remembers key digest result artifactId := by
  cases command with
  | mutate m =>
      simp only [ArtifactMetadataStore.takeCommand]
      rcases s.answer_cases m with ⟨e, he⟩ | ⟨result, -, hok⟩ | ⟨hunused, record, s', hperforms, hok⟩
      · rw [he]
        exact h
      · rw [hok]
        exact h
      · rw [hok]
        have hne : m.binding.key ≠ key := by
          rintro rfl
          rw [Unused, h.1] at hunused
          cases hunused
        obtain ⟨hfirst, hsecond⟩ := hperforms.idempotency_of_ne hne
        exact ⟨hfirst.trans h.1, hsecond.trans h.2⟩
  | purge scope deletedBefore limit =>
      simp only [Purges, mem_purgedArtifactIds, not_and] at hkept
      have hstays : (!(key.orgId == scope.orgId && (s.idempotencyArtifact.get? key).any
          ((s.victims scope deletedBefore limit).map (·.1.2)).contains)) = true := by
        rw [h.2, Option.any_some, Bool.not_eq_true', Bool.and_eq_false_iff]
        by_cases horg : scope.orgId = key.orgId
        · right
          cases hcontains : ((s.victims scope deletedBefore limit).map (·.1.2)).contains
              artifactId with
          | false => rfl
          | true => exact (hkept horg (List.contains_iff_mem.mp hcontains)).elim
        · left
          simpa using Ne.symm horg
      constructor
      · simp only [ArtifactMetadataStore.takeCommand, purgeTombstones, forget, Dict.get?_restrict]
        rw [if_pos hstays]
        exact h.1
      · simp only [ArtifactMetadataStore.takeCommand, purgeTombstones, forget, Dict.get?_restrict]
        rw [if_pos hstays]
        exact h.2
  | tombstone scope deletedAt evidenceId reason =>
      simp only [ArtifactMetadataStore.takeCommand, tombstoneForLifecycle]
      split <;> exact h
  | acknowledge eventId status =>
      simp only [ArtifactMetadataStore.takeCommand, acknowledgeArtifactEvent]
      split <;> exact h
  | publishBlob blobKey body => exact h
  | quarantineBlob blobKey =>
      simp only [ArtifactMetadataStore.takeCommand]
      split <;> exact h

/-- No command of a run purges an artifact. -/
def KeptAlong (orgId artifactId : String) (s : ArtifactMetadataStore) :
    List StoreCommand → Prop
  | [] => True
  | command :: rest =>
      ¬ Purges s command orgId artifactId ∧ KeptAlong orgId artifactId (takeCommand s command) rest

theorem Remembers.foldl (h : s.Remembers key digest result artifactId)
    {commands : List StoreCommand} (hkept : KeptAlong key.orgId artifactId s commands) :
    (commands.foldl ArtifactMetadataStore.takeCommand s).Remembers key digest result
      artifactId := by
  induction commands generalizing s with
  | nil => exact h
  | cons command rest ih => exact ih (h.takeCommand hkept.1) hkept.2

/-! ### The laws -/

/-- A mutation under its key's digest gives the record its key remembers. -/
theorem answer_of_remembered {s'' : ArtifactMetadataStore} {m' : Mutation}
    (h : s.Performs m record s') (hkind : m.SameKind m')
    (hremembers : s''.Remembers m'.binding.key m'.binding.requestDigest
      (record.map (⟨·, false⟩)) artifactId) : s''.answer m' = (.ok record, s'') := by
  rcases answer_of_bound hremembers.1 with hok | ⟨hnot, hnone, -⟩
  · rw [hok, Option.map_map]
    simp [Function.comp_def]
  · -- Only a deletion finds nothing to return.
    cases h with
    | created _ _ _ => cases hnone
    | appended _ _ _ _ _ _ => cases hnone
    | deleted _ => cases hnone
    | missed _ =>
        cases m' with
        | create command => exact hkind.elim
        | append command => exact hkind.elim
        | softDelete command => exact (hnot command rfl).elim

/-- An append to another revision than the current one is refused. -/
theorem append_of_stale {command : ArtifactAppendCommand}
    (hunused : s.Unused command.idempotency.key)
    (hstale : s.revisionOf command.scope.orgId command.artifactId ≠ command.expectedRevision) :
    s.answer (.append command) = (.error .conflict, s) := by
  have hreplay := replay_of_unused hunused
  simp only [answer, appendRevision, hreplay]
  cases hcurrent : s.records.get? (command.scope.orgId, command.artifactId) with
  | none => simp [Except.map]
  | some current =>
      have hnumber : current.artifact.currentRevision ≠ command.expectedRevision := by
        simpa [revisionOf, hcurrent] using hstale
      simp [hnumber, Except.map]

/-- An append the store admits to the current revision is carried out. -/
theorem append_of_current {command : ArtifactAppendCommand}
    (hunused : s.Unused command.idempotency.key) {current : ArtifactStoredRecord}
    (hcurrent : s.records.get? (command.scope.orgId, command.artifactId) = some current)
    (huser : current.artifact.userId = command.scope.userId)
    (hlive : current.artifact.deletedAt = none)
    (hexpected : current.artifact.currentRevision = command.expectedRevision)
    {rows : List OutboxRow} (hrows : command.ledgerEvent.toList.mapM
      (artifactEventOutboxRow · command.artifactId) = some rows)
    (hadmits : s.Admits rows (appendEdge command)) :
    s.answer (.append command) = (.ok (some (appended current command.revision)),
      s.committed command.idempotency (appended current command.revision) command.scope.orgId
        command.artifactId rows (appendEdge command)) := by
  have hreplay := replay_of_unused hunused
  have hcommit := commit_of_admits hadmits command.idempotency
    (appended current command.revision) command.scope.orgId command.artifactId
  simp only [appendEdge] at hcommit
  simp [answer, appendRevision, hreplay, hcurrent, huser, hlive, hexpected, hrows, hcommit,
    appendEdge, Except.map]

/-- The laws of the store, in a state and for what is asked of it next. -/
structure StoreLaws (s : ArtifactMetadataStore) : Prop where
  chain : ∀ orgId artifactId record, s.records.get? (orgId, artifactId) = some record →
    ∀ n, (s.revisions.get? (orgId, artifactId, n)).isSome ↔
      1 ≤ n ∧ n ≤ record.artifact.currentRevision
  immutable : ∀ orgId artifactId n revision,
    s.revisions.get? (orgId, artifactId, n) = some revision →
      ∀ command, ¬ Purges s command orgId artifactId →
        (takeCommand s command).revisions.get? (orgId, artifactId, n) = some revision
  append_once : ∀ command : ArtifactAppendCommand, s.Unused command.idempotency.key →
    (s.revisions.get? (command.scope.orgId, command.artifactId,
      command.expectedRevision + 1)).isSome →
      s.answer (.append command) = (.error .conflict, s)
  append_first : ∀ (command : ArtifactAppendCommand) current rows,
    s.Unused command.idempotency.key →
    s.records.get? (command.scope.orgId, command.artifactId) = some current →
    current.artifact.userId = command.scope.userId → current.artifact.deletedAt = none →
    current.artifact.currentRevision = command.expectedRevision →
    command.ledgerEvent.toList.mapM (artifactEventOutboxRow · command.artifactId) = some rows →
    s.Admits rows (appendEdge command) →
      (s.answer (.append command)).1 = .ok (some (appended current command.revision)) ∧
        (s.answer (.append command)).2.revisions.get? (command.scope.orgId, command.artifactId,
          command.expectedRevision + 1) = some command.revision
  repeated : ∀ m record s', s.Unused m.binding.key → s.answer m = (.ok record, s') →
    ∀ commands, KeptAlong m.binding.key.orgId m.artifactId s' commands →
      ∀ m' : Mutation, m.SameKind m' → m'.binding.key = m.binding.key →
        (commands.foldl takeCommand s').answer m' =
          (if m'.binding.requestDigest = m.binding.requestDigest then .ok record
            else .error .idempotencyConflict, commands.foldl takeCommand s')
  failed : ∀ m e s', s.answer m = (.error e, s') → s' = s

theorem storeLaws_of_consistent (h : Consistent s) : StoreLaws s where
  chain orgId artifactId record hrecord n := by
    rw [h.chain, hrecord]
    simp
  immutable orgId artifactId n revision hstored command hkept := revision_kept h hstored hkept
  append_once command hunused hstored := by
    obtain ⟨record, hrecord, -, hle⟩ := (h.chain _ _ _).mp hstored
    refine append_of_stale hunused ?_
    have hnumber : s.revisionOf command.scope.orgId command.artifactId =
        record.artifact.currentRevision := by
      simp [revisionOf, hrecord]
    omega
  append_first command current rows hunused hcurrent huser hlive hexpected hrows hadmits := by
    have hok := append_of_current hunused hcurrent huser hlive hexpected hrows hadmits
    rw [hok]
    refine ⟨rfl, ?_⟩
    have hnumber : command.expectedRevision + 1 = (appendEdge command).key.revision :=
      command.increments.symm
    rw [hnumber]
    exact Dict.get?_set_self _ _ _
  repeated m record s' hunused hok commands hkept m' hkind hkey := by
    rcases s.answer_cases m with
      ⟨e, he⟩ | ⟨result, hbound, -⟩ | ⟨-, record', s'', hperforms, hok'⟩
    · rw [he] at hok
      cases hok
    · rw [Unused, hbound] at hunused
      cases hunused
    · rw [hok'] at hok
      obtain ⟨hrecord, rfl⟩ := Prod.mk.inj hok
      obtain rfl := Except.ok.inj hrecord
      have hremembers := hperforms.remembers.foldl hkept
      rw [← hkey] at hremembers
      split
      · next hdigest =>
          rw [← hdigest] at hremembers
          exact answer_of_remembered hperforms hkind hremembers
      · next hdigest => exact answer_of_other_digest hremembers.1 (Ne.symm hdigest)
  failed m e s' herror := by
    rcases s.answer_cases m with ⟨e, he⟩ | ⟨result, -, hok⟩ | ⟨-, record, s'', -, hok⟩
    · rw [he] at herror
      exact (Prod.mk.inj herror).2.symm
    · rw [hok] at herror
      cases herror
    · rw [hok] at herror
      cases herror

/-- After any commands the laws hold, and a key is remembered until its artifact is purged. -/
theorem store_laws_hold (commands : List StoreCommand) :
    StoreLaws (commands.foldl takeCommand initial) :=
  storeLaws_of_consistent (consistent_foldl consistent_initial commands)

/-! ### A purge forgets keys -/

def sampleScope : ArtifactScope where
  orgId := "org"
  userId := "user"
  conversationId := "conv"
  runId := some "run"
  traceId := "trace"
  lane := .run
  runIsTerminal := false
  lane_names_its_subject := by decide

/-- A one-revision document with its request digest. -/
def sampleCreate (artifactId digest : String) : ArtifactCreateCommand where
  record :=
    { artifact :=
        { artifactId, orgId := "org", userId := "user", conversationId := "conv", runId := "run"
          kind := .document, title := "Notes", mediaType := "text/plain", currentRevision := 1
          createdBy := .model, accent := none, createdAt := 10, updatedAt := 10
          deletedAt := none }
      currentRevision :=
        { revision :=
            { artifactId, revision := 1, parentRevision := none, contentRef := "ref"
              contentDigest := "bytes", byteSize := 5, author := .model, sourceRef := none
              createdAt := 10 }
          blobKey := "bytes", rangeSupported := true, blob_matches := rfl }
      suggestedFilename := none }
  idempotency := ⟨⟨"org", "user", "INTERNAL:artifact.publish", "key"⟩, digest⟩
  ledgerEvents := [⟨artifactId, sampleScope,
    .created artifactId .document 1 "ref" "bytes" .model, 10⟩]
  record_matches := ⟨rfl, rfl⟩
  is_revision_one := rfl
  has_no_parent := rfl
  has_event := List.cons_ne_nil _ _

/-- Delete the first document and purge it. -/
def deleteAndPurge : List StoreCommand :=
  [.mutate (.softDelete ⟨"org", "user", "art_1", 20,
      ⟨⟨"org", "user", "DELETE:/v1/agent/artifacts/\x7bartifact_id\x7d", "key"⟩, "delete"⟩⟩),
    .purge ⟨"org", none, none, []⟩ 30 10]

/-- Once its artifact is purged, a key may be used again for something else. -/
theorem purged_key_is_forgotten :
    ¬ ∀ (before after : List StoreCommand) (m m' : Mutation) record s',
      (before.foldl takeCommand initial).Unused m.binding.key →
      (before.foldl takeCommand initial).answer m = (.ok record, s') →
      m.SameKind m' → m'.binding.key = m.binding.key →
      m'.binding.requestDigest ≠ m.binding.requestDigest →
        ((after.foldl takeCommand s').answer m').1 = .error .idempotencyConflict := by
  intro h
  have hrefused := h [.publishBlob "bytes" "hello"] deleteAndPurge
    (.create (sampleCreate "art_1" "first")) (.create (sampleCreate "art_2" "second"))
    (some (sampleCreate "art_1" "first").record) _ rfl (Prod.ext (by decide) rfl) trivial
    rfl (by decide)
  revert hrefused
  decide

end ArtifactMetadataStore

end CopilotRuntime.Artifacts
