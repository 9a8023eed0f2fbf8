import CopilotRuntime.Artifacts.Service
import CopilotRuntime.Artifacts.StoreLaws
import CopilotRuntime.Foundation.Outcome

/-!
# What artifact events name

Every event in the outbox names an artifact and a revision that are stored, and
every revision a run has caused is announced by exactly one of them. What the
service publishes is in the outbox, unless a creation is a retry: the store
then answers with the earlier artifact while the events are those of the id
just minted.

## Implementation notes

Digests need not be injective; those of the requests and bodies of one run are
taken to differ where the requests and bodies do. What acknowledges an event
only changes its status.
-/

namespace CopilotRuntime.Artifacts

open Foundation

/-! ### What an event names -/

namespace ArtifactEventPayload

def artifactId : ArtifactEventPayload → String
  | .created artifactId .. => artifactId
  | .presentationDecided artifactId .. => artifactId
  | .promoted artifactId .. => artifactId
  | .revised artifactId .. => artifactId

/-- The revision an event names. -/
def revision? : ArtifactEventPayload → Option Nat
  | .created _ _ revision .. => some revision
  | .presentationDecided .. => none
  | .promoted _ _ _ revision => some revision
  | .revised _ revision .. => some revision

/-- The revision an event announces. -/
def announces? : ArtifactEventPayload → Option Nat
  | .created _ _ revision .. => some revision
  | .revised _ revision .. => some revision
  | _ => none

theorem revision?_of_announces? {payload : ArtifactEventPayload} {n : Nat}
    (h : payload.announces? = some n) : payload.revision? = some n := by
  cases payload <;> simp_all [announces?, revision?]

end ArtifactEventPayload

/-- The artifact and the revision an event names are stored. -/
def SubjectExists (s : ArtifactMetadataStore) (orgId : String) (payload : ArtifactEventPayload) :
    Prop :=
  (s.records.get? (orgId, payload.artifactId)).isSome ∧
    ∀ n ∈ payload.revision?, (s.revisions.get? (orgId, payload.artifactId, n)).isSome

def Publication.Announces (p : Publication) (orgId artifactId : String) (n : Nat) : Prop :=
  p.orgId = orgId ∧ p.payload.artifactId = artifactId ∧ p.payload.announces? = some n

/-- The outbox holds an event. -/
def Held (s : ArtifactMetadataStore) (p : Publication) : Prop :=
  ∃ row, s.outbox.get? p.eventId = some row ∧ row.command.publication = p

/-! ### Rows of the outbox -/

theorem insertOutbox_cons (outbox : Dict String OutboxRow) (row : OutboxRow)
    (rows : List OutboxRow) : ArtifactMetadataStore.insertOutbox outbox (row :: rows) =
      ArtifactMetadataStore.insertOutbox (outbox.set row.id row) rows :=
  rfl

variable {rows : List OutboxRow} {id : String}

/-- Rows under other ids leave a row as it is. -/
theorem get?_insertOutbox_of_ne (h : ∀ row ∈ rows, row.id ≠ id) (outbox : Dict String OutboxRow) :
    (ArtifactMetadataStore.insertOutbox outbox rows).get? id = outbox.get? id := by
  induction rows generalizing outbox with
  | nil => rfl
  | cons row rest ih =>
      rw [insertOutbox_cons, ih (fun r hr => h r (List.mem_cons_of_mem _ hr)),
        Dict.get?_set_of_ne _ _ (h row List.mem_cons_self)]

/-- A row found after an insertion was inserted or was there before. -/
theorem insertOutbox_cases {outbox : Dict String OutboxRow} {found : OutboxRow}
    (h : (ArtifactMetadataStore.insertOutbox outbox rows).get? id = some found) :
    (found ∈ rows ∧ found.id = id) ∨ outbox.get? id = some found := by
  induction rows generalizing outbox with
  | nil => exact .inr h
  | cons row rest ih =>
      rw [insertOutbox_cons] at h
      rcases ih h with ⟨hmem, hid⟩ | hold
      · exact .inl ⟨List.mem_cons_of_mem _ hmem, hid⟩
      · rw [Dict.get?_set] at hold
        split at hold
        · next heq =>
            obtain rfl := Option.some.inj hold
            exact .inl ⟨List.mem_cons_self, heq⟩
        · exact .inr hold

/-- Rows of different ids are all found after their insertion. -/
theorem get?_insertOutbox_of_mem (hnodup : (rows.map (·.id)).Nodup) {row : OutboxRow}
    (hmem : row ∈ rows) (outbox : Dict String OutboxRow) :
    (ArtifactMetadataStore.insertOutbox outbox rows).get? row.id = some row := by
  induction rows generalizing outbox with
  | nil => cases hmem
  | cons head rest ih =>
      rw [List.map_cons, List.nodup_cons] at hnodup
      rw [insertOutbox_cons]
      rcases List.mem_cons.mp hmem with rfl | hrest
      · have hother : ∀ r ∈ rest, r.id ≠ row.id := by
          intro r hr heq
          exact hnodup.1 (List.mem_map.mpr ⟨r, hr, heq⟩)
        rw [get?_insertOutbox_of_ne hother, Dict.get?_set_self]
      · exact ih hnodup.2 hrest _

variable {s : ArtifactMetadataStore}

/-- A row is kept by rows the outbox accepts. -/
theorem get?_insertOutbox_of_accepts (haccepts : s.outboxAccepts rows = true) {found : OutboxRow}
    (h : s.outbox.get? id = some found) :
    (ArtifactMetadataStore.insertOutbox s.outbox rows).get? id = some found := by
  have hsame : ∀ row ∈ rows, row.id = id → row = found := by
    intro row hmem hid
    have hrow := List.all_eq_true.mp haccepts row hmem
    rw [hid, h, Option.all_some, beq_iff_eq] at hrow
    exact hrow.symm
  clear haccepts
  generalize s.outbox = outbox at h
  induction rows generalizing outbox with
  | nil => exact h
  | cons row rest ih =>
      rw [insertOutbox_cons]
      refine ih (fun r hr => hsame r (List.mem_cons_of_mem _ hr)) _ ?_
      rw [Dict.get?_set]
      split
      · next heq => rw [hsame row List.mem_cons_self heq]
      · exact h

/-! ### Events and their rows -/

theorem forall₂_of_mapM {α β : Type} {f : α → Option β} {xs : List α} {ys : List β}
    (h : xs.mapM f = some ys) : List.Forall₂ (fun x y => f x = some y) xs ys := by
  induction xs generalizing ys with
  | nil =>
      simp only [List.mapM_nil] at h
      obtain rfl := Option.some.inj h
      exact .nil
  | cons x rest ih =>
      simp only [List.mapM_cons] at h
      obtain ⟨y, hy, h⟩ := Option.bind_eq_some_iff.mp h
      obtain ⟨ys', hys, h⟩ := Option.bind_eq_some_iff.mp h
      obtain rfl := Option.some.inj h
      exact .cons hy (ih hys)

/-- What an event is in the ledger of its run. -/
def ArtifactLedgerEvent.publication? (event : ArtifactLedgerEvent) : Option Publication :=
  event.scope.runId.map fun runId => ⟨event.scope.orgId, runId, event.eventId, event.payload⟩

variable {artifactId : String}

theorem row_of_event {event : ArtifactLedgerEvent} {row : OutboxRow}
    (h : artifactEventOutboxRow event artifactId = some row) :
    row.id = event.eventId ∧ row.command.eventId = event.eventId ∧
      event.publication? = some row.command.publication := by
  obtain ⟨runId, hrun, rfl⟩ := Option.map_eq_some_iff.mp h
  exact ⟨rfl, rfl, by simp [ArtifactLedgerEvent.publication?, hrun,
    RuntimeArtifactEventCommand.publication]⟩

theorem publication_of_publish {ctx : CallContext} {event : ArtifactLedgerEvent} {p : Publication}
    (h : publish ctx event = some p) : event.publication? = some p := by
  simp only [publish, bind, Option.bind_eq_some_iff] at h
  obtain ⟨append, -, runId, hrunId, run, -, hp⟩ := h
  split at hp
  · simpa [ArtifactLedgerEvent.publication?, hrunId] using hp
  · cases hp

/-! ### What a commit does to the outbox -/

section Commit
variable {s : ArtifactMetadataStore} {binding : ArtifactIdempotencyBinding}
  {record : ArtifactStoredRecord} {orgId artifactId : String} {rows : List OutboxRow}
  {edge : ArtifactReferenceEdge}

/-- What the outbox holds after a commit it held before, or it is one of the rows. -/
theorem held_committed_cases {p : Publication}
    (h : Held (s.committed binding record orgId artifactId rows edge) p) :
    Held s p ∨ ∃ row ∈ rows, row.command.publication = p := by
  obtain ⟨row, hrow, hp⟩ := h
  rcases insertOutbox_cases hrow with ⟨hmem, -⟩ | hold
  · exact .inr ⟨row, hmem, hp⟩
  · exact .inl ⟨row, hold, hp⟩

theorem Held.committed (haccepts : s.outboxAccepts rows = true) {p : Publication}
    (h : Held s p) : Held (s.committed binding record orgId artifactId rows edge) p := by
  obtain ⟨row, hrow, hp⟩ := h
  exact ⟨row, get?_insertOutbox_of_accepts haccepts hrow, hp⟩

theorem held_of_mem (hnodup : (rows.map (·.id)).Nodup) {row : OutboxRow} (hmem : row ∈ rows)
    (hid : row.id = row.command.eventId) :
    Held (s.committed binding record orgId artifactId rows edge) row.command.publication := by
  refine ⟨row, ?_, rfl⟩
  have hfound := get?_insertOutbox_of_mem hnodup hmem s.outbox
  rw [hid] at hfound
  exact hfound

/-- The revision a commit adds is not stored yet. -/
theorem revision_fresh (h : ArtifactMetadataStore.Consistent s) {n : Nat} (hnext : n = s.revisionOf orgId artifactId + 1) :
    s.revisions.get? (orgId, artifactId, n) = none := by
  cases hstored : s.revisions.get? (orgId, artifactId, n) with
  | none => rfl
  | some revision =>
      obtain ⟨old, hold, -, hle⟩ := (h.chain orgId artifactId n).mp (by rw [hstored]; rfl)
      have hcurrent : s.revisionOf orgId artifactId = old.artifact.currentRevision := by
        simp [ArtifactMetadataStore.revisionOf, hold]
      omega

end Commit

/-! ### The invariant -/

/-- A run has caused every first revision, and every later one that is not the user's own. -/
def CausedByRun (n : Nat) (author : ArtifactAuthor) : Prop := n = 1 ∨ author ≠ .user

instance (n : Nat) (author : ArtifactAuthor) : Decidable (CausedByRun n author) := by
  unfold CausedByRun
  infer_instance

/-- A key under which artifacts are created. -/
def IsCreationRoute (route : String) : Prop :=
  ∃ operation, (operation = .create ∨ operation = .publish ∨ operation = .promote) ∧
    route = Routes.forOperation operation

/-- What putting the body of a creation gives. -/
def Creation.written (d : Digests) (c : Creation) : ArtifactBlobWriteResult :=
  ⟨d.content c.body, c.body.length⟩

/-- The key was used for a creation of the run, whose events are in the outbox. -/
def RemembersCreation (d : Digests) (creations : List Creation) (s : ArtifactMetadataStore)
    (key : IdempotencyKey) (digest artifactId : String) : Prop :=
  ∃ c ∈ creations, c.artifactId = artifactId ∧ c.scope.orgId = key.orgId ∧
    d.request (c.values (d.content c.body)) = digest ∧
    ∀ event ∈ c.events d (c.written d), ∀ p, event.publication? = some p → Held s p

variable {d : Digests} {creations : List Creation} {s' : ArtifactMetadataStore}

theorem RemembersCreation.mono {key : IdempotencyKey} {digest : String}
    (h : RemembersCreation d creations s key digest artifactId)
    (hheld : ∀ p, Held s p → Held s' p) :
    RemembersCreation d creations s' key digest artifactId := by
  obtain ⟨c, hmem, hid, horg, hdigest, hevents⟩ := h
  exact ⟨c, hmem, hid, horg, hdigest, fun event he p hp => hheld p (hevents event he p hp)⟩

/-- The events in the outbox are those of the stored revisions. -/
structure EventsSound (d : Digests) (creations : List Creation) (s : ArtifactMetadataStore) :
    Prop where
  consistent : ArtifactMetadataStore.Consistent s
  keyed : ∀ id row, s.outbox.get? id = some row → row.command.eventId = id
  subjects : ∀ p, Held s p → SubjectExists s p.orgId p.payload
  announced : ∀ orgId artifactId n revision,
    s.revisions.get? (orgId, artifactId, n) = some revision →
      CausedByRun n revision.revision.author → ∃ p, Held s p ∧ p.Announces orgId artifactId n
  unannounced : ∀ orgId artifactId n revision,
    s.revisions.get? (orgId, artifactId, n) = some revision →
      ¬ CausedByRun n revision.revision.author → ∀ p, Held s p → ¬ p.Announces orgId artifactId n
  once : ∀ p q orgId artifactId n, Held s p → Held s q → p.Announces orgId artifactId n →
    q.Announces orgId artifactId n → p = q
  remembered : ∀ key digest result, s.idempotency.get? key = some (digest, some result) →
    IsCreationRoute key.route →
      RemembersCreation d creations s key digest result.record.artifact.artifactId

theorem eventsSound_initial (d : Digests) (creations : List Creation) :
    EventsSound d creations ArtifactMetadataStore.initial where
  consistent := ArtifactMetadataStore.consistent_initial
  keyed id row h := by cases h
  subjects p h := by
    obtain ⟨row, hrow, -⟩ := h
    cases hrow
  announced orgId artifactId n revision h := by cases h
  unannounced orgId artifactId n revision h := by cases h
  once p q orgId artifactId n h := by
    obtain ⟨row, hrow, -⟩ := h
    cases hrow
  remembered key digest result h := by cases h

variable {orgId : String}

theorem SubjectExists.mono {payload : ArtifactEventPayload} (h : SubjectExists s orgId payload)
    (hrecords : ∀ key, (s.records.get? key).isSome → (s'.records.get? key).isSome)
    (hrevisions : ∀ key, (s.revisions.get? key).isSome → (s'.revisions.get? key).isSome) :
    SubjectExists s' orgId payload :=
  ⟨hrecords _ h.1, fun n hn => hrevisions _ (h.2 n hn)⟩

/-- An event in the outbox that announces a revision names a stored one. -/
theorem EventsSound.stored_of_announces (h : EventsSound d creations s) {p : Publication}
    (hheld : Held s p) {n : Nat} (hannounces : p.Announces orgId artifactId n) :
    (s.revisions.get? (orgId, artifactId, n)).isSome := by
  obtain ⟨rfl, rfl, hn⟩ := hannounces
  exact (h.subjects p hheld).2 n (ArtifactEventPayload.revision?_of_announces? hn)

/-- A step that changes no revision and no event keeps the invariant. -/
theorem EventsSound.of_frame (h : EventsSound d creations s)
    (hconsistent : ArtifactMetadataStore.Consistent s')
    (hkeyed : ∀ id row, s'.outbox.get? id = some row → row.command.eventId = id)
    (hheld : ∀ p, Held s' p ↔ Held s p)
    (hrecords : ∀ key, (s.records.get? key).isSome → (s'.records.get? key).isSome)
    (hrevisions : s'.revisions = s.revisions)
    (hidempotency : ∀ key bound, s'.idempotency.get? key = some bound →
      IsCreationRoute key.route → s.idempotency.get? key = some bound) :
    EventsSound d creations s' where
  consistent := hconsistent
  keyed := hkeyed
  subjects p hp := (h.subjects p ((hheld p).mp hp)).mono hrecords (by rw [hrevisions]; simp)
  announced orgId artifactId n revision hstored hcaused := by
    rw [hrevisions] at hstored
    obtain ⟨p, hp, hannounces⟩ := h.announced orgId artifactId n revision hstored hcaused
    exact ⟨p, (hheld p).mpr hp, hannounces⟩
  unannounced orgId artifactId n revision hstored hcaused p hp := by
    rw [hrevisions] at hstored
    exact h.unannounced orgId artifactId n revision hstored hcaused p ((hheld p).mp hp)
  once p q orgId artifactId n hp hq :=
    h.once p q orgId artifactId n ((hheld p).mp hp) ((hheld q).mp hq)
  remembered key digest result hbound hroute :=
    (h.remembered key digest result (hidempotency key _ hbound hroute) hroute).mono
      fun p hp => (hheld p).mpr hp

/-- The rows a commit adds are about the revision it adds: one announces it if a run has caused
it, and there is none otherwise. -/
structure RowsOfRevision (orgId artifactId : String) (n : Nat) (author : ArtifactAuthor)
    (rows : List OutboxRow) : Prop where
  nodup : (rows.map (·.id)).Nodup
  keyed : ∀ row ∈ rows, row.id = row.command.eventId
  subject : ∀ row ∈ rows, row.command.orgId = orgId ∧
    row.command.payload.artifactId = artifactId ∧ ∀ m ∈ row.command.payload.revision?, m = n
  announced : CausedByRun n author → ∃ row ∈ rows, row.command.payload.announces? = some n ∧
    ∀ other ∈ rows, other.command.payload.announces? = some n → other = row
  unannounced : ¬ CausedByRun n author → rows = []

theorem EventsSound.committed (h : EventsSound d creations s)
    {binding : ArtifactIdempotencyBinding} {record : ArtifactStoredRecord}
    {edge : ArtifactReferenceEdge}
    (hadmits : s.Admits rows edge)
    (hnamed : (record.artifact.orgId, record.artifact.artifactId) = (orgId, artifactId))
    (hnumber : edge.key.revision = record.artifact.currentRevision)
    (hnext : record.artifact.currentRevision = s.revisionOf orgId artifactId + 1)
    (hrows : RowsOfRevision orgId artifactId record.artifact.currentRevision
      record.currentRevision.revision.author rows)
    (hbinding : IsCreationRoute binding.key.route →
      RemembersCreation d creations (s.committed binding record orgId artifactId rows edge)
        binding.key binding.requestDigest artifactId) :
    EventsSound d creations (s.committed binding record orgId artifactId rows edge) := by
  generalize hn : record.artifact.currentRevision = n at *
  have hfresh := revision_fresh h.consistent hnext
  -- What the outbox already holds is about other revisions.
  have hother : ∀ p, Held s p → ¬ p.Announces orgId artifactId n := by
    intro p hp hannounces
    have hstored := h.stored_of_announces hp hannounces
    rw [hfresh] at hstored
    cases hstored
  have hsubject : ∀ row ∈ rows, ∀ org id m, row.command.publication.Announces org id m →
      org = orgId ∧ id = artifactId ∧ m = n := by
    rintro row hmem org id m ⟨horg, hid, hm⟩
    obtain ⟨horg', hid', hrev⟩ := hrows.subject row hmem
    exact ⟨horg.symm.trans horg', hid.symm.trans hid',
      hrev m (ArtifactEventPayload.revision?_of_announces? hm)⟩
  have hheld : ∀ row ∈ rows, Held (s.committed binding record orgId artifactId rows edge)
      row.command.publication :=
    fun row hmem => held_of_mem hrows.nodup hmem (hrows.keyed row hmem)
  have hrecords : ∀ key, (s.records.get? key).isSome →
      ((s.committed binding record orgId artifactId rows edge).records.get? key).isSome := by
    intro key hkey
    simp only [ArtifactMetadataStore.committed, Dict.get?_set]
    split
    · rfl
    · exact hkey
  have hrevisions : ∀ key, (s.revisions.get? key).isSome →
      ((s.committed binding record orgId artifactId rows edge).revisions.get? key).isSome := by
    intro key hkey
    simp only [ArtifactMetadataStore.committed, Dict.get?_set]
    split
    · rfl
    · exact hkey
  constructor
  case consistent =>
    exact h.consistent.committed binding rows hnamed (hnumber.trans hn.symm) (hn.trans hnext)
  case keyed =>
    intro id row hrow
    rcases insertOutbox_cases hrow with ⟨hmem, hid⟩ | hold
    · exact (hrows.keyed row hmem).symm.trans hid
    · exact h.keyed id row hold
  case subjects =>
    intro p hp
    rcases held_committed_cases hp with hold | ⟨row, hmem, rfl⟩
    · exact (h.subjects p hold).mono hrecords hrevisions
    · obtain ⟨horg, hid, hrev⟩ := hrows.subject row hmem
      simp only [RuntimeArtifactEventCommand.publication, SubjectExists, horg, hid]
      refine ⟨by simp [ArtifactMetadataStore.committed], fun m hm => ?_⟩
      rw [hrev m hm]
      simp [ArtifactMetadataStore.committed, hnumber]
  case announced =>
    intro org id m revision hstored hcaused
    simp only [ArtifactMetadataStore.committed, Dict.get?_set, hnumber] at hstored
    split at hstored
    · next heq =>
        simp only [Prod.mk.injEq] at heq
        obtain ⟨rfl, rfl, rfl⟩ := heq
        obtain rfl := Option.some.inj hstored
        obtain ⟨row, hmem, hannounces, -⟩ := hrows.announced hcaused
        obtain ⟨horg, hid, -⟩ := hrows.subject row hmem
        exact ⟨row.command.publication, hheld row hmem, horg, hid, hannounces⟩
    · obtain ⟨p, hp, hannounces⟩ := h.announced org id m revision hstored hcaused
      exact ⟨p, hp.committed hadmits.1, hannounces⟩
  case unannounced =>
    intro org id m revision hstored hcaused p hp hannounces
    simp only [ArtifactMetadataStore.committed, Dict.get?_set, hnumber] at hstored
    split at hstored
    · next heq =>
        simp only [Prod.mk.injEq] at heq
        obtain ⟨rfl, rfl, rfl⟩ := heq
        obtain rfl := Option.some.inj hstored
        rcases held_committed_cases hp with hold | ⟨row, hmem, -⟩
        · exact hother p hold hannounces
        · rw [hrows.unannounced hcaused] at hmem
          cases hmem
    · next hne =>
        rcases held_committed_cases hp with hold | ⟨row, hmem, rfl⟩
        · exact h.unannounced org id m revision hstored hcaused p hold hannounces
        · obtain ⟨rfl, rfl, rfl⟩ := hsubject row hmem org id m hannounces
          exact hne rfl
  case once =>
    intro p q org id m hp hq hannounces hannounces'
    rcases held_committed_cases hp with hold | ⟨row, hmem, rfl⟩
    · rcases held_committed_cases hq with hold' | ⟨row', hmem', rfl⟩
      · exact h.once p q org id m hold hold' hannounces hannounces'
      · obtain ⟨rfl, rfl, rfl⟩ := hsubject row' hmem' org id m hannounces'
        exact (hother p hold hannounces).elim
    · obtain ⟨rfl, rfl, rfl⟩ := hsubject row hmem org id m hannounces
      rcases held_committed_cases hq with hold' | ⟨row', hmem', rfl⟩
      · exact (hother q hold' hannounces').elim
      · by_cases hcaused : CausedByRun m record.currentRevision.revision.author
        · obtain ⟨first, -, -, honly⟩ := hrows.announced hcaused
          rw [honly row hmem hannounces.2.2, honly row' hmem' hannounces'.2.2]
        · rw [hrows.unannounced hcaused] at hmem
          cases hmem
  case remembered =>
    intro key digest result hbound hroute
    simp only [ArtifactMetadataStore.committed, Dict.get?_set] at hbound
    split at hbound
    · next heq =>
        subst heq
        simp only [Option.some.injEq, Prod.mk.injEq] at hbound
        obtain ⟨rfl, rfl⟩ := hbound
        rw [(Prod.mk.inj hnamed).2]
        exact hbinding hroute
    · exact (h.remembered key digest result hbound hroute).mono
        fun p hp => hp.committed hadmits.1

/-! ### Rows of a command's events -/

section Rows
variable {events : List ArtifactLedgerEvent} {artifactId : String} {rows : List OutboxRow}
  (h : List.Forall₂ (fun event row => artifactEventOutboxRow event artifactId = some row)
    events rows)
include h

theorem map_id_of_rows : rows.map (·.id) = events.map (·.eventId) :=
  (map_eq_map_iff_forall₂.mpr (h.imp fun _ _ hrow => (row_of_event hrow).1.symm)).symm

theorem map_payload_of_rows : rows.map (·.command.payload) = events.map (·.payload) := by
  refine (map_eq_map_iff_forall₂.mpr (h.imp fun event row hrow => ?_)).symm
  obtain ⟨runId, -, rfl⟩ := Option.map_eq_some_iff.mp hrow
  rfl

end Rows

/-! ### The events of a creation -/

namespace Creation
variable {d : Digests} {c : Creation} {written : ArtifactBlobWriteResult}

theorem map_payload_events : (c.events d written).map (·.payload) = c.payloads written := by
  cases hpromoted : c.promotedSourceRef <;> simp [events, payloads, ledgerEvent, hpromoted]

theorem scope_of_mem_events {event : ArtifactLedgerEvent} (h : event ∈ c.events d written) :
    event.scope = c.scope := by
  obtain ⟨i, hi, rfl⟩ := List.mem_mapIdx.mp h
  rfl

/-- Every event of a creation names the new artifact, and no revision but the first. -/
theorem names_of_mem_payloads {payload : ArtifactEventPayload} (h : payload ∈ c.payloads written) :
    payload.artifactId = c.artifactId ∧ ∀ m ∈ payload.revision?, m = 1 := by
  simp only [payloads, List.mem_append, List.mem_cons, List.not_mem_nil, or_false,
    Option.mem_toList, Option.map_eq_some_iff] at h
  rcases h with (rfl | rfl) | ⟨sourceRef, -, rfl⟩ <;>
    simp [ArtifactEventPayload.artifactId, ArtifactEventPayload.revision?]

theorem rowsOfRevision {rows : List OutboxRow}
    (hrows : List.Forall₂ (fun event row => artifactEventOutboxRow event c.artifactId = some row)
      (c.events d written) rows)
    (hnodup : ((c.events d written).map (·.eventId)).Nodup) (author : ArtifactAuthor) :
    RowsOfRevision c.scope.orgId c.artifactId 1 author rows where
  nodup := by rw [map_id_of_rows hrows]; exact hnodup
  keyed row hmem := by
    obtain ⟨event, -, hrow⟩ := exists_left_of_forall₂ hrows hmem
    obtain ⟨hid, hevent, -⟩ := row_of_event hrow
    exact hid.trans hevent.symm
  subject row hmem := by
    obtain ⟨event, he, hrow⟩ := exists_left_of_forall₂ hrows hmem
    have hpayload := List.mem_map_of_mem (f := (·.payload)) he
    rw [map_payload_events] at hpayload
    obtain ⟨runId, hrun, rfl⟩ := Option.map_eq_some_iff.mp hrow
    exact ⟨by simp [scope_of_mem_events he], names_of_mem_payloads hpayload⟩
  announced _ := by
    have hpayloads := (map_payload_of_rows hrows).trans map_payload_events
    cases rows with
    | nil => cases hpayloads
    | cons first rest =>
        simp only [payloads, List.map_cons, List.cons_append, List.nil_append,
          List.cons.injEq] at hpayloads
        obtain ⟨hfirst, hrest⟩ := hpayloads
        refine ⟨first, List.mem_cons_self, by rw [hfirst]; rfl, ?_⟩
        -- Neither the presentation nor the promotion announces a revision.
        intro other hother hannounces
        rcases List.mem_cons.mp hother with rfl | hmem
        · rfl
        · have hpayload := List.mem_map_of_mem (f := (·.command.payload)) hmem
          rw [hrest] at hpayload
          simp only [List.mem_cons, Option.mem_toList, Option.map_eq_some_iff] at hpayload
          rcases hpayload with hp | ⟨sourceRef, -, hp⟩
          · rw [hp] at hannounces
            cases hannounces
          · rw [← hp] at hannounces
            cases hannounces
  unannounced hcaused := (hcaused (.inl rfl)).elim

/-- What the events of a creation are in the ledger of its run. -/
def publications (d : Digests) (c : Creation) (written : ArtifactBlobWriteResult) :
    List Publication :=
  (c.payloads written).mapIdx fun ordinal payload =>
    ⟨c.scope.orgId, c.request.runId, "artevt_" ++
      d.publication ⟨some c.request.runId, c.artifactId, 1, eventType payload, ordinal⟩, payload⟩

theorem map_publication_events :
    (c.events d written).map (·.publication?) = (c.publications d written).map some := by
  cases hpromoted : c.promotedSourceRef <;>
    simp [events, publications, payloads, ledgerEvent, ArtifactLedgerEvent.publication?, c.in_run,
      hpromoted]

end Creation

theorem forOperation_inj {a b : ArtifactOperation}
    (h : Routes.forOperation a = Routes.forOperation b) : a = b := by
  cases a <;> cases b <;> first | rfl | (exact absurd h (by decide))

/-- Requests for the same thing, for one artifact, publish the same events. -/
theorem Creation.publications_congr {c c' : Creation}
    (hvalues : c.values (d.content c.body) = c'.values (d.content c'.body))
    (hbody : c.body = c'.body) (hid : c.artifactId = c'.artifactId)
    (horg : c.scope.orgId = c'.scope.orgId) :
    c.publications d (c.written d) = c'.publications d (c'.written d) := by
  simp only [values, RequestValues.create.injEq] at hvalues
  obtain ⟨hroute, hrun, hkind, -, -, -, hpreference, hauthor, hsource, -, -⟩ := hvalues
  have hpromoted : c.promotedSourceRef = c'.promotedSourceRef := by
    rw [c.promoted_matches, c'.promoted_matches, forOperation_inj hroute, hsource]
  simp only [publications, payloads, written, hrun, hkind, hpreference, hauthor, hbody, hid,
    horg, hpromoted]

/-! ### What a call does -/

theorem putStream_ok {c c' : ArtifactPublicationCoordinator} {expectedDigest : Option String}
    {body : String} {byteLimit : Nat} {written : ArtifactBlobWriteResult}
    (h : putStream d c expectedDigest body byteLimit = (.ok written, c')) :
    written = ⟨d.content body, body.length⟩ := by
  unfold putStream at h
  split at h
  · cases h
  · simp only at h
    split at h
    · cases h
    · split at h
      · cases h
        rfl
      · split at h
        · cases h
          rfl
        · cases h

/-- A creation writes no row, is answered from its key, or is carried out. -/
theorem createInScope_cases (d : Digests) (limits : ArtifactLimits) (ctx : CallContext)
    (s : ArtifactMetadataStore) (c : Creation) :
    ∃ coordinator,
      ((createInScope d limits ctx s c).published = [] ∧
        (createInScope d limits ctx s c).store = { s with coordinator }) ∨
      (createInScope d limits ctx s c).published =
          publishLedgerEvents ctx (c.events d (c.written d)) ∧
        ((∃ result, s.idempotency.get? (c.command d (c.written d)).idempotency.key =
              some ((c.command d (c.written d)).idempotency.requestDigest, some result) ∧
            (createInScope d limits ctx s c).store = { s with coordinator }) ∨
          ∃ record, ArtifactMetadataStore.Performs { s with coordinator }
            (.create (c.command d (c.written d))) record
            (createInScope d limits ctx s c).store) := by
  unfold createInScope
  split
  · exact ⟨s.coordinator, .inl ⟨rfl, rfl⟩⟩
  · split
    · exact ⟨s.coordinator, .inl ⟨rfl, rfl⟩⟩
    · split
      · next e coordinator hput => exact ⟨coordinator, .inl ⟨rfl, rfl⟩⟩
      · next written coordinator hput =>
          obtain rfl : written = c.written d := putStream_ok hput
          refine ⟨coordinator, ?_⟩
          have hanswer := ArtifactMetadataStore.answer_cases { s with coordinator }
            (.create (c.command d (c.written d)))
          simp only [ArtifactMetadataStore.answer] at hanswer
          cases hcreate : ArtifactMetadataStore.createArtifact { s with coordinator }
              (c.command d (c.written d)) with
          | mk result s' =>
              rw [hcreate] at hanswer
              simp only [hcreate]
              cases result with
              | error e =>
                  refine .inl ⟨rfl, ?_⟩
                  rcases hanswer with ⟨e', he⟩ | ⟨result, -, hok⟩ | ⟨-, record, s'', -, hok⟩
                  · exact (Prod.mk.inj he).2
                  · cases (Prod.mk.inj hok).1
                  · cases (Prod.mk.inj hok).1
              | ok r =>
                  refine .inr ⟨rfl, ?_⟩
                  rcases hanswer with
                    ⟨e', he⟩ | ⟨result, hbound, hok⟩ | ⟨-, record, s'', hperforms, hok⟩
                  · cases (Prod.mk.inj he).1
                  · obtain ⟨hrecord, rfl⟩ := Prod.mk.inj hok
                    cases result with
                    | none => cases hrecord
                    | some result => exact .inl ⟨result, hbound, rfl⟩
                  · obtain rfl := (Prod.mk.inj hok).2
                    exact .inr ⟨record, hperforms⟩

/-- A revision is caused by a run unless the user wrote it. -/
theorem lane_of_requireRevisionScope {ctx : CallContext} {userId : String}
    {request : ArtifactRevisionRequest} {author : ArtifactAuthor} {current : ArtifactStoredRecord}
    {scope : ArtifactScope}
    (h : requireRevisionScope ctx orgId userId request author current = .ok scope) :
    scope.lane = .run ↔ author ≠ .user := by
  unfold requireRevisionScope at h
  split at h
  · next huser =>
      unfold CallContext.requireConversationScope at h
      split at h
      · cases h
        simp [huser]
      · cases h
  · next hagent =>
      cases hrun : ctx.requireRunScope orgId userId
          (request.actingRunId.getD current.artifact.runId) with
      | error e =>
          rw [hrun] at h
          cases h
      | ok found =>
          rw [hrun] at h
          simp only [bind, Except.bind] at h
          split at h
          · cases h
          · obtain rfl := Except.ok.inj h
            have hlane := found.1.lane_names_its_subject.mp (by rw [found.2]; rfl)
            simp [hlane, hagent]

/-- A revision changes no table, or is carried out in the scope of what caused it; it publishes
nothing itself. -/
theorem appendRevisionFromStream_cases (d : Digests) (limits : ArtifactLimits) (ctx : CallContext)
    (s : ArtifactMetadataStore) (orgId userId : String) (request : ArtifactRevisionRequest)
    (provenance : ArtifactProvenance) (body : String) (createdAt : Option Int) :
    (appendRevisionFromStream d limits ctx s orgId userId request provenance body
        createdAt).published = [] ∧
      ∃ coordinator,
        (appendRevisionFromStream d limits ctx s orgId userId request provenance body
          createdAt).store = { s with coordinator } ∨
        ∃ scope written record, (scope.lane = .run ↔ provenance.author ≠ .user) ∧
          ArtifactMetadataStore.Performs { s with coordinator }
            (.append (revisionCommand d scope request provenance written createdAt ctx.now)) record
            (appendRevisionFromStream d limits ctx s orgId userId request provenance body
              createdAt).store := by
  unfold appendRevisionFromStream
  split
  · exact ⟨rfl, s.coordinator, .inl rfl⟩
  · next current hcurrent =>
      split
      · exact ⟨rfl, s.coordinator, .inl rfl⟩
      · next scope hscope =>
          split
          · next e coordinator hput => exact ⟨rfl, coordinator, .inl rfl⟩
          · next written coordinator hput =>
              have hlane := lane_of_requireRevisionScope hscope
              have hanswer := ArtifactMetadataStore.answer_cases { s with coordinator }
                (.append (revisionCommand d scope request provenance written createdAt ctx.now))
              simp only [ArtifactMetadataStore.answer] at hanswer
              cases happend : ArtifactMetadataStore.appendRevision { s with coordinator }
                  (revisionCommand d scope request provenance written createdAt ctx.now) with
              | mk result s' =>
                  rw [happend] at hanswer
                  cases result with
                  | error e =>
                      refine ⟨rfl, coordinator, .inl ?_⟩
                      rcases hanswer with ⟨e', he⟩ | ⟨result, -, hok⟩ | ⟨-, record, s'', -, hok⟩
                      · exact (Prod.mk.inj he).2
                      · cases (Prod.mk.inj hok).1
                      · cases (Prod.mk.inj hok).1
                  | ok r =>
                      refine ⟨rfl, coordinator, ?_⟩
                      rcases hanswer with
                        ⟨e', he⟩ | ⟨result, -, hok⟩ | ⟨-, record, s'', hperforms, hok⟩
                      · cases (Prod.mk.inj he).1
                      · exact .inl (Prod.mk.inj hok).2
                      · obtain rfl := (Prod.mk.inj hok).2
                        exact .inr ⟨scope, written, record, hlane, hperforms⟩

/-- A deletion changes no table, or is carried out; it publishes nothing. -/
theorem softDelete_cases (d : Digests) (ctx : CallContext) (s : ArtifactMetadataStore)
    (orgId userId artifactId idempotencyKey : String) :
    (softDelete d ctx s orgId userId artifactId idempotencyKey).published = [] ∧
      ((softDelete d ctx s orgId userId artifactId idempotencyKey).store = s ∨
        ∃ record, s.Performs
          (.softDelete (deletionCommand d orgId userId artifactId idempotencyKey ctx.now)) record
          (softDelete d ctx s orgId userId artifactId idempotencyKey).store) := by
  unfold softDelete
  split
  · exact ⟨rfl, .inl rfl⟩
  · have hanswer := ArtifactMetadataStore.answer_cases s
      (.softDelete (deletionCommand d orgId userId artifactId idempotencyKey ctx.now))
    simp only [ArtifactMetadataStore.answer] at hanswer
    cases hdelete : s.softDelete
        (deletionCommand d orgId userId artifactId idempotencyKey ctx.now) with
    | mk result s' =>
        rw [hdelete] at hanswer
        have hstore : s' = s ∨ ∃ record, s.Performs
            (.softDelete (deletionCommand d orgId userId artifactId idempotencyKey ctx.now))
            record s' := by
          rcases hanswer with ⟨e, he⟩ | ⟨result, -, hok⟩ | ⟨-, record, s'', hperforms, hok⟩
          · exact .inl (Prod.mk.inj he).2
          · exact .inl (Prod.mk.inj hok).2
          · obtain rfl := (Prod.mk.inj hok).2
            exact .inr ⟨record, hperforms⟩
        cases result with
        | error e => exact ⟨rfl, hstore⟩
        | ok found => cases found <;> exact ⟨rfl, hstore⟩

/-! ### One step -/

/-- Different requests and bodies have different digests, and the events of a creation different
ids. -/
structure CollisionFree (d : Digests) (creations : List Creation) : Prop where
  bodies : ∀ a ∈ creations, ∀ b ∈ creations, d.content a.body = d.content b.body → a.body = b.body
  requests : ∀ a ∈ creations, ∀ b ∈ creations,
    d.request (a.values (d.content a.body)) = d.request (b.values (d.content b.body)) →
      a.values (d.content a.body) = b.values (d.content b.body)
  events : ∀ c ∈ creations, ((c.events d (c.written d)).map (·.eventId)).Nodup

/-- The creation is a retry: its key remembers the same request, and another artifact. -/
def RetriesOther (d : Digests) (s : ArtifactMetadataStore) (c : Creation) : Prop :=
  ∃ result, s.idempotency.get? (c.command d (c.written d)).idempotency.key =
      some ((c.command d (c.written d)).idempotency.requestDigest, some result) ∧
    result.record.artifact.artifactId ≠ c.artifactId

section Step
variable {d : Digests} {creations : List Creation} {s : ArtifactMetadataStore}

theorem EventsSound.withCoordinator (h : EventsSound d creations s)
    (coordinator : ArtifactPublicationCoordinator) :
    EventsSound d creations { s with coordinator } :=
  h.of_frame ⟨h.consistent.named, h.consistent.chain, h.consistent.current⟩ h.keyed
    (fun _ => Iff.rfl) (fun _ hkey => hkey) rfl (fun _ _ hbound _ => hbound)

variable {p : Publication}

theorem exists_event_of_published {ctx : CallContext} {events : List ArtifactLedgerEvent}
    (h : p ∈ publishLedgerEvents ctx events) :
    ∃ event ∈ events, event.publication? = some p := by
  obtain ⟨event, he, hp⟩ := List.mem_filterMap.mp h
  exact ⟨event, he, publication_of_publish hp⟩

/-- The events of a retry for the same artifact are those of the creation it retries. -/
theorem held_of_retry {ctx : CallContext} (hfree : CollisionFree d creations) {c : Creation}
    (hmem : c ∈ creations) (hremembers : RemembersCreation d creations s
      (c.command d (c.written d)).idempotency.key
      (c.command d (c.written d)).idempotency.requestDigest c.artifactId)
    (hp : p ∈ publishLedgerEvents ctx (c.events d (c.written d))) : Held s p := by
  obtain ⟨first, hfirst, hid, horg, hdigest, hheld⟩ := hremembers
  have hvalues := hfree.requests first hfirst c hmem hdigest
  have hbody : first.body = c.body := by
    refine hfree.bodies first hfirst c hmem ?_
    simp only [Creation.values, RequestValues.create.injEq] at hvalues
    exact hvalues.2.2.2.2.2.2.2.2.2.1
  have hsame := Creation.publications_congr hvalues hbody hid horg
  obtain ⟨event, he, hevent⟩ := exists_event_of_published hp
  have hpublished : some p ∈ (c.events d (c.written d)).map (·.publication?) :=
    List.mem_map.mpr ⟨event, he, hevent⟩
  rw [Creation.map_publication_events, ← hsame, ← Creation.map_publication_events] at hpublished
  obtain ⟨event', he', hevent'⟩ := List.mem_map.mp hpublished
  exact hheld event' he' p hevent'

/-- A step keeps what the invariant says, and what the outbox holds. -/
structure Continues (d : Digests) (creations : List Creation) (s s' : ArtifactMetadataStore) :
    Prop where
  sound : EventsSound d creations s'
  kept : ∀ p, Held s p → Held s' p

theorem createInScope_continues (limits : ArtifactLimits) (ctx : CallContext)
    (h : EventsSound d creations s) (hfree : CollisionFree d creations) {c : Creation}
    (hmem : c ∈ creations) :
    Continues d creations s (createInScope d limits ctx s c).store ∧
      (¬ RetriesOther d s c → ∀ p ∈ (createInScope d limits ctx s c).published,
        Held (createInScope d limits ctx s c).store p) := by
  obtain ⟨coordinator, ⟨hnone, hstore⟩ | ⟨hpublished, hcase⟩⟩ := createInScope_cases d limits ctx s c
  · rw [hnone, hstore]
    exact ⟨⟨h.withCoordinator coordinator, fun p hp => hp⟩, fun _ p hp => by cases hp⟩
  · rw [hpublished]
    rcases hcase with ⟨result, hbound, hstore⟩ | ⟨record, hperforms⟩
    · rw [hstore]
      refine ⟨⟨h.withCoordinator coordinator, fun p hp => hp⟩, fun hnew p hp => ?_⟩
      have hremembers := h.remembered _ _ result hbound ⟨c.operation, c.creates, rfl⟩
      have hid : result.record.artifact.artifactId = c.artifactId := by
        by_contra hne
        exact hnew ⟨result, hbound, hne⟩
      rw [hid] at hremembers
      exact held_of_retry hfree hmem hremembers hp
    · generalize (createInScope d limits ctx s c).store = s' at hperforms
      have hsound := h.withCoordinator coordinator
      cases hperforms with
      | @created _ rows hnew hrows hadmits =>
          have hevents := forall₂_of_mapM hrows
          have hrowsOf := Creation.rowsOfRevision hevents (hfree.events c hmem)
            c.provenance.author
          have hheld : ∀ event ∈ c.events d (c.written d), ∀ p, event.publication? = some p →
              Held (ArtifactMetadataStore.committed { s with coordinator }
                (c.command d (c.written d)).idempotency (c.command d (c.written d)).record
                c.scope.orgId c.artifactId rows
                (ArtifactMetadataStore.createEdge (c.command d (c.written d)))) p := by
            intro event he p hp
            obtain ⟨row, hrow, heq⟩ := exists_right_of_forall₂ hevents he
            rw [(row_of_event heq).2.2] at hp
            obtain rfl := Option.some.inj hp
            exact held_of_mem hrowsOf.nodup hrow (hrowsOf.keyed row hrow)
          refine ⟨⟨hsound.committed hadmits rfl rfl ?_ hrowsOf ?_, fun p hp => ?_⟩, ?_⟩
          · simp only [ArtifactMetadataStore.revisionOf, hnew]
            rfl
          · intro _
            exact ⟨c, hmem, rfl, rfl, rfl, hheld⟩
          · exact Held.committed (s := { s with coordinator }) hadmits.1 hp
          · intro _ p hp
            obtain ⟨event, he, hevent⟩ := exists_event_of_published hp
            exact hheld event he p hevent

/-- The row of a revision's event, if its scope has a run. -/
theorem rowsOfRevision_revised {scope : ArtifactScope} {request : ArtifactRevisionRequest}
    {provenance : ArtifactProvenance} {written : ArtifactBlobWriteResult} {createdAt : Option Int}
    {now : Int} (hlane : scope.lane = .run ↔ provenance.author ≠ .user) {rows : List OutboxRow}
    (hrows : ((revisionCommand d scope request provenance written createdAt now).ledgerEvent.toList
      |>.mapM (artifactEventOutboxRow · request.artifactId)) = some rows) :
    RowsOfRevision scope.orgId request.artifactId (request.parentRevision + 1) provenance.author
      rows := by
  have hcaused : CausedByRun (request.parentRevision + 1) provenance.author ↔
      scope.lane = .run := by
    have hpos := request.parent_pos
    rw [hlane, CausedByRun]
    constructor
    · rintro (hone | hauthor)
      · omega
      · exact hauthor
    · exact .inr
  by_cases hrun : scope.lane = .run
  · have hevents := forall₂_of_mapM hrows
    simp only [revisionCommand, hrun, if_true, Option.toList_some] at hevents
    obtain ⟨row, rest, hrow, hrest, rfl⟩ := List.forall₂_cons_left_iff.mp hevents
    obtain rfl := List.forall₂_nil_left_iff.mp hrest
    obtain ⟨runId, hrunId, rfl⟩ := Option.map_eq_some_iff.mp hrow
    constructor
    case nodup => simp
    case keyed => simp
    case subject => simp [ledgerEvent, ArtifactEventPayload.artifactId,
      ArtifactEventPayload.revision?]
    case announced =>
      intro _
      exact ⟨_, List.mem_cons_self, rfl, by simp⟩
    case unannounced =>
      intro hnot
      exact (hnot (hcaused.mpr hrun)).elim
  · have hnone : rows = [] := by
      simp only [revisionCommand, hrun, if_false, Option.toList_none, List.mapM_nil] at hrows
      exact (Option.some.inj hrows).symm
    subst hnone
    constructor
    case nodup => simp
    case keyed => simp
    case subject => simp
    case announced =>
      intro hc
      exact (hrun (hcaused.mp hc)).elim
    case unannounced => exact fun _ => rfl

theorem not_isCreationRoute {operation : ArtifactOperation}
    (h : operation = .revise ∨ operation = .delete) :
    ¬ IsCreationRoute (Routes.forOperation operation) := by
  rintro ⟨other, hother, hroute⟩
  obtain rfl := forOperation_inj hroute
  rcases h with rfl | rfl <;> simp at hother

theorem appendRevision_continues (limits : ArtifactLimits) (ctx : CallContext)
    (h : EventsSound d creations s) (orgId userId : String) (request : ArtifactRevisionRequest)
    (provenance : ArtifactProvenance) (body : String) (createdAt : Option Int) :
    Continues d creations s (appendRevisionFromStream d limits ctx s orgId userId request
      provenance body createdAt).store := by
  obtain ⟨-, coordinator, hstore | ⟨scope, written, record, hlane, hperforms⟩⟩ :=
    appendRevisionFromStream_cases d limits ctx s orgId userId request provenance body createdAt
  · rw [hstore]
    exact ⟨h.withCoordinator coordinator, fun p hp => hp⟩
  · generalize (appendRevisionFromStream d limits ctx s orgId userId request provenance body
      createdAt).store = s' at hperforms
    have hsound := h.withCoordinator coordinator
    cases hperforms with
    | @appended _ current rows hcurrent huser hlive hexpected hrows hadmits =>
        have hrowsOf := rowsOfRevision_revised hlane hrows
        refine ⟨hsound.committed hadmits (hsound.consistent.named _ current hcurrent) rfl ?_ hrowsOf
          ?_, fun p hp => Held.committed (s := { s with coordinator }) hadmits.1 hp⟩
        · simp only [ArtifactMetadataStore.revisionOf, hcurrent, Option.elim_some, hexpected]
          rfl
        · intro hroute
          exact (not_isCreationRoute (.inl rfl) hroute).elim

theorem softDelete_continues (ctx : CallContext) (h : EventsSound d creations s)
    (orgId userId artifactId idempotencyKey : String) :
    Continues d creations s (softDelete d ctx s orgId userId artifactId idempotencyKey).store := by
  obtain ⟨-, hstore | ⟨record, hperforms⟩⟩ :=
    softDelete_cases d ctx s orgId userId artifactId idempotencyKey
  · rw [hstore]
    exact ⟨h, fun p hp => hp⟩
  · generalize (softDelete d ctx s orgId userId artifactId idempotencyKey).store = s' at hperforms
    have hidempotency : ∀ (idempotency : Dict IdempotencyKey
        (String × Option ArtifactMutationResult)) (value : String × Option ArtifactMutationResult)
        (key : IdempotencyKey) bound,
        (idempotency.set (deletionCommand d orgId userId artifactId idempotencyKey
          ctx.now).idempotency.key value).get? key = some bound →
          IsCreationRoute key.route → idempotency.get? key = some bound := by
      intro idempotency value key bound hbound hroute
      rw [Dict.get?_set_of_ne] at hbound
      · exact hbound
      · rintro rfl
        exact not_isCreationRoute (.inr rfl) hroute
    have hconsistent := hperforms.consistent h.consistent
    cases hperforms with
    | @deleted _ current hcurrent =>
        refine ⟨h.of_frame hconsistent h.keyed (fun _ => Iff.rfl) (fun key hkey => ?_) rfl
          (hidempotency _ _), fun p hp => hp⟩
        simp only [ArtifactMetadataStore.bind, Dict.get?_set]
        split
        · rfl
        · exact hkey
    | missed hnone =>
        exact ⟨h.of_frame hconsistent h.keyed (fun _ => Iff.rfl) (fun _ hkey => hkey) rfl
          (hidempotency _ _), fun p hp => hp⟩

/-- Closing a row of the outbox leaves its event. -/
theorem held_acknowledge_iff {eventId : String} {status : OutboxStatus} :
    Held (s.acknowledgeArtifactEvent eventId status) p ↔ Held s p := by
  unfold ArtifactMetadataStore.acknowledgeArtifactEvent
  cases hrow : s.outbox.get? eventId with
  | none => exact Iff.rfl
  | some row =>
      by_cases hid : eventId = p.eventId
      · subst hid
        simp [Held, hrow]
      · simp [Held, Dict.get?_set_of_ne _ _ hid]

theorem acknowledge_continues (h : EventsSound d creations s) (eventId : String)
    (status : OutboxStatus) :
    Continues d creations s (s.acknowledgeArtifactEvent eventId status) := by
  have hframe : (s.acknowledgeArtifactEvent eventId status).records = s.records ∧
      (s.acknowledgeArtifactEvent eventId status).revisions = s.revisions ∧
      (s.acknowledgeArtifactEvent eventId status).idempotency = s.idempotency := by
    unfold ArtifactMetadataStore.acknowledgeArtifactEvent
    split <;> exact ⟨rfl, rfl, rfl⟩
  obtain ⟨hrecords, hrevisions, hidempotency⟩ := hframe
  refine ⟨h.of_frame ?_ ?_ (fun _ => held_acknowledge_iff) ?_ hrevisions ?_,
    fun p hp => held_acknowledge_iff.mpr hp⟩
  · exact h.consistent.takeCommand (.acknowledge eventId status)
  · intro id row hrow
    unfold ArtifactMetadataStore.acknowledgeArtifactEvent at hrow
    split at hrow
    · exact h.keyed id row hrow
    · next found hfound =>
        rw [Dict.get?_set] at hrow
        split at hrow
        · next heq =>
            subst heq
            obtain rfl := Option.some.inj hrow
            exact h.keyed _ found hfound
        · exact h.keyed id row hrow
  · rw [hrecords]
    exact fun _ hkey => hkey
  · rw [hidempotency]
    exact fun _ _ hbound _ => hbound

theorem held_of_drained (h : EventsSound d creations s) {orgId runId : String}
    (hp : p ∈ drainForRun s orgId runId) : Held s p := by
  obtain ⟨command, hcommand, rfl⟩ := List.mem_map.mp hp
  obtain ⟨row, hrow, rfl⟩ := List.mem_map.mp (List.mem_filter.mp hcommand).1
  obtain ⟨id, hfound⟩ := Dict.mem_values_iff.mp (List.mem_filter.mp hrow).1
  refine ⟨row, ?_, rfl⟩
  rw [← h.keyed id row hfound] at hfound
  exact hfound

/-- Every step keeps the invariant, and publishes what the outbox holds unless it is a retry of a
creation. -/
theorem serve_continues (limits : ArtifactLimits) (h : EventsSound d creations s)
    (hfree : CollisionFree d creations) (step : ServiceStep)
    (hmem : ∀ c ∈ step.creation?, c ∈ creations) :
    Continues d creations s (serve d limits s step).store ∧
      ((∀ c ∈ step.creation?, ¬ RetriesOther d s c) →
        ∀ p ∈ (serve d limits s step).published, Held (serve d limits s step).store p) := by
  cases step with
  | create ctx orgId userId call =>
      simp only [ServiceStep.creation?] at hmem ⊢
      cases hcreation : call.creation ctx orgId userId with
      | error e =>
          simp only [serve, hcreation]
          exact ⟨⟨h, fun p hp => hp⟩, fun _ p hp => by cases hp⟩
      | ok c =>
          simp only [serve, hcreation]
          rw [hcreation] at hmem
          obtain ⟨hcontinues, hpublished⟩ :=
            createInScope_continues limits ctx h hfree (hmem c rfl)
          exact ⟨hcontinues, fun hnew => hpublished (hnew c rfl)⟩
  | revise ctx orgId userId request provenance body createdAt =>
      refine ⟨appendRevision_continues limits ctx h orgId userId request provenance body createdAt,
        fun _ p hp => ?_⟩
      simp only [serve, (appendRevisionFromStream_cases d limits ctx s orgId userId request
        provenance body createdAt).1] at hp
      cases hp
  | delete ctx orgId userId artifactId idempotencyKey =>
      refine ⟨softDelete_continues ctx h orgId userId artifactId idempotencyKey,
        fun _ p hp => ?_⟩
      simp only [serve, (softDelete_cases d ctx s orgId userId artifactId idempotencyKey).1] at hp
      cases hp
  | drainForRun orgId runId =>
      exact ⟨⟨h, fun p hp => hp⟩, fun _ p hp => held_of_drained h hp⟩
  | acknowledge eventId status =>
      exact ⟨acknowledge_continues h eventId status, fun _ p hp => by cases hp⟩
  | quarantineBlob blobKey =>
      refine ⟨?_, fun _ p hp => by cases hp⟩
      simp only [serve]
      split
      · exact ⟨h, fun p hp => hp⟩
      · exact ⟨h.withCoordinator _, fun p hp => hp⟩

/-- A run of steps keeps the invariant, and what the outbox holds. -/
theorem servedAll_continues (limits : ArtifactLimits) (h : EventsSound d creations s)
    (hfree : CollisionFree d creations) (steps : List ServiceStep)
    (hmem : ∀ step ∈ steps, ∀ c ∈ step.creation?, c ∈ creations) :
    Continues d creations s (servedAll d limits s steps) := by
  induction steps generalizing s with
  | nil => exact ⟨h, fun p hp => hp⟩
  | cons step rest ih =>
      have hstep := (serve_continues limits h hfree step (hmem step List.mem_cons_self)).1
      have hrest := ih hstep.sound (fun step' hs => hmem step' (List.mem_cons_of_mem _ hs))
      exact ⟨hrest.sound, fun p hp => hrest.kept p (hstep.kept p hp)⟩

end Step

/-! ### Whole runs -/

/-- What is published names what is stored, and every revision a run has caused has one event. -/
structure PublicationLaws (d : Digests) (limits : ArtifactLimits) (steps : List ServiceStep) :
    Prop where
  published : ∀ before step after, steps = before ++ step :: after →
    (∀ c ∈ step.creation?,
      ¬ RetriesOther d (servedAll d limits ArtifactMetadataStore.initial before) c) →
    ∀ p ∈ (serve d limits (servedAll d limits ArtifactMetadataStore.initial before) step).published,
      SubjectExists
          (serve d limits (servedAll d limits ArtifactMetadataStore.initial before) step).store
          p.orgId p.payload ∧
        Held (servedAll d limits ArtifactMetadataStore.initial steps) p
  announced : ∀ orgId artifactId n revision,
    (servedAll d limits ArtifactMetadataStore.initial steps).revisions.get?
        (orgId, artifactId, n) = some revision →
      CausedByRun n revision.revision.author →
        ∃! p, Held (servedAll d limits ArtifactMetadataStore.initial steps) p ∧
          p.Announces orgId artifactId n
  unannounced : ∀ orgId artifactId n revision,
    (servedAll d limits ArtifactMetadataStore.initial steps).revisions.get?
        (orgId, artifactId, n) = some revision →
      ¬ CausedByRun n revision.revision.author →
        ∀ p, Held (servedAll d limits ArtifactMetadataStore.initial steps) p →
          ¬ p.Announces orgId artifactId n

/-- In every run, an event published other than by a retried creation names a stored artifact and
revision, and stays the one event in the outbox that announces it. -/
theorem publication_laws_hold (d : Digests) (limits : ArtifactLimits) (steps : List ServiceStep)
    (hfree : CollisionFree d (steps.filterMap ServiceStep.creation?)) :
    PublicationLaws d limits steps := by
  have hmem : ∀ step ∈ steps, ∀ c ∈ step.creation?,
      c ∈ steps.filterMap ServiceStep.creation? :=
    fun step hstep c hc => List.mem_filterMap.mpr ⟨step, hstep, hc⟩
  have hinitial := eventsSound_initial d (steps.filterMap ServiceStep.creation?)
  have hfinal := (servedAll_continues limits hinitial hfree steps hmem).sound
  constructor
  case published =>
    intro before step after hsteps hnew p hp
    have hbefore := servedAll_continues limits hinitial hfree before
      fun step' hs => hmem step' (by rw [hsteps]; exact List.mem_append_left _ hs)
    obtain ⟨hstep, hheld⟩ := serve_continues limits hbefore.sound hfree step
      (hmem step (by rw [hsteps]; simp))
    have hafter := servedAll_continues limits hstep.sound hfree after
      fun step' hs => hmem step' (by rw [hsteps]; simp [hs])
    have hp' := hheld hnew p hp
    refine ⟨hstep.sound.subjects p hp', ?_⟩
    have hkept := hafter.kept p hp'
    rw [hsteps]
    simpa [servedAll] using hkept
  case announced =>
    intro orgId artifactId n revision hstored hcaused
    obtain ⟨p, hp, hannounces⟩ := hfinal.announced orgId artifactId n revision hstored hcaused
    exact ⟨p, ⟨hp, hannounces⟩, fun q hq => hfinal.once q p orgId artifactId n hq.1 hp hq.2
      hannounces⟩
  case unannounced => exact hfinal.unannounced

/-! ### A retry under a new id, and a user's own revision -/

/-- Digests that tell the requests and events below apart. -/
def sampleDigests : Digests where
  content body := body
  request
    | .create _ _ _ title .. => title
    | .revise .. => "revise"
    | .delete .. => "delete"
  publication key := key.artifactId ++ key.eventType

/-- A call that mints an id, with a publisher that takes every event. -/
def sampleContext (freshId : String) : CallContext where
  getRun _ _ := some ⟨"user", "conv", "trace", false⟩
  ownsConversation _ _ _ := true
  sources := none
  now := 10
  freshId
  appendApiEvent := some fun _ _ => true

def firstId : String := "art_00000000-0000-4000-8000-000000000001"

def secondId : String := "art_00000000-0000-4000-8000-000000000002"

def publishNotes (freshId : String) : ServiceStep :=
  .create (sampleContext freshId) "org" "user"
    (.publishFromStream ⟨"run", .document, "Notes", "text/plain", none, .auto, none, none, "key"⟩
      ⟨.model, none⟩ "hello")

/-- The user changes the first artifact. -/
def editNotes : ServiceStep :=
  .revise (sampleContext secondId) "org" "user" ⟨firstId, 1, none, "edit", none, Nat.one_pos⟩
    ⟨.user, none⟩ "changed" none

def notesRun : List ServiceStep := [publishNotes firstId, publishNotes secondId, editNotes]

theorem collisionFree_notesRun :
    CollisionFree sampleDigests (notesRun.filterMap ServiceStep.creation?) := by
  constructor <;> decide

theorem publication_laws_hold_notes :
    CollisionFree sampleDigests (notesRun.filterMap ServiceStep.creation?) ∧
      PublicationLaws sampleDigests .default notesRun :=
  ⟨collisionFree_notesRun, publication_laws_hold _ _ _ collisionFree_notesRun⟩

/-- The events of a retried creation name an artifact that is not stored, and a revision by the
user has no event. -/
theorem retry_names_nothing :
    (¬ ∀ d limits steps, CollisionFree d (steps.filterMap ServiceStep.creation?) →
      ∀ before step after, steps = before ++ step :: after →
        ∀ p ∈ (serve d limits (servedAll d limits ArtifactMetadataStore.initial before)
            step).published,
          SubjectExists
            (serve d limits (servedAll d limits ArtifactMetadataStore.initial before) step).store
            p.orgId p.payload) ∧
    ¬ ∀ d limits steps, CollisionFree d (steps.filterMap ServiceStep.creation?) →
      ∀ orgId artifactId n,
        ((servedAll d limits ArtifactMetadataStore.initial steps).revisions.get?
          (orgId, artifactId, n)).isSome →
          ∃ p, Held (servedAll d limits ArtifactMetadataStore.initial steps) p ∧
            p.Announces orgId artifactId n := by
  constructor
  · intro h
    have hsubject := h sampleDigests .default notesRun collisionFree_notesRun
      [publishNotes firstId] (publishNotes secondId) [editNotes] rfl
      ⟨"org", "run", "artevt_" ++ secondId ++ "artifact.created",
        .created secondId .document 1 (ArtifactContentRefCodec.format secondId 1) "hello" .model⟩
      (by decide)
    have hrecord := hsubject.1
    revert hrecord
    decide
  · intro h
    have hfree := collisionFree_notesRun
    obtain ⟨p, hp, hannounces⟩ := h sampleDigests .default notesRun hfree "org" firstId 2
      (by decide)
    have hlaws := (servedAll_continues .default (eventsSound_initial _ _) hfree
      notesRun fun step hs c hc => List.mem_filterMap.mpr ⟨step, hs, hc⟩).sound
    refine hlaws.unannounced "org" firstId 2 _ (Option.some_get (by decide)).symm ?_ p hp
      hannounces
    decide

end CopilotRuntime.Artifacts
