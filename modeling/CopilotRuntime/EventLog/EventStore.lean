import CopilotRuntime.EventLog.Events

/-!
# The event store

Events are appended to the log of their run. A producer may give an event a
stable id: an event of the run's log with that id is then either what the
producer is sending again, or in conflict with it.

## Implementation notes

An append awaits nothing between reading the log and writing it, so it is one
step. The fence of legacy stage migrations, which may refuse an append, is a
parameter. Fresh ids and the clock are inputs.
-/

namespace CopilotRuntime.EventLog

open Foundation

/-! ### Redelivery -/

/-- The metadata an amendment stamps on the event it annotates. -/
def metadataKeys : List String := ["ledger_amendment_reason", "ledger_amends"]

def withoutAnnotations (metadata : JsonObject) : JsonObject :=
  metadataKeys.foldl (fun d key => d.erase key) metadata

def RuntimeEventBase.stripped (b : RuntimeEventBase) : RuntimeEventBase :=
  { b with metadata := withoutAnnotations b.metadata }

/-- Two events agree in all shared fields. -/
def RuntimeEventBase.same (a b : RuntimeEventBase) : Prop :=
  a.runId = b.runId ∧ a.conversationId = b.conversationId ∧ a.source = b.source ∧
    a.eventType = b.eventType ∧ a.traceId = b.traceId ∧ a.parentEventId = b.parentEventId ∧
    a.spanId = b.spanId ∧ a.parentSpanId = b.parentSpanId ∧ a.parentTaskId = b.parentTaskId ∧
    a.taskId = b.taskId ∧ a.subagentId = b.subagentId ∧ a.displayTitle = b.displayTitle ∧
    a.summary = b.summary ∧ a.status = b.status ∧ a.visibility = b.visibility ∧
    a.redactionState = b.redactionState ∧ a.presentation = b.presentation ∧
    JsonObject.same a.payload b.payload ∧ JsonObject.same a.metadata b.metadata

instance (a b : RuntimeEventBase) : Decidable (a.same b) := by
  unfold RuntimeEventBase.same
  infer_instance

/-- The activity kind a draft is stored with. -/
def RuntimeEventDraft.expectedActivity (d : RuntimeEventDraft) : RuntimeActivityKind :=
  d.activityKind.getD (activityKindFor d.base.eventType d.base.source)

/-- The envelope is what storing a draft with these fields has left. -/
def matchesEnvelope (d : RuntimeEventDraft) (base : RuntimeEventBase)
    (envelope : RuntimeEventEnvelope) : Prop :=
  d.eventId = some envelope.eventId ∧ envelope.base.same base ∧
    envelope.activityKind = d.expectedActivity ∧
    (d.createdAt = none ∨ d.createdAt = some envelope.createdAt)

instance (d : RuntimeEventDraft) (base : RuntimeEventBase) (envelope : RuntimeEventEnvelope) :
    Decidable (matchesEnvelope d base envelope) := by
  unfold matchesEnvelope
  infer_instance

inductive AppendError
  | idempotencyConflict (runId eventId : String)
  | legacyMaterializationRejected (message : String)
  | validationError
  | valueError (message : String)
  deriving DecidableEq

/-- The stored envelope for a redelivery, or a conflict. -/
def resolve (event : RuntimeEventDraft) (existing : RuntimeEventEnvelope) :
    Except AppendError RuntimeEventEnvelope :=
  if matchesEnvelope event event.base existing ∨
      matchesEnvelope event event.base.stripped
        { existing with base := existing.base.stripped } then .ok existing
  else .error (.idempotencyConflict event.base.runId existing.eventId)

/-! ### The store -/

/-- The id and the time an envelope gets where its draft has none. -/
structure Minted where
  eventId : String
  createdAt : Int

/-- The envelope of a draft at a place of its run's log. -/
def RuntimeEventEnvelope.ofDraft (d : RuntimeEventDraft) (minted : Minted) (sequenceNo : Nat) :
    Option RuntimeEventEnvelope := do
  let base ← d.base.validated
  let eventId ← match d.eventId with
    | some id => normalizeId id
    | none => some minted.eventId
  return ⟨base, d.expectedActivity, eventId, sequenceNo, d.createdAt.getD minted.createdAt⟩

structure RunRecord where
  latestSequenceNo : Option Nat

section Store
variable {φ : Type}

/-- The legacy stages under migration: they refuse an append, or advance with it. -/
structure LegacyMaterializations (φ : Type) where
  assertFence : φ → RuntimeEventDraft → List RuntimeEventEnvelope → Except String (Option φ)

structure RuntimeApiStore (φ : Type) where
  eventsByRun : Dict String (List RuntimeEventEnvelope)
  eventsById : Dict String RuntimeEventEnvelope
  runs : Dict String RunRecord
  materializations : φ

namespace RuntimeApiStore

def initial (materializations : φ) : RuntimeApiStore φ :=
  ⟨Dict.empty, Dict.empty, Dict.empty, materializations⟩

/-- The events of a run in the order they were appended. -/
def log (s : RuntimeApiStore φ) (runId : String) : List RuntimeEventEnvelope :=
  (s.eventsByRun.get? runId).getD []

/-- Start a log for the run unless it has one. -/
def openLog (s : RuntimeApiStore φ) (runId : String) : RuntimeApiStore φ :=
  match s.eventsByRun.get? runId with
  | some _ => s
  | none => { s with eventsByRun := s.eventsByRun.set runId [] }

def getLatestSequence (s : RuntimeApiStore φ) (runId : String) : Nat := (s.log runId).length

/-- Advance a run's cursor; a smaller number is ignored. -/
def setRunLatestSequence (s : RuntimeApiStore φ) (runId : String) (latestSequenceNo : Nat) :
    RuntimeApiStore φ :=
  match s.runs.get? runId with
  | none => s
  | some current =>
      if current.latestSequenceNo.any (latestSequenceNo ≤ ·) then s
      else { s with runs := s.runs.set runId ⟨some latestSequenceNo⟩ }

/-- Put an envelope at the end of its run's log and advance the run. -/
def insert (s : RuntimeApiStore φ) (runId : String) (envelope : RuntimeEventEnvelope)
    (materializations : φ) : RuntimeApiStore φ :=
  setRunLatestSequence
    { s with
      eventsByRun := s.eventsByRun.set runId (s.log runId ++ [envelope])
      eventsById := s.eventsById.set envelope.eventId envelope
      materializations }
    runId envelope.sequenceNo

section Append
variable (legacy : LegacyMaterializations φ)

/-- Append an event whose id the run's log does not hold. -/
def appendNew (s : RuntimeApiStore φ) (event : RuntimeEventDraft) (minted : Minted) :
    Except AppendError RuntimeEventEnvelope × RuntimeApiStore φ :=
  match legacy.assertFence s.materializations event (s.log event.base.runId) with
  | .error message => (.error (.legacyMaterializationRejected message), s)
  | .ok fence =>
      match RuntimeEventEnvelope.ofDraft event minted ((s.log event.base.runId).length + 1) with
      | none => (.error .validationError, s)
      | some envelope =>
          (.ok envelope,
            s.insert event.base.runId envelope (fence.getD s.materializations))

/-- Append one event to the log of its run, or answer a redelivery. -/
def appendEvent (s : RuntimeApiStore φ) (event : RuntimeEventDraft) (minted : Minted) :
    Except AppendError RuntimeEventEnvelope × RuntimeApiStore φ :=
  let s := s.openLog event.base.runId
  match (s.log event.base.runId).find? fun item => event.eventId = some item.eventId with
  | some existing => (resolve event existing, s)
  | none => s.appendNew legacy event minted

/-- Append events one after the other; the first failure ends the batch. -/
def appendAll (s : RuntimeApiStore φ) :
    List (RuntimeEventDraft × Minted) →
      Except AppendError (List RuntimeEventEnvelope) × RuntimeApiStore φ
  | [] => (.ok [], s)
  | (event, minted) :: rest =>
      match s.appendEvent legacy event minted with
      | (.error e, s') => (.error e, s')
      | (.ok envelope, s') =>
          match appendAll s' rest with
          | (.error e, s'') => (.error e, s'')
          | (.ok envelopes, s'') => (.ok (envelope :: envelopes), s'')

/-- Append events of one run that carry no stable ids. -/
def appendEventsBatch (s : RuntimeApiStore φ) (events : List (RuntimeEventDraft × Minted)) :
    Except AppendError (List RuntimeEventEnvelope) × RuntimeApiStore φ :=
  if events.any fun event => event.1.eventId.isSome then
    (.error (.valueError ("stable event ids require append_event; batch append is reserved " ++
      "for newly allocated stream events")), s)
  else
    let runIds := (events.map fun event => event.1.base.runId).dedup
    if 1 < runIds.length then
      (.error (.valueError ("append_events_batch requires all events to share one run_id; " ++
        s!"saw {runIds.length}.")), s)
    else s.appendAll legacy events

end Append

end RuntimeApiStore

end Store

end CopilotRuntime.EventLog
