import CopilotRuntime.EventLog.Events

/-!
# The seal of a run's ledger

A producer appends the events of many runs. A terminal event seals its run:
from then on the run takes in amendments and further terminal events only. The
seal is kept in memory and asked before an append is handed to the store.

## Implementation notes

What a call does up to the store's append awaits nothing and is one step; the
append itself takes effect later. Of the events of an append the store may have
written any number when it returns or raises. The projections an event goes
through on its way to the store are parameters.
-/

namespace CopilotRuntime.EventLog

open Foundation

/-! ### Amendments -/

inductive LedgerAmendmentReason
  | reconciliation | lateCausalRecovery
  deriving DecidableEq

def LedgerAmendmentReason.value : LedgerAmendmentReason → String
  | .reconciliation => "reconciliation"
  | .lateCausalRecovery => "late_causal_recovery"

/-- The declared intent to append after the seal. -/
structure LedgerAmendment where
  reason : LedgerAmendmentReason
  amends : Option String

def LedgerAmendment.asMetadata (amendment : LedgerAmendment) : JsonObject :=
  let metadata := Dict.empty.set "ledger_amendment_reason" (.str amendment.reason.value)
  match amendment.amends with
  | some amends => metadata.set "ledger_amends" (.str amends)
  | none => metadata

/-! ### The seal -/

inductive ProducerError
  | ledgerSealViolation (runId : String) (eventType sealedBy : RuntimeApiEventType)
  | unknownLedgerWriter
  | validationError
  | typeError (message : String)
  deriving DecidableEq

/-- Which event sealed a run, for the runs that are sealed. -/
abbrev LedgerSeal := Dict String RuntimeApiEventType

/-- Appending one of these seals the run. -/
def sealingEventTypes : List RuntimeApiEventType :=
  [.runCompleted, .runFailed, .runCancelled, .runRejected]

namespace LedgerSeal

def isSealed (ledgerSeal : LedgerSeal) (runId : String) : Bool := (ledgerSeal.get? runId).isSome

/-- Admit one append, sealing the run when the event is terminal. -/
def guard (ledgerSeal : LedgerSeal) (runId : String) (eventType : RuntimeApiEventType)
    (amendment : Option LedgerAmendment) : Except ProducerError LedgerSeal :=
  if eventType ∈ sealingEventTypes then
    .ok (if ledgerSeal.isSealed runId then ledgerSeal else ledgerSeal.set runId eventType)
  else
    match amendment, ledgerSeal.get? runId with
    | none, some sealedBy => .error (.ledgerSealViolation runId eventType sealedBy)
    | _, _ => .ok ledgerSeal

end LedgerSeal

/-! ### Drafts -/

/-- The fields of a run that its events share. -/
structure ProducerRun where
  runId : String
  conversationId : String
  orgId : String
  traceId : String
  runId_valid : normalizeId runId = some runId

/-- The fields an event is shown with. -/
structure TimelineFields where
  parentEventId : Option String
  spanId : Option String
  parentSpanId : Option String
  taskId : Option String
  subagentId : Option String
  displayTitle : Option String
  summary : Option String
  status : Option String
  activityKind : RuntimeActivityKind
  visibility : RuntimeEventVisibility
  redactionState : RuntimeEventRedactionState

/-- The fields the card of an event is chosen by. -/
structure CardFields where
  displayTitle : Option String
  summary : Option String
  status : Option String
  activityKind : Option RuntimeActivityKind
  spanId : Option String

def TimelineFields.card (fields : TimelineFields) : CardFields where
  displayTitle := fields.displayTitle
  summary := fields.summary
  status := fields.status
  activityKind := some fields.activityKind
  spanId := fields.spanId

def RuntimeEventDraft.card (draft : RuntimeEventDraft) : CardFields where
  displayTitle := draft.base.displayTitle
  summary := draft.base.summary
  status := draft.base.status
  activityKind := draft.activityKind
  spanId := draft.base.spanId

/-- A given text, unless it is blank, in place of a projected one. -/
def overrideText (given projected : Option String) : Option String :=
  match given with
  | some text => if Text.strip text = "" then projected else some (Text.strip text)
  | none => projected

structure StreamEvent (τ : Type) where
  source : StreamEventSource
  eventType : τ
  traceId : String
  parentTaskId : Option String
  payload : JsonObject
  metadata : JsonObject

/-- The projections of an event on its way to the store. -/
structure EventProjection (τ : Type) where
  eventTypeForStreamEvent : StreamEvent τ → RuntimeApiEventType
  payloadForEvent : RuntimeApiEventType → JsonObject → Option JsonObject
  presentationFields : RuntimeApiEventType → StreamEventSource → Option String → JsonObject →
    JsonObject → Option String → TimelineFields
  presentationMetadata : JsonObject → Option RuntimeEventPresentation
  preliminaryPresentationForEvent : RuntimeApiEventType → JsonObject → JsonObject →
    CardFields → Option RuntimeEventPresentation
  dumpPresentation : RuntimeEventPresentation → Json

/-- The projected payload; one that an unknown writer has signed is refused. -/
def EventProjection.payload {τ : Type} (projection : EventProjection τ)
    (eventType : RuntimeApiEventType) (payload : JsonObject) : Except ProducerError JsonObject :=
  match projection.payloadForEvent eventType payload with
  | some payload => .ok payload
  | none => .error .unknownLedgerWriter

/-- The arguments of an append of one event. -/
structure ApiEvent where
  source : StreamEventSource
  eventType : RuntimeApiEventType
  payload : Option JsonObject
  metadata : Option JsonObject
  parentTaskId : Option String
  subagentId : Option String
  summary : Option String
  status : Option String
  eventId : Option String
  createdAt : Option Int
  amendment : Option LedgerAmendment

/-- An entry of a batch; its payload and metadata may be any values. -/
structure BatchEntry where
  payload : Json
  metadata : Json
  parentTaskId : Option String
  subagentId : Option String
  summary : Option String
  status : Option String

/-- The dictionary of an entry; a missing or empty value stands for an empty one. -/
def objectOrEmpty : Json → Option JsonObject
  | .null | .bool false | .int 0 | .str "" | .arr [] => some Dict.empty
  | .obj fields => some (fields.foldl (fun d field => d.set field.1 field.2) Dict.empty)
  | _ => none

section Drafts
variable {τ : Type} (projection : EventProjection τ)

/-- Project an event whose metadata is complete and validate it as a draft. -/
def draftFor (run : ProducerRun) (event : ApiEvent) (safeMetadata : JsonObject) :
    Except ProducerError RuntimeEventDraft := do
  let safePayload ← projection.payload event.eventType (event.payload.getD Dict.empty)
  let projected := projection.presentationFields event.eventType event.source event.parentTaskId
    safePayload safeMetadata event.subagentId
  let timelineFields := { projected with
    summary := overrideText event.summary projected.summary
    status := overrideText event.status projected.status }
  let preliminary := projection.preliminaryPresentationForEvent event.eventType safePayload
    safeMetadata timelineFields.card
  let draftMetadata := match preliminary with
    | some presentation =>
        safeMetadata.set "presentation" (projection.dumpPresentation presentation)
    | none => safeMetadata
  let base : RuntimeEventBase := {
    runId := run.runId
    conversationId := run.conversationId
    source := event.source
    eventType := event.eventType
    traceId := run.traceId
    parentEventId := timelineFields.parentEventId
    spanId := timelineFields.spanId
    parentSpanId := timelineFields.parentSpanId
    parentTaskId := event.parentTaskId
    taskId := timelineFields.taskId
    subagentId := timelineFields.subagentId
    displayTitle := timelineFields.displayTitle
    summary := timelineFields.summary
    status := timelineFields.status
    visibility := timelineFields.visibility
    redactionState := timelineFields.redactionState
    presentation := preliminary
    payload := safePayload
    metadata := draftMetadata }
  match RuntimeEventDraft.modelValidate base (some timelineFields.activityKind) run.orgId
      event.eventId event.createdAt with
  | some draft => .ok draft
  | none => .error .validationError

/-- The draft of a single event, annotated with its amendment. -/
def apiEventDraft (run : ProducerRun) (event : ApiEvent) :
    Except ProducerError RuntimeEventDraft :=
  let metadata := event.metadata.getD Dict.empty
  draftFor projection run event <|
    match event.amendment with
    | some amendment => metadata.update amendment.asMetadata
    | none => metadata

/-- The draft of an entry of a batch. -/
def batchEntryDraft (run : ProducerRun) (source : StreamEventSource)
    (eventType : RuntimeApiEventType) (entry : BatchEntry) :
    Except ProducerError RuntimeEventDraft :=
  match objectOrEmpty entry.payload, objectOrEmpty entry.metadata with
  | some payload, some metadata =>
      draftFor projection run
        { source := source
          eventType := eventType
          payload := some payload
          metadata := some metadata
          parentTaskId := entry.parentTaskId
          subagentId := entry.subagentId
          summary := entry.summary
          status := entry.status
          eventId := none
          createdAt := none
          amendment := none }
        metadata
  | _, _ =>
      .error (.typeError "append_api_events_batch entry payload + metadata must be dicts")

/-- The draft of a stream event before its card is chosen. -/
def fromStreamEvent (run : ProducerRun) (event : StreamEvent τ) :
    Except ProducerError RuntimeEventDraft := do
  let eventType := projection.eventTypeForStreamEvent event
  let payload ← projection.payload eventType event.payload
  let timelineFields := projection.presentationFields eventType event.source event.parentTaskId
    payload event.metadata none
  let base : RuntimeEventBase := {
    runId := run.runId
    conversationId := run.conversationId
    source := event.source
    eventType := eventType
    traceId := event.traceId
    parentEventId := timelineFields.parentEventId
    spanId := timelineFields.spanId
    parentSpanId := timelineFields.parentSpanId
    parentTaskId := event.parentTaskId
    taskId := timelineFields.taskId
    subagentId := timelineFields.subagentId
    displayTitle := timelineFields.displayTitle
    summary := timelineFields.summary
    status := timelineFields.status
    visibility := timelineFields.visibility
    redactionState := timelineFields.redactionState
    presentation := projection.presentationMetadata event.metadata
    payload := payload
    metadata := event.metadata }
  match RuntimeEventDraft.modelValidate base (some timelineFields.activityKind) run.orgId none
      none with
  | some draft => .ok draft
  | none => .error .validationError

theorem bind_eq_map_bind {α β : Type} {o : Option α} {f f' : α → Option β} {g : β → β}
    (h : ∀ a, f' a = (f a).map g) : (o >>= f') = (o >>= f).map g := by
  cases o with
  | none => rfl
  | some a => exact h a

theorem validated_withPresentation (b : RuntimeEventBase)
    (presentation : Option RuntimeEventPresentation) (metadata : JsonObject) :
    { b with presentation := presentation, metadata := metadata }.validated =
      b.validated.map fun b' => { b' with presentation := presentation, metadata := metadata } := by
  rw [RuntimeEventBase.validated, RuntimeEventBase.validated]
  iterate 12 refine bind_eq_map_bind fun _ => ?_
  rfl

/-- The draft with a card. -/
def RuntimeEventDraft.withPresentation (draft : RuntimeEventDraft)
    (presentation : RuntimeEventPresentation) : RuntimeEventDraft where
  base := { draft.base with
    presentation := some presentation
    metadata := draft.base.metadata.set "presentation" (projection.dumpPresentation presentation) }
  activityKind := draft.activityKind
  orgId := draft.orgId
  eventId := draft.eventId
  createdAt := draft.createdAt
  base_valid := by rw [validated_withPresentation, draft.base_valid, Option.map_some]
  eventId_valid := draft.eventId_valid

/-- The draft of a stream event, with its card. -/
def streamEventDraft (draft : RuntimeEventDraft) : RuntimeEventDraft :=
  match projection.preliminaryPresentationForEvent draft.base.eventType draft.base.payload
      draft.base.metadata draft.card with
  | some presentation => draft.withPresentation projection presentation
  | none => draft

/-! ### Calls -/

inductive AppendRequest (τ : Type)
  | apiEvent (run : ProducerRun) (event : ApiEvent)
  | streamEvent (run : ProducerRun) (event : StreamEvent τ)
  | apiEventsBatch (run : ProducerRun) (source : StreamEventSource)
      (eventType : RuntimeApiEventType) (entries : List BatchEntry)

/-- An event as it is handed to the store, with the amendment it was declared as. -/
structure StoredEvent where
  draft : RuntimeEventDraft
  amendment : Option LedgerAmendment

namespace StoredEvent

def isTerminal (event : StoredEvent) : Bool := event.draft.base.eventType ∈ sealingEventTypes

def isCausal (event : StoredEvent) : Bool := !event.isTerminal && event.amendment.isNone

end StoredEvent

namespace AppendRequest

def run : AppendRequest τ → ProducerRun
  | apiEvent run _ => run
  | streamEvent run _ => run
  | apiEventsBatch run _ _ _ => run

/-- The part of a call before the store's append: what it hands to the store, and the seal. -/
def submit (ledgerSeal : LedgerSeal) :
    AppendRequest τ → Except ProducerError (List StoredEvent) × LedgerSeal
  | apiEvent run event =>
      match ledgerSeal.guard run.runId event.eventType event.amendment with
      | .error e => (.error e, ledgerSeal)
      | .ok ledgerSeal =>
          ((apiEventDraft projection run event).map fun draft => [⟨draft, event.amendment⟩],
            ledgerSeal)
  | streamEvent run event =>
      match fromStreamEvent projection run event with
      | .error e => (.error e, ledgerSeal)
      | .ok draft =>
          match ledgerSeal.guard run.runId draft.base.eventType none with
          | .error e => (.error e, ledgerSeal)
          | .ok ledgerSeal => (.ok [⟨streamEventDraft projection draft, none⟩], ledgerSeal)
  | apiEventsBatch run source eventType entries =>
      if entries = [] then (.ok [], ledgerSeal)
      else
        match ledgerSeal.guard run.runId eventType none with
        | .error e => (.error e, ledgerSeal)
        | .ok ledgerSeal =>
            ((entries.mapM (batchEntryDraft projection run source eventType)).map
              fun drafts => drafts.map fun draft => ⟨draft, none⟩, ledgerSeal)

end AppendRequest

end Drafts

/-! ### The producer and its store -/

/-- An append that waits for the store, and the length its run's log had when it was handed over. -/
structure PendingAppend where
  runId : String
  events : List StoredEvent
  since : Nat

structure ProducerState where
  ledgerSeal : LedgerSeal
  log : String → List StoredEvent
  waiting : Dict Nat PendingAppend
  started : Nat

/-- What happens next: a call, the store's answer to an append, of which it wrote the given number
of events, or the end of a call that still waits. -/
inductive ProducerEvent (τ : Type)
  | call (request : AppendRequest τ)
  | store (task written : Nat)
  | cancel (task : Nat)

namespace ProducerState
variable {τ : Type} (projection : EventProjection τ)

def init : ProducerState := ⟨Dict.empty, fun _ => [], Dict.empty, 0⟩

variable (s : ProducerState)

/-- The call is refused because its run is sealed. -/
def refuses (request : AppendRequest τ) : Bool :=
  match (request.submit projection s.ledgerSeal).1 with
  | .error (.ledgerSealViolation _ _ _) => true
  | _ => false

def call (request : AppendRequest τ) : ProducerState :=
  match request.submit projection s.ledgerSeal with
  | (.ok (event :: rest), ledgerSeal) =>
      { s with
        ledgerSeal := ledgerSeal
        waiting := s.waiting.set s.started
          ⟨request.run.runId, event :: rest, (s.log request.run.runId).length⟩
        started := s.started + 1 }
  | (_, ledgerSeal) => { s with ledgerSeal := ledgerSeal }

def write (pending : PendingAppend) (written : Nat) : String → List StoredEvent :=
  Function.update s.log pending.runId (s.log pending.runId ++ pending.events.take written)

/-- One step; an answer to an append that does not wait changes nothing. -/
def step : ProducerEvent τ → ProducerState
  | .call request => s.call projection request
  | .store task written =>
      match s.waiting.get? task with
      | some pending =>
          { s with log := s.write pending written, waiting := s.waiting.erase task }
      | none => s
  | .cancel task => { s with waiting := s.waiting.erase task }

def after (history : List (ProducerEvent τ)) : ProducerState :=
  history.foldl (step projection) init

end ProducerState

end CopilotRuntime.EventLog
