import CopilotRuntime.Effects.Coordinator
import CopilotRuntime.Effects.LedgerPayloads
import CopilotRuntime.Effects.StageHistory

/-!
# The run-bound effect ledger

In production the stage ledger is one run's event stream. The adapter checks
the scope and the event type, validates the payload, and appends it under an
event id derived from the idempotency key; a listing filters the stream.

## Implementation notes

The event store keeps the events of all runs in one list. Of an event's
metadata only the request fingerprint is kept; conversation, trace and
presentation fields are constant for one event type. The guard against appends
after a run's terminal event is left out, as the stager's operations append no
such event.
-/

namespace CopilotRuntime.Effects

open Foundation EffectStageFold

/-- One stored event of a run's stream. -/
structure RuntimeEvent where
  runId : String
  eventId : String
  sequenceNo : Nat
  eventType : String
  payload : Payload
  fingerprint : Option String
  createdAt : String
  deriving DecidableEq

/-- One append request to the event store. -/
structure RuntimeEventDraft where
  runId : String
  eventId : String
  eventType : String
  payload : Payload
  fingerprint : Option String

/-- The event is the idempotent result of the draft. -/
def RuntimeEventDraft.matchesEnvelope (d : RuntimeEventDraft) (e : RuntimeEvent) : Bool :=
  e.eventId == d.eventId && e.runId == d.runId && e.eventType == d.eventType &&
    e.payload == d.payload && e.fingerprint == d.fingerprint

/-- The append-only event store, oldest event first. -/
abbrev RuntimeEventStore := List RuntimeEvent

namespace RuntimeEventStore

def ofRun (s : RuntimeEventStore) (runId : String) : List RuntimeEvent :=
  s.filter fun e => e.runId = runId

def findEvent (s : RuntimeEventStore) (runId eventId : String) : Option RuntimeEvent :=
  (s.ofRun runId).find? fun e => e.eventId = eventId

/-- The event a new append stores. -/
def envelope (s : RuntimeEventStore) (d : RuntimeEventDraft) (createdAt : String) : RuntimeEvent where
  runId := d.runId
  eventId := d.eventId
  sequenceNo := (s.ofRun d.runId).length + 1
  eventType := d.eventType
  payload := d.payload
  fingerprint := d.fingerprint
  createdAt := createdAt

/-- Append one event with the next position of its run, or resolve a redelivery of its id. -/
def appendEvent (s : RuntimeEventStore) (d : RuntimeEventDraft) (createdAt : String) :
    Option RuntimeEvent × RuntimeEventStore :=
  match s.findEvent d.runId d.eventId with
  | some existing => if d.matchesEnvelope existing then (some existing, s) else (none, s)
  | none => (some (s.envelope d createdAt), s ++ [s.envelope d createdAt])

end RuntimeEventStore

/-! ### The append funnel -/

/-- The ledger's payload models of the stager's event types. -/
def payloadModels : List (String × PayloadModel) :=
  [(eventStaged, effectStagedPayload), (eventProjectionBound, effectProjectionBoundPayload),
    (eventRevised, effectRevisedPayload), (eventDecision, effectDecisionRecordedPayload),
    (eventRowDecisions, effectRowDecisionsRecordedPayload)]

namespace WorkLedgerVocabulary

def modelFor (eventType : String) : Option PayloadModel :=
  (payloadModels.find? fun entry => entry.1 = eventType).map Prod.snd

/-- Validate a payload against the model of its event type, and write it without nulls. -/
def validatePayload (eventType : String) (payload : Payload) : Except EffectError Payload :=
  match modelFor eventType with
  | none => .error (.external ("unknown work-ledger event type: " ++ eventType))
  | some model =>
      match model.errors payload with
      | [] => .ok (model.dump payload)
      | errors => .error (.validation errors)

end WorkLedgerVocabulary

/-- Validate a row once more; a malformed one is projected to the empty payload. -/
def effectLedgerPayload (eventType : String) (payload : Payload) : Payload :=
  match WorkLedgerVocabulary.validatePayload eventType payload with
  | .ok projected => projected
  | .error _ => []

/-- Replace the writer stamp of a payload that has any other field. -/
def stamp (writer : Json) (projected : Payload) : Payload :=
  let unsigned := projected.filter fun field => field.1 ≠ "w"
  if unsigned = [] then [] else unsigned ++ [("w", writer)]

/-- Sign a projected payload with its writer, or with the current one. -/
def signLedgerWriter (payload projected : Payload) : Except EffectError Payload :=
  match payload.present "w" with
  | none => .ok (stamp (.str currentLedgerWriter) projected)
  | some writer =>
      if writer = .str currentLedgerWriter then .ok (stamp writer projected)
      else .error (.external "unknown ledger writer")

theorem lookup_stamp {writer : Json} {p : Payload} {key : String} (hkey : key ≠ "w") :
    Json.lookup (stamp writer p) key = Json.lookup p key := by
  have hunsigned := Payload.lookup_filter_ne (p := p) hkey
  unfold stamp
  dsimp only
  split
  · next hempty => rw [← hunsigned, hempty]
  · exact (Payload.lookup_append_singleton (Ne.symm hkey)).trans hunsigned

def payloadForEvent (eventType : String) (payload : Payload) : Except EffectError Payload :=
  signLedgerWriter payload (effectLedgerPayload eventType payload)

/-- What is stored for an admitted payload carries its values. -/
theorem carriedBy_of_admitted {eventType : String} {model : PayloadModel} {p : Payload}
    (hmodel : WorkLedgerVocabulary.modelFor eventType = some model) (herrors : model.errors p = [])
    (hunsigned : p.present "w" = none) :
    ∃ safe stored, WorkLedgerVocabulary.validatePayload eventType p = .ok safe ∧
      payloadForEvent eventType safe = .ok stored ∧ p.CarriedBy stored := by
  obtain ⟨hagain, hsame⟩ := PayloadModel.dump_dump herrors
  have hpresent := PayloadModel.present_dump herrors
  have hsafe : WorkLedgerVocabulary.validatePayload eventType p = .ok (model.dump p) := by
    simp [WorkLedgerVocabulary.validatePayload, hmodel, herrors]
  have hprojected : effectLedgerPayload eventType (model.dump p) = model.dump p := by
    simp [effectLedgerPayload, WorkLedgerVocabulary.validatePayload, hmodel, hagain, hsame]
  refine ⟨model.dump p, stamp (.str currentLedgerWriter) (model.dump p), hsafe, ?_, ?_⟩
  · rw [payloadForEvent, hprojected, signLedgerWriter, hpresent, hunsigned]
  · intro key hkey
    rw [← PayloadModel.lookup_dump herrors, lookup_stamp hkey]

/-! ### The adapter -/

/-- The event types the adapter appends and lists. -/
def effectEventTypes : List String :=
  [eventStaged, eventProjectionBound, eventRevised, eventDecision, eventClaimed, eventApplied,
    eventIndeterminate, eventReconciled]

/-- The stage ledger bound to one run and its owner. -/
structure RuntimeEffectLedger where
  runId : String
  ownerRef : String

namespace RuntimeEffectLedger

def assertScope (l : RuntimeEffectLedger) (scope : EffectStageScope) : Except EffectError Unit :=
  if scope.runId = l.runId ∧ scope.ownerRef = l.ownerRef then .ok ()
  else .error (.external "effect stage scope does not match the bound runtime run")

/-- A stored event as the stage ledger presents it. -/
def structuralEvent (e : RuntimeEvent) : Except EffectError StructuralEvent :=
  match LedgerIdCodec.format e.runId e.sequenceNo with
  | none =>
      .error (.external "run_id must normalise to at least 3 characters to form a ledger id")
  | some ledgerId =>
      .ok {
        runId := e.runId
        ledgerId
        sequenceNo := e.sequenceNo
        eventType := e.eventType
        payload := e.payload
        createdAt := e.createdAt }

/-- The event is one of the stage's effect events. -/
def isStageEvent (stageId : String) (e : RuntimeEvent) : Bool :=
  effectEventTypes.contains e.eventType && Json.lookup e.payload "stage_id" == some (.str stageId)

/-- Only one stage's effect events, in stream order. -/
def listStageEvents (l : RuntimeEffectLedger) (s : RuntimeEventStore) (scope : EffectStageScope)
    (stageId : String) : Except EffectError (List StructuralEvent) := do
  l.assertScope scope
  ((s.ofRun l.runId).filter (isStageEvent stageId)).mapM structuralEvent

variable (sha256 : String → String)

/-- A stable transport id that does not expose the caller's key. -/
def eventId (runId idempotencyKey : String) : String :=
  "effevt_" ++ sha256 (runId ++ "\x00" ++ idempotencyKey)

/-- The payload that an append of the draft stores. -/
def storedPayload (draft : StageEventDraft) : Except EffectError Payload := do
  if !effectEventTypes.contains draft.eventType then
    throw (.external "runtime effect ledger only accepts effect events")
  let safe ← WorkLedgerVocabulary.validatePayload draft.eventType draft.payload
  payloadForEvent draft.eventType safe

def eventDraft (l : RuntimeEffectLedger) (draft : StageEventDraft) (payload : Payload) :
    RuntimeEventDraft where
  runId := l.runId
  eventId := eventId sha256 l.runId draft.idempotencyKey
  eventType := draft.eventType
  payload := payload
  fingerprint := some draft.requestFingerprint

/-- Append one checked effect event or return its exact replay. -/
def appendStageEvent (l : RuntimeEffectLedger) (s : RuntimeEventStore) (createdAt : String)
    (scope : EffectStageScope) (draft : StageEventDraft) :
    Except EffectError StructuralEvent × RuntimeEventStore :=
  match l.assertScope scope with
  | .error e => (.error e, s)
  | .ok _ =>
      match storedPayload draft with
      | .error e => (.error e, s)
      | .ok payload =>
          match s.appendEvent (l.eventDraft sha256 draft payload) createdAt with
          | (none, s') => (.error (.stage .idempotencyConflict), s')
          | (some event, s') => (structuralEvent event, s')

end RuntimeEffectLedger

/-! ### Folding what was stored -/

/-- A stored event stands where the built one does and carries its payload. -/
structure Carries (built stored : StructuralEvent) : Prop where
  runId : stored.runId = built.runId
  ledgerId : stored.ledgerId = built.ledgerId
  sequenceNo : stored.sequenceNo = built.sequenceNo
  eventType : stored.eventType = built.eventType
  createdAt : stored.createdAt = built.createdAt
  payload : Payload.CarriedBy built.payload stored.payload

/-- The event's version and hold are values, and it is no row decision. -/
structure Plain (built : StructuralEvent) : Prop where
  version : Json.lookup built.payload "v" ≠ some .null
  hold : Json.lookup built.payload "agent_hold" ≠ some .null
  kind : built.eventType ≠ eventRowDecisions

namespace Carries
variable {built stored : StructuralEvent}

theorem readRevision (h : Carries built stored) (stageId : String) (revision : Nat)
    (safeDiffRef : Option String) :
    EffectStageFold.readRevision stored.payload stageId revision safeDiffRef =
      EffectStageFold.readRevision built.payload stageId revision safeDiffRef := by
  have hstring {key : String} (hkey : key ≠ "w") := h.payload.string hkey
  have hoptional {key : String} (hkey : key ≠ "w") := h.payload.optionalString hkey
  simp (disch := decide) only [EffectStageFold.readRevision, normaliseProposalReferences, readActor,
    hstring, hoptional]

theorem stateFromStaged (h : Carries built stored) (hplain : Plain built) :
    EffectStageFold.stateFromStaged stored = EffectStageFold.stateFromStaged built := by
  have hstring {key : String} (hkey : key ≠ "w") := h.payload.string hkey
  have hoptional {key : String} (hkey : key ≠ "w") := h.payload.optionalString hkey
  have htruthy {key : String} (hkey : key ≠ "w") := h.payload.truthy hkey
  have hhold := h.payload.boolean (by decide) hplain.hold
  simp (disch := decide) only [EffectStageFold.stateFromStaged, readStaged, hstring, hoptional, htruthy,
    hhold, h.payload.versionOk hplain.version, h.readRevision, h.runId]

theorem nextRevision (h : Carries built stored) (hplain : Plain built) (s : EffectStageState) :
    EffectStageFold.nextRevision s stored = EffectStageFold.nextRevision s built := by
  have hoptional {key : String} (hkey : key ≠ "w") := h.payload.optionalString hkey
  have hnatural {key : String} (hkey : key ≠ "w") := h.payload.natural hkey
  simp (disch := decide) only [EffectStageFold.nextRevision, hoptional, hnatural,
    h.payload.versionOk hplain.version, h.readRevision]

theorem readBinding (h : Carries built stored) (hplain : Plain built) :
    EffectStageFold.readBinding stored = EffectStageFold.readBinding built := by
  have hstring {key : String} (hkey : key ≠ "w") := h.payload.string hkey
  have hnatural {key : String} (hkey : key ≠ "w") := h.payload.natural hkey
  simp (disch := decide) only [EffectStageFold.readBinding, hstring, hnatural,
    h.payload.versionOk hplain.version, h.ledgerId]

theorem readDecision (h : Carries built stored) (hplain : Plain built) :
    EffectStageFold.readDecision stored = EffectStageFold.readDecision built := by
  have hstring {key : String} (hkey : key ≠ "w") := h.payload.string hkey
  have hnatural {key : String} (hkey : key ≠ "w") := h.payload.natural hkey
  simp (disch := decide) only [EffectStageFold.readDecision, EffectStageFold.readActor, hstring,
    hnatural, h.payload.versionOk hplain.version, h.payload.optionalRowKeys, h.ledgerId]

theorem applyEvent (h : Carries built stored) (hplain : Plain built) (s : EffectStageState) :
    EffectStageFold.applyEvent s stored = EffectStageFold.applyEvent s built := by
  unfold EffectStageFold.applyEvent
  rw [h.eventType, h.payload.string (by decide), if_neg hplain.kind, if_neg hplain.kind]
  unfold applyRevision applyProjectionBinding applyDecision
  rw [h.nextRevision hplain, h.readBinding hplain, h.readDecision hplain, h.createdAt]

theorem foldStep (h : Carries built stored) (hplain : Plain built)
    (state : Option EffectStageState) :
    EffectStageFold.foldStep state stored = EffectStageFold.foldStep state built := by
  cases state with
  | none =>
      dsimp only [EffectStageFold.foldStep]
      rw [h.eventType, h.stateFromStaged hplain]
  | some s => exact congrArg some (h.applyEvent hplain s)

end Carries

/-- Stored events fold to the state of the built ones. -/
theorem fold_carried {built stored : List StructuralEvent} (h : List.Forall₂ Carries built stored)
    (hplain : ∀ e ∈ built, Plain e)
    (hbuilt : built.Pairwise fun a b => a.sequenceNo < b.sequenceNo)
    (hstored : stored.Pairwise fun a b => a.sequenceNo < b.sequenceNo) :
    fold stored = fold built := by
  rw [fold_eq_foldl hbuilt, fold_eq_foldl hstored]
  clear hbuilt hstored
  generalize (none : Option EffectStageState) = state
  induction h generalizing state with
  | nil => rfl
  | cons hcarries _ ih =>
      obtain ⟨hfirst, hrest⟩ := List.forall_mem_cons.mp hplain
      rw [List.foldl_cons, List.foldl_cons, hcarries.foldStep hfirst]
      exact ih hrest _

end CopilotRuntime.Effects
