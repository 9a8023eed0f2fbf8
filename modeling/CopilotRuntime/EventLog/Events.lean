import CopilotRuntime.Foundation.Dict
import CopilotRuntime.Foundation.Json

/-!
# Run events

A draft is what a producer hands to the event store, an envelope is what the
store keeps. Both share their validated fields; the store derives the activity
kind of a draft that names none.

## Implementation notes

Payloads and metadata are compared as the language compares dictionaries:
without regard to order, and with the truth values equal to zero and one. A
creation time is a number of microseconds. Drafts carry the proof that they
passed the validators, which change nothing the second time.
-/

namespace CopilotRuntime.EventLog

open Foundation

/-! ### Vocabulary -/

inductive StreamEventSource
  | mainAgent | subagent | tool | mcp | summarization | system | runtime | model
  deriving DecidableEq

inductive RuntimeEventVisibility
  | user | internal | audit
  deriving DecidableEq

inductive RuntimeEventRedactionState
  | redacted | truncated | offloaded
  deriving DecidableEq

inductive RuntimeActivityKind
  | run | message | tool | subagent | reasoning | mcpAuth | approval | heartbeat | event | draft
  | note
  deriving DecidableEq

inductive RuntimeApiEventType
  | runQueued | runStarted | runCancelling | runCancelled | runSteered | runCompleted | runFailed
  | progress | reasoningSummary | reasoningSummaryDelta | toolCall | toolCallStarted
  | toolCallDelta | toolResult | toolCallCompleted | mcpAuthRequired | subagentUpdate
  | subagentStarted | subagentProgress | subagentCompleted | subagentFleetStarted
  | subagentFleetFinished | subagentPaused | subagentResumed | approvalRequested
  | approvalResolved | approvalForwarded | approvalUndoRequested | observation | error
  | modelCallStarted | modelCallCompleted | modelDelta | finalResponse | heartbeat
  | presentationUpdated | budgetWarning | runRejected | draftUpdated | todoListUpdated
  | workspaceSnapshotCaptured | sourceIngested | sourcesIngested | citationMade
  | compressionNote | adapterGenerated | surfaceSpecGenerated | surfaceSpecRequested
  | usageRecorded | actionClassified | readExecuted | surfaceCreated | viewDerived
  | viewPreference | shapeRequested | shapeResolved | gateOpened | gateResolved | gateOpenedV2
  | gateResolvedV2 | writeStaged | revisionAdded | decisionRecorded | writeApplied
  | receiptEmitted | artifactCreated | artifactRevised | artifactPromoted
  | artifactPresentationDecided | operationRequested | operationClassified | operationCompleted
  | operationFailed | effectStaged | effectProjectionBound | effectRevised
  | effectDecisionRecorded | effectClaimed | effectApplied | effectIndeterminate
  | effectReconciled | effectRowDecisionsRecorded | qualityControlBound | qualityDecision
  | toolPolicyJournal | promptAssembled | promptCacheObserved | modelInvocationPlanned
  | modelInvocationRoute | modelInvocationExclusion | modelAttemptAdmission | modelAttemptState
  | modelAttemptUsage | modelAttemptFailed | modelInvocationRecovery | modelInvocationCompleted
  | modelInvocationFailed | contextOccupancy
  deriving DecidableEq

/-- The activity bucket of an event; most types have one, the rest fall back to their source. -/
def activityKindFor (eventType : RuntimeApiEventType) (source : StreamEventSource) :
    RuntimeActivityKind :=
  match eventType with
  | .heartbeat => .heartbeat
  | .modelDelta | .finalResponse => .message
  | .reasoningSummary | .reasoningSummaryDelta => .reasoning
  | .mcpAuthRequired => .mcpAuth
  | .draftUpdated => .draft
  | .presentationUpdated | .todoListUpdated | .surfaceSpecRequested | .surfaceSpecGenerated
  | .usageRecorded | .contextOccupancy | .actionClassified | .readExecuted | .surfaceCreated
  | .viewDerived | .viewPreference | .shapeRequested | .shapeResolved | .gateOpened
  | .gateResolved | .writeStaged | .revisionAdded | .decisionRecorded | .writeApplied
  | .receiptEmitted | .artifactCreated | .artifactRevised | .artifactPromoted
  | .artifactPresentationDecided | .operationRequested | .operationClassified
  | .operationCompleted | .operationFailed | .effectStaged | .effectProjectionBound
  | .effectRevised | .effectDecisionRecorded | .effectClaimed | .effectApplied
  | .effectIndeterminate | .effectReconciled | .effectRowDecisionsRecorded
  | .toolPolicyJournal | .promptAssembled | .promptCacheObserved | .modelInvocationPlanned
  | .modelInvocationRoute | .modelInvocationExclusion | .modelAttemptAdmission
  | .modelAttemptState | .modelAttemptUsage | .modelAttemptFailed | .modelInvocationRecovery
  | .modelInvocationCompleted | .modelInvocationFailed => .event
  | .compressionNote | .runSteered => .note
  | .approvalRequested | .approvalResolved | .approvalForwarded => .approval
  | .toolCall | .toolCallStarted | .toolCallDelta | .toolResult | .toolCallCompleted
  | .sourceIngested | .sourcesIngested | .citationMade => .tool
  | .subagentUpdate | .subagentStarted | .subagentProgress | .subagentCompleted
  | .subagentFleetStarted | .subagentFleetFinished =>
      if source = .tool then .tool else .subagent
  | .runQueued | .runStarted | .runCancelling | .runCancelled | .runCompleted | .runFailed
  | .modelCallStarted =>
      if source = .tool then .tool else if source = .subagent then .subagent else .run
  | _ => if source = .tool then .tool else if source = .subagent then .subagent else .event

inductive StatusLabel
  | running | waitingForPermission | done | failed | notAvailable
  deriving DecidableEq

inductive PresentationKind
  | progress | result | approval | auth | error
  deriving DecidableEq

structure RuntimeEventPresentationPreviewRow where
  title : String
  subtitle : Option String
  url : Option String
  badge : Option String
  deriving DecidableEq

/-- The card an event is shown as. -/
structure RuntimeEventPresentation where
  title : String
  summary : Option String
  statusLabel : StatusLabel
  kind : PresentationKind
  groupKey : Option String
  primaryEntity : Option String
  actionLabel : Option String
  resultPreview : List RuntimeEventPresentationPreviewRow
  debugLabel : Option String
  code : Option String
  retryable : Option Bool
  deriving DecidableEq

/-! ### Comparison of JSON values -/

mutual

/-- The value with truth values written as the numbers they equal. -/
def truthAsNumber : Json → Json
  | .bool b => .int (if b then 1 else 0)
  | .arr items => .arr (truthAsNumberItems items)
  | .obj fields => .obj (truthAsNumberFields fields)
  | other => other

def truthAsNumberItems : List Json → List Json
  | [] => []
  | item :: rest => truthAsNumber item :: truthAsNumberItems rest

def truthAsNumberFields : List (String × Json) → List (String × Json)
  | [] => []
  | (name, value) :: rest => (name, truthAsNumber value) :: truthAsNumberFields rest

end

abbrev JsonObject := Dict String Json

/-- What two values have in common when they compare equal. -/
def comparable (value : Json) : Json := Json.canonical (truthAsNumber value)

/-- Two dictionaries have the same keys, with values that compare equal. -/
def JsonObject.same (a b : JsonObject) : Prop :=
  (∀ entry ∈ a.entries, (b.get? entry.1).map comparable = some (comparable entry.2)) ∧
    ∀ entry ∈ b.entries, (a.get? entry.1).isSome

instance (a b : JsonObject) : Decidable (JsonObject.same a b) := by
  unfold JsonObject.same
  infer_instance

theorem JsonObject.same_iff {a b : JsonObject} :
    JsonObject.same a b ↔ ∀ key, (a.get? key).map comparable = (b.get? key).map comparable := by
  constructor
  · rintro ⟨hvalues, hkeys⟩ key
    cases ha : a.get? key with
    | some value =>
        have hmem := (lookupEntries_eq_some_iff a.keys_nodup).mp ha
        exact (hvalues (key, value) hmem).symm
    | none =>
        cases hb : b.get? key with
        | none => rfl
        | some value =>
            have hmem := (lookupEntries_eq_some_iff b.keys_nodup).mp hb
            have hsome := hkeys (key, value) hmem
            rw [ha] at hsome
            cases hsome
  · intro h
    refine ⟨fun entry hmem => ?_, fun entry hmem => ?_⟩
    · have hget : a.get? entry.1 = some entry.2 :=
        (lookupEntries_eq_some_iff a.keys_nodup).mpr hmem
      rw [← h entry.1, hget]
      rfl
    · have hget : b.get? entry.1 = some entry.2 :=
        (lookupEntries_eq_some_iff b.keys_nodup).mpr hmem
      have hsame := h entry.1
      rw [hget] at hsame
      cases ha : a.get? entry.1 with
      | some _ => rfl
      | none =>
          rw [ha] at hsame
          cases hsame

/-! ### Validated fields -/

def isIdTail (c : Char) : Bool :=
  Text.isAsciiAlnum c || c == '.' || c == '_' || c == ':' || c == '-'

/-- Strip an identifier and check its characters. -/
def normalizeId (value : String) : Option String :=
  match (Text.strip value).toList with
  | [] => none
  | c :: rest =>
      if Text.isAsciiAlnum c && rest.all isIdTail then some (Text.strip value) else none

def normalizeOptionalId : Option String → Option (Option String)
  | none => some none
  | some value => (normalizeId value).map some

/-- Strip a text that may not be blank. -/
def normalizeText (value : String) : Option String :=
  if Text.strip value = "" then none else some (Text.strip value)

def normalizeOptionalText : Option String → Option (Option String)
  | none => some none
  | some value => (normalizeText value).map some

/-- The fields drafts and envelopes share. -/
structure RuntimeEventBase where
  runId : String
  conversationId : String
  source : StreamEventSource
  eventType : RuntimeApiEventType
  traceId : String
  parentEventId : Option String
  spanId : Option String
  parentSpanId : Option String
  parentTaskId : Option String
  taskId : Option String
  subagentId : Option String
  displayTitle : Option String
  summary : Option String
  status : Option String
  visibility : RuntimeEventVisibility
  redactionState : RuntimeEventRedactionState
  presentation : Option RuntimeEventPresentation
  payload : JsonObject
  metadata : JsonObject

/-- What the validators of the shared fields make of them. -/
def RuntimeEventBase.validated (b : RuntimeEventBase) : Option RuntimeEventBase := do
  let runId ← normalizeId b.runId
  let conversationId ← normalizeId b.conversationId
  let traceId ← normalizeId b.traceId
  let parentEventId ← normalizeOptionalId b.parentEventId
  let spanId ← normalizeOptionalId b.spanId
  let parentSpanId ← normalizeOptionalId b.parentSpanId
  let parentTaskId ← normalizeOptionalId b.parentTaskId
  let taskId ← normalizeOptionalId b.taskId
  let subagentId ← normalizeOptionalId b.subagentId
  let displayTitle ← normalizeOptionalText b.displayTitle
  let summary ← normalizeOptionalText b.summary
  let status ← normalizeOptionalText b.status
  return { b with
    runId, conversationId, traceId, parentEventId, spanId, parentSpanId, parentTaskId, taskId
    subagentId, displayTitle, summary, status }

/-! ### Validated fields stay as they are -/

theorem normalizeId_idem {value normalized : String} (h : normalizeId value = some normalized) :
    normalizeId normalized = some normalized := by
  have hstrip : normalized = Text.strip value := by
    unfold normalizeId at h
    split at h
    · cases h
    · split at h
      · exact (Option.some.inj h).symm
      · cases h
  subst hstrip
  simpa [normalizeId] using h

theorem normalizeOptionalId_idem {value normalized : Option String}
    (h : normalizeOptionalId value = some normalized) :
    normalizeOptionalId normalized = some normalized := by
  cases value with
  | none =>
      obtain rfl := Option.some.inj h
      rfl
  | some value =>
      obtain ⟨id, hid, rfl⟩ := Option.map_eq_some_iff.mp h
      simp [normalizeOptionalId, normalizeId_idem hid]

theorem normalizeOptionalText_idem {value normalized : Option String}
    (h : normalizeOptionalText value = some normalized) :
    normalizeOptionalText normalized = some normalized := by
  cases value with
  | none =>
      obtain rfl := Option.some.inj h
      rfl
  | some value =>
      obtain ⟨text, htext, rfl⟩ := Option.map_eq_some_iff.mp h
      unfold normalizeText at htext
      split at htext
      · cases htext
      · next hblank =>
          obtain rfl := Option.some.inj htext
          simp [normalizeOptionalText, normalizeText, hblank]

/-- Fields that passed the validators pass them again unchanged. -/
theorem bind_eq_some_of {α β : Type} {o : Option α} {f : α → Option β} {a : α} {b : β}
    (ho : o = some a) (h : f a = some b) : (o >>= f) = some b := by
  rw [ho]
  exact h

theorem validated_idem {b b' : RuntimeEventBase} (h : b.validated = some b') :
    b'.validated = some b' := by
  obtain ⟨_, h1, h⟩ := Option.bind_eq_some_iff.mp h
  obtain ⟨_, h2, h⟩ := Option.bind_eq_some_iff.mp h
  obtain ⟨_, h3, h⟩ := Option.bind_eq_some_iff.mp h
  obtain ⟨_, h4, h⟩ := Option.bind_eq_some_iff.mp h
  obtain ⟨_, h5, h⟩ := Option.bind_eq_some_iff.mp h
  obtain ⟨_, h6, h⟩ := Option.bind_eq_some_iff.mp h
  obtain ⟨_, h7, h⟩ := Option.bind_eq_some_iff.mp h
  obtain ⟨_, h8, h⟩ := Option.bind_eq_some_iff.mp h
  obtain ⟨_, h9, h⟩ := Option.bind_eq_some_iff.mp h
  obtain ⟨_, h10, h⟩ := Option.bind_eq_some_iff.mp h
  obtain ⟨_, h11, h⟩ := Option.bind_eq_some_iff.mp h
  obtain ⟨_, h12, h⟩ := Option.bind_eq_some_iff.mp h
  obtain rfl := Option.some.inj h
  refine bind_eq_some_of (normalizeId_idem h1) ?_
  refine bind_eq_some_of (normalizeId_idem h2) ?_
  refine bind_eq_some_of (normalizeId_idem h3) ?_
  refine bind_eq_some_of (normalizeOptionalId_idem h4) ?_
  refine bind_eq_some_of (normalizeOptionalId_idem h5) ?_
  refine bind_eq_some_of (normalizeOptionalId_idem h6) ?_
  refine bind_eq_some_of (normalizeOptionalId_idem h7) ?_
  refine bind_eq_some_of (normalizeOptionalId_idem h8) ?_
  refine bind_eq_some_of (normalizeOptionalId_idem h9) ?_
  refine bind_eq_some_of (normalizeOptionalText_idem h10) ?_
  refine bind_eq_some_of (normalizeOptionalText_idem h11) ?_
  exact bind_eq_some_of (normalizeOptionalText_idem h12) rfl

/-! ### Drafts and envelopes -/

/-- An event before the store numbers it; its fields have passed the validators. -/
structure RuntimeEventDraft where
  base : RuntimeEventBase
  activityKind : Option RuntimeActivityKind
  orgId : String
  eventId : Option String
  createdAt : Option Int
  base_valid : base.validated = some base
  eventId_valid : normalizeOptionalId eventId = some eventId

/-- A draft from the fields a producer gives, when they pass the validators. -/
def RuntimeEventDraft.modelValidate (base : RuntimeEventBase)
    (activityKind : Option RuntimeActivityKind) (orgId : String) (eventId : Option String)
    (createdAt : Option Int) : Option RuntimeEventDraft :=
  match hbase : base.validated, normalizeId orgId, hid : normalizeOptionalId eventId with
  | some base, some orgId, some eventId =>
      some ⟨base, activityKind, orgId, eventId, createdAt, validated_idem hbase,
        normalizeOptionalId_idem hid⟩
  | _, _, _ => none

/-- An event of a run's log. -/
structure RuntimeEventEnvelope where
  base : RuntimeEventBase
  activityKind : RuntimeActivityKind
  eventId : String
  sequenceNo : Nat
  createdAt : Int

end CopilotRuntime.EventLog
