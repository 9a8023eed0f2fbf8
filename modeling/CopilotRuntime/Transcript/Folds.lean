import CopilotRuntime.Foundation.Json
import Mathlib.Data.List.Sort

/-!
# The transcript folds

The prose of one assistant turn, folded from the envelopes of its run: by the worker when it
stores the turn, and by the client while the turn streams.

## Implementation notes

Both folds read the clock of an envelope with a parser of their own language, which is a
parameter. An index of `-1` is `none`. Sequence numbers are integers that both languages hold
exactly.
-/

namespace CopilotRuntime.Transcript

open Foundation

structure RuntimeEventEnvelope where
  eventId : String
  runId : String
  sequenceNo : Int
  eventType : String
  subagentId : Option String
  visibility : Option String
  payload : Json
  summary : Option String
  createdAt : String
  deriving DecidableEq

inductive TurnPartKind
  | text
  | reasoning
  deriving DecidableEq

inductive TurnPartStatus
  | running
  | complete
  deriving DecidableEq

structure TurnPart where
  kind : TurnPartKind
  text : String
  seq : Int
  status : TurnPartStatus
  startedAtMs : Option Int
  updatedAtMs : Option Int

structure DraftPart where
  kind : TurnPartKind
  text : String
  seq : Int
  startedAtMs : Option Int
  updatedAtMs : Option Int
  closed : Bool

def partBreakingEventTypes : List String :=
  ["tool_call_started", "tool_call_completed", "tool_result", "approval_requested",
    "approval_resolved", "mcp_auth_required", "subagent_started", "subagent_completed",
    "subagent_fleet_started", "subagent_fleet_finished"]

/-! ### What both folds read of an envelope -/

/-- The text under a key of a payload, empty unless the payload is an object with a text there. -/
def payloadField (payload : Json) (key : String) : String :=
  match payload with
  | .obj fields =>
      match Json.lookup fields key with
      | some (.str value) => value
      | _ => ""
  | _ => ""

def payloadText (event : RuntimeEventEnvelope) : String :=
  ((["text", "message", "delta"].map (payloadField event.payload)).find? (· ≠ "")).getD ""

/-- The text of the payload or else the summary. -/
def finalText (event : RuntimeEventEnvelope) : String :=
  if payloadText event ≠ "" then payloadText event else event.summary.getD ""

def reasoningSummaryText (event : RuntimeEventEnvelope) : String :=
  if payloadField event.payload "summary" ≠ "" then payloadField event.payload "summary"
  else finalText event

/-! ### Parts under construction -/

/-- The drafts with the index of the open one. -/
structure Drafts where
  parts : List DraftPart
  openIndex : Option Nat

namespace Drafts

def start : Drafts := ⟨[], none⟩

/-- The kind of the open draft. -/
def openKind (d : Drafts) : Option TurnPartKind :=
  d.openIndex.bind fun i => d.parts[i]?.map DraftPart.kind

def closeOpen (d : Drafts) : Drafts :=
  match d.openIndex with
  | none => d
  | some i => ⟨d.parts.modify i fun draft => { draft with closed := true }, none⟩

/-- Change the open draft. -/
def edit (d : Drafts) (change : DraftPart → DraftPart) : Drafts :=
  match d.openIndex with
  | none => d
  | some i => { d with parts := d.parts.modify i change }

def push (d : Drafts) (draft : DraftPart) : Drafts := { d with parts := d.parts ++ [draft] }

def appendDelta (d : Drafts) (kind : TurnPartKind) (delta : String) (event : RuntimeEventEnvelope)
    (at? : Option Int) : Drafts :=
  if d.openKind ≠ some kind then
    let closed := d.closeOpen
    { closed.push ⟨kind, delta, event.sequenceNo, at?, at?, false⟩ with
      openIndex := some closed.parts.length }
  else d.edit fun draft =>
    { draft with
      text := draft.text ++ delta
      updatedAtMs := if at?.isSome then at? else draft.updatedAtMs }

/-- The index of the last text draft. -/
def lastTextIndex (d : Drafts) : Option Nat :=
  (List.range d.parts.length).reverse.find? fun i =>
    d.parts[i]?.any fun draft => draft.kind = .text

end Drafts

/-! ### The fold of the worker -/

namespace TurnPartsProjection

structure FoldState where
  drafts : Drafts
  finalized : Bool
  seen : List String
  cardSinceProse : Bool

def isVisible (event : RuntimeEventEnvelope) : Bool :=
  !(["internal", "audit"].any fun hidden => event.visibility = some hidden)

def applyReasoningCap (createdAtMs : String → Option Int) (d : Drafts)
    (event : RuntimeEventEnvelope) : Drafts :=
  let text := reasoningSummaryText event
  let at? := createdAtMs event.createdAt
  if d.openKind = some .reasoning then
    -- A time at the epoch is falsy, so the part keeps the time it had.
    (d.edit fun draft =>
      { draft with
        text := if text ≠ "" then text else draft.text
        updatedAtMs := if at?.any (· ≠ 0) then at? else draft.updatedAtMs }).closeOpen
  else if text = "" then d
  else d.push ⟨.reasoning, text, event.sequenceNo, at?, at?, true⟩

def reconcileFinal (createdAtMs : String → Option Int) (d : Drafts)
    (event : RuntimeEventEnvelope) (mayReconcile : Bool) : Drafts :=
  let text := finalText event
  let at? := createdAtMs event.createdAt
  if text = "" then d
  else
    match d.lastTextIndex with
    | some i =>
        if mayReconcile ∧ i + 1 = d.parts.length then
          { d with parts := d.parts.modify i fun draft => { draft with text := text } }
        else d.push ⟨.text, text, event.sequenceNo, at?, at?, true⟩
    | none => d.push ⟨.text, text, event.sequenceNo, at?, at?, true⟩

def foldEvent (createdAtMs : String → Option Int) (s : FoldState) (event : RuntimeEventEnvelope) :
    FoldState :=
  if event.subagentId.isSome then s
  else if event.eventId ∈ s.seen then s
  else
    let s := { s with seen := event.eventId :: s.seen }
    if event.eventType ∈ partBreakingEventTypes ∧ isVisible event then
      { s with drafts := s.drafts.closeOpen, cardSinceProse := true }
    else if event.eventType = "model_delta" then
      if payloadText event = "" then s
      else
        { s with
          drafts := s.drafts.appendDelta .text (payloadText event) event
            (createdAtMs event.createdAt)
          cardSinceProse := false }
    else if event.eventType = "reasoning_summary_delta" then
      if payloadText event = "" then s
      else
        { s with
          drafts := s.drafts.appendDelta .reasoning (payloadText event) event
            (createdAtMs event.createdAt)
          cardSinceProse := false }
    else if event.eventType = "reasoning_summary" then
      { s with drafts := applyReasoningCap createdAtMs s.drafts event }
    else if event.eventType = "final_response" then
      { s with
        finalized := true
        drafts := reconcileFinal createdAtMs s.drafts.closeOpen event !s.cardSinceProse }
    else s

def ordered (events : List RuntimeEventEnvelope) : List RuntimeEventEnvelope :=
  events.insertionSort fun a b => a.sequenceNo ≤ b.sequenceNo

def fold (createdAtMs : String → Option Int) (events : List RuntimeEventEnvelope) :
    List TurnPart :=
  let s := (ordered events).foldl (foldEvent createdAtMs) ⟨.start, false, [], false⟩
  (s.drafts.parts.filter fun draft => draft.text ≠ "").map fun draft =>
    ⟨draft.kind, draft.text, draft.seq,
      if draft.closed ∨ s.finalized then .complete else .running, draft.startedAtMs,
      draft.updatedAtMs⟩

end TurnPartsProjection

/-! ### The fold of the client -/

structure TcChatMessage where
  messageId : String
  parts : List TurnPart
  runId : Option String
  createdAtMs : Option Int

/-- The variables of the client's fold. -/
structure ChatState where
  drafts : Drafts
  firstSeq : Option Int
  createdAt : Option String
  finalized : Bool
  messageId : Option String
  runId : Option String
  cardSinceProse : Bool
  seen : List String

namespace ChatState

def start : ChatState := ⟨.start, none, none, false, none, none, false, []⟩

/-- The first prose of the turn gives the message its number and its time. -/
def began (s : ChatState) (event : RuntimeEventEnvelope) : ChatState :=
  match s.firstSeq with
  | none => { s with firstSeq := some event.sequenceNo, createdAt := some event.createdAt }
  | some _ => s

def applyDelta (parseMs : String → Option Int) (s : ChatState) (kind : TurnPartKind)
    (event : RuntimeEventEnvelope) : ChatState :=
  let delta := payloadText event
  if delta = "" then s
  else
    let s := s.began event
    { s with
      drafts := s.drafts.appendDelta kind delta event (parseMs event.createdAt)
      cardSinceProse := false }

def applyReasoningSummary (parseMs : String → Option Int) (s : ChatState)
    (event : RuntimeEventEnvelope) : ChatState :=
  let text := reasoningSummaryText event
  let at? := parseMs event.createdAt
  if s.drafts.openKind = some .reasoning then
    { s with drafts := (s.drafts.edit fun draft =>
        { draft with
          text := if text ≠ "" then text else draft.text
          updatedAtMs := if at?.isSome then at? else draft.updatedAtMs }).closeOpen }
  else if text = "" then s
  else
    let s := s.began event
    { s with drafts := s.drafts.push ⟨.reasoning, text, event.sequenceNo, at?, at?, true⟩ }

def applyFinalResponse (parseMs : String → Option Int) (s : ChatState)
    (event : RuntimeEventEnvelope) : ChatState :=
  let s := { s with
    finalized := true
    drafts := s.drafts.closeOpen
    messageId := some event.eventId
    createdAt := some (s.createdAt.getD event.createdAt)
    firstSeq := some (s.firstSeq.getD event.sequenceNo) }
  let text := finalText event
  if text = "" then s
  else
    match s.drafts.lastTextIndex with
    | some i =>
        if !s.cardSinceProse ∧ i + 1 = s.drafts.parts.length then
          { s with drafts := { s.drafts with
              parts := s.drafts.parts.modify i fun draft => { draft with text := text } } }
        else
          { s with drafts := s.drafts.push ⟨.text, text, event.sequenceNo,
              parseMs event.createdAt, parseMs event.createdAt, true⟩ }
    | none =>
        { s with drafts := s.drafts.push ⟨.text, text, event.sequenceNo,
            parseMs event.createdAt, parseMs event.createdAt, true⟩ }

def applyEvent (parseMs : String → Option Int) (s : ChatState) (event : RuntimeEventEnvelope) :
    ChatState :=
  if event.subagentId ≠ none then s
  else if s.seen.contains event.eventId then s
  else
    let s := { s with
      seen := event.eventId :: s.seen
      runId := some (s.runId.getD event.runId) }
    if partBreakingEventTypes.contains event.eventType then
      if event.visibility = some "internal" ∨ event.visibility = some "audit" then s
      else { s with drafts := s.drafts.closeOpen, cardSinceProse := true }
    else
      match event.eventType with
      | "model_delta" => s.applyDelta parseMs .text event
      | "reasoning_summary_delta" => s.applyDelta parseMs .reasoning event
      | "reasoning_summary" => s.applyReasoningSummary parseMs event
      | "final_response" => s.applyFinalResponse parseMs event
      | _ => s

end ChatState

def isSortedBySequence : List RuntimeEventEnvelope → Bool
  | a :: b :: rest => decide (a.sequenceNo ≤ b.sequenceNo) && isSortedBySequence (b :: rest)
  | _ => true

def projectChatMessages (parseMs : String → Option Int) (events : List RuntimeEventEnvelope) :
    List TcChatMessage :=
  let ordered := if isSortedBySequence events then events
    else events.insertionSort fun a b => a.sequenceNo ≤ b.sequenceNo
  let s := ordered.foldl (ChatState.applyEvent parseMs) .start
  let nonEmpty := s.drafts.parts.filter fun draft => draft.text ≠ ""
  if nonEmpty = [] then []
  else
    [{ messageId := s.messageId.getD ("run-assistant-" ++ toString (s.firstSeq.getD 0))
       parts := nonEmpty.map fun draft =>
        ⟨draft.kind, draft.text, draft.seq,
          if draft.closed ∨ s.finalized then .complete else .running, draft.startedAtMs,
          draft.updatedAtMs⟩
       runId := s.runId
       createdAtMs := s.createdAt.bind parseMs }]

end CopilotRuntime.Transcript
