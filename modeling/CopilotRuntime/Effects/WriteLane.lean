import CopilotRuntime.Foundation.Json
import Mathlib.Data.List.MinMax

/-!
# The lane of staged writes

What the lane of staged writes shares with the lane of effects: the records of runs, the events
and commands of the older lane, and the rows of a bulk write. Positions in a run's ledger increase
strictly, whoever appends.
-/

namespace CopilotRuntime.StagedWrites

open Foundation

/-- The facts of a persisted run that the lane reads. -/
structure RunRecord where
  orgId : String
  runId : String
  userId : String
  conversationId : String

/-- One event of a run's ledger. -/
structure WriteEvent where
  runId : String
  sequenceNo : Nat
  eventType : String
  payload : Payload

/-- One event to append. -/
structure WriteDraft where
  eventType : String
  payload : Payload

/-- The durable command an approval enqueues. -/
structure StageCommitCommand where
  stageId : String
  runId : String
  orgId : String
  userId : String
  conversationId : String
  rev : Nat
  decisionSeq : Nat
  rowKeys : Option (List String)
  governedCapabilities : Option (List String)

inductive StagedWriteError
  | stageNotFound
  | staleRevision
  | stageFrozen
  | unsupportedDecision
  | malformedDecision
  | unknownRowKey
  | applySetMismatch
  | invalidRowset (message : String)
  | rowsetUnaccounted (message : String)
  | rolloutDenied
  deriving DecidableEq

/-- The ledger of all runs, in the order of appending. -/
structure WriteLedger where
  events : List WriteEvent

namespace WriteLedger

def empty : WriteLedger := ⟨[]⟩

def runEvents (l : WriteLedger) (runId : String) : List WriteEvent :=
  l.events.filter fun e => e.runId = runId

/-- The event stands later than everything recorded for its run. -/
def isNext (l : WriteLedger) (event : WriteEvent) : Prop :=
  ∀ e ∈ l.events, e.runId = event.runId → e.sequenceNo < event.sequenceNo

def push (l : WriteLedger) (event : WriteEvent) : WriteLedger := ⟨l.events ++ [event]⟩

/-- The first position after everything recorded for a run. -/
def nextSequence (l : WriteLedger) (runId : String) : Nat :=
  ((l.runEvents runId).map fun e => e.sequenceNo).foldr max 0 + 1

/-- A draft as the next event of a run. -/
def next (l : WriteLedger) (runId : String) (draft : WriteDraft) : WriteEvent :=
  ⟨runId, l.nextSequence runId, draft.eventType, draft.payload⟩

theorem mem_runEvents {l : WriteLedger} {runId : String} {e : WriteEvent} :
    e ∈ l.runEvents runId ↔ e ∈ l.events ∧ e.runId = runId := by
  simp [runEvents]

theorem isNext_next (l : WriteLedger) (runId : String) (draft : WriteDraft) :
    l.isNext (l.next runId draft) := by
  intro e he hrun
  have hmem : e.sequenceNo ∈ (l.runEvents runId).map fun x => x.sequenceNo :=
    List.mem_map_of_mem (mem_runEvents.mpr ⟨he, hrun⟩)
  exact Nat.lt_succ_of_le (List.le_max_of_le' 0 hmem (Nat.le_refl _))

end WriteLedger

/-- One field's old and new value. An absent value is null. -/
structure RowFieldChange where
  field : String
  old : Json
  new : Json

/-- Who authored the value one outbound argument carries. -/
inductive ArgOrigin
  | edited | carried | proposed
  deriving DecidableEq

/-- One entry of a row's account of what it will send. -/
structure StagedArg where
  arg : String
  origin : ArgOrigin
  column : Option String
  old : Json
  new : Json

/-- One proposed row change. -/
structure StagedRow where
  rowKey : String
  title : String
  targetArgs : List (String × Json)
  changes : List RowFieldChange
  sends : List StagedArg

/-- A row deliberately withheld with a visible reason. -/
structure AgentHold where
  rowKey : String
  reason : String

end CopilotRuntime.StagedWrites
