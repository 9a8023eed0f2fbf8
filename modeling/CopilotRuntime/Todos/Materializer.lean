import CopilotRuntime.Foundation.Json
import CopilotRuntime.Foundation.Program
import CopilotRuntime.Foundation.Table
import CopilotRuntime.Todos.Recurrence
import Mathlib.Data.List.Sort

/-!
# Todos and their series

The in-memory store of todos, of the series that they recur in, and of audit rows.

## Implementation notes

A time is a number of microseconds from the start of year 1 in UTC. The row of a dumped
todo stands for its dump. Of a todo those fields are kept that a series fills in or that
a lookup reads; its times are left out.
-/

namespace CopilotRuntime.Todos

open Foundation

structure TodoRecord where
  id : String
  tenantId : String
  ownerUserId : String
  text : String
  status : String := "open"
  priority : String := "med"
  due : Option String := none
  source : Json
  recurrence : Option Json := none
  seriesId : Option String := none
  deletedAt : Option Int := none

structure TodoSeriesRecord where
  id : String
  tenantId : String
  ownerUserId : String
  rule : String
  spec : String
  startedAt : Int
  endsAt : Option Int := none
  lastMaterializedDue : Option Int := none
  deriving DecidableEq

structure TodoAuditRecord where
  tenantId : String
  actorUserId : String
  action : String
  targetId : String
  afterState : TodoRecord

structure TodosStore where
  todos : Table TodoRecord.id
  series : Table TodoSeriesRecord.id
  audits : List TodoAuditRecord

/-! ### Times -/

def microsecondsPerDay : Int := 86400000000

/-- The day of a time in UTC. -/
def utcDate (t : Int) : Except EvaluatorError Date :=
  if h : 0 ≤ t / microsecondsPerDay ∧ t / microsecondsPerDay < maxOrdinal then
    .ok ⟨(t / microsecondsPerDay).toNat + 1, by omega, by omega⟩
  else .error .overflowError

/-- The time at which a day starts in UTC. -/
def anchorDatetime (due : Date) : Int := (due.ordinal - 1) * microsecondsPerDay

theorem utcDate_anchorDatetime (due : Date) : utcDate (anchorDatetime due) = .ok due := by
  have hpos := due.pos
  have hle := due.le
  have hday : anchorDatetime due / microsecondsPerDay = due.ordinal - 1 :=
    Int.mul_ediv_cancel _ (by decide)
  have hin : 0 ≤ anchorDatetime due / microsecondsPerDay ∧
      anchorDatetime due / microsecondsPerDay < maxOrdinal := by
    omega
  rw [utcDate, dif_pos hin]
  apply congrArg
  apply Date.ext
  dsimp only
  omega

/-! ### Operations -/

/-- The order in which series are claimed. -/
def TodoSeriesRecord.Before (a b : TodoSeriesRecord) : Prop :=
  a.tenantId < b.tenantId ∨ a.tenantId = b.tenantId ∧ a.id ≤ b.id

instance : DecidableRel TodoSeriesRecord.Before :=
  fun _ _ => inferInstanceAs (Decidable (_ ∨ _ ∧ _))

namespace TodosStore
variable (s : TodosStore)

/-- The series that have not ended. -/
def claimDueSeries (now : Int) : List TodoSeriesRecord :=
  (s.series.rows.filter fun r => r.endsAt.all (now < ·)).insertionSort TodoSeriesRecord.Before

def findTodoBySeriesDue (tenantId seriesId due : String) : Option TodoRecord :=
  s.todos.rows.find? fun t =>
    t.tenantId = tenantId && t.deletedAt.isNone && t.seriesId = some seriesId && t.due = some due

def updateSeriesLastMaterialized (seriesId : String) (lastMaterializedDue : Int) :
    Option TodoSeriesRecord × TodosStore :=
  match s.series.find? seriesId with
  | none => (none, s)
  | some existing =>
      let updated := { existing with lastMaterializedDue := some lastMaterializedDue }
      (some updated, { s with series := s.series.put updated })

def insertTodo (record : TodoRecord) : TodosStore := { s with todos := s.todos.put record }

def appendAudit (record : TodoAuditRecord) : TodosStore :=
  { s with audits := s.audits ++ [record] }

end TodosStore

inductive TodoOp : Type
  | claimDueSeries (now : Int)
  | findTodoBySeriesDue (tenantId seriesId due : String)
  | updateSeriesLastMaterialized (seriesId : String) (lastMaterializedDue : Int)
  /-- The writes of one transaction: a todo, the day it was made for, and an audit row. -/
  | materialize (record : String → TodoRecord) (seriesId : String) (lastMaterializedDue : Int)
      (audit : TodoRecord → TodoAuditRecord)

@[reducible] def TodoOp.Reply : TodoOp → Type
  | claimDueSeries _ => List TodoSeriesRecord
  | findTodoBySeriesDue _ _ _ => Option TodoRecord
  | updateSeriesLastMaterialized _ _ => Option TodoSeriesRecord
  | materialize _ _ _ _ => TodoRecord

namespace TodosStore

/-- What an operation gives and does, with the id that is drawn for it. -/
def answer (id : String) : (op : TodoOp) → TodosStore → op.Reply × TodosStore
  | .claimDueSeries now, s => (s.claimDueSeries now, s)
  | .findTodoBySeriesDue tenantId seriesId due, s =>
      (s.findTodoBySeriesDue tenantId seriesId due, s)
  | .updateSeriesLastMaterialized seriesId due, s => s.updateSeriesLastMaterialized seriesId due
  | .materialize record seriesId due audit, s =>
      let stored := record id
      let s := ((s.insertTodo stored).updateSeriesLastMaterialized seriesId due).2
      (stored, s.appendAudit (audit stored))

/-- Which reply an operation may get, and what it leaves behind: a drawn id is new. -/
def env (op : TodoOp) (s : TodosStore) (reply : op.Reply) (s' : TodosStore) : Prop :=
  ∃ id, s.todos.find? id = none ∧ (reply, s') = answer id op s

def atOnce (op : TodoOp) (s : TodosStore) : op.Reply × TodosStore := answer s.todos.newKey op s

theorem atOnce_sound (op : TodoOp) (s : TodosStore) : env op s (atOnce op s).1 (atOnce op s).2 :=
  ⟨s.todos.newKey, s.todos.find?_newKey, rfl⟩

end TodosStore

end CopilotRuntime.Todos

/-!
# Todos of due series

Each tick makes one todo at most for every series.
-/

namespace CopilotRuntime.Todos

open Foundation

structure MaterializeOutcome where
  materialized : Nat := 0
  skippedDuplicates : Nat := 0
  seriesProcessed : Nat := 0

abbrev TodoProgram := Program TodoOp TodoOp.Reply EvaluatorError

def perform (op : TodoOp) : TodoProgram op.Reply := Program.request op

/-- The day that a series goes on from. -/
def seriesAnchorDate (series : TodoSeriesRecord) : Except EvaluatorError Date :=
  utcDate (series.lastMaterializedDue.getD series.startedAt)

def materializedTodoText (series : TodoSeriesRecord) : String :=
  "Recurring task (" ++ series.rule ++ ")"

def materializedTodo (series : TodoSeriesRecord) (due id : String) : TodoRecord where
  id := id
  tenantId := series.tenantId
  ownerUserId := series.ownerUserId
  text := materializedTodoText series
  due := some due
  source := .obj [("kind", .str "recurrence"), ("series_id", .str series.id)]
  recurrence := some (.obj [("rule", .str series.rule), ("spec", .str series.spec),
    ("series_id", .str series.id)])
  seriesId := some series.id

def materializeAudit (series : TodoSeriesRecord) (stored : TodoRecord) : TodoAuditRecord where
  tenantId := series.tenantId
  actorUserId := series.ownerUserId
  action := "todo.materialize"
  targetId := stored.id
  afterState := stored

variable (library : RuleLibrary)

/-- The day for which a series is due, if there is one: a rule that makes no sense has none. -/
def dueDay (now : Int) (series : TodoSeriesRecord) : Except EvaluatorError (Option Date) := do
  let anchor ← seriesAnchorDate series
  match nextDue library series.rule series.spec anchor with
  | .error (.recurrenceRuleError _) => return none
  | .error .overflowError => .error .overflowError
  | .ok due => do
      let today ← utcDate now
      return if today.ordinal < due.ordinal then none else some due

def materializeSeries (now : Int) (series : TodoSeriesRecord) (outcome : MaterializeOutcome) :
    TodoProgram MaterializeOutcome := do
  let outcome := { outcome with seriesProcessed := outcome.seriesProcessed + 1 }
  let due ← Program.ofExcept (dueDay library now series)
  match due with
  | none => return outcome
  | some due => do
      let existing ← perform
        (.findTodoBySeriesDue series.tenantId series.id due.isoformat)
      match existing with
      | some _ => do
          let _ ← perform (.updateSeriesLastMaterialized series.id (anchorDatetime due))
          return { outcome with skippedDuplicates := outcome.skippedDuplicates + 1 }
      | none => do
          let _ ← perform (.materialize (materializedTodo series due.isoformat) series.id
            (anchorDatetime due) (materializeAudit series))
          return { outcome with materialized := outcome.materialized + 1 }

def materializeAll (now : Int) :
    List TodoSeriesRecord → MaterializeOutcome → TodoProgram MaterializeOutcome
  | [], outcome => return outcome
  | series :: rest, outcome => do
      let outcome ← materializeSeries library now series outcome
      materializeAll now rest outcome

/-- One tick. -/
def materializeDueSeries (now : Int) : TodoProgram MaterializeOutcome := do
  let claimed ← perform (.claimDueSeries now)
  materializeAll library now claimed {}

end CopilotRuntime.Todos
