import CopilotRuntime.Foundation.Dict
import Mathlib.Data.List.Sort
import Mathlib.Data.Prod.Lex
import Mathlib.Data.Rat.Init
import Mathlib.Algebra.Order.Ring.Rat

/-!
# The export pump of the audit tables

For each exporter and audit table the pump reads its cursor, fetches the next
rows in the order they were created, sends them, and stores the id of the last
one as the new cursor. Rejected rows are parked in the dead-letter table first.

## Implementation notes

The pump is one loop, so one batch is under way at a time; rows are inserted at
any moment of it. Ids are compared as the database compares them, in a linear
order. A batch that was exported is noted with its destination.
-/

namespace CopilotRuntime.SiemExport

open Foundation

inductive SiemExportSource
  | mcpAudit | identityAudit
  deriving DecidableEq

inductive SendOutcome
  | ok | retry | deadLetter
  deriving DecidableEq

/-- An exporter, by its name, and a table it is fed from. -/
structure Destination where
  exporterName : String
  source : SiemExportSource
  deriving DecidableEq

structure AuditRow (ι : Type) where
  id : ι
  createdAt : Nat
  deriving DecidableEq

/-- Where the batch of a destination stands. -/
inductive PumpPhase (ι : Type)
  | idle
  | sending (destination : Destination) (rows : List (AuditRow ι))
  | rejected (destination : Destination) (rows : List (AuditRow ι))
  | advancing (destination : Destination) (rows : List (AuditRow ι))

/-- The tables, what left them, and the pump. -/
structure PumpState (ι : Type) where
  tables : SiemExportSource → List (AuditRow ι)
  cursors : Dict Destination ι
  deadLetters : List (Destination × ι)
  exported : List (Destination × ι)
  backoff : Dict Destination ℚ
  phase : PumpPhase ι

/-- What happens next; a step of the pump that raises ends the batch. -/
inductive PumpEvent (ι : Type)
  | insert (source : SiemExportSource) (row : AuditRow ι)
  | visit (destination : Destination)
  | reply (outcome : SendOutcome)
  | writeDeadLetters
  | writeCursor
  | raise
  | crash

namespace PumpState
variable {ι : Type} [LinearOrder ι]

def init : PumpState ι where
  tables _ := []
  cursors := Dict.empty
  deadLetters := []
  exported := []
  backoff := Dict.empty
  phase := .idle

/-- The order of a fetch: by creation, then by id. -/
def fetchOrder (a b : AuditRow ι) : Prop := toLex (a.createdAt, a.id) ≤ toLex (b.createdAt, b.id)

instance : DecidableRel (fetchOrder (ι := ι)) := fun a b =>
  inferInstanceAs (Decidable (toLex (a.createdAt, a.id) ≤ toLex (b.createdAt, b.id)))

/-- The cursor lets the row through. -/
def isAfter (cursor : Option ι) (row : AuditRow ι) : Bool := cursor.all (· < row.id)

/-- The rows after a cursor, the first ones only; a negative limit is an error. -/
def fetchLocal (batchSize : Int) (table : List (AuditRow ι)) (cursor : Option ι) :
    Option (List (AuditRow ι)) :=
  if batchSize < 0 then none
  else some (((table.filter (isAfter cursor)).insertionSort fetchOrder).take batchSize.toNat)

variable (batchSize : Int) (backoffCap : ℚ) (s : PumpState ι)

def fetchBatch (destination : Destination) : Option (List (AuditRow ι)) :=
  fetchLocal batchSize (s.tables destination.source) (s.cursors.get? destination)

/-- The rows a table takes in: under a new id, and not created before the others. -/
def admitsRow (source : SiemExportSource) (row : AuditRow ι) : Bool :=
  (s.tables source).all fun other => other.id ≠ row.id && other.createdAt ≤ row.createdAt

def insertRow (source : SiemExportSource) (row : AuditRow ι) : PumpState ι :=
  { s with
    tables := fun other => if other = source then s.tables source ++ [row] else s.tables other }

/-- Start a batch, unless the destination still waits after a failure. -/
def visit (destination : Destination) : PumpState ι :=
  let multiplier := (s.backoff.get? destination).getD 0
  if 0 < multiplier then
    { s with backoff := s.backoff.set destination (max 0 (multiplier - 1)) }
  else
    match s.fetchBatch batchSize destination with
    | none => s
    | some [] => s
    | some rows => { s with phase := .sending destination rows }

def named (destination : Destination) (rows : List (AuditRow ι)) : List (Destination × ι) :=
  rows.map fun row => (destination, row.id)

/-- Take in the exporter's answer. -/
def classify (destination : Destination) (rows : List (AuditRow ι)) : SendOutcome → PumpState ι
  | .ok => { s with
      exported := s.exported ++ named destination rows
      backoff := s.backoff.erase destination
      phase := .advancing destination rows }
  | .deadLetter => { s with phase := .rejected destination rows }
  | .retry =>
      let prior := (s.backoff.get? destination).getD 0
      { s with
        backoff := s.backoff.set destination (min (prior * 2 + 1) backoffCap)
        phase := .idle }

/-- Store the id of the last row of a batch. -/
def storeCursor (destination : Destination) (rows : List (AuditRow ι)) : PumpState ι :=
  match rows.getLast? with
  | some last => { s with cursors := s.cursors.set destination last.id, phase := .idle }
  | none => { s with phase := .idle }

/-- One step; what cannot happen in a phase leaves the state as it is. -/
def step : PumpEvent ι → PumpState ι
  | .insert source row => if s.admitsRow source row then s.insertRow source row else s
  | .visit destination =>
      match s.phase with
      | .idle => s.visit batchSize destination
      | _ => s
  | .reply outcome =>
      match s.phase with
      | .sending destination rows => s.classify backoffCap destination rows outcome
      | _ => s
  | .writeDeadLetters =>
      match s.phase with
      | .rejected destination rows =>
          { s with
            deadLetters := s.deadLetters ++ named destination rows
            backoff := s.backoff.erase destination
            phase := .advancing destination rows }
      | _ => s
  | .writeCursor =>
      match s.phase with
      | .advancing destination rows => s.storeCursor destination rows
      | _ => s
  | .raise => { s with phase := .idle }
  | .crash => { s with phase := .idle, backoff := Dict.empty }

def after (history : List (PumpEvent ι)) : PumpState ι :=
  history.foldl (step batchSize backoffCap) init

end PumpState

end CopilotRuntime.SiemExport
