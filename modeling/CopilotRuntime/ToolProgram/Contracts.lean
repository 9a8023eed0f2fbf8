import Mathlib.Algebra.GroupWithZero.Nat
import Mathlib.Data.List.Sort
import CopilotRuntime.Foundation.Outcome

/-!
# Tool programs

The plan a model submits, the references inside its arguments, the outcomes of its
steps and the errors that stop it.

## Implementation notes

A floating-point number is kept as the text it is written as: no operation on a plan
computes with it. The members of a mapping are listed in their order, and a member is
read by its first occurrence.
-/

namespace CopilotRuntime.ToolProgram

inductive JsonValue : Type
  | null
  | bool (value : Bool)
  | int (value : Int)
  | float (text : String)
  | str (value : String)
  | list (items : List JsonValue)
  | dict (fields : List (String × JsonValue))

/-- What the interpreter decides: how it quotes a text, and in which order it walks the
set of the listed texts. -/
structure Interpreter where
  repr : String → String
  walk : List String → List String
  nodup_walk (texts : List String) : (walk texts).Nodup
  mem_walk (texts : List String) (text : String) : text ∈ walk texts ↔ text ∈ texts

namespace Interpreter
variable (interp : Interpreter)

def reprList (texts : List String) : String := "[" ++ ", ".intercalate (texts.map interp.repr) ++ "]"

end Interpreter

def sorted (texts : List String) : List String := texts.insertionSort (· ≤ ·)

inductive ToolProgramErrorCode
  | invalidPlan
  | unknownTool
  | unknownStepReference
  | cyclicDependency
  | stepLimitExceeded
  | referenceUnresolved
  | stepDenied
  | stepFailed
  | stepRequiresApproval
  | wallClockExceeded
  | payloadLimitExceeded
  deriving DecidableEq

inductive StepStatus
  | completed
  | denied
  | failed
  | requiresApproval
  | notRun
  deriving DecidableEq

structure ToolProgramError where
  code : ToolProgramErrorCode
  safeMessage : String
  stepId : Option String := none

/-- The exceptions that nothing in the executor catches. -/
inductive Uncaught
  | validationError
  | typeError
  | valueError
  deriving DecidableEq

/-- What a computation raises: the typed error that becomes a result, or another exception. -/
inductive Raised
  | toolProgram (error : ToolProgramError)
  | uncaught (exception : Uncaught)

namespace Raised

def isTyped : Raised → Bool
  | toolProgram _ => true
  | _ => false

end Raised

/-! ### References -/

inductive Segment
  | key (name : String)
  | index (position : Int)
  deriving DecidableEq

structure StepRef where
  step : String
  path : List Segment
  step_bounds : 1 ≤ step.length ∧ step.length ≤ 64

namespace StepRef

def fromKey : String := "$from"

def pathKey : String := "path"

/-- The members of a reference marker. -/
def marker : JsonValue → Option (List (String × JsonValue))
  | .dict fields => if (fields.lookup fromKey).isSome then some fields else none
  | _ => none

def unknownKeys (fields : List (String × JsonValue)) : List String :=
  (fields.map Prod.fst).filter fun key => key ≠ fromKey && key ≠ pathKey

def parseSegment (target : String) : JsonValue → Except Raised Segment
  | .str name => .ok (.key name)
  | .int position => .ok (.index position)
  | _ => .error (.toolProgram
      { code := .invalidPlan
        safeMessage := "'path' segments must be strings or integers"
        stepId := some target })

def parsePath (target : String) : Option JsonValue → Except Raised (List Segment)
  | none => .ok []
  | some (.list items) => items.mapM (parseSegment target)
  | some _ => .error (.toolProgram
      { code := .invalidPlan
        safeMessage := "'path' must be a list of keys and indexes"
        stepId := some target })

/-- The record is validated last, and its own error is not a typed one. -/
def build (step : String) (path : List Segment) : Except Raised StepRef :=
  if h : 1 ≤ step.length ∧ step.length ≤ 64 then .ok ⟨step, path, h⟩ else .error (.uncaught .validationError)

def parse (interp : Interpreter) (fields : List (String × JsonValue)) : Except Raised StepRef :=
  if unknownKeys fields = [] then
    match fields.lookup fromKey with
    | some (.str target) =>
        if target = "" then
          .error (.toolProgram { code := .invalidPlan, safeMessage := "'$from' must name a step id" })
        else do
          let path ← parsePath target (fields.lookup pathKey)
          build target path
    | _ => .error (.toolProgram
        { code := .invalidPlan, safeMessage := "'$from' must name a step id" })
  else
    .error (.toolProgram
      { code := .invalidPlan
        safeMessage := "a step reference accepts only '$from' and 'path'; got " ++
          interp.reprList (sorted (unknownKeys fields)) })

end StepRef

/-! ### Plans and limits -/

def isStepIdChar (c : Char) : Bool := c.isAlphanum || c = '_' || c = '.' || c = '-'

structure ToolProgramStep where
  id : String
  tool : String
  arguments : List (String × JsonValue) := []
  dependsOn : List String := []
  id_bounds : 1 ≤ id.length ∧ id.length ≤ 64 := by decide
  id_chars : id.toList.all isStepIdChar = true := by decide
  tool_bounds : 1 ≤ tool.length ∧ tool.length ≤ 256 := by decide

structure RunToolProgramInput where
  steps : List ToolProgramStep
  result : JsonValue := .null

structure ToolProgramLimits where
  maxSteps : Nat
  maxConcurrency : Nat
  wallClockMs : Nat
  maxTotalOutputBytes : Nat
  maxResultBytes : Nat
  maxSteps_pos : 0 < maxSteps := by decide
  maxConcurrency_pos : 0 < maxConcurrency := by decide
  wallClockMs_pos : 0 < wallClockMs := by decide
  maxTotalOutputBytes_pos : 0 < maxTotalOutputBytes := by decide
  maxResultBytes_pos : 0 < maxResultBytes := by decide

/-! ### Outcomes -/

structure StepOutcome where
  stepId : String
  tool : String
  status : StepStatus
  errorCode : Option ToolProgramErrorCode := none
  safeMessage : Option String := none

inductive ProgramStatus
  | completed
  | failed
  deriving DecidableEq

structure ToolProgramResult where
  status : ProgramStatus
  result : JsonValue := .null
  steps : List StepOutcome := []
  failedStep : Option String := none
  errorCode : Option ToolProgramErrorCode := none
  safeMessage : Option String := none

namespace ToolProgramResult

def failure (error : ToolProgramError) (steps : List StepOutcome) : ToolProgramResult where
  status := .failed
  steps := steps
  failedStep := error.stepId
  errorCode := some error.code
  safeMessage := some error.safeMessage

end ToolProgramResult

inductive StepDispatchStatus
  | completed
  | refused
  | failed
  deriving DecidableEq

structure StepDispatchOutcome where
  status : StepDispatchStatus
  output : JsonValue := .null
  safeMessage : Option String := none

/-! ### Sizes -/

/-- How many bytes one character takes in a written text, where every character that is
not printable ASCII is escaped by the units it has in UTF-16. -/
def escapedSize (c : Char) : Nat :=
  if c = '"' || c = '\\' || c = '\n' || c = '\r' || c = '\t' || c.toNat = 8 || c.toNat = 12 then 2
  else if 32 ≤ c.toNat && c.toNat ≤ 126 then 1
  else if c.toNat < 65536 then 6
  else 12

def quotedSize (text : String) : Nat := 2 + (text.toList.map escapedSize).sum

namespace JsonValue

mutual

/-- The bytes of a value written with the default blanks. -/
def size : JsonValue → Nat
  | null => 4
  | bool true => 4
  | bool false => 5
  | int n => (toString n).length
  | float text => text.length
  | str text => quotedSize text
  | list items => 2 + itemsSize items
  | dict fields => 2 + fieldsSize fields

def itemsSize : List JsonValue → Nat
  | [] => 0
  | [item] => size item
  | item :: rest => size item + 2 + itemsSize rest

def fieldsSize : List (String × JsonValue) → Nat
  | [] => 0
  | [(name, value)] => quotedSize name + 2 + size value
  | (name, value) :: rest => quotedSize name + 2 + size value + 2 + fieldsSize rest

end

/-! ### Mappings from values -/

/-- The items of a value that can be walked. -/
def iterate : JsonValue → Except Uncaught (List JsonValue)
  | list items => .ok items
  | dict fields => .ok (fields.map fun field => str field.1)
  | str text => .ok (text.toList.map fun c => str (String.singleton c))
  | _ => .error .typeError

def isHashable : JsonValue → Bool
  | list _ => false
  | dict _ => false
  | _ => true

/-- A key and its value, from an item that has two items of its own. -/
def pairOf (item : JsonValue) : Except Uncaught (JsonValue × JsonValue) := do
  match ← iterate item with
  | [key, value] => if key.isHashable then pure (key, value) else throw .typeError
  | _ => throw .valueError

/-- The keys and values that a mapping made of a value is given, in their order. -/
def dictOf : JsonValue → Except Uncaught (List (JsonValue × JsonValue))
  | dict fields => .ok (fields.map fun field => (str field.1, field.2))
  | other => do (← iterate other).mapM pairOf

end JsonValue

end CopilotRuntime.ToolProgram
