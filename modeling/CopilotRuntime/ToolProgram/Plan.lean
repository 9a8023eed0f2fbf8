import CopilotRuntime.Foundation.Layering
import CopilotRuntime.ToolProgram.Contracts

/-!
# Compiling a plan

What can be decided before a tool runs: the number of steps, repeated ids, the tools,
the targets of references and the layers that may run together.
-/

namespace CopilotRuntime.ToolProgram

open Foundation

variable (interp : Interpreter)

/-! ### Walking references -/

namespace ReferenceWalker

mutual

/-- The steps that the markers inside a value name. -/
def targets : JsonValue → Except Raised (List String)
  | .dict fields =>
      match StepRef.marker (.dict fields) with
      | some members => do
          let ref ← StepRef.parse interp members
          pure [ref.step]
      | none => targetsFields fields
  | .list items => targetsItems items
  | _ => .ok []

def targetsItems : List JsonValue → Except Raised (List String)
  | [] => .ok []
  | item :: rest => do
      let first ← targets item
      let others ← targetsItems rest
      pure (first ++ others)

def targetsFields : List (String × JsonValue) → Except Raised (List String)
  | [] => .ok []
  | (_, value) :: rest => do
      let first ← targets value
      let others ← targetsFields rest
      pure (first ++ others)

end

def reprSegment : Segment → String
  | .key name => interp.repr name
  | .index position => toString position

/-- The step blamed for a reference: the one that holds it, or else the one it names. -/
def blamed (owner : Option String) (ref : StepRef) : String :=
  match owner with
  | some id => if id = "" then ref.step else id
  | none => ref.step

/-- An item of a list, where a negative position counts from the end. -/
def itemAt (items : List JsonValue) (position : Int) : Option JsonValue :=
  if -(items.length : Int) ≤ position ∧ position < items.length then
    items[(if position < 0 then position + items.length else position).toNat]?
  else none

def child : JsonValue → Segment → Option JsonValue
  | .dict fields, .key name => fields.lookup name
  | .list items, .index position => itemAt items position
  | _, _ => none

def descend (ref : StepRef) (owner : Option String) (depth : Nat) (current : JsonValue)
    (segment : Segment) : Except Raised JsonValue :=
  match child current segment with
  | some value => .ok value
  | none => .error (.toolProgram
      { code := .referenceUnresolved
        safeMessage := "reference to step '" ++ ref.step ++ "' does not resolve at path position " ++
          toString depth ++ " (" ++ reprSegment interp segment ++ ")"
        stepId := some (blamed owner ref) })

def descendAll (ref : StepRef) (owner : Option String) :
    Nat → JsonValue → List Segment → Except Raised JsonValue
  | _, current, [] => .ok current
  | depth, current, segment :: rest => do
      let next ← descend interp ref owner depth current segment
      descendAll ref owner (depth + 1) next rest

section Resolve
variable (outputs : List (String × JsonValue)) (owner : Option String)

def dereference (ref : StepRef) : Except Raised JsonValue :=
  match outputs.lookup ref.step with
  | some output => descendAll interp ref owner 0 output ref.path
  | none => .error (.toolProgram
      { code := .referenceUnresolved
        safeMessage := "step '" ++ ref.step ++ "' produced no output to reference"
        stepId := some (blamed owner ref) })

mutual

/-- A value with every marker replaced by the output it refers to. -/
def resolve : JsonValue → Except Raised JsonValue
  | .dict fields =>
      match StepRef.marker (.dict fields) with
      | some members => do
          let ref ← StepRef.parse interp members
          dereference interp outputs owner ref
      | none => do
          let resolved ← resolveFields fields
          pure (.dict resolved)
  | .list items => do
      let resolved ← resolveItems items
      pure (.list resolved)
  | value => .ok value

def resolveItems : List JsonValue → Except Raised (List JsonValue)
  | [] => .ok []
  | item :: rest => do
      let first ← resolve item
      let others ← resolveItems rest
      pure (first :: others)

def resolveFields : List (String × JsonValue) → Except Raised (List (String × JsonValue))
  | [] => .ok []
  | (key, value) :: rest => do
      let first ← resolve value
      let others ← resolveFields rest
      pure ((key, first) :: others)

end

end Resolve

end ReferenceWalker

/-! ### Plans -/

/-- The steps in the order they were submitted, and the layers they run in. -/
structure ToolProgramPlan where
  steps : List ToolProgramStep
  layers : List (List ToolProgramStep)
  projection : JsonValue

namespace ToolProgramPlan

/-- The first step whose id an earlier one has. -/
def duplicate (seen : List String) : List ToolProgramStep → Option ToolProgramStep
  | [] => none
  | step :: rest => if step.id ∈ seen then some step else duplicate (step.id :: seen) rest

def indexed (limits : ToolProgramLimits) (steps : List ToolProgramStep) :
    Except Raised (List ToolProgramStep) :=
  if steps = [] then
    .error (.toolProgram
      { code := .invalidPlan, safeMessage := "a program needs at least one step" })
  else if limits.maxSteps < steps.length then
    .error (.toolProgram
      { code := .stepLimitExceeded
        safeMessage := "a program may contain at most " ++ toString limits.maxSteps ++
          " steps; got " ++ toString steps.length })
  else
    match duplicate [] steps with
    | some step => .error (.toolProgram
        { code := .invalidPlan
          safeMessage := "duplicate step id '" ++ step.id ++ "'"
          stepId := some step.id })
    | none => .ok steps

def authorize (authorizedToolNames : List String) (steps : List ToolProgramStep) :
    Except Raised Unit :=
  match steps.find? fun step => step.tool ∉ authorizedToolNames with
  | some step => .error (.toolProgram
      { code := .unknownTool
        safeMessage := "step '" ++ step.id ++ "' names a tool this run cannot call"
        stepId := some step.id })
  | none => .ok ()

/-- The steps that one step waits for. -/
def edgesOf (ids : List String) (step : ToolProgramStep) :
    Except Raised (ToolProgramStep × List String) := do
  let named ← ReferenceWalker.targets interp (.dict step.arguments)
  let targets := interp.walk (step.dependsOn ++ named)
  match targets.find? fun target => target ∉ ids ∨ target = step.id with
  | some target =>
      if target ∉ ids then
        throw (.toolProgram
          { code := .unknownStepReference
            safeMessage := "step '" ++ step.id ++ "' references unknown step '" ++ target ++ "'"
            stepId := some step.id })
      else
        throw (.toolProgram
          { code := .cyclicDependency
            safeMessage := "step '" ++ step.id ++ "' references itself"
            stepId := some step.id })
  | none => pure (step, targets)

def edges (steps : List ToolProgramStep) (projection : JsonValue) :
    Except Raised (List (ToolProgramStep × List String)) := do
  let ids := steps.map (·.id)
  let waits ← steps.mapM (edgesOf interp ids)
  let projected ← ReferenceWalker.targets interp projection
  match sorted (projected.filter fun target => target ∉ ids) with
  | target :: _ =>
      throw (.toolProgram
        { code := .unknownStepReference
          safeMessage := "the result projection references unknown step '" ++ target ++ "'" })
  | [] => pure waits

/-- Steps by their ids. -/
def byId (waits : List (ToolProgramStep × List String)) : List (ToolProgramStep × List String) :=
  waits.insertionSort fun a b => a.1.id ≤ b.1.id

def layered (waits : List (ToolProgramStep × List String)) :
    Except Raised (List (List ToolProgramStep)) :=
  match layering (fun wait => wait.1.id) Prod.snd byId waits.length [] waits with
  | .ok layers => .ok (layers.map (·.map Prod.fst))
  | .error stuck => .error (.toolProgram
      { code := .cyclicDependency
        safeMessage := "the program's steps form a dependency cycle: " ++
          interp.reprList (sorted (stuck.map (·.1.id)))
        stepId := (sorted (stuck.map (·.1.id))).head? })

def compile (authorizedToolNames : List String) (limits : ToolProgramLimits)
    (program : RunToolProgramInput) : Except Raised ToolProgramPlan := do
  let steps ← indexed limits program.steps
  authorize authorizedToolNames steps
  let waits ← edges interp steps program.result
  let layers ← layered interp waits
  pure { steps := steps, layers := layers, projection := program.result }

end ToolProgramPlan

end CopilotRuntime.ToolProgram
