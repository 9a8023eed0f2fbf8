import CopilotRuntime.ToolProgram.Plan

/-!
# Executing a plan

A program between two moments at which something happens to it: the clock is read, a
task takes its turn, the dispatcher answers, the time for a layer runs out, all tasks of
a layer are done. The clock reads anything, the dispatcher answers when and what it
likes, and the time for a layer may run out at any moment.

## Implementation notes

The tasks of a layer take their turns in order, as many at a time as the semaphore lets
through. A turn resolves the arguments of its step and hands them to the dispatcher.
-/

namespace CopilotRuntime.ToolProgram

/-- What a task leaves: the dispatcher's answer, or why it did not ask. -/
inductive StepAttempt
  | error (error : ToolProgramError)
  | requiresApproval
  | outcome (outcome : StepDispatchOutcome)

inductive TaskState
  | waiting
  | dispatched
  | settled (attempt : StepAttempt)
  | crashed (exception : Uncaught)

namespace TaskState

def isWaiting : TaskState → Bool
  | waiting => true
  | _ => false

def isDispatched : TaskState → Bool
  | dispatched => true
  | _ => false

def isDone : TaskState → Bool
  | settled _ => true
  | crashed _ => true
  | _ => false

/-- The dispatcher was given the step of the task. -/
def wasHanded : TaskState → Bool
  | dispatched => true
  | settled .requiresApproval => true
  | settled (.outcome _) => true
  | _ => false

/-- The task settled, and not with a completed step. -/
def isBlocked : TaskState → Bool
  | settled (.outcome outcome) => outcome.status ≠ .completed
  | settled _ => true
  | _ => false

def isCrashed : TaskState → Bool
  | crashed _ => true
  | _ => false

end TaskState

/-- A call the dispatcher was given. -/
structure Call where
  stepId : String
  toolName : String
  arguments : List (JsonValue × JsonValue)

abbrev Task := ToolProgramStep × TaskState

inductive Ending
  | returned (result : ToolProgramResult)
  | raised (exception : Uncaught)

inductive Phase
  | starting
  | between (deadline : Rat) (pending : List (List ToolProgramStep))
  | layer (deadline : Rat) (tasks : List Task) (pending : List (List ToolProgramStep))
  | ended (ending : Ending)

structure Execution where
  phase : Phase := .starting
  outputs : List (String × JsonValue) := []
  outcomes : List StepOutcome := []
  calls : List Call := []

inductive Event
  | clockRead (now : Rat)
  | attempted (stepId : String)
  | answered (stepId : String) (outcome : StepDispatchOutcome)
  | interrupted (stepId : String)
  | timedOut
  | gathered
  | projected

namespace ToolProgramExecutor

/-! ### Settling -/

def blocked (stepId : String) (outcome : StepDispatchOutcome) : ToolProgramError :=
  let failed := outcome.status = .failed
  let reason := match outcome.safeMessage with
    | some message => if message = "" then "no reason" else message
    | none => "no reason"
  { code := if failed then .stepFailed else .stepDenied
    safeMessage := "step '" ++ stepId ++ "' " ++
      (if failed then "failed" else "was not permitted") ++ ": " ++ reason
    stepId := some stepId }

def approvalRequired (step : ToolProgramStep) : ToolProgramError where
  code := .stepRequiresApproval
  safeMessage := "step '" ++ step.id ++ "' needs human approval, which a program cannot carry; call '" ++
    step.tool ++ "' directly to review it"
  stepId := some step.id

def expired (stepId : String) : ToolProgramError where
  code := .wallClockExceeded
  safeMessage := "the program ran out of time before step '" ++ stepId ++ "' settled"
  stepId := some stepId

/-- The output of a completed step, or the status of another one and its error. -/
def settle (step : ToolProgramStep) : StepAttempt → Except (StepStatus × ToolProgramError) JsonValue
  | .error error => .error (.failed, error)
  | .requiresApproval => .error (.requiresApproval, approvalRequired step)
  | .outcome outcome =>
      if outcome.status = .completed then .ok outcome.output
      else .error (if outcome.status = .failed then .failed else .denied, blocked step.id outcome)

def completedOutcome (step : ToolProgramStep) : StepOutcome where
  stepId := step.id
  tool := step.tool
  status := .completed

def recordOutcome (step : ToolProgramStep) (status : StepStatus) (error : ToolProgramError) :
    StepOutcome where
  stepId := step.id
  tool := step.tool
  status := status
  errorCode := some error.code
  safeMessage := some error.safeMessage

/-- Settle the attempts of a layer one by one, up to the first that did not complete. -/
def settleAll (s : Execution) :
    List (ToolProgramStep × StepAttempt) → Execution × Option ToolProgramError
  | [] => (s, none)
  | (step, attempt) :: rest =>
      match settle step attempt with
      | .ok output =>
          settleAll { s with
            outputs := s.outputs ++ [(step.id, output)]
            outcomes := s.outcomes ++ [completedOutcome step] } rest
      | .error (status, error) =>
          ({ s with outcomes := s.outcomes ++ [recordOutcome step status error] }, some error)

def totalSize (outputs : List (String × JsonValue)) : Nat :=
  (outputs.map fun output => output.2.size).sum

def totalExceeded (limits : ToolProgramLimits) : ToolProgramError where
  code := .payloadLimitExceeded
  safeMessage := "the program's step outputs exceed " ++ toString limits.maxTotalOutputBytes ++
    " bytes in total; split it into smaller programs"

def resultExceeded (limits : ToolProgramLimits) : ToolProgramError where
  code := .payloadLimitExceeded
  safeMessage := "the result projection is larger than " ++ toString limits.maxResultBytes ++
    " bytes; narrow it with a reference path"

/-! ### Results -/

/-- The steps that no outcome names yet, as not run. -/
def markNotRun (steps : List ToolProgramStep) (outcomes : List StepOutcome) : List StepOutcome :=
  outcomes ++ (steps.filter fun step => step.id ∉ outcomes.map (·.stepId)).map fun step =>
    { stepId := step.id, tool := step.tool, status := .notRun }

section Steps
variable (interp : Interpreter) (limits : ToolProgramLimits) (plan : ToolProgramPlan)

def fail (s : Execution) (error : ToolProgramError) : Execution :=
  { s with phase := .ended (.returned (.failure error (markNotRun plan.steps s.outcomes))) }

/-- A typed error becomes a result; any other exception leaves the executor. -/
def raise (s : Execution) : Raised → Execution
  | .toolProgram error => fail plan s error
  | .uncaught exception => { s with phase := .ended (.raised exception) }

/-- Project the outputs of all steps. -/
def project (s : Execution) : Execution :=
  match ReferenceWalker.resolve interp s.outputs none plan.projection with
  | .error raised => raise plan s raised
  | .ok projection =>
      if limits.maxResultBytes < projection.size then fail plan s (resultExceeded limits)
      else
        { s with phase := .ended (.returned
            { status := .completed, result := projection, steps := s.outcomes }) }

/-! ### Tasks -/

def setTask (stepId : String) (state : TaskState) (tasks : List Task) : List Task :=
  tasks.map fun task => if task.1.id = stepId then (task.1, state) else task

/-- A task's turn, up to the call of the dispatcher. -/
def turn (outputs : List (String × JsonValue)) (step : ToolProgramStep) :
    Except TaskState Call :=
  match ReferenceWalker.resolve interp outputs (some step.id) (.dict step.arguments) with
  | .error (.toolProgram error) => .error (.settled (.error error))
  | .error (.uncaught exception) => .error (.crashed exception)
  | .ok value =>
      match value.dictOf with
      | .error exception => .error (.crashed exception)
      | .ok arguments => .ok { stepId := step.id, toolName := step.tool, arguments := arguments }

/-- The task whose turn it is: the first that waits, while the semaphore has room. -/
def nextTask (tasks : List Task) : Option ToolProgramStep :=
  if (tasks.filter (·.2.isDispatched)).length < limits.maxConcurrency then
    (tasks.find? (·.2.isWaiting)).map Prod.fst
  else none

def attemptOf : Task → Option (ToolProgramStep × StepAttempt)
  | (step, .settled attempt) => some (step, attempt)
  | _ => none

def crashOf : Task → Option Uncaught
  | (_, .crashed exception) => some exception
  | _ => none

/-- Every task of a layer is done: raise what a task raised, or settle the attempts. -/
def gather (s : Execution) (deadline : Rat) (tasks : List Task)
    (pending : List (List ToolProgramStep)) : Execution :=
  match tasks.findSome? crashOf with
  | some exception => { s with phase := .ended (.raised exception) }
  | none =>
      match settleAll s (tasks.filterMap attemptOf) with
      | (s', some error) => fail plan s' error
      | (s', none) =>
          if limits.maxTotalOutputBytes < totalSize s'.outputs then
            fail plan s' (totalExceeded limits)
          else { s' with phase := .between deadline pending }

def answer (s : Execution) (deadline : Rat) (tasks : List Task)
    (pending : List (List ToolProgramStep)) (stepId : String) (attempt : StepAttempt) :
    Option Execution :=
  if tasks.any fun task => task.1.id = stepId && task.2.isDispatched then
    some { s with phase := .layer deadline (setTask stepId (.settled attempt) tasks) pending }
  else none

/-- What happens to a program at one event, when it can happen. -/
def step (s : Execution) (e : Event) : Option Execution :=
  match s.phase, e with
  | .starting, .clockRead now =>
      some { s with phase := .between (now + (limits.wallClockMs : Rat) / 1000) plan.layers }
  | .between deadline (layer :: pending), .clockRead now =>
      if deadline - now ≤ 0 then some (fail plan s (expired ((layer.map (·.id)).headD "")))
      else some { s with phase := .layer deadline (layer.map fun step => (step, .waiting)) pending }
  | .between _ [], .projected => some (project interp limits plan s)
  | .layer deadline tasks pending, .attempted stepId =>
      match nextTask limits tasks with
      | some step =>
          if step.id = stepId then
            match turn interp s.outputs step with
            | .error state =>
                some { s with phase := .layer deadline (setTask stepId state tasks) pending }
            | .ok call =>
                some { s with
                  phase := .layer deadline (setTask stepId .dispatched tasks) pending
                  calls := s.calls ++ [call] }
          else none
      | none => none
  | .layer deadline tasks pending, .answered stepId outcome =>
      answer s deadline tasks pending stepId (.outcome outcome)
  | .layer deadline tasks pending, .interrupted stepId =>
      answer s deadline tasks pending stepId .requiresApproval
  | .layer _ tasks _, .timedOut =>
      some (fail plan s (expired ((tasks.map (·.1.id)).headD "")))
  | .layer deadline tasks pending, .gathered =>
      if tasks.all (·.2.isDone) then some (gather limits plan s deadline tasks pending) else none
  | _, _ => none

end Steps

end ToolProgramExecutor

/-! ### Runs -/

/-- What compiling an unfit program ends with. -/
def declined : Raised → Execution
  | .toolProgram error => { phase := .ended (.returned (.failure error [])) }
  | .uncaught exception => { phase := .ended (.raised exception) }

/-- The events of a program and what they have led to. -/
inductive Run (interp : Interpreter) (authorizedToolNames : List String)
    (limits : ToolProgramLimits) (program : RunToolProgramInput) : List Event → Execution → Prop
  | refused {raised : Raised}
      (h : ToolProgramPlan.compile interp authorizedToolNames limits program = .error raised) :
      Run interp authorizedToolNames limits program [] (declined raised)
  | compiled {plan : ToolProgramPlan}
      (h : ToolProgramPlan.compile interp authorizedToolNames limits program = .ok plan) :
      Run interp authorizedToolNames limits program [] {}
  | step {plan : ToolProgramPlan} {events : List Event} {s s' : Execution} {e : Event}
      (h : ToolProgramPlan.compile interp authorizedToolNames limits program = .ok plan)
      (hrun : Run interp authorizedToolNames limits program events s)
      (hstep : ToolProgramExecutor.step interp limits plan s e = some s') :
      Run interp authorizedToolNames limits program (events ++ [e]) s'

end CopilotRuntime.ToolProgram
