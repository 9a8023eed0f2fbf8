import CopilotRuntime.Foundation.Dict
import Mathlib.Data.Finset.Card
import Mathlib.Data.List.Sort

/-!
# Records of the tool-use controller

What the controller of one run reads and writes: the profile that bounds the
run, the intents, outcomes and model turns reported to it, and the feedback it
answers with.

## Implementation notes

Instants are numbers of microseconds. The lengths and patterns of identifiers
and fingerprints are left out: no function of the controller looks at them.
-/

namespace CopilotRuntime.TaskPolicy

open Foundation

inductive ToolUseDisposition
  | «continue» | stop | replan | askUser | blocked
  deriving DecidableEq

/-- The limits of one run and the checks its controller enforces. -/
structure TaskPolicyProfile where
  modelTurnLimit : Option Nat
  totalToolCallLimit : Option Nat
  toolCallLimits : Dict String Nat
  costLimitMicrousd : Option Nat
  wallTimeLimitSeconds : Option Nat
  enforceExactDuplicates : Bool
  enforceUnchangedErrors : Bool
  maxSourceHistory : Nat
  semanticHistoryLimit : Nat
  lowYieldStreakThreshold : Nat
  objectiveEvidenceThreshold : Option Nat

/-- The cap of a capability, its own or the one for every capability. -/
def TaskPolicyProfile.callLimitFor (profile : TaskPolicyProfile) (capabilityId : String) :
    Option Nat :=
  (profile.toolCallLimits.get? capabilityId).or (profile.toolCallLimits.get? "*")

structure ToolUseIntent where
  operationId : String
  capabilityId : String
  canonicalRequestFingerprint : String
  planStepId : Option String
  objective : Option String
  expectedEvidenceKind : Option String
  semanticFingerprint : Option String
  objectiveFingerprint : Option String
  deriving DecidableEq

structure ToolUseFeedback where
  disposition : ToolUseDisposition
  reasonCode : String
  budgetRemaining : Option Nat := none
  duplicateOfOperationId : Option String := none
  newEvidenceCount : Nat := 0

/-- A reported outcome; a failed one names its error. -/
structure ToolOperationOutcome where
  operationId : String
  capabilityId : String
  succeeded : Bool
  errorClass : Option String
  retryable : Bool
  evidenceRefs : List String
  sourceFingerprints : List String
  resultFingerprint : Option String
  evidenceFingerprint : Option String
  errorFingerprint : Option String
  costMicrousd : Nat
  error_present : succeeded = false → ∃ name, errorClass = some name ∧ name ≠ ""
  no_error_on_success : succeeded = true → errorFingerprint = none
  sources_unique : sourceFingerprints.Nodup
  deriving DecidableEq

structure TaskPolicyBudgetRecord where
  budgetId : String
  modelTurnLimit : Option Nat
  totalToolCallLimit : Option Nat
  costLimitMicrousd : Option Nat
  deadlineAt : Option Nat
  deriving DecidableEq

structure ModelTurnRecord where
  turnId : String
  costMicrousd : Nat
  deriving DecidableEq

structure ToolUseFeedbackRecord where
  decisionId : String
  operationId : Option String
  feedback : ToolUseFeedback

structure ToolPlanProgressRecord where
  progressId : String
  planId : String
  activeStepId : Option String
  completedStepIds : List String
  evidenceCount : Nat
  objectiveSatisfied : Bool

/-- What a controller is rebuilt from. -/
inductive TaskPolicyDurableRecord
  | budget (record : TaskPolicyBudgetRecord)
  | intent (record : ToolUseIntent)
  | outcome (record : ToolOperationOutcome)
  | modelTurn (record : ModelTurnRecord)
  | feedback (record : ToolUseFeedbackRecord)
  | progress (record : ToolPlanProgressRecord)

/-- The counters of a controller, without the content they count. -/
structure ToolControllerState where
  modelTurns : Nat
  toolCalls : Nat
  costMicrousd : Nat
  deadlineAt : Option Nat
  callsByCapability : List (String × Nat)
  sourceFingerprintCount : Nat
  semanticHistoryCount : Nat
  evidenceCount : Nat
  lowYieldStreak : Nat
  objectiveSatisfied : Bool

end CopilotRuntime.TaskPolicy

/-!
# The tool-use controller of a run

The controller admits operations and model turns against the limits of the
run's profile and of the one budget bound to it. It also answers whether a
request repeats an earlier one. A request that was refused leaves no trace.

## Implementation notes

A call returns its feedback or the text of the error it raises. The digest that
stands in for a missing error fingerprint is a parameter.
-/

namespace CopilotRuntime.TaskPolicy

open Foundation

structure ToolUseController where
  profile : TaskPolicyProfile
  deadlineAt : Option Nat
  intentsByOperation : Dict String ToolUseIntent
  outcomesByOperation : Dict String ToolOperationOutcome
  outcomeFeedback : Dict String ToolUseFeedback
  firstOperationByFingerprint : Dict String String
  latestOperationByFingerprint : Dict String String
  callsByCapability : Dict String Nat
  errorFingerprintToOperation : Dict String String
  sourceFingerprints : Finset String
  evidenceFingerprints : Finset String
  semanticHistory : List (String × String)
  modelTurns : Dict String ModelTurnRecord
  budgetRecord : Option TaskPolicyBudgetRecord
  feedbackRecords : Dict String ToolUseFeedbackRecord
  progressRecords : Dict String ToolPlanProgressRecord
  costMicrousd : Nat
  lowYieldStreak : Nat
  objectiveSatisfied : Bool

/-- The smaller of two limits, where a missing one does not bind. -/
def minimumLimit : Option Nat → Option Nat → Option Nat
  | some a, some b => some (min a b)
  | some a, none => some a
  | none, b => b

namespace ToolUseController

/-- The earlier of the given deadline and the end of the profile's time. -/
def effectiveDeadline (profile : TaskPolicyProfile) (deadlineAt startedAt : Option Nat) :
    Option Nat :=
  let profileDeadline :=
    match startedAt, profile.wallTimeLimitSeconds with
    | some started, some seconds => some (started + seconds * 1000000)
    | _, _ => none
  minimumLimit deadlineAt profileDeadline

/-- A controller that has seen nothing yet. -/
def init (profile : TaskPolicyProfile) (deadlineAt startedAt : Option Nat) : ToolUseController where
  profile := profile
  deadlineAt := effectiveDeadline profile deadlineAt startedAt
  intentsByOperation := Dict.empty
  outcomesByOperation := Dict.empty
  outcomeFeedback := Dict.empty
  firstOperationByFingerprint := Dict.empty
  latestOperationByFingerprint := Dict.empty
  callsByCapability := Dict.empty
  errorFingerprintToOperation := Dict.empty
  sourceFingerprints := ∅
  evidenceFingerprints := ∅
  semanticHistory := []
  modelTurns := Dict.empty
  budgetRecord := none
  feedbackRecords := Dict.empty
  progressRecords := Dict.empty
  costMicrousd := 0
  lowYieldStreak := 0
  objectiveSatisfied := false

variable (c : ToolUseController)

def state : ToolControllerState where
  modelTurns := c.modelTurns.entries.length
  toolCalls := c.intentsByOperation.entries.length
  costMicrousd := c.costMicrousd
  deadlineAt := c.deadlineAt
  callsByCapability := c.callsByCapability.entries.mergeSort fun a b => a.1 ≤ b.1
  sourceFingerprintCount := c.sourceFingerprints.card
  semanticHistoryCount := c.semanticHistory.length
  evidenceCount := (c.evidenceFingerprints ∪ c.sourceFingerprints).card
  lowYieldStreak := c.lowYieldStreak
  objectiveSatisfied := c.objectiveSatisfied

def modelTurnLimit : Option Nat :=
  minimumLimit c.profile.modelTurnLimit (c.budgetRecord.bind (·.modelTurnLimit))

def totalToolCallLimit : Option Nat :=
  minimumLimit c.profile.totalToolCallLimit (c.budgetRecord.bind (·.totalToolCallLimit))

def costLimitMicrousd : Option Nat :=
  minimumLimit c.profile.costLimitMicrousd (c.budgetRecord.bind (·.costLimitMicrousd))

/-- A value lies above a limit, when there is one. -/
def exceeds (value : Nat) (limit : Option Nat) : Bool := limit.any (value > ·)

def deadlinePassed (now : Nat) : Bool := c.deadlineAt.any (· ≤ now)

/-- The refusal of a call that no longer fits the run, in the order of the checks. -/
def hardLimitFeedback (now additionalModelTurns additionalToolCalls additionalCostMicrousd : Nat) :
    Option ToolUseFeedback :=
  if c.deadlinePassed now then
    some { disposition := .stop, reasonCode := "profile_deadline_exhausted" }
  else if exceeds (c.modelTurns.entries.length + additionalModelTurns) c.modelTurnLimit then
    some { disposition := .stop, reasonCode := "profile_model_turn_limit" }
  else if exceeds (c.intentsByOperation.entries.length + additionalToolCalls)
      c.totalToolCallLimit then
    some {
      disposition := .stop
      reasonCode := "profile_total_tool_call_limit"
      budgetRemaining := some 0 }
  else if exceeds (c.costMicrousd + additionalCostMicrousd) c.costLimitMicrousd then
    some { disposition := .stop, reasonCode := "profile_cost_limit" }
  else none

def callsFor (capabilityId : String) : Nat := (c.callsByCapability.get? capabilityId).getD 0

/-- The calls a capability has left. -/
def remaining (capabilityId : String) : Option Nat :=
  minimumLimit ((c.profile.callLimitFor capabilityId).map (· - c.callsFor capabilityId))
    (c.totalToolCallLimit.map (· - c.intentsByOperation.entries.length))

def feedbackForExisting (intent : ToolUseIntent) : ToolUseFeedback where
  disposition := .continue
  reasonCode := "operation_replayed"
  budgetRemaining := c.remaining intent.capabilityId

def duplicateFeedback (intent : ToolUseIntent) (duplicateOf : String) : ToolUseFeedback where
  disposition := if c.profile.enforceExactDuplicates then .stop else .replan
  reasonCode := "exact_duplicate"
  budgetRemaining := c.remaining intent.capabilityId
  duplicateOfOperationId := some duplicateOf

/-- The refusal of a request whose latest operation is pending, succeeded or failed for good. -/
def repeatedRequestFeedback (intent : ToolUseIntent) : Option ToolUseFeedback :=
  match c.latestOperationByFingerprint.get? intent.canonicalRequestFingerprint with
  | none => none
  | some duplicateOf =>
      match c.outcomesByOperation.get? duplicateOf with
      | none => some (c.duplicateFeedback intent duplicateOf)
      | some prior =>
          if !prior.succeeded && prior.retryable then none
          else if !prior.succeeded && c.profile.enforceUnchangedErrors then
            some {
              disposition := .stop
              reasonCode := "same_error_without_changed_input"
              budgetRemaining := c.remaining intent.capabilityId
              duplicateOfOperationId := some prior.operationId }
          else some (c.duplicateFeedback intent duplicateOf)

/-! ### What the records change -/

/-- The last entries of a history that holds at most `limit` of them. -/
def keepLast {α : Type} (limit : Nat) (history : List α) : List α :=
  history.drop (history.length - limit)

def recordIntent (intent : ToolUseIntent) : ToolUseController :=
  { c with
    intentsByOperation := c.intentsByOperation.set intent.operationId intent
    firstOperationByFingerprint :=
      match c.firstOperationByFingerprint.get? intent.canonicalRequestFingerprint with
      | some _ => c.firstOperationByFingerprint
      | none =>
          c.firstOperationByFingerprint.set intent.canonicalRequestFingerprint intent.operationId
    latestOperationByFingerprint :=
      c.latestOperationByFingerprint.set intent.canonicalRequestFingerprint intent.operationId
    callsByCapability :=
      c.callsByCapability.set intent.capabilityId (c.callsFor intent.capabilityId + 1)
    semanticHistory :=
      match intent.semanticFingerprint with
      | some fingerprint =>
          keepLast c.profile.semanticHistoryLimit
            (c.semanticHistory ++ [(intent.operationId, fingerprint)])
      | none => c.semanticHistory }

def applyIntent (intent : ToolUseIntent) : Except String ToolUseController :=
  match c.intentsByOperation.get? intent.operationId with
  | some previous =>
      if previous = intent then .ok c else .error "operation_id conflicts with durable intent"
  | none => .ok (c.recordIntent intent)

/-- Remember sources until the history is full, and count the new ones. -/
def observeSources (limit : Nat) (seen : Finset String) : List String → Finset String × Nat
  | [] => (seen, 0)
  | fingerprint :: rest =>
      if limit ≤ seen.card then (seen, 0)
      else if fingerprint ∈ seen then observeSources limit seen rest
      else
        let later := observeSources limit (insert fingerprint seen) rest
        (later.1, later.2 + 1)

/-- The sources of an outcome, or its evidence when it names no source. -/
def observedSources (outcome : ToolOperationOutcome) : List String :=
  if outcome.sourceFingerprints = [] then outcome.evidenceRefs else outcome.sourceFingerprints

/-- Take in an outcome's cost, sources and evidence, and count what is new. -/
def observeOutcome (outcome : ToolOperationOutcome) : ToolUseController × Nat × Nat :=
  let sources := observeSources c.profile.maxSourceHistory c.sourceFingerprints
    (observedSources outcome)
  let newEvidence :=
    match outcome.evidenceFingerprint with
    | some fingerprint => if fingerprint ∈ c.evidenceFingerprints then 0 else 1
    | none => 0
  ({ c with
      outcomesByOperation := c.outcomesByOperation.set outcome.operationId outcome
      costMicrousd := c.costMicrousd + outcome.costMicrousd
      sourceFingerprints := sources.1
      evidenceFingerprints :=
        match outcome.evidenceFingerprint with
        | some fingerprint => insert fingerprint c.evidenceFingerprints
        | none => c.evidenceFingerprints },
    sources.2, newEvidence)

section Outcomes
variable (errorDigest : String → String → String → String)

/-- The fingerprint of a failure, derived when the outcome brings none. -/
def errorFingerprintOf (outcome : ToolOperationOutcome) (intent : ToolUseIntent) : String :=
  outcome.errorFingerprint.getD
    (errorDigest outcome.capabilityId intent.canonicalRequestFingerprint
      (outcome.errorClass.getD ""))

/-- The advice after a failure; the first operation with its fingerprint is kept. -/
def failureFeedback (outcome : ToolOperationOutcome) (intent : ToolUseIntent) :
    ToolUseFeedback × ToolUseController :=
  let errorFingerprint := errorFingerprintOf errorDigest outcome intent
  let prior := c.errorFingerprintToOperation.get? errorFingerprint
  let recorded :=
    match prior with
    | some _ => c
    | none =>
        { c with
          errorFingerprintToOperation :=
            c.errorFingerprintToOperation.set errorFingerprint outcome.operationId }
  let feedback : ToolUseFeedback :=
    if prior.isSome && c.profile.enforceUnchangedErrors && !outcome.retryable then
      { disposition := .stop
        reasonCode := "same_error_without_changed_input"
        budgetRemaining := c.remaining outcome.capabilityId
        duplicateOfOperationId := prior }
    else
      { disposition := .replan
        reasonCode := if outcome.retryable then "operation_failed_retryable" else "operation_failed"
        budgetRemaining := c.remaining outcome.capabilityId }
  (feedback, recorded)

/-- The advice after a success that brought so many new sources and new evidence. -/
def successFeedback (outcome : ToolOperationOutcome) (newSources newEvidence : Nat) :
    ToolUseFeedback × ToolUseController :=
  let observedEvidence := observedSources outcome ≠ [] ∨ outcome.evidenceFingerprint.isSome
  let streak :=
    if newSources = 0 ∧ newEvidence = 0 ∧ observedEvidence then c.lowYieldStreak + 1 else 0
  let satisfied := c.profile.objectiveEvidenceThreshold.any
    (· ≤ c.evidenceFingerprints.card + c.sourceFingerprints.card)
  let reason :=
    if satisfied then "objective_satisfied"
    else if c.profile.lowYieldStreakThreshold ≤ streak then "same_sources_no_new_evidence"
    else if newSources ≠ 0 ∨ newEvidence ≠ 0 then "new_evidence"
    else "operation_completed"
  ({ disposition := .continue
     reasonCode := reason
     budgetRemaining := c.remaining outcome.capabilityId
     newEvidenceCount := max newSources newEvidence },
    { c with
      lowYieldStreak := streak
      objectiveSatisfied := c.objectiveSatisfied || satisfied })

/-- Fold the outcome of an operation that has none yet. -/
def recordOutcome (outcome : ToolOperationOutcome) (intent : ToolUseIntent) :
    ToolUseFeedback × ToolUseController :=
  let observed := c.observeOutcome outcome
  let advised :=
    if outcome.succeeded then observed.1.successFeedback outcome observed.2.1 observed.2.2
    else observed.1.failureFeedback errorDigest outcome intent
  (advised.1,
    { advised.2 with
      outcomeFeedback := advised.2.outcomeFeedback.set outcome.operationId advised.1 })

/-- The feedback that was given for an operation; a missing one raises a lookup error. -/
def givenFeedback (operationId : String) : Except String ToolUseFeedback :=
  match c.outcomeFeedback.get? operationId with
  | some feedback => .ok feedback
  | none => .error operationId

def applyOutcome (outcome : ToolOperationOutcome) :
    Except String ToolUseFeedback × ToolUseController :=
  match c.intentsByOperation.get? outcome.operationId with
  | none => (.error "outcome must reference an admitted operation", c)
  | some intent =>
      if intent.capabilityId ≠ outcome.capabilityId then
        (.error "outcome capability_id does not match its intent", c)
      else
        match c.outcomesByOperation.get? outcome.operationId with
        | some previous =>
            if previous = outcome then (c.givenFeedback outcome.operationId, c)
            else (.error "operation outcome conflicts with durable outcome", c)
        | none =>
            let folded := c.recordOutcome errorDigest outcome intent
            (.ok folded.1, folded.2)

end Outcomes

def recordTurn (record : ModelTurnRecord) : ToolUseController :=
  { c with
    modelTurns := c.modelTurns.set record.turnId record
    costMicrousd := c.costMicrousd + record.costMicrousd }

def applyModelTurn (record : ModelTurnRecord) : Except String ToolUseController :=
  match c.modelTurns.get? record.turnId with
  | some previous =>
      if previous = record then .ok c else .error "turn_id conflicts with durable model usage"
  | none => .ok (c.recordTurn record)

def applyBudget (record : TaskPolicyBudgetRecord) : Except String ToolUseController :=
  match c.budgetRecord with
  | some previous =>
      if previous = record then .ok c else .error "task policy controller budget conflicts"
  | none =>
      .ok { c with
        budgetRecord := some record
        deadlineAt := minimumLimit c.deadlineAt record.deadlineAt }

/-! ### Calls -/

/-- Admit one operation, or advise against it without recording it. -/
def beforeOperation (now : Nat) (intent : ToolUseIntent) :
    Except String ToolUseFeedback × ToolUseController :=
  match c.intentsByOperation.get? intent.operationId with
  | some previous =>
      if previous = intent then (.ok (c.feedbackForExisting intent), c)
      else (.error "operation_id cannot be reused for a different intent", c)
  | none =>
      match c.hardLimitFeedback now 0 1 0 with
      | some blocked => (.ok blocked, c)
      | none =>
          match c.repeatedRequestFeedback intent with
          | some feedback => (.ok feedback, c)
          | none =>
              if (c.profile.callLimitFor intent.capabilityId).any
                  (· ≤ c.callsFor intent.capabilityId) then
                (.ok {
                  disposition := .stop
                  reasonCode := "profile_tool_call_limit"
                  budgetRemaining := some 0 }, c)
              else
                let overlaps := fun entry : String × String =>
                  some entry.2 = intent.semanticFingerprint
                let semanticOverlap := c.semanticHistory.any overlaps
                -- The operation is new, so applying its intent records it.
                let admitted := c.recordIntent intent
                (.ok {
                  disposition := .continue
                  reasonCode := if semanticOverlap then "semantic_query_overlap" else "admitted"
                  budgetRemaining := admitted.remaining intent.capabilityId
                  duplicateOfOperationId :=
                    if semanticOverlap then
                      (admitted.semanticHistory.find? fun entry =>
                        entry.1 ≠ intent.operationId && overlaps entry).map (·.1)
                    else none }, admitted)

def afterOperation (errorDigest : String → String → String → String)
    (outcome : ToolOperationOutcome) : Except String ToolUseFeedback × ToolUseController :=
  match c.outcomesByOperation.get? outcome.operationId with
  | some previous =>
      if previous = outcome then (c.givenFeedback outcome.operationId, c)
      else (.error "operation outcome conflicts with durable outcome", c)
  | none => c.applyOutcome errorDigest outcome

/-- Admit one model turn with its cost. -/
def recordModelTurn (now : Nat) (record : ModelTurnRecord) :
    Except String ToolUseFeedback × ToolUseController :=
  match c.modelTurns.get? record.turnId with
  | some previous =>
      if previous = record then
        (.ok { disposition := .continue, reasonCode := "model_turn_replayed" }, c)
      else (.error "turn_id cannot be reused for different usage", c)
  | none =>
      match c.hardLimitFeedback now 1 0 record.costMicrousd with
      | some blocked => (.ok blocked, c)
      | none =>
          -- The turn is new, so applying it records it.
          (.ok { disposition := .continue, reasonCode := "model_turn_recorded" },
            c.recordTurn record)

def bindBudget (record : TaskPolicyBudgetRecord) : Except String Unit × ToolUseController :=
  match c.applyBudget record with
  | .ok bound => (.ok (), bound)
  | .error message => (.error message, c)

end ToolUseController

end CopilotRuntime.TaskPolicy
