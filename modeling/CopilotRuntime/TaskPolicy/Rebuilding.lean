import CopilotRuntime.Foundation.Outcome
import CopilotRuntime.TaskPolicy.ControllerLimits

/-!
# Rebuilding a controller

A controller is rebuilt by folding its durable records in journal order. The records of the
calls that went through give back the controller that served them, so a restart neither
resets a limit nor changes an answer.
-/

namespace CopilotRuntime.TaskPolicy

open Foundation

deriving instance DecidableEq for ToolUseFeedback, ToolUseFeedbackRecord, ToolPlanProgressRecord

/-- Keep the first record of an id; a different one under it is a conflict. -/
def setDefault {ν : Type} [DecidableEq ν] (d : Dict String ν) (id : String) (record : ν)
    (conflict : String) : Except String (Dict String ν) :=
  match d.get? id with
  | some previous => if previous = record then .ok d else .error conflict
  | none => .ok (d.set id record)

/-- A call of an enforcing or of a shadow run. -/
inductive LiveCall
  | beforeOperation (now : Nat) (intent : ToolUseIntent)
  | afterOperation (outcome : ToolOperationOutcome)
  | recordModelTurn (now : Nat) (record : ModelTurnRecord)
  | bindBudget (record : TaskPolicyBudgetRecord)
  | observeDispatched (intent : ToolUseIntent)
  | observeModelTurn (record : ModelTurnRecord)

/-- The record of a call that went through, unless it is known already. -/
def journaled {ν : Type} (through : Bool) (known : Option ν) (record : TaskPolicyDurableRecord) :
    Option TaskPolicyDurableRecord :=
  if through && known.isNone then some record else none

namespace ToolUseController

variable (errorDigest : String → String → String → String) (c : ToolUseController)

def replayRecord : TaskPolicyDurableRecord → Except String ToolUseController
  | .budget record => c.applyBudget record
  | .intent record => c.applyIntent record
  | .outcome record =>
      let applied := c.applyOutcome errorDigest record
      applied.1.map fun _ => applied.2
  | .modelTurn record => c.applyModelTurn record
  | .feedback record =>
      (setDefault c.feedbackRecords record.decisionId record
        "decision_id conflicts with durable feedback").map fun kept =>
          { c with feedbackRecords := kept }
  | .progress record =>
      (setDefault c.progressRecords record.progressId record
        "progress_id conflicts with durable progress").map fun kept =>
          { c with
            progressRecords := kept
            objectiveSatisfied := c.objectiveSatisfied || record.objectiveSatisfied }

def replay (records : List TaskPolicyDurableRecord) : Except String ToolUseController :=
  records.foldlM (replayRecord errorDigest) c

def rebuild (profile : TaskPolicyProfile) (deadlineAt startedAt : Option Nat)
    (records : List TaskPolicyDurableRecord) : Except String ToolUseController :=
  (init profile deadlineAt startedAt).replay errorDigest records

/-- The controller after a call, and the record the call leaves. -/
def serve : LiveCall → ToolUseController × Option TaskPolicyDurableRecord
  | .beforeOperation now intent =>
      let answered := c.beforeOperation now intent
      (answered.2, journaled (goesAhead answered.1) (c.intentsByOperation.get? intent.operationId)
        (.intent intent))
  | .afterOperation outcome =>
      let answered := c.afterOperation errorDigest outcome
      (answered.2, journaled (returns answered.1)
        (c.outcomesByOperation.get? outcome.operationId) (.outcome outcome))
  | .recordModelTurn now record =>
      let answered := c.recordModelTurn now record
      (answered.2, journaled (goesAhead answered.1) (c.modelTurns.get? record.turnId)
        (.modelTurn record))
  | .bindBudget record =>
      ((c.bindBudget record).2, journaled true c.budgetRecord (.budget record))
  | .observeDispatched intent =>
      ((c.applyIntent intent).toOption.getD c,
        journaled true (c.intentsByOperation.get? intent.operationId) (.intent intent))
  | .observeModelTurn record =>
      ((c.applyModelTurn record).toOption.getD c,
        journaled true (c.modelTurns.get? record.turnId) (.modelTurn record))

/-- A live controller and its journal after some more calls. -/
def serveAll (live : ToolUseController × List TaskPolicyDurableRecord) (calls : List LiveCall) :
    ToolUseController × List TaskPolicyDurableRecord :=
  calls.foldl (fun live call =>
    let served := live.1.serve errorDigest call
    (served.1, live.2 ++ served.2.toList)) live

/-- The controller is as it was, or the journaled record replays the call. -/
def Replays (served : ToolUseController × Option TaskPolicyDurableRecord) : Prop :=
  served.2 = none ∧ served.1 = c ∨
    ∃ record, served.2 = some record ∧ c.replayRecord errorDigest record = .ok served.1

variable {errorDigest c} {c' : ToolUseController} {ν : Type} {through : Bool} {known : Option ν}
  {record : TaskPolicyDurableRecord}

theorem replays_same (hsame : c' = c) (hknown : through = true → known ≠ none) :
    c.Replays errorDigest (c', journaled through known record) := by
  refine .inl ⟨?_, hsame⟩
  cases known with
  | some _ => simp [journaled]
  | none => cases through <;> simp [journaled] at hknown ⊢

theorem replays_new (hthrough : through = true) (hnew : known = none)
    (hreplay : c.replayRecord errorDigest record = .ok c') :
    c.Replays errorDigest (c', journaled through known record) :=
  .inr ⟨record, by simp [journaled, hthrough, hnew], hreplay⟩

theorem replays_serve (call : LiveCall) : c.Replays errorDigest (c.serve errorDigest call) := by
  cases call with
  | beforeOperation now intent =>
      obtain ⟨-, hsame, hknown⟩ | ⟨hnew, hrecords, hahead⟩ := c.beforeOperation_cases now intent
      · exact replays_same hsame fun hahead => by simp [hknown hahead]
      · refine replays_new hahead hnew.fresh ?_
        simp [replayRecord, applyIntent, hnew.fresh, hrecords]
  | afterOperation outcome =>
      obtain ⟨-, hsame, hknown⟩ | ⟨hnew, hreturns, -⟩ := c.afterOperation_cases errorDigest outcome
      · exact replays_same hsame fun hreturns => by simp [hknown hreturns]
      · refine replays_new hreturns hnew.fresh ?_
        obtain ⟨intent, hintent, hcapability⟩ := hnew.operation
        simp [replayRecord, afterOperation, applyOutcome, hnew.fresh, hintent, hcapability,
          Except.map]
  | recordModelTurn now record =>
      obtain ⟨-, hsame, hknown⟩ | ⟨hnew, hrecords, hahead⟩ := c.recordModelTurn_cases now record
      · exact replays_same hsame fun hahead => by simp [hknown hahead]
      · refine replays_new hahead hnew.fresh ?_
        simp [replayRecord, applyModelTurn, hnew.fresh, hrecords]
  | bindBudget record =>
      obtain ⟨hbound, hsame⟩ | ⟨hfree, hbinds⟩ := c.bindBudget_cases record
      · exact replays_same hsame fun _ => hbound
      · refine replays_new rfl hfree ?_
        simp [replayRecord, applyBudget, hfree, hbinds]
  | observeDispatched intent =>
      cases hknown : c.intentsByOperation.get? intent.operationId with
      | some previous =>
          refine replays_same ?_ fun _ => by simp [hknown]
          by_cases hsame : previous = intent <;>
            simp [applyIntent, hknown, hsame, Except.toOption]
      | none =>
          refine replays_new rfl hknown ?_
          simp [replayRecord, applyIntent, hknown, Except.toOption]
  | observeModelTurn record =>
      cases hknown : c.modelTurns.get? record.turnId with
      | some previous =>
          refine replays_same ?_ fun _ => by simp [hknown]
          by_cases hsame : previous = record <;>
            simp [applyModelTurn, hknown, hsame, Except.toOption]
      | none =>
          refine replays_new rfl hknown ?_
          simp [replayRecord, applyModelTurn, hknown, Except.toOption]

/-- A controller rebuilt from the journal of a live one is that controller. -/
theorem rebuild_eq_live (profile : TaskPolicyProfile) (deadlineAt startedAt : Option Nat)
    (calls : List LiveCall) :
    rebuild errorDigest profile deadlineAt startedAt
        (serveAll errorDigest (init profile deadlineAt startedAt, []) calls).2 =
      .ok (serveAll errorDigest (init profile deadlineAt startedAt, []) calls).1 := by
  unfold rebuild replay
  induction calls using List.reverseRecOn with
  | nil => rfl
  | append_singleton earlier call ih =>
      unfold serveAll at ih ⊢
      rw [List.foldl_concat, List.foldlM_append, ih, ok_bind]
      obtain ⟨hnone, hsame⟩ | ⟨record, hsome, hreplays⟩ := replays_serve call
      · rw [hnone, hsame]
        rfl
      · rw [hsome]
        simpa using hreplays

end ToolUseController

end CopilotRuntime.TaskPolicy
