import CopilotRuntime.ToolProgram.Executor
import CopilotRuntime.ToolProgram.PlanLaws

/-!
# What a step of a program keeps

While a program runs, the layers before the one that runs have completed, and the
dispatcher was given their steps and the tasks of the layer that were handed over.
-/

namespace CopilotRuntime.ToolProgram

open Foundation ToolProgramExecutor

variable {interp : Interpreter} {authorizedToolNames : List String} {limits : ToolProgramLimits}
  {program : RunToolProgramInput} {plan : ToolProgramPlan} {events : List Event} {s s' : Execution}
  {e : Event}

namespace Execution

def IsEnded (s : Execution) : Prop := ∃ ending, s.phase = .ended ending

/-- The ids of the steps the dispatcher was given. -/
def handedIds (s : Execution) : List String := s.calls.map Call.stepId

end Execution

/-- The dispatcher answered that the step completed. -/
def CompletedIn (events : List Event) (id : String) : Prop :=
  ∃ outcome : StepDispatchOutcome, .answered id outcome ∈ events ∧ outcome.status = .completed

theorem CompletedIn.snoc {id : String} (h : CompletedIn events id) (e : Event) :
    CompletedIn (events ++ [e]) id := by
  obtain ⟨outcome, hmem, hstatus⟩ := h
  exact ⟨outcome, List.mem_append_left _ hmem, hstatus⟩

/-! ### Tasks of a layer -/

section Tasks
variable {tasks before after : List Task} {step : ToolProgramStep} {state state' : TaskState}

def taskIds (tasks : List Task) : List String := tasks.map (·.1.id)

/-- The ids of the steps of a layer that were handed over. -/
def handedTaskIds (tasks : List Task) : List String :=
  taskIds (tasks.filter (·.2.wasHanded))

theorem setTask_of_not_mem {stepId : String} (h : stepId ∉ taskIds tasks) :
    setTask stepId state tasks = tasks := by
  unfold setTask
  conv_rhs => rw [← List.map_id tasks]
  apply List.map_congr_left
  intro task htask
  have hne : task.1.id ≠ stepId := fun heq => h (heq ▸ List.mem_map_of_mem htask)
  rw [if_neg hne, id]

/-- Only the one task with the id changes. -/
theorem setTask_split (h : (taskIds (before ++ (step, state) :: after)).Nodup) :
    setTask step.id state' (before ++ (step, state) :: after) =
      before ++ (step, state') :: after := by
  rw [taskIds, List.map_append, List.map_cons, List.nodup_append] at h
  obtain ⟨-, hafter, hdisjoint⟩ := h
  have hbefore : step.id ∉ taskIds before :=
    fun hmem => hdisjoint _ hmem _ List.mem_cons_self rfl
  unfold setTask
  rw [List.map_append, List.map_cons, if_pos rfl]
  exact congrArg₂ _ (setTask_of_not_mem hbefore)
    (congrArg _ (setTask_of_not_mem (List.nodup_cons.mp hafter).1))

theorem handedTaskIds_append (before after : List Task) :
    handedTaskIds (before ++ after) = handedTaskIds before ++ handedTaskIds after := by
  simp [handedTaskIds, taskIds]

theorem handedTaskIds_cons_of_handed (h : state.wasHanded = true) :
    handedTaskIds ((step, state) :: after) = step.id :: handedTaskIds after := by
  simp [handedTaskIds, taskIds, h]

theorem handedTaskIds_cons_of_not (h : state.wasHanded = false) :
    handedTaskIds ((step, state) :: after) = handedTaskIds after := by
  simp [handedTaskIds, taskIds, h]

/-- Handing a task over adds its id. -/
theorem handedTaskIds_hand (h : state.wasHanded = false) (h' : state'.wasHanded = true) :
    (handedTaskIds (before ++ (step, state') :: after)).Perm
      (handedTaskIds (before ++ (step, state) :: after) ++ [step.id]) := by
  rw [handedTaskIds_append, handedTaskIds_append, handedTaskIds_cons_of_handed h',
    handedTaskIds_cons_of_not h]
  exact List.perm_middle.trans (List.perm_append_singleton _ _).symm

/-- A change that hands nothing over keeps the ids. -/
theorem handedTaskIds_keep (h : state'.wasHanded = state.wasHanded) :
    handedTaskIds (before ++ (step, state') :: after) =
      handedTaskIds (before ++ (step, state) :: after) := by
  rw [handedTaskIds_append, handedTaskIds_append]
  cases hstate : state.wasHanded with
  | true =>
      rw [handedTaskIds_cons_of_handed hstate, handedTaskIds_cons_of_handed (h.trans hstate)]
  | false =>
      rw [handedTaskIds_cons_of_not hstate, handedTaskIds_cons_of_not (h.trans hstate)]

theorem handedTaskIds_sublist (tasks : List Task) : (handedTaskIds tasks).Sublist (taskIds tasks) :=
  List.filter_sublist.map _

theorem handedTaskIds_eq_nil_iff :
    handedTaskIds tasks = [] ↔ ∀ task ∈ tasks, task.2.wasHanded = false := by
  simp [handedTaskIds, taskIds]

theorem nextTask_split (h : nextTask limits tasks = some step) :
    ∃ before after, tasks = before ++ (step, .waiting) :: after := by
  unfold nextTask at h
  split at h
  · obtain ⟨⟨step', state⟩, hfind, rfl⟩ := Option.map_eq_some_iff.mp h
    obtain ⟨hwaiting, before, after, rfl, -⟩ := List.find?_eq_some_iff_append.mp hfind
    cases state with
    | waiting => exact ⟨before, after, rfl⟩
    | dispatched | settled _ | crashed _ => cases hwaiting
  · cases h

end Tasks

/-! ### What a step does -/

/-- The task an event answers, and the attempt it leaves. -/
def answerOf : Event → Option (String × StepAttempt)
  | .answered stepId outcome => some (stepId, .outcome outcome)
  | .interrupted stepId => some (stepId, .requiresApproval)
  | _ => none

section Moves
variable (interp : Interpreter) (limits : ToolProgramLimits) (plan : ToolProgramPlan)

/-- Every way in which a program goes on. -/
inductive Moves (s : Execution) : Event → Execution → Prop
  | begun {now : Rat} (hphase : s.phase = .starting) :
      Moves s (.clockRead now)
        { s with phase := .between (now + (limits.wallClockMs : Rat) / 1000) plan.layers }
  | late {now deadline : Rat} {layer : List ToolProgramStep} {pending : List (List ToolProgramStep)}
      (hphase : s.phase = .between deadline (layer :: pending)) :
      Moves s (.clockRead now) (fail plan s (expired ((layer.map (·.id)).headD "")))
  | entered {now deadline : Rat} {layer : List ToolProgramStep}
      {pending : List (List ToolProgramStep)}
      (hphase : s.phase = .between deadline (layer :: pending)) :
      Moves s (.clockRead now)
        { s with phase := .layer deadline (layer.map fun step => (step, .waiting)) pending }
  | projected {deadline : Rat} (hphase : s.phase = .between deadline []) :
      Moves s .projected (project interp limits plan s)
  | held {deadline : Rat} {tasks : List Task} {pending : List (List ToolProgramStep)}
      {step : ToolProgramStep} {state : TaskState} (hphase : s.phase = .layer deadline tasks pending)
      (hnext : nextTask limits tasks = some step) (hturn : turn interp s.outputs step = .error state) :
      Moves s (.attempted step.id)
        { s with phase := .layer deadline (setTask step.id state tasks) pending }
  | handed {deadline : Rat} {tasks : List Task} {pending : List (List ToolProgramStep)}
      {step : ToolProgramStep} {call : Call} (hphase : s.phase = .layer deadline tasks pending)
      (hnext : nextTask limits tasks = some step) (hturn : turn interp s.outputs step = .ok call) :
      Moves s (.attempted step.id)
        { s with
          phase := .layer deadline (setTask step.id .dispatched tasks) pending
          calls := s.calls ++ [call] }
  | answered {deadline : Rat} {tasks : List Task} {pending : List (List ToolProgramStep)}
      {step : ToolProgramStep} {attempt : StepAttempt} {e : Event}
      (hphase : s.phase = .layer deadline tasks pending)
      (hanswer : answerOf e = some (step.id, attempt)) (htask : (step, .dispatched) ∈ tasks) :
      Moves s e { s with phase := .layer deadline (setTask step.id (.settled attempt) tasks) pending }
  | timedOut {deadline : Rat} {tasks : List Task} {pending : List (List ToolProgramStep)}
      (hphase : s.phase = .layer deadline tasks pending) :
      Moves s .timedOut (fail plan s (expired ((tasks.map (·.1.id)).headD "")))
  | gathered {deadline : Rat} {tasks : List Task} {pending : List (List ToolProgramStep)}
      (hphase : s.phase = .layer deadline tasks pending)
      (hdone : ∀ task ∈ tasks, task.2.isDone = true) :
      Moves s .gathered (gather limits plan s deadline tasks pending)

variable {interp limits plan}

theorem moves_of_answer {deadline : Rat} {tasks : List Task}
    {pending : List (List ToolProgramStep)} {stepId : String} {attempt : StepAttempt}
    (hphase : s.phase = .layer deadline tasks pending)
    (hanswer : answerOf e = some (stepId, attempt))
    (h : answer s deadline tasks pending stepId attempt = some s') :
    Moves interp limits plan s e s' := by
  unfold answer at h
  split at h
  · rename_i hany
    cases h
    obtain ⟨⟨step, state⟩, htask, hboth⟩ := List.any_eq_true.mp hany
    rw [Bool.and_eq_true, decide_eq_true_iff] at hboth
    obtain ⟨rfl, hdispatched⟩ := hboth
    cases state with
    | dispatched => exact .answered hphase hanswer htask
    | waiting | settled _ | crashed _ => cases hdispatched
  · cases h

theorem step_moves (h : ToolProgramExecutor.step interp limits plan s e = some s') :
    Moves interp limits plan s e s' := by
  unfold ToolProgramExecutor.step at h
  split at h
  case h_1 hphase => cases h; exact .begun hphase
  case h_2 hphase =>
    split at h <;> cases h
    · exact .late hphase
    · exact .entered hphase
  case h_3 hphase => cases h; exact .projected hphase
  case h_4 hphase =>
    split at h
    · rename_i step hnext
      split at h
      · rename_i hid
        subst hid
        split at h <;> cases h
        · rename_i hturn
          exact .held hphase hnext hturn
        · rename_i hturn
          exact .handed hphase hnext hturn
      · cases h
    · cases h
  case h_5 hphase => exact moves_of_answer hphase rfl h
  case h_6 hphase => exact moves_of_answer hphase rfl h
  case h_7 hphase => cases h; exact .timedOut hphase
  case h_8 hphase =>
    split at h
    · rename_i hdone
      cases h
      exact .gathered hphase (List.all_eq_true.mp hdone)
    · cases h
  case h_9 => cases h

end Moves

/-! ### The invariant of a run -/

/-- What holds of a program while it runs: the layers before have completed, and the
dispatcher was given their steps and those of the tasks that were handed over. -/
structure Underway (plan : ToolProgramPlan) (events : List Event) (s : Execution)
    (before : List (List ToolProgramStep)) (tasks : List Task) : Prop where
  handed : s.handedIds.Perm (before.flatten.map (·.id) ++ handedTaskIds tasks)
  planned : ∀ call ∈ s.calls, ∃ step ∈ plan.steps, call.stepId = step.id ∧ call.toolName = step.tool
  outcomes : s.outcomes = before.flatten.map completedOutcome
  outputs : s.outputs.map Prod.fst = before.flatten.map (·.id)
  completed : ∀ step ∈ before.flatten, CompletedIn events step.id
  answered : ∀ step outcome, (step, .settled (.outcome outcome)) ∈ tasks →
    .answered step.id outcome ∈ events

def Invariant (plan : ToolProgramPlan) (events : List Event) (s : Execution) : Prop :=
  match s.phase with
  | .starting => Underway plan events s [] []
  | .between _ pending =>
      ∃ before, plan.layers = before ++ pending ∧ Underway plan events s before []
  | .layer _ tasks pending =>
      ∃ before, plan.layers = before ++ tasks.map Prod.fst :: pending ∧
        Underway plan events s before tasks
  | .ended _ => True

variable {before : List (List ToolProgramStep)} {tasks : List Task}

theorem Underway.snoc (h : Underway plan events s before tasks) (e : Event) :
    Underway plan (events ++ [e]) s before tasks :=
  { h with
    completed := fun step hstep => (h.completed step hstep).snoc e
    answered := fun step outcome htask =>
      List.mem_append_left _ (h.answered step outcome htask) }

theorem Underway.withPhase (h : Underway plan events s before tasks) (phase : Phase) :
    Underway plan events { s with phase := phase } before tasks where
  handed := h.handed
  planned := h.planned
  outcomes := h.outcomes
  outputs := h.outputs
  completed := h.completed
  answered := h.answered

theorem invariant_of_ended (h : s.IsEnded) : Invariant plan events s := by
  obtain ⟨ending, hphase⟩ := h
  unfold Invariant
  rw [hphase]
  trivial

theorem raise_ended (raised : Raised) : (raise plan s raised).IsEnded := by
  cases raised <;> exact ⟨_, rfl⟩

theorem project_ended : (project interp limits plan s).IsEnded := by
  unfold project
  split
  · exact raise_ended _
  · split <;> exact ⟨_, rfl⟩

/-! ### Settling a layer -/

section Settling
variable {step : ToolProgramStep} {attempt : StepAttempt}
  {attempts : List (ToolProgramStep × StepAttempt)}

theorem settle_eq_ok_iff {output : JsonValue} :
    settle step attempt = .ok output ↔
      ∃ outcome, attempt = .outcome outcome ∧ outcome.status = .completed ∧
        outcome.output = output := by
  cases attempt with
  | error error => simp [settle]
  | requiresApproval => simp [settle]
  | outcome outcome =>
      by_cases hstatus : outcome.status = .completed
      · simp [settle, hstatus]
      · simp [settle, hstatus]

theorem settle_status {status : StepStatus} {error : ToolProgramError}
    (h : settle step attempt = .error (status, error)) :
    status ≠ .notRun ∧ (TaskState.settled attempt).isBlocked = true := by
  cases attempt with
  | error error => cases h; exact ⟨by decide, rfl⟩
  | requiresApproval => cases h; exact ⟨by decide, rfl⟩
  | outcome outcome =>
      rw [settle] at h
      split at h
      · cases h
      · rename_i hstatus
        cases h
        refine ⟨?_, by simpa [TaskState.isBlocked] using hstatus⟩
        split <;> decide

/-- Settling up to the end records every attempt as completed. -/
theorem settleAll_none (h : settleAll s attempts = (s', none)) :
    (∀ x ∈ attempts, ∃ output, settle x.1 x.2 = .ok output) ∧
      s'.outcomes = s.outcomes ++ attempts.map (fun x => completedOutcome x.1) ∧
      s'.outputs.map Prod.fst = s.outputs.map Prod.fst ++ attempts.map (·.1.id) ∧
      s'.calls = s.calls := by
  induction attempts generalizing s with
  | nil =>
      cases h
      simp
  | cons x rest ih =>
      unfold settleAll at h
      split at h
      · rename_i output hsettle
        obtain ⟨hall, houtcomes, houtputs, hcalls⟩ := ih h
        refine ⟨List.forall_mem_cons.mpr ⟨⟨output, hsettle⟩, hall⟩, ?_, ?_, hcalls⟩
        · rw [houtcomes, List.append_assoc]
          rfl
        · rw [houtputs, List.map_append, List.append_assoc]
          rfl
      · cases h

/-- Settling stops at the first attempt that did not complete, and records it. -/
theorem settleAll_some {error : ToolProgramError} (h : settleAll s attempts = (s', some error)) :
    ∃ before x after status, attempts = before ++ x :: after ∧
      (∀ y ∈ before, ∃ output, settle y.1 y.2 = .ok output) ∧
      settle x.1 x.2 = .error (status, error) ∧
      s'.outcomes = s.outcomes ++ before.map (fun y => completedOutcome y.1) ++
        [recordOutcome x.1 status error] ∧
      s'.calls = s.calls := by
  induction attempts generalizing s with
  | nil => cases h
  | cons x rest ih =>
      unfold settleAll at h
      split at h
      · rename_i output hsettle
        obtain ⟨before, y, after, status, rfl, hall, hy, houtcomes, hcalls⟩ := ih h
        refine ⟨x :: before, y, after, status, rfl,
          List.forall_mem_cons.mpr ⟨⟨output, hsettle⟩, hall⟩, hy, ?_, hcalls⟩
        rw [houtcomes]
        simp
      · rename_i status error' hsettle
        cases h
        exact ⟨[], x, rest, status, rfl, by simp, hsettle, by simp, rfl⟩

theorem findSome?_crashOf {tasks : List Task} :
    tasks.findSome? crashOf = none ↔ ∀ task ∈ tasks, task.2.isCrashed = false := by
  rw [List.findSome?_eq_none_iff]
  apply forall₂_congr
  rintro ⟨step, state⟩ -
  cases state <;> simp [crashOf, TaskState.isCrashed]

/-- The tasks of a layer that is done without a crash are its settled attempts. -/
theorem tasks_eq_attempts {tasks : List Task} (hdone : ∀ task ∈ tasks, task.2.isDone = true)
    (hcrash : ∀ task ∈ tasks, task.2.isCrashed = false) :
    tasks = (tasks.filterMap attemptOf).map fun x => (x.1, .settled x.2) := by
  induction tasks with
  | nil => rfl
  | cons task rest ih =>
      obtain ⟨step, state⟩ := task
      rw [List.forall_mem_cons] at hdone hcrash
      cases state with
      | settled attempt =>
          rw [List.filterMap_cons_some (rfl : attemptOf (step, .settled attempt) = some (step, attempt)),
            List.map_cons, ← ih hdone.2 hcrash.2]
      | waiting => cases hdone.1
      | dispatched => cases hdone.1
      | crashed raised => cases hcrash.1

end Settling

/-! ### The invariant is kept -/

variable {step : ToolProgramStep}

theorem turn_error {outputs : List (String × JsonValue)} {state : TaskState}
    (h : turn interp outputs step = .error state) :
    state.wasHanded = false ∧ ∀ outcome, state ≠ .settled (.outcome outcome) := by
  unfold turn at h
  split at h
  · cases h
    exact ⟨rfl, fun outcome heq => by cases heq⟩
  · cases h
    exact ⟨rfl, fun outcome heq => by cases heq⟩
  · split at h
    · cases h
      exact ⟨rfl, fun outcome heq => by cases heq⟩
    · cases h

theorem turn_ok {outputs : List (String × JsonValue)} {call : Call}
    (h : turn interp outputs step = .ok call) :
    call.stepId = step.id ∧ call.toolName = step.tool := by
  unfold turn at h
  split at h
  · cases h
  · cases h
  · split at h
    · cases h
    · cases h
      exact ⟨rfl, rfl⟩

section Underway
variable {before : List (List ToolProgramStep)} {left right : List Task} {step : ToolProgramStep}
  {state : TaskState}

theorem Underway.enter (h : Underway plan events s before []) (layer : List ToolProgramStep) :
    Underway plan events s before (layer.map fun step => (step, .waiting)) := by
  have hnone : handedTaskIds (layer.map fun step => (step, TaskState.waiting)) = [] := by
    rw [handedTaskIds_eq_nil_iff]
    intro task htask
    obtain ⟨step, -, rfl⟩ := List.mem_map.mp htask
    rfl
  exact
    { h with
      handed := by rw [hnone]; exact h.handed
      answered := by
        intro step outcome htask
        obtain ⟨step', -, heq⟩ := List.mem_map.mp htask
        cases heq }

/-- A turn that hands nothing over. -/
theorem Underway.hold (h : Underway plan events s before (left ++ (step, .waiting) :: right))
    (hstate : state.wasHanded = false) (houtcome : ∀ outcome, state ≠ .settled (.outcome outcome)) :
    Underway plan events s before (left ++ (step, state) :: right) :=
  { h with
    handed := by
      have hkeep : state.wasHanded = TaskState.waiting.wasHanded := hstate
      rw [handedTaskIds_keep hkeep]
      exact h.handed
    answered := by
      intro step' outcome htask
      rcases List.mem_append.mp htask with hleft | hright
      · exact h.answered step' outcome (List.mem_append_left _ hleft)
      · rcases List.mem_cons.mp hright with heq | hright
        · cases heq
          exact absurd rfl (houtcome outcome)
        · exact h.answered step' outcome (List.mem_append_right _ (List.mem_cons_of_mem _ hright)) }

/-- A turn that hands the step over. -/
theorem Underway.hand {call : Call} (hstep : step ∈ plan.steps)
    (h : Underway plan events s before (left ++ (step, .waiting) :: right))
    (hcall : call.stepId = step.id ∧ call.toolName = step.tool) (phase : Phase) :
    Underway plan events { s with phase := phase, calls := s.calls ++ [call] } before
      (left ++ (step, .dispatched) :: right) where
  handed := by
    have hperm : (handedTaskIds (left ++ (step, .dispatched) :: right)).Perm
        (handedTaskIds (left ++ (step, .waiting) :: right) ++ [step.id]) :=
      handedTaskIds_hand rfl rfl
    have hids : Execution.handedIds { s with phase := phase, calls := s.calls ++ [call] } =
        s.handedIds ++ [step.id] := by
      simp [Execution.handedIds, hcall.1]
    rw [hids]
    refine (h.handed.append_right _).trans ?_
    rw [List.append_assoc]
    exact hperm.symm.append_left _
  planned := by
    intro other hother
    rcases List.mem_append.mp hother with hold | hnew
    · exact h.planned other hold
    · obtain rfl := List.mem_singleton.mp hnew
      exact ⟨step, hstep, hcall⟩
  outcomes := h.outcomes
  outputs := h.outputs
  completed := h.completed
  answered := by
    intro step' outcome htask
    rcases List.mem_append.mp htask with hleft | hright
    · exact h.answered step' outcome (List.mem_append_left _ hleft)
    · rcases List.mem_cons.mp hright with heq | hright
      · cases heq
      · exact h.answered step' outcome (List.mem_append_right _ (List.mem_cons_of_mem _ hright))

/-- An answer of the dispatcher. -/
theorem Underway.settle {attempt : StepAttempt} (hanswer : answerOf e = some (step.id, attempt))
    (h : Underway plan events s before (left ++ (step, .dispatched) :: right)) :
    Underway plan (events ++ [e]) s before (left ++ (step, .settled attempt) :: right) :=
  { h.snoc e with
    handed := by
      have hkeep : (TaskState.settled attempt).wasHanded = TaskState.dispatched.wasHanded := by
        cases e with
        | answered stepId outcome => cases hanswer; rfl
        | interrupted stepId => cases hanswer; rfl
        | _ => cases hanswer
      rw [handedTaskIds_keep hkeep]
      exact h.handed
    answered := by
      intro step' outcome htask
      rcases List.mem_append.mp htask with hleft | hright
      · exact (h.snoc e).answered step' outcome (List.mem_append_left _ hleft)
      · rcases List.mem_cons.mp hright with heq | hright
        · cases heq
          cases e with
          | answered stepId outcome' =>
              cases hanswer
              exact List.mem_append_right _ (List.mem_singleton_self _)
          | _ => cases hanswer
        · exact (h.snoc e).answered step' outcome
            (List.mem_append_right _ (List.mem_cons_of_mem _ hright)) }

end Underway

variable {pending : List (List ToolProgramStep)}

/-- The steps of the layers before and of the layer that runs are different ones. -/
theorem Scheduled.nodup_underway (hplan : Scheduled interp authorizedToolNames program plan)
    (h : plan.layers = before ++ tasks.map Prod.fst :: pending) :
    (before.flatten.map (·.id) ++ taskIds tasks).Nodup := by
  have hnodup := (hplan.perm.map (·.id)).nodup_iff.mpr hplan.nodup
  rw [h, List.flatten_append, List.flatten_cons, ← List.append_assoc, List.map_append,
    List.map_append, List.map_map] at hnodup
  exact (List.nodup_append.mp hnodup).1

theorem Scheduled.task_mem (hplan : Scheduled interp authorizedToolNames program plan)
    {task : Task} (h : plan.layers = before ++ tasks.map Prod.fst :: pending)
    (htask : task ∈ tasks) :
    task.1 ∈ plan.steps := by
  apply hplan.perm.subset
  rw [h, List.mem_flatten]
  exact ⟨tasks.map Prod.fst, by simp, List.mem_map_of_mem htask⟩

theorem map_fst_split {left right : List Task} {state state' : TaskState} :
    (left ++ (step, state') :: right).map Prod.fst =
      (left ++ (step, state) :: right).map Prod.fst := by
  simp

/-- What the tasks of a layer are whose attempts all completed. -/
theorem completed_of_settle {attempts : List (ToolProgramStep × StepAttempt)}
    (htasks : tasks = attempts.map fun x => (x.1, .settled x.2))
    (hall : ∀ x ∈ attempts, ∃ output, ToolProgramExecutor.settle x.1 x.2 = .ok output) :
    ∀ task ∈ tasks, task.2.wasHanded = true ∧ task.2.isBlocked = false ∧
      ∃ outcome, task.2 = .settled (.outcome outcome) ∧ outcome.status = .completed := by
  intro task htask
  rw [htasks] at htask
  obtain ⟨⟨step, attempt⟩, hx, rfl⟩ := List.mem_map.mp htask
  obtain ⟨output, hsettle⟩ := hall _ hx
  obtain ⟨outcome, rfl, hstatus, -⟩ := settle_eq_ok_iff.mp hsettle
  exact ⟨rfl, by simp [TaskState.isBlocked, hstatus], outcome, rfl, hstatus⟩

theorem handedTaskIds_of_all (h : ∀ task ∈ tasks, task.2.wasHanded = true) :
    handedTaskIds tasks = taskIds tasks := by
  rw [handedTaskIds, List.filter_eq_self.mpr h]

/-- The layer that completed joins the layers before. -/
theorem Underway.complete {attempts : List (ToolProgramStep × StepAttempt)} (phase : Phase)
    (h : Underway plan events s before tasks)
    (htasks : tasks = attempts.map fun x => (x.1, .settled x.2))
    (hsettle : settleAll s attempts = (s', none)) :
    Underway plan events { s' with phase := phase } (before ++ [tasks.map Prod.fst]) [] := by
  obtain ⟨hall, houtcomes, houtputs, hcalls⟩ := settleAll_none hsettle
  have hdone := completed_of_settle htasks hall
  have hsteps : tasks.map Prod.fst = attempts.map Prod.fst := by
    rw [htasks, List.map_map]
    rfl
  have hflat : (before ++ [tasks.map Prod.fst]).flatten =
      before.flatten ++ attempts.map Prod.fst := by
    rw [List.flatten_append, List.flatten_singleton, hsteps]
  constructor
  case handed =>
    have hids : taskIds tasks = (attempts.map Prod.fst).map (·.id) := by
      rw [← hsteps, List.map_map]
      rfl
    have hcalls' : Execution.handedIds { s' with phase := phase } = s.handedIds :=
      congrArg (List.map Call.stepId) hcalls
    rw [hcalls', hflat, List.map_append, ← hids, ← handedTaskIds_of_all fun t ht => (hdone t ht).1]
    simpa [handedTaskIds, taskIds] using h.handed
  case planned => exact fun call hcall => h.planned call (hcalls ▸ hcall)
  case outcomes =>
    dsimp only
    rw [houtcomes, h.outcomes, hflat, List.map_append, List.map_map]
    rfl
  case outputs =>
    dsimp only
    rw [houtputs, h.outputs, hflat, List.map_append, List.map_map]
    rfl
  case completed =>
    intro step hstep
    rw [hflat, ← hsteps, List.mem_append] at hstep
    rcases hstep with hstep | hstep
    · exact h.completed step hstep
    · obtain ⟨task, htask, rfl⟩ := List.mem_map.mp hstep
      obtain ⟨-, -, outcome, hstate, hstatus⟩ := hdone task htask
      exact ⟨outcome, h.answered task.1 outcome (by rw [← hstate]; exact htask), hstatus⟩
  case answered =>
    intro step outcome htask
    cases htask

theorem map_fst_waiting (layer : List ToolProgramStep) :
    (layer.map fun step => (step, TaskState.waiting)).map Prod.fst = layer := by
  rw [List.map_map]
  exact List.map_id layer

/-- A layer that is gathered and does not end the program has completed. -/
theorem Underway.gather {deadline : Rat} (h : Underway plan events s before tasks)
    (hdone : ∀ task ∈ tasks, task.2.isDone = true)
    (hgoes : ¬ (gather limits plan s deadline tasks pending).IsEnded) :
    (gather limits plan s deadline tasks pending).phase = .between deadline pending ∧
      Underway plan events (gather limits plan s deadline tasks pending)
        (before ++ [tasks.map Prod.fst]) [] ∧
      (∀ task ∈ tasks, task.2.isCrashed = false) ∧ ∀ task ∈ tasks, task.2.isBlocked = false := by
  unfold ToolProgramExecutor.gather at hgoes ⊢
  cases hcrash : tasks.findSome? crashOf with
  | some exception =>
      rw [hcrash] at hgoes
      exact absurd ⟨_, rfl⟩ hgoes
  | none =>
      rw [hcrash] at hgoes
      rw [findSome?_crashOf] at hcrash
      have htasks := tasks_eq_attempts hdone hcrash
      obtain ⟨s', error, hsettle⟩ : ∃ s' error, settleAll s (tasks.filterMap attemptOf) =
        (s', error) := ⟨_, _, rfl⟩
      dsimp only at hgoes ⊢
      rw [hsettle] at hgoes ⊢
      cases error with
      | some error => exact absurd ⟨_, rfl⟩ hgoes
      | none =>
          dsimp only at hgoes ⊢
          split at hgoes
          · exact absurd ⟨_, rfl⟩ hgoes
          · rename_i hsize
            rw [if_neg hsize]
            refine ⟨rfl, h.complete _ htasks hsettle, hcrash, ?_⟩
            exact fun task htask =>
              (completed_of_settle htasks (settleAll_none hsettle).1 task htask).2.1

/-- One step keeps the invariant. -/
theorem invariant_step (hplan : Scheduled interp authorizedToolNames program plan)
    (h : Invariant plan events s) (hmoves : Moves interp limits plan s e s') :
    Invariant plan (events ++ [e]) s' := by
  unfold Invariant at h
  cases hmoves with
  | begun hphase =>
      rw [hphase] at h
      exact ⟨[], rfl, (h.snoc _).withPhase _⟩
  | late hphase => trivial
  | entered hphase =>
      rw [hphase] at h
      obtain ⟨before, hlayers, h⟩ := h
      refine ⟨before, ?_, ((h.snoc _).enter _).withPhase _⟩
      rw [hlayers, map_fst_waiting]
  | projected hphase => exact invariant_of_ended project_ended
  | held hphase hnext hturn =>
      rw [hphase] at h
      obtain ⟨before, hlayers, h⟩ := h
      obtain ⟨left, right, rfl⟩ := nextTask_split hnext
      have hnodup := (List.nodup_append.mp (hplan.nodup_underway hlayers)).2.1
      obtain ⟨hhanded, houtcome⟩ := turn_error hturn
      refine ⟨before, ?_, ?_⟩
      · rw [setTask_split hnodup, map_fst_split, hlayers]
      · rw [setTask_split hnodup]
        exact ((h.snoc _).hold hhanded houtcome).withPhase _
  | handed hphase hnext hturn =>
      rw [hphase] at h
      obtain ⟨before, hlayers, h⟩ := h
      obtain ⟨left, right, rfl⟩ := nextTask_split hnext
      have hnodup := (List.nodup_append.mp (hplan.nodup_underway hlayers)).2.1
      have hstep := hplan.task_mem hlayers (List.mem_append_right _ List.mem_cons_self)
      refine ⟨before, ?_, ?_⟩
      · rw [setTask_split hnodup, map_fst_split, hlayers]
      · rw [setTask_split hnodup]
        exact (h.snoc _).hand hstep (turn_ok hturn) _
  | answered hphase hanswer htask =>
      rw [hphase] at h
      obtain ⟨before, hlayers, h⟩ := h
      obtain ⟨left, right, rfl⟩ := List.append_of_mem htask
      have hnodup := (List.nodup_append.mp (hplan.nodup_underway hlayers)).2.1
      refine ⟨before, ?_, ?_⟩
      · rw [setTask_split hnodup, map_fst_split, hlayers]
      · rw [setTask_split hnodup]
        exact (h.settle hanswer).withPhase _
  | timedOut hphase => trivial
  | @gathered deadline tasks pending hphase hdone =>
      rw [hphase] at h
      obtain ⟨before, hlayers, h⟩ := h
      by_cases hended : (gather limits plan s deadline tasks pending).IsEnded
      · exact invariant_of_ended hended
      · obtain ⟨hbetween, hunderway, -, -⟩ := (h.snoc .gathered).gather hdone hended
        unfold Invariant
        rw [hbetween]
        refine ⟨_, ?_, hunderway⟩
        rw [hlayers, List.append_assoc, List.singleton_append]

end CopilotRuntime.ToolProgram
