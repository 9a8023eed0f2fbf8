import Mathlib.Data.List.Dedup
import CopilotRuntime.Foundation.History
import CopilotRuntime.ToolProgram.ExecutorLaws

/-!
# What a program reports

Every run of a program comes to an end, hands each step to the dispatcher at most once,
and does so only when the steps it waits for have completed. A finished run reports a
step that was handed over as not run, or raises, exactly where its plan holds an
overlong marker or one of two events was not accountable: the time of a layer ran out
after a step of it was handed over, or a layer was gathered in which the arguments of a
step were no mapping or a step was handed over beside an earlier one that did not
complete.
-/

namespace CopilotRuntime.ToolProgram

open Foundation ToolProgramExecutor

variable {interp : Interpreter} {authorizedToolNames : List String} {limits : ToolProgramLimits}
  {program : RunToolProgramInput} {plan : ToolProgramPlan} {events : List Event} {s s' : Execution}
  {e : Event}

/-- The program returned a result, and a step reported as not run was never handed over. -/
def Execution.Honest (s : Execution) : Prop :=
  ∃ result, s.phase = .ended (.returned result) ∧
    ∀ outcome ∈ result.steps, outcome.status = .notRun → outcome.stepId ∉ s.handedIds

/-- The event does not end a layer in a way that loses sight of a step. -/
def Accountable (s : Execution) (e : Event) : Prop :=
  match s.phase, e with
  | .layer _ tasks _, .timedOut => ∀ task ∈ tasks, task.2.wasHanded = false
  | .layer _ tasks _, .gathered =>
      (∀ task ∈ tasks, task.2.isCrashed = false) ∧
        tasks.Pairwise fun a b => a.2.isBlocked = true → b.2.wasHanded = false
  | _, _ => True

/-! ### Runs -/

theorem run_nil (h : Run interp authorizedToolNames limits program [] s) :
    (∃ raised, ToolProgramPlan.compile interp authorizedToolNames limits program = .error raised ∧
      s = declined raised) ∨
    ∃ plan, ToolProgramPlan.compile interp authorizedToolNames limits program = .ok plan ∧
      s = {} := by
  generalize hevents : ([] : List Event) = events at h
  cases h with
  | refused h => exact .inl ⟨_, h, rfl⟩
  | compiled h => exact .inr ⟨_, h, rfl⟩
  | step => simp at hevents

theorem run_snoc (h : Run interp authorizedToolNames limits program (events ++ [e]) s') :
    ∃ plan s, ToolProgramPlan.compile interp authorizedToolNames limits program = .ok plan ∧
      Run interp authorizedToolNames limits program events s ∧
      step interp limits plan s e = some s' := by
  generalize hevents : events ++ [e] = later at h
  cases h with
  | refused => simp at hevents
  | compiled => simp at hevents
  | step hplan hrun hstep =>
      obtain ⟨rfl, heq⟩ := List.append_inj' hevents rfl
      obtain ⟨rfl, -⟩ := List.cons.inj heq
      exact ⟨_, _, hplan, hrun, hstep⟩

/-- The events of a run decide what they lead to. -/
theorem Run.unique (h : Run interp authorizedToolNames limits program events s)
    (h' : Run interp authorizedToolNames limits program events s') : s = s' := by
  induction h generalizing s' with
  | refused hraised =>
      rcases run_nil h' with ⟨raised, hraised', rfl⟩ | ⟨plan, hplan, -⟩
      · cases hraised.symm.trans hraised'
        rfl
      · exact absurd (hraised.symm.trans hplan) error_ne_ok
  | compiled hplan =>
      rcases run_nil h' with ⟨raised, hraised, -⟩ | ⟨plan, -, rfl⟩
      · exact absurd (hplan.symm.trans hraised) ok_ne_error
      · rfl
  | step hplan _ hstep ih =>
      obtain ⟨plan', s, hplan', hrun, hstep'⟩ := run_snoc h'
      cases hplan.symm.trans hplan'
      cases ih hrun
      exact Option.some.inj (hstep.symm.trans hstep')

/-- Every run whose program compiles keeps the invariant. -/
theorem Run.invariant (hplan : ToolProgramPlan.compile interp authorizedToolNames limits program =
      .ok plan) (h : Run interp authorizedToolNames limits program events s) :
    Invariant plan events s := by
  induction h with
  | refused hraised => exact absurd (hplan.symm.trans hraised) ok_ne_error
  | compiled _ =>
      unfold Invariant
      constructor <;> simp [Execution.handedIds, handedTaskIds, taskIds]
  | step hplan' _ hstep ih =>
      cases hplan.symm.trans hplan'
      exact invariant_step (compile_scheduled hplan) ih (step_moves hstep)

/-! ### What the dispatcher is given -/

theorem raise_calls (raised : Raised) : (raise plan s raised).calls = s.calls := by
  cases raised <;> rfl

theorem project_calls : (project interp limits plan s).calls = s.calls := by
  unfold project
  split
  · exact raise_calls _
  · split <;> rfl

theorem settleAll_calls {attempts : List (ToolProgramStep × StepAttempt)}
    {error : Option ToolProgramError} (h : settleAll s attempts = (s', error)) :
    s'.calls = s.calls := by
  cases error with
  | none => exact (settleAll_none h).2.2.2
  | some error =>
      obtain ⟨_, _, _, _, _, _, _, _, hcalls⟩ := settleAll_some h
      exact hcalls

theorem gather_calls {deadline : Rat} {tasks : List Task} {pending : List (List ToolProgramStep)} :
    (gather limits plan s deadline tasks pending).calls = s.calls := by
  unfold gather
  split
  · rfl
  · split
    · rename_i s' _ hsettle
      have hcalls : s'.calls = s.calls := settleAll_calls hsettle
      exact hcalls
    · rename_i s' hsettle
      have hcalls : s'.calls = s.calls := settleAll_calls hsettle
      split <;> exact hcalls

/-- A step gives the dispatcher nothing, or the next task of the layer that runs. -/
theorem moves_calls (h : Moves interp limits plan s e s') :
    s'.calls = s.calls ∨
      ∃ deadline left right pending step call, call.stepId = step.id ∧
        s.phase = .layer deadline (left ++ (step, .waiting) :: right) pending ∧
        s'.phase = .layer deadline (setTask step.id .dispatched (left ++ (step, .waiting) :: right))
          pending ∧
        s'.calls = s.calls ++ [call] := by
  cases h with
  | handed hphase hnext hturn =>
      obtain ⟨left, right, rfl⟩ := nextTask_split hnext
      exact .inr ⟨_, left, right, _, _, _, (turn_ok hturn).1, hphase, rfl, rfl⟩
  | projected => exact .inl project_calls
  | gathered => exact .inl gather_calls
  | begun | late | entered | held | answered | timedOut => exact .inl rfl

/-- Each step is handed over at most once, and only when its tool may be called. -/
theorem Run.handed_once (h : Run interp authorizedToolNames limits program events s) :
    s.handedIds.Nodup ∧
      ∀ call ∈ s.calls, ∃ step ∈ program.steps, call.stepId = step.id ∧
        call.toolName = step.tool ∧ step.tool ∈ authorizedToolNames := by
  induction h with
  | @refused raised _ => cases raised <;> simp [declined, Execution.handedIds]
  | compiled _ => simp [Execution.handedIds]
  | step hplan hrun hstep ih =>
      have hscheduled := compile_scheduled hplan
      have hmoves := step_moves hstep
      rcases moves_calls hmoves with hcalls | ⟨_, _, _, _, _, _, -, -, hphase, -⟩
      · unfold Execution.handedIds at ih ⊢
        rw [hcalls]
        exact ih
      · have hkept := invariant_step hscheduled (hrun.invariant hplan) hmoves
        unfold Invariant at hkept
        rw [hphase] at hkept
        obtain ⟨before, hlayers, h⟩ := hkept
        constructor
        · rw [h.handed.nodup_iff]
          exact (hscheduled.nodup_underway hlayers).sublist
            ((handedTaskIds_sublist _).append_left _)
        · intro call hcall
          obtain ⟨step, hmem, hid, htool⟩ := h.planned call hcall
          exact ⟨step, hscheduled.steps_eq ▸ hmem, hid, htool, hscheduled.authorized step hmem⟩

variable {step : ToolProgramStep}

theorem Scheduled.eq_of_id (hplan : Scheduled interp authorizedToolNames program plan)
    {other : ToolProgramStep} (hstep : step ∈ plan.steps) (hother : other ∈ plan.steps)
    (h : step.id = other.id) : step = other :=
  List.inj_on_of_nodup_map hplan.nodup hstep hother h

/-- A step is handed over only after the steps it waits for have completed. -/
theorem Run.handed_after (h : Run interp authorizedToolNames limits program events s)
    (h' : Run interp authorizedToolNames limits program (events ++ [e]) s')
    (hstep : step ∈ program.steps) (hnew : step.id ∈ s'.handedIds) (hold : step.id ∉ s.handedIds)
    {id : String} (hid : DependsOn step id) : CompletedIn events id := by
  obtain ⟨plan, s₀, hplan, hrun, hmove⟩ := run_snoc h'
  obtain rfl := h.unique hrun
  have hscheduled := compile_scheduled hplan
  rcases moves_calls (step_moves hmove) with
    hcalls | ⟨_, left, right, pending, next, call, hcall, hphase, -, hcalls⟩
  · unfold Execution.handedIds at hnew hold
    exact absurd (hcalls ▸ hnew) hold
  · have hnext : step.id = next.id := by
      unfold Execution.handedIds at hnew hold
      rw [hcalls, List.map_append, List.mem_append] at hnew
      simpa [hcall] using hnew.resolve_left hold
    have hinvariant := hrun.invariant hplan
    unfold Invariant at hinvariant
    rw [hphase] at hinvariant
    obtain ⟨before, hlayers, hunderway⟩ := hinvariant
    have hmem := hscheduled.task_mem hlayers (List.mem_append_right left List.mem_cons_self)
    obtain rfl := hscheduled.eq_of_id (hscheduled.steps_eq ▸ hstep) hmem hnext
    have hearlier := hscheduled.waits before _ pending hlayers step (by simp) id hid
    obtain ⟨other, hother, rfl⟩ := List.mem_map.mp hearlier
    exact hunderway.completed other hother

/-! ### The end of a run -/

/-- Something can happen to a program that has not ended. -/
theorem exists_step (hgoes : ¬ s.IsEnded) :
    ∃ e, (ToolProgramExecutor.step interp limits plan s e).isSome = true := by
  unfold ToolProgramExecutor.step
  cases hphase : s.phase with
  | starting => exact ⟨.clockRead 0, rfl⟩
  | between deadline pending =>
      cases pending with
      | nil => exact ⟨.projected, rfl⟩
      | cons layer pending =>
          refine ⟨.clockRead deadline, ?_⟩
          dsimp only
          split <;> rfl
  | layer deadline tasks pending => exact ⟨.timedOut, rfl⟩
  | ended ending => exact absurd ⟨ending, hphase⟩ hgoes

/-- A program that has not ended can go on. -/
theorem Run.goes_on (h : Run interp authorizedToolNames limits program events s)
    (hgoes : ¬ s.IsEnded) :
    ∃ e s', Run interp authorizedToolNames limits program (events ++ [e]) s' := by
  have hcompiled : ∃ plan, ToolProgramPlan.compile interp authorizedToolNames limits program =
      .ok plan := by
    cases h with
    | @refused raised _ => cases raised <;> exact absurd ⟨_, rfl⟩ hgoes
    | compiled hplan => exact ⟨_, hplan⟩
    | step hplan => exact ⟨_, hplan⟩
  obtain ⟨plan, hplan⟩ := hcompiled
  obtain ⟨e, hsome⟩ : ∃ e, (ToolProgramExecutor.step interp limits plan s e).isSome = true :=
    exists_step hgoes
  obtain ⟨s', hstep⟩ := Option.isSome_iff_exists.mp hsome
  exact ⟨e, s', .step hplan h hstep⟩

def TaskState.weight : TaskState → Nat
  | .waiting => 2
  | .dispatched => 1
  | _ => 0

def pendingWeight (pending : List (List ToolProgramStep)) : Nat :=
  (pending.map fun layer => 2 * layer.length + 2).sum

def taskWeight (tasks : List Task) : Nat := (tasks.map (·.2.weight)).sum

/-- How many events a program can still meet. -/
def Phase.weight (plan : ToolProgramPlan) : Phase → Nat
  | .starting => pendingWeight plan.layers + 2
  | .between _ pending => pendingWeight pending + 1
  | .layer _ tasks pending => taskWeight tasks + pendingWeight pending + 2
  | .ended _ => 0

theorem taskWeight_append (left right : List Task) :
    taskWeight (left ++ right) = taskWeight left + taskWeight right := by
  simp [taskWeight]

theorem taskWeight_cons (step : ToolProgramStep) (state : TaskState) (right : List Task) :
    taskWeight ((step, state) :: right) = state.weight + taskWeight right := by
  simp [taskWeight]

theorem pendingWeight_cons (layer : List ToolProgramStep) (pending : List (List ToolProgramStep)) :
    pendingWeight (layer :: pending) = 2 * layer.length + 2 + pendingWeight pending := by
  simp [pendingWeight]

theorem taskWeight_waiting (layer : List ToolProgramStep) :
    taskWeight (layer.map fun step => (step, .waiting)) = 2 * layer.length := by
  induction layer with
  | nil => rfl
  | cons step rest ih =>
      rw [List.map_cons, taskWeight_cons, ih, TaskState.weight, List.length_cons]
      omega

/-- A task that moves on leaves fewer events to come. -/
theorem taskWeight_setTask {left right : List Task} {state state' : TaskState}
    (hnodup : (taskIds (left ++ (step, state) :: right)).Nodup)
    (hlt : state'.weight < state.weight) :
    taskWeight (setTask step.id state' (left ++ (step, state) :: right)) <
      taskWeight (left ++ (step, state) :: right) := by
  rw [setTask_split hnodup, taskWeight_append, taskWeight_append, taskWeight_cons, taskWeight_cons]
  omega

theorem turn_weight {outputs : List (String × JsonValue)} {state : TaskState}
    (h : turn interp outputs step = .error state) : state.weight = 0 := by
  unfold turn at h
  split at h
  · cases h
    rfl
  · cases h
    rfl
  · split at h
    · cases h
      rfl
    · cases h

theorem ended_weight (h : s.IsEnded) : s.phase.weight plan = 0 := by
  obtain ⟨ending, hphase⟩ := h
  rw [hphase, Phase.weight]

/-- Every event uses up some of what can still happen. -/
theorem moves_weight (hplan : Scheduled interp authorizedToolNames program plan)
    (h : Invariant plan events s) (hmoves : Moves interp limits plan s e s') :
    s'.phase.weight plan < s.phase.weight plan := by
  unfold Invariant at h
  cases hmoves with
  | begun hphase =>
      rw [hphase]
      exact Nat.lt_succ_self _
  | late hphase =>
      rw [hphase]
      exact Nat.succ_pos _
  | entered hphase =>
      rw [hphase]
      simp only [Phase.weight, taskWeight_waiting, pendingWeight_cons]
      omega
  | projected hphase =>
      rw [hphase, ended_weight project_ended]
      exact Nat.succ_pos _
  | held hphase hnext hturn =>
      rw [hphase] at h ⊢
      obtain ⟨before, hlayers, -⟩ := h
      obtain ⟨left, right, rfl⟩ := nextTask_split hnext
      have hnodup := (List.nodup_append.mp (hplan.nodup_underway hlayers)).2.1
      have hlt := taskWeight_setTask hnodup ((turn_weight hturn).trans_lt Nat.two_pos)
      simp only [Phase.weight]
      omega
  | handed hphase hnext hturn =>
      rw [hphase] at h ⊢
      obtain ⟨before, hlayers, -⟩ := h
      obtain ⟨left, right, rfl⟩ := nextTask_split hnext
      have hnodup := (List.nodup_append.mp (hplan.nodup_underway hlayers)).2.1
      have hweight : TaskState.dispatched.weight < TaskState.waiting.weight := Nat.one_lt_two
      have hlt := taskWeight_setTask hnodup hweight
      simp only [Phase.weight]
      omega
  | @answered deadline tasks pending step attempt e hphase hanswer htask =>
      rw [hphase] at h ⊢
      obtain ⟨before, hlayers, -⟩ := h
      obtain ⟨left, right, rfl⟩ := List.append_of_mem htask
      have hnodup := (List.nodup_append.mp (hplan.nodup_underway hlayers)).2.1
      have hweight : (TaskState.settled attempt).weight < TaskState.dispatched.weight :=
        Nat.one_pos
      have hlt := taskWeight_setTask hnodup hweight
      simp only [Phase.weight]
      omega
  | timedOut hphase =>
      rw [hphase]
      exact Nat.succ_pos _
  | @gathered deadline tasks pending hphase hdone =>
      rw [hphase] at h ⊢
      obtain ⟨before, hlayers, h⟩ := h
      by_cases hended : (gather limits plan s deadline tasks pending).IsEnded
      · rw [ended_weight hended]
        exact Nat.succ_pos _
      · rw [(h.gather hdone hended).1]
        simp only [Phase.weight]
        omega

theorem length_le_flatten {α : Type} {layers : List (List α)} (h : ∀ layer ∈ layers, layer ≠ []) :
    layers.length ≤ layers.flatten.length := by
  rw [List.length_flatten, ← List.length_map List.length]
  refine List.length_le_sum_of_one_le _ (List.forall_mem_map.mpr fun layer hlayer => ?_)
  exact List.length_pos_of_ne_nil (h layer hlayer)

theorem pendingWeight_eq (layers : List (List ToolProgramStep)) :
    pendingWeight layers = 2 * layers.flatten.length + 2 * layers.length := by
  induction layers with
  | nil => rfl
  | cons layer rest ih =>
      rw [pendingWeight_cons, ih, List.flatten_cons, List.length_append, List.length_cons]
      omega

/-- A run is no longer than its program allows. -/
theorem Run.length_le (h : Run interp authorizedToolNames limits program events s) :
    events.length ≤ 4 * program.steps.length + 2 := by
  have hweight : ∀ plan, ToolProgramPlan.compile interp authorizedToolNames limits program =
      .ok plan → events.length + s.phase.weight plan ≤ pendingWeight plan.layers + 2 := by
    intro plan hplan
    induction h with
    | refused hraised => exact absurd (hplan.symm.trans hraised) ok_ne_error
    | compiled _ => exact (Nat.zero_add _).le
    | step hplan' hrun hstep ih =>
        cases hplan.symm.trans hplan'
        have hlt := moves_weight (compile_scheduled hplan) (hrun.invariant hplan)
          (step_moves hstep)
        rw [List.length_append, List.length_singleton]
        omega
  cases hplan : ToolProgramPlan.compile interp authorizedToolNames limits program with
  | error raised =>
      cases h with
      | refused => exact Nat.zero_le _
      | compiled hplan' => exact absurd (hplan'.symm.trans hplan) ok_ne_error
      | step hplan' => exact absurd (hplan'.symm.trans hplan) ok_ne_error
  | ok plan =>
      have hscheduled := compile_scheduled hplan
      have hlayers := length_le_flatten hscheduled.layers_ne_nil
      have hsteps := hscheduled.perm.length_eq
      rw [hscheduled.steps_eq] at hsteps
      have hle := hweight plan hplan
      rw [pendingWeight_eq] at hle
      omega

/-! ### What a finished run reports -/

theorem mem_markNotRun_iff {steps : List ToolProgramStep} {outcomes : List StepOutcome}
    {outcome : StepOutcome} :
    outcome ∈ markNotRun steps outcomes ↔ outcome ∈ outcomes ∨
      ∃ step ∈ steps, step.id ∉ outcomes.map (·.stepId) ∧
        outcome = { stepId := step.id, tool := step.tool, status := .notRun } := by
  unfold markNotRun
  rw [List.mem_append, List.mem_map]
  apply or_congr Iff.rfl
  constructor
  · rintro ⟨step, hstep, rfl⟩
    rw [List.mem_filter] at hstep
    exact ⟨step, hstep.1, of_decide_eq_true hstep.2, rfl⟩
  · rintro ⟨step, hstep, hnew, rfl⟩
    exact ⟨step, List.mem_filter.mpr ⟨hstep, decide_eq_true hnew⟩, rfl⟩

/-- A failed program is honest when the outcomes name every step that was handed over. -/
theorem honest_fail_iff {error : ToolProgramError}
    (hstatus : ∀ outcome ∈ s.outcomes, outcome.status ≠ .notRun)
    (hplanned : ∀ call ∈ s.calls, ∃ step ∈ plan.steps, call.stepId = step.id ∧
      call.toolName = step.tool) :
    (fail plan s error).Honest ↔ ∀ id ∈ s.handedIds, id ∈ s.outcomes.map (·.stepId) := by
  constructor
  · rintro ⟨result, hphase, hhonest⟩ id hid
    obtain rfl : ToolProgramResult.failure error (markNotRun plan.steps s.outcomes) = result := by
      injection hphase with hending
      injection hending
    obtain ⟨call, hcall, rfl⟩ := List.mem_map.mp hid
    obtain ⟨step, hstep, hcallId, -⟩ := hplanned call hcall
    by_contra hnew
    rw [hcallId] at hnew hid
    exact hhonest _ (mem_markNotRun_iff.mpr (.inr ⟨step, hstep, hnew, rfl⟩)) rfl hid
  · intro h
    refine ⟨_, rfl, ?_⟩
    intro outcome houtcome hnotRun hhanded
    rcases mem_markNotRun_iff.mp houtcome with hold | ⟨step, -, hnew, rfl⟩
    · exact hstatus outcome hold hnotRun
    · exact hnew (h step.id hhanded)

theorem not_honest_of_raised {exception : Uncaught} (h : s.phase = .ended (.raised exception)) :
    ¬ s.Honest := by
  rintro ⟨result, hphase, -⟩
  have heq := h.symm.trans hphase
  injection heq with hending
  cases hending

section Ends
variable {before pending : List (List ToolProgramStep)} {tasks : List Task}

theorem nodup_of_completed (hplan : Scheduled interp authorizedToolNames program plan)
    (hlayers : plan.layers = before ++ pending) :
    (before.flatten.map (·.id) ++ taskIds []).Nodup := by
  have hsteps := (hplan.perm.map (·.id)).nodup_iff.mpr hplan.nodup
  rw [hlayers, List.flatten_append, List.map_append, List.nodup_append] at hsteps
  simpa [taskIds] using hsteps.1

theorem Underway.status (h : Underway plan events s before tasks) :
    ∀ outcome ∈ s.outcomes, outcome.status ≠ .notRun := by
  intro outcome houtcome
  rw [h.outcomes] at houtcome
  obtain ⟨step, -, rfl⟩ := List.mem_map.mp houtcome
  exact (by decide : StepStatus.completed ≠ StepStatus.notRun)

theorem Underway.outcome_ids (h : Underway plan events s before tasks) :
    s.outcomes.map (·.stepId) = before.flatten.map (·.id) := by
  rw [h.outcomes, List.map_map]
  rfl

/-- A program that fails while it runs is honest when no task was handed over. -/
theorem Underway.honest_fail_iff (hnodup : (before.flatten.map (·.id) ++ taskIds tasks).Nodup)
    (h : Underway plan events s before tasks) {error : ToolProgramError} :
    (fail plan s error).Honest ↔ ∀ task ∈ tasks, task.2.wasHanded = false := by
  rw [ToolProgram.honest_fail_iff h.status h.planned, h.outcome_ids, ← handedTaskIds_eq_nil_iff]
  constructor
  · intro hall
    rw [List.eq_nil_iff_forall_not_mem]
    intro id hid
    have hbefore := hall id (h.handed.mem_iff.mpr (List.mem_append_right _ hid))
    exact (List.nodup_append.mp hnodup).2.2 id hbefore id ((handedTaskIds_sublist _).subset hid) rfl
  · intro hnone id hid
    have hmem := h.handed.mem_iff.mp hid
    rwa [hnone, List.append_nil] at hmem

/-- Projecting returns an honest result, and a completed one only of a completed program. -/
theorem Underway.project (hplan : Scheduled interp authorizedToolNames program plan)
    (hlayers : plan.layers = before) (h : Underway plan events s before []) :
    (project interp limits plan s).Honest ∧
      ∀ step ∈ program.steps, CompletedIn events step.id := by
  constructor
  · have hfail : ∀ error, (fail plan s error).Honest := by
      intro error
      have hall : plan.layers = before ++ [] := by rw [List.append_nil, hlayers]
      have hnodup := nodup_of_completed hplan hall
      exact (h.honest_fail_iff hnodup).mpr (by simp)
    unfold ToolProgramExecutor.project
    split
    · rename_i raised hraised
      have htyped := resolve_typed s.outputs none plan.projection hplan.reads_projection raised
        hraised
      cases raised with
      | toolProgram error => exact hfail error
      | uncaught exception => cases htyped
    · split
      · exact hfail _
      · exact ⟨_, rfl, fun outcome houtcome hnotRun => absurd hnotRun (h.status outcome houtcome)⟩
  · intro step hstep
    apply h.completed step
    rw [← hlayers]
    exact hplan.perm.mem_iff.mpr (hplan.steps_eq ▸ hstep)

/-- Where the first blocked attempt stands decides what a gathered layer loses sight of. -/
theorem pairwise_blocked_iff {left right : List Task} {task : Task}
    (hleft : ∀ other ∈ left, other.2.isBlocked = false) (hblocked : task.2.isBlocked = true) :
    ((left ++ task :: right).Pairwise fun a b => a.2.isBlocked = true → b.2.wasHanded = false) ↔
      ∀ other ∈ right, other.2.wasHanded = false := by
  rw [List.pairwise_append, List.pairwise_cons]
  constructor
  · rintro ⟨-, ⟨hright, -⟩, -⟩ other hother
    exact hright other hother hblocked
  · intro hright
    refine ⟨?_, ⟨fun other hother _ => hright other hother, ?_⟩, ?_⟩
    · exact List.pairwise_of_forall_mem_list fun a ha b _ hab =>
        absurd hab (by rw [hleft a ha]; decide)
    · exact List.pairwise_of_forall_mem_list fun a _ b hb _ => hright b hb
    · intro a ha b _ hab
      exact absurd hab (by rw [hleft a ha]; decide)

/-- A layer that stops at an attempt is honest when no later task was handed over. -/
theorem Underway.honest_stop_iff {left right : List Task} {task : Task} {error : ToolProgramError}
    {status : StepStatus} {error' : ToolProgramError} (hstatus : status ≠ .notRun)
    (hnodup : (before.flatten.map (·.id) ++ taskIds (left ++ task :: right)).Nodup)
    (h : Underway plan events s before (left ++ task :: right))
    (houtcomes : s'.outcomes = s.outcomes ++ left.map (fun other => completedOutcome other.1) ++
      [recordOutcome task.1 status error'])
    (hcalls : s'.calls = s.calls) :
    (fail plan s' error).Honest ↔ ∀ other ∈ right, other.2.wasHanded = false := by
  have hids : s'.outcomes.map (·.stepId) =
      before.flatten.map (·.id) ++ taskIds (left ++ [task]) := by
    rw [houtcomes, List.map_append, List.map_append, h.outcome_ids, List.map_map, List.append_assoc,
      taskIds, List.map_append]
    rfl
  have hreported : ∀ outcome ∈ s'.outcomes, outcome.status ≠ .notRun := by
    intro outcome houtcome
    rw [houtcomes, List.mem_append, List.mem_append] at houtcome
    rcases houtcome with (hearlier | hleft) | hlast
    · exact h.status outcome hearlier
    · obtain ⟨other, -, rfl⟩ := List.mem_map.mp hleft
      exact (by decide : StepStatus.completed ≠ StepStatus.notRun)
    · obtain rfl := List.mem_singleton.mp hlast
      exact hstatus
  have hhanded : s'.handedIds = s.handedIds := congrArg (List.map Call.stepId) hcalls
  have hsplit : taskIds (left ++ task :: right) = taskIds (left ++ [task]) ++ taskIds right := by
    simp [taskIds]
  rw [ToolProgram.honest_fail_iff hreported fun call hcall => h.planned call (hcalls ▸ hcall), hids,
    hhanded, ← handedTaskIds_eq_nil_iff]
  have hparts : handedTaskIds (left ++ task :: right) =
      handedTaskIds (left ++ [task]) ++ handedTaskIds right := by
    rw [← handedTaskIds_append, List.append_assoc, List.singleton_append]
  rw [hsplit, ← List.append_assoc] at hnodup
  constructor
  · intro hall
    rw [List.eq_nil_iff_forall_not_mem]
    intro id hid
    have hmem := hall id (h.handed.mem_iff.mpr (by simp [hparts, hid]))
    exact (List.nodup_append.mp hnodup).2.2 id hmem id ((handedTaskIds_sublist _).subset hid) rfl
  · intro hnone id hid
    have hmem := h.handed.mem_iff.mp hid
    rw [hparts, hnone, List.append_nil, List.mem_append] at hmem
    exact List.mem_append.mpr (hmem.imp_right fun hin => (handedTaskIds_sublist _).subset hin)

/-- A layer that is gathered ends a program honestly when nothing crashed and nothing was
handed over beside an earlier task that did not complete. -/
theorem Underway.honest_gather_iff {deadline : Rat}
    (hplan : Scheduled interp authorizedToolNames program plan)
    (hlayers : plan.layers = before ++ tasks.map Prod.fst :: pending)
    (h : Underway plan events s before tasks) (hdone : ∀ task ∈ tasks, task.2.isDone = true)
    (hended : (ToolProgramExecutor.gather limits plan s deadline tasks pending).IsEnded) :
    (ToolProgramExecutor.gather limits plan s deadline tasks pending).Honest ↔
      (∀ task ∈ tasks, task.2.isCrashed = false) ∧
        tasks.Pairwise fun a b => a.2.isBlocked = true → b.2.wasHanded = false := by
  unfold ToolProgramExecutor.gather at hended ⊢
  cases hcrash : tasks.findSome? crashOf with
  | some exception =>
      constructor
      · exact fun hhonest => absurd hhonest (not_honest_of_raised rfl)
      · rintro ⟨hnone, -⟩
        rw [← findSome?_crashOf, hcrash] at hnone
        cases hnone
  | none =>
      rw [hcrash] at hended
      rw [findSome?_crashOf] at hcrash
      have htasks := tasks_eq_attempts hdone hcrash
      have hnodup := hplan.nodup_underway hlayers
      obtain ⟨s', error, hsettle⟩ : ∃ s' error, settleAll s (tasks.filterMap attemptOf) =
        (s', error) := ⟨_, _, rfl⟩
      dsimp only at hended ⊢
      rw [hsettle] at hended ⊢
      rw [and_iff_right hcrash]
      cases error with
      | some error =>
          obtain ⟨first, x, rest, status, hattempts, hfirst, hx, houtcomes, hcalls⟩ :=
            settleAll_some hsettle
          obtain ⟨hstatus, hblocked⟩ := settle_status hx
          rw [hattempts, List.map_append, List.map_cons] at htasks
          rw [htasks] at h hnodup ⊢
          have hleft := completed_of_settle rfl hfirst
          rw [pairwise_blocked_iff (fun other hother => (hleft other hother).2.1) hblocked]
          have hrecorded : s'.outcomes = s.outcomes ++ (first.map fun y =>
              (y.1, TaskState.settled y.2)).map (fun other => completedOutcome other.1) ++
              [recordOutcome x.1 status error] := by
            rw [houtcomes, List.map_map]
            rfl
          exact h.honest_stop_iff hstatus hnodup hrecorded hcalls
      | none =>
          dsimp only at hended ⊢
          split at hended
          · rename_i hsize
            rw [if_pos hsize]
            have hlayers' : plan.layers = (before ++ [tasks.map Prod.fst]) ++ pending := by
              rw [hlayers, List.append_assoc, List.singleton_append]
            have hcompleted := h.complete s'.phase htasks hsettle
            constructor
            · intro _
              have hall := completed_of_settle htasks (settleAll_none hsettle).1
              exact List.pairwise_of_forall_mem_list fun a ha b _ hab =>
                absurd hab (by rw [(hall a ha).2.1]; decide)
            · intro _
              exact (hcompleted.honest_fail_iff (nodup_of_completed hplan hlayers')).mpr (by simp)
          · obtain ⟨ending, hphase⟩ := hended
            cases hphase

end Ends

/-- A step that goes on is accountable. -/
theorem accountable_of_going (h : Invariant plan events s)
    (hmoves : Moves interp limits plan s e s') (hgoes : ¬ s'.IsEnded) : Accountable s e := by
  unfold Invariant at h
  unfold Accountable
  cases hmoves with
  | begun hphase | late hphase | entered hphase | projected hphase | held hphase | handed hphase =>
      rw [hphase]
      trivial
  | @answered deadline tasks pending step attempt e hphase hanswer _ =>
      rw [hphase]
      cases e with
      | timedOut | gathered => cases hanswer
      | _ => trivial
  | timedOut => exact absurd ⟨_, rfl⟩ hgoes
  | gathered hphase hdone =>
      rw [hphase] at h ⊢
      obtain ⟨before, -, h⟩ := h
      obtain ⟨-, -, hcrash, hblocked⟩ := h.gather hdone hgoes
      refine ⟨hcrash, List.pairwise_of_forall_mem_list fun a ha b _ hab => ?_⟩
      exact absurd hab (by rw [hblocked a ha]; decide)

/-- A step that ends the program is accountable exactly when the result is honest. -/
theorem honest_iff_accountable (hplan : Scheduled interp authorizedToolNames program plan)
    (h : Invariant plan events s) (hmoves : Moves interp limits plan s e s') (hended : s'.IsEnded) :
    s'.Honest ↔ Accountable s e := by
  unfold Invariant at h
  unfold Accountable
  obtain ⟨ending, hending⟩ := hended
  cases hmoves with
  | begun | entered | held | handed | answered => cases hending
  | late hphase =>
      rw [hphase] at h ⊢
      obtain ⟨before, hlayers, h⟩ := h
      refine iff_of_true ?_ trivial
      exact (h.honest_fail_iff (nodup_of_completed hplan hlayers)).mpr (by simp)
  | projected hphase =>
      rw [hphase] at h ⊢
      obtain ⟨before, hlayers, h⟩ := h
      rw [List.append_nil] at hlayers
      exact iff_of_true (h.project hplan hlayers).1 trivial
  | timedOut hphase =>
      rw [hphase] at h ⊢
      obtain ⟨before, hlayers, h⟩ := h
      exact h.honest_fail_iff (hplan.nodup_underway hlayers)
  | gathered hphase hdone =>
      rw [hphase] at h ⊢
      obtain ⟨before, hlayers, h⟩ := h
      exact h.honest_gather_iff hplan hlayers hdone ⟨ending, hending⟩

/-- Every event of the run that led to it was accountable. -/
def AccountableRun (interp : Interpreter) (authorizedToolNames : List String)
    (limits : ToolProgramLimits) (program : RunToolProgramInput) : List Event → Prop :=
  EachStep fun earlier e =>
    ∀ s, Run interp authorizedToolNames limits program earlier s → Accountable s e

theorem not_ended_of_step (h : ToolProgramExecutor.step interp limits plan s e = some s') :
    ¬ s.IsEnded := by
  rintro ⟨ending, hphase⟩
  unfold ToolProgramExecutor.step at h
  rw [hphase] at h
  cases h

theorem Run.accountable_of_going (h : Run interp authorizedToolNames limits program events s)
    (hgoes : ¬ s.IsEnded) : AccountableRun interp authorizedToolNames limits program events := by
  induction h with
  | refused | compiled => exact eachStep_nil
  | @step plan events s s' e hplan hrun hstep ih =>
      refine (ih (not_ended_of_step hstep)).snoc e ?_
      intro s₀ hrun₀
      obtain rfl := hrun.unique hrun₀
      exact ToolProgram.accountable_of_going (hrun.invariant hplan) (step_moves hstep) hgoes

/-- A finished run is honest exactly when its plan holds no overlong marker that is read
and all its events were accountable. -/
theorem Run.honest_iff (h : Run interp authorizedToolNames limits program events s)
    (hended : s.IsEnded) :
    s.Honest ↔ ¬ ReadsOverlong interp authorizedToolNames limits program ∧
      AccountableRun interp authorizedToolNames limits program events := by
  rw [← untyped_compile_iff]
  cases h with
  | @refused raised hraised =>
      unfold AccountableRun
      rw [and_iff_left eachStep_nil]
      cases raised with
      | toolProgram error =>
          refine iff_of_true ⟨_, rfl, fun outcome houtcome => by cases houtcome⟩ ?_
          rintro ⟨raised, hraised', huntyped⟩
          cases hraised.symm.trans hraised'
          cases huntyped
      | uncaught exception =>
          exact iff_of_false (not_honest_of_raised rfl) (not_not_intro ⟨_, hraised, rfl⟩)
  | compiled _ =>
      obtain ⟨ending, hphase⟩ := hended
      cases hphase
  | @step plan events s₀ s e hplan hrun hstep =>
      have htyped : ¬ RaisesUntyped
          (ToolProgramPlan.compile interp authorizedToolNames limits program) := by
        rw [hplan]
        exact not_untyped_ok plan
      have hgoes := not_ended_of_step hstep
      have hlast : (∀ s, Run interp authorizedToolNames limits program events s →
          Accountable s e) ↔ Accountable s₀ e := by
        constructor
        · exact fun hall => hall s₀ hrun
        · intro hone s₁ hrun₁
          obtain rfl := hrun.unique hrun₁
          exact hone
      have hearlier := hrun.accountable_of_going hgoes
      unfold AccountableRun at hearlier ⊢
      rw [and_iff_right htyped, eachStep_snoc, hlast, and_iff_right hearlier]
      exact honest_iff_accountable (compile_scheduled hplan) (hrun.invariant hplan)
        (step_moves hstep) hended

variable {result : ToolProgramResult}

theorem status_of_fail {error : ToolProgramError}
    (h : (fail plan s error).phase = .ended (.returned result)) : result.status ≠ .completed := by
  injection h with hending
  injection hending with hresult
  subst hresult
  exact (by decide : ProgramStatus.failed ≠ ProgramStatus.completed)

theorem status_of_gather {deadline : Rat} {tasks : List Task}
    {pending : List (List ToolProgramStep)} (h : (ToolProgramExecutor.gather limits plan s deadline tasks pending).phase =
      .ended (.returned result)) : result.status ≠ .completed := by
  unfold ToolProgramExecutor.gather at h
  split at h
  · injection h with hending
    cases hending
  · split at h
    · exact status_of_fail h
    · split at h
      · exact status_of_fail h
      · cases h

/-- A result is a completed one only if every step completed. -/
theorem Run.completed (h : Run interp authorizedToolNames limits program events s)
    (hphase : s.phase = .ended (.returned result)) (hstatus : result.status = .completed) :
    ∀ step ∈ program.steps, CompletedIn events step.id := by
  cases h with
  | @refused raised _ =>
      cases raised with
      | toolProgram error =>
          injection hphase with hending
          injection hending with hresult
          subst hresult
          cases hstatus
      | uncaught exception =>
          injection hphase with hending
          cases hending
  | compiled => cases hphase
  | @step plan events s₀ s e hplan hrun hstep =>
      have hinvariant := hrun.invariant hplan
      unfold Invariant at hinvariant
      cases step_moves hstep with
      | begun | entered | held | handed | answered => cases hphase
      | late | timedOut => exact absurd hstatus (status_of_fail hphase)
      | gathered => exact absurd hstatus (status_of_gather hphase)
      | projected hbetween =>
          rw [hbetween] at hinvariant
          obtain ⟨before, hlayers, hunderway⟩ := hinvariant
          rw [List.append_nil] at hlayers
          have hscheduled := compile_scheduled hplan
          have hall : (project interp limits plan s₀).Honest ∧
              ∀ step ∈ program.steps, CompletedIn events step.id :=
            hunderway.project hscheduled hlayers
          exact fun step hmem => (hall.2 step hmem).snoc .projected

/-! ### The reports of programs -/

section Reports
variable (interp : Interpreter) (authorizedToolNames : List String) (limits : ToolProgramLimits)
  (program : RunToolProgramInput)

/-- What a finished run is to do and to report. -/
structure Reports (events : List Event) (s : Execution) : Prop where
  honest : s.Honest
  once : s.handedIds.Nodup
  authorized : ∀ call ∈ s.calls, ∃ step ∈ program.steps, call.stepId = step.id ∧
    call.toolName = step.tool ∧ step.tool ∈ authorizedToolNames
  after : EachStep (fun earlier e => ∀ s s', Run interp authorizedToolNames limits program earlier s →
    Run interp authorizedToolNames limits program (earlier ++ [e]) s' → ∀ step ∈ program.steps,
      step.id ∈ s'.handedIds → step.id ∉ s.handedIds → ∀ id, DependsOn step id →
        CompletedIn earlier id) events
  completed : ∀ result, s.phase = .ended (.returned result) → result.status = .completed →
    ∀ step ∈ program.steps, CompletedIn events step.id

variable {interp authorizedToolNames limits program}

/-- A run of a program ends, and it reports what it ran exactly when its plan holds no
overlong marker that is read and all its events were accountable. -/
theorem program_reports_iff (h : Run interp authorizedToolNames limits program events s) :
    events.length ≤ 4 * program.steps.length + 2 ∧
      (¬ s.IsEnded → ∃ e s', Run interp authorizedToolNames limits program (events ++ [e]) s') ∧
      (s.IsEnded → (Reports interp authorizedToolNames limits program events s ↔
        ¬ ReadsOverlong interp authorizedToolNames limits program ∧
          AccountableRun interp authorizedToolNames limits program events)) := by
  refine ⟨h.length_le, h.goes_on, fun hended => ?_⟩
  rw [← h.honest_iff hended]
  constructor
  · exact Reports.honest
  · intro hhonest
    obtain ⟨honce, hauthorized⟩ := h.handed_once
    refine ⟨hhonest, honce, hauthorized, ?_, fun result => h.completed⟩
    intro earlier e later _ s s' hrun hrun' step hstep hnew hold id
    exact hrun.handed_after hrun' hstep hnew hold

end Reports

/-! ### A layer whose first step fails -/

section Sample

/-- Play the events of a compiled plan. -/
def play (interp : Interpreter) (limits : ToolProgramLimits) (plan : ToolProgramPlan)
    (s : Execution) : List Event → Option Execution
  | [] => some s
  | e :: rest => (ToolProgramExecutor.step interp limits plan s e).bind (play interp limits plan · rest)

theorem Run.play {later : List Event}
    (hplan : ToolProgramPlan.compile interp authorizedToolNames limits program = .ok plan)
    (h : Run interp authorizedToolNames limits program events s)
    (hplay : ToolProgram.play interp limits plan s later = some s') :
    Run interp authorizedToolNames limits program (events ++ later) s' := by
  induction later generalizing events s with
  | nil =>
      cases hplay
      rwa [List.append_nil]
  | cons e rest ih =>
      obtain ⟨next, hstep, hrest⟩ := Option.bind_eq_some_iff.mp hplay
      have hnext := ih (h.step hplan hstep) hrest
      rwa [List.append_assoc, List.singleton_append] at hnext

private def interpreter : Interpreter where
  repr text := "'" ++ text ++ "'"
  walk := List.dedup
  nodup_walk := List.nodup_dedup
  mem_walk _ _ := List.mem_dedup

private def sampleLimits : ToolProgramLimits where
  maxSteps := 4
  maxConcurrency := 2
  wallClockMs := 1000
  maxTotalOutputBytes := 100
  maxResultBytes := 100

private def readStep : ToolProgramStep where
  id := "read"
  tool := "search"

private def writeStep : ToolProgramStep where
  id := "write"
  tool := "send"

private def sampleProgram : RunToolProgramInput where
  steps := [readStep, writeStep]

private def sampleEvents : List Event :=
  [.clockRead 0, .clockRead 0, .attempted "read", .attempted "write",
    .answered "read" { status := .failed }, .answered "write" { status := .completed }, .gathered]

private def samplePlan : ToolProgramPlan where
  steps := [readStep, writeStep]
  layers := [[readStep, writeStep]]
  projection := .null

private theorem sample_compiles :
    ToolProgramPlan.compile interpreter ["search", "send"] sampleLimits sampleProgram =
      .ok samplePlan := by
  rfl

/-- The program returned a result that reports a step as not run that was handed over. -/
private def losesSight (s : Execution) : Bool :=
  match s.phase with
  | .ended (.returned result) =>
      result.steps.any fun outcome => outcome.status = .notRun && outcome.stepId ∈ s.handedIds
  | _ => false

private theorem dishonest_of_losesSight (h : losesSight s = true) : s.IsEnded ∧ ¬ s.Honest := by
  unfold losesSight at h
  split at h
  · rename_i result hphase
    refine ⟨⟨_, hphase⟩, ?_⟩
    rintro ⟨result', hphase', hhonest⟩
    cases hphase.symm.trans hphase'
    obtain ⟨outcome, houtcome, hboth⟩ := List.any_eq_true.mp h
    rw [Bool.and_eq_true, decide_eq_true_iff, decide_eq_true_iff] at hboth
    exact hhonest outcome houtcome hboth.1 hboth.2
  · cases h

private def sampleEnd :=
  checked (play interpreter sampleLimits samplePlan {} sampleEvents) losesSight (by decide +kernel)

private theorem sample_run : ∃ s,
    Run interpreter ["search", "send"] sampleLimits sampleProgram sampleEvents s ∧ s.IsEnded ∧
      ¬ s.Honest := by
  obtain ⟨s, hplay, hloses⟩ := sampleEnd
  exact ⟨s, (Run.compiled sample_compiles).play sample_compiles hplay,
    dishonest_of_losesSight hloses⟩

/-- A step that was handed over and completed is reported as not run. -/
theorem completed_sibling_not_run : ∃ interp authorizedToolNames limits program events s,
    Run interp authorizedToolNames limits program events s ∧ s.IsEnded ∧
      ¬ Reports interp authorizedToolNames limits program events s := by
  obtain ⟨s, hrun, hended, hhonest⟩ := sample_run
  exact ⟨_, _, _, _, _, s, hrun, hended, fun hreports => hhonest hreports.honest⟩

theorem program_reports_iff_sample : ∃ s,
    Run interpreter ["search", "send"] sampleLimits sampleProgram sampleEvents s ∧
      (s.IsEnded → (Reports interpreter ["search", "send"] sampleLimits sampleProgram sampleEvents s ↔
        ¬ ReadsOverlong interpreter ["search", "send"] sampleLimits sampleProgram ∧
          AccountableRun interpreter ["search", "send"] sampleLimits sampleProgram sampleEvents)) := by
  obtain ⟨s, hrun, -, -⟩ := sample_run
  exact ⟨s, hrun, (program_reports_iff hrun).2.2⟩

end Sample

end CopilotRuntime.ToolProgram
