import CopilotRuntime.Queue.WorkQueue

/-!
# Leases of the work queue

A report names only the command, so it ends whatever lease is recorded there.
When no retry is reported over another worker's running lease or after the
command finished, and no finished command is queued afresh, a command has one
running lease at most and never runs again once it finished.

## Implementation notes

What the workers hold is read off the served calls: a lease lasts until its
instant or until the worker that took it reports the command.
-/

namespace CopilotRuntime.Queue

open Foundation

/-- One served call. -/
structure Served where
  now : Nat
  call : QueueCall
  reply : QueueReply

namespace Served

/-- The claim a worker was given. -/
def claimed (e : Served) : Option RuntimeWorkerClaim :=
  match e.reply with
  | .claim claim => claim
  | _ => none

/-- The worker that reported, and the command it reported about. -/
def reports (e : Served) : Option (String × String) :=
  match e.call with
  | .markComplete workerId result => some (workerId, result.commandId)
  | .markRetry workerId result => some (workerId, result.commandId)
  | .markDeadLetter workerId result => some (workerId, result.commandId)
  | _ => none

/-- The command that was reported complete or failed for good. -/
def finishes (e : Served) : Option String :=
  match e.call with
  | .markComplete _ result => some result.commandId
  | .markDeadLetter _ result => some result.commandId
  | _ => none

end Served

/-- The command a call queues, whether or not its id was queued before. -/
def QueueCall.registers : QueueCall → Option RuntimeCommand
  | .enqueueRun command | .enqueueCancel command | .enqueueSteer command
  | .enqueueApprovalResolved command _ | .enqueueStageCommit command
  | .enqueueEffectCommit command => some command
  | _ => none

/-- The command a call asks to have queued. -/
def QueueCall.enqueues : QueueCall → Option RuntimeCommand
  | .enqueueEffectReconcile command | .enqueueArtifactEvent command => some command
  | call => call.registers

/-- The worker that makes a report once claimed the command. -/
def OnceClaimed (served : List Served) (call : QueueCall) : Prop :=
  ∀ workerId commandId, (Served.mk 0 call .done).reports = some (workerId, commandId) →
    ∃ e ∈ served, ∃ claim, e.claimed = some claim ∧ claim.lockedBy = workerId ∧
      claim.commandId = commandId

/-- Calls served one after another from the empty queue, each meeting the given condition. -/
inductive QueueRun (meets : List Served → WorkQueue → Nat → QueueCall → Prop) :
    List Served → WorkQueue → Prop
  | nil : QueueRun meets [] .empty
  | snoc {served : List Served} {q : WorkQueue} (run : QueueRun meets served q) {now : Nat}
      {call : QueueCall} (later : ∀ e ∈ served, e.now ≤ now) (claimed : OnceClaimed served call)
      (condition : meets served q now call) :
      QueueRun meets (served ++ [⟨now, call, (q.serve now call).1⟩]) (q.serve now call).2

/-- The lease the `i`th call gave still runs at an instant, and its worker has not reported. -/
def Running (served : List Served) (now i : Nat) (claim : RuntimeWorkerClaim) : Prop :=
  (served[i]?).bind Served.claimed = some claim ∧ now < claim.lockExpiresAt ∧
    ∀ j e, i < j → served[j]? = some e → e.reports ≠ some (claim.lockedBy, claim.commandId)

variable {now i : Nat} {claim : RuntimeWorkerClaim}

theorem running_snoc {served : List Served} {e : Served} (h : Running (served ++ [e]) now i claim) :
    (i < served.length ∧ Running served now i claim ∧
      e.reports ≠ some (claim.lockedBy, claim.commandId)) ∨
      (i = served.length ∧ e.claimed = some claim ∧ now < claim.lockExpiresAt) := by
  obtain ⟨hclaim, hnow, hreports⟩ := h
  rcases Nat.lt_trichotomy i served.length with hlt | rfl | hgt
  · refine .inl ⟨hlt, ⟨?_, hnow, fun j other hj hother => ?_⟩, ?_⟩
    · rwa [List.getElem?_append_left hlt] at hclaim
    · refine hreports j other hj ?_
      rw [List.getElem?_append_left (List.getElem?_eq_some_iff.mp hother).1]
      exact hother
    · exact hreports served.length e hlt (by simp)
  · refine .inr ⟨rfl, ?_, hnow⟩
    simpa using hclaim
  · rw [List.getElem?_eq_none (by simp; omega)] at hclaim
    cases hclaim

theorem Running.earlier {served : List Served} {now' : Nat} (h : Running served now i claim)
    (hle : now' ≤ now) : Running served now' i claim :=
  ⟨h.1, Nat.lt_of_le_of_lt hle h.2.1, h.2.2⟩

theorem running_of_drop {served : List Served}
    (hclaim : (served[i]?).bind Served.claimed = some claim) (hnow : now < claim.lockExpiresAt)
    (hreports : ∀ e ∈ served.drop (i + 1), e.reports ≠ some (claim.lockedBy, claim.commandId)) :
    Running served now i claim := by
  refine ⟨hclaim, hnow, fun j e hj he => hreports e ?_⟩
  have hindex : (served.drop (i + 1))[j - (i + 1)]? = some e := by
    rw [List.getElem?_drop, Nat.add_sub_cancel' hj]
    exact he
  exact List.mem_of_getElem? hindex

/-- The command was reported complete or failed for good. -/
def WorkQueue.isFinished (q : WorkQueue) (commandId : String) : Bool :=
  match q.statuses.get? commandId with
  | some status => status.finished
  | none => false

/-- A retry is reported by the worker of the command's running lease, if there is one, and not
for a finished command; and no finished command is queued afresh. -/
def Orderly (served : List Served) (q : WorkQueue) (now : Nat) (call : QueueCall) : Prop :=
  (∀ workerId result, call = .markRetry workerId result →
    q.isFinished result.commandId = false ∧
      ∀ i claim, Running served now i claim → claim.commandId = result.commandId →
        claim.lockedBy = workerId) ∧
    ∀ command, call.registers = some command → q.isFinished command.commandId = false

section Calls
variable {q : WorkQueue} {now : Nat}

/-- Everything the queue keeps about a queued command is there. -/
structure WorkQueue.Tracked (q : WorkQueue) (commandId : String) : Prop where
  payload : (q.payloads.get? commandId).isSome
  status : ∃ status, q.statuses.get? commandId = some status ∧
    (status.claimable ∨ status.finished)
  attempts : (q.attempts.get? commandId).isSome
  due : (q.availableAt.get? commandId).isSome

/-- What one call does to the queue. -/
inductive Effect (q : WorkQueue) (now : Nat) : QueueCall → QueueReply → WorkQueue → Prop
  | registered {call : QueueCall} {reply : QueueReply} {command : RuntimeCommand}
      {commandType : CommandType} {approvalId : Option String}
      (enqueues : call.enqueues = some command) (reports : (Served.mk now call reply).reports = none)
      (claims : (Served.mk now call reply).claimed = none)
      (fresh : call.registers = some command ∨ q.payloads.get? command.commandId = none) :
      Effect q now call reply (q.registerCommand now command commandType approvalId)
  | present {call : QueueCall} {reply : QueueReply} {command : RuntimeCommand}
      (enqueues : call.enqueues = some command) (reports : (Served.mk now call reply).reports = none)
      (claims : (Served.mk now call reply).claimed = none)
      (queued : (q.payloads.get? command.commandId).isSome) : Effect q now call reply q
  | idle {workerId : String} {lockExpiresAt : Nat} :
      Effect q now (.claimNext workerId lockExpiresAt) (.claim none) q
  | claimed {workerId commandId : String} {lockExpiresAt attempts : Nat}
      {claim : RuntimeWorkerClaim} (queued : commandId ∈ q.order)
      (available : q.available now commandId = true) (command : claim.commandId = commandId) :
      Effect q now (.claimNext workerId lockExpiresAt) (.claim (some claim))
        { q with
          attempts := q.attempts.set commandId attempts
          claims := q.claims.set commandId claim
          statuses := q.statuses.set commandId .claimed }
  | finished {call : QueueCall} {workerId commandId : String} {status : OutboxStatus}
      (reports : (Served.mk now call .done).reports = some (workerId, commandId))
      (finishes : (Served.mk now call .done).finishes = some commandId)
      (status_finished : status.finished = true) :
      Effect q now call .done (q.release commandId status)
  | retried {workerId : String} {result : RuntimeWorkerResult} :
      Effect q now (.markRetry workerId result) .done (q.markRetry now result)

theorem effect_enqueueOnce {commandType : CommandType} {conflict : String}
    {command : RuntimeCommand} {call : QueueCall} (henqueues : call.enqueues = some command)
    (hreports : ∀ reply, (Served.mk now call reply).reports = none) :
    let made := WorkQueue.enqueueOnce commandType conflict q now command
    Effect q now call (.enqueued made.1) made.2 := by
  unfold WorkQueue.enqueueOnce
  cases hget : q.payloads.get? command.commandId with
  | none => exact .registered henqueues (hreports _) rfl (.inr hget)
  | some existing =>
      have hqueued : (q.payloads.get? command.commandId).isSome := by rw [hget]; rfl
      by_cases hsame : existing ≠ WorkQueue.payloadOf command commandType none
      · simp only [if_pos hsame]
        exact .present henqueues (hreports _) rfl hqueued
      · simp only [if_neg hsame]
        exact .present henqueues (hreports _) rfl hqueued

theorem effect_claimNext (workerId : String) (lockExpiresAt : Nat) :
    let made := q.claimNext now workerId lockExpiresAt
    Effect q now (.claimNext workerId lockExpiresAt) (.claim made.1) made.2 := by
  unfold WorkQueue.claimNext
  cases hfind : q.order.find? (q.available now) with
  | none => exact .idle
  | some commandId =>
      have hqueued := List.mem_of_find?_eq_some hfind
      have havailable := List.find?_some hfind
      dsimp only [WorkQueue.claimCommand]
      cases hpayload : q.payloads.get? commandId with
      | none => exact .idle
      | some payload =>
          cases hattempts : q.attempts.get? commandId with
          | none => exact .idle
          | some attempts => exact .claimed hqueued havailable rfl

/-- Every call is one of the effects. -/
theorem effect_serve (q : WorkQueue) (now : Nat) (call : QueueCall) :
    Effect q now call (q.serve now call).1 (q.serve now call).2 := by
  cases call with
  | enqueueRun command => exact .registered rfl rfl rfl (.inl rfl)
  | enqueueCancel command => exact .registered rfl rfl rfl (.inl rfl)
  | enqueueSteer command => exact .registered rfl rfl rfl (.inl rfl)
  | enqueueApprovalResolved command approvalId => exact .registered rfl rfl rfl (.inl rfl)
  | enqueueStageCommit command => exact .registered rfl rfl rfl (.inl rfl)
  | enqueueEffectCommit command => exact .registered rfl rfl rfl (.inl rfl)
  | enqueueEffectReconcile command => exact effect_enqueueOnce rfl fun _ => rfl
  | enqueueArtifactEvent command => exact effect_enqueueOnce rfl fun _ => rfl
  | claimNext workerId lockExpiresAt => exact effect_claimNext workerId lockExpiresAt
  | markComplete workerId result => exact .finished rfl rfl rfl
  | markRetry workerId result => exact .retried
  | markDeadLetter workerId result => exact .finished rfl rfl rfl

end Calls

section Steps
variable {q q' : WorkQueue} {now : Nat} {call : QueueCall} {reply : QueueReply}

theorem isFinished_of_set (commandId : String) (status : OutboxStatus)
    (h : q'.statuses = q.statuses.set commandId status) (id : String) :
    q'.isFinished id = if commandId = id then status.finished else q.isFinished id := by
  unfold WorkQueue.isFinished
  rw [h, Dict.get?_set]
  by_cases hid : commandId = id <;> simp [hid]

variable {commandId : String}

theorem not_isFinished_of_available (h : q.available now commandId = true) :
    q.isFinished commandId = false := by
  unfold WorkQueue.available at h
  unfold WorkQueue.isFinished
  cases hstatus : q.statuses.get? commandId with
  | none => rfl
  | some status =>
      rw [hstatus] at h
      cases status with
      | pending | claimed | retry | cancelled => rfl
      | completed | deadLetter =>
          cases hdue : q.availableAt.get? commandId with
          | none => simp [hdue] at h
          | some due => simp [hdue, OutboxStatus.claimable] at h

/-- A command that is available is due, and no recorded lease of it still runs. -/
theorem due_of_available (h : q.available now commandId = true) :
    (∃ due, q.availableAt.get? commandId = some due ∧ due ≤ now) ∧
      ∀ claim, q.claims.get? commandId = some claim → claim.lockExpiresAt ≤ now := by
  unfold WorkQueue.available at h
  cases hstatus : q.statuses.get? commandId with
  | none => simp [hstatus] at h
  | some status =>
      cases hdue : q.availableAt.get? commandId with
      | none => simp [hstatus, hdue] at h
      | some due =>
          simp only [hstatus, hdue, Bool.and_eq_true, decide_eq_true_eq] at h
          refine ⟨⟨due, rfl, h.1.2⟩, fun claim hclaim => ?_⟩
          simpa [hclaim] using h.2

theorem tracked_set {status : OutboxStatus} (hstatus : status.claimable ∨ status.finished)
    (h : q.Tracked commandId) (hpayloads : q'.payloads = q.payloads)
    (hattempts : ∀ id, (q.attempts.get? id).isSome → (q'.attempts.get? id).isSome)
    (hdue : ∀ id, (q.availableAt.get? id).isSome → (q'.availableAt.get? id).isSome)
    {changed : String} (hstatuses : q'.statuses = q.statuses.set changed status) :
    q'.Tracked commandId where
  payload := hpayloads ▸ h.payload
  status := by
    rw [hstatuses, Dict.get?_set]
    by_cases hid : changed = commandId
    · exact ⟨status, if_pos hid, hstatus⟩
    · rw [if_neg hid]
      exact h.status
  attempts := hattempts _ h.attempts
  due := hdue _ h.due

variable {id : String}

/-- A queued command stays tracked. -/
theorem Effect.tracked (effect : Effect q now call reply q') (h : q.Tracked id) :
    q'.Tracked id := by
  cases effect with
  | registered =>
      refine ⟨Dict.isSome_get?_set h.payload _ _, ?_, Dict.isSome_get?_set h.attempts _ _,
        Dict.isSome_get?_set h.due _ _⟩
      simp only [WorkQueue.registerCommand, Dict.get?_set]
      split
      · exact ⟨.pending, rfl, .inl rfl⟩
      · exact h.status
  | present | idle => exact h
  | claimed =>
      exact tracked_set (.inl rfl) h rfl (fun _ hsome => Dict.isSome_get?_set hsome _ _)
        (fun _ hsome => hsome) rfl
  | finished _ _ hfinished =>
      exact tracked_set (.inr hfinished) h rfl (fun _ hsome => hsome) (fun _ hsome => hsome) rfl
  | retried =>
      exact tracked_set (.inl rfl) h rfl (fun _ hsome => hsome)
        (fun _ hsome => Dict.isSome_get?_set hsome _ _) rfl

theorem Effect.order (effect : Effect q now call reply q') :
    q'.order = q.order ∨ ∃ command, call.enqueues = some command ∧
      q'.order = q.order ++ [command.commandId] := by
  cases effect with
  | registered henqueues => exact .inr ⟨_, henqueues, rfl⟩
  | present | idle | claimed | finished | retried => exact .inl rfl

theorem Effect.mem_order (effect : Effect q now call reply q') (h : id ∈ q.order) :
    id ∈ q'.order := by
  rcases effect.order with horder | ⟨command, _, horder⟩
  · rwa [horder]
  · rw [horder]
    exact List.mem_append_left _ h

/-- What holds of the queue after any calls. -/
structure Kept (served : List Served) (q : WorkQueue) : Prop where
  tracked : ∀ id ∈ q.order, q.Tracked id
  ordered : ∀ id, (q.payloads.get? id).isSome ∨ (q.statuses.get? id).isSome → id ∈ q.order
  leased : ∀ id claim, q.claims.get? id = some claim → claim.commandId = id ∧
    ∃ due, q.availableAt.get? id = some due ∧ ∃ e ∈ served, due ≤ e.now
  enqueued : ∀ e ∈ served, ∀ command, e.call.enqueues = some command → command.commandId ∈ q.order
  claimed : ∀ e ∈ served, ∀ claim, e.claimed = some claim → claim.commandId ∈ q.order
  finishedBy : ∀ id, q.isFinished id = true → ∃ e ∈ served, e.finishes = some id

theorem Kept.init : Kept [] .empty where
  tracked _ h := by cases h
  ordered _ h := by simp [WorkQueue.empty] at h
  leased _ _ h := by cases h
  enqueued _ h := by cases h
  claimed _ h := by cases h
  finishedBy _ h := by cases h

theorem tracked_registerCommand (command : RuntimeCommand) (commandType : CommandType)
    (approvalId : Option String) :
    (q.registerCommand now command commandType approvalId).Tracked command.commandId where
  payload := by simp [WorkQueue.registerCommand]
  status := ⟨.pending, by simp [WorkQueue.registerCommand], .inl rfl⟩
  attempts := by simp [WorkQueue.registerCommand]
  due := by simp [WorkQueue.registerCommand]

variable {served : List Served}

/-- A reported command was queued. -/
theorem Kept.mem_of_reports (h : Kept served q) (honce : OnceClaimed served call)
    {workerId : String} (hreports : (Served.mk 0 call .done).reports = some (workerId, commandId)) :
    commandId ∈ q.order := by
  obtain ⟨e, he, claim, hclaim, _, rfl⟩ := honce workerId commandId hreports
  exact h.claimed e he claim hclaim

theorem enqueues_of_reports {workerId : String}
    (h : (Served.mk now call reply).reports = some (workerId, commandId)) :
    call.enqueues = none := by
  cases call with
  | markComplete | markRetry | markDeadLetter => rfl
  | enqueueRun | enqueueCancel | enqueueSteer | enqueueApprovalResolved | enqueueStageCommit
  | enqueueEffectCommit | enqueueEffectReconcile | enqueueArtifactEvent | claimNext => cases h

section Step
variable (h : Kept served q) (effect : Effect q now call reply q')
include h effect

theorem Kept.ordered_step (honce : OnceClaimed served call) (id : String)
    (hsome : (q'.payloads.get? id).isSome ∨ (q'.statuses.get? id).isSome) : id ∈ q'.order := by
  cases effect with
  | @registered _ _ command _ _ _ _ _ _ =>
      by_cases hid : command.commandId = id
      · exact List.mem_append_right _ (List.mem_singleton.mpr hid.symm)
      · refine List.mem_append_left _ (h.ordered id ?_)
        simpa [WorkQueue.registerCommand, Dict.get?_set, hid] using hsome
  | present | idle => exact h.ordered id hsome
  | @claimed _ commandId _ _ _ hqueued _ _ =>
      by_cases hid : commandId = id
      · exact hid ▸ hqueued
      · refine h.ordered id ?_
        simpa [Dict.get?_set, hid] using hsome
  | @finished _ _ commandId status hreports _ _ =>
      by_cases hid : commandId = id
      · exact hid ▸ h.mem_of_reports honce hreports
      · refine h.ordered id ?_
        simpa [WorkQueue.release, Dict.get?_set, hid] using hsome
  | @retried workerId result =>
      by_cases hid : result.commandId = id
      · exact hid ▸ h.mem_of_reports honce rfl
      · refine h.ordered id ?_
        simpa [WorkQueue.markRetry, WorkQueue.release, Dict.get?_set, hid] using hsome

theorem Kept.leased_step (id : String) (claim : RuntimeWorkerClaim)
    (hclaim : q'.claims.get? id = some claim) :
    claim.commandId = id ∧ ∃ due, q'.availableAt.get? id = some due ∧
      ∃ e ∈ served ++ [⟨now, call, reply⟩], due ≤ e.now := by
  have hold {id : String} (hclaim : q.claims.get? id = some claim) : claim.commandId = id ∧
      ∃ due, q.availableAt.get? id = some due ∧
        ∃ e ∈ served ++ [⟨now, call, reply⟩], due ≤ e.now := by
    obtain ⟨hid, due, hdue, e, he, hle⟩ := h.leased id claim hclaim
    exact ⟨hid, due, hdue, e, List.mem_append_left _ he, hle⟩
  have hnew {due : Nat} (hle : due ≤ now) :
      ∃ e ∈ served ++ [⟨now, call, reply⟩], due ≤ e.now :=
    ⟨_, List.mem_append_right _ (List.mem_singleton.mpr rfl), hle⟩
  cases effect with
  | @registered _ _ command _ _ _ _ _ _ =>
      obtain ⟨hcommand, due, hdue, e, he, hle⟩ := hold hclaim
      refine ⟨hcommand, ?_⟩
      by_cases hid : command.commandId = id
      · refine ⟨now, ?_, hnew (Nat.le_refl _)⟩
        simp [WorkQueue.registerCommand, hid]
      · refine ⟨due, ?_, e, he, hle⟩
        simpa [WorkQueue.registerCommand, Dict.get?_set, hid] using hdue
  | present | idle => exact hold hclaim
  | @claimed _ commandId _ _ _ _ havailable hcommand =>
      by_cases hid : commandId = id
      · subst hid
        obtain rfl := Option.some.inj ((Dict.get?_set_self _ _ _).symm.trans hclaim)
        obtain ⟨⟨due, hdue, hle⟩, _⟩ := due_of_available havailable
        exact ⟨hcommand, due, hdue, hnew hle⟩
      · exact hold ((Dict.get?_set_of_ne _ _ hid).symm.trans hclaim)
  | @finished _ _ commandId _ _ _ _ =>
      by_cases hid : commandId = id
      · rw [WorkQueue.release, hid, Dict.get?_erase_self] at hclaim
        cases hclaim
      · exact hold ((Dict.get?_erase_of_ne _ hid).symm.trans hclaim)
  | @retried _ result =>
      by_cases hid : result.commandId = id
      · rw [WorkQueue.markRetry, WorkQueue.release, hid, Dict.get?_erase_self] at hclaim
        cases hclaim
      · obtain ⟨hcommand, due, hdue, hserved⟩ :=
          hold ((Dict.get?_erase_of_ne _ hid).symm.trans hclaim)
        refine ⟨hcommand, due, ?_, hserved⟩
        simpa [WorkQueue.markRetry, Dict.get?_set, hid] using hdue

theorem Kept.finishedBy_step (id : String) (hfinished : q'.isFinished id = true) :
    ∃ e ∈ served ++ [⟨now, call, reply⟩], e.finishes = some id := by
  have hold {id : String} (hfinished : q.isFinished id = true) :
      ∃ e ∈ served ++ [⟨now, call, reply⟩], e.finishes = some id := by
    obtain ⟨e, he, hid⟩ := h.finishedBy id hfinished
    exact ⟨e, List.mem_append_left _ he, hid⟩
  cases effect with
  | @registered _ _ command _ _ _ _ _ _ =>
      rw [isFinished_of_set (q := q) command.commandId .pending rfl] at hfinished
      by_cases hid : command.commandId = id
      · rw [if_pos hid] at hfinished
        cases hfinished
      · rw [if_neg hid] at hfinished
        exact hold hfinished
  | present | idle => exact hold hfinished
  | @claimed _ commandId _ _ _ _ _ _ =>
      rw [isFinished_of_set (q := q) commandId .claimed rfl] at hfinished
      by_cases hid : commandId = id
      · rw [if_pos hid] at hfinished
        cases hfinished
      · rw [if_neg hid] at hfinished
        exact hold hfinished
  | @finished _ _ commandId status _ hfinishes _ =>
      rw [isFinished_of_set (q := q) commandId status rfl] at hfinished
      by_cases hid : commandId = id
      · exact ⟨_, List.mem_append_right _ (List.mem_singleton.mpr rfl), hid ▸ hfinishes⟩
      · rw [if_neg hid] at hfinished
        exact hold hfinished
  | @retried _ result =>
      rw [isFinished_of_set (q := q) result.commandId .retry rfl] at hfinished
      by_cases hid : result.commandId = id
      · rw [if_pos hid] at hfinished
        cases hfinished
      · rw [if_neg hid] at hfinished
        exact hold hfinished

/-- One call keeps the records together. -/
theorem Kept.step (honce : OnceClaimed served call) : Kept (served ++ [⟨now, call, reply⟩]) q' where
  tracked id hid := by
    by_cases hold : id ∈ q.order
    · exact effect.tracked (h.tracked id hold)
    · cases effect with
      | registered =>
          rcases List.mem_append.mp hid with hid | hid
          · exact (hold hid).elim
          · obtain rfl := List.mem_singleton.mp hid
            exact tracked_registerCommand _ _ _
      | present | idle | claimed | finished | retried => exact (hold hid).elim
  ordered := h.ordered_step effect honce
  leased := h.leased_step effect
  finishedBy := h.finishedBy_step effect
  enqueued e he command henqueues := by
    rcases List.mem_append.mp he with he | he
    · exact effect.mem_order (h.enqueued e he command henqueues)
    · obtain rfl := List.mem_singleton.mp he
      cases effect with
      | registered henqueued =>
          cases henqueues.symm.trans henqueued
          exact List.mem_append_right _ (List.mem_singleton.mpr rfl)
      | present henqueued _ _ hqueued =>
          cases henqueues.symm.trans henqueued
          exact h.ordered _ (.inl hqueued)
      | idle | claimed | retried => cases henqueues
      | finished hreports => cases henqueues.symm.trans (enqueues_of_reports hreports)
  claimed e he claim hclaim := by
    rcases List.mem_append.mp he with he | he
    · exact effect.mem_order (h.claimed e he claim hclaim)
    · obtain rfl := List.mem_singleton.mp he
      cases effect with
      | registered _ _ hnone | present _ _ hnone => cases hclaim.symm.trans hnone
      | idle | finished | retried => cases hclaim
      | claimed hqueued _ hcommand =>
          cases hclaim
          exact hcommand ▸ hqueued

end Step

/-- What holds of the leases when every call was orderly. -/
structure Leased (served : List Served) (q : WorkQueue) : Prop where
  current : ∀ now i claim, (∀ e ∈ served, e.now ≤ now) → Running served now i claim →
    q.isFinished claim.commandId = true ∨ q.claims.get? claim.commandId = some claim
  one : ∀ now i j claim claim', (∀ e ∈ served, e.now ≤ now) → Running served now i claim →
    Running served now j claim' → claim.commandId = claim'.commandId → i = j
  stays : ∀ e ∈ served, ∀ id, e.finishes = some id → q.isFinished id = true

theorem Leased.init : Leased [] .empty where
  current _ _ _ _ h := by cases h.1
  one _ _ _ _ _ _ h := by cases h.1
  stays _ h := by cases h

variable {claim : RuntimeWorkerClaim}

/-- No lease of an available command still runs. -/
theorem Leased.not_running (h : Leased served q) (later : ∀ e ∈ served, e.now ≤ now)
    (havailable : q.available now id = true) {i : Nat} (hrun : Running served now i claim) :
    claim.commandId ≠ id := by
  rintro rfl
  rcases h.current now i claim later hrun with hfinished | hclaim
  · rw [not_isFinished_of_available havailable] at hfinished
    cases hfinished
  · have hle := (due_of_available havailable).2 claim hclaim
    exact absurd hrun.2.1 (Nat.not_lt.mpr hle)

/-- An orderly call queues no finished command. -/
theorem Kept.not_finished_of_fresh (kept : Kept served q) (horderly : Orderly served q now call)
    {command : RuntimeCommand}
    (hfresh : call.registers = some command ∨ q.payloads.get? command.commandId = none) :
    q.isFinished command.commandId = false := by
  rcases hfresh with hregisters | hnone
  · exact horderly.2 command hregisters
  · unfold WorkQueue.isFinished
    cases hstatus : q.statuses.get? command.commandId with
    | none => rfl
    | some status =>
        have hqueued := kept.ordered command.commandId (.inr (by rw [hstatus]; rfl))
        have hpayload := (kept.tracked _ hqueued).payload
        rw [hnone] at hpayload
        cases hpayload

theorem Leased.current_step (h : Leased served q) (kept : Kept served q)
    (later : ∀ e ∈ served, e.now ≤ now) (horderly : Orderly served q now call)
    (effect : Effect q now call reply q') {i : Nat} (hrun : Running served now i claim)
    (hreports : (Served.mk now call reply).reports ≠ some (claim.lockedBy, claim.commandId)) :
    q'.isFinished claim.commandId = true ∨ q'.claims.get? claim.commandId = some claim := by
  have hbefore := h.current now i claim later hrun
  cases effect with
  | @registered _ _ command _ _ _ _ _ hfresh =>
      rw [isFinished_of_set (q := q) command.commandId .pending rfl]
      rcases hbefore with hfinished | hclaim
      · by_cases hid : command.commandId = claim.commandId
        · have hnot := kept.not_finished_of_fresh horderly hfresh
          rw [hid, hfinished] at hnot
          cases hnot
        · rw [if_neg hid]
          exact .inl hfinished
      · exact .inr hclaim
  | present | idle => exact hbefore
  | @claimed _ commandId _ _ _ _ havailable _ =>
      have hid := (h.not_running later havailable hrun).symm
      rw [isFinished_of_set (q := q) commandId .claimed rfl, if_neg hid]
      exact hbefore.imp_right ((Dict.get?_set_of_ne _ _ hid).trans)
  | @finished _ _ commandId status _ _ hstatus =>
      rw [isFinished_of_set (q := q) commandId status rfl]
      by_cases hid : commandId = claim.commandId
      · rw [if_pos hid]
        exact .inl hstatus
      · rw [if_neg hid]
        exact hbefore.imp_right ((Dict.get?_erase_of_ne _ hid).trans)
  | @retried workerId result =>
      have hid : result.commandId ≠ claim.commandId := by
        intro hid
        have hholder := (horderly.1 workerId result rfl).2 i claim hrun hid.symm
        apply hreports
        rw [hholder, ← hid]
        rfl
      rw [isFinished_of_set (q := q) result.commandId .retry rfl, if_neg hid]
      exact hbefore.imp_right ((Dict.get?_erase_of_ne _ hid).trans)

/-- A finished command stays finished. -/
theorem Kept.finished_step (kept : Kept served q) (horderly : Orderly served q now call)
    (effect : Effect q now call reply q') (hfinished : q.isFinished id = true) :
    q'.isFinished id = true := by
  have hother {id' : String} (hnot : q.isFinished id' = false) : id' ≠ id := by
    rintro rfl
    rw [hfinished] at hnot
    cases hnot
  cases effect with
  | @registered _ _ command _ _ _ _ _ hfresh =>
      rw [isFinished_of_set (q := q) command.commandId .pending rfl,
        if_neg (hother (kept.not_finished_of_fresh horderly hfresh))]
      exact hfinished
  | present | idle => exact hfinished
  | @claimed _ commandId _ _ _ _ havailable _ =>
      rw [isFinished_of_set (q := q) commandId .claimed rfl,
        if_neg (hother (not_isFinished_of_available havailable))]
      exact hfinished
  | @finished _ _ commandId status _ _ hstatus =>
      rw [isFinished_of_set (q := q) commandId status rfl]
      split
      · exact hstatus
      · exact hfinished
  | @retried workerId result =>
      rw [isFinished_of_set (q := q) result.commandId .retry rfl,
        if_neg (hother (horderly.1 workerId result rfl).1)]
      exact hfinished

theorem finished_of_finishes (effect : Effect q now call reply q')
    (h : (Served.mk now call reply).finishes = some id) : q'.isFinished id = true := by
  cases effect with
  | @registered _ _ command _ _ henqueues _ _ _ | @present _ _ command henqueues _ _ _ =>
      cases call with
      | markComplete | markDeadLetter => cases henqueues
      | enqueueRun | enqueueCancel | enqueueSteer | enqueueApprovalResolved | enqueueStageCommit
      | enqueueEffectCommit | enqueueEffectReconcile | enqueueArtifactEvent | claimNext
      | markRetry => cases h
  | idle | claimed | retried => cases h
  | @finished _ _ commandId status _ hfinishes hstatus =>
      cases h.symm.trans hfinishes
      rw [isFinished_of_set (q := q) id status rfl, if_pos rfl]
      exact hstatus

/-- The call that gave a lease found the command available. -/
theorem available_of_claimed (effect : Effect q now call reply q')
    (h : (Served.mk now call reply).claimed = some claim) :
    q.available now claim.commandId = true ∧
      q'.claims.get? claim.commandId = some claim := by
  cases effect with
  | registered _ _ hnone | present _ _ hnone => cases h.symm.trans hnone
  | idle | finished | retried => cases h
  | claimed _ havailable hcommand =>
      cases h
      subst hcommand
      exact ⟨havailable, Dict.get?_set_self _ _ _⟩

/-- An orderly call keeps one running lease for each command. -/
theorem Leased.step (h : Leased served q) (kept : Kept served q)
    (later : ∀ e ∈ served, e.now ≤ now) (horderly : Orderly served q now call)
    (effect : Effect q now call reply q') : Leased (served ++ [⟨now, call, reply⟩]) q' where
  current now' i claim hlater hrun := by
    have hnow : now ≤ now' := hlater _ (List.mem_append_right _ (List.mem_singleton.mpr rfl))
    rcases running_snoc hrun with ⟨_, hold, hreports⟩ | ⟨_, hclaim, _⟩
    · exact h.current_step kept later horderly effect (hold.earlier hnow) hreports
    · exact .inr (available_of_claimed effect hclaim).2
  one now' i j claim claim' hlater hrun hrun' hsame := by
    have hnow : now ≤ now' := hlater _ (List.mem_append_right _ (List.mem_singleton.mpr rfl))
    rcases running_snoc hrun with ⟨_, hold, _⟩ | ⟨hi, hclaim, _⟩ <;>
      rcases running_snoc hrun' with ⟨_, hold', _⟩ | ⟨hj, hclaim', _⟩
    · exact h.one now i j claim claim' later (hold.earlier hnow) (hold'.earlier hnow) hsame
    · exact absurd hsame (h.not_running later (available_of_claimed effect hclaim').1
        (hold.earlier hnow))
    · exact absurd hsame.symm (h.not_running later (available_of_claimed effect hclaim).1
        (hold'.earlier hnow))
    · exact hi.trans hj.symm
  stays e he id hfinishes := by
    rcases List.mem_append.mp he with he | he
    · exact kept.finished_step horderly effect (h.stays e he id hfinishes)
    · obtain rfl := List.mem_singleton.mp he
      exact finished_of_finishes effect hfinishes

end Steps

variable {served : List Served} {q : WorkQueue}

theorem QueueRun.kept {meets : List Served → WorkQueue → Nat → QueueCall → Prop}
    (run : QueueRun meets served q) : Kept served q := by
  induction run with
  | nil => exact .init
  | snoc _ _ claimed _ ih => exact ih.step (effect_serve _ _ _) claimed

theorem QueueRun.leased (run : QueueRun Orderly served q) : Leased served q := by
  induction run with
  | nil => exact .init
  | snoc run later _ condition ih => exact ih.step run.kept later condition (effect_serve _ _ _)

/-- When a queued command is due: when its recorded lease ends, or else when it was set to be. -/
def WorkQueue.dueAt (q : WorkQueue) (commandId : String) : Nat :=
  match q.claims.get? commandId with
  | some claim => claim.lockExpiresAt
  | none => (q.availableAt.get? commandId).getD 0

/-- A command that never finished is available as soon as it is due. -/
theorem Kept.available_of_due (kept : Kept served q) {id : String} (hqueued : id ∈ q.order)
    (hnot : ∀ e ∈ served, e.finishes ≠ some id) (later : ∀ e ∈ served, e.now ≤ now)
    (hdue : q.dueAt id ≤ now) : q.available now id = true := by
  obtain ⟨status, hstatus, hclaimable⟩ := (kept.tracked id hqueued).status
  obtain ⟨due, hget⟩ := Option.isSome_iff_exists.mp (kept.tracked id hqueued).due
  have hopen : status.claimable = true := by
    rcases hclaimable with hclaimable | hfinished
    · exact hclaimable
    · have hisFinished : q.isFinished id = true := by
        unfold WorkQueue.isFinished
        rw [hstatus]
        exact hfinished
      obtain ⟨e, he, hfinishes⟩ := kept.finishedBy id hisFinished
      exact (hnot e he hfinishes).elim
  unfold WorkQueue.dueAt at hdue
  unfold WorkQueue.available
  cases hclaim : q.claims.get? id with
  | none => 
      simp only [hclaim, hget, Option.getD_some] at hdue
      simp [hstatus, hget, hopen, hdue]
  | some claim =>
      obtain ⟨_, due', hget', e, he, hle⟩ := kept.leased id claim hclaim
      have hnow : due' ≤ now := Nat.le_trans hle (later e he)
      simp only [hclaim] at hdue
      simp [hstatus, hget', hopen, hdue, hnow]

/-- A worker gets the first available command. -/
theorem Kept.claimNext_first (kept : Kept served q) {id : String} {before after : List String}
    (horder : q.order = before ++ id :: after)
    (hbefore : ∀ other ∈ before, q.available now other = false)
    (havailable : q.available now id = true) (workerId : String) (lockExpiresAt : Nat) :
    ∃ claim, (q.claimNext now workerId lockExpiresAt).1 = some claim ∧ claim.commandId = id := by
  have hqueued : id ∈ q.order := horder ▸ List.mem_append_right _ List.mem_cons_self
  obtain ⟨payload, hpayload⟩ := Option.isSome_iff_exists.mp (kept.tracked id hqueued).payload
  obtain ⟨attempts, hattempts⟩ := Option.isSome_iff_exists.mp (kept.tracked id hqueued).attempts
  have hfind : q.order.find? (q.available now) = some id := by
    rw [horder, List.find?_append, List.find?_eq_none.mpr, List.find?_cons_of_pos havailable]
    · rfl
    · intro other hother
      simp [hbefore other hother]
  unfold WorkQueue.claimNext
  rw [hfind]
  dsimp only [WorkQueue.claimCommand]
  rw [hpayload, hattempts]
  exact ⟨_, rfl, rfl⟩

/-- Every run of orderly calls leaves one running lease for each command at most; a claim gets a
command that has no running lease and never finished; and a command that was queued and never
finished is claimed once it is due and first in line. -/
theorem lease_safety (run : QueueRun Orderly served q) {now : Nat}
    (later : ∀ e ∈ served, e.now ≤ now) :
    (∀ i j claim claim', Running served now i claim → Running served now j claim' →
        claim.commandId = claim'.commandId → i = j) ∧
      (∀ workerId lockExpiresAt claim, (q.claimNext now workerId lockExpiresAt).1 = some claim →
        (∀ i held, Running served now i held → held.commandId ≠ claim.commandId) ∧
          ∀ e ∈ served, e.finishes ≠ some claim.commandId) ∧
      ∀ e ∈ served, ∀ command, e.call.enqueues = some command →
        (∀ e ∈ served, e.finishes ≠ some command.commandId) → q.dueAt command.commandId ≤ now →
        q.available now command.commandId = true ∧
          ∃ before after, q.order = before ++ command.commandId :: after ∧
            ((∀ other ∈ before, q.available now other = false) →
              ∀ workerId lockExpiresAt, ∃ claim,
                (q.claimNext now workerId lockExpiresAt).1 = some claim ∧
                  claim.commandId = command.commandId) := by
  have kept := run.kept
  have leased := run.leased
  refine ⟨fun i j claim claim' => leased.one now i j claim claim' later, ?_, ?_⟩
  · intro workerId lockExpiresAt claim hclaim
    have effect := effect_serve q now (.claimNext workerId lockExpiresAt)
    have hgiven : (Served.mk now (.claimNext workerId lockExpiresAt)
        (.claim (q.claimNext now workerId lockExpiresAt).1)).claimed = some claim := hclaim
    have havailable := (available_of_claimed effect hgiven).1
    refine ⟨fun i held hrun => leased.not_running later havailable hrun, fun e he hfinishes => ?_⟩
    have hfinished := leased.stays e he _ hfinishes
    rw [not_isFinished_of_available havailable] at hfinished
    cases hfinished
  · intro e he command henqueues hnot hdue
    have hqueued := kept.enqueued e he command henqueues
    have havailable := kept.available_of_due hqueued hnot later hdue
    obtain ⟨before, after, horder⟩ := List.append_of_mem hqueued
    refine ⟨havailable, before, after, horder, fun hbefore workerId lockExpiresAt => ?_⟩
    exact kept.claimNext_first horder hbefore havailable workerId lockExpiresAt

section Play

/-- The clock has not gone back, and a report names a command its worker claimed. -/
def servable (served : List Served) (now : Nat) (call : QueueCall) : Bool :=
  served.all (fun e => e.now ≤ now) &&
    match (Served.mk 0 call .done).reports with
    | none => true
    | some (workerId, commandId) => served.any fun e =>
        match e.claimed with
        | some claim => claim.lockedBy == workerId && claim.commandId == commandId
        | none => false

/-- Serve calls from the empty queue, leaving out those that cannot be made. -/
def play (calls : List (Nat × QueueCall)) : List Served × WorkQueue :=
  calls.foldl (fun state call =>
    if servable state.1 call.1 call.2 then
      (state.1 ++ [⟨call.1, call.2, (state.2.serve call.1 call.2).1⟩],
        (state.2.serve call.1 call.2).2)
    else state) ([], .empty)

theorem later_and_onceClaimed_of_servable {now : Nat} {call : QueueCall}
    (h : servable served now call = true) :
    (∀ e ∈ served, e.now ≤ now) ∧ OnceClaimed served call := by
  obtain ⟨hlater, hclaimed⟩ := Bool.and_eq_true_iff.mp h
  refine ⟨by simpa using hlater, fun workerId commandId hreports => ?_⟩
  rw [hreports] at hclaimed
  obtain ⟨e, he, hmatches⟩ := List.any_eq_true.mp hclaimed
  cases hclaim : e.claimed with
  | none => simp [hclaim] at hmatches
  | some claim =>
      simp only [hclaim, Bool.and_eq_true, beq_iff_eq] at hmatches
      exact ⟨e, he, claim, hclaim, hmatches⟩

/-- Played calls are a run, given that each meets the condition whatever came before. -/
theorem QueueRun.play {meets : List Served → WorkQueue → Nat → QueueCall → Prop}
    (calls : List (Nat × QueueCall))
    (h : ∀ call ∈ calls, ∀ served q, meets served q call.1 call.2) :
    QueueRun meets (play calls).1 (play calls).2 := by
  refine List.foldlRecOn (motive := fun state : List Served × WorkQueue =>
    QueueRun meets state.1 state.2) calls _ .nil ?_
  intro state run call hcall
  by_cases hservable : servable state.1 call.1 call.2 = true
  · rw [if_pos hservable]
    obtain ⟨later, claimed⟩ := later_and_onceClaimed_of_servable hservable
    exact run.snoc later claimed (h call hcall _ _)
  · rw [if_neg hservable]
    exact run

end Play

namespace Sample

def command : RuntimeCommand := ⟨"command-1", "org-1", "run-1", .null⟩

/-- A reconciliation is claimed, completed and queued again. -/
def completed : List (Nat × QueueCall) :=
  [(0, .enqueueEffectReconcile command), (0, .claimNext "worker-1" 10),
    (5, .markComplete "worker-1" ⟨"command-1", none⟩), (6, .enqueueEffectReconcile command)]

/-- A worker reports a retry after its lease ended and another worker took the command. -/
def lateRetry : List (Nat × QueueCall) :=
  [(0, .enqueueRun command), (0, .claimNext "worker-1" 10), (20, .claimNext "worker-2" 30),
    (21, .markRetry "worker-1" ⟨"command-1", none⟩), (22, .claimNext "worker-3" 32)]

/-- A completed command is queued again under the same id. -/
def queuedAgain : List (Nat × QueueCall) :=
  [(0, .enqueueEffectCommit command), (0, .claimNext "worker-1" 10),
    (5, .markComplete "worker-1" ⟨"command-1", none⟩), (6, .enqueueEffectCommit command)]

theorem completed_orderly : QueueRun Orderly (play completed).1 (play completed).2 := by
  refine QueueRun.play _ fun call hcall served q => ?_
  simp only [completed, List.mem_cons, List.not_mem_nil, or_false] at hcall
  rcases hcall with rfl | rfl | rfl | rfl <;>
    exact ⟨fun _ _ h => (by cases h), fun _ h => (by cases h)⟩

end Sample

/-- A completed reconciliation that is queued again is never claimed again. -/
theorem lease_safety_sample :
    (∀ i j claim claim', Running (play Sample.completed).1 7 i claim →
        Running (play Sample.completed).1 7 j claim' → claim.commandId = claim'.commandId → i = j) ∧
      (∀ workerId lockExpiresAt claim,
        ((play Sample.completed).2.claimNext 7 workerId lockExpiresAt).1 = some claim →
        (∀ i held, Running (play Sample.completed).1 7 i held → held.commandId ≠ claim.commandId) ∧
          ∀ e ∈ (play Sample.completed).1, e.finishes ≠ some claim.commandId) :=
  have later : ∀ e ∈ (play Sample.completed).1, e.now ≤ 7 := by decide
  have h := lease_safety Sample.completed_orderly later
  ⟨h.1, h.2.1⟩

/-- A late retry lets a third worker take a command whose lease still runs, and a completed command
that is queued again is claimed again. -/
theorem late_retry_gives_second_lease :
    (QueueRun (fun _ _ _ _ => True) (play Sample.lateRetry).1 (play Sample.lateRetry).2 ∧
      ∃ first second, Running (play Sample.lateRetry).1 22 2 first ∧
        Running (play Sample.lateRetry).1 22 4 second ∧ first.commandId = second.commandId) ∧
    QueueRun (fun _ _ _ _ => True) (play Sample.queuedAgain).1 (play Sample.queuedAgain).2 ∧
      (∃ e ∈ (play Sample.queuedAgain).1, e.finishes = some "command-1") ∧
      ∃ claim, ((play Sample.queuedAgain).2.claimNext 7 "worker-2" 17).1 = some claim ∧
        claim.commandId = "command-1" := by
  refine ⟨⟨QueueRun.play _ fun _ _ _ _ => trivial, _, _,
    running_of_drop rfl (by decide) (by decide),
    running_of_drop rfl (by decide) (by decide), rfl⟩,
    QueueRun.play _ fun _ _ _ _ => trivial, by decide, _, rfl, rfl⟩

end CopilotRuntime.Queue
