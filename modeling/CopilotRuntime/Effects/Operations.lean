import CopilotRuntime.Effects.Claims
import CopilotRuntime.Effects.Fold
import CopilotRuntime.Effects.WriteLane
import CopilotRuntime.Foundation.Interleaving

/-!
# Operations of the effect lane

Every call the lane awaits is one operation: the claim store, the executor,
the stage ledger, the command outbox, and the ports that resolve trusted
facts. Staged writes share the claim store and the executors, and add their
run's ledger and the commit queue. The environment says which replies an operation may get and what it
does to the shared stores.

## Implementation notes

A ledger append may replay an earlier append of the same key, append a new
event at a later position, or fail; a failing append or enqueue may or may not
have taken effect. Looking up an executor is synchronous in the source; as an
operation it only admits more interleavings.
-/

namespace CopilotRuntime.Effects

open Foundation StagedWrites

inductive EffectStageError
  | notFound | forbidden | staleRevision | invalidTransition | digestMismatch | immutableTarget
  | policyBlocked | notStageable | idempotencyConflict | malformedEvent | projectionUnbound
  deriving DecidableEq

/-- What a program of the effect lane may raise. -/
inductive EffectError
  | claim (error : EffectClaimError)
  | stage (error : EffectStageError)
  | stagedWrite (error : StagedWriteError)
  | validation (errors : List FieldError)
  | external (reason : String)

/-- One semantic append request to the stage ledger. -/
structure StageEventDraft where
  eventType : String
  payload : Payload
  idempotencyKey : String
  requestFingerprint : String

inductive EffectOp
  | claimGet (key : ClaimKey)
  | claimGetByClaimId (orgId claimId : String)
  | claimCreate (claim : EffectClaim)
  | claimUpdate (claim : EffectClaim)
  | prepare (executor : EffectExecutor) (request : EffectDispatchRequest)
  | authorize (executor : EffectExecutor) (prepared : PreparedEffect)
  | apply (executor : EffectExecutor) (prepared : PreparedEffect)
  | reconcile (executor : EffectExecutor) (claim : EffectClaim)
  | abort (executor : EffectExecutor) (prepared : PreparedEffect)
  | observe (scope : EffectExecutionScope) (claim : EffectClaim)
  | cancellation (scope : EffectExecutionScope) (request : EffectDispatchRequest)
  | isCancelled (scope : EffectExecutionScope) (command : EffectCommitCommand)
  | resolveScope (runId : String)
  | resolveExecutor (kind : EffectExecutorKind) (scope : EffectExecutionScope)
  | digestReference (scope : EffectExecutionScope) (reference : String)
  | listStageEvents (scope : EffectStageScope) (stageId : String)
  | appendStageEvent (scope : EffectStageScope) (draft : StageEventDraft)
  | enqueueAfterDecision (command : EffectCommitCommand)
  | audit (action : String) (facts : Payload)
  | getRun (orgId runId : String)
  | listWriteEvents (orgId runId : String)
  | emitWriteEvent (run : RunRecord) (draft : WriteDraft)
  | enqueueStageCommit (command : StageCommitCommand)

/-- The reply of each operation. A reply that may be an exception is an `Except`. -/
def EffectOp.Reply : EffectOp → Type
  | claimGet _ => Option EffectClaim
  | claimGetByClaimId _ _ => Option EffectClaim
  | claimCreate _ => Except EffectClaimError EffectClaimAcquisition
  | claimUpdate _ => Except EffectClaimError EffectClaim
  | prepare _ _ => Except EffectError PreparedEffect
  | authorize _ _ => Except EffectError (Option EffectExecutionAuthorization)
  | apply _ _ => Except EffectError EffectExecutionResult
  | reconcile _ _ => Except EffectError EffectExecutionResult
  | abort _ _ => Except EffectError Unit
  | observe _ _ => Except EffectError Unit
  | cancellation _ _ => Except EffectError Bool
  | isCancelled _ _ => Except EffectError Bool
  | resolveScope _ => Except EffectError (Option EffectExecutionScope)
  | resolveExecutor _ _ => Except EffectError EffectExecutor
  | digestReference _ _ => Option String
  | listStageEvents _ _ => Except EffectError (List StructuralEvent)
  | appendStageEvent _ _ => Except EffectError StructuralEvent
  | enqueueAfterDecision _ => Except EffectError Unit
  | audit _ _ => Except EffectError Unit
  | getRun _ _ => Except EffectError (Option RunRecord)
  | listWriteEvents _ _ => Except EffectError (List WriteEvent)
  | emitWriteEvent _ _ => Except EffectError WriteEvent
  | enqueueStageCommit _ => Except EffectError Unit

abbrev EffectProgram := Program EffectOp EffectOp.Reply EffectError

/-- Await one operation of the lane. -/
def perform (op : EffectOp) : EffectProgram op.Reply := Program.request op

@[simp] theorem perform_bind {α : Type} (op : EffectOp) (f : op.Reply → EffectProgram α) :
    (perform op >>= f) = .await op f := rfl

/-- Continue with the value of a reply, or raise its error. -/
def unwrap {α : Type} (reply : Except EffectError α) : EffectProgram α := Program.ofExcept reply

/-- Continue with the value of a claim-store reply, or raise its error. -/
def unwrapClaim {α : Type} : Except EffectClaimError α → EffectProgram α
  | .ok a => .done a
  | .error e => .raised (.claim e)

@[simp] theorem unwrap_ok {α : Type} (a : α) : unwrap (.ok a) = .done a := rfl

@[simp] theorem unwrap_error {α : Type} (e : EffectError) :
    (unwrap (.error e) : EffectProgram α) = .raised e := rfl

@[simp] theorem unwrapClaim_ok {α : Type} (a : α) : unwrapClaim (.ok a) = .done a := rfl

section Footprint
variable {allowed : EffectOp → Prop}

theorem onlyAwaits_unwrap {α : Type} (reply : Except EffectError α) :
    (unwrap reply).OnlyAwaits allowed :=
  Program.onlyAwaits_ofExcept reply

theorem onlyAwaits_unwrapClaim {α : Type} (reply : Except EffectClaimError α) :
    (unwrapClaim reply).OnlyAwaits allowed := by
  cases reply with
  | ok a => exact .done a
  | error e => exact .raised _

theorem onlyAwaits_perform_bind {α : Type} {op : EffectOp} {f : op.Reply → EffectProgram α}
    (h : allowed op) (hf : ∀ reply, (f reply).OnlyAwaits allowed) :
    (perform op >>= f).OnlyAwaits allowed := .await h hf

end Footprint

/-- The append-only stage ledger: its events in order, and the request bound to each key. -/
structure StageLedger where
  events : List StructuralEvent
  bindings : List ((String × String) × String × StructuralEvent)

namespace StageLedger

def empty : StageLedger := ⟨[], []⟩

/-- The events of one stage of one run. -/
def stageEvents (l : StageLedger) (runId stageId : String) : List StructuralEvent :=
  l.events.filter fun e => e.runId = runId ∧ Payload.string e.payload "stage_id" = some stageId

/-- The fingerprint and event bound to an idempotency key of a run. -/
def binding (l : StageLedger) (runId key : String) : Option (String × StructuralEvent) :=
  (l.bindings.find? fun b => b.1 = (runId, key)).map fun b => b.2

/-- An event stands later in its run than everything recorded so far. -/
def isNext (l : StageLedger) (event : StructuralEvent) : Prop :=
  (∀ e ∈ l.events, e.runId = event.runId → e.sequenceNo < event.sequenceNo) ∧
    LedgerIdCodec.format event.runId event.sequenceNo = some event.ledgerId

def push (l : StageLedger) (draft : StageEventDraft) (event : StructuralEvent) : StageLedger :=
  ⟨l.events ++ [event],
    l.bindings ++ [((event.runId, draft.idempotencyKey), draft.requestFingerprint, event)]⟩

/-- The possible outcomes of one append. -/
inductive Append (l : StageLedger) (scope : EffectStageScope) (draft : StageEventDraft) :
    Except EffectError StructuralEvent → StageLedger → Prop
  | replayed {event : StructuralEvent}
      (bound : l.binding scope.runId draft.idempotencyKey =
        some (draft.requestFingerprint, event)) :
      Append l scope draft (.ok event) l
  | appended {event : StructuralEvent}
      (free : l.binding scope.runId draft.idempotencyKey = none)
      (run : event.runId = scope.runId) (type : event.eventType = draft.eventType)
      (payload : event.payload = draft.payload) (next : l.isNext event) :
      Append l scope draft (.ok event) (l.push draft event)
  | unacknowledged {event : StructuralEvent} {error : EffectError}
      (free : l.binding scope.runId draft.idempotencyKey = none)
      (run : event.runId = scope.runId) (type : event.eventType = draft.eventType)
      (payload : event.payload = draft.payload) (next : l.isNext event) :
      Append l scope draft (.error error) (l.push draft event)
  | failed (error : EffectError) : Append l scope draft (.error error) l

/-- An append leaves the ledger alone or adds one later event of the run. -/
theorem Append.events_cases {l l' : StageLedger} {scope : EffectStageScope}
    {draft : StageEventDraft} {reply : Except EffectError StructuralEvent}
    (h : Append l scope draft reply l') :
    l' = l ∨ ∃ event, event.runId = scope.runId ∧ l.isNext event ∧
      event.eventType = draft.eventType ∧ event.payload = draft.payload ∧
      l' = l.push draft event := by
  cases h with
  | replayed _ => exact .inl rfl
  | @appended event _ run type payload next =>
      exact .inr ⟨event, run, next, type, payload, rfl⟩
  | @unacknowledged event _ _ run type payload next =>
      exact .inr ⟨event, run, next, type, payload, rfl⟩
  | failed _ => exact .inl rfl

/-- The first position after everything recorded for a run. -/
def nextSequence (l : StageLedger) (runId : String) : Nat :=
  ((l.events.filter fun e => e.runId = runId).map fun e => e.sequenceNo).foldr max 0 + 1

/-- Append at the next position, or replay the event already bound to the key. -/
def append (l : StageLedger) (scope : EffectStageScope) (draft : StageEventDraft) :
    Except EffectError StructuralEvent × StageLedger :=
  match l.binding scope.runId draft.idempotencyKey with
  | some (fingerprint, event) =>
      if fingerprint = draft.requestFingerprint then (.ok event, l)
      else (.error (.stage .idempotencyConflict), l)
  | none =>
      match LedgerIdCodec.format scope.runId (l.nextSequence scope.runId) with
      | none => (.error (.external "ledger id"), l)
      | some ledgerId =>
          let event : StructuralEvent := {
            runId := scope.runId
            ledgerId
            sequenceNo := l.nextSequence scope.runId
            eventType := draft.eventType
            payload := draft.payload
            createdAt := "" }
          (.ok event, l.push draft event)

theorem lt_nextSequence {l : StageLedger} {e : StructuralEvent} (h : e ∈ l.events) :
    e.sequenceNo < l.nextSequence e.runId := by
  have hmem : e.sequenceNo ∈
      (l.events.filter fun x => x.runId = e.runId).map fun x => x.sequenceNo :=
    List.mem_map_of_mem (by simpa using h)
  exact Nat.lt_succ_of_le (List.le_max_of_le' 0 hmem (Nat.le_refl _))

/-- Appending at the next position is one of the possible outcomes. -/
theorem append_sound (l : StageLedger) (scope : EffectStageScope) (draft : StageEventDraft) :
    Append l scope draft (l.append scope draft).1 (l.append scope draft).2 := by
  unfold append
  cases hbound : l.binding scope.runId draft.idempotencyKey with
  | some bound =>
      obtain ⟨fingerprint, event⟩ := bound
      dsimp only
      split
      · next h =>
          subst h
          exact .replayed hbound
      · exact .failed _
  | none =>
      dsimp only
      split
      · exact .failed _
      · next id hid =>
          refine .appended hbound rfl rfl rfl ⟨?_, hid⟩
          rintro e he heq
          dsimp only at heq ⊢
          exact heq ▸ lt_nextSequence he

end StageLedger

/-- The stores all tasks of the lane share. -/
structure EffectWorld where
  claims : InMemoryEffectClaimStore
  ledger : StageLedger
  outbox : List EffectCommitCommand
  writes : WriteLedger
  commitQueue : List StageCommitCommand

def EffectWorld.empty : EffectWorld :=
  ⟨InMemoryEffectClaimStore.empty, StageLedger.empty, [], WriteLedger.empty, []⟩

/-- Which reply an operation may get in a world, and the world it leaves. -/
def EffectWorld.env : (op : EffectOp) → EffectWorld → op.Reply → EffectWorld → Prop
  | .claimGet key, w, reply, w' => reply = w.claims.get key ∧ w' = w
  | .claimGetByClaimId orgId claimId, w, reply, w' =>
      reply = w.claims.getByClaimId orgId claimId ∧ w' = w
  | .claimCreate claim, w, reply, w' =>
      reply = (w.claims.claim claim).1 ∧ w' = { w with claims := (w.claims.claim claim).2 }
  | .claimUpdate claim, w, reply, w' =>
      reply = (w.claims.update claim).1 ∧ w' = { w with claims := (w.claims.update claim).2 }
  | .listStageEvents scope stageId, w, reply, w' =>
      (reply = .ok (w.ledger.stageEvents scope.runId stageId) ∨ ∃ e, reply = .error e) ∧ w' = w
  | .appendStageEvent scope draft, w, reply, w' =>
      ∃ l, StageLedger.Append w.ledger scope draft reply l ∧ w' = { w with ledger := l }
  | .enqueueAfterDecision command, w, reply, w' =>
      (reply = .ok () ∧ w' = { w with outbox := w.outbox ++ [command] }) ∨
        ∃ e, reply = .error e ∧
          (w' = w ∨ w' = { w with outbox := w.outbox ++ [command] })
  | .prepare _ _, w, _, w' => w' = w
  | .authorize _ _, w, _, w' => w' = w
  | .apply _ _, w, _, w' => w' = w
  | .reconcile _ _, w, _, w' => w' = w
  | .abort _ _, w, _, w' => w' = w
  | .observe _ _, w, _, w' => w' = w
  | .cancellation _ _, w, _, w' => w' = w
  | .isCancelled _ _, w, _, w' => w' = w
  | .resolveScope _, w, _, w' => w' = w
  | .resolveExecutor _ _, w, _, w' => w' = w
  | .digestReference _ _, w, _, w' => w' = w
  | .audit _ _, w, _, w' => w' = w
  | .getRun orgId runId, w, reply, w' =>
      (∀ run, reply = .ok (some run) → run.orgId = orgId ∧ run.runId = runId) ∧ w' = w
  | .listWriteEvents _ runId, w, reply, w' =>
      (reply = .ok (w.writes.runEvents runId) ∨ ∃ e, reply = .error e) ∧ w' = w
  | .emitWriteEvent run draft, w, reply, w' =>
      (∃ event : WriteEvent, event.runId = run.runId ∧ event.eventType = draft.eventType ∧
          event.payload = draft.payload ∧ w.writes.isNext event ∧
          w' = { w with writes := w.writes.push event } ∧
          (reply = .ok event ∨ ∃ e, reply = .error e)) ∨
        (∃ e, reply = .error e) ∧ w' = w
  | .enqueueStageCommit command, w, reply, w' =>
      (reply = .ok () ∧ w' = { w with commitQueue := w.commitQueue ++ [command] }) ∨
        ∃ e, reply = .error e ∧
          (w' = w ∨ w' = { w with commitQueue := w.commitQueue ++ [command] })

/-- A looked-up run is the one with the given ids. -/
def foundRun (orgId runId : String) (reply : Except EffectError (Option RunRecord)) :
    Except EffectError (Option RunRecord) :=
  reply.map fun found => found.filter fun run => run.orgId = orgId ∧ run.runId = runId

theorem eq_of_foundRun {orgId runId : String} {reply : Except EffectError (Option RunRecord)}
    {run : RunRecord} (h : foundRun orgId runId reply = .ok (some run)) :
    run.orgId = orgId ∧ run.runId = runId := by
  cases reply with
  | error e => cases h
  | ok found => simpa using (Option.filter_eq_some_iff.mp (Except.ok.inj h)).2

/-- Answer an operation on the stores from the world and any other one as given. -/
def EffectWorld.answer (external : (op : EffectOp) → op.Reply) :
    (op : EffectOp) → EffectWorld → op.Reply × EffectWorld
  | .claimGet key, w => (w.claims.get key, w)
  | .claimGetByClaimId orgId claimId, w => (w.claims.getByClaimId orgId claimId, w)
  | .claimCreate claim, w => ((w.claims.claim claim).1, { w with claims := (w.claims.claim claim).2 })
  | .claimUpdate claim, w =>
      ((w.claims.update claim).1, { w with claims := (w.claims.update claim).2 })
  | .listStageEvents scope stageId, w => (.ok (w.ledger.stageEvents scope.runId stageId), w)
  | .appendStageEvent scope draft, w =>
      ((w.ledger.append scope draft).1, { w with ledger := (w.ledger.append scope draft).2 })
  | .enqueueAfterDecision command, w => (.ok (), { w with outbox := w.outbox ++ [command] })
  | .getRun orgId runId, w =>
      (foundRun orgId runId (external (.getRun orgId runId)), w)
  | .listWriteEvents _ runId, w => (.ok (w.writes.runEvents runId), w)
  | .emitWriteEvent run draft, w =>
      (.ok (w.writes.next run.runId draft),
        { w with writes := w.writes.push (w.writes.next run.runId draft) })
  | .enqueueStageCommit command, w => (.ok (), { w with commitQueue := w.commitQueue ++ [command] })
  | op, w => (external op, w)

/-- Every such answer is one the environment admits. -/
theorem EffectWorld.answer_sound (external : (op : EffectOp) → op.Reply) (op : EffectOp)
    (w : EffectWorld) :
    EffectWorld.env op w (EffectWorld.answer external op w).1
      (EffectWorld.answer external op w).2 := by
  cases op with
  | claimGet key => exact ⟨rfl, rfl⟩
  | claimGetByClaimId orgId claimId => exact ⟨rfl, rfl⟩
  | claimCreate claim => exact ⟨rfl, rfl⟩
  | claimUpdate claim => exact ⟨rfl, rfl⟩
  | listStageEvents scope stageId => exact ⟨.inl rfl, rfl⟩
  | appendStageEvent scope draft => exact ⟨_, StageLedger.append_sound _ _ _, rfl⟩
  | enqueueAfterDecision command => exact .inl ⟨rfl, rfl⟩
  | getRun orgId runId =>
      exact ⟨fun _ => eq_of_foundRun, rfl⟩
  | listWriteEvents orgId runId => exact ⟨.inl rfl, rfl⟩
  | emitWriteEvent run draft =>
      exact .inl ⟨_, rfl, rfl, rfl, WriteLedger.isNext_next _ _ _, rfl, .inl rfl⟩
  | enqueueStageCommit command => exact .inl ⟨rfl, rfl⟩
  | _ => exact rfl

end CopilotRuntime.Effects
