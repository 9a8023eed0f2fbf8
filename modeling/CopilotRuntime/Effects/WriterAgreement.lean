import CopilotRuntime.Effects.ApprovalAuthority
import CopilotRuntime.Effects.RecordedEvents

/-!
# Where the stager and the fold agree

Stager calls that run one after another see every event that was recorded
before. A call that returns after appending an event returns the fold of the
longer history. The fold has accepted the event unless the request named a row
key that only the reader rejects.

## Implementation notes

A replay appends nothing. Replies of the ledger and the outbox may fail, in
which case the call raises and returns no state.
-/

namespace CopilotRuntime.Effects

open Foundation EffectStageFold

/-- The calls that append to an existing stage. -/
inductive WriterCall
  | revise (request : ReviseRequest) (now : String)
  | bindProjection (request : BindProjectionRequest) (now : String)
  | recordRowDecisions (request : RowDecisionsRequest) (now : String)
  | decide (request : DecideRequest) (now : String)

namespace WriterCall

def body (sha256 : String → String) : WriterCall → EffectProgram EffectStageState
  | revise request now => Effects.revise sha256 request now
  | bindProjection request now => Effects.bindProjection sha256 request now
  | recordRowDecisions request now => Effects.recordRowDecisions sha256 request now
  | decide request now => Effects.decide sha256 request now

def scope : WriterCall → EffectStageScope
  | revise request _ => request.scope
  | bindProjection request _ => request.scope
  | recordRowDecisions request _ => request.scope
  | decide request _ => request.scope

def stageId : WriterCall → String
  | revise request _ => request.stageId
  | bindProjection request _ => request.stageId
  | recordRowDecisions request _ => request.stageId
  | decide request _ => request.stageId

/-- What the request models admit. Row decisions are a mapping from row keys. -/
def Admitted : WriterCall → Prop
  | revise request _ => request.actor.errors = [] ∧ request.proposal.Valid
  | bindProjection request _ => request.actor.errors = []
  | recordRowDecisions request _ =>
      request.actor.errors = [] ∧ (request.decisions.map Prod.fst).Nodup
  | decide request _ => request.actor.errors = []

/-- Every row key the request names is one the reader accepts. -/
def Readable : WriterCall → Prop
  | revise _ _ | bindProjection _ _ => True
  | recordRowDecisions request _ => request.Readable
  | decide request _ => request.Readable

/-- What was requested is what the state holds. -/
def Present (event : StructuralEvent) (state : EffectStageState) : WriterCall → Prop
  | revise request now =>
      ∃ proposalRef, ProposalUriCodec.format request.stageId (request.expectedRevision + 1) =
        some proposalRef ∧ state.currentRevision = request.recorded proposalRef now
  | bindProjection request now =>
      state.projectionBinding = some ⟨request.revision, request.projectionRef,
        request.proposalDigest, request.targetDigest, now, event.ledgerId⟩
  | recordRowDecisions request now =>
      ∀ d ∈ request.decisions, ∃ row ∈ state.rowDecisions, row.rowKey = d.1 ∧
        row.decision.value = d.2 ∧ row.actor = request.actor ∧ row.decidedAt = now ∧
        row.ledgerId = event.ledgerId
  | decide request now =>
      state.decision = some (request.recorded now event.ledgerId) ∧
        state.status = statusOf request.decision

/-- The events of the stage a call is about. -/
def events (call : WriterCall) (w : EffectWorld) : List StructuralEvent :=
  w.ledger.stageEvents call.scope.runId call.stageId

/-- The fold has taken the appended event into the returned state. -/
structure Accepted (call : WriterCall) (w w' : EffectWorld) (event : StructuralEvent)
    (state : EffectStageState) : Prop where
  folded : fold (call.events w') = some state
  changed : ∃ old, fold (call.events w) = some old ∧ state = applyEvent old event ∧ state ≠ old
  present : call.Present event state

end WriterCall

/-- The worlds that stager calls lead to, one call after another. -/
inductive WriterHistory (sha256 : String → String) : EffectWorld → Prop
  | start {w : EffectWorld} (empty : w.ledger = StageLedger.empty) : WriterHistory sha256 w
  | staged {w w' : EffectWorld} {result : Except EffectError EffectStageState}
      (earlier : WriterHistory sha256 w) (request : StageRequest) (stageId now : String)
      (run : (stage sha256 request stageId now).Completes EffectWorld.env w result w') :
      WriterHistory sha256 w'
  | called {w w' : EffectWorld} {result : Except EffectError EffectStageState}
      (earlier : WriterHistory sha256 w) (call : WriterCall) (admitted : call.Admitted)
      (run : (call.body sha256).Completes EffectWorld.env w result w') : WriterHistory sha256 w'

section Runs
variable {sha256 : String → String} {w w' : EffectWorld} {state : EffectStageState}

theorem WriterHistory.ordered (h : WriterHistory sha256 w) : w.ledger.Ordered := by
  induction h with
  | start empty =>
      rw [empty]
      exact StageLedger.ordered_empty
  | staged _ _ _ _ run ih => exact ordered_completes run ih
  | called _ _ _ run ih => exact ordered_completes run ih

/-! ### What a completed part did -/

theorem completes_perform {α : Type} {op : EffectOp} {f : op.Reply → EffectProgram α}
    {result : Except EffectError α}
    (h : (perform op >>= f).Completes EffectWorld.env w result w') :
    ∃ reply next, EffectWorld.env op w reply next ∧
      (f reply).Completes EffectWorld.env next result w' :=
  Program.completes_await h

theorem completes_unwrapStage {α : Type} {r : Except EffectStageError α} {a : α}
    (h : (unwrapStage r).Completes EffectWorld.env w (.ok a) w') : r = .ok a ∧ w' = w := by
  cases r with
  | ok b =>
      obtain ⟨heq, hw⟩ := Program.completes_done h
      exact ⟨congrArg _ (Except.ok.inj heq).symm, hw⟩
  | error e =>
      obtain ⟨heq, _⟩ := Program.completes_raised h
      cases heq

theorem completes_unwrap {α : Type} {r : Except EffectError α} {a : α}
    (h : (unwrap r).Completes EffectWorld.env w (.ok a) w') : r = .ok a ∧ w' = w := by
  cases r with
  | ok b =>
      obtain ⟨heq, hw⟩ := Program.completes_done h
      exact ⟨congrArg _ (Except.ok.inj heq).symm, hw⟩
  | error e =>
      obtain ⟨heq, _⟩ := Program.completes_raised h
      cases heq

theorem completes_validateIdempotencyKey {key : String}
    (h : (validateIdempotencyKey key).Completes EffectWorld.env w (.ok ()) w') : w' = w := by
  unfold validateIdempotencyKey at h
  split at h
  · exact (Program.completes_done h).2
  · exact (Program.completes_raised h).2

/-- A state that was read is the fold of the stage's events. -/
theorem completes_readState {scope : EffectStageScope} {stageId : String}
    (h : (readState scope stageId).Completes EffectWorld.env w (.ok state) w') :
    w' = w ∧ fold (w.ledger.stageEvents scope.runId stageId) = some state := by
  obtain ⟨reply, next, ⟨hreply, rfl⟩, hrest⟩ := completes_perform h
  obtain ⟨events, middle, hevents, hfolded⟩ := Program.Completes.bind_ok hrest
  obtain ⟨rfl, rfl⟩ := completes_unwrap hevents
  obtain ⟨hstate, rfl⟩ := completes_unwrapStage hfolded
  refine ⟨rfl, ?_⟩
  rcases hreply with hreply | ⟨e, hreply⟩
  · obtain rfl := Except.ok.inj hreply
    exact fold_of_foldedState hstate
  · cases hreply

theorem completes_getState {scope : EffectStageScope} {stageId : String}
    (h : (getState scope stageId).Completes EffectWorld.env w (.ok state) w') :
    w' = w ∧ fold (w.ledger.stageEvents scope.runId stageId) = some state := by
  unfold getState at h
  split at h
  · exact completes_readState h
  · obtain ⟨heq, _⟩ := Program.completes_raised h
    cases heq

/-- Every call checks its key and reads the stage before anything else. -/
theorem completes_keyed {α : Type} {key : String} {p : EffectProgram EffectStageState}
    {f : EffectStageState → EffectProgram α} {a : α}
    (h : Program.Completes EffectWorld.env (validateIdempotencyKey key >>= fun _ => p >>= f) w
      (.ok a) w') :
    ∃ old next, p.Completes EffectWorld.env w (.ok old) next ∧
      (f old).Completes EffectWorld.env next (.ok a) w' := by
  obtain ⟨_, keyed, hkey, hrest⟩ := Program.Completes.bind_ok h
  rw [completes_validateIdempotencyKey hkey] at hrest
  exact Program.Completes.bind_ok hrest

/-- Handing a command to the outbox leaves the ledger alone. -/
theorem completes_enqueueApproved {r : DecideRequest} {event : StructuralEvent}
    (h : (enqueueApproved r event).Completes EffectWorld.env w (.ok ()) w') :
    w'.ledger = w.ledger := by
  unfold enqueueApproved at h
  split at h
  · split at h
    · obtain ⟨reply, next, heffect, hrest⟩ := Program.completes_await h
      obtain ⟨_, rfl⟩ := completes_unwrap hrest
      rcases heffect with ⟨_, rfl⟩ | ⟨_, _, rfl | rfl⟩ <;> rfl
    · obtain ⟨heq, _⟩ := Program.completes_raised h
      cases heq
  · rw [(Program.completes_done h).2]

/-- An acknowledged append replays an earlier event or records a new one. -/
theorem completes_append {α : Type} {scope : EffectStageScope} {draft : StageEventDraft}
    {f : StructuralEvent → EffectProgram α} {a : α}
    (h : Program.Completes EffectWorld.env
      (perform (.appendStageEvent scope draft) >>= fun reply => unwrap reply >>= f) w (.ok a) w') :
    ∃ event next, (f event).Completes EffectWorld.env next (.ok a) w' ∧
      (next.ledger = w.ledger ∨
        event.runId = scope.runId ∧ event.eventType = draft.eventType ∧
          event.payload = draft.payload ∧ w.ledger.isNext event ∧
          next.ledger = w.ledger.push draft event) := by
  obtain ⟨reply, next, ⟨l, happend, rfl⟩, hrest⟩ := completes_perform h
  obtain ⟨event, middle, hevent, hthen⟩ := Program.Completes.bind_ok hrest
  obtain ⟨rfl, rfl⟩ := completes_unwrap hevent
  refine ⟨event, _, hthen, ?_⟩
  cases happend with
  | replayed => exact .inl rfl
  | appended _ run type payload next => exact .inr ⟨run, type, payload, next, rfl⟩

/-! ### What one call recorded -/

/-- One event was appended between two folds of the stage. -/
structure Recorded (call : WriterCall) (w w' : EffectWorld) (draft : StageEventDraft)
    (event : StructuralEvent) (old state : EffectStageState) : Prop where
  before : fold (call.events w) = some old
  after : fold (call.events w') = some state
  run : event.runId = call.scope.runId
  kind : event.eventType = draft.eventType
  payload : event.payload = draft.payload
  stage : Payload.string draft.payload "stage_id" = some call.stageId
  next : w.ledger.isNext event
  ledger : w'.ledger = w.ledger.push draft event

section Recorded
variable {call : WriterCall} {draft : StageEventDraft} {event : StructuralEvent}
  {old : EffectStageState} (h : Recorded call w w' draft event old state)
include h

theorem Recorded.events : call.events w' = call.events w ++ [event] := by
  have hmine : Decidable.decide (event.runId = call.scope.runId ∧
      Payload.string event.payload "stage_id" = some call.stageId) = true := by
    rw [h.payload]
    simp [h.run, h.stage]
  rw [WriterCall.events, h.ledger, StageLedger.stageEvents, StageLedger.push, List.filter_append,
    List.filter_singleton, hmine]
  rfl

/-- The returned state is one step of the fold away. -/
theorem Recorded.step (ordered : w.ledger.Ordered) : state = applyEvent old event := by
  have hordered : (call.events w ++ [event]).Pairwise fun a b => a.sequenceNo < b.sequenceNo := by
    rw [← h.events, WriterCall.events, h.ledger]
    exact (ordered.push draft h.next).stageEvents_increasing _ _
  have hafter := h.after
  rw [h.events, fold_eq_foldl hordered, List.foldl_append,
    ← fold_eq_foldl (hordered.sublist (List.sublist_append_left _ _)), h.before] at hafter
  exact (Option.some.inj hafter).symm

theorem Recorded.stageId : old.stageId = call.stageId :=
  stageId_fold (fun _ he => (StageLedger.mem_stageEvents.mp he).2.2) h.before

/-- An event the fold ignored was not accepted. -/
theorem Recorded.not_accepted (hsame : state = old) : ¬call.Accepted w w' event state := by
  rintro ⟨_, ⟨other, hother, _, hne⟩, _⟩
  rw [h.before] at hother
  exact hne (hsame.trans (Option.some.inj hother))

theorem Recorded.accepted (ordered : w.ledger.Ordered) (hne : state ≠ old)
    (present : call.Present event state) : call.Accepted w w' event state :=
  ⟨h.after, ⟨old, h.before, h.step ordered, hne⟩, present⟩

/-- The ledger id of the appended event names none of the earlier events. -/
theorem Recorded.ledgerId_fresh (ordered : w.ledger.Ordered) {e : StructuralEvent}
    (he : e ∈ call.events w) : e.ledgerId ≠ event.ledgerId := by
  intro hid
  have hmem := h.events
  rw [WriterCall.events, h.ledger] at hmem
  have hnext := ordered.push draft h.next
  have heq := hnext.eq_of_ledgerId (a := e) (b := event)
    (by rw [hmem]; exact List.mem_append_left _ he)
    (by rw [hmem]; exact List.mem_append_right _ (List.mem_singleton.mpr rfl)) hid
  obtain ⟨hrecorded, hrun, _⟩ := StageLedger.mem_stageEvents.mp he
  have hlater := h.next.1 e hrecorded (hrun.trans h.run.symm)
  rw [heq] at hlater
  exact Nat.lt_irrefl _ hlater

end Recorded

/-- Reading, checking and appending, as every call does before it reads again. -/
theorem recorded_of_append (call : WriterCall) {draft : StageEventDraft} {event : StructuralEvent}
    {old : EffectStageState} {next : EffectWorld}
    (hbefore : fold (call.events w) = some old)
    (hstage : Payload.string draft.payload "stage_id" = some call.stageId)
    (hledger : w'.ledger = next.ledger) (hafter : fold (call.events w') = some state)
    (happend : next.ledger = w.ledger ∨ event.runId = call.scope.runId ∧
      event.eventType = draft.eventType ∧ event.payload = draft.payload ∧ w.ledger.isNext event ∧
      next.ledger = w.ledger.push draft event) :
    w'.ledger = w.ledger ∨ Recorded call w w' draft event old state := by
  rcases happend with hsame | ⟨run, kind, payload, isNext, hpush⟩
  · exact .inl (hledger.trans hsame)
  · exact .inr ⟨hbefore, hafter, run, kind, payload, hstage, isNext, hledger.trans hpush⟩

theorem recorded_revise {r : ReviseRequest} {now : String}
    (h : (revise sha256 r now).Completes EffectWorld.env w (.ok state) w') :
    w'.ledger = w.ledger ∨ ∃ proposalRef event old, admitRevision old r = .ok () ∧
      ProposalUriCodec.format r.stageId (r.expectedRevision + 1) = some proposalRef ∧
      Recorded (.revise r now) w w' (revisionDraft sha256 r proposalRef now) event old state := by
  obtain ⟨old, next, hread, hrest⟩ := completes_keyed h
  obtain ⟨rfl, hbefore⟩ := completes_getState hread
  obtain ⟨_, next, hchecked, hthen⟩ := Program.Completes.bind_ok hrest
  obtain ⟨hadmitted, rfl⟩ := completes_unwrap hchecked
  cases hformat : ProposalUriCodec.format r.stageId (r.expectedRevision + 1) with
  | none =>
      rw [hformat] at hthen
      obtain ⟨heq, _⟩ := Program.completes_raised hthen
      cases heq
  | some proposalRef =>
      rw [hformat] at hthen
      obtain ⟨event, next, hlast, happend⟩ := completes_append hthen
      obtain ⟨rfl, hafter⟩ := completes_getState hlast
      rcases recorded_of_append (.revise r now) hbefore rfl rfl hafter happend with
        hsame | hrecorded
      · exact .inl hsame
      · exact .inr ⟨proposalRef, event, old, hadmitted, rfl, hrecorded⟩

theorem recorded_recordRowDecisions {r : RowDecisionsRequest} {now : String}
    (h : (recordRowDecisions sha256 r now).Completes EffectWorld.env w (.ok state) w') :
    w'.ledger = w.ledger ∨ ∃ event old, admitRowDecisions old r = .ok () ∧
      Recorded (.recordRowDecisions r now) w w' (rowDecisionsDraft sha256 r now) event old state := by
  obtain ⟨old, next, hread, hrest⟩ := completes_keyed h
  obtain ⟨rfl, hbefore⟩ := completes_getState hread
  obtain ⟨_, next, hchecked, hthen⟩ := Program.Completes.bind_ok hrest
  obtain ⟨hadmitted, rfl⟩ := completes_unwrapStage hchecked
  obtain ⟨event, next, hlast, happend⟩ := completes_append hthen
  obtain ⟨rfl, hafter⟩ := completes_getState hlast
  rcases recorded_of_append (.recordRowDecisions r now) hbefore rfl rfl hafter happend with
    hsame | hrecorded
  · exact .inl hsame
  · exact .inr ⟨event, old, hadmitted, hrecorded⟩

theorem recorded_decide {r : DecideRequest} {now : String}
    (h : (decide sha256 r now).Completes EffectWorld.env w (.ok state) w') :
    w'.ledger = w.ledger ∨ ∃ event old, admitDecision old r = .ok true ∧
      Recorded (.decide r now) w w' (decisionDraft sha256 r now) event old state := by
  obtain ⟨old, next, hread, hrest⟩ := completes_keyed h
  obtain ⟨rfl, hbefore⟩ := completes_getState hread
  obtain ⟨fresh, next, hchecked, hthen⟩ := Program.Completes.bind_ok hrest
  obtain ⟨hadmitted, rfl⟩ := completes_unwrapStage hchecked
  cases fresh with
  | false => exact .inl (by rw [(Program.completes_done hthen).2])
  | true =>
      obtain ⟨event, next, hrecorded, happend⟩ := completes_append hthen
      obtain ⟨_, last, henqueue, hlast⟩ := Program.Completes.bind_ok hrecorded
      have hledger := completes_enqueueApproved henqueue
      obtain ⟨rfl, hafter⟩ := completes_getState hlast
      rcases recorded_of_append (.decide r now) hbefore rfl hledger hafter happend with
        hsame | hrecorded
      · exact .inl hsame
      · exact .inr ⟨event, old, hadmitted, hrecorded⟩

theorem recorded_bindProjection {r : BindProjectionRequest} {now : String}
    (h : (bindProjection sha256 r now).Completes EffectWorld.env w (.ok state) w') :
    w'.ledger = w.ledger ∨ ∃ event old, admitBinding old r = .ok true ∧
      confirmBinding state r = .ok state ∧
      Recorded (.bindProjection r now) w w' (bindingDraft sha256 r now) event old state := by
  obtain ⟨old, next, hread, hrest⟩ := completes_keyed h
  obtain ⟨rfl, hbefore⟩ := completes_readState hread
  obtain ⟨fresh, next, hchecked, hthen⟩ := Program.Completes.bind_ok hrest
  obtain ⟨hadmitted, rfl⟩ := completes_unwrapStage hchecked
  cases fresh with
  | false => exact .inl (by rw [(Program.completes_done hthen).2])
  | true =>
      obtain ⟨event, next, hrecorded, happend⟩ := completes_append hthen
      obtain ⟨bound, last, hreread, hlast⟩ := Program.Completes.bind_ok hrecorded
      obtain ⟨rfl, hafter⟩ := completes_getState hreread
      obtain ⟨hconfirm, rfl⟩ := completes_unwrapStage hlast
      have hsame : bound = state := by
        unfold confirmBinding at hconfirm
        split at hconfirm
        · cases hconfirm
        · split at hconfirm
          · exact Except.ok.inj hconfirm
          · cases hconfirm
      subst hsame
      rcases recorded_of_append (.bindProjection r now) hbefore rfl rfl hafter happend with
        hsame | hrecorded
      · exact .inl hsame
      · exact .inr ⟨event, old, hadmitted, hconfirm, hrecorded⟩

/-! ### What the fold makes of it -/

section Verdicts
variable {event : StructuralEvent} {old : EffectStageState} {now : String}

theorem Recorded.stageField {call : WriterCall} {draft : StageEventDraft}
    (h : Recorded call w w' draft event old state) :
    Payload.string event.payload "stage_id" = some old.stageId := by
  rw [h.payload, h.stage, h.stageId]

variable (ordered : w.ledger.Ordered)
include ordered

theorem accepted_revise {r : ReviseRequest} {proposalRef : String}
    (h : Recorded (.revise r now) w w' (revisionDraft sha256 r proposalRef now) event old state)
    (hadmitted : RevisionAdmitted old r) (hactor : r.actor.errors = [])
    (hvalid : r.proposal.Valid)
    (hformat : ProposalUriCodec.format r.stageId (r.expectedRevision + 1) = some proposalRef) :
    WriterCall.Accepted (.revise r now) w w' event state := by
  have hkind : event.eventType = eventRevised := h.kind
  have hread := nextRevision_recorded h.payload h.stageId hactor hvalid hformat hadmitted
  have hstep := h.step ordered
  simp only [applyEvent, hkind, h.stageField, eventRevised, eventStaged, String.reduceEq,
    if_false, ne_eq, not_true_eq_false, if_true, applyRevision, if_neg hadmitted.live, hread] at hstep
  refine h.accepted ordered ?_ ⟨proposalRef, hformat, by rw [hstep]⟩
  intro hsame
  have hrevision := revision_nextRevision hread
  rw [← hsame, hstep] at hrevision
  exact absurd hrevision (Nat.ne_of_lt (Nat.lt_succ_self _))

theorem accepted_bindProjection {r : BindProjectionRequest}
    (h : Recorded (.bindProjection r now) w w' (bindingDraft sha256 r now) event old state)
    (hadmitted : admitBinding old r = .ok true) (hconfirm : confirmBinding state r = .ok state) :
    WriterCall.Accepted (.bindProjection r now) w w' event state := by
  have hunbound := (bindingAdmitted hadmitted).1
  have hbound : state.projectionBinding ≠ none := by
    intro hnone
    simp only [confirmBinding, hnone, Option.any_none, Bool.and_false, Bool.false_eq_true,
      if_false] at hconfirm
    split at hconfirm <;> cases hconfirm
  have hstep := eventStep_applyEvent old event
  rw [← h.step ordered] at hstep
  cases hstep with
  | ignored | decided | rowsDecided => exact (hbound hunbound).elim
  | revised => exact (hbound rfl).elim
  | bound _ _ read =>
      refine h.accepted ordered ?_ (congrArg some (readBinding_recorded h.payload read))
      intro hsame
      rw [← hsame] at hunbound
      cases hunbound

theorem accepted_recordRowDecisions_iff {r : RowDecisionsRequest}
    (h : Recorded (.recordRowDecisions r now) w w' (rowDecisionsDraft sha256 r now) event old state)
    (hadmitted : RowDecisionsAdmitted old r) (hactor : r.actor.errors = [])
    (hkeys : (r.decisions.map Prod.fst).Nodup) :
    WriterCall.Accepted (.recordRowDecisions r now) w w' event state ↔ r.Readable := by
  have hkind : event.eventType = eventRowDecisions := h.kind
  have hread := readRowDecisions_recorded h.payload hactor hkeys hadmitted
  have hwaiting : (old.currentRevision.proposalKind != .rowSet || !isOpen old) = false := by
    simp [hadmitted.rowSet, hadmitted.waiting]
  have hstep : state = applyRowDecisions old event := by
    rw [h.step ordered]
    simp [applyEvent, hkind, h.stageField, eventRowDecisions, eventStaged, eventRevised,
      eventProjectionBound, eventDecision]
  rw [applyRowDecisions, hwaiting, hread] at hstep
  by_cases hreadable : r.Readable
  · refine iff_of_true ?_ hreadable
    rw [if_pos hreadable] at hstep
    have hperm : (normalizedDecisions r.decisions).Perm r.decisions := List.perm_insertionSort _ _
    have hrow : ∀ d ∈ r.decisions, r.row now event.ledgerId d ∈ state.rowDecisions := by
      intro d hd
      rw [hstep]
      exact updates_mem_mergeRowDecisions (List.mem_map_of_mem (hperm.mem_iff.mpr hd))
    refine h.accepted ordered ?_ fun d hd => ⟨_, hrow d hd, rfl, ?_, rfl, rfl, rfl⟩
    · intro hsame
      obtain ⟨d, hd⟩ := List.exists_mem_of_ne_nil _ hadmitted.named
      have hold := hrow d hd
      rw [hsame] at hold
      obtain ⟨e, he, hrecords⟩ := (sound_and_valid h.before).1.rows _ hold
      exact h.ledgerId_fresh ordered he hrecords.2.1
    · obtain ⟨posture, hparse, hvalue⟩ := RowDecision.parse_of_admitted (hadmitted.postures d hd).2
      simp [RowDecisionsRequest.row, hparse, hvalue]
  · refine iff_of_false (h.not_accepted ?_) hreadable
    rw [if_neg hreadable] at hstep
    exact hstep

theorem accepted_decide_iff {r : DecideRequest}
    (h : Recorded (.decide r now) w w' (decisionDraft sha256 r now) event old state)
    (hadmitted : DecisionAdmitted old r) (hactor : r.actor.errors = []) :
    WriterCall.Accepted (.decide r now) w w' event state ↔ r.Readable := by
  have hkind : event.eventType = eventDecision := h.kind
  have hdigests : isSha256Hex r.proposalDigest = true ∧ isSha256Hex r.targetDigest = true ∧
      1 ≤ r.revision := by
    rw [hadmitted.pins.1, hadmitted.pins.2, hadmitted.revision]
    exact digests_fold h.before
  have hread := readDecision_recorded h.payload hactor hadmitted hdigests
  have hwaiting : (!isOpen old || Decidable.decide (old.policy = .block)) = false := by
    simp [hadmitted.waiting, hadmitted.policy]
  have happlies : decisionApplies old (r.recorded now event.ledgerId) = true := by
    have hpolicy : r.actor.actor ≠ .policy ∨ old.policy = .auto := by
      by_cases hactor : r.actor.actor = .policy
      · exact .inr (hadmitted.actor hactor)
      · exact .inl hactor
    have hready : r.decision ≠ .approve ∨ old.approvalReady = true := by
      by_cases happrove : r.decision = .approve
      · exact .inr (hadmitted.ready happrove)
      · exact .inl happrove
    simp only [decisionApplies, DecideRequest.recorded, Bool.and_eq_true, beq_iff_eq, bne_iff_ne,
      Bool.or_eq_true]
    exact ⟨⟨⟨⟨⟨hadmitted.revision, hadmitted.pins.1⟩, hadmitted.pins.2⟩, hadmitted.kind⟩, hpolicy⟩, hready⟩
  have hstep : state = applyDecision old event := by
    rw [h.step ordered]
    simp [applyEvent, hkind, h.stageField, eventStaged, eventRevised, eventProjectionBound,
      eventDecision]
  rw [applyDecision, hwaiting, hread] at hstep
  by_cases hreadable : r.Readable
  · refine iff_of_true ?_ hreadable
    rw [if_pos hreadable] at hstep
    simp only [Bool.false_eq_true, if_false, happlies, if_true] at hstep
    refine h.accepted ordered ?_ ?_
    · intro hsame
      have hopen := hadmitted.waiting
      rw [← hsame, hstep] at hopen
      cases hkind : r.decision with
      | approve | reject | cancel => simp [isOpen, DecideRequest.recorded, hkind, statusOf] at hopen
      | restore => exact hadmitted.kind hkind
    · rw [hstep]
      exact ⟨rfl, rfl⟩
  · refine iff_of_false (h.not_accepted ?_) hreadable
    rw [if_neg hreadable] at hstep
    exact hstep

end Verdicts

/-- After any stager calls, a call that returns either appended nothing or appended one event, and
the fold has accepted that event exactly if every row key of the request is one the reader takes. -/
theorem writer_agrees_iff_readable {call : WriterCall} (earlier : WriterHistory sha256 w)
    (admitted : call.Admitted)
    (run : (call.body sha256).Completes EffectWorld.env w (.ok state) w') :
    w'.ledger = w.ledger ∨ ∃ draft event, w'.ledger = w.ledger.push draft event ∧
      (call.Accepted w w' event state ↔ call.Readable) := by
  have ordered := earlier.ordered
  cases call with
  | revise r now =>
      rcases recorded_revise run with hsame | ⟨_, event, old, hadmitted, hformat, h⟩
      · exact .inl hsame
      · exact .inr ⟨_, event, h.ledger, iff_of_true (accepted_revise ordered h
          (revisionAdmitted hadmitted) admitted.1 admitted.2 hformat) trivial⟩
  | bindProjection r now =>
      rcases recorded_bindProjection run with hsame | ⟨event, old, hadmitted, hconfirm, h⟩
      · exact .inl hsame
      · exact .inr ⟨_, event, h.ledger,
          iff_of_true (accepted_bindProjection ordered h hadmitted hconfirm) trivial⟩
  | recordRowDecisions r now =>
      rcases recorded_recordRowDecisions run with hsame | ⟨event, old, hadmitted, h⟩
      · exact .inl hsame
      · exact .inr ⟨_, event, h.ledger, accepted_recordRowDecisions_iff ordered h
          (rowDecisionsAdmitted hadmitted) admitted.1 admitted.2⟩
  | decide r now =>
      rcases recorded_decide run with hsame | ⟨event, old, hadmitted, h⟩
      · exact .inl hsame
      · exact .inr ⟨_, event, h.ledger,
          accepted_decide_iff ordered h (decisionAdmitted hadmitted) admitted⟩

end Runs

namespace Sample

def rowSetRequest : StageRequest :=
  { stageRequest with
    proposedEffect := { stageRequest.proposedEffect with proposalKind := .rowSet } }

/-- The world after a row-set stage was opened. -/
def rowSetWorld : EffectWorld :=
  (Program.runWith (EffectWorld.answer resolvedExternal)
    (stage (fun _ => digest) rowSetRequest stageId "t0") EffectWorld.empty).2

/-- The owner holds one row of the open stage. -/
def holdRow (rowKey : String) : WriterCall :=
  .recordRowDecisions ⟨stageScope, stageId, 1, [(rowKey, "hold")], digest, digest, owner, "rows:1"⟩
    "t1"

/-- The owner approves the given rows of the open stage. -/
def approveRows (rowKeys : List String) : WriterCall :=
  .decide { approval "decide:1" with rowKeys := some rowKeys } "t1"

/-- A row key one character longer than a recorded posture allows. -/
def longRowKey : String := String.ofList (List.replicate 257 'k')

/-- A call on the row-set stage, with the world it leaves. -/
def rowSetCall (call : WriterCall) : Except EffectError EffectStageState × EffectWorld :=
  Program.runWith (EffectWorld.answer resolvedExternal) (call.body fun _ => digest) rowSetWorld

/-- The call returns the stage as it was before, and has recorded an event. -/
def returnsUnchanged (call : WriterCall) : Bool :=
  match rowSetCall call with
  | (.ok state, w') =>
      w'.ledger.events.length == rowSetWorld.ledger.events.length + 1 &&
        fold (call.events rowSetWorld) == some state
  | (.error _, _) => false

theorem rowSetHistory : WriterHistory (fun _ => digest) rowSetWorld := by
  have hstaged : rowSetWorld = stagedWorld rowSetRequest := rfl
  rw [hstaged, stagedWorld_eq]
  exact .staged (.start (w := EffectWorld.empty) rfl) rowSetRequest stageId "t0"
    (Program.completes_runWith (EffectWorld.answer_sound _) _ _)

theorem rowSetRun (call : WriterCall) :
    (call.body fun _ => digest).Completes EffectWorld.env rowSetWorld (rowSetCall call).1
      (rowSetCall call).2 :=
  Program.completes_runWith (EffectWorld.answer_sound _) _ _

/-- The call reports success for an event that the fold has not accepted. -/
def Ignored (call : WriterCall) : Prop :=
  call.Admitted ∧ ∃ state w',
    (call.body fun _ => digest).Completes EffectWorld.env rowSetWorld (.ok state) w' ∧
      w'.ledger.events.length = rowSetWorld.ledger.events.length + 1 ∧
      fold (call.events rowSetWorld) = some state ∧
      ∀ event, ¬call.Accepted rowSetWorld w' event state

theorem ignored_of_returnsUnchanged {call : WriterCall} (admitted : call.Admitted)
    (hsame : returnsUnchanged call = true) : Ignored call := by
  have hrun := rowSetRun call
  unfold returnsUnchanged at hsame
  split at hsame
  · next state w' hcall =>
      rw [hcall] at hrun
      simp only [Bool.and_eq_true, beq_iff_eq] at hsame
      refine ⟨admitted, state, w', hrun, hsame.1, hsame.2, ?_⟩
      rintro event ⟨_, ⟨old, hold, _, hne⟩, _⟩
      rw [hsame.2] at hold
      exact hne (Option.some.inj hold)
  · cases hsame

/-- A posture of a short key is accepted, and two unreadable ones are recorded in vain. -/
def rowSetCallOutcomes :
    PLift ((rowSetCall (holdRow "row-1")).1.toOption.isSome = true ∧
      returnsUnchanged (holdRow longRowKey) = true ∧ returnsUnchanged (approveRows [""]) = true) :=
  ⟨by decide +kernel, by decide +kernel, by decide +kernel⟩

theorem owner_valid : owner.errors = [] := by decide +kernel

end Sample

/-- Holding a row with a short key returns the stage with that posture. -/
theorem writer_agrees_iff_readable_sample :
    ∃ state w', ((Sample.holdRow "row-1").body fun _ => Sample.digest).Completes EffectWorld.env
        Sample.rowSetWorld (.ok state) w' ∧ (Sample.holdRow "row-1").Readable ∧
      (w'.ledger = Sample.rowSetWorld.ledger ∨ ∃ draft event,
        w'.ledger = Sample.rowSetWorld.ledger.push draft event ∧
          ((Sample.holdRow "row-1").Accepted Sample.rowSetWorld w' event state ↔
            (Sample.holdRow "row-1").Readable)) := by
  have hok := Sample.rowSetCallOutcomes.down.1
  have hreadable : (Sample.holdRow "row-1").Readable := by
    intro d hd
    obtain rfl := List.mem_singleton.mp hd
    decide +kernel
  have hrun := Sample.rowSetRun (Sample.holdRow "row-1")
  cases hresult : (Sample.rowSetCall (Sample.holdRow "row-1")).1 with
  | error e =>
      rw [hresult] at hok
      cases hok
  | ok state =>
      rw [hresult] at hrun
      exact ⟨state, _, hrun, hreadable,
        writer_agrees_iff_readable Sample.rowSetHistory
          ⟨Sample.owner_valid, List.nodup_singleton _⟩ hrun⟩

/-- Holding a row with a long key, and approving a row with an empty key, return the stage as it
was, after recording an event that the fold ignores; the approval's command is enqueued. -/
theorem unreadable_rows_are_ignored :
    WriterHistory (fun _ => Sample.digest) Sample.rowSetWorld ∧
      Sample.Ignored (Sample.holdRow Sample.longRowKey) ∧
      Sample.Ignored (Sample.approveRows [""]) := by
  refine ⟨Sample.rowSetHistory, ?_, ?_⟩
  · exact Sample.ignored_of_returnsUnchanged ⟨Sample.owner_valid, List.nodup_singleton _⟩
      Sample.rowSetCallOutcomes.down.2.1
  · exact Sample.ignored_of_returnsUnchanged Sample.owner_valid
      Sample.rowSetCallOutcomes.down.2.2

end CopilotRuntime.Effects
