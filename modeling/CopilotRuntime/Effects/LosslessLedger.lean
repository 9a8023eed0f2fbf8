import CopilotRuntime.Effects.LedgerRequests
import CopilotRuntime.Effects.WriterAgreement

/-!
# What the run-bound ledger keeps of the stager's events

Stager calls run one after another through the run-bound ledger, over any runs
and stages, between other events of the same streams. If every built event
fits the ledger, the listing of a stage holds exactly the events built for it,
in order, and folds to the same state.

## Implementation notes

A world records every append beside the event store, so that built and stored
events can be compared. The clock readings, the generated stage id and the
replies of the outbox are given with each call.
-/

namespace CopilotRuntime.Effects

open Foundation EffectStageFold RuntimeEffectLedger

/-- One append to a run's ledger and the reply it got. -/
structure StageAppend where
  runId : String
  draft : StageEventDraft
  result : Except EffectError StructuralEvent

/-- The event store and the appends made so far, oldest first. -/
structure LedgerWorld where
  store : RuntimeEventStore
  appends : List StageAppend

def LedgerWorld.empty : LedgerWorld := ⟨[], []⟩

inductive StagerOperation
  | stage (request : StageRequest) (stageId : String)
  | bindProjection (request : BindProjectionRequest)
  | revise (request : ReviseRequest)
  | recordRowDecisions (request : RowDecisionsRequest)
  | decide (request : DecideRequest)

/-- One operation of a stager that is bound to a run's ledger. -/
structure LedgerCall where
  ledger : RuntimeEffectLedger
  operation : StagerOperation
  now : String
  createdAt : String

namespace LedgerCall

def body (sha256 : String → String) (c : LedgerCall) : EffectProgram EffectStageState :=
  match c.operation with
  | .stage request stageId => Effects.stage sha256 request stageId c.now
  | .bindProjection request => Effects.bindProjection sha256 request c.now
  | .revise request => Effects.revise sha256 request c.now
  | .recordRowDecisions request => Effects.recordRowDecisions sha256 request c.now
  | .decide request => Effects.decide sha256 request c.now

/-- What the request models admit. Row decisions are a mapping from row keys. -/
def Admitted (c : LedgerCall) : Prop :=
  match c.operation with
  | .stage request _ =>
      request.scope.errors = [] ∧ request.actor.errors = [] ∧ request.proposedEffect.Valid
  | .bindProjection request => request.scope.errors = [] ∧ request.actor.errors = []
  | .revise request =>
      request.scope.errors = [] ∧ request.actor.errors = [] ∧ request.proposal.Valid
  | .recordRowDecisions request =>
      request.scope.errors = [] ∧ request.actor.errors = [] ∧
        (request.decisions.map Prod.fst).Nodup
  | .decide request => request.scope.errors = [] ∧ request.actor.errors = []

/-- The ledger makes none of its own objections to the request: its run has ledger ids, the
request is one of that run and owner, its fields fit, and it records no row decisions. -/
def Fits (c : LedgerCall) : Prop :=
  (LedgerIdCodec.format c.ledger.runId 1).isSome = true ∧
    match c.operation with
    | .stage request _ =>
        request.scope.runId = c.ledger.runId ∧ request.scope.ownerRef = c.ledger.ownerRef ∧
          request.ledgerErrors c.now = []
    | .bindProjection request => request.ledgerErrors c.now = []
    | .revise request => request.ledgerErrors c.now = []
    | .recordRowDecisions _ => False
    | .decide request => request.ledgerErrors c.now = []

end LedgerCall

/-- The stage a bound stager reads from the store. -/
def RuntimeEffectLedger.readState (l : RuntimeEffectLedger) (s : RuntimeEventStore)
    (scope : EffectStageScope) (stageId : String) : Except EffectError EffectStageState := do
  let events ← l.listStageEvents s scope stageId
  (foldedState scope events).mapError .stage

section Calls
variable (sha256 : String → String)

/-- Append one draft and record the reply. -/
def LedgerWorld.append (w : LedgerWorld) (c : LedgerCall) (scope : EffectStageScope)
    (draft : StageEventDraft) : Except EffectError StructuralEvent × LedgerWorld :=
  let reply := c.ledger.appendStageEvent sha256 w.store c.createdAt scope draft
  (reply.1, ⟨reply.2, w.appends ++ [⟨c.ledger.runId, draft, reply.1⟩]⟩)

/-- Answer the stager's ledger calls from the store, and any other one as given. -/
def LedgerWorld.answer (external : (op : EffectOp) → op.Reply) (c : LedgerCall) :
    (op : EffectOp) → LedgerWorld → op.Reply × LedgerWorld
  | .listStageEvents scope stageId, w => (c.ledger.listStageEvents w.store scope stageId, w)
  | .appendStageEvent scope draft, w => w.append sha256 c scope draft
  | op, w => (external op, w)

/-- Run one call alone. -/
def LedgerCall.perform (external : (op : EffectOp) → op.Reply) (c : LedgerCall) (w : LedgerWorld) :
    Except EffectError EffectStageState × LedgerWorld :=
  Program.runWith (LedgerWorld.answer sha256 external c) (c.body sha256) w

/-- The draft that `stage` appends. -/
def stagedDraft (r : StageRequest) (stageId proposalRef : String) (policy : EffectPolicy)
    (now : String) : StageEventDraft where
  eventType := eventStaged
  payload := stagedPayload r stageId proposalRef policy.value now
  idempotencyKey := r.idempotencyKey
  requestFingerprint := fingerprint sha256 "stage"
    [("scope", scopeJson r.scope), ("proposed_effect", proposedEffectJson r.proposedEffect),
      ("policy_snapshot", snapshotJson r.policySnapshot), ("actor", actorJson r.actor)]

/-- The event an admitted call builds from the stage it has read. -/
inductive Builds (c : LedgerCall) (s : RuntimeEventStore) :
    EffectStageScope → StageEventDraft → Prop
  | stage {r : StageRequest} {stageId proposalRef : String} {policy : EffectPolicy}
      (operation : c.operation = .stage r stageId) (admitted : admitProposal r = .ok policy)
      (format : ProposalUriCodec.format stageId 1 = some proposalRef) :
      Builds c s r.scope (stagedDraft sha256 r stageId proposalRef policy c.now)
  | bindProjection {r : BindProjectionRequest} {state : EffectStageState}
      (operation : c.operation = .bindProjection r)
      (read : c.ledger.readState s r.scope r.stageId = .ok state)
      (admitted : admitBinding state r = .ok true) :
      Builds c s r.scope (bindingDraft sha256 r c.now)
  | revise {r : ReviseRequest} {state : EffectStageState} {proposalRef : String}
      (operation : c.operation = .revise r)
      (read : c.ledger.readState s r.scope r.stageId = .ok state)
      (admitted : admitRevision state r = .ok ())
      (format : ProposalUriCodec.format r.stageId (r.expectedRevision + 1) = some proposalRef) :
      Builds c s r.scope (revisionDraft sha256 r proposalRef c.now)
  | recordRowDecisions {r : RowDecisionsRequest} {state : EffectStageState}
      (operation : c.operation = .recordRowDecisions r)
      (read : c.ledger.readState s r.scope r.stageId = .ok state)
      (admitted : admitRowDecisions state r = .ok ()) :
      Builds c s r.scope (rowDecisionsDraft sha256 r c.now)
  | decide {r : DecideRequest} {state : EffectStageState} (operation : c.operation = .decide r)
      (read : c.ledger.readState s r.scope r.stageId = .ok state)
      (admitted : admitDecision state r = .ok true) :
      Builds c s r.scope (decisionDraft sha256 r c.now)

/-- An event that another part of the runtime appends to a run's stream. -/
structure OtherEvent where
  draft : RuntimeEventDraft
  createdAt : String
  notEffect : draft.eventType ∉ effectEventTypes
  foreign : Text.startsWith draft.eventId "effevt_" = false

/-- The worlds that calls with a property lead to, one after another, between other events. -/
inductive LedgerRun (ok : LedgerCall → LedgerWorld → Prop) : LedgerWorld → Prop
  | start : LedgerRun ok LedgerWorld.empty
  | called {w : LedgerWorld} (earlier : LedgerRun ok w) (external : (op : EffectOp) → op.Reply)
      (c : LedgerCall) (admitted : c.Admitted) (orderly : ok c w) :
      LedgerRun ok (c.perform sha256 external w).2
  | other {w : LedgerWorld} (earlier : LedgerRun ok w) (e : OtherEvent) :
      LedgerRun ok { w with store := (w.store.appendEvent e.draft e.createdAt).2 }

/-- A call that builds an event fits the ledger, and reuses the key of an earlier append of
its run only for the same append. -/
def Orderly (c : LedgerCall) (w : LedgerWorld) : Prop :=
  ∀ scope draft, Builds sha256 c w.store scope draft → c.Fits ∧
    ∀ a ∈ w.appends, a.runId = c.ledger.runId →
      eventId sha256 a.runId a.draft.idempotencyKey =
        eventId sha256 c.ledger.runId draft.idempotencyKey →
      a.draft.eventType = draft.eventType ∧ a.draft.payload = draft.payload ∧
        a.draft.requestFingerprint = draft.requestFingerprint

end Calls

/-! ### Losing nothing -/

/-- The accepted event as the stager built it. -/
def StageAppend.builtEvent (a : StageAppend) : Option StructuralEvent :=
  match a.result with
  | .ok event => some { event with payload := a.draft.payload }
  | .error _ => none

namespace LedgerWorld

/-- The events built so far, each once, at the place of its first append. -/
def builtEvents (w : LedgerWorld) : List StructuralEvent :=
  (w.appends.filterMap StageAppend.builtEvent).eraseDups

/-- The event belongs to a stage of a run. -/
def isOf (runId stageId : String) (e : StructuralEvent) : Bool :=
  e.runId == runId && Payload.string e.payload "stage_id" == some stageId

/-- The events built for one stage of a run, in append order. -/
def ownEvents (w : LedgerWorld) (runId stageId : String) : List StructuralEvent :=
  w.builtEvents.filter (isOf runId stageId)

/-- Nothing the stagers built is lost, reordered, misfiled or doubled. -/
structure Lossless (sha256 : String → String) (w : LedgerWorld) : Prop where
  accepted : ∀ a ∈ w.appends, ∃ event, a.result = .ok event
  listed : ∀ (l : RuntimeEffectLedger) (scope : EffectStageScope) (stageId : String),
    l.assertScope scope = .ok () → ∃ events, l.listStageEvents w.store scope stageId = .ok events ∧
      List.Forall₂ Carries (w.ownEvents scope.runId stageId) events ∧
      fold events = fold (w.ownEvents scope.runId stageId)
  retried : ∀ a ∈ w.appends, ∀ b ∈ w.appends, a.runId = b.runId →
    a.draft.idempotencyKey = b.draft.idempotencyKey → a.result = b.result
  once : ∀ runId key, ((w.store.ofRun runId).filter fun e =>
    e.eventId = eventId sha256 runId key).length ≤ 1

end LedgerWorld

/-! ### What one call does -/

section Steps
variable {sha256 : String → String} {external : (op : EffectOp) → op.Reply} {c : LedgerCall}
  {w : LedgerWorld}

/-- An operation that is no append. -/
def NoAppend : EffectOp → Prop
  | .appendStageEvent _ _ => False
  | _ => True

theorem runWith_of_noAppend {α : Type} {p : EffectProgram α} (h : p.OnlyAwaits NoAppend)
    (w : LedgerWorld) : (Program.runWith (LedgerWorld.answer sha256 external c) p w).2 = w := by
  induction h generalizing w with
  | done a => rfl
  | raised e => rfl
  | @await op resume permitted _ ih =>
      rw [Program.runWith_await, ih]
      cases op with
      | appendStageEvent scope draft => exact permitted.elim
      | _ => rfl

/-- A first part that appends nothing ends the program or hands its value on. -/
theorem runWith_bind_cases {α β : Type} {p : EffectProgram α} (h : p.OnlyAwaits NoAppend)
    (f : α → EffectProgram β) (w : LedgerWorld) :
    (Program.runWith (LedgerWorld.answer sha256 external c) (p >>= f) w).2 = w ∨
      ∃ a, Program.runWith (LedgerWorld.answer sha256 external c) p w = (.ok a, w) ∧
        Program.runWith (LedgerWorld.answer sha256 external c) (p >>= f) w =
          Program.runWith (LedgerWorld.answer sha256 external c) (f a) w := by
  have hworld : (Program.runWith (LedgerWorld.answer sha256 external c) p w).2 = w :=
    runWith_of_noAppend h w
  rw [Program.runWith_bind]
  generalize Program.runWith (LedgerWorld.answer sha256 external c) p w = outcome at hworld ⊢
  obtain ⟨result, w'⟩ := outcome
  obtain rfl : w' = w := hworld
  cases result with
  | error e => exact .inl rfl
  | ok a => exact .inr ⟨a, rfl, rfl⟩

theorem runWith_unwrapStage {α : Type} {r : Except EffectStageError α} {a : α}
    (h : Program.runWith (LedgerWorld.answer sha256 external c) (unwrapStage r) w = (.ok a, w)) :
    r = .ok a := by
  cases r with
  | ok b => exact congrArg Except.ok (Except.ok.inj (Prod.mk.inj h).1)
  | error e => cases (Prod.mk.inj h).1

theorem runWith_unwrap {α : Type} {r : Except EffectError α} {a : α}
    (h : Program.runWith (LedgerWorld.answer sha256 external c) (unwrap r) w = (.ok a, w)) :
    r = .ok a := by
  cases r with
  | ok b => exact congrArg Except.ok (Except.ok.inj (Prod.mk.inj h).1)
  | error e => cases (Prod.mk.inj h).1

variable {scope : EffectStageScope}

theorem runWith_readState {stageId : String} {state : EffectStageState}
    (h : Program.runWith (LedgerWorld.answer sha256 external c) (Effects.readState scope stageId) w =
      (.ok state, w)) : c.ledger.readState w.store scope stageId = .ok state := by
  change Program.runWith (LedgerWorld.answer sha256 external c)
    (unwrap (c.ledger.listStageEvents w.store scope stageId) >>= fun events =>
      unwrapStage (foldedState scope events)) w = _ at h
  unfold RuntimeEffectLedger.readState
  cases hlist : c.ledger.listStageEvents w.store scope stageId with
  | error e =>
      rw [hlist] at h
      cases (Prod.mk.inj h).1
  | ok events =>
      rw [hlist] at h
      have hfolded := runWith_unwrapStage h
      change (foldedState scope events).mapError EffectError.stage = _
      rw [hfolded]
      rfl

theorem runWith_getState {stageId : String} {state : EffectStageState}
    (h : Program.runWith (LedgerWorld.answer sha256 external c) (getState scope stageId) w =
      (.ok state, w)) : c.ledger.readState w.store scope stageId = .ok state := by
  unfold getState at h
  split at h
  · exact runWith_readState h
  · cases (Prod.mk.inj h).1

/-- An append followed by calls that append nothing is one append. -/
theorem runWith_append {α : Type} {draft : StageEventDraft}
    {f : StructuralEvent → EffectProgram α} (hf : ∀ event, (f event).OnlyAwaits NoAppend)
    (w : LedgerWorld) :
    (Program.runWith (LedgerWorld.answer sha256 external c)
      (perform (.appendStageEvent scope draft) >>= fun reply => unwrap reply >>= f) w).2 =
      (w.append sha256 c scope draft).2 := by
  rw [perform_bind, Program.runWith_await]
  exact runWith_of_noAppend ((onlyAwaits_unwrap _).bind hf) _

/-- A request with a sound key reads, then is admitted, and appends nothing before that. -/
theorem runWith_keyed_cases {σ α β : Type} {read : EffectProgram σ} {gate : σ → EffectProgram α}
    {rest : σ → α → EffectProgram β} (key : String) (hread : read.OnlyAwaits NoAppend)
    (hgate : ∀ s, (gate s).OnlyAwaits NoAppend) (w : LedgerWorld) :
    let run {γ : Type} (p : EffectProgram γ) :=
      Program.runWith (LedgerWorld.answer sha256 external c) p w
    let request := validateIdempotencyKey key >>= fun _ => read >>= fun s => gate s >>= rest s
    (run request).2 = w ∨ ∃ s a, run read = (.ok s, w) ∧ run (gate s) = (.ok a, w) ∧
      (run request).2 = (run (rest s a)).2 := by
  rcases runWith_bind_cases (onlyAwaits_validateIdempotencyKey key) _ w with
    hsame | ⟨_, _, hkeyed⟩
  · exact .inl hsame
  rcases runWith_bind_cases hread _ w with hsame | ⟨s, hstate, hthen⟩
  · exact .inl ((congrArg Prod.snd hkeyed).trans hsame)
  rcases runWith_bind_cases (hgate s) _ w with hsame | ⟨a, hadmitted, hrest⟩
  · exact .inl ((congrArg Prod.snd (hkeyed.trans hthen)).trans hsame)
  exact .inr ⟨s, a, hstate, hadmitted, congrArg Prod.snd (hkeyed.trans (hthen.trans hrest))⟩

/-- A call changes nothing, or makes the one append of the event it builds. -/
theorem perform_cases (external : (op : EffectOp) → op.Reply) (c : LedgerCall) (w : LedgerWorld) :
    (c.perform sha256 external w).2 = w ∨ ∃ scope draft, Builds sha256 c w.store scope draft ∧
      (c.perform sha256 external w).2 = (w.append sha256 c scope draft).2 := by
  obtain ⟨ledger, operation, now, createdAt⟩ := c
  have hread {scope : EffectStageScope} {stageId : String} :
      (getState scope stageId).OnlyAwaits NoAppend := onlyAwaits_getState trivial
  unfold LedgerCall.perform
  cases operation with
  | stage r stageId =>
      rcases runWith_bind_cases (onlyAwaits_validateIdempotencyKey r.idempotencyKey) _ w with
        hsame | ⟨_, _, hkeyed⟩
      · exact .inl hsame
      rcases runWith_bind_cases (onlyAwaits_unwrapStage (admitProposal r)) _ w with
        hsame | ⟨policy, hpolicy, hadmitted⟩
      · exact .inl ((congrArg Prod.snd hkeyed).trans hsame)
      have hrun := congrArg Prod.snd (hkeyed.trans hadmitted)
      cases hformat : ProposalUriCodec.format stageId 1 with
      | none =>
          refine .inl (hrun.trans ?_)
          rw [hformat]
          rfl
      | some proposalRef =>
          refine .inr ⟨_, _, .stage rfl (runWith_unwrapStage hpolicy) hformat, hrun.trans ?_⟩
          rw [hformat]
          exact runWith_append (fun event => onlyAwaits_unwrapStage _) w
  | bindProjection r =>
      rcases runWith_keyed_cases r.idempotencyKey (onlyAwaits_readState trivial)
        (fun state => onlyAwaits_unwrapStage (admitBinding state r)) w with
        hsame | ⟨state, fresh, hstate, hfresh, hrun⟩
      · exact .inl hsame
      cases fresh with
      | false => exact .inl hrun
      | true =>
          refine .inr ⟨_, _, .bindProjection rfl (runWith_readState hstate)
            (runWith_unwrapStage hfresh), ?_⟩
          exact hrun.trans
            (runWith_append (fun event => hread.bind fun bound => onlyAwaits_unwrapStage _) w)
  | revise r =>
      rcases runWith_keyed_cases r.idempotencyKey hread
        (fun state => onlyAwaits_unwrap (admitRevision state r)) w with
        hsame | ⟨state, _, hstate, hchecked, hrun⟩
      · exact .inl hsame
      cases hformat : ProposalUriCodec.format r.stageId (r.expectedRevision + 1) with
      | none =>
          refine .inl (hrun.trans ?_)
          rw [hformat]
          rfl
      | some proposalRef =>
          refine .inr ⟨_, _, .revise rfl (runWith_getState hstate) (runWith_unwrap hchecked) hformat,
            hrun.trans ?_⟩
          rw [hformat]
          exact runWith_append (fun event => hread) w
  | recordRowDecisions r =>
      rcases runWith_keyed_cases r.idempotencyKey hread
        (fun state => onlyAwaits_unwrapStage (admitRowDecisions state r)) w with
        hsame | ⟨state, _, hstate, hchecked, hrun⟩
      · exact .inl hsame
      refine .inr ⟨_, _, .recordRowDecisions rfl (runWith_getState hstate)
        (runWith_unwrapStage hchecked), ?_⟩
      exact hrun.trans (runWith_append (fun event => hread) w)
  | decide r =>
      rcases runWith_keyed_cases r.idempotencyKey hread
        (fun state => onlyAwaits_unwrapStage (admitDecision state r)) w with
        hsame | ⟨state, fresh, hstate, hfresh, hrun⟩
      · exact .inl hsame
      cases fresh with
      | false => exact .inl hrun
      | true =>
          refine .inr ⟨_, _, .decide rfl (runWith_getState hstate) (runWith_unwrapStage hfresh), ?_⟩
          exact hrun.trans (runWith_append
            (fun event => (onlyAwaits_enqueueApproved trivial).bind fun _ => hread) w)

/-- What a call adds to the record is the append of an event it builds. -/
theorem mem_appends_perform (external : (op : EffectOp) → op.Reply) {c : LedgerCall} {w : LedgerWorld}
    {a : StageAppend} (ha : a ∈ (c.perform sha256 external w).2.appends) :
    a ∈ w.appends ∨ a.runId = c.ledger.runId ∧ ∃ scope, Builds sha256 c w.store scope a.draft := by
  rcases perform_cases external c w with hsame | ⟨scope, draft, hbuilds, happend⟩
  · rw [hsame] at ha
    exact .inl ha
  · rw [happend] at ha
    rcases List.mem_append.mp ha with hbefore | hnew
    · exact .inl hbefore
    · obtain rfl := List.mem_singleton.mp hnew
      exact .inr ⟨rfl, scope, hbuilds⟩

end Steps

/-! ### What a fitting draft stores -/

section Stored
variable {sha256 : String → String} {c : LedgerCall} {s : RuntimeEventStore}

variable {l : RuntimeEffectLedger} {scope : EffectStageScope} {stageId : String}

theorem listStageEvents_eq_ok {events : List StructuralEvent}
    (h : l.listStageEvents s scope stageId = .ok events) :
    l.assertScope scope = .ok () ∧
      List.Forall₂ (fun r e => structuralEvent r = .ok e)
        ((s.ofRun l.runId).filter (isStageEvent stageId)) events := by
  unfold listStageEvents at h
  cases hscope : l.assertScope scope with
  | error e =>
      rw [hscope] at h
      cases h
  | ok _ =>
      rw [hscope] at h
      exact ⟨rfl, mapM_eq_ok_iff.mp h⟩

theorem payload_structuralEvent {r : RuntimeEvent} {e : StructuralEvent}
    (h : structuralEvent r = .ok e) :
    e.payload = r.payload ∧ e.runId = r.runId ∧ e.sequenceNo = r.sequenceNo ∧
      e.eventType = r.eventType := by
  unfold structuralEvent at h
  split at h
  · cases h
  · obtain rfl := Except.ok.inj h
    exact ⟨rfl, rfl, rfl, rfl⟩

theorem ok_of_mapError {α ε ε' : Type} {f : ε → ε'} {r : Except ε α} {a : α}
    (h : r.mapError f = .ok a) : r = .ok a := by
  cases r with
  | ok b => exact congrArg Except.ok (Except.ok.inj h)
  | error e => cases h

variable {state : EffectStageState}

/-- A stage that was read is a fold of events that name it. -/
theorem read_spec (h : l.readState s scope stageId = .ok state) :
    l.assertScope scope = .ok () ∧ state.stageId = stageId ∧
      ∃ events, fold events = some state := by
  unfold RuntimeEffectLedger.readState at h
  cases hlist : l.listStageEvents s scope stageId with
  | error e =>
      rw [hlist] at h
      cases h
  | ok events =>
      rw [hlist] at h
      obtain ⟨hscope, hevents⟩ := listStageEvents_eq_ok hlist
      have hfold : fold events = some state := fold_of_foldedState (ok_of_mapError h)
      refine ⟨hscope, stageId_fold ?_ hfold, events, hfold⟩
      intro e he
      obtain ⟨r, hr, hpresented⟩ := exists_left_of_forall₂ hevents he
      obtain ⟨_, hstage⟩ := List.mem_filter.mp hr
      simp only [isStageEvent, Bool.and_eq_true, beq_iff_eq] at hstage
      simp [Payload.string, (payload_structuralEvent hpresented).1, hstage.2]

/-- The draft passes the funnel and is stored with its values. -/
structure Storable (draft : StageEventDraft) (payload : Payload) : Prop where
  stored : storedPayload draft = .ok payload
  carried : Payload.CarriedBy draft.payload payload
  listed : draft.eventType ∈ effectEventTypes
  version : Json.lookup draft.payload "v" ≠ some .null
  hold : Json.lookup draft.payload "agent_hold" ≠ some .null
  kind : draft.eventType ≠ eventRowDecisions

theorem storable_of_errors {draft : StageEventDraft} {model : PayloadModel}
    (hmodel : WorkLedgerVocabulary.modelFor draft.eventType = some model)
    (herrors : model.errors draft.payload = []) (hunsigned : draft.payload.present "w" = none)
    (hlisted : effectEventTypes.contains draft.eventType = true)
    (hversion : Json.lookup draft.payload "v" = some (.int 1))
    (hhold : Json.lookup draft.payload "agent_hold" ≠ some .null) :
    ∃ payload, Storable draft payload := by
  obtain ⟨safe, payload, hsafe, hpayload, hcarried⟩ := carriedBy_of_admitted hmodel herrors hunsigned
  have hkind : draft.eventType ≠ eventRowDecisions := by
    intro hrows
    rw [hrows] at hlisted
    revert hlisted
    decide
  refine ⟨payload, ?_, hcarried, by simpa using hlisted, ?_, hhold, hkind⟩
  · unfold storedPayload
    rw [hlisted, hsafe]
    exact hpayload
  · rw [hversion]
    exact fun h => by cases h

/-- What the stage an event is built for establishes about the request's pins. -/
theorem pins_valid (h : l.readState s scope stageId = .ok state) :
    l.assertScope scope = .ok () ∧ (EffectStageIdCodec.parse stageId).isSome = true ∧
      1 ≤ state.currentRevision.revision ∧ state.currentRevision.revision ≤ maxSafeInteger ∧
      isSha256Hex state.currentRevision.proposalDigest = true ∧
      isSha256Hex state.targetDigest = true := by
  obtain ⟨hscope, hstage, events, hfold⟩ := read_spec h
  obtain ⟨hcanonical, hle⟩ := bounds_fold hfold
  obtain ⟨hdigest, htarget, hpos⟩ := digests_fold hfold
  exact ⟨hscope, hstage ▸ hcanonical, hpos, hle, hdigest, htarget⟩

/-- The event a fitting call builds is stored with its values, in the call's own run. -/
theorem storable_of_builds {draft : StageEventDraft} (h : Builds sha256 c s scope draft)
    (hadmitted : c.Admitted) (hfits : c.Fits) :
    c.ledger.assertScope scope = .ok () ∧ ∃ payload, Storable draft payload := by
  obtain ⟨hformat, hfits⟩ := hfits
  unfold LedgerCall.Admitted at hadmitted
  cases h with
  | @stage r stageId proposalRef policy operation admitted format =>
      rw [operation] at hadmitted hfits
      obtain ⟨_, _, hvalid⟩ := hadmitted
      obtain ⟨hrun, howner, herrors⟩ := hfits
      exact ⟨if_pos ⟨hrun, howner⟩, storable_of_errors rfl (errors_stagedPayload hvalid herrors format)
        rfl rfl rfl (fun h => by cases h)⟩
  | @bindProjection r state operation read admitted =>
      rw [operation] at hfits
      obtain ⟨hscope, hstage, hpos, hle, hdigest, htarget⟩ := pins_valid read
      obtain ⟨-, hrevision, hproposal, htargetDigest⟩ := bindingAdmitted admitted
      rw [← hrevision] at hpos hle
      rw [← hproposal] at hdigest
      rw [← htargetDigest] at htarget
      exact ⟨hscope, storable_of_errors rfl (errors_bindingDraft hfits hstage hpos hle hdigest htarget)
        rfl rfl rfl (fun h => by cases h)⟩
  | @revise r state proposalRef operation read admitted format =>
      rw [operation] at hadmitted hfits
      obtain ⟨_, _, hvalid⟩ := hadmitted
      exact ⟨(pins_valid read).1, storable_of_errors rfl (errors_revisionDraft hvalid hfits format)
        rfl rfl rfl (fun h => by cases h)⟩
  | recordRowDecisions operation read admitted =>
      rw [operation] at hfits
      exact hfits.elim
  | @decide r state operation read admitted =>
      rw [operation] at hfits
      obtain ⟨hscope, hstage, hpos, hle, hdigest, htarget⟩ := pins_valid read
      have hdecision := decisionAdmitted admitted
      rw [← hdecision.revision] at hpos hle
      rw [← hdecision.pins.1] at hdigest
      rw [← hdecision.pins.2] at htarget
      have hpayload : effectDecisionRecordedPayload.errors (decisionDraft sha256 r c.now).payload =
          [] := errors_decisionDraft hfits hstage hpos hle hdigest htarget
        fun keys hkeys => rowKeys_admitted hdecision.rowKeys hkeys
      refine ⟨hscope, storable_of_errors rfl hpayload ?_ rfl rfl ?_⟩
      · cases hrows : r.rowKeys <;> simp [Payload.present, decisionDraft, hrows, Json.lookup]
      · cases hrows : r.rowKeys <;> simp [decisionDraft, hrows, Json.lookup]

end Stored

/-! ### The event store -/

namespace RuntimeEventStore
variable {s : RuntimeEventStore} {d : RuntimeEventDraft} {createdAt : String}

/-- Positions increase within each run, up to the number of its events, and ids are distinct. -/
structure WellFormed (s : RuntimeEventStore) : Prop where
  positions : ∀ r ∈ s, r.sequenceNo ≤ (s.ofRun r.runId).length
  increasing : s.Pairwise fun a b => a.runId = b.runId → a.sequenceNo < b.sequenceNo
  distinct : s.Pairwise fun a b => a.runId = b.runId → a.eventId ≠ b.eventId

theorem mem_of_findEvent {runId eventId : String} {r : RuntimeEvent}
    (h : s.findEvent runId eventId = some r) : r ∈ s ∧ r.runId = runId ∧ r.eventId = eventId := by
  have hid := List.find?_some h
  obtain ⟨hmem, hrun⟩ := List.mem_filter.mp (List.mem_of_find?_eq_some h)
  exact ⟨hmem, of_decide_eq_true hrun, of_decide_eq_true hid⟩

theorem ne_of_findEvent {runId eventId : String} (h : s.findEvent runId eventId = none)
    {r : RuntimeEvent} (hr : r ∈ s) (hrun : r.runId = runId) : r.eventId ≠ eventId := by
  have hnone := List.find?_eq_none.mp h r (List.mem_filter.mpr ⟨hr, decide_eq_true hrun⟩)
  simpa using hnone

/-- An append of a new id keeps the store well formed. -/
theorem WellFormed.push (h : s.WellFormed) (hfree : s.findEvent d.runId d.eventId = none) :
    WellFormed (s ++ [s.envelope d createdAt]) where
  positions := by
    intro r hr
    rw [ofRun, List.filter_append, List.length_append]
    rcases List.mem_append.mp hr with hr | hr
    · exact (h.positions r hr).trans (Nat.le_add_right _ _)
    · obtain rfl := List.mem_singleton.mp hr
      simp only [envelope, ofRun, decide_true, List.filter_cons_of_pos, List.filter_nil,
        List.length_singleton]
      exact Nat.le_refl _
  increasing := by
    refine List.pairwise_append.mpr ⟨h.increasing, List.pairwise_singleton _ _, ?_⟩
    intro a ha b hb hrun
    obtain rfl := List.mem_singleton.mp hb
    have hle := h.positions a ha
    rw [hrun] at hle
    exact Nat.lt_succ_of_le hle
  distinct := by
    refine List.pairwise_append.mpr ⟨h.distinct, List.pairwise_singleton _ _, ?_⟩
    intro a ha b hb hrun
    obtain rfl := List.mem_singleton.mp hb
    exact ne_of_findEvent hfree ha hrun

/-- Within a run, an event id names one event. -/
theorem WellFormed.eq_of_eventId (h : s.WellFormed) {a b : RuntimeEvent} (ha : a ∈ s) (hb : b ∈ s)
    (hrun : a.runId = b.runId) (hid : a.eventId = b.eventId) : a = b := by
  by_contra hne
  have hsymm : Std.Symm fun a b : RuntimeEvent => a.runId = b.runId → a.eventId ≠ b.eventId :=
    ⟨fun _ _ hab hrun hid => hab hrun.symm hid.symm⟩
  exact h.distinct.forall ha hb hne hrun hid

/-- An append returns the stored event of its id, refuses it, or stores a new event. -/
theorem appendEvent_cases (s : RuntimeEventStore) (d : RuntimeEventDraft) (createdAt : String) :
    (∃ r, s.findEvent d.runId d.eventId = some r ∧ s.appendEvent d createdAt =
        (if d.matchesEnvelope r then some r else none, s)) ∨
      s.findEvent d.runId d.eventId = none ∧
        s.appendEvent d createdAt = (some (s.envelope d createdAt), s ++ [s.envelope d createdAt]) := by
  unfold appendEvent
  cases hfind : s.findEvent d.runId d.eventId with
  | none => exact .inr ⟨rfl, rfl⟩
  | some r =>
      refine .inl ⟨r, rfl, ?_⟩
      dsimp only
      split <;> rfl

end RuntimeEventStore

/-! ### The invariant of a run -/

/-- A built event and the stored event that carries it. -/
structure StoredAs (e : StructuralEvent) (r : RuntimeEvent) : Prop where
  presented : structuralEvent r = .ok { e with payload := r.payload }
  payload : Payload.CarriedBy e.payload r.payload
  plain : Plain e

def isEffect (r : RuntimeEvent) : Bool := effectEventTypes.contains r.eventType

/-- Every append has its stored event, and every effect event comes from an append. -/
structure LedgerInvariant (sha256 : String → String) (w : LedgerWorld) : Prop where
  wellFormed : w.store.WellFormed
  stored : List.Forall₂ StoredAs w.builtEvents (w.store.filter isEffect)
  recorded : ∀ a ∈ w.appends, ∃ r ∈ w.store, r.runId = a.runId ∧
    r.eventId = eventId sha256 a.runId a.draft.idempotencyKey ∧ a.result = structuralEvent r ∧
      ∃ event, structuralEvent r = .ok event
  sourced : ∀ r ∈ w.store, isEffect r = true → ∃ a ∈ w.appends, r.runId = a.runId ∧
    r.eventId = eventId sha256 a.runId a.draft.idempotencyKey ∧
      r.eventType = a.draft.eventType ∧ storedPayload a.draft = .ok r.payload ∧
      r.fingerprint = some a.draft.requestFingerprint
  foreign : ∀ r ∈ w.store, isEffect r = false → Text.startsWith r.eventId "effevt_" = false

section Invariant
variable {sha256 : String → String} {w : LedgerWorld} {c : LedgerCall}

theorem LedgerInvariant.empty : LedgerInvariant sha256 LedgerWorld.empty where
  wellFormed := ⟨by simp [LedgerWorld.empty], .nil, .nil⟩
  stored := .nil
  recorded := by simp [LedgerWorld.empty]
  sourced := by simp [LedgerWorld.empty]
  foreign := by simp [LedgerWorld.empty]

/-- Other events leave the stagers' events as they are. -/
theorem LedgerInvariant.other (h : LedgerInvariant sha256 w) (e : OtherEvent) :
    LedgerInvariant sha256 { w with store := (w.store.appendEvent e.draft e.createdAt).2 } := by
  rcases w.store.appendEvent_cases e.draft e.createdAt with ⟨r, _, happend⟩ | ⟨hfree, happend⟩
  · rw [happend]
    exact h
  · rw [happend]
    have hnot : isEffect (w.store.envelope e.draft e.createdAt) = false := by
      simpa [isEffect, RuntimeEventStore.envelope] using e.notEffect
    refine ⟨h.wellFormed.push hfree, ?_, ?_, ?_, ?_⟩
    · have hsame : (w.store ++ [w.store.envelope e.draft e.createdAt]).filter isEffect =
          w.store.filter isEffect := by
        simp [List.filter_append, hnot]
      dsimp only
      rw [hsame]
      exact h.stored
    · intro a ha
      obtain ⟨r, hr, hrest⟩ := h.recorded a ha
      exact ⟨r, List.mem_append_left _ hr, hrest⟩
    · intro r hr heffect
      rcases List.mem_append.mp hr with hr | hr
      · exact h.sourced r hr heffect
      · obtain rfl := List.mem_singleton.mp hr
        rw [hnot] at heffect
        cases heffect
    · intro r hr heffect
      rcases List.mem_append.mp hr with hr | hr
      · exact h.foreign r hr heffect
      · obtain rfl := List.mem_singleton.mp hr
        exact e.foreign

variable {runId : String}

/-- A run with one ledger id has one for every position. -/
theorem format_isSome {n : Nat} (h : (LedgerIdCodec.format runId 1).isSome = true) (hpos : 1 ≤ n) :
    (LedgerIdCodec.format runId n).isSome = true := by
  unfold LedgerIdCodec.format at h ⊢
  simpa [hpos] using h

variable {draft : StageEventDraft} {payload : Payload}

/-- A stored draft is presented as the event it was built as. -/
theorem structuralEvent_envelope (sha256 : String → String) (s : RuntimeEventStore)
    (createdAt : String) {l : RuntimeEffectLedger}
    (hformat : (LedgerIdCodec.format l.runId 1).isSome = true)
    (hstorable : Storable draft payload) :
    ∃ event : StructuralEvent,
      structuralEvent (s.envelope (l.eventDraft sha256 draft payload) createdAt) = .ok event ∧
        event.sequenceNo = (s.ofRun l.runId).length + 1 ∧ event.runId = l.runId ∧
        StoredAs { event with payload := draft.payload }
          (s.envelope (l.eventDraft sha256 draft payload) createdAt) := by
  obtain ⟨ledgerId, hid⟩ := Option.isSome_iff_exists.mp
    (format_isSome (n := (s.ofRun l.runId).length + 1) hformat (Nat.le_add_left 1 _))
  have hpresented : structuralEvent (s.envelope (l.eventDraft sha256 draft payload) createdAt) =
      .ok ⟨l.runId, ledgerId, (s.ofRun l.runId).length + 1, draft.eventType, payload, createdAt⟩ := by
    unfold structuralEvent
    simp only [RuntimeEventStore.envelope, eventDraft, hid]
  exact ⟨_, hpresented, rfl, rfl, hpresented, hstorable.carried, hstorable.version, hstorable.hold,
    hstorable.kind⟩

theorem eraseDups_snoc_of_mem {α : Type} [DecidableEq α] {xs : List α} {x : α} (h : x ∈ xs) :
    (xs ++ [x]).eraseDups = xs.eraseDups := by
  simp [List.eraseDups_append, List.removeAll, h]

theorem eraseDups_snoc_of_not_mem {α : Type} [DecidableEq α] {xs : List α} {x : α} (h : x ∉ xs) :
    (xs ++ [x]).eraseDups = xs.eraseDups ++ [x] := by
  simp [List.eraseDups_append, List.removeAll, h, List.eraseDups_cons]

/-- What is stored depends on the event type and the payload only. -/
theorem storedPayload_congr {other : StageEventDraft} (hkind : other.eventType = draft.eventType)
    (hpayload : other.payload = draft.payload) : storedPayload other = storedPayload draft := by
  unfold storedPayload
  rw [hkind, hpayload]

variable {r : RuntimeEvent}

theorem isEffect_of_eventId {key : String} (h : LedgerInvariant sha256 w) (hr : r ∈ w.store)
    (hid : r.eventId = eventId sha256 runId key) : isEffect r = true := by
  by_contra hnot
  have hforeign := h.foreign r hr (Bool.eq_false_iff.mpr hnot)
  rw [hid, eventId, Text.startsWith, String.toList_append] at hforeign
  have hpre := List.isPrefixOf_iff_prefix.mpr (List.prefix_append "effevt_".toList
    (sha256 (runId ++ "\x00" ++ key)).toList)
  rw [hpre] at hforeign
  cases hforeign

/-- The same append again gets the first one's reply and stores nothing. -/
theorem LedgerInvariant.replay (h : LedgerInvariant sha256 w) (hstorable : Storable draft payload)
    (hfind : w.store.findEvent c.ledger.runId (eventId sha256 c.ledger.runId draft.idempotencyKey) =
      some r)
    (hkey : ∀ a ∈ w.appends, a.runId = c.ledger.runId →
      eventId sha256 a.runId a.draft.idempotencyKey =
        eventId sha256 c.ledger.runId draft.idempotencyKey →
      a.draft.eventType = draft.eventType ∧ a.draft.payload = draft.payload ∧
        a.draft.requestFingerprint = draft.requestFingerprint) :
    (c.ledger.eventDraft sha256 draft payload).matchesEnvelope r = true ∧
      LedgerInvariant sha256
        ⟨w.store, w.appends ++ [⟨c.ledger.runId, draft, structuralEvent r⟩]⟩ := by
  obtain ⟨hr, hrun, hid⟩ := RuntimeEventStore.mem_of_findEvent hfind
  obtain ⟨a, ha, harun, haid, hakind, hapayload, hafingerprint⟩ :=
    h.sourced r hr (isEffect_of_eventId h hr hid)
  obtain ⟨hkind, hpayload, hfingerprint⟩ := hkey a ha (harun.symm.trans hrun) (haid.symm.trans hid)
  obtain ⟨r', hr', hrun', hid', hresult, event, hevent⟩ := h.recorded a ha
  obtain rfl : r' = r :=
    h.wellFormed.eq_of_eventId hr' hr (hrun'.trans harun.symm) (hid'.trans haid.symm)
  have hsame : payload = r'.payload := by
    rw [storedPayload_congr hkind hpayload, hstorable.stored] at hapayload
    exact Except.ok.inj hapayload
  constructor
  · simp [RuntimeEventDraft.matchesEnvelope, eventDraft, hid, hrun, hakind, hkind, hsame,
      hafingerprint, hfingerprint]
  refine ⟨h.wellFormed, ?_, ?_, ?_, h.foreign⟩
  · have hmem : ({ event with payload := draft.payload } : StructuralEvent) ∈
        w.appends.filterMap StageAppend.builtEvent := by
      refine List.mem_filterMap.mpr ⟨a, ha, ?_⟩
      rw [StageAppend.builtEvent, hresult, hevent, hpayload]
    have hbuilt : LedgerWorld.builtEvents ⟨w.store, w.appends ++ [⟨c.ledger.runId, draft,
        structuralEvent r'⟩]⟩ = w.builtEvents := by
      rw [LedgerWorld.builtEvents, List.filterMap_append, hevent]
      exact eraseDups_snoc_of_mem hmem
    rw [hbuilt]
    exact h.stored
  · intro b hb
    rcases List.mem_append.mp hb with hb | hb
    · exact h.recorded b hb
    · obtain rfl := List.mem_singleton.mp hb
      exact ⟨r', hr', hrun, hid, rfl, event, hevent⟩
  · intro other hother heffect
    obtain ⟨b, hb, hrest⟩ := h.sourced other hother heffect
    exact ⟨b, List.mem_append_left _ hb, hrest⟩

/-- A first append stores one more event of the run. -/
theorem LedgerInvariant.store (h : LedgerInvariant sha256 w)
    (hformat : (LedgerIdCodec.format c.ledger.runId 1).isSome = true)
    (hstorable : Storable draft payload) (hfree : w.store.findEvent c.ledger.runId
      (eventId sha256 c.ledger.runId draft.idempotencyKey) = none) :
    LedgerInvariant sha256
      ⟨w.store ++ [w.store.envelope (c.ledger.eventDraft sha256 draft payload) c.createdAt],
        w.appends ++ [⟨c.ledger.runId, draft, structuralEvent
          (w.store.envelope (c.ledger.eventDraft sha256 draft payload) c.createdAt)⟩]⟩ := by
  obtain ⟨event, hevent, hseq, hrun, hstored⟩ :=
    structuralEvent_envelope sha256 w.store c.createdAt hformat hstorable
  have heffect : isEffect (w.store.envelope (c.ledger.eventDraft sha256 draft payload) c.createdAt) =
      true := List.elem_eq_true_of_mem hstorable.listed
  refine ⟨h.wellFormed.push hfree, ?_, ?_, ?_, ?_⟩
  · have hnew : ({ event with payload := draft.payload } : StructuralEvent) ∉
        w.appends.filterMap StageAppend.builtEvent := by
      intro hmem
      obtain ⟨a, ha, hbuilt⟩ := List.mem_filterMap.mp hmem
      obtain ⟨r, hr, _, _, hresult, earlier, hearlier⟩ := h.recorded a ha
      rw [StageAppend.builtEvent, hresult, hearlier] at hbuilt
      have hsame := Option.some.inj hbuilt
      have hsameRun : earlier.runId = event.runId :=
        (congrArg StructuralEvent.runId hsame :)
      have hsameSeq : earlier.sequenceNo = event.sequenceNo :=
        (congrArg StructuralEvent.sequenceNo hsame :)
      obtain ⟨_, hearlierRun, hearlierSeq, _⟩ := payload_structuralEvent hearlier
      have hle := h.wellFormed.positions r hr
      rw [← hearlierSeq, ← hearlierRun, hsameSeq, hsameRun, hseq, hrun] at hle
      exact Nat.not_succ_le_self _ hle
    have hbuilt : LedgerWorld.builtEvents ⟨w.store ++ [w.store.envelope
          (c.ledger.eventDraft sha256 draft payload) c.createdAt],
        w.appends ++ [⟨c.ledger.runId, draft, structuralEvent
          (w.store.envelope (c.ledger.eventDraft sha256 draft payload) c.createdAt)⟩]⟩ =
        w.builtEvents ++ [{ event with payload := draft.payload }] := by
      rw [LedgerWorld.builtEvents, List.filterMap_append, hevent]
      exact eraseDups_snoc_of_not_mem hnew
    rw [hbuilt, List.filter_append, List.filter_cons_of_pos heffect]
    exact List.rel_append h.stored (.cons hstored .nil)
  · intro b hb
    rcases List.mem_append.mp hb with hb | hb
    · obtain ⟨r, hr, hrest⟩ := h.recorded b hb
      exact ⟨r, List.mem_append_left _ hr, hrest⟩
    · obtain rfl := List.mem_singleton.mp hb
      refine ⟨w.store.envelope (c.ledger.eventDraft sha256 draft payload) c.createdAt,
        List.mem_append_right _ List.mem_cons_self, rfl, rfl, ?_, event, hevent⟩
      -- Deciding this by computation would run the validators of the stored event.
      with_reducible rfl
  · intro r hr hkind
    rcases List.mem_append.mp hr with hr | hr
    · obtain ⟨b, hb, hrest⟩ := h.sourced r hr hkind
      exact ⟨b, List.mem_append_left _ hb, hrest⟩
    · obtain rfl := List.mem_singleton.mp hr
      exact ⟨_, List.mem_append_right _ (List.mem_singleton.mpr rfl), rfl, rfl, rfl,
        hstorable.stored, rfl⟩
  · intro r hr hkind
    rcases List.mem_append.mp hr with hr | hr
    · exact h.foreign r hr hkind
    · obtain rfl := List.mem_singleton.mp hr
      rw [heffect] at hkind
      cases hkind

/-- An orderly call keeps the invariant. -/
theorem LedgerInvariant.perform (h : LedgerInvariant sha256 w)
    (external : (op : EffectOp) → op.Reply) (hadmitted : c.Admitted) (horderly : Orderly sha256 c w) :
    LedgerInvariant sha256 (c.perform sha256 external w).2 := by
  rcases perform_cases external c w with hsame | ⟨scope, draft, hbuilds, happend⟩
  · rw [hsame]
    exact h
  · obtain ⟨hfits, hkey⟩ := horderly scope draft hbuilds
    obtain ⟨hscope, payload, hstorable⟩ := storable_of_builds hbuilds hadmitted hfits
    rw [happend]
    unfold LedgerWorld.append appendStageEvent
    rw [hscope, hstorable.stored]
    dsimp only
    rcases w.store.appendEvent_cases (c.ledger.eventDraft sha256 draft payload) c.createdAt with
      ⟨r, hfind, hreply⟩ | ⟨hfree, hreply⟩
    · obtain ⟨hmatches, hinvariant⟩ := h.replay hstorable hfind hkey
      simp only [hreply, hmatches, if_true]
      exact hinvariant
    · simp only [hreply]
      exact h.store hfits.1 hstorable hfree

theorem ledgerInvariant (h : LedgerRun sha256 (Orderly sha256) w) : LedgerInvariant sha256 w := by
  induction h with
  | start => exact LedgerInvariant.empty
  | called _ external c admitted orderly ih => exact ih.perform external admitted orderly
  | other _ e ih => exact ih.other e

/-! ### What the invariant gives -/

theorem Payload.string_eq_some_iff {p : Payload} {key s : String} :
    p.string key = some s ↔ Json.lookup p key = some (.str s) := by
  unfold Payload.string
  split
  · next found hlookup => simp [hlookup]
  · next hother =>
      constructor
      · intro h
        cases h
      · intro h
        exact (hother s h).elim

theorem StoredAs.facts {e : StructuralEvent} (h : StoredAs e r) :
    e.runId = r.runId ∧ e.sequenceNo = r.sequenceNo := by
  obtain ⟨_, hrun, hseq, _⟩ := payload_structuralEvent h.presented
  exact ⟨hrun, hseq⟩

/-- A built event belongs to the stages its stored event is listed for. -/
theorem StoredAs.isOf_iff {e : StructuralEvent} (h : StoredAs e r) {stageId : String} :
    LedgerWorld.isOf runId stageId e = true ↔
      (r.runId == runId && Json.lookup r.payload "stage_id" == some (.str stageId)) = true := by
  simp only [LedgerWorld.isOf, Bool.and_eq_true, beq_iff_eq, h.facts.1,
    ← h.payload.string (show "stage_id" ≠ "w" by decide), Payload.string_eq_some_iff]

/-- Stored events are listed as what carries the built ones. -/
theorem exists_listed {built : List StructuralEvent} {rs : List RuntimeEvent}
    (h : List.Forall₂ StoredAs built rs) :
    ∃ events, rs.mapM structuralEvent = .ok events ∧ List.Forall₂ Carries built events := by
  have hgoal : ∃ events, List.Forall₂ (fun r e => structuralEvent r = .ok e) rs events ∧
      List.Forall₂ Carries built events := by
    induction h with
    | nil => exact ⟨[], .nil, .nil⟩
    | cons hfirst _ ih =>
        obtain ⟨events, hpresented, hcarried⟩ := ih
        exact ⟨_ :: events, .cons hfirst.presented hpresented,
          .cons ⟨rfl, rfl, rfl, rfl, rfl, hfirst.payload⟩ hcarried⟩
  obtain ⟨events, hpresented, hcarried⟩ := hgoal
  exact ⟨events, mapM_eq_ok_iff.mpr hpresented, hcarried⟩

/-- The listing of a stage holds the events built for it. -/
theorem LedgerInvariant.ownEvents (h : LedgerInvariant sha256 w) (runId stageId : String) :
    List.Forall₂ StoredAs (w.ownEvents runId stageId)
      ((w.store.ofRun runId).filter (isStageEvent stageId)) := by
  have hfiltered : (w.store.ofRun runId).filter (isStageEvent stageId) =
      (w.store.filter isEffect).filter fun r =>
        r.runId == runId && Json.lookup r.payload "stage_id" == some (.str stageId) := by
    rw [RuntimeEventStore.ofRun, List.filter_filter, List.filter_filter]
    apply List.filter_congr
    intro r _
    simp only [isStageEvent, isEffect, beq_eq_decide]
    ac_rfl
  rw [hfiltered]
  exact List.rel_filter (fun e r hstored => hstored.isOf_iff) h.stored

theorem LedgerInvariant.listed (h : LedgerInvariant sha256 w) {l : RuntimeEffectLedger}
    {scope : EffectStageScope} (stageId : String) (hscope : l.assertScope scope = .ok ()) :
    ∃ events, l.listStageEvents w.store scope stageId = .ok events ∧
      List.Forall₂ Carries (w.ownEvents scope.runId stageId) events ∧
      fold events = fold (w.ownEvents scope.runId stageId) := by
  have hrun : scope.runId = l.runId := by
    unfold assertScope at hscope
    split at hscope
    · next hbound => exact hbound.1
    · cases hscope
  have hstored := h.ownEvents l.runId stageId
  obtain ⟨events, hmapped, hcarried⟩ := exists_listed hstored
  rw [hrun]
  refine ⟨events, ?_, hcarried, ?_⟩
  · unfold listStageEvents
    rw [hscope]
    exact hmapped
  · have hrows : ((w.store.ofRun l.runId).filter (isStageEvent stageId)).Pairwise
        fun a b => a.sequenceNo < b.sequenceNo := by
      refine List.Pairwise.filter _ ((h.wellFormed.increasing.filter _).imp_of_mem ?_)
      intro a b ha hb hlt
      exact hlt ((of_decide_eq_true (List.mem_filter.mp ha).2).trans
        (of_decide_eq_true (List.mem_filter.mp hb).2).symm)
    have hbuilt : (w.ownEvents l.runId stageId).Pairwise fun a b => a.sequenceNo < b.sequenceNo := by
      rw [← List.pairwise_map, map_eq_map_iff_forall₂.mpr (hstored.imp fun e r hfacts => hfacts.facts.2),
        List.pairwise_map]
      exact hrows
    have hevents : events.Pairwise fun a b => a.sequenceNo < b.sequenceNo := by
      rw [← List.pairwise_map, ← map_eq_map_iff_forall₂.mpr (hcarried.imp fun e e' hsame => hsame.sequenceNo.symm),
        List.pairwise_map]
      exact hbuilt
    refine fold_carried hcarried ?_ hbuilt hevents
    intro e he
    obtain ⟨r, _, hplain⟩ := exists_left_of_forall₂ hstored.flip he
    exact hplain.plain

theorem LedgerInvariant.once (h : LedgerInvariant sha256 w) (runId id : String) :
    ((w.store.ofRun runId).filter fun e => e.eventId = id).length ≤ 1 := by
  have hdistinct := (h.wellFormed.distinct.filter (fun e => e.runId = runId)).filter
    (fun e => e.eventId = id)
  rw [RuntimeEventStore.ofRun]
  cases hfound : (w.store.filter fun e => e.runId = runId).filter fun e => e.eventId = id with
  | nil => exact Nat.zero_le _
  | cons a rest =>
      cases rest with
      | nil => exact Nat.le_refl _
      | cons b more =>
          have hmem : ∀ r ∈ a :: b :: more, r.runId = runId ∧ r.eventId = id := by
            intro r hr
            rw [← hfound] at hr
            simp only [List.mem_filter, decide_eq_true_eq] at hr
            exact ⟨hr.1.2, hr.2⟩
          rw [hfound] at hdistinct
          have hne := List.rel_of_pairwise_cons hdistinct List.mem_cons_self
          obtain ⟨harun, haid⟩ := hmem a List.mem_cons_self
          obtain ⟨hbrun, hbid⟩ := hmem b (List.mem_cons_of_mem _ List.mem_cons_self)
          exact (hne (harun.trans hbrun.symm) (haid.trans hbid.symm)).elim

/-- A ledger run of orderly calls loses nothing. -/
theorem ledger_lossless_of_orderly (h : LedgerRun sha256 (Orderly sha256) w) :
    w.Lossless sha256 := by
  have hinvariant := ledgerInvariant h
  constructor
  case accepted =>
    intro a ha
    obtain ⟨r, _, _, _, hresult, event, hevent⟩ := hinvariant.recorded a ha
    exact ⟨event, hresult.trans hevent⟩
  case listed => exact fun l scope stageId hscope => hinvariant.listed stageId hscope
  case retried =>
    intro a ha b hb hrun hkey
    obtain ⟨r, hr, harun, haid, haresult, _⟩ := hinvariant.recorded a ha
    obtain ⟨r', hr', hbrun, hbid, hbresult, _⟩ := hinvariant.recorded b hb
    have hid : r.eventId = r'.eventId := by rw [haid, hbid, hrun, hkey]
    have hsame := hinvariant.wellFormed.eq_of_eventId hr hr' (harun.trans (hrun.trans hbrun.symm)) hid
    rw [haresult, hbresult, hsame]
  case once => exact fun runId key => hinvariant.once runId _

end Invariant

namespace Sample

/-- The ledger of the sample run, bound to its owner. -/
def boundLedger : RuntimeEffectLedger := ⟨"run-1", "principal://users/user-1"⟩

def stageCall : LedgerCall := ⟨boundLedger, .stage rowSetRequest stageId, "t0", "t0"⟩

def approveRowCall : LedgerCall :=
  ⟨boundLedger, .decide { approval "decide:1" with rowKeys := some ["row-1"] }, "t1", "t1"⟩

/-- The owner holds a row of the open stage. -/
def holdCall : LedgerCall :=
  ⟨boundLedger, .recordRowDecisions ⟨stageScope, stageId, 1, [("row-1", "hold")], digest, digest, owner,
    "rows:1"⟩, "t1", "t1"⟩

/-- The ledger after a row-set stage was opened. -/
def stagedLedger : LedgerWorld :=
  (stageCall.perform (fun s => s) resolvedExternal LedgerWorld.empty).2

def approvedLedger : LedgerWorld :=
  (approveRowCall.perform (fun s => s) resolvedExternal stagedLedger).2

def heldLedger : LedgerWorld := (holdCall.perform (fun s => s) resolvedExternal stagedLedger).2

/-- The ledger after a call on an empty one. -/
def ledgerAfter (c : LedgerCall) : LedgerWorld :=
  (c.perform (fun s => s) resolvedExternal LedgerWorld.empty).2

theorem ledgerAfter_eq (c : LedgerCall) :
    ledgerAfter c = (c.perform (fun s => s) resolvedExternal LedgerWorld.empty).2 := rfl

/-- The ledger after a call on the open stage. -/
def stagedLedgerAfter (c : LedgerCall) : LedgerWorld :=
  (c.perform (fun s => s) resolvedExternal stagedLedger).2

theorem stagedLedgerAfter_eq (c : LedgerCall) :
    stagedLedgerAfter c = (c.perform (fun s => s) resolvedExternal stagedLedger).2 := rfl

-- Compared with the outcome of `perform` itself, the kernel would carry the calls out.
theorem stagedLedger_eq : stagedLedger = ledgerAfter stageCall := rfl

theorem approvedLedger_eq : approvedLedger = stagedLedgerAfter approveRowCall := rfl

theorem heldLedger_eq : heldLedger = stagedLedgerAfter holdCall := rfl

theorem scope_owner_valid : stageScope.errors = [] ∧ owner.errors = [] := by
  decide +kernel

theorem stageCall_admitted : stageCall.Admitted := by
  have hvalid : rowSetRequest.proposedEffect.Valid := by decide +kernel
  exact ⟨scope_owner_valid.1, scope_owner_valid.2, hvalid⟩

theorem stageCall_orderly : Orderly (fun s => s) stageCall LedgerWorld.empty := by
  intro scope draft _
  have hfits : (LedgerIdCodec.format "run-1" 1).isSome = true ∧
      rowSetRequest.ledgerErrors "t0" = [] := by decide +kernel
  refine ⟨⟨hfits.1, rfl, rfl, hfits.2⟩, ?_⟩
  intro a ha
  cases ha

theorem stagedLedger_run {ok : LedgerCall → LedgerWorld → Prop} (h : ok stageCall LedgerWorld.empty) :
    LedgerRun (fun s => s) ok stagedLedger := by
  rw [stagedLedger_eq, ledgerAfter_eq]
  exact LedgerRun.called .start resolvedExternal stageCall stageCall_admitted h

/-- Opening the stage appends under its own key only. -/
theorem stagedLedger_appends {a : StageAppend} (ha : a ∈ stagedLedger.appends) :
    a.runId = "run-1" ∧ a.draft.idempotencyKey = "stage:1" := by
  rw [stagedLedger_eq, ledgerAfter_eq] at ha
  rcases mem_appends_perform resolvedExternal ha with hbefore | ⟨hrun, scope, hbuilds⟩
  · exact absurd hbefore List.not_mem_nil
  · constructor
    · exact hrun
    · generalize a.draft = draft at hbuilds ⊢
      cases hbuilds with
      | stage operation =>
          cases operation
          rfl
      | bindProjection operation | revise operation | recordRowDecisions operation
        | decide operation => cases operation

/-- Holding a row of the stage reaches the ledger, which refuses it. -/
def heldLedgerRefused :
    PLift ((heldLedger.appends.any fun a =>
      a.draft.eventType == eventRowDecisions && a.result.toOption.isNone) = true) :=
  ⟨by decide +kernel⟩

theorem approveRowCall_orderly : Orderly (fun s => s) approveRowCall stagedLedger := by
  intro scope draft hbuilds
  have hfits : (LedgerIdCodec.format "run-1" 1).isSome = true ∧
      DecideRequest.ledgerErrors { approval "decide:1" with rowKeys := some ["row-1"] } "t1" = [] := by
    decide +kernel
  refine ⟨hfits, ?_⟩
  intro a ha _ hid
  have hfirst := stagedLedger_appends ha
  cases hbuilds with
  | stage operation | bindProjection operation | revise operation | recordRowDecisions operation =>
      cases operation
  | decide operation =>
      cases operation
      rw [hfirst.1, hfirst.2] at hid
      have hne : eventId (fun s => s) "run-1" "stage:1" ≠ eventId (fun s => s) "run-1" "decide:1" := by
        decide
      exact (hne hid).elim

end Sample

/-- Opening a row-set stage and approving one of its rows loses nothing. -/
theorem ledger_lossless_of_orderly_sample :
    Sample.approvedLedger.Lossless (fun s => s) := by
  have hrun := LedgerRun.called (Sample.stagedLedger_run Sample.stageCall_orderly)
    Sample.resolvedExternal Sample.approveRowCall Sample.scope_owner_valid
    Sample.approveRowCall_orderly
  rw [← Sample.stagedLedgerAfter_eq, ← Sample.approvedLedger_eq] at hrun
  exact ledger_lossless_of_orderly hrun

/-- Holding a row of an open row-set stage builds an event that the ledger refuses. -/
theorem row_decisions_are_lost :
    LedgerRun (fun s => s) (fun _ _ => True) Sample.heldLedger ∧
      ¬ Sample.heldLedger.Lossless (fun s => s) := by
  have hadmitted : Sample.holdCall.Admitted :=
    ⟨Sample.scope_owner_valid.1, Sample.scope_owner_valid.2, List.nodup_singleton _⟩
  constructor
  · rw [Sample.heldLedger_eq, Sample.stagedLedgerAfter_eq]
    exact LedgerRun.called (Sample.stagedLedger_run trivial) Sample.resolvedExternal Sample.holdCall
      hadmitted trivial
  · intro hlossless
    obtain ⟨a, ha, hfailed⟩ := List.any_eq_true.mp Sample.heldLedgerRefused.down
    obtain ⟨event, hevent⟩ := hlossless.accepted a ha
    rw [hevent] at hfailed
    simp [Except.toOption] at hfailed

end CopilotRuntime.Effects
