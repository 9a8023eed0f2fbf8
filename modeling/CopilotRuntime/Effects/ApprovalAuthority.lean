import CopilotRuntime.Effects.Coordinator
import CopilotRuntime.Effects.StageHistory
import CopilotRuntime.Effects.Staging

/-!
# Only the accepted approval reaches the dispatcher

Stagers validate against a prefix that may be stale and append anyway, so the
ledger may hold conflicting decisions in any order. The coordinator folds the
history again. It dispatches only a command that pins the one decision the
fold accepted for the current revision.

## Implementation notes

A delivery starts with an arbitrary command. Commands that some approval
enqueued, in any number of copies, are among them.
-/

namespace CopilotRuntime.Effects

open Foundation

/-- The calls that share one ledger. -/
inductive ApprovalCall
  | stage (request : StageRequest) (stageId now : String)
  | bindProjection (request : BindProjectionRequest) (now : String)
  | revise (request : ReviseRequest) (now : String)
  | recordRowDecisions (request : RowDecisionsRequest) (now : String)
  | decide (request : DecideRequest) (now : String)
  | deliver (command : EffectCommitCommand) (cancellable : Bool) (mint : Minted)

def ApprovalCall.body (sha256 : String → String) : ApprovalCall → EffectProgram Unit
  | stage request stageId now => do
      let _ ← Effects.stage sha256 request stageId now
      pure ()
  | bindProjection request now => do
      let _ ← Effects.bindProjection sha256 request now
      pure ()
  | revise request now => do
      let _ ← Effects.revise sha256 request now
      pure ()
  | recordRowDecisions request now => do
      let _ ← Effects.recordRowDecisions sha256 request now
      pure ()
  | decide request now => do
      let _ ← Effects.decide sha256 request now
      pure ()
  | deliver command cancellable mint => do
      let _ ← handle sha256 cancellable command mint
      pure ()

abbrev ApprovalEvent := Event EffectOp EffectOp.Reply ApprovalCall

/-- The operations of the dispatcher. -/
def ReachesDispatcher : EffectOp → Prop
  | .claimGet _ | .claimCreate _ | .claimUpdate _ => True
  | .prepare _ _ | .authorize _ _ | .apply _ _ | .abort _ _ => True
  | _ => False

/-- The history's fold accepted exactly the approval the command pins. -/
structure Authorised (events : List StructuralEvent) (command : EffectCommitCommand) where
  state : EffectStageState
  decision : EffectStageDecision
  event : StructuralEvent
  folded : EffectStageFold.fold events = some state
  approved : state.status = .approved
  accepted : state.decision = some decision
  approves : decision.decision = .approve
  ofRevision : decision.revision = command.revision
  current : state.currentRevision.revision = command.revision
  proposal : decision.proposalDigest = command.proposalDigest ∧
    state.currentRevision.proposalDigest = command.proposalDigest
  target : decision.targetDigest = command.targetDigest ∧
    state.targetDigest = command.targetDigest
  bound : state.projectionRequired = true →
    ∃ binding, state.projectionBinding = some binding ∧ state.bindsCurrent binding = true
  recorded : event ∈ events ∧ event.eventType = EffectStageFold.eventDecision ∧
    EffectStageFold.readDecision event = some decision
  named : ∀ other ∈ events, other.ledgerId = command.decisionLedgerId ↔ other = event

section Fold
variable {events more : List StructuralEvent} {command command' : EffectCommitCommand}

theorem ledgerId_readDecision {event : StructuralEvent} {d : EffectStageDecision}
    (h : EffectStageFold.readDecision event = some d) : d.ledgerId = event.ledgerId := by
  simp only [EffectStageFold.readDecision, Option.bind_eq_bind, Option.bind_eq_some_iff] at h
  obtain ⟨_, _, _, _, _, _, _, _, _, _, _, _, _, _, _, _, hvalid⟩ := h
  rw [← (validated_eq_some hvalid).1]

/-- The coordinator's comparison establishes the authorisation. -/
theorem authorised_of_authorises {l : StageLedger} (ordered : l.Ordered)
    {scope : EffectStageScope} {state : EffectStageState}
    (hfold : EffectStageFold.fold (l.stageEvents scope.runId command.stageId) = some state)
    (h : authorises scope (l.stageEvents scope.runId command.stageId) state command = true) :
    Nonempty (Authorised (l.stageEvents scope.runId command.stageId) command) := by
  have hrecorded := EffectStageFold.decisionRecorded_fold
    (ordered.stageEvents_increasing scope.runId command.stageId) hfold
  simp only [authorises, Bool.and_eq_true, beq_iff_eq] at h
  obtain ⟨⟨⟨⟨⟨⟨_, hstatus⟩, hready⟩, hdecision⟩, hcurrent⟩, hproposal⟩, htarget⟩ := h
  cases hd : state.decision with
  | none => simp [hd] at hdecision
  | some decision =>
      simp only [hd, Bool.and_eq_true, beq_iff_eq] at hdecision
      obtain ⟨⟨⟨⟨⟨hkind, hrevision⟩, hledger⟩, hproposal'⟩, htarget'⟩, _⟩ := hdecision
      obtain ⟨event, hmem, htype, _, hread⟩ := hrecorded decision hd
      have hid : event.ledgerId = command.decisionLedgerId :=
        (ledgerId_readDecision hread).symm.trans hledger
      refine ⟨⟨state, decision, event, hfold, hstatus, hd, hkind, hrevision, hcurrent,
        ⟨hproposal', hproposal⟩, ⟨htarget', htarget⟩, fun hrequired => ?_, ⟨hmem, htype, hread⟩,
        fun other hother => ⟨fun heq => ?_, fun heq => heq ▸ hid⟩⟩⟩
      · simpa [EffectStageState.approvalReady, hrequired, Option.any_eq_true] using hready
      · exact ordered.eq_of_ledgerId hother hmem (heq.trans hid.symm)

/-- Two histories of one stage accept the same decision for the same revision. -/
theorem Authorised.ledgerId_unique (hpre : events <+: more)
    (increasing : more.Pairwise fun a b => a.sequenceNo < b.sequenceNo)
    (h : Authorised events command) (h' : Authorised more command')
    (revision : command.revision = command'.revision) :
    command.decisionLedgerId = command'.decisionLedgerId := by
  obtain ⟨state, hfold, hlater⟩ := EffectStageFold.later_of_prefix hpre increasing h.folded
  obtain rfl : state = h'.state := Option.some.inj (hfold.symm.trans h'.folded)
  have hkept : h'.state.decision = h.state.decision := by
    rcases hlater with hlt | ⟨_, hkeep⟩
    · rw [h.current, h'.current, revision] at hlt
      exact (Nat.lt_irrefl _ hlt).elim
    · exact (hkeep (by simp [EffectStageFold.isOpen, h.approved])).2
  have hdecision : h'.decision = h.decision := by
    have hsome := h'.accepted.symm.trans (hkept.trans h.accepted)
    exact Option.some.inj hsome
  have hid := (h.named h.event h.recorded.1).mpr rfl
  have hid' := (h'.named h'.event h'.recorded.1).mpr rfl
  rw [← hid, ← hid', ← ledgerId_readDecision h.recorded.2.2,
    ← ledgerId_readDecision h'.recorded.2.2, hdecision]

end Fold

/-- An operation of the dispatcher comes after its task read a history that authorises the
command it was started with. -/
def DispatchIsAuthorised (earlier : List ApprovalEvent) : ApprovalEvent → Prop
  | .performed n op _ =>
      ReachesDispatcher op →
        ∃ command cancellable mint scope events,
          .started n (.deliver command cancellable mint) ∈ earlier ∧
          scope.runId = command.runId ∧
          .performed n (.listStageEvents scope command.stageId) (.ok events) ∈ earlier ∧
          Nonempty (Authorised events command)
  | _ => True

/-- What every reachable trace and world satisfy. -/
structure ApprovalInvariant (trace : List ApprovalEvent) (w : EffectWorld) : Prop where
  ordered : w.ledger.Ordered
  read : ∀ n scope stageId events,
    .performed n (.listStageEvents scope stageId) (.ok events) ∈ trace →
      events <+: w.ledger.stageEvents scope.runId stageId
  covered : EachAfter DispatchIsAuthorised trace

theorem ApprovalInvariant.started {trace : List ApprovalEvent} {w : EffectWorld}
    (inv : ApprovalInvariant trace w) (n : Nat) (call : ApprovalCall) :
    ApprovalInvariant (trace ++ [Event.started n call]) w where
  ordered := inv.ordered
  read m scope stageId events h := by
    rcases List.mem_append.mp h with h | h
    · exact inv.read m scope stageId events h
    · simp at h
  covered := eachAfter_snoc.mpr ⟨inv.covered, trivial⟩

theorem ApprovalInvariant.stopped {trace : List ApprovalEvent} {w : EffectWorld}
    (inv : ApprovalInvariant trace w) (n : Nat) :
    ApprovalInvariant (trace ++ [Event.stopped n]) w where
  ordered := inv.ordered
  read m scope stageId events h := by
    rcases List.mem_append.mp h with h | h
    · exact inv.read m scope stageId events h
    · simp at h
  covered := eachAfter_snoc.mpr ⟨inv.covered, trivial⟩

/-- Any operation keeps the invariant if it is covered. -/
theorem ApprovalInvariant.performed {trace : List ApprovalEvent} {w w' : EffectWorld}
    {op : EffectOp} {reply : op.Reply} (inv : ApprovalInvariant trace w)
    (env : EffectWorld.env op w reply w') {n : Nat}
    (covered : DispatchIsAuthorised trace (.performed n op reply)) :
    ApprovalInvariant (trace ++ [Event.performed n op reply]) w' := by
  obtain ⟨hordered, hgrows⟩ := EffectWorld.ledger_grows env inv.ordered
  refine ⟨hordered, fun m scope stageId events h => ?_, eachAfter_snoc.mpr ⟨inv.covered, covered⟩⟩
  rcases List.mem_append.mp h with h | h
  · exact (inv.read m scope stageId events h).trans (hgrows scope.runId stageId)
  · cases List.mem_singleton.mp h
    obtain ⟨hread | ⟨e, he⟩, rfl⟩ := env
    · obtain rfl := Except.ok.inj hread
      exact List.prefix_rfl
    · cases he

section Safety

abbrev KeepsApproval {α : Type} (n : Nat) (p : EffectProgram α) (own : List ApprovalEvent) : Prop :=
  Safe EffectWorld.env ApprovalInvariant n (fun _ _ => True) p own

/-- Operations outside the dispatcher. -/
def Quiet (op : EffectOp) : Prop := ¬ReachesDispatcher op

variable {n : Nat} {own : List ApprovalEvent} {command : EffectCommitCommand}
  {cancellable : Bool} {mint : Minted} {α : Type}

theorem quiet_of_stagerOp (op : EffectOp) (h : StagerOp op) : Quiet op := by
  cases op with
  | listStageEvents scope stageId => exact fun hreach => hreach
  | appendStageEvent scope draft => exact fun hreach => hreach
  | enqueueAfterDecision command => exact fun hreach => hreach
  | _ => exact h.elim

theorem keepsApproval_of_quiet {p : EffectProgram α} (h : p.OnlyAwaits Quiet) :
    KeepsApproval n p own :=
  (Safe.of_onlyAwaits
    (fun _ _ _ _ _ hquiet _ inv env => inv.performed env fun hreach => (hquiet hreach).elim) h).mono
    fun _ _ _ => trivial

/-- The own events show that the task may enter the dispatcher. -/
def Granted (n : Nat) (events : List ApprovalEvent) : Prop :=
  ∃ command cancellable mint scope history,
    .started n (.deliver command cancellable mint) ∈ events ∧
    scope.runId = command.runId ∧
    .performed n (.listStageEvents scope command.stageId) (.ok history) ∈ events ∧
    Nonempty (Authorised history command)

/-- Once granted, every operation is covered. -/
theorem keepsApproval_of_granted (p : EffectProgram α) (granted : Granted n own) :
    KeepsApproval n p own := by
  obtain ⟨command, cancellable, mint, scope, history, hstart, hrun, hread, hauthorised⟩ := granted
  have hall : p.OnlyAwaits fun _ => True := Program.onlyAwaits_of_forall (fun _ => trivial) p
  refine (Safe.of_onlyAwaits (fun _ _ _ _ _ _ hsub inv env => inv.performed env ?_) hall).mono
    fun _ _ _ => trivial
  exact fun _ => ⟨command, cancellable, mint, scope, history, hsub _ hstart, hrun, hsub _ hread,
    hauthorised⟩

theorem keepsApproval_perform {op : EffectOp} {f : op.Reply → EffectProgram α} (h : Quiet op)
    (hf : ∀ reply, KeepsApproval n (f reply) (own ++ [Event.performed n op reply])) :
    KeepsApproval n (perform op >>= f) own :=
  .of_await fun _ _ reply _ inv _ env => ⟨inv.performed env fun hreach => (h hreach).elim, hf reply⟩

/-- Loading an authorised stage grants the dispatch; any other history ends in a refusal. -/
theorem keepsApproval_loadAuthorisedStage {scope : EffectStageScope}
    {f : Option EffectStageState → EffectProgram α}
    (started : .started n (.deliver command cancellable mint) ∈ own)
    (run : scope.runId = command.runId) (hnone : (f none).OnlyAwaits Quiet) :
    KeepsApproval n (loadAuthorisedStage scope command >>= f) own := by
  unfold loadAuthorisedStage
  rw [perform_bind, Program.await_bind]
  refine .of_await fun trace w reply w' inv _ env => ?_
  refine ⟨inv.performed env fun hreach => hreach.elim, ?_⟩
  obtain ⟨rfl | ⟨e, rfl⟩, -⟩ := env
  · cases hfold : EffectStageFold.fold (w.ledger.stageEvents scope.runId command.stageId) with
    | none => simpa [hfold] using keepsApproval_of_quiet hnone
    | some state =>
        by_cases h : authorises scope (w.ledger.stageEvents scope.runId command.stageId) state
            command = true
        · apply keepsApproval_of_granted
          exact ⟨command, cancellable, mint, scope, _, List.mem_append_left _ started, run,
            List.mem_append_right _ (List.mem_singleton.mpr rfl),
            authorised_of_authorises inv.ordered hfold h⟩
        · simpa [hfold, h] using keepsApproval_of_quiet hnone
  · exact keepsApproval_of_quiet hnone

theorem onlyAwaits_refuse (code : String) : (refuse command code).OnlyAwaits Quiet := by
  refine onlyAwaits_perform_bind (fun hreach => hreach) fun reply => ?_
  exact (onlyAwaits_unwrap reply).bind_pure _

variable (sha256 : String → String)

theorem keepsApproval_handle (started : .started n (.deliver command cancellable mint) ∈ own) :
    KeepsApproval n (handle sha256 cancellable command mint) own := by
  unfold handle
  refine keepsApproval_perform (fun hreach => hreach) fun reply => ?_
  cases reply with
  | error e => exact keepsApproval_of_quiet (.raised _)
  | ok resolved =>
      rw [unwrap_ok, Program.done_bind]
      cases resolved with
      | none => exact keepsApproval_of_quiet (onlyAwaits_refuse _)
      | some scope =>
          dsimp only
          by_cases hrun : scope.runId = command.runId
          · rw [if_neg (not_not.mpr hrun)]
            split
            · exact keepsApproval_of_quiet (.raised _)
            · exact keepsApproval_loadAuthorisedStage (List.mem_append_left _ started) hrun
                (onlyAwaits_refuse _)
          · rw [if_pos hrun]
            exact keepsApproval_of_quiet (onlyAwaits_refuse _)

theorem approvalVerified {w₀ : EffectWorld} (ordered : w₀.ledger.Ordered) :
    Verified (ApprovalCall.body sha256) EffectWorld.env ApprovalInvariant (fun _ _ _ => True) w₀
    where
  init := {
    ordered := ordered
    read := fun _ _ _ _ h => by cases h
    covered := eachAfter_nil }
  started _ _ n call inv _ := inv.started n call
  body_safe n call := by
    have hquiet {p : EffectProgram EffectStageState} (h : p.OnlyAwaits StagerOp) :
        KeepsApproval n (do let _ ← p; pure ()) [.started n call] :=
      keepsApproval_of_quiet ((h.mono quiet_of_stagerOp).bind_pure _)
    cases call with
    | stage request stageId now => exact hquiet (onlyAwaits_stage sha256 request stageId now)
    | bindProjection request now => exact hquiet (onlyAwaits_bindProjection sha256 request now)
    | revise request now => exact hquiet (onlyAwaits_revise sha256 request now)
    | recordRowDecisions request now =>
        exact hquiet (onlyAwaits_recordRowDecisions sha256 request now)
    | decide request now => exact hquiet (onlyAwaits_decide sha256 request now)
    | deliver command cancellable mint =>
        refine Safe.bind (keepsApproval_handle sha256 (List.mem_singleton.mpr rfl)) ?_ ?_
        · exact fun _ _ _ => .done trivial
        · exact fun _ _ _ => trivial
  stopped _ _ n inv := inv.stopped n

end Safety

/-- A delivery of the command entered the dispatcher. -/
def Dispatched (trace : List ApprovalEvent) (command : EffectCommitCommand) : Prop :=
  ∃ n cancellable mint op reply, .started n (.deliver command cancellable mint) ∈ trace ∧
    .performed n op reply ∈ trace ∧ ReachesDispatcher op

/-- In every interleaving a delivery enters the dispatcher only after it read a history whose
fold accepted exactly the pinned approval, and all deliveries that do so for one revision of a
stage name the same decision. -/
theorem dispatch_requires_accepted_approval (sha256 : String → String) {w₀ : EffectWorld}
    (ordered : w₀.ledger.Ordered) {trace : List ApprovalEvent}
    {pool : Pool EffectOp EffectOp.Reply EffectError Unit EffectWorld}
    (run : Run (ApprovalCall.body sha256) EffectWorld.env w₀ trace pool) :
    EachAfter DispatchIsAuthorised trace ∧
      ∀ command command', Dispatched trace command → Dispatched trace command' →
        command.runId = command'.runId → command.stageId = command'.stageId →
        command.revision = command'.revision →
        command.decisionLedgerId = command'.decisionLedgerId := by
  have inv := run.invariant (approvalVerified sha256 ordered)
  have hread (c : EffectCommitCommand) (h : Dispatched trace c) :
      ∃ history, history <+: pool.shared.ledger.stageEvents c.runId c.stageId ∧
        Nonempty (Authorised history c) := by
    obtain ⟨n, cancellable, mint, op, reply, hstart, hmem, hreach⟩ := h
    obtain ⟨earlier, later, rfl⟩ := List.append_of_mem hmem
    obtain ⟨c', cancellable', mint', scope, history, hstart', hrun, hlist, hauthorised⟩ :=
      inv.covered earlier _ later rfl hreach
    have hcall := run.started_unique hstart (List.mem_append_left _ hstart')
    injection hcall with hc
    subst hc
    exact ⟨history, hrun ▸ inv.read n scope _ _ (List.mem_append_left _ hlist), hauthorised⟩
  refine ⟨inv.covered, fun command command' h h' hrun hstage hrevision => ?_⟩
  obtain ⟨history, hpre, ⟨hauth⟩⟩ := hread command h
  obtain ⟨history', hpre', ⟨hauth'⟩⟩ := hread command' h'
  rw [← hrun, ← hstage] at hpre'
  have hincreasing := inv.ordered.stageEvents_increasing command.runId command.stageId
  rcases List.prefix_or_prefix_of_prefix hpre hpre' with hle | hle
  · exact hauth.ledgerId_unique hle (hincreasing.sublist hpre'.sublist) hauth' hrevision
  · exact (hauth'.ledgerId_unique hle (hincreasing.sublist hpre.sublist) hauth
      hrevision.symm).symm

namespace Sample

def stageScope : EffectStageScope := ⟨"run-1", "principal://users/user-1"⟩

def owner : EffectActorIdentity := ⟨.user, "principal://users/user-1"⟩

/-- A connector write proposed under a known policy snapshot. -/
def stageRequest : StageRequest where
  scope := stageScope
  proposedEffect := {
    operationId := "op_0f8fad5b-d9cb-469f-a165-70867728950e"
    executor := .mcp
    target := ⟨.mcp, "crm", "contacts.update", "mcp://crm/contacts", none, "Contacts"⟩
    targetDigest := digest
    displayTarget := "Contacts"
    proposalKind := .canonicalArguments
    proposalContentRef := "artifact://content/1"
    proposalDigest := digest
    proposalMediaType := "application/json"
    preconditionRef := none
    preconditionDigest := none
    effectClass := .externalReversible
    policySnapshotRef := "policy://snapshots/1"
    agentHold := false
    safeSummaryRef := none
    projectionRequired := false }
  policySnapshot := ⟨"policy://snapshots/1", true, none, none, none, none, none, false, false⟩
  actor := owner
  idempotencyKey := "stage:1"

/-- An approval of revision one, under the given retry key. -/
def approval (idempotencyKey : String) : DecideRequest where
  scope := stageScope
  stageId := stageId
  revision := 1
  decision := .approve
  proposalDigest := digest
  targetDigest := digest
  actor := owner
  idempotencyKey := idempotencyKey
  rowKeys := none
  governedCapabilities := none

/-- The command of the approval recorded at the given position. -/
def command (decisionLedgerId idempotencyKey : String) : EffectCommitCommand where
  runId := "run-1"
  stageId := stageId
  revision := 1
  decisionLedgerId := decisionLedgerId
  proposalDigest := digest
  targetDigest := digest
  idempotencyKey := idempotencyKey
  rowKeys := none
  retryBasisLedgerId := none
  governedCapabilities := none

/-- The run, its executor and its references resolve, and the effect is applied. -/
def resolvedExternal : (op : EffectOp) → op.Reply
  | .resolveScope _ => .ok (some scope)
  | .resolveExecutor _ _ => .ok ⟨.mcp, { supportsPrepare := false }⟩
  | .digestReference _ _ => some digest
  | .isCancelled _ _ => .ok false
  | .audit _ _ => .ok ()
  | op => (replies request true (.plain .applied "Done.")).external op

/-- The world after a stage was opened in an empty one. -/
def stagedWorld (r : StageRequest) : EffectWorld :=
  (Program.runWith (EffectWorld.answer resolvedExternal) (stage (fun _ => digest) r stageId "t0")
    EffectWorld.empty).2

theorem stagedWorld_eq (r : StageRequest) :
    stagedWorld r =
      (Program.runWith (EffectWorld.answer resolvedExternal) (stage (fun _ => digest) r stageId "t0")
        EffectWorld.empty).2 := rfl

/-- The event that opens a stage. -/
def stagedEvent (r : StageRequest) (policy : EffectPolicy) (proposalRef : String) :
    StageEventDraft where
  eventType := EffectStageFold.eventStaged
  payload := stagedPayload r stageId proposalRef policy.value "t0"
  idempotencyKey := r.idempotencyKey
  requestFingerprint := fingerprint (fun _ => digest) "stage"
    [("scope", scopeJson r.scope), ("proposed_effect", proposedEffectJson r.proposedEffect),
      ("policy_snapshot", snapshotJson r.policySnapshot), ("actor", actorJson r.actor)]

def proposalRef : String := "proposal://" ++ stageId ++ "/revisions/1"

/-- An admitted stage is opened by one event; what is folded from it is not looked at. -/
theorem stagedWorld_admitted {r : StageRequest} {policy : EffectPolicy}
    (hkey : isStableKey r.idempotencyKey = true) (hadmitted : admitProposal r = .ok policy) :
    stagedWorld r =
      (EffectWorld.answer resolvedExternal (.appendStageEvent r.scope (stagedEvent r policy proposalRef))
        EffectWorld.empty).2 := by
  have hformat : ProposalUriCodec.format stageId 1 = some proposalRef := by decide
  have hvalid : validateIdempotencyKey r.idempotencyKey = .done () := if_pos hkey
  have hunwrapped : (unwrapStage (admitProposal r) : EffectProgram EffectPolicy) = .done policy := by
    rw [hadmitted]
    rfl
  rw [stagedWorld_eq, stage, hvalid, hunwrapped, hformat]
  simp only [Program.done_bind, perform_bind, Program.runWith_await]
  exact Program.runWith_of_silent _ ((onlyAwaits_unwrap _).bind fun _ => onlyAwaits_unwrapStage _) _

end Sample

/-- Two approvals of one revision are validated against the same prefix and both recorded. Both
commands are delivered, and only the first one is dispatched. -/
def sampleApprovals :
    List ApprovalEvent × Pool EffectOp EffectOp.Reply EffectError Unit EffectWorld :=
  Pool.play (EffectWorld.answer Sample.resolvedExternal)
    (ApprovalCall.body fun _ => Sample.digest) EffectWorld.empty
    ([.start (.stage Sample.stageRequest Sample.stageId "t0"), .perform 0,
      .start (.decide (Sample.approval "decide:1") "t1"),
      .start (.decide (Sample.approval "decide:2") "t1")] ++
      [1, 2, 1, 2, 1, 2, 1, 2].map .perform ++
      [.start (.deliver (Sample.command "rrun·002" "decide:1") true Sample.mint),
        .start (.deliver (Sample.command "rrun·003" "decide:2") true Sample.mint)] ++
      [3, 4, 3, 4, 3, 4, 3, 3, 3, 3, 3, 3, 3, 3, 3, 3, 3].map .perform)

theorem dispatch_requires_accepted_approval_sample :
    EachAfter DispatchIsAuthorised sampleApprovals.1 ∧
      ∀ command command', Dispatched sampleApprovals.1 command →
        Dispatched sampleApprovals.1 command' → command.runId = command'.runId →
        command.stageId = command'.stageId → command.revision = command'.revision →
        command.decisionLedgerId = command'.decisionLedgerId :=
  dispatch_requires_accepted_approval _ StageLedger.ordered_empty
    (Run.play (EffectWorld.answer_sound _) _)

end CopilotRuntime.Effects
