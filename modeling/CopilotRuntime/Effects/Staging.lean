import CopilotRuntime.Effects.Operations

/-!
# Staging proposals and recording decisions

The stager validates a request against the folded state it has just read and
then appends one event. It does not lock the stage, so the state may have
moved on when the event lands; the fold decides which events count.

## Implementation notes

The checks of each operation are one pure function of the folded state. The
clock reading and the generated stage id are given when an operation starts.
-/

namespace CopilotRuntime.Effects

open Foundation

/-- Policy facts evaluated once, when a proposal becomes a stage. -/
structure EffectPolicySnapshot where
  snapshotRef : String
  descriptorKnown : Bool
  deploymentPolicy : Option EffectPolicy
  organizationPolicy : Option EffectPolicy
  grantPolicy : Option EffectPolicy
  capabilityPolicy : Option EffectPolicy
  userPolicy : Option EffectPolicy
  allowAlways : Bool
  sensitiveTarget : Bool

/-- A proposal without a stage id or a trusted run identity. -/
structure ProposedEffect where
  operationId : String
  executor : EffectExecutorKind
  target : EffectTarget
  targetDigest : String
  displayTarget : String
  proposalKind : EffectProposalKind
  proposalContentRef : String
  proposalDigest : String
  proposalMediaType : String
  preconditionRef : Option String
  preconditionDigest : Option String
  effectClass : EffectClass
  policySnapshotRef : String
  agentHold : Bool
  safeSummaryRef : Option String
  projectionRequired : Bool
  deriving DecidableEq

/-- Replacement content for the immutable target of a stage. -/
structure EffectRevisionProposal where
  proposalKind : EffectProposalKind
  proposalContentRef : String
  proposalDigest : String
  proposalMediaType : String
  targetRef : String
  targetDigest : String
  displayTarget : String
  preconditionRef : Option String
  preconditionDigest : Option String
  safeDiffRef : Option String
  deriving DecidableEq

section Policy

/-- The explicit allow-always path for a known, reversible and insensitive effect. -/
def allowAlwaysEligible (p : ProposedEffect) (s : EffectPolicySnapshot) : Bool :=
  s.allowAlways && s.descriptorKnown && p.effectClass == .externalReversible &&
    !s.sensitiveTarget && !p.agentHold

/-- A configured automatic setting only counts on the allow-always path. -/
def configuredPolicy (eligible : Bool) (policy : EffectPolicy) : EffectPolicy :=
  if policy = .auto ∧ !eligible then .ask else policy

/-- Every policy and risk floor that takes part in the comparison. -/
def policyCandidates (p : ProposedEffect) (s : EffectPolicySnapshot) : List EffectPolicy :=
  let eligible := allowAlwaysEligible p s
  let classFloor : List EffectPolicy := match p.effectClass with
    | .externalDestructive => [.require]
    | .unknown => [.ask]
    | .externalReversible => if eligible then [] else [.ask]
    | .none | .internalReversible => [.block]
  let named := [s.deploymentPolicy, s.organizationPolicy, s.grantPolicy, s.capabilityPolicy,
    s.userPolicy].filterMap id
  classFloor ++ (if p.agentHold then [.require] else []) ++
    (if s.sensitiveTarget then [.require] else []) ++
    (if s.descriptorKnown then [] else [.ask]) ++
    named.map (configuredPolicy eligible) ++ (if eligible then [.auto] else [])

def EffectPolicy.rank : EffectPolicy → Nat
  | .auto => 0
  | .ask => 1
  | .require => 2
  | .block => 3

/-- The most restrictive candidate. -/
def EffectStagePolicyResolver.resolve (p : ProposedEffect) (s : EffectPolicySnapshot) :
    EffectPolicy :=
  (policyCandidates p s).foldl (fun best c => if best.rank < c.rank then c else best) .auto

end Policy

/-- The executors each kind of proposal may go to. -/
def proposalExecutorPair (kind : EffectProposalKind) (executor : EffectExecutorKind) : Bool :=
  match kind with
  | .canonicalArguments | .rowSet => executor == .mcp || executor == .builtin
  | .artifactRevision => true
  | .workspaceChangeSet => executor == .workspace
  | .browserSubmission => executor == .browser
  | .sandboxPatch => executor == .sandbox
  | .builtinPayload => executor == .builtin

section Json

def scopeJson (s : EffectStageScope) : Json :=
  .obj [("run_id", .str s.runId), ("owner_ref", .str s.ownerRef)]

def actorJson (a : EffectActorIdentity) : Json :=
  .obj [("actor", .str a.actor.value), ("principal_ref", .str a.principalRef)]

def targetJson (t : EffectTarget) : Json :=
  .obj [("executor", .str t.executor.value), ("capability", .str t.capability), ("op", .str t.op),
    ("target_ref", .str t.targetRef), ("precondition_ref", Json.ofOption t.preconditionRef),
    ("display_label", .str t.displayLabel)]

def policyJson (p : Option EffectPolicy) : Json := Json.ofOption (p.map EffectPolicy.value)

def snapshotJson (s : EffectPolicySnapshot) : Json :=
  .obj [("snapshot_ref", .str s.snapshotRef), ("descriptor_known", .bool s.descriptorKnown),
    ("deployment_policy", policyJson s.deploymentPolicy),
    ("organization_policy", policyJson s.organizationPolicy),
    ("grant_policy", policyJson s.grantPolicy),
    ("capability_policy", policyJson s.capabilityPolicy),
    ("user_policy", policyJson s.userPolicy), ("allow_always", .bool s.allowAlways),
    ("sensitive_target", .bool s.sensitiveTarget)]

def proposedEffectJson (p : ProposedEffect) : Json :=
  .obj [("operation_id", .str p.operationId), ("executor", .str p.executor.value),
    ("target", targetJson p.target), ("target_digest", .str p.targetDigest),
    ("display_target", .str p.displayTarget), ("proposal_kind", .str p.proposalKind.value),
    ("proposal_content_ref", .str p.proposalContentRef),
    ("proposal_digest", .str p.proposalDigest), ("proposal_media_type", .str p.proposalMediaType),
    ("precondition_ref", Json.ofOption p.preconditionRef),
    ("precondition_digest", Json.ofOption p.preconditionDigest),
    ("effect_class", .str p.effectClass.value),
    ("policy_snapshot_ref", .str p.policySnapshotRef), ("agent_hold", .bool p.agentHold),
    ("safe_summary_ref", Json.ofOption p.safeSummaryRef),
    ("projection_required", .bool p.projectionRequired)]

def revisionProposalJson (p : EffectRevisionProposal) : Json :=
  .obj [("proposal_kind", .str p.proposalKind.value),
    ("proposal_content_ref", .str p.proposalContentRef),
    ("proposal_digest", .str p.proposalDigest), ("proposal_media_type", .str p.proposalMediaType),
    ("target_ref", .str p.targetRef), ("target_digest", .str p.targetDigest),
    ("display_target", .str p.displayTarget),
    ("precondition_ref", Json.ofOption p.preconditionRef),
    ("precondition_digest", Json.ofOption p.preconditionDigest),
    ("safe_diff_ref", Json.ofOption p.safeDiffRef)]

/-- The digest of one request's metadata, for idempotent appends. -/
def fingerprint (sha256 : String → String) (kind : String) (value : Payload) : String :=
  sha256 (Json.dumps (.obj [("kind", .str kind), ("value", .obj value)]))

end Json

section Checks

/-- The user must own the scope; policy and system may act only where they are admitted. -/
def assertOwner (scope : EffectStageScope) (actor : EffectActorIdentity)
    (allowPolicyOrSystem : Bool) : Except EffectStageError Unit :=
  if actor.actor = .user ∧ actor.principalRef = scope.ownerRef then .ok ()
  else if allowPolicyOrSystem ∧ (actor.actor = .policy ∨ actor.actor = .system) then .ok ()
  else .error .forbidden

/-- The stage has left the statuses in which it waits for a decision. -/
def isDecided (s : EffectStageState) : Bool :=
  s.status == .approved || s.status == .rejected || s.status == .cancelled

/-- The digests a caller names are those of the current revision and target. -/
def pinsCurrent (s : EffectStageState) (proposalDigest targetDigest : String) : Bool :=
  proposalDigest == s.currentRevision.proposalDigest && targetDigest == s.targetDigest

end Checks

/-- One request to bind a visible projection to a revision. -/
structure BindProjectionRequest where
  scope : EffectStageScope
  stageId : String
  revision : Nat
  projectionRef : String
  proposalDigest : String
  targetDigest : String
  actor : EffectActorIdentity
  idempotencyKey : String

structure ReviseRequest where
  scope : EffectStageScope
  stageId : String
  expectedRevision : Nat
  proposal : EffectRevisionProposal
  actor : EffectActorIdentity
  idempotencyKey : String

structure RowDecisionsRequest where
  scope : EffectStageScope
  stageId : String
  revision : Nat
  decisions : List (String × String)
  proposalDigest : String
  targetDigest : String
  actor : EffectActorIdentity
  idempotencyKey : String

/-- One request to decide an exact revision. -/
structure DecideRequest where
  scope : EffectStageScope
  stageId : String
  revision : Nat
  decision : EffectDecisionKind
  proposalDigest : String
  targetDigest : String
  actor : EffectActorIdentity
  idempotencyKey : String
  rowKeys : Option (List String)
  governedCapabilities : Option (List String)

structure StageRequest where
  scope : EffectStageScope
  proposedEffect : ProposedEffect
  policySnapshot : EffectPolicySnapshot
  actor : EffectActorIdentity
  idempotencyKey : String

/-- Raise a stage error. -/
def unwrapStage {α : Type} : Except EffectStageError α → EffectProgram α
  | .ok a => .done a
  | .error e => .raised (.stage e)

def validateIdempotencyKey (key : String) : EffectProgram Unit :=
  if isStableKey key then .done ()
  else .raised (.external "idempotency_key must be a stable opaque key")

/-- Fold a history and check that it belongs to the scope. -/
def foldedState (scope : EffectStageScope) (events : List StructuralEvent) :
    Except EffectStageError EffectStageState :=
  match EffectStageFold.fold events with
  | none => .error .notFound
  | some state => if state.scope = scope then .ok state else .error .forbidden

theorem fold_of_foldedState {scope : EffectStageScope} {events : List StructuralEvent}
    {state : EffectStageState} (h : foldedState scope events = .ok state) :
    EffectStageFold.fold events = some state := by
  unfold foldedState at h
  split at h
  · cases h
  · next folded hfold =>
      split at h
      · exact hfold.trans (congrArg some (Except.ok.inj h))
      · cases h

/-- Read one state exclusively by folding its ledger history. -/
def readState (scope : EffectStageScope) (stageId : String) : EffectProgram EffectStageState := do
  let events ← unwrap (← perform (.listStageEvents scope stageId))
  unwrapStage (foldedState scope events)

def getState (scope : EffectStageScope) (stageId : String) : EffectProgram EffectStageState :=
  if (EffectStageIdCodec.parse stageId).isSome then readState scope stageId
  else .raised (.external "invalid effect_stage_id")

section Stage

def stagedPayload (r : StageRequest) (stageId proposalRef policy now : String) : Payload :=
  let p := r.proposedEffect
  [("v", .int 1), ("stage_id", .str stageId), ("operation_id", .str p.operationId),
    ("executor", .str p.executor.value), ("capability", .str p.target.capability),
    ("op", .str p.target.op), ("target_ref", .str p.target.targetRef),
    ("target_digest", .str p.targetDigest), ("display_target", .str p.displayTarget),
    ("proposal_kind", .str p.proposalKind.value), ("proposal_ref", .str proposalRef),
    ("proposal_content_ref", .str p.proposalContentRef),
    ("proposal_digest", .str p.proposalDigest), ("proposal_media_type", .str p.proposalMediaType),
    ("precondition_ref", Json.ofOption p.preconditionRef),
    ("precondition_digest", Json.ofOption p.preconditionDigest),
    ("effect_class", .str p.effectClass.value),
    ("policy_snapshot_ref", .str p.policySnapshotRef), ("policy", .str policy),
    ("agent_hold", .bool p.agentHold), ("safe_summary_ref", Json.ofOption p.safeSummaryRef),
    ("projection_required", .bool p.projectionRequired), ("owner_ref", .str r.scope.ownerRef),
    ("author_actor", .str r.actor.actor.value), ("author_ref", .str r.actor.principalRef),
    ("created_at", .str now)]

/-- What a proposal must satisfy before a stage id is allocated for it. -/
def admitProposal (r : StageRequest) : Except EffectStageError EffectPolicy := do
  if r.proposedEffect.effectClass = .none ∨ r.proposedEffect.effectClass = .internalReversible then
    throw .notStageable
  assertOwner r.scope r.actor true
  if r.proposedEffect.policySnapshotRef ≠ r.policySnapshot.snapshotRef then
    throw .digestMismatch
  let policy := EffectStagePolicyResolver.resolve r.proposedEffect r.policySnapshot
  if policy = .block then throw .policyBlocked
  pure policy

variable (sha256 : String → String)

/-- Create one stage with revision one. -/
def stage (r : StageRequest) (stageId now : String) : EffectProgram EffectStageState := do
  validateIdempotencyKey r.idempotencyKey
  let policy ← unwrapStage (admitProposal r)
  match ProposalUriCodec.format stageId 1 with
  | none => .raised (.external "invalid effect_stage_id")
  | some proposalRef =>
      let event ← unwrap (← perform (.appendStageEvent r.scope {
        eventType := EffectStageFold.eventStaged
        payload := stagedPayload r stageId proposalRef policy.value now
        idempotencyKey := r.idempotencyKey
        requestFingerprint := fingerprint sha256 "stage"
          [("scope", scopeJson r.scope), ("proposed_effect", proposedEffectJson r.proposedEffect),
            ("policy_snapshot", snapshotJson r.policySnapshot), ("actor", actorJson r.actor)] }))
      unwrapStage (foldedState r.scope [event])

end Stage

section Binding
variable (sha256 : String → String)

/-- The binding is the requested one. -/
def bindsAsRequested (r : BindProjectionRequest) (b : EffectProjectionBinding) : Bool :=
  b.revision == r.revision && b.projectionRef == r.projectionRef &&
    b.proposalDigest == r.proposalDigest && b.targetDigest == r.targetDigest

/-- Whether the binding has to be appended, or is the one already recorded. -/
def admitBinding (s : EffectStageState) (r : BindProjectionRequest) :
    Except EffectStageError Bool := do
  assertOwner r.scope r.actor true
  if !s.projectionRequired then throw .invalidTransition
  if isDecided s then throw .invalidTransition
  if r.revision ≠ s.currentRevision.revision then throw .staleRevision
  if !pinsCurrent s r.proposalDigest r.targetDigest then throw .digestMismatch
  match s.projectionBinding with
  | none => pure true
  | some binding => if bindsAsRequested r binding then pure false else throw .invalidTransition

def bindingDraft (r : BindProjectionRequest) (now : String) : StageEventDraft where
  eventType := EffectStageFold.eventProjectionBound
  payload := [("v", .int 1), ("stage_id", .str r.stageId), ("revision", .int r.revision),
    ("projection_ref", .str r.projectionRef), ("proposal_digest", .str r.proposalDigest),
    ("target_digest", .str r.targetDigest), ("bound_at", .str now)]
  idempotencyKey := r.idempotencyKey
  requestFingerprint := fingerprint sha256 "bind_projection"
    [("stage_id", .str r.stageId), ("revision", .int r.revision),
      ("projection_ref", .str r.projectionRef), ("proposal_digest", .str r.proposalDigest),
      ("target_digest", .str r.targetDigest), ("actor", actorJson r.actor)]

/-- The re-read state after an append; a competing event may have won. -/
def confirmBinding (s : EffectStageState) (r : BindProjectionRequest) :
    Except EffectStageError EffectStageState :=
  if s.currentRevision.revision ≠ r.revision then .error .staleRevision
  else if s.approvalReady && s.projectionBinding.any (bindsAsRequested r) then .ok s
  else .error .invalidTransition

/-- Bind one retained visible projection to an exact revision. -/
def bindProjection (r : BindProjectionRequest) (now : String) :
    EffectProgram EffectStageState := do
  validateIdempotencyKey r.idempotencyKey
  let state ← readState r.scope r.stageId
  if ← unwrapStage (admitBinding state r) then
    let _ ← unwrap (← perform (.appendStageEvent r.scope (bindingDraft sha256 r now)))
    let bound ← getState r.scope r.stageId
    unwrapStage (confirmBinding bound r)
  else pure state

end Binding

section Revise
variable (sha256 : String → String)

/-- A replacement keeps the stage's target and precondition. -/
def revisionProposalRetainsTarget (s : EffectStageState) (p : EffectRevisionProposal) : Bool :=
  p.targetRef == s.target.targetRef && p.targetDigest == s.targetDigest &&
    p.displayTarget == s.displayTarget &&
    p.preconditionRef == s.currentRevision.preconditionRef &&
    p.preconditionDigest == s.currentRevision.preconditionDigest

def admitRevision (s : EffectStageState) (r : ReviseRequest) : Except EffectError Unit := do
  (assertOwner r.scope r.actor false).mapError .stage
  if r.expectedRevision ≠ s.currentRevision.revision then throw (.stage .staleRevision)
  if s.status = .cancelled then throw (.stage .invalidTransition)
  if !proposalExecutorPair r.proposal.proposalKind s.executor then
    throw (.external "proposal kind is incompatible with executor")
  if !revisionProposalRetainsTarget s r.proposal then throw (.stage .immutableTarget)

def revisionDraft (r : ReviseRequest) (proposalRef now : String) : StageEventDraft where
  eventType := EffectStageFold.eventRevised
  payload := [("v", .int 1), ("stage_id", .str r.stageId),
    ("revision", .int (r.expectedRevision + 1 : Nat)),
    ("proposal_kind", .str r.proposal.proposalKind.value), ("proposal_ref", .str proposalRef),
    ("proposal_content_ref", .str r.proposal.proposalContentRef),
    ("proposal_digest", .str r.proposal.proposalDigest),
    ("proposal_media_type", .str r.proposal.proposalMediaType),
    ("target_ref", .str r.proposal.targetRef), ("target_digest", .str r.proposal.targetDigest),
    ("display_target", .str r.proposal.displayTarget),
    ("precondition_ref", Json.ofOption r.proposal.preconditionRef),
    ("precondition_digest", Json.ofOption r.proposal.preconditionDigest),
    ("safe_diff_ref", Json.ofOption r.proposal.safeDiffRef),
    ("author_actor", .str r.actor.actor.value), ("author_ref", .str r.actor.principalRef),
    ("created_at", .str now)]
  idempotencyKey := r.idempotencyKey
  requestFingerprint := fingerprint sha256 "revise"
    [("stage_id", .str r.stageId), ("expected_revision", .int r.expectedRevision),
      ("proposal", revisionProposalJson r.proposal), ("actor", actorJson r.actor)]

/-- Replace proposal content only. -/
def revise (r : ReviseRequest) (now : String) : EffectProgram EffectStageState := do
  validateIdempotencyKey r.idempotencyKey
  let state ← getState r.scope r.stageId
  unwrap (admitRevision state r)
  match ProposalUriCodec.format r.stageId (r.expectedRevision + 1) with
  | none => .raised (.external "invalid proposal revision")
  | some proposalRef =>
      let _ ← unwrap (← perform (.appendStageEvent r.scope (revisionDraft sha256 r proposalRef now)))
      getState r.scope r.stageId

end Revise

section RowDecisions
variable (sha256 : String → String)

def normalizedDecisions (decisions : List (String × String)) : List (String × String) :=
  decisions.insertionSort fun a b => a.1 ≤ b.1

def admitRowDecisions (s : EffectStageState) (r : RowDecisionsRequest) :
    Except EffectStageError Unit := do
  assertOwner r.scope r.actor false
  if s.currentRevision.proposalKind ≠ .rowSet ∨ !EffectStageFold.isOpen s then
    throw .invalidTransition
  if r.revision ≠ s.currentRevision.revision then throw .staleRevision
  if !pinsCurrent s r.proposalDigest r.targetDigest then throw .digestMismatch
  if r.decisions.isEmpty ∨
      r.decisions.any fun d => d.1.isEmpty || !(d.2 == "approve" || d.2 == "hold") then
    throw .invalidTransition

def rowDecisionsDraft (r : RowDecisionsRequest) (now : String) : StageEventDraft where
  eventType := EffectStageFold.eventRowDecisions
  payload := [("v", .int 1), ("stage_id", .str r.stageId), ("revision", .int r.revision),
    ("decisions", .arr ((normalizedDecisions r.decisions).map fun d =>
      .obj [("row_key", .str d.1), ("decision", .str d.2)])),
    ("actor", .str r.actor.actor.value), ("actor_ref", .str r.actor.principalRef),
    ("proposal_digest", .str r.proposalDigest), ("target_digest", .str r.targetDigest),
    ("decided_at", .str now)]
  idempotencyKey := r.idempotencyKey
  requestFingerprint := fingerprint sha256 "row-decisions"
    [("stage_id", .str r.stageId), ("revision", .int r.revision),
      ("decisions", .arr ((normalizedDecisions r.decisions).map fun d =>
        .arr [.str d.1, .str d.2])),
      ("proposal_digest", .str r.proposalDigest), ("target_digest", .str r.targetDigest),
      ("actor", actorJson r.actor)]

/-- Persist row-review posture without approving or enqueueing an effect. -/
def recordRowDecisions (r : RowDecisionsRequest) (now : String) :
    EffectProgram EffectStageState := do
  validateIdempotencyKey r.idempotencyKey
  let state ← getState r.scope r.stageId
  unwrapStage (admitRowDecisions state r)
  let _ ← unwrap (← perform (.appendStageEvent r.scope (rowDecisionsDraft sha256 r now)))
  getState r.scope r.stageId

end RowDecisions

section Decide
variable (sha256 : String → String)

/-- The recorded decision is the requested one. -/
def isIdenticalDecision (s : EffectStageState) (r : DecideRequest) : Bool :=
  s.decision.any fun d =>
    d.decision == r.decision && d.actor == r.actor && d.proposalDigest == r.proposalDigest &&
      d.targetDigest == r.targetDigest && d.rowKeys == r.rowKeys

/-- Approving a row set names its rows, and no other decision names any. -/
def rowKeysFit (s : EffectStageState) (r : DecideRequest) : Bool :=
  match r.decision, r.rowKeys with
  | .approve, some keys =>
      s.currentRevision.proposalKind == .rowSet && !keys.isEmpty && keys.Nodup
  | .approve, none => s.currentRevision.proposalKind != .rowSet
  | _, some _ => false
  | _, none => true

/-- Whether the decision has to be appended, or is the one already recorded. -/
def admitDecision (s : EffectStageState) (r : DecideRequest) : Except EffectStageError Bool := do
  assertOwner r.scope r.actor true
  if r.revision ≠ s.currentRevision.revision then throw .staleRevision
  if !pinsCurrent s r.proposalDigest r.targetDigest then throw .digestMismatch
  if r.decision = .restore then throw .invalidTransition
  if isDecided s then
    if isIdenticalDecision s r then pure false else throw .invalidTransition
  else do
    if !EffectStageFold.isOpen s then throw .invalidTransition
    if s.policy = .block then throw .policyBlocked
    if r.decision = .approve ∧ !s.approvalReady then throw .projectionUnbound
    if !rowKeysFit s r then throw .invalidTransition
    if r.actor.actor = .policy ∧ s.policy ≠ .auto then throw .forbidden
    if r.actor.actor = .policy ∧ r.decision ≠ .approve then throw .forbidden
    pure true

def decisionDraft (r : DecideRequest) (now : String) : StageEventDraft where
  eventType := EffectStageFold.eventDecision
  payload := [("v", .int 1), ("stage_id", .str r.stageId), ("revision", .int r.revision),
    ("decision", .str r.decision.value), ("actor", .str r.actor.actor.value),
    ("actor_ref", .str r.actor.principalRef), ("proposal_digest", .str r.proposalDigest),
    ("target_digest", .str r.targetDigest), ("decided_at", .str now)] ++
    (r.rowKeys.map fun keys => ("row_keys", Json.strings keys)).toList
  idempotencyKey := r.idempotencyKey
  requestFingerprint := fingerprint sha256 "decide"
    [("stage_id", .str r.stageId), ("revision", .int r.revision),
      ("decision", .str r.decision.value), ("proposal_digest", .str r.proposalDigest),
      ("target_digest", .str r.targetDigest),
      ("row_keys", match r.rowKeys with
        | some keys => Json.strings keys
        | none => .null),
      ("actor", actorJson r.actor)]

/-- The command an approval enqueues once its event has a ledger id. -/
def commitCommand (r : DecideRequest) (event : StructuralEvent) : EffectCommitCommand where
  runId := r.scope.runId
  stageId := r.stageId
  revision := r.revision
  decisionLedgerId := event.ledgerId
  proposalDigest := r.proposalDigest
  targetDigest := r.targetDigest
  idempotencyKey := r.idempotencyKey
  rowKeys := r.rowKeys
  retryBasisLedgerId := none
  governedCapabilities := r.governedCapabilities

/-- Hand an approval's command to the outbox. -/
def enqueueApproved (r : DecideRequest) (event : StructuralEvent) : EffectProgram Unit :=
  if r.decision = .approve then
    if (commitCommand r event).errors = [] then do
      unwrap (← perform (.enqueueAfterDecision (commitCommand r event)))
    else .raised (.validation (commitCommand r event).errors)
  else pure ()

/-- Record a digest-pinned decision and enqueue only an approved command. -/
def decide (r : DecideRequest) (now : String) : EffectProgram EffectStageState := do
  validateIdempotencyKey r.idempotencyKey
  let state ← getState r.scope r.stageId
  if ← unwrapStage (admitDecision state r) then
    let event ← unwrap (← perform (.appendStageEvent r.scope (decisionDraft sha256 r now)))
    enqueueApproved r event
    getState r.scope r.stageId
  else pure state

end Decide

section Footprints

/-- The stager only reads the ledger, appends to it, and enqueues commands. -/
def StagerOp : EffectOp → Prop
  | .listStageEvents _ _ | .appendStageEvent _ _ | .enqueueAfterDecision _ => True
  | _ => False

section Allowed
variable {allowed : EffectOp → Prop}

theorem onlyAwaits_unwrapStage {α : Type} (r : Except EffectStageError α) :
    (unwrapStage r).OnlyAwaits allowed := by
  cases r with
  | ok a => exact .done a
  | error e => exact .raised _

theorem onlyAwaits_validateIdempotencyKey (key : String) :
    (validateIdempotencyKey key).OnlyAwaits allowed := by
  unfold validateIdempotencyKey
  split
  · exact .done _
  · exact .raised _

theorem onlyAwaits_readState {scope : EffectStageScope} {stageId : String}
    (hlist : allowed (.listStageEvents scope stageId)) :
    (readState scope stageId).OnlyAwaits allowed := by
  refine onlyAwaits_perform_bind hlist fun reply => ?_
  exact (onlyAwaits_unwrap reply).bind fun events => onlyAwaits_unwrapStage _

theorem onlyAwaits_getState {scope : EffectStageScope} {stageId : String}
    (hlist : allowed (.listStageEvents scope stageId)) :
    (getState scope stageId).OnlyAwaits allowed := by
  unfold getState
  split
  · exact onlyAwaits_readState hlist
  · exact .raised _

variable (sha256 : String → String)

/-- Recording row postures reads the stage and appends one draft. -/
theorem onlyAwaits_recordRowDecisions_of {r : RowDecisionsRequest} {now : String}
    (hlist : allowed (.listStageEvents r.scope r.stageId))
    (happend : allowed (.appendStageEvent r.scope (rowDecisionsDraft sha256 r now))) :
    (recordRowDecisions sha256 r now).OnlyAwaits allowed := by
  refine (onlyAwaits_validateIdempotencyKey _).bind fun _ => ?_
  refine (onlyAwaits_getState hlist).bind fun state => ?_
  refine (onlyAwaits_unwrapStage _).bind fun _ => ?_
  refine onlyAwaits_perform_bind happend fun reply => ?_
  exact (onlyAwaits_unwrap reply).bind fun event => onlyAwaits_getState hlist

theorem onlyAwaits_enqueueApproved {r : DecideRequest} {event : StructuralEvent}
    (henqueue : allowed (.enqueueAfterDecision (commitCommand r event))) :
    (enqueueApproved r event).OnlyAwaits allowed := by
  unfold enqueueApproved
  split
  · split
    · exact onlyAwaits_perform_bind henqueue onlyAwaits_unwrap
    · exact .raised _
  · exact .done _

/-- Deciding reads the stage, appends one draft, and enqueues its command. -/
theorem onlyAwaits_decide_of {r : DecideRequest} {now : String}
    (hlist : allowed (.listStageEvents r.scope r.stageId))
    (happend : allowed (.appendStageEvent r.scope (decisionDraft sha256 r now)))
    (henqueue : ∀ event, allowed (.enqueueAfterDecision (commitCommand r event))) :
    (decide sha256 r now).OnlyAwaits allowed := by
  refine (onlyAwaits_validateIdempotencyKey _).bind fun _ => ?_
  refine (onlyAwaits_getState hlist).bind fun state => ?_
  refine (onlyAwaits_unwrapStage _).bind fun fresh => ?_
  split
  · refine onlyAwaits_perform_bind happend fun reply => ?_
    refine (onlyAwaits_unwrap reply).bind fun event => ?_
    exact (onlyAwaits_enqueueApproved (henqueue event)).bind fun _ => onlyAwaits_getState hlist
  · exact .done _

end Allowed

variable (sha256 : String → String)

theorem onlyAwaits_stage (r : StageRequest) (stageId now : String) :
    (stage sha256 r stageId now).OnlyAwaits StagerOp := by
  refine (onlyAwaits_validateIdempotencyKey _).bind fun _ => ?_
  refine (onlyAwaits_unwrapStage _).bind fun policy => ?_
  split
  · exact .raised _
  · refine onlyAwaits_perform_bind (by trivial) fun reply => ?_
    exact (onlyAwaits_unwrap reply).bind fun event => onlyAwaits_unwrapStage _

theorem onlyAwaits_bindProjection (r : BindProjectionRequest) (now : String) :
    (bindProjection sha256 r now).OnlyAwaits StagerOp := by
  refine (onlyAwaits_validateIdempotencyKey _).bind fun _ => ?_
  refine (onlyAwaits_readState (by trivial)).bind fun state => ?_
  refine (onlyAwaits_unwrapStage _).bind fun fresh => ?_
  split
  · refine onlyAwaits_perform_bind (by trivial) fun reply => ?_
    refine (onlyAwaits_unwrap reply).bind fun event => ?_
    exact (onlyAwaits_getState (by trivial)).bind fun bound => onlyAwaits_unwrapStage _
  · exact .done _

theorem onlyAwaits_revise (r : ReviseRequest) (now : String) :
    (revise sha256 r now).OnlyAwaits StagerOp := by
  refine (onlyAwaits_validateIdempotencyKey _).bind fun _ => ?_
  refine (onlyAwaits_getState (by trivial)).bind fun state => ?_
  refine (onlyAwaits_unwrap _).bind fun _ => ?_
  split
  · exact .raised _
  · refine onlyAwaits_perform_bind (by trivial) fun reply => ?_
    exact (onlyAwaits_unwrap reply).bind fun event => onlyAwaits_getState (by trivial)

theorem onlyAwaits_recordRowDecisions (r : RowDecisionsRequest) (now : String) :
    (recordRowDecisions sha256 r now).OnlyAwaits StagerOp :=
  onlyAwaits_recordRowDecisions_of sha256 trivial trivial

theorem onlyAwaits_decide (r : DecideRequest) (now : String) :
    (decide sha256 r now).OnlyAwaits StagerOp :=
  onlyAwaits_decide_of sha256 trivial trivial fun _ => trivial

end Footprints

end CopilotRuntime.Effects
