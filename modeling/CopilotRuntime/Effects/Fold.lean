import CopilotRuntime.Effects.StageContracts
import Mathlib.Data.List.Sort

/-!
# The effect-stage fold

The fold reads one stage's history in ledger order. An event that is malformed,
foreign, or no legal transition of the current state leaves that state as it
is; a history without a valid staging event has no state.

## Implementation notes

Every reader of a payload field returns nothing for a missing or ill-typed
value, which is how the source's exceptions end: the event is ignored.
-/

namespace CopilotRuntime.Effects

open Foundation

/-- Keep a value that its validators accept. -/
def validated {α : Type} (errors : α → List FieldError) (a : α) : Option α :=
  if errors a = [] then some a else none

theorem validated_eq_some {α : Type} {errors : α → List FieldError} {a b : α}
    (h : validated errors a = some b) : a = b ∧ errors b = [] := by
  unfold validated at h
  split at h
  · next hvalid =>
      obtain rfl := Option.some.inj h
      exact ⟨rfl, hvalid⟩
  · cases h

namespace EffectStageFold

/-- Read both proposal references; a history from before the split stored only
the content locator, under the identity's name. -/
def normaliseProposalReferences (p : Payload) (stageId : String) (revision : Nat) :
    Option (String × Option String) := do
  let rawIdentity ← p.string "proposal_ref"
  let contentRef ← p.optionalString "proposal_content_ref"
  let canonical ← ProposalUriCodec.format stageId revision
  match ProposalUriCodec.parse rawIdentity with
  | none =>
      if contentRef = none ∧ immutableContentRef rawIdentity then some (canonical, some rawIdentity)
      else none
  | some parsed =>
      if parsed = ⟨stageId, revision⟩ then some (rawIdentity, contentRef) else none

def readActor (p : Payload) (actorKey refKey : String) : Option EffectActorIdentity := do
  let actor ← (p.string actorKey).bind EffectActor.parse
  let principalRef ← p.string refKey
  validated EffectActorIdentity.errors ⟨actor, principalRef⟩

/-- The fields every revision reads the same way. -/
def readRevision (p : Payload) (stageId : String) (revision : Nat)
    (safeDiffRef : Option String) : Option EffectStageRevision := do
  let (proposalRef, proposalContentRef) ← normaliseProposalReferences p stageId revision
  let proposalKind ← (p.string "proposal_kind").bind EffectProposalKind.parse
  let proposalDigest ← p.string "proposal_digest"
  let proposalMediaType ← p.string "proposal_media_type"
  let targetRef ← p.string "target_ref"
  let targetDigest ← p.string "target_digest"
  let displayTarget ← p.string "display_target"
  let preconditionRef ← p.optionalString "precondition_ref"
  let preconditionDigest ← p.optionalString "precondition_digest"
  let author ← readActor p "author_actor" "author_ref"
  let createdAt ← p.string "created_at"
  EffectStageRevision.modelValidate {
    revision, proposalKind, proposalRef, proposalContentRef, proposalDigest, proposalMediaType,
    targetRef, targetDigest, displayTarget, preconditionRef, preconditionDigest, safeDiffRef,
    author, createdAt }

/-- What a staging event says about its stage. -/
structure StagedFacts where
  stageId : String
  scope : EffectStageScope
  operationId : String
  executor : EffectExecutorKind
  target : EffectTarget
  targetDigest : String
  effectClass : EffectClass
  policySnapshotRef : String
  policy : EffectPolicy
  agentHold : Bool
  revision : EffectStageRevision
  createdAt : String

def readStaged (event : StructuralEvent) : Option StagedFacts := do
  let p : Payload := event.payload
  guard (Payload.versionOk p)
  let stageId ← p.string "stage_id"
  let executor ← (p.string "executor").bind EffectExecutorKind.parse
  let capability ← p.string "capability"
  let op ← p.string "op"
  let targetRef ← p.string "target_ref"
  let preconditionRef ← p.optionalString "precondition_ref"
  let displayLabel ← p.string "display_target"
  let target ← validated EffectTarget.errors
    { executor, capability, op, targetRef, preconditionRef, displayLabel }
  let policy ← (p.string "policy").bind EffectPolicy.parse
  let ownerRef ← p.string "owner_ref"
  let createdAt ← p.string "created_at"
  let revision ← readRevision p stageId 1 none
  let scope ← validated EffectStageScope.errors ⟨event.runId, ownerRef⟩
  let operationId ← p.string "operation_id"
  let targetDigest ← p.string "target_digest"
  let effectClass ← (p.string "effect_class").bind EffectClass.parse
  let policySnapshotRef ← p.string "policy_snapshot_ref"
  let agentHold ← p.boolean "agent_hold"
  pure {
    stageId, scope, operationId, executor, target, targetDigest, effectClass, policySnapshotRef
    policy, agentHold, revision, createdAt }

/-- A new stage has one revision and waits for a decision. -/
def openedState (facts : StagedFacts) (projectionRequired : Bool) : EffectStageState where
  stageId := facts.stageId
  scope := facts.scope
  operationId := facts.operationId
  executor := facts.executor
  target := facts.target
  targetDigest := facts.targetDigest
  displayTarget := facts.target.displayLabel
  effectClass := facts.effectClass
  policySnapshotRef := facts.policySnapshotRef
  policy := facts.policy
  agentHold := facts.agentHold
  earlierRevisions := []
  currentRevision := facts.revision
  status := if facts.policy = .auto then .proposed else .held
  projectionRequired := projectionRequired
  projectionBinding := none
  decision := none
  rowDecisions := []
  supersededRevision := none
  createdAt := facts.createdAt
  updatedAt := facts.createdAt

/-- The state a valid staging event opens. -/
def stateFromStaged (event : StructuralEvent) : Option EffectStageState :=
  (readStaged event).bind fun facts =>
    validated EffectStageState.errors
      (openedState facts (Payload.truthy event.payload "projection_required"))

/-- A revision replaces content only; the target and precondition are immutable. -/
def revisionRetainsTarget (s : EffectStageState) (r : EffectStageRevision) : Bool :=
  r.targetRef == s.target.targetRef && r.targetDigest == s.targetDigest &&
    r.displayTarget == s.displayTarget &&
    r.preconditionRef == s.currentRevision.preconditionRef &&
    r.preconditionDigest == s.currentRevision.preconditionDigest

/-- The revision an event carries for the given state, if it is the next one. -/
def nextRevision (s : EffectStageState) (event : StructuralEvent) :
    Option EffectStageRevision := do
  let p : Payload := event.payload
  guard (Payload.versionOk p)
  let revisionNo ← p.natural "revision"
  guard (revisionNo = s.currentRevision.revision + 1)
  let safeDiffRef ← p.optionalString "safe_diff_ref"
  let revision ← readRevision p s.stageId revisionNo safeDiffRef
  guard (revisionRetainsTarget s revision)
  pure revision

/-- The approved revision a new revision supersedes. -/
def approvedRevision (s : EffectStageState) : Option Nat :=
  if s.status = .approved then s.decision.map fun d => d.revision else none

def applyRevision (s : EffectStageState) (event : StructuralEvent) : EffectStageState :=
  if s.status = .cancelled then s
  else match nextRevision s event with
    | none => s
    | some revision =>
        { s with
          earlierRevisions := s.revisions
          currentRevision := revision
          status := if (approvedRevision s).isSome then .held else .revised
          decision := none
          rowDecisions := []
          projectionBinding := none
          supersededRevision := approvedRevision s
          updatedAt := event.createdAt }

def readBinding (event : StructuralEvent) : Option EffectProjectionBinding := do
  let p : Payload := event.payload
  guard (Payload.versionOk p)
  let revision ← p.natural "revision"
  let projectionRef ← p.string "projection_ref"
  let proposalDigest ← p.string "proposal_digest"
  let targetDigest ← p.string "target_digest"
  let boundAt ← p.string "bound_at"
  validated EffectProjectionBinding.errors
    { revision, projectionRef, proposalDigest, targetDigest, boundAt
      ledgerId := event.ledgerId }

/-- Only an exact binding of the current revision is accepted, and only once. -/
def applyProjectionBinding (s : EffectStageState) (event : StructuralEvent) : EffectStageState :=
  if !s.projectionRequired || s.status = .cancelled then s
  else match readBinding event with
    | none => s
    | some binding =>
        if !s.bindsCurrent binding || s.projectionBinding.isSome then s
        else { s with projectionBinding := some binding, updatedAt := event.createdAt }

/-- The stage is still waiting for a decision. -/
def isOpen (s : EffectStageState) : Bool :=
  s.status == .proposed || s.status == .held || s.status == .revised

def readDecision (event : StructuralEvent) : Option EffectStageDecision := do
  let p : Payload := event.payload
  guard (Payload.versionOk p)
  let revision ← p.natural "revision"
  let decision ← (p.string "decision").bind EffectDecisionKind.parse
  let actor ← readActor p "actor" "actor_ref"
  let proposalDigest ← p.string "proposal_digest"
  let targetDigest ← p.string "target_digest"
  let decidedAt ← p.string "decided_at"
  let rowKeys ← p.optionalRowKeys
  validated EffectStageDecision.errors
    { revision, decision, actor, proposalDigest, targetDigest, decidedAt
      ledgerId := event.ledgerId
      rowKeys }

/-- The decision matches the current revision exactly and its actor may make it. -/
def decisionApplies (s : EffectStageState) (d : EffectStageDecision) : Bool :=
  d.revision == s.currentRevision.revision &&
    d.proposalDigest == s.currentRevision.proposalDigest && d.targetDigest == s.targetDigest &&
    d.decision != .restore && (d.actor.actor != .policy || s.policy == .auto) &&
    (d.decision != .approve || s.approvalReady)

def statusOf : EffectDecisionKind → EffectStageStatus
  | .approve => .approved
  | .reject => .rejected
  | .restore => .held
  | .cancel => .cancelled

def applyDecision (s : EffectStageState) (event : StructuralEvent) : EffectStageState :=
  if !isOpen s || s.policy = .block then s
  else match readDecision event with
    | none => s
    | some d =>
        if decisionApplies s d then
          { s with status := statusOf d.decision, decision := some d, updatedAt := event.createdAt }
        else s

/-- Read one row decision after the rows read so far. -/
def readRowDecision (actor : EffectActorIdentity) (decidedAt ledgerId : String)
    (seen : List EffectRowDecisionState) : Json → Option (List EffectRowDecisionState)
  | .obj item => do
      let rowKey ← Payload.string item "row_key"
      let decision ← (Payload.string item "decision").bind RowDecision.parse
      guard (!(seen.map fun r => r.rowKey).contains rowKey)
      let row ← validated EffectRowDecisionState.errors { rowKey, decision, actor, decidedAt, ledgerId }
      pure (seen ++ [row])
  | _ => none

/-- The row decisions an event records for the current revision. -/
def readRowDecisions (s : EffectStageState) (event : StructuralEvent) :
    Option (List EffectRowDecisionState) := do
  let p : Payload := event.payload
  guard (Payload.versionOk p)
  let revision ← p.natural "revision"
  let proposalDigest ← p.string "proposal_digest"
  let targetDigest ← p.string "target_digest"
  guard (revision = s.currentRevision.revision &&
    proposalDigest = s.currentRevision.proposalDigest && targetDigest = s.targetDigest)
  let actor ← readActor p "actor" "actor_ref"
  let decidedAt ← p.string "decided_at"
  match Json.lookup p "decisions" with
  | some (.arr items) =>
      guard (!items.isEmpty)
      items.foldlM (readRowDecision actor decidedAt event.ledgerId) []
  | _ => none

/-- Keep the latest decision of every row, sorted by row key. -/
def mergeRowDecisions (old updates : List EffectRowDecisionState) : List EffectRowDecisionState :=
  let kept := old.filter fun r => !(updates.map fun u => u.rowKey).contains r.rowKey
  (kept ++ updates).insertionSort fun a b => a.rowKey ≤ b.rowKey

def applyRowDecisions (s : EffectStageState) (event : StructuralEvent) : EffectStageState :=
  if s.currentRevision.proposalKind != .rowSet || !isOpen s then s
  else match readRowDecisions s event with
    | none => s
    | some updates =>
        { s with
          rowDecisions := mergeRowDecisions s.rowDecisions updates
          updatedAt := event.createdAt }

def eventStaged : String := "effect.staged"
def eventRevised : String := "effect.revised"
def eventDecision : String := "effect.decision_recorded"
def eventProjectionBound : String := "effect.projection_bound"
def eventRowDecisions : String := "effect.row_decisions_recorded"

/-- One event of an opened stage. Later staging events and foreign events change nothing. -/
def applyEvent (s : EffectStageState) (event : StructuralEvent) : EffectStageState :=
  if event.eventType = eventStaged then s
  else if Payload.string event.payload "stage_id" ≠ some s.stageId then s
  else if event.eventType = eventRevised then applyRevision s event
  else if event.eventType = eventProjectionBound then applyProjectionBinding s event
  else if event.eventType = eventDecision then applyDecision s event
  else if event.eventType = eventRowDecisions then applyRowDecisions s event
  else s

/-- One event of a history. Until a valid staging event there is no stage. -/
def foldStep : Option EffectStageState → StructuralEvent → Option EffectStageState
  | none, event => if event.eventType = eventStaged then stateFromStaged event else none
  | some s, event => some (applyEvent s event)

/-- Ledger order, with the ledger id deciding between equal positions. -/
def eventLe (a b : StructuralEvent) : Prop :=
  a.sequenceNo < b.sequenceNo ∨ (a.sequenceNo = b.sequenceNo ∧ a.ledgerId ≤ b.ledgerId)

instance : DecidableRel eventLe := fun _ _ =>
  inferInstanceAs (Decidable (_ ∨ _))

/-- The last valid state the history describes, if it was ever staged. -/
def fold (events : List StructuralEvent) : Option EffectStageState :=
  (events.insertionSort eventLe).foldl foldStep none

end EffectStageFold

end CopilotRuntime.Effects
