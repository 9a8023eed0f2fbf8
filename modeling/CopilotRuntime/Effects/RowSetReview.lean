import CopilotRuntime.Effects.StageDecisions

/-!
# Review of row-set effects

A review shows every row of the proposal with its posture and outcome, and the
one action the caller may take. Applying and retrying compare the caller's
rows with that action; recording postures compares the caller's snapshot.

## Implementation notes

The immutable proposal store is a parameter. A review reads the stage twice:
the postures come from the first read, the outcomes and the basis from the
second one.
-/

namespace CopilotRuntime.Effects

open Foundation StagedWrites

/-- The immutable content of a row-set stage. -/
structure RowSetEffectProposal where
  targetConnector : String
  targetOp : String
  title : String
  rows : List StagedRow
  agentHolds : List AgentHold

/-- The stored proposal of an owner, by reference and digest. -/
abbrev RowSetMaterial := StageAddress → (contentRef digest : String) → Option RowSetEffectProposal

inductive DecisionSource
  | default | agent | user
  deriving DecidableEq

structure RowSetReviewRow where
  rowKey : String
  title : String
  changes : List RowFieldChange
  sends : List StagedArg
  decision : RowDecision
  decisionSource : DecisionSource
  holdReason : Option String
  applyOutcome : Option RowOutcome
  canDecide : Bool

structure RowSetReviewCounts where
  total : Nat
  approved : Nat
  held : Nat
  applied : Nat
  failed : Nat

inductive RowSetActionKind
  | apply | retryFailed
  deriving DecidableEq

structure RowSetReviewAction where
  kind : RowSetActionKind
  rowKeys : List String
  basisSequenceNo : Nat
  basisLedgerId : Option String

inductive RowSetReviewStatus
  | staged | held | applyPending | partially | applied
  deriving DecidableEq

structure RowSetEffectReview where
  stageId : String
  pins : ReviewedSnapshot
  title : String
  sourceConnector : String
  sourceOp : String
  status : RowSetReviewStatus
  rows : List RowSetReviewRow
  counts : RowSetReviewCounts
  action : Option RowSetReviewAction
  ledgerId : String
  lastSequenceNo : Nat

namespace RowSetReview

/-- The row outcomes of one applied event, each row once. -/
def readRowOutcomes (parsed : List (String × RowOutcome)) :
    List Json → Option (List (String × RowOutcome))
  | [] => some parsed
  | .obj item :: rest => do
      let rowKey ← Payload.string item "row_key"
      let outcome ← (Payload.string item "outcome").bind
        (ofText [RowOutcome.applied, .failed] RowOutcome.value)
      if (parsed.map Prod.fst).contains rowKey then none
      else readRowOutcomes (parsed ++ [(rowKey, outcome)]) rest
  | _ :: _ => none

/-- What the history says about results and claims. -/
structure Scan where
  outcomes : Dict String RowOutcome
  latestResult : Option StructuralEvent
  latestClaimSequence : Nat

/-- The rows of an accepted approval. -/
def approvedScope (state : EffectStageState) : Option (List String) :=
  (state.decision.filter fun d => d.decision == .approve).map fun d => d.rowKeys.getD []

def scanEvent (proposalKeys : List String) (scope : Option (List String)) (scan : Scan)
    (event : StructuralEvent) : Option Scan :=
  if event.eventType = eventClaimed then
    some { scan with latestClaimSequence := max scan.latestClaimSequence event.sequenceNo }
  else match rowResultItems event with
    | none => some scan
    | some items => do
        let parsed ← readRowOutcomes [] items
        let keys := parsed.map Prod.fst
        if keys.isEmpty || !keys.all (proposalKeys.contains ·) ||
            !scope.any (fun approved => keys.all (approved.contains ·)) then none
        else
          some {
            outcomes := parsed.foldl (fun d entry => d.set entry.1 entry.2) scan.outcomes
            latestResult := some event
            latestClaimSequence := scan.latestClaimSequence }

/-- The posture the user recorded for a row; the last entry counts. -/
def userDecision (state : EffectStageState) (rowKey : String) : Option RowDecision :=
  (state.rowDecisions.reverse.find? fun r => r.rowKey = rowKey).map fun r => r.decision

/-- The agent's reason to hold a row. -/
def agentHold (proposal : RowSetEffectProposal) (rowKey : String) : Option String :=
  (proposal.agentHolds.reverse.find? fun h => h.rowKey = rowKey).map fun h => h.reason

/-- A row's posture and who chose it. -/
def posture (state : EffectStageState) (proposal : RowSetEffectProposal) (rowKey : String) :
    RowDecision × DecisionSource :=
  match userDecision state rowKey with
  | some decision => (decision, .user)
  | none => if (agentHold proposal rowKey).isSome then (.hold, .agent) else (.approve, .default)

/-- An approved stage without a result later than its last claim. -/
def isPending (state : EffectStageState) (scan : Scan) : Bool :=
  state.status == .approved &&
    scan.latestResult.all fun result => result.sequenceNo < scan.latestClaimSequence

def reviewRow (state : EffectStageState) (proposal : RowSetEffectProposal) (scan : Scan)
    (row : StagedRow) : RowSetReviewRow where
  rowKey := row.rowKey
  title := row.title
  changes := row.changes
  sends := row.sends
  decision := (posture state proposal row.rowKey).1
  decisionSource := (posture state proposal row.rowKey).2
  holdReason := agentHold proposal row.rowKey
  applyOutcome := scan.outcomes.get? row.rowKey
  canDecide := !isPending state scan && scan.latestResult.isNone && EffectStageFold.isOpen state

/-- Apply the approved rows once, or retry the failed rows of the latest result. -/
def reviewAction (pending : Bool) (scan : Scan) (approved failed : List String)
    (last : StructuralEvent) : Option RowSetReviewAction :=
  match scan.latestResult with
  | none => if !pending && !approved.isEmpty then some ⟨.apply, approved, last.sequenceNo, none⟩
      else none
  | some result =>
      if !pending && !failed.isEmpty then
        some ⟨.retryFailed, failed, result.sequenceNo, some result.ledgerId⟩
      else none

def reviewStatus (state : EffectStageState) (scan : Scan) (approved failed : List String) :
    RowSetReviewStatus :=
  if isPending state scan then .applyPending
  else if !failed.isEmpty then .partially
  else if scan.latestResult.isSome then .applied
  else if state.status = .held ∧ approved.isEmpty then .held
  else .staged

/-- Rows with the approve posture that have no outcome yet. -/
def approvedKeys (rows : List RowSetReviewRow) : List String :=
  (rows.filter fun row => row.decision = .approve ∧ row.applyOutcome = none).map (·.rowKey)

def countWhere (rows : List RowSetReviewRow) (p : RowSetReviewRow → Bool) : Nat :=
  (rows.filter p).length

/-- Compose the folded stage, its events and its immutable content. -/
def projectReview (state : EffectStageState) (proposal : RowSetEffectProposal)
    (events : List StructuralEvent) : Option RowSetEffectReview := do
  let ordered := events.insertionSort EffectStageFold.eventLe
  let last ← ordered.getLast?
  let scan ← ordered.foldlM
    (scanEvent (proposal.rows.map (·.rowKey)) (approvedScope state)) ⟨Dict.empty, none, 0⟩
  let rows := proposal.rows.map (reviewRow state proposal scan)
  let approved := approvedKeys rows
  let failed := (rows.filter fun row => row.applyOutcome = some .failed).map (·.rowKey)
  pure {
    stageId := state.stageId
    pins := ⟨state.currentRevision.revision, state.currentRevision.proposalDigest,
      state.targetDigest⟩
    title := proposal.title
    sourceConnector := proposal.targetConnector
    sourceOp := proposal.targetOp
    status := reviewStatus state scan approved failed
    rows := rows
    counts := {
      total := rows.length
      approved := countWhere rows fun row => row.decision = .approve
      held := countWhere rows fun row => row.decision = .hold
      applied := countWhere rows fun row => row.applyOutcome = some .applied
      failed := failed.length }
    action := reviewAction (isPending state scan) scan approved failed last
    ledgerId := last.ledgerId
    lastSequenceNo := last.sequenceNo }

/-- The review shows the revision and digests the caller names. -/
def assertSnapshot (review : RowSetEffectReview) (pins : ReviewedSnapshot) : Bool :=
  review.pins.revision == pins.revision && review.pins.proposalDigest == pins.proposalDigest &&
    review.pins.targetDigest == pins.targetDigest

/-- The review offers exactly the action the caller names. -/
def assertAction (review : RowSetEffectReview) (kind : RowSetActionKind)
    (pins : ReviewedSnapshot) (rowKeys : List String) (basisSequenceNo : Nat)
    (basisLedgerId : Option String) : Bool :=
  assertSnapshot review pins &&
    review.action.any fun action =>
      action.kind == kind && sameElements action.rowKeys rowKeys &&
        action.basisSequenceNo == basisSequenceNo && action.basisLedgerId == basisLedgerId

section Service
variable (sha256 : String → String) (admission : RolloutAdmission) (material : RowSetMaterial)

/-- Row-set stages go through one executor. -/
def allowedExecutors : List EffectExecutorKind := [.builtin]

/-- The stage must be a row set with stored content. -/
def stateAndEvents (a : StageAddress) :
    EffectProgram (EffectStageState × List StructuralEvent) := do
  let (state, events) ← stageHistory allowedExecutors a
  if state.currentRevision.proposalKind ≠ .rowSet ∨
      state.currentRevision.proposalContentRef.isNone then
    .raised (.stage .invalidTransition)
  else pure (state, events)

/-- Resolve the content of the stage and project the review. -/
def project (a : StageAddress) (state : EffectStageState) (events : List StructuralEvent) :
    Option RowSetEffectReview := do
  let contentRef ← state.currentRevision.proposalContentRef
  let proposal ← material a contentRef state.currentRevision.proposalDigest
  projectReview state proposal events

/-- One owner-scoped review of a stage. -/
def review (a : StageAddress) : EffectProgram RowSetEffectReview := do
  let (state, events) ← stateAndEvents a
  match project material a state events with
  | none => .raised (.stage .malformedEvent)
  | some found => pure found

/-- The retry key of a set of row postures. -/
def posturesKey (a : StageAddress) (pins : ReviewedSnapshot)
    (decisions : List (String × RowDecision)) : String :=
  "rowset-decisions-" ++ sha256 (Json.dumps (.obj [("run_id", .str a.runId),
    ("stage_id", .str a.stageId), ("revision", .int pins.revision),
    ("proposal_digest", .str pins.proposalDigest), ("target_digest", .str pins.targetDigest),
    ("decisions", .arr ((decisions.insertionSort fun x y => x.1 ≤ y.1).map fun d =>
      .arr [.str d.1, .str d.2.value]))]))

/-- The named rows are shown without an outcome, and the stage still waits. -/
def posturesFit (current : RowSetEffectReview) (pins : ReviewedSnapshot)
    (decisions : List (String × RowDecision)) : Bool :=
  let known := (current.rows.filter fun row => row.applyOutcome = none).map (·.rowKey)
  assertSnapshot current pins && (current.status == .staged || current.status == .held) &&
    !decisions.isEmpty && decisions.all fun d => known.contains d.1

/-- Record the postures of some reviewed rows. -/
def recordRowDecisions (a : StageAddress) (pins : ReviewedSnapshot)
    (decisions : List (String × RowDecision)) (now : String) :
    EffectProgram RowSetEffectReview := do
  let current ← review material a
  if !posturesFit current pins decisions then .raised (.stage .invalidTransition)
  else do
    let _ ← recordPostures sha256 allowedExecutors a pins
      (decisions.map fun d => (d.1, d.2.value)) (posturesKey sha256 a pins decisions) now
    review material a

/-- Approve exactly the rows the review offers to apply. -/
def apply (a : StageAddress) (pins : ReviewedSnapshot) (rowKeys : List String)
    (basisSequenceNo : Nat) (now : String) : EffectProgram RowSetEffectReview := do
  let current ← review material a
  if !assertAction current .apply pins rowKeys basisSequenceNo none then
    .raised (.stage .invalidTransition)
  else do
    let _ ← recordDecision sha256 admission allowedExecutors a pins .approve (some rowKeys)
      "effect-rowset-apply" now
    review material a

/-- Retry exactly the failed rows the review offers. -/
def retry (a : StageAddress) (pins : ReviewedSnapshot) (rowKeys : List String)
    (basisSequenceNo : Nat) (basisLedgerId : String) : EffectProgram RowSetEffectReview := do
  let current ← review material a
  if !assertAction current .retryFailed pins rowKeys basisSequenceNo (some basisLedgerId) then
    .raised (.stage .invalidTransition)
  else do
    let _ ← enqueueRowsetRetry sha256 admission allowedExecutors a pins rowKeys basisLedgerId
    pure current

end Service

end RowSetReview

end CopilotRuntime.Effects
