import CopilotRuntime.ModelInvocation.Lifecycle

/-!
# The journal records of an invocation

Ten kinds of records tell what an invocation did. Each kind checks its own
fields when a record is made.

## Implementation notes

All records of a journal here belong to one invocation of one run, whose
identifiers are therefore not among the fields. The digest of a record covers
all its fields and not the time it was made at.
-/

namespace CopilotRuntime.ModelInvocation

inductive ModelAttemptLifecycleState
  | admitted
  | dispatching
  | accepted
  | streamStarted
  | visibleOutput
  | toolCallContent
  | completed
  | cancelled
  | ambiguous
  deriving DecidableEq

inductive ModelRecoveryKind
  | sameDeploymentRetry
  | alternateRoute
  | cacheUndecoratedRetry
  | crashReconciliation
  deriving DecidableEq

inductive ModelRecoveryOutcome
  | admitted
  | denied
  | reconciledCompleted
  | reconciledFailed
  | ambiguous
  deriving DecidableEq

inductive ModelInvocationFailureReason
  | noEligibleRoute
  | admissionDenied
  | attemptFailed
  | ambiguousRecovery
  | cancelled
  | deadlineExceeded
  | budgetExhausted
  deriving DecidableEq

/-- What authority was prepared for a model call, with the plan of its routes. -/
structure PreparedAuthority where
  requestDigest : String
  requirementsDigest : String
  requirementsRevision : String
  catalogRevision : String
  routePlan : ModelRoutePlan

structure PlannedRecord where
  requestDigest : String
  requirementsDigest : String
  requirementsRevision : String
  descriptorSetRevision : String
  routeDigest : RoutePlanBody
  routePolicyRevision : String
  fallbackPolicy : ModelFallbackPolicy
  budget : ModelInvocationBudget
  eligibleRouteCount : Nat
  exclusionCount : Nat
  deriving DecidableEq

structure RouteEligibleRecord where
  routeDigest : RoutePlanBody
  routeOrdinal : Nat
  route : ModelRouteEntry
  deriving DecidableEq

structure RouteExcludedRecord where
  routeDigest : RoutePlanBody
  deploymentId : String
  reasons : List ModelRouteExclusionReason
  deriving DecidableEq

structure AttemptAdmissionRecord where
  admissionOrdinal : Nat
  decision : ModelAttemptDecision
  priorAttemptCount : Nat
  externalEffectObserved : Bool
  projectedCostMicrousd : Option Nat
  projectedInputTokens : Option Nat
  projectedOutputTokens : Option Nat
  deriving DecidableEq

/-- Which attempt a record of its progress is about. -/
structure AdmittedIdentity where
  attemptId : AttemptId
  attemptOrdinal : Nat
  deploymentId : String
  deriving DecidableEq

structure AttemptStateRecord extends AdmittedIdentity where
  state : ModelAttemptLifecycleState
  dispatchState : ModelDispatchState
  streamState : ModelStreamState
  visibleTextEmitted : Bool := false
  toolCallContentEmitted : Bool := false
  externalEffectObserved : Bool := false
  deriving DecidableEq

structure AttemptUsageRecord extends AdmittedIdentity where
  usageRecordId : Option String
  providerReported : Bool
  usage : NormalizedTokenUsage
  costMicrousd : Nat
  durationMs : Nat
  deriving DecidableEq

structure AttemptFailedRecord extends AdmittedIdentity where
  failureClass : ModelFailureClass
  dispatchState : ModelDispatchState
  streamState : ModelStreamState
  providerFailureObserved : Bool
  visibleTextEmitted : Bool
  toolCallContentEmitted : Bool
  externalEffectObserved : Bool
  usageMayBeIncomplete : Bool
  deriving DecidableEq

structure InvocationRecoveryRecord where
  recoveryOrdinal : Nat
  sourceAttemptId : AttemptId
  kind : ModelRecoveryKind
  outcome : ModelRecoveryOutcome
  decisionReason : Option ModelAttemptDecisionReason
  targetAttemptId : Option AttemptId
  deriving DecidableEq

structure InvocationCompletedRecord where
  terminalAttemptId : AttemptId
  attemptCount : Nat
  totalInputTokens : Nat
  totalOutputTokens : Nat
  totalCostMicrousd : Nat
  totalDurationMs : Nat
  deriving DecidableEq

structure InvocationFailedRecord where
  terminalAttemptId : Option AttemptId
  attemptCount : Nat
  reason : ModelInvocationFailureReason
  failureClass : Option ModelFailureClass
  totalInputTokens : Nat
  totalOutputTokens : Nat
  totalCostMicrousd : Nat
  totalDurationMs : Nat
  deriving DecidableEq

inductive ModelInvocationRecord
  | planned (record : PlannedRecord)
  | routeEligible (record : RouteEligibleRecord)
  | routeExcluded (record : RouteExcludedRecord)
  | attemptAdmission (record : AttemptAdmissionRecord)
  | attemptState (record : AttemptStateRecord)
  | attemptUsage (record : AttemptUsageRecord)
  | attemptFailed (record : AttemptFailedRecord)
  | recovery (record : InvocationRecoveryRecord)
  | completed (record : InvocationCompletedRecord)
  | failed (record : InvocationFailedRecord)
  deriving DecidableEq

/-- The kind of a record and its natural key, of which its identifier is the hash. -/
inductive RecordId
  | planned
  | routeEligible (ordinal : Nat)
  | routeExcluded (deploymentId : String)
  | attemptAdmission (ordinal : Nat)
  | attemptState (attemptId : AttemptId) (state : ModelAttemptLifecycleState)
  | attemptUsage (attemptId : AttemptId)
  | attemptFailed (attemptId : AttemptId)
  | recovery (ordinal : Nat)
  | completed
  | failed
  deriving DecidableEq

namespace AttemptAdmissionRecord

/-- The attempt an admission starts; a denial starts none. -/
def admittedIdentity? (record : AttemptAdmissionRecord) : Option AdmittedIdentity :=
  match record.decision with
  | .admits deploymentId ordinal _ => some ⟨⟨record.admissionOrdinal⟩, ordinal, deploymentId⟩
  | .deny _ => none

def attemptId? (record : AttemptAdmissionRecord) : Option AttemptId :=
  record.admittedIdentity?.map (·.attemptId)

def isDenied (record : AttemptAdmissionRecord) : Bool := record.admittedIdentity?.isNone

def DecisionReconciles (record : AttemptAdmissionRecord) : Prop :=
  ∀ identity ∈ record.admittedIdentity?, identity.attemptOrdinal = record.admissionOrdinal

end AttemptAdmissionRecord

def AttemptStateRecord.ProgressReconciles (record : AttemptStateRecord) : Prop :=
  (record.visibleTextEmitted → record.streamState = .visibleOutput) ∧
    (record.toolCallContentEmitted →
      record.dispatchState = .accepted ∨ record.dispatchState = .unknown) ∧
    (record.state = .visibleOutput → record.visibleTextEmitted) ∧
    (record.state = .toolCallContent → record.toolCallContentEmitted)

def AttemptUsageRecord.UsageReconciles (record : AttemptUsageRecord) : Prop :=
  (∀ id ∈ record.usageRecordId, 1 ≤ id.length ∧ id.length ≤ 255) ∧
    record.usage.cachedInputTokens + record.usage.cacheCreationInputTokens ≤
      record.usage.inputTokens ∧
    (record.providerReported ∨ record.usage = {} ∧ record.costMicrousd = 0)

def AttemptFailedRecord.FailureReconciles (record : AttemptFailedRecord) : Prop :=
  record.visibleTextEmitted → record.streamState = .visibleOutput

def InvocationRecoveryRecord.RecoveryReconciles (record : InvocationRecoveryRecord) : Prop :=
  if record.outcome = .admitted then
    record.targetAttemptId.isSome ∧ record.decisionReason.isSome ∧
      record.kind ≠ .crashReconciliation
  else record.targetAttemptId = none

def InvocationFailedRecord.FailureReconciles (record : InvocationFailedRecord) : Prop :=
  record.attemptCount = 0 ↔ record.terminalAttemptId = none

namespace ModelInvocationRecord

def recordId : ModelInvocationRecord → RecordId
  | planned _ => .planned
  | routeEligible record => .routeEligible record.routeOrdinal
  | routeExcluded record => .routeExcluded record.deploymentId
  | attemptAdmission record => .attemptAdmission record.admissionOrdinal
  | attemptState record => .attemptState record.attemptId record.state
  | attemptUsage record => .attemptUsage record.attemptId
  | attemptFailed record => .attemptFailed record.attemptId
  | recovery record => .recovery record.recoveryOrdinal
  | completed _ => .completed
  | failed _ => .failed

/-- The record passes the checks of its own kind. -/
def WellFormed : ModelInvocationRecord → Prop
  | routeExcluded record =>
      record.reasons ≠ [] ∧ record.reasons.Nodup ∧ canonicalReasons record.reasons = record.reasons
  | attemptAdmission record => record.DecisionReconciles
  | attemptState record => record.ProgressReconciles
  | attemptUsage record => record.UsageReconciles
  | attemptFailed record => record.FailureReconciles
  | recovery record => record.RecoveryReconciles
  | completed record => 1 ≤ record.attemptCount
  | failed record => record.FailureReconciles
  | _ => True

instance : (record : ModelInvocationRecord) → Decidable record.WellFormed
  | planned _ => inferInstanceAs (Decidable True)
  | routeEligible _ => inferInstanceAs (Decidable True)
  | routeExcluded _ => inferInstanceAs (Decidable (_ ∧ _ ∧ _))
  | attemptAdmission _ => inferInstanceAs (Decidable (∀ identity ∈ _, _))
  | attemptState _ => inferInstanceAs (Decidable (_ ∧ _ ∧ _ ∧ _))
  | attemptUsage _ => inferInstanceAs (Decidable (_ ∧ _ ∧ (_ ∨ _ ∧ _)))
  | attemptFailed _ => inferInstanceAs (Decidable (_ → _))
  | recovery _ => inferInstanceAs (Decidable (ite _ _ _))
  | completed _ => inferInstanceAs (Decidable (_ ≤ _))
  | failed _ => inferInstanceAs (Decidable (_ ↔ _))

end ModelInvocationRecord

/-! ### Planning -/

def PlannedRecord.create (prepared : PreparedAuthority) : PlannedRecord where
  requestDigest := prepared.requestDigest
  requirementsDigest := prepared.requirementsDigest
  requirementsRevision := prepared.requirementsRevision
  descriptorSetRevision := prepared.catalogRevision
  routeDigest := prepared.routePlan.routeDigest
  routePolicyRevision := prepared.routePlan.policyRevision
  fallbackPolicy := prepared.routePlan.fallbackPolicy
  budget := prepared.routePlan.budget
  eligibleRouteCount := prepared.routePlan.routes.length
  exclusionCount := prepared.routePlan.exclusions.length

def eligibleRecords (plan : ModelRoutePlan) : List RouteEligibleRecord :=
  plan.routes.zipIdx.map fun (route, index) => ⟨plan.routeDigest, index + 1, route⟩

def excludedRecords (plan : ModelRoutePlan) : List RouteExcludedRecord :=
  plan.exclusions.map fun exclusion =>
    ⟨plan.routeDigest, exclusion.deploymentId, canonicalReasons exclusion.reasons⟩

/-- The routes of the plan in their order, and then its exclusions. -/
def routeRecords (plan : ModelRoutePlan) : List ModelInvocationRecord :=
  (eligibleRecords plan).map .routeEligible ++ (excludedRecords plan).map .routeExcluded

end CopilotRuntime.ModelInvocation
