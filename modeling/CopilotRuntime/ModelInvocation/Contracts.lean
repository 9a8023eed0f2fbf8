import Mathlib.Algebra.GroupWithZero.Nat
import Mathlib.Data.List.Sort

/-!
# Contracts of a model invocation

One model call is planned once, with an ordered list of routes and a budget,
and may then take several attempts at a provider.

## Implementation notes

A digest is represented by what it digests, and an identifier derived from a
hash by what is hashed. Times are instants.
-/

namespace CopilotRuntime.ModelInvocation

inductive ModelCredentialMode
  | deployment
  | byok
  | keyless
  deriving DecidableEq

inductive ModelFallbackPolicy
  | none
  | sameModel
  | qualifiedEquivalent
  deriving DecidableEq

inductive ModelRouteExclusionReason
  | disabled
  | healthUnavailable
  | openCircuit
  | providerMismatch
  | modelMismatch
  | fallbackNotPermitted
  | equivalenceNotQualified
  | capabilityMismatch
  | contextTooSmall
  | regionMismatch
  | credentialUnavailable
  | byokRequired
  | byokDisallowed
  | privacyIncompatible
  deriving DecidableEq

def ModelRouteExclusionReason.value : ModelRouteExclusionReason → String
  | disabled => "disabled"
  | healthUnavailable => "health_unavailable"
  | openCircuit => "open_circuit"
  | providerMismatch => "provider_mismatch"
  | modelMismatch => "model_mismatch"
  | fallbackNotPermitted => "fallback_not_permitted"
  | equivalenceNotQualified => "equivalence_not_qualified"
  | capabilityMismatch => "capability_mismatch"
  | contextTooSmall => "context_too_small"
  | regionMismatch => "region_mismatch"
  | credentialUnavailable => "credential_unavailable"
  | byokRequired => "byok_required"
  | byokDisallowed => "byok_disallowed"
  | privacyIncompatible => "privacy_incompatible"

inductive ModelFailureSignal
  | connectivity
  | rateLimited
  | overloaded
  | requestInvalid
  | authInvalid
  | regionUnavailable
  | policyIncompatible
  | contextExceeded
  | streamInterrupted
  | cancelled
  | deadlineExceeded
  | notFound
  | unknown
  deriving DecidableEq

inductive ModelDispatchState
  | beforeDispatch
  | notAccepted
  | accepted
  | unknown
  deriving DecidableEq

inductive ModelStreamState
  | notStarted
  | startedNoVisibleOutput
  | visibleOutput
  deriving DecidableEq

inductive ModelFailureClass
  | preDispatchTransient
  | providerOverloaded
  | requestInvalid
  | authInvalid
  | regionUnavailable
  | policyIncompatible
  | contextExceeded
  | streamInterruptedBeforeContent
  | streamInterruptedAfterContent
  | ambiguousProviderState
  | cancelled
  | deadlineExceeded
  | modelNotFound
  deriving DecidableEq

inductive ModelRecoveryScope
  | modelInvocation
  | wholeRun
  deriving DecidableEq

inductive ModelAttemptDecisionReason
  | firstAttempt
  | safeSameDeploymentRetry
  | safeAlternateRoute
  | safeCacheUndecoratedRetry
  | wholeRunReplayForbidden
  | externalEffectObserved
  | noEligibleRoute
  | attemptLimitReached
  | sameDeploymentLimitReached
  | routeSetExhausted
  | deadlineExpired
  | projectedCostUnknown
  | costBudgetExceeded
  | projectedTokenUsageUnknown
  | inputTokenBudgetExceeded
  | outputTokenBudgetExceeded
  | visibleOutputAlreadyEmitted
  | ambiguousProviderState
  | failureNotRetryable
  | contextReplanRequired
  | priorAttemptNotFailed
  | priorRouteMismatch
  deriving DecidableEq

/-! ### Routes -/

/-- Bounds that all attempts of one invocation share. -/
structure ModelInvocationBudget where
  maxAttempts : Nat
  maxSameDeploymentAttempts : Nat
  maxCostMicrousd : Option Nat
  maxInputTokens : Option Nat
  maxOutputTokens : Option Nat
  deadlineAt : Option Int
  attemptsInRange : 1 ≤ maxAttempts ∧ maxAttempts ≤ 3
  sameDeploymentInRange :
    1 ≤ maxSameDeploymentAttempts ∧ maxSameDeploymentAttempts ≤ maxAttempts
  deriving DecidableEq

structure ModelRouteEntry where
  deploymentId : String
  deploymentRevision : String
  descriptorRevision : String
  endpointRef : String
  endpointRevision : String
  provider : String
  modelName : String
  region : String
  credentialMode : ModelCredentialMode
  priceRevision : String
  qualificationRevision : String
  maxInputTokens : Nat
  maxOutputTokens : Nat
  deriving DecidableEq

structure ModelRouteExclusion where
  deploymentId : String
  reasons : List ModelRouteExclusionReason
  deriving DecidableEq

/-- What a route digest is taken of. -/
structure RoutePlanBody where
  policyRevision : String
  routes : List ModelRouteEntry
  exclusions : List ModelRouteExclusion
  fallbackPolicy : ModelFallbackPolicy
  budget : ModelInvocationBudget
  deriving DecidableEq

namespace RoutePlanBody

def deploymentIds (body : RoutePlanBody) : List String := body.routes.map (·.deploymentId)

def excludedIds (body : RoutePlanBody) : List String := body.exclusions.map (·.deploymentId)

def WellFormed (body : RoutePlanBody) : Prop :=
  body.deploymentIds.Nodup ∧ body.excludedIds.Nodup ∧ body.deploymentIds.Disjoint body.excludedIds

instance (body : RoutePlanBody) : Decidable body.WellFormed :=
  inferInstanceAs (Decidable (_ ∧ _ ∧ ∀ ⦃id⦄, id ∈ body.deploymentIds → id ∈ body.excludedIds → False))

end RoutePlanBody

structure ModelRoutePlan extends RoutePlanBody where
  wellFormed : toRoutePlanBody.WellFormed

def ModelRoutePlan.routeDigest (plan : ModelRoutePlan) : RoutePlanBody := plan.toRoutePlanBody

/-- The reasons of an exclusion in the order of the journal. -/
def canonicalReasons (reasons : List ModelRouteExclusionReason) : List ModelRouteExclusionReason :=
  reasons.insertionSort fun a b => a.value ≤ b.value

/-! ### Attempts -/

/-- The identifier of an attempt hashes its ordinal in the invocation. -/
structure AttemptId where
  ordinal : Nat
  deriving DecidableEq

structure ProviderFailureObservation where
  signal : ModelFailureSignal
  dispatchState : ModelDispatchState
  streamState : ModelStreamState

structure ModelAttemptOutcome where
  attemptId : AttemptId
  ordinal : Nat
  deploymentId : String
  failureClass : Option ModelFailureClass
  streamState : ModelStreamState
  costMicrousd : Nat
  inputTokens : Nat
  outputTokens : Nat

inductive ModelAttemptDecision
  | admits (deploymentId : String) (ordinal : Nat) (reason : ModelAttemptDecisionReason)
  | deny (reason : ModelAttemptDecisionReason)
  deriving DecidableEq

/-- What the policy is asked with, about the attempts of one invocation in their order. -/
structure ModelAttemptAdmissionRequest where
  routePlan : ModelRoutePlan
  now : Int
  priorAttempts : List ModelAttemptOutcome
  recoveryScope : ModelRecoveryScope := .modelInvocation
  externalEffectObserved : Bool
  projectedCostMicrousd : Option Nat
  projectedInputTokens : Option Nat
  projectedOutputTokens : Option Nat
  contiguous : priorAttempts.map (·.ordinal) = List.range' 1 priorAttempts.length

end CopilotRuntime.ModelInvocation

/-!
# The admission policy of attempts

The policy decides from the earlier attempts of an invocation whether another
one may start, and on which route.
-/

namespace CopilotRuntime.ModelInvocation

namespace ProviderFailureClassifier

/-- The classes that are decided by the signal alone. -/
def classifyLifecycleIndependent : ModelFailureSignal → Option ModelFailureClass
  | .requestInvalid => some .requestInvalid
  | .authInvalid => some .authInvalid
  | .regionUnavailable => some .regionUnavailable
  | .policyIncompatible => some .policyIncompatible
  | .contextExceeded => some .contextExceeded
  | .cancelled => some .cancelled
  | .deadlineExceeded => some .deadlineExceeded
  | .notFound => some .modelNotFound
  | _ => none

def classify (observation : ProviderFailureObservation) : ModelFailureClass :=
  match classifyLifecycleIndependent observation.signal with
  | some direct => direct
  | none =>
      match observation.signal with
      | .streamInterrupted =>
          if observation.streamState = .visibleOutput then .streamInterruptedAfterContent
          else .streamInterruptedBeforeContent
      | .rateLimited => .providerOverloaded
      | .overloaded => .providerOverloaded
      | .connectivity =>
          if (observation.dispatchState = .beforeDispatch ∨
              observation.dispatchState = .notAccepted) ∧
              observation.streamState = .notStarted then .preDispatchTransient
          else .ambiguousProviderState
      | _ => .ambiguousProviderState

end ProviderFailureClassifier

namespace ModelAttemptAdmissionPolicy

def safeRetryClasses : List ModelFailureClass :=
  [.preDispatchTransient, .providerOverloaded, .streamInterruptedBeforeContent]

/-- How often the deployment was attempted. -/
def attemptsOn (deploymentId : String) (attempts : List ModelAttemptOutcome) : Nat :=
  attempts.countP fun attempt => attempt.deploymentId = deploymentId

def costDenial (request : ModelAttemptAdmissionRequest) : Option ModelAttemptDecisionReason :=
  match request.routePlan.budget.maxCostMicrousd, request.projectedCostMicrousd with
  | none, _ => none
  | some _, none => some .projectedCostUnknown
  | some limit, some projected =>
      if limit < (request.priorAttempts.map (·.costMicrousd)).sum + projected then
        some .costBudgetExceeded
      else none

def inputDenial (request : ModelAttemptAdmissionRequest) : Option ModelAttemptDecisionReason :=
  match request.routePlan.budget.maxInputTokens, request.projectedInputTokens with
  | none, _ => none
  | some _, none => some .projectedTokenUsageUnknown
  | some limit, some projected =>
      if limit < (request.priorAttempts.map (·.inputTokens)).sum + projected then
        some .inputTokenBudgetExceeded
      else none

def outputDenial (request : ModelAttemptAdmissionRequest) : Option ModelAttemptDecisionReason :=
  match request.routePlan.budget.maxOutputTokens, request.projectedOutputTokens with
  | none, _ => none
  | some _, none => some .projectedTokenUsageUnknown
  | some limit, some projected =>
      if limit < (request.priorAttempts.map (·.outputTokens)).sum + projected then
        some .outputTokenBudgetExceeded
      else none

def preflightDenial (request : ModelAttemptAdmissionRequest) :
    Option ModelAttemptDecisionReason :=
  let plan := request.routePlan
  if request.recoveryScope = .wholeRun then some .wholeRunReplayForbidden
  else if request.externalEffectObserved ∧ request.priorAttempts ≠ [] then
    some .externalEffectObserved
  else if plan.deploymentIds = [] then some .noEligibleRoute
  else if ∃ attempt ∈ request.priorAttempts, attempt.deploymentId ∉ plan.deploymentIds then
    some .priorRouteMismatch
  else if plan.budget.maxAttempts ≤ request.priorAttempts.length then some .attemptLimitReached
  else if ∃ deadline ∈ plan.budget.deadlineAt, deadline ≤ request.now then some .deadlineExpired
  else (costDenial request).or ((inputDenial request).or (outputDenial request))

def retryDenial (attempt : ModelAttemptOutcome) : Option ModelAttemptDecisionReason :=
  if attempt.streamState = .visibleOutput then some .visibleOutputAlreadyEmitted
  else
    match attempt.failureClass with
    | none => some .priorAttemptNotFailed
    | some .ambiguousProviderState => some .ambiguousProviderState
    | some .contextExceeded => some .contextReplanRequired
    | some failure => if failure ∈ safeRetryClasses then none else some .failureNotRetryable

def decideRetry (request : ModelAttemptAdmissionRequest) (lastAttempt : ModelAttemptOutcome) :
    ModelAttemptDecision :=
  let plan := request.routePlan
  let prior := request.priorAttempts
  let ordinal := prior.length + 1
  if attemptsOn lastAttempt.deploymentId prior < plan.budget.maxSameDeploymentAttempts then
    .admits lastAttempt.deploymentId ordinal .safeSameDeploymentRetry
  else
    match plan.deploymentIds.find? fun id => id ∉ prior.map (·.deploymentId) with
    | some alternate => .admits alternate ordinal .safeAlternateRoute
    | none =>
        if plan.deploymentIds.length = 1 then .deny .sameDeploymentLimitReached
        else .deny .routeSetExhausted

def decide (request : ModelAttemptAdmissionRequest) : ModelAttemptDecision :=
  match preflightDenial request with
  | some denial => .deny denial
  | none =>
      match request.priorAttempts.getLast?, request.routePlan.deploymentIds with
      | none, first :: _ => .admits first 1 .firstAttempt
      | none, [] => .deny .noEligibleRoute
      | some lastAttempt, _ =>
          match retryDenial lastAttempt with
          | some denial => .deny denial
          | none => decideRetry request lastAttempt

/-- One more attempt on the same route, without the cache metadata the provider rejected. -/
def decideCacheFallback (request : ModelAttemptAdmissionRequest) : ModelAttemptDecision :=
  match preflightDenial request with
  | some denial => .deny denial
  | none =>
      match request.priorAttempts.getLast? with
      | none => .deny .priorAttemptNotFailed
      | some lastAttempt =>
          if lastAttempt.streamState = .visibleOutput then .deny .visibleOutputAlreadyEmitted
          else if lastAttempt.failureClass ≠ some .requestInvalid then .deny .failureNotRetryable
          else if request.routePlan.budget.maxSameDeploymentAttempts ≤
              attemptsOn lastAttempt.deploymentId request.priorAttempts then
            .deny .sameDeploymentLimitReached
          else
            .admits lastAttempt.deploymentId (request.priorAttempts.length + 1)
              .safeCacheUndecoratedRetry

end ModelAttemptAdmissionPolicy

end CopilotRuntime.ModelInvocation
