import CopilotRuntime.Foundation.Interruption
import CopilotRuntime.ModelInvocation.Journal

/-!
# The middleware around a model call

One call of the middleware plans the invocation or picks up what the journal
tells of it, and then takes attempts at the provider until one returns, one
fails for good, or the policy denies another.

## Implementation notes

The awaits of a call are its journal operations and the provider handler.
Everything else that the outside answers (the clock, whether an external effect
was observed, whether a model was found for a route) is asked between two
awaits, at a place that a `Reading` names.
-/

namespace CopilotRuntime.ModelInvocation

open Foundation Foundation.Program

/-- Where a call of the middleware asks for the time or for external effects. -/
inductive Reading
  | decision (priorAttempts : Nat)
  | admission (ordinal : Nat)
  | rejection (ordinal : Nat)
  | state (ordinal : Nat) (state : ModelAttemptLifecycleState)
  | failure (ordinal : Nat)
  | retry (ordinal : Nat)
  | nextDecision (ordinal : Nat)
  deriving DecidableEq

structure ModelReliabilityReleaseDecision where
  sameDeploymentRetryEnabled : Bool
  alternateRouteEnabled : Bool
  equivalentRouteEnabled : Bool

inductive ModelCacheFallbackPosture
  | notConfigured
  | deny
  | enabled
  deriving DecidableEq

/-- The typed authority for one retry without cache metadata. Its adapter recognises errors
with which a route's provider rejects that metadata before acknowledging the request. -/
structure PromptCacheFallbackHandoff where
  supportsUndecoratedRetry : Bool
  rejects : ModelRouteEntry → ProviderError → Bool

structure ModelInvocationRuntimeBinding where
  release : ModelReliabilityReleaseDecision
  cacheFallbackPosture : ModelCacheFallbackPosture
  currentHandoff : Option PromptCacheFallbackHandoff
  projectedCostMicrousd : Option Nat
  projectedInputTokens : Option Nat
  projectedOutputTokens : Option Nat
  externalEffectObserved : Reading → Bool
  now : Reading → Int
  resolves : Nat → ModelRouteEntry → Bool

/-- What the provider did with an attempt: the callbacks in their order, and how the handler
ended. -/
structure ProviderBehaviour where
  callbacks : List Callback
  ending : Except ProviderError ModelResponse
  durationMs : Nat

inductive InvocationOperation
  | append (record : ModelInvocationRecord)
  | listForRun
  | invoke (attemptId : AttemptId) (route : ModelRouteEntry)

abbrev InvocationOperation.Reply : InvocationOperation → Type
  | append _ => Except ModelInvocationJournalError Unit
  | listForRun => Except ModelInvocationJournalError Journal
  | invoke _ _ => ProviderBehaviour

inductive ModelInvocationError
  | journal (error : ModelInvocationJournalError)
  | invalidRecord
  | invalidRequest
  | noFailureObserved
  | transition (error : ProviderLifecycleTransitionError)
  | replayConflict
  | denied (reason : ModelAttemptDecisionReason)
  | unresolvedRoute
  | provider (error : ProviderError)
  | neverEnds

abbrev InvocationProgram := Program InvocationOperation InvocationOperation.Reply ModelInvocationError

/-- Go on with the value of a step, or raise its error as one of the call's. -/
def raiseAs {ε α : Type} (error : ε → ModelInvocationError) (result : Except ε α) :
    InvocationProgram α :=
  ofExcept (result.mapError error)

/-- Make a record, which checks its own fields, and append it. -/
def appendRecord (record : ModelInvocationRecord) : InvocationProgram Unit :=
  if record.WellFormed then request (.append record) >>= raiseAs .journal
  else raised .invalidRecord

namespace ModelInvocationMiddleware

/-! ### Loading and planning -/

def matchesAuthority (prepared : PreparedAuthority) (planned : PlannedRecord) : Prop :=
  planned.requestDigest = prepared.requestDigest ∧
    planned.requirementsDigest = prepared.requirementsDigest ∧
    planned.requirementsRevision = prepared.requirementsRevision ∧
    planned.descriptorSetRevision = prepared.catalogRevision ∧
    planned.routeDigest = prepared.routePlan.routeDigest ∧
    planned.routePolicyRevision = prepared.routePlan.policyRevision

instance (prepared planned) : Decidable (matchesAuthority prepared planned) :=
  inferInstanceAs (Decidable (_ ∧ _ ∧ _ ∧ _ ∧ _ ∧ _))

/-- Plan an invocation of which the journal holds nothing. -/
def plan (prepared : PreparedAuthority) : InvocationProgram Journal := do
  let planned := PlannedRecord.create prepared
  appendRecord (.planned planned)
  let projected := routeRecords prepared.routePlan
  if ∀ record ∈ projected, record.WellFormed then
    projected.forM appendRecord
    return .planned planned :: projected
  else raised .invalidRecord

def loadOrPlan (prepared : PreparedAuthority) : InvocationProgram Journal := do
  let records ← request .listForRun >>= raiseAs .journal
  match records.planned.head? with
  | none => plan prepared
  | some planned =>
      if matchesAuthority prepared planned ∧ ¬ records.isTerminal then return records
      else raised .replayConflict

def priorOutcome (records : Journal) (identity : AdmittedIdentity) : Option ModelAttemptOutcome := do
  let failure ← records.failures.find? fun record => record.attemptId = identity.attemptId
  let usage := records.usages.find? fun record => record.attemptId = identity.attemptId
  return {
    attemptId := identity.attemptId
    ordinal := identity.attemptOrdinal
    deploymentId := identity.deploymentId
    failureClass := some failure.failureClass
    streamState := failure.streamState
    costMicrousd := (usage.map (·.costMicrousd)).getD 0
    inputTokens := (usage.map (·.usage.inputTokens)).getD 0
    outputTokens := (usage.map (·.usage.outputTokens)).getD 0 }

/-- The outcomes of the attempts that failed. -/
def priorOutcomes (records : Journal) : List ModelAttemptOutcome :=
  records.admitted.filterMap (priorOutcome records)

/-! ### Reconciling -/

def unreportedUsage (identity : AdmittedIdentity) : AttemptUsageRecord where
  toAdmittedIdentity := identity
  usageRecordId := none
  providerReported := false
  usage := {}
  costMicrousd := 0
  durationMs := 0

/-- Finalize the usage of an attempt that has none. -/
def finalizeUsage (records : Journal) (identity : AdmittedIdentity) :
    InvocationProgram (List AttemptUsageRecord) :=
  if identity.attemptId ∈ records.usages.map (·.attemptId) then return records.usages
  else do
    appendRecord (.attemptUsage (unreportedUsage identity))
    return records.usages ++ [unreportedUsage identity]

/-- Close an attempt whose provider output was complete and is lost. -/
def reconcileCompleted (records : Journal) (identity : AdmittedIdentity) :
    InvocationProgram Unit := do
  let usages ← finalizeUsage records identity
  appendRecord (.completed {
    terminalAttemptId := identity.attemptId
    attemptCount := records.admitted.length
    totalInputTokens := (usages.map (·.usage.inputTokens)).sum
    totalOutputTokens := (usages.map (·.usage.outputTokens)).sum
    totalCostMicrousd := (usages.map (·.costMicrousd)).sum
    totalDurationMs := 0 })
  raised .replayConflict

def statesOf (records : Journal) (attemptId : AttemptId) : List AttemptStateRecord :=
  records.states.filter fun record => record.attemptId = attemptId

def ambiguousState (binding : ModelInvocationRuntimeBinding) (identity : AdmittedIdentity)
    (last : Option AttemptStateRecord) : AttemptStateRecord where
  toAdmittedIdentity := identity
  state := .ambiguous
  dispatchState := (last.map (·.dispatchState)).getD .unknown
  streamState := (last.map (·.streamState)).getD .notStarted
  visibleTextEmitted := (last.map (·.visibleTextEmitted)).getD false
  toolCallContentEmitted := (last.map (·.toolCallContentEmitted)).getD false
  externalEffectObserved := binding.externalEffectObserved (.state identity.attemptOrdinal .ambiguous)

def ambiguousFailure (binding : ModelInvocationRuntimeBinding) (identity : AdmittedIdentity)
    (last : Option AttemptStateRecord) : AttemptFailedRecord where
  toAdmittedIdentity := identity
  failureClass := .ambiguousProviderState
  dispatchState := (last.map (·.dispatchState)).getD .unknown
  streamState := (last.map (·.streamState)).getD .notStarted
  providerFailureObserved := false
  visibleTextEmitted := (last.map (·.visibleTextEmitted)).getD false
  toolCallContentEmitted := (last.map (·.toolCallContentEmitted)).getD false
  externalEffectObserved := binding.externalEffectObserved (.failure identity.attemptOrdinal)
  usageMayBeIncomplete := true

def ambiguousTerminal (records : Journal) (identity : AdmittedIdentity)
    (usages : List AttemptUsageRecord) : InvocationFailedRecord where
  terminalAttemptId := some identity.attemptId
  attemptCount := records.admitted.length
  reason := .ambiguousRecovery
  failureClass := some .ambiguousProviderState
  totalInputTokens := (usages.map (·.usage.inputTokens)).sum
  totalOutputTokens := (usages.map (·.usage.outputTokens)).sum
  totalCostMicrousd := (usages.map (·.costMicrousd)).sum
  totalDurationMs := 0

/-- Close an attempt of which nobody knows how it ended. -/
def reconcileOpen (binding : ModelInvocationRuntimeBinding) (records : Journal)
    (identity : AdmittedIdentity) : InvocationProgram Unit := do
  let states := statesOf records identity.attemptId
  let last := states.getLast?
  if ∀ record ∈ states, record.state ≠ .ambiguous then
    appendRecord (.attemptState (ambiguousState binding identity last))
  appendRecord (.attemptFailed (ambiguousFailure binding identity last))
  let usages ← finalizeUsage records identity
  appendRecord (.failed (ambiguousTerminal records identity usages))
  raised .replayConflict

def reconcileAttempt (binding : ModelInvocationRuntimeBinding) (records : Journal)
    (identity : AdmittedIdentity) : InvocationProgram Unit :=
  if ∃ record ∈ statesOf records identity.attemptId, record.state = .completed then
    reconcileCompleted records identity
  else if identity.attemptId ∈ records.failures.map (·.attemptId) then return ()
  else reconcileOpen binding records identity

def reconcileReplay (binding : ModelInvocationRuntimeBinding) (records : Journal) :
    InvocationProgram Unit :=
  records.admitted.forM (reconcileAttempt binding records)

/-! ### Deciding on an attempt -/

def admissionRecord (binding : ModelInvocationRuntimeBinding) (decision : ModelAttemptDecision)
    (prior : List ModelAttemptOutcome) : AttemptAdmissionRecord where
  admissionOrdinal := prior.length + 1
  decision := decision
  priorAttemptCount := prior.length
  externalEffectObserved := binding.externalEffectObserved (.admission (prior.length + 1))
  projectedCostMicrousd := binding.projectedCostMicrousd
  projectedInputTokens := binding.projectedInputTokens
  projectedOutputTokens := binding.projectedOutputTokens

def admissionRequest (binding : ModelInvocationRuntimeBinding) (routePlan : ModelRoutePlan)
    (prior : List ModelAttemptOutcome) (reading : Reading) :
    Except ModelInvocationError ModelAttemptAdmissionRequest :=
  if contiguous : prior.map (·.ordinal) = List.range' 1 prior.length then
    .ok {
      routePlan
      now := binding.now reading
      priorAttempts := prior
      externalEffectObserved := binding.externalEffectObserved reading
      projectedCostMicrousd := binding.projectedCostMicrousd
      projectedInputTokens := binding.projectedInputTokens
      projectedOutputTokens := binding.projectedOutputTokens
      contiguous }
  else .error .invalidRequest

def routeOf (routePlan : ModelRoutePlan) (deploymentId : String) : Option ModelRouteEntry :=
  routePlan.routes.find? fun route => route.deploymentId = deploymentId

def routeReleaseEnabled (source target : String) (routePlan : ModelRoutePlan)
    (release : ModelReliabilityReleaseDecision) : Bool :=
  if target = source then release.sameDeploymentRetryEnabled
  else
    match routeOf routePlan source, routeOf routePlan target with
    | some sourceRoute, some targetRoute =>
        if targetRoute.provider ≠ sourceRoute.provider ∨
            targetRoute.modelName ≠ sourceRoute.modelName then release.equivalentRouteEnabled
        else release.alternateRouteEnabled
    | _, _ => false

/-- A retry whose own release gate is closed gives way to the first unattempted route whose gate
is open. -/
def applyRelease (decision : ModelAttemptDecision) (prior : List ModelAttemptOutcome)
    (routePlan : ModelRoutePlan) (release : ModelReliabilityReleaseDecision) :
    ModelAttemptDecision :=
  match decision, prior.getLast? with
  | .deny reason, _ => .deny reason
  | .admits target ordinal reason, none => .admits target ordinal reason
  | .admits target ordinal reason, some lastAttempt =>
      let source := lastAttempt.deploymentId
      if routeReleaseEnabled source target routePlan release then .admits target ordinal reason
      else
        match routePlan.routes.find? fun candidate =>
            candidate.deploymentId ∉ prior.map (·.deploymentId) ∧
              routeReleaseEnabled source candidate.deploymentId routePlan release with
        | some candidate => .admits candidate.deploymentId ordinal .safeAlternateRoute
        | none => .deny .failureNotRetryable

def decideAttempt (binding : ModelInvocationRuntimeBinding) (routePlan : ModelRoutePlan)
    (prior : List ModelAttemptOutcome) (reading : Reading) :
    Except ModelInvocationError ModelAttemptDecision := do
  let request ← admissionRequest binding routePlan prior reading
  return applyRelease (ModelAttemptAdmissionPolicy.decide request) prior routePlan binding.release

def totalInput (prior : List ModelAttemptOutcome) : Nat := (prior.map (·.inputTokens)).sum

def totalOutput (prior : List ModelAttemptOutcome) : Nat := (prior.map (·.outputTokens)).sum

def totalCost (prior : List ModelAttemptOutcome) : Nat := (prior.map (·.costMicrousd)).sum

def deniedTerminal (routePlan : ModelRoutePlan) (prior : List ModelAttemptOutcome) :
    InvocationFailedRecord where
  terminalAttemptId := prior.getLast?.map (·.attemptId)
  attemptCount := prior.length
  reason := if routePlan.routes = [] then .noEligibleRoute else .admissionDenied
  failureClass := prior.getLast?.bind (·.failureClass)
  totalInputTokens := totalInput prior
  totalOutputTokens := totalOutput prior
  totalCostMicrousd := totalCost prior
  totalDurationMs := 0

def denyAttempt (binding : ModelInvocationRuntimeBinding) (routePlan : ModelRoutePlan)
    (prior : List ModelAttemptOutcome) (lastError : Option ProviderError)
    (reason : ModelAttemptDecisionReason) : InvocationProgram ModelResponse := do
  appendRecord (.attemptAdmission (admissionRecord binding (.deny reason) prior))
  appendRecord (.failed (deniedTerminal routePlan prior))
  match lastError with
  | some error => raised (.provider error)
  | none => raised (.denied reason)

def recoveryKind (deploymentId : String) (reason : ModelAttemptDecisionReason)
    (source : ModelAttemptOutcome) : ModelRecoveryKind :=
  if reason = .safeCacheUndecoratedRetry then .cacheUndecoratedRetry
  else if deploymentId = source.deploymentId then .sameDeploymentRetry
  else .alternateRoute

/-- The recovery that a retry starts with, unless the journal tells it already. -/
def recoveryFor (deploymentId : String) (reason : ModelAttemptDecisionReason)
    (prior : List ModelAttemptOutcome) (recoveries : List InvocationRecoveryRecord) :
    Option InvocationRecoveryRecord :=
  match prior.getLast? with
  | none => none
  | some source =>
      if ∃ latest ∈ recoveries.getLast?,
          latest.sourceAttemptId = source.attemptId ∧ latest.outcome = .admitted then none
      else some {
        recoveryOrdinal := recoveries.length + 1
        sourceAttemptId := source.attemptId
        kind := recoveryKind deploymentId reason source
        outcome := .admitted
        decisionReason := some reason
        targetAttemptId := some ⟨prior.length + 1⟩ }

/-! ### Recording what an attempt came to -/

def progressFacts (state : ProviderAttemptLifecycle) : List ModelAttemptLifecycleState :=
  (if state.dispatchState = .accepted then [.accepted] else []) ++
    (if state.streamStarted then [.streamStarted] else []) ++
    (if state.visibleTextObserved then [.visibleOutput] else []) ++
    (if state.toolCallContentObserved then [.toolCallContent] else [])

def endFacts (state : ProviderAttemptLifecycle) : List ModelAttemptLifecycleState :=
  if state.terminalState = some .completed then [.completed]
  else if state.failureSignal = some .cancelled ∨ state.terminalState = some .cancelled then
    [.cancelled]
  else if state.failureObservation.map ProviderFailureClassifier.classify =
      some .ambiguousProviderState then [.ambiguous]
  else []

/-- The facts of an attempt's progress, in the order in which they are recorded. -/
def stateFacts (state : ProviderAttemptLifecycle) : List ModelAttemptLifecycleState :=
  progressFacts state ++ endFacts state

def stateRecord (binding : ModelInvocationRuntimeBinding) (identity : AdmittedIdentity)
    (observed : ProviderAttemptLifecycle) (fact : ModelAttemptLifecycleState) :
    AttemptStateRecord where
  toAdmittedIdentity := identity
  state := fact
  dispatchState := observed.dispatchState
  streamState := observed.streamState
  visibleTextEmitted := observed.visibleTextObserved
  toolCallContentEmitted := observed.toolCallContentObserved
  externalEffectObserved := binding.externalEffectObserved (.state identity.attemptOrdinal fact)

def appendStates (binding : ModelInvocationRuntimeBinding) (identity : AdmittedIdentity)
    (observed : ProviderAttemptLifecycle) : InvocationProgram Unit :=
  (stateFacts observed).forM fun fact =>
    appendRecord (.attemptState (stateRecord binding identity observed fact))

def usageRecord (identity : AdmittedIdentity) (observer : ProviderLifecycleCallback)
    (usage : NormalizedTokenUsage) (durationMs : Nat) : AttemptUsageRecord where
  toAdmittedIdentity := identity
  usageRecordId := observer.usageRecordId
  providerReported := observer.usageReported
  usage := usage
  costMicrousd := 0
  durationMs := durationMs

def recordSuccess (binding : ModelInvocationRuntimeBinding) (identity : AdmittedIdentity)
    (observer : ProviderLifecycleCallback) (prior : List ModelAttemptOutcome) (durationMs : Nat) :
    InvocationProgram Unit := do
  appendStates binding identity observer.state
  appendRecord (.attemptUsage (usageRecord identity observer observer.usage durationMs))
  appendRecord (.completed {
    terminalAttemptId := identity.attemptId
    attemptCount := prior.length + 1
    totalInputTokens := totalInput prior + observer.usage.inputTokens
    totalOutputTokens := totalOutput prior + observer.usage.outputTokens
    totalCostMicrousd := totalCost prior
    totalDurationMs := durationMs })

def failedRecord (binding : ModelInvocationRuntimeBinding) (identity : AdmittedIdentity)
    (observed : ProviderAttemptLifecycle) (observation : ProviderFailureObservation) :
    AttemptFailedRecord where
  toAdmittedIdentity := identity
  failureClass := ProviderFailureClassifier.classify observation
  dispatchState := observation.dispatchState
  streamState := observation.streamState
  providerFailureObserved := observation.signal ≠ .unknown
  visibleTextEmitted := observed.visibleTextObserved
  toolCallContentEmitted := observed.toolCallContentObserved
  externalEffectObserved := binding.externalEffectObserved (.failure identity.attemptOrdinal)
  usageMayBeIncomplete := observed.usageObserved

def failedOutcome (identity : AdmittedIdentity) (observer : ProviderLifecycleCallback)
    (observation : ProviderFailureObservation) : ModelAttemptOutcome where
  attemptId := identity.attemptId
  ordinal := identity.attemptOrdinal
  deploymentId := identity.deploymentId
  failureClass := some (ProviderFailureClassifier.classify observation)
  streamState := observation.streamState
  costMicrousd := 0
  inputTokens := observer.usage.inputTokens
  outputTokens := observer.usage.outputTokens

def recordFailure (binding : ModelInvocationRuntimeBinding) (identity : AdmittedIdentity)
    (observer : ProviderLifecycleCallback) (durationMs : Nat) :
    InvocationProgram ModelAttemptOutcome := do
  appendStates binding identity observer.state
  match observer.state.failureObservation with
  | none => raised .noFailureObserved
  | some observation =>
      appendRecord (.attemptFailed (failedRecord binding identity observer.state observation))
      let usage := if observer.usageReported then observer.usage else {}
      appendRecord (.attemptUsage (usageRecord identity observer usage durationMs))
      return failedOutcome identity observer observation

def terminalReason : ModelFailureClass → ModelInvocationFailureReason
  | .cancelled => .cancelled
  | .deadlineExceeded => .deadlineExceeded
  | .ambiguousProviderState => .ambiguousRecovery
  | _ => .attemptFailed

def failedTerminal (prior : List ModelAttemptOutcome) (identity : AdmittedIdentity)
    (failure : ModelFailureClass) (durationMs : Nat) : InvocationFailedRecord where
  terminalAttemptId := some identity.attemptId
  attemptCount := prior.length
  reason := terminalReason failure
  failureClass := some failure
  totalInputTokens := totalInput prior
  totalOutputTokens := totalOutput prior
  totalCostMicrousd := totalCost prior
  totalDurationMs := durationMs

def canRetry (binding : ModelInvocationRuntimeBinding) (failure : ModelFailureClass)
    (observed : ProviderAttemptLifecycle) (ordinal : Nat) : Bool :=
  (binding.release.sameDeploymentRetryEnabled || binding.release.alternateRouteEnabled ||
      binding.release.equivalentRouteEnabled) &&
    failure ∈ ModelAttemptAdmissionPolicy.safeRetryClasses &&
    !(observed.visibleOutputObserved || binding.externalEffectObserved (.retry ordinal) ||
      failure = .ambiguousProviderState)

/-- What a call carries from one attempt to the next. -/
structure Progress where
  prior : List ModelAttemptOutcome
  recoveries : List InvocationRecoveryRecord
  pendingCacheRetry : Option ModelAttemptDecision := none
  lastError : Option ProviderError := none
  rejectionConsumed : Bool := false

/-- The handoff of a call, which admits one retry. -/
def handoffOf (binding : ModelInvocationRuntimeBinding) (progress : Progress) :
    Option PromptCacheFallbackHandoff :=
  if binding.cacheFallbackPosture = .enabled ∧ ¬ progress.rejectionConsumed then
    binding.currentHandoff
  else none

def consumesRejection (binding : ModelInvocationRuntimeBinding) (progress : Progress)
    (error : ProviderError) (observed : ProviderAttemptLifecycle) (route : ModelRouteEntry)
    (ordinal : Nat) : Bool :=
  match handoffOf binding progress with
  | none => false
  | some handoff =>
      handoff.supportsUndecoratedRetry && !binding.externalEffectObserved (.rejection ordinal) &&
        observed.dispatchState ≠ .accepted && !observed.visibleTextObserved &&
        !observed.toolCallContentObserved && !observed.usageObserved && handoff.rejects route error

/-- The observer once the handler raised. -/
def observeRaised (rejected : Bool) (observer : ProviderLifecycleCallback) (error : ProviderError) :
    ProviderLifecycleCallback.Outcome :=
  if rejected then observer.onCacheRejection else observer.onError error

/-- Whether a failed attempt is followed by another one: the retry's decision, or none where the
failure is final. -/
def decideAfterFailure (binding : ModelInvocationRuntimeBinding) (routePlan : ModelRoutePlan)
    (prior : List ModelAttemptOutcome) (rejected : Bool) (failure : ModelFailureClass)
    (observed : ProviderAttemptLifecycle) :
    Except ModelInvocationError (Option ModelAttemptDecision) :=
  if rejected then do
    let request ← admissionRequest binding routePlan prior (.nextDecision prior.length)
    match ModelAttemptAdmissionPolicy.decideCacheFallback request with
    | .deny _ => return none
    | .admits deploymentId ordinal reason => return some (.admits deploymentId ordinal reason)
  else if canRetry binding failure observed prior.length then do
    match ← decideAttempt binding routePlan prior (.nextDecision prior.length) with
    | .deny _ => return none
    | .admits deploymentId ordinal reason => return some (.admits deploymentId ordinal reason)
  else return none

/-- Record a failed attempt. What is returned is how to go on, if the call goes on. -/
def settleFailure (binding : ModelInvocationRuntimeBinding) (routePlan : ModelRoutePlan)
    (identity : AdmittedIdentity) (observer : ProviderLifecycleCallback) (rejected : Bool)
    (error : ProviderError) (durationMs : Nat) (progress : Progress) :
    InvocationProgram (Option Progress) := do
  let outcome ← recordFailure binding identity observer durationMs
  let prior := progress.prior ++ [outcome]
  let failure := outcome.failureClass.getD .ambiguousProviderState
  match ← ofExcept (decideAfterFailure binding routePlan prior rejected failure observer.state) with
  | none =>
      appendRecord (.failed (failedTerminal prior identity failure durationMs))
      return none
  | some decision =>
      return some {
        prior
        recoveries := progress.recoveries
        pendingCacheRetry := if rejected then some decision else none
        lastError := some error
        rejectionConsumed := progress.rejectionConsumed || rejected }

/-! ### The attempts of a call -/

/-- Start an admitted attempt. The observer has seen that it was dispatched. -/
def startAttempt (admission : AttemptAdmissionRecord) (identity : AdmittedIdentity)
    (reason : ModelAttemptDecisionReason) (progress : Progress) :
    InvocationProgram (List InvocationRecoveryRecord) := do
  let recovery := recoveryFor identity.deploymentId reason progress.prior progress.recoveries
  recovery.toList.forM fun recovery => appendRecord (.recovery recovery)
  appendRecord (.attemptAdmission admission)
  appendRecord (.attemptState {
    toAdmittedIdentity := identity
    state := .dispatching
    dispatchState := .unknown
    streamState := .notStarted })
  return progress.recoveries ++ recovery.toList

/-- Settle an attempt once the handler ended. What is returned is the response, or how to go on. -/
def settleAttempt (binding : ModelInvocationRuntimeBinding) (routePlan : ModelRoutePlan)
    (identity : AdmittedIdentity) (route : ModelRouteEntry) (behaviour : ProviderBehaviour)
    (progress : Progress) : InvocationProgram (ModelResponse ⊕ Progress) := do
  let dispatched ← raiseAs .transition (({} : ProviderLifecycleCallback).event .dispatchStarted)
  let observer := dispatched.observeAll behaviour.callbacks
  match behaviour.ending with
  | .ok response =>
      let observer ← raiseAs .transition (observer.complete response.result)
      (recordSuccess binding identity observer progress.prior behaviour.durationMs).tryCatch
        fun _ => return ()
      return .inl response
  | .error error =>
      let rejected := consumesRejection binding progress error observer.state route
        identity.attemptOrdinal
      let observer ← raiseAs .transition (observeRaised rejected observer error)
      let next ← (settleFailure binding routePlan identity observer rejected error
        behaviour.durationMs progress).tryCatch fun _ => return none
      match next with
      | none => raised (.provider error)
      | some progress => return .inr progress

def nextDecision (binding : ModelInvocationRuntimeBinding) (routePlan : ModelRoutePlan)
    (progress : Progress) : Except ModelInvocationError ModelAttemptDecision :=
  match progress.pendingCacheRetry with
  | some decision => return decision
  | none => decideAttempt binding routePlan progress.prior (.decision progress.prior.length)

/-- The alternate route needs a model of its own. -/
def routeRequest (binding : ModelInvocationRuntimeBinding) (routePlan : ModelRoutePlan)
    (deploymentId : String) (ordinal : Nat) : Except ModelInvocationError ModelRouteEntry :=
  match routeOf routePlan deploymentId with
  | none => throw .unresolvedRoute
  | some route =>
      if routePlan.routes.head? = some route ∨ binding.resolves ordinal route then return route
      else throw .unresolvedRoute

def attempts (binding : ModelInvocationRuntimeBinding) (routePlan : ModelRoutePlan) :
    Nat → Progress → InvocationProgram ModelResponse
  | 0, _ => raised .neverEnds
  | fuel + 1, progress => do
      match ← ofExcept (nextDecision binding routePlan progress) with
      | .deny reason =>
          denyAttempt binding routePlan progress.prior progress.lastError reason
      | .admits deploymentId ordinal reason =>
          let route ← ofExcept (routeRequest binding routePlan deploymentId ordinal)
          let admission :=
            admissionRecord binding (.admits deploymentId ordinal reason) progress.prior
          let identity : AdmittedIdentity :=
            ⟨⟨admission.admissionOrdinal⟩, ordinal, deploymentId⟩
          let recoveries ← startAttempt admission identity reason progress
          let behaviour ← request (.invoke identity.attemptId route)
          let next ← settleAttempt binding routePlan identity route behaviour
            { progress with recoveries }
          match next with
          | .inl response => return response
          | .inr progress => attempts binding routePlan fuel progress

/-- A model call. An attempt beyond the plan's limit is denied, so that the attempts end. -/
def awrapModelCall (binding : ModelInvocationRuntimeBinding) (prepared : PreparedAuthority) :
    InvocationProgram ModelResponse := do
  let records ← loadOrPlan prepared
  reconcileReplay binding records
  attempts binding prepared.routePlan (prepared.routePlan.budget.maxAttempts + 1)
    { prior := priorOutcomes records, recoveries := records.recoveries }

end ModelInvocationMiddleware

end CopilotRuntime.ModelInvocation
