import CopilotRuntime.ModelInvocation.Records

/-!
# The journal of an invocation

The store appends a record after it validated it against the records before it,
and validates the whole journal again whenever it reads it. The same record may
be appended again, which changes nothing.

## Implementation notes

A run's journal also holds the records of other model calls. Every check of a
record reads those of its own invocation, so a journal is these alone.
-/

namespace CopilotRuntime.ModelInvocation

abbrev Journal := List ModelInvocationRecord

inductive ModelInvocationJournalError
  | conflict (recordId : RecordId)
  | corruption
  deriving DecidableEq

namespace Journal

/-! ### The records of a kind -/

def planned (journal : Journal) : List PlannedRecord :=
  journal.filterMap fun | .planned record => some record | _ => none

def routes (journal : Journal) : List RouteEligibleRecord :=
  journal.filterMap fun | .routeEligible record => some record | _ => none

def exclusions (journal : Journal) : List RouteExcludedRecord :=
  journal.filterMap fun | .routeExcluded record => some record | _ => none

def admissions (journal : Journal) : List AttemptAdmissionRecord :=
  journal.filterMap fun | .attemptAdmission record => some record | _ => none

/-- The attempts that were admitted. -/
def admitted (journal : Journal) : List AdmittedIdentity :=
  journal.admissions.filterMap (·.admittedIdentity?)

def states (journal : Journal) : List AttemptStateRecord :=
  journal.filterMap fun | .attemptState record => some record | _ => none

def usages (journal : Journal) : List AttemptUsageRecord :=
  journal.filterMap fun | .attemptUsage record => some record | _ => none

def failures (journal : Journal) : List AttemptFailedRecord :=
  journal.filterMap fun | .attemptFailed record => some record | _ => none

def recoveries (journal : Journal) : List InvocationRecoveryRecord :=
  journal.filterMap fun | .recovery record => some record | _ => none

/-- A terminal record is there. -/
def isTerminal (journal : Journal) : Bool :=
  journal.any fun | .completed _ => true | .failed _ => true | _ => false

end Journal

namespace EventJournalModelInvocationStore

def stateRank : ModelAttemptLifecycleState → Nat
  | .admitted => 0
  | .dispatching => 1
  | .accepted => 2
  | .streamStarted => 3
  | .visibleOutput => 4
  | .toolCallContent => 4
  | .completed => 5
  | .cancelled => 5
  | .ambiguous => 5

def endsAttempt (state : ModelAttemptLifecycleState) : Prop :=
  state = .completed ∨ state = .cancelled ∨ state = .ambiguous

instance (state : ModelAttemptLifecycleState) : Decidable (endsAttempt state) :=
  inferInstanceAs (Decidable (_ ∨ _ ∨ _))

def ValidRoute (invocation : PlannedRecord) (prior : Journal) (candidate : RouteEligibleRecord) :
    Prop :=
  prior.admissions = [] ∧ candidate.routeDigest = invocation.routeDigest ∧
    candidate.routeOrdinal = prior.routes.length + 1 ∧
    candidate.routeOrdinal ≤ invocation.eligibleRouteCount ∧
    candidate.route.deploymentId ∉ prior.routes.map (·.route.deploymentId) ∧
    candidate.route.deploymentId ∉ prior.exclusions.map (·.deploymentId)

def ValidExclusion (invocation : PlannedRecord) (prior : Journal)
    (candidate : RouteExcludedRecord) : Prop :=
  prior.admissions = [] ∧ candidate.routeDigest = invocation.routeDigest ∧
    prior.exclusions.length < invocation.exclusionCount ∧
    candidate.deploymentId ∉ prior.routes.map (·.route.deploymentId) ∧
    candidate.deploymentId ∉ prior.exclusions.map (·.deploymentId)

/-- The plan that the journal's records of routes and exclusions tell. -/
def recordedPlan (invocation : PlannedRecord) (prior : Journal) : RoutePlanBody where
  policyRevision := invocation.routePolicyRevision
  routes := prior.routes.map (·.route)
  exclusions := prior.exclusions.map fun record => ⟨record.deploymentId, record.reasons⟩
  fallbackPolicy := invocation.fallbackPolicy
  budget := invocation.budget

def RoutePlanReconciles (invocation : PlannedRecord) (prior : Journal) : Prop :=
  (recordedPlan invocation prior).WellFormed ∧
    recordedPlan invocation prior = invocation.routeDigest

def admissionForAttempt (prior : Journal) (attemptId : AttemptId) : Option AdmittedIdentity :=
  prior.admitted.find? fun identity => identity.attemptId = attemptId

/-- The recovery names the retry that the decision makes. -/
def RecoveryMatches (kind : ModelRecoveryKind) (source : AdmittedIdentity)
    (identity : AdmittedIdentity) (reason : ModelAttemptDecisionReason) : Prop :=
  match kind with
  | .sameDeploymentRetry =>
      identity.deploymentId = source.deploymentId ∧ reason = .safeSameDeploymentRetry
  | .alternateRoute => identity.deploymentId ≠ source.deploymentId ∧ reason = .safeAlternateRoute
  | .cacheUndecoratedRetry =>
      identity.deploymentId = source.deploymentId ∧ reason = .safeCacheUndecoratedRetry
  | .crashReconciliation => True

/-- A later attempt follows an admitted recovery of an earlier one. -/
def Recovers (prior : Journal) (identity : AdmittedIdentity)
    (reason : ModelAttemptDecisionReason) : Prop :=
  match (prior.recoveries.filter (·.outcome = .admitted)).getLast? with
  | none => False
  | some recovery =>
      recovery.targetAttemptId = some identity.attemptId ∧
        match admissionForAttempt prior recovery.sourceAttemptId with
        | none => False
        | some source => RecoveryMatches recovery.kind source identity reason

def ValidAdmitted (invocation : PlannedRecord) (prior : Journal) (candidate : AttemptAdmissionRecord) :
    Prop :=
  match candidate.decision with
  | .deny _ => True
  | .admits deploymentId ordinal reason =>
      ordinal = prior.admitted.length + 1 ∧
        deploymentId ∈ prior.routes.map (·.route.deploymentId) ∧
        prior.admitted.length < invocation.budget.maxAttempts ∧
        prior.admitted.countP (fun identity => identity.deploymentId = deploymentId) <
          invocation.budget.maxSameDeploymentAttempts ∧
        if prior.admitted = [] then reason = .firstAttempt
        else Recovers prior ⟨⟨candidate.admissionOrdinal⟩, ordinal, deploymentId⟩ reason

def ValidAdmission (invocation : PlannedRecord) (prior : Journal)
    (candidate : AttemptAdmissionRecord) : Prop :=
  prior.routes.length = invocation.eligibleRouteCount ∧
    prior.exclusions.length = invocation.exclusionCount ∧
    RoutePlanReconciles invocation prior ∧
    (∀ last ∈ prior.admissions.getLast?, ¬ last.isDenied) ∧
    candidate.admissionOrdinal = prior.admitted.length + 1 ∧
    candidate.priorAttemptCount = prior.admitted.length ∧
    ¬ (prior.admitted ≠ [] ∧ candidate.externalEffectObserved) ∧
    ValidAdmitted invocation prior candidate

def ValidState (prior : Journal) (candidate : AttemptStateRecord) : Prop :=
  admissionForAttempt prior candidate.attemptId = some candidate.toAdmittedIdentity ∧
    (∀ record ∈ prior.states, record.attemptId = candidate.attemptId →
      record.state ≠ candidate.state) ∧
    (∀ record ∈ prior.failures, record.attemptId ≠ candidate.attemptId) ∧
    ∀ last ∈ (prior.states.filter (·.attemptId = candidate.attemptId)).getLast?,
      stateRank last.state ≤ stateRank candidate.state ∧ ¬ endsAttempt last.state

def ValidUsage (prior : Journal) (candidate : AttemptUsageRecord) : Prop :=
  admissionForAttempt prior candidate.attemptId = some candidate.toAdmittedIdentity ∧
    ∀ record ∈ prior.usages, record.attemptId ≠ candidate.attemptId

def ValidAttemptFailure (prior : Journal) (candidate : AttemptFailedRecord) : Prop :=
  admissionForAttempt prior candidate.attemptId = some candidate.toAdmittedIdentity ∧
    (∀ record ∈ prior.failures, record.attemptId ≠ candidate.attemptId) ∧
    ∀ record ∈ prior.states, record.attemptId = candidate.attemptId → record.state ≠ .completed

/-- The source failed so that another attempt may follow it. -/
def RecoverableFailure (prior : Journal) (kind : ModelRecoveryKind) (source : AttemptFailedRecord) :
    Prop :=
  ¬ source.visibleTextEmitted ∧ ¬ source.toolCallContentEmitted ∧
    ¬ source.externalEffectObserved ∧
    (∃ record ∈ prior.usages, record.attemptId = source.attemptId) ∧
    if kind = .cacheUndecoratedRetry then source.failureClass = .requestInvalid
    else source.failureClass ∈ ModelAttemptAdmissionPolicy.safeRetryClasses

def ReasonMatches (kind : ModelRecoveryKind) (reason : Option ModelAttemptDecisionReason) : Prop :=
  match kind with
  | .sameDeploymentRetry => reason = some .safeSameDeploymentRetry
  | .alternateRoute => reason = some .safeAlternateRoute
  | .cacheUndecoratedRetry => reason = some .safeCacheUndecoratedRetry
  | .crashReconciliation => True

def ValidRecovery (prior : Journal) (candidate : InvocationRecoveryRecord) : Prop :=
  let sourceFailure := prior.failures.find? fun record =>
    record.attemptId = candidate.sourceAttemptId
  let sourceAmbiguous := ∃ record ∈ prior.states,
    record.attemptId = candidate.sourceAttemptId ∧ record.state = .ambiguous
  candidate.recoveryOrdinal = prior.recoveries.length + 1 ∧
    (sourceFailure.isSome ∨ sourceAmbiguous) ∧
    (candidate.outcome = .admitted →
      ¬ sourceAmbiguous ∧ ∃ source ∈ sourceFailure,
        RecoverableFailure prior candidate.kind source) ∧
    ReasonMatches candidate.kind candidate.decisionReason

/-- The usage records are those of the admitted attempts. -/
def UsageCoversAttempts (prior : Journal) : Prop :=
  (∀ record ∈ prior.usages, record.attemptId ∈ prior.admitted.map (·.attemptId)) ∧
    ∀ identity ∈ prior.admitted, identity.attemptId ∈ prior.usages.map (·.attemptId)

def TotalsMatch (prior : Journal) (inputTokens outputTokens costMicrousd : Nat) : Prop :=
  inputTokens = (prior.usages.map (·.usage.inputTokens)).sum ∧
    outputTokens = (prior.usages.map (·.usage.outputTokens)).sum ∧
    costMicrousd = (prior.usages.map (·.costMicrousd)).sum

def ValidCompletion (prior : Journal) (candidate : InvocationCompletedRecord) : Prop :=
  candidate.attemptCount = prior.admitted.length ∧
    candidate.terminalAttemptId ∈ prior.admitted.map (·.attemptId) ∧
    UsageCoversAttempts prior ∧
    ((∃ record ∈ prior.states,
        record.attemptId = candidate.terminalAttemptId ∧ record.state = .completed) ∨
      ∃ record ∈ prior.recoveries, record.sourceAttemptId = candidate.terminalAttemptId ∧
        record.outcome = .reconciledCompleted) ∧
    TotalsMatch prior candidate.totalInputTokens candidate.totalOutputTokens
      candidate.totalCostMicrousd

def TerminalObserved (prior : Journal) (terminal : AttemptId) : Prop :=
  (∃ record ∈ prior.failures, record.attemptId = terminal) ∨
    ∃ record ∈ prior.states, record.attemptId = terminal ∧
      (record.state = .cancelled ∨ record.state = .ambiguous)

/-- The last recovery admitted an attempt that was never started. -/
def UnresolvedRecovery (prior : Journal) : Prop :=
  ∃ recovery ∈ prior.recoveries.getLast?, recovery.outcome = .admitted ∧
    recovery.targetAttemptId ∉ prior.admitted.map (some ·.attemptId)

def ValidInvocationFailure (prior : Journal) (candidate : InvocationFailedRecord) : Prop :=
  candidate.attemptCount = prior.admitted.length ∧
    (∀ terminal ∈ candidate.terminalAttemptId, TerminalObserved prior terminal) ∧
    (prior.admitted = [] → prior.routes = [] ∨ ∃ last ∈ prior.admissions.getLast?, last.isDenied) ∧
    UsageCoversAttempts prior ∧ ¬ UnresolvedRecovery prior ∧
    TotalsMatch prior candidate.totalInputTokens candidate.totalOutputTokens
      candidate.totalCostMicrousd

/-- What each kind of record asks of an open invocation. -/
def ValidChild (invocation : PlannedRecord) (prior : Journal) : ModelInvocationRecord → Prop
  | .planned _ => False
  | .routeEligible record => ValidRoute invocation prior record
  | .routeExcluded record => ValidExclusion invocation prior record
  | .attemptAdmission record => ValidAdmission invocation prior record
  | .attemptState record => ValidState prior record
  | .attemptUsage record => ValidUsage prior record
  | .attemptFailed record => ValidAttemptFailure prior record
  | .recovery record => ValidRecovery prior record
  | .completed record => ValidCompletion prior record
  | .failed record => ValidInvocationFailure prior record

def ValidNext (prior : Journal) (candidate : ModelInvocationRecord) : Prop :=
  match prior.planned.head? with
  | none => ∃ record, candidate = .planned record
  | some invocation => ¬ prior.isTerminal ∧ ValidChild invocation prior candidate

/-! ### Deciding -/

instance (kind source identity reason) : Decidable (RecoveryMatches kind source identity reason) :=
  match kind with
  | .sameDeploymentRetry => inferInstanceAs (Decidable (_ ∧ _))
  | .alternateRoute => inferInstanceAs (Decidable (_ ∧ _))
  | .cacheUndecoratedRetry => inferInstanceAs (Decidable (_ ∧ _))
  | .crashReconciliation => inferInstanceAs (Decidable True)

instance (prior identity reason) : Decidable (Recovers prior identity reason) :=
  match h : (prior.recoveries.filter (·.outcome = .admitted)).getLast? with
  | none => isFalse (by simp [Recovers, h])
  | some recovery =>
      match hsource : admissionForAttempt prior recovery.sourceAttemptId with
      | none => isFalse (by simp [Recovers, h, hsource])
      | some source =>
          decidable_of_iff (recovery.targetAttemptId = some identity.attemptId ∧
            RecoveryMatches recovery.kind source identity reason) (by simp [Recovers, h, hsource])

instance (invocation prior candidate) : Decidable (ValidAdmitted invocation prior candidate) :=
  match h : candidate.decision with
  | .deny _ => isTrue (by simp [ValidAdmitted, h])
  | .admits deploymentId ordinal reason =>
      decidable_of_iff (ordinal = prior.admitted.length + 1 ∧
        deploymentId ∈ prior.routes.map (·.route.deploymentId) ∧
        prior.admitted.length < invocation.budget.maxAttempts ∧
        prior.admitted.countP (fun identity => identity.deploymentId = deploymentId) <
          invocation.budget.maxSameDeploymentAttempts ∧
        if prior.admitted = [] then reason = .firstAttempt
        else Recovers prior ⟨⟨candidate.admissionOrdinal⟩, ordinal, deploymentId⟩ reason)
        (by simp [ValidAdmitted, h])

instance (kind reason) : Decidable (ReasonMatches kind reason) :=
  match kind with
  | .sameDeploymentRetry => inferInstanceAs (Decidable (_ = _))
  | .alternateRoute => inferInstanceAs (Decidable (_ = _))
  | .cacheUndecoratedRetry => inferInstanceAs (Decidable (_ = _))
  | .crashReconciliation => inferInstanceAs (Decidable True)

instance (prior kind source) : Decidable (RecoverableFailure prior kind source) :=
  inferInstanceAs (Decidable (_ ∧ _ ∧ _ ∧ _ ∧ ite _ _ _))

instance (invocation prior) : Decidable (RoutePlanReconciles invocation prior) :=
  inferInstanceAs (Decidable (_ ∧ _))

instance (prior) : Decidable (UsageCoversAttempts prior) := inferInstanceAs (Decidable (_ ∧ _))

instance (prior inputTokens outputTokens costMicrousd) :
    Decidable (TotalsMatch prior inputTokens outputTokens costMicrousd) :=
  inferInstanceAs (Decidable (_ ∧ _ ∧ _))

instance (prior terminal) : Decidable (TerminalObserved prior terminal) :=
  inferInstanceAs (Decidable (_ ∨ _))

instance (prior) : Decidable (UnresolvedRecovery prior) :=
  inferInstanceAs (Decidable (∃ recovery ∈ _, _ ∧ _))

instance (invocation prior) : (record : ModelInvocationRecord) →
    Decidable (ValidChild invocation prior record)
  | .planned _ => inferInstanceAs (Decidable False)
  | .routeEligible _ => inferInstanceAs (Decidable (_ ∧ _ ∧ _ ∧ _ ∧ _ ∧ _))
  | .routeExcluded _ => inferInstanceAs (Decidable (_ ∧ _ ∧ _ ∧ _ ∧ _))
  | .attemptAdmission _ => inferInstanceAs (Decidable (_ ∧ _ ∧ _ ∧ _ ∧ _ ∧ _ ∧ _ ∧ _))
  | .attemptState _ => inferInstanceAs (Decidable (_ ∧ _ ∧ _ ∧ _))
  | .attemptUsage _ => inferInstanceAs (Decidable (_ ∧ _))
  | .attemptFailed _ => inferInstanceAs (Decidable (_ ∧ _ ∧ _))
  | .recovery _ => inferInstanceAs (Decidable (_ ∧ _ ∧ _ ∧ _))
  | .completed _ => inferInstanceAs (Decidable (_ ∧ _ ∧ _ ∧ _ ∧ _))
  | .failed _ => inferInstanceAs (Decidable (_ ∧ _ ∧ _ ∧ _ ∧ _ ∧ _))

instance (prior candidate) : Decidable (ValidNext prior candidate) :=
  match h : prior.planned.head? with
  | some invocation =>
      decidable_of_iff (¬ prior.isTerminal ∧ ValidChild invocation prior candidate)
        (by simp [ValidNext, h])
  | none =>
      match candidate with
      | .planned record => isTrue (by simp [ValidNext, h])
      | .routeEligible _ => isFalse (by simp [ValidNext, h])
      | .routeExcluded _ => isFalse (by simp [ValidNext, h])
      | .attemptAdmission _ => isFalse (by simp [ValidNext, h])
      | .attemptState _ => isFalse (by simp [ValidNext, h])
      | .attemptUsage _ => isFalse (by simp [ValidNext, h])
      | .attemptFailed _ => isFalse (by simp [ValidNext, h])
      | .recovery _ => isFalse (by simp [ValidNext, h])
      | .completed _ => isFalse (by simp [ValidNext, h])
      | .failed _ => isFalse (by simp [ValidNext, h])

/-! ### The store's operations -/

/-- The rest of a journal replays after the records before it. -/
def ReplaysAfter (before : Journal) : Journal → Prop
  | [] => True
  | record :: rest =>
      (record.recordId ∉ before.map (·.recordId) ∧ ValidNext before record) ∧
        ReplaysAfter (before ++ [record]) rest

def decidableReplaysAfter (before : Journal) : (rest : Journal) → Decidable (ReplaysAfter before rest)
  | [] => inferInstanceAs (Decidable True)
  | record :: rest =>
      have := decidableReplaysAfter (before ++ [record]) rest
      inferInstanceAs (Decidable ((_ ∧ _) ∧ _))

instance (before rest) : Decidable (ReplaysAfter before rest) := decidableReplaysAfter before rest

def listForRun (journal : Journal) : Except ModelInvocationJournalError Journal :=
  if ReplaysAfter [] journal then .ok journal else .error .corruption

/-- The journal after a record is appended that it does not hold. -/
def appendNew (journal : Journal) (record : ModelInvocationRecord) :
    Except ModelInvocationJournalError Journal :=
  if ValidNext journal record then .ok (journal ++ [record])
  else .error (.conflict record.recordId)

def append (journal : Journal) (record : ModelInvocationRecord) :
    Except ModelInvocationJournalError Journal := do
  let prior ← listForRun journal
  match prior.find? fun existing => existing.recordId = record.recordId with
  | some existing =>
      if existing = record then return journal
      else .error (.conflict record.recordId)
  | none => appendNew journal record

end EventJournalModelInvocationStore

end CopilotRuntime.ModelInvocation
