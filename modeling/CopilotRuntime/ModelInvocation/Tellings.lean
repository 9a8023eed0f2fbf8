import CopilotRuntime.ModelInvocation.Accounts

/-!
# What the store finds in a journal that tells an account

Each lookup of the store and of the middleware is one in the account, and each
check of a next record a condition on it.
-/

namespace CopilotRuntime.ModelInvocation

open Foundation EventJournalModelInvocationStore ModelInvocationMiddleware

theorem eligible_entries (plan : ModelRoutePlan) :
    (eligibleRecords plan).map (·.route) = plan.routes := by
  rw [eligibleRecords, List.map_map]
  exact List.zipIdx_map_fst 0 _

namespace Tells

variable {prepared : PreparedAuthority} {journal : Journal} {account : Account}
  {attempt : Attempt}

variable (h : Tells prepared journal account)
include h

theorem routeEntries : journal.routes.map (·.route) = prepared.routePlan.routes := by
  rw [h.routes, eligible_entries]

/-- The plan told by the journal is the one that was planned if its exclusions were in order. -/
theorem routePlanReconciles_iff :
    RoutePlanReconciles (PlannedRecord.create prepared) journal ↔
      prepared.routePlan.SortedExclusions := by
  have hexclusions : journal.exclusions.map (fun record =>
      (⟨record.deploymentId, record.reasons⟩ : ModelRouteExclusion)) =
        prepared.routePlan.exclusions.map fun exclusion =>
          ⟨exclusion.deploymentId, canonicalReasons exclusion.reasons⟩ := by
    rw [h.exclusions, excludedRecords, List.map_map]
    rfl
  have hsame : recordedPlan (PlannedRecord.create prepared) journal =
      prepared.routePlan.routeDigest ↔ prepared.routePlan.SortedExclusions := by
    have hbody : recordedPlan (PlannedRecord.create prepared) journal =
        { prepared.routePlan.routeDigest with
          exclusions := prepared.routePlan.exclusions.map fun exclusion =>
            ⟨exclusion.deploymentId, canonicalReasons exclusion.reasons⟩ } := by
      rw [recordedPlan, h.routeEntries, hexclusions]
      rfl
    rw [hbody, ModelRoutePlan.SortedExclusions]
    constructor
    · intro heq exclusion hmem
      have hmap : prepared.routePlan.exclusions.map (fun exclusion =>
          (⟨exclusion.deploymentId, canonicalReasons exclusion.reasons⟩ : ModelRouteExclusion)) =
            prepared.routePlan.exclusions.map id :=
        (congrArg RoutePlanBody.exclusions heq).trans (List.map_id _).symm
      exact congrArg ModelRouteExclusion.reasons (List.map_inj_left.mp hmap exclusion hmem)
    · intro hsorted
      have hmap : prepared.routePlan.exclusions.map (fun exclusion =>
          (⟨exclusion.deploymentId, canonicalReasons exclusion.reasons⟩ : ModelRouteExclusion)) =
            prepared.routePlan.exclusions.map id := by
        apply List.map_congr_left
        intro exclusion hmem
        rw [hsorted exclusion hmem]
        rfl
      rw [hmap, List.map_id]
      rfl
  constructor
  · rintro ⟨-, heq⟩
    exact hsame.mp heq
  · intro hsorted
    have heq := hsame.mpr hsorted
    refine ⟨?_, heq⟩
    rw [heq]
    exact prepared.routePlan.wellFormed

theorem validNext_iff {record : ModelInvocationRecord} :
    ValidNext journal record ↔ ValidChild (PlannedRecord.create prepared) journal record := by
  rw [ValidNext, h.planned]
  simp [h.underway]

theorem terminalObserved (hmem : attempt ∈ account.attempts)
    (hnumbered : attempt.Numbered attempt.id.ordinal) (hfailed : attempt.failed.isSome) :
    TerminalObserved journal attempt.id := by
  obtain ⟨failure, hfailure⟩ := Option.isSome_iff_exists.mp hfailed
  left
  refine ⟨failure, ?_, ?_⟩
  · rw [h.failures]
    exact List.mem_filterMap.mpr ⟨attempt, hmem, hfailure⟩
  · rw [hnumbered.failed failure hfailure]

variable (hcoherent : account.Coherent prepared.routePlan)
include hcoherent

/-! ### Lookups -/

theorem admitted : journal.admitted = account.attempts.map (·.identity) := by
  have hadmissions : (account.attempts.map (·.admission)).filterMap (·.admittedIdentity?) =
      account.attempts.map (·.identity) := by
    rw [List.filterMap_map, ← List.filterMap_eq_map]
    apply List.filterMap_congr
    intro attempt hmem
    exact (numbered_of_mem hcoherent.history hmem).admission
  have hdenial : account.denial.toList.filterMap (·.admittedIdentity?) = [] := by
    cases hdenial : account.denial with
    | none => rfl
    | some denial =>
        have hdenied := (hcoherent.denial denial hdenial).denied
        rw [AttemptAdmissionRecord.isDenied, Option.isNone_iff_eq_none] at hdenied
        simp [hdenied]
  rw [Journal.admitted, h.admissions, List.filterMap_append, hadmissions, hdenial, List.append_nil]

section Members
variable (hmem : attempt ∈ account.attempts)
include hmem

theorem admissionForAttempt : admissionForAttempt journal attempt.id = some attempt.identity := by
  rw [EventJournalModelInvocationStore.admissionForAttempt, h.admitted hcoherent,
    ← List.filterMap_eq_map]
  apply find?_filterMap_of_nodup Attempt.id (fun identity : AdmittedIdentity => identity.attemptId)
    (fun attempt => some attempt.identity) _ (nodup_ids hcoherent.history) hmem
  intro other _ identity hidentity
  rw [← Option.some.inj hidentity]

theorem statesOf : statesOf journal attempt.id = attempt.states := by
  rw [ModelInvocationMiddleware.statesOf, h.states]
  apply filter_flatMap_of_nodup Attempt.id (fun record : AttemptStateRecord => record.attemptId)
    Attempt.states _ (nodup_ids hcoherent.history) hmem
  intro other hother record hrecord
  rw [(numbered_of_mem hcoherent.history hother).states record hrecord]

theorem findFailure :
    journal.failures.find? (fun record => record.attemptId = attempt.id) = attempt.failed := by
  rw [h.failures]
  apply find?_filterMap_of_nodup Attempt.id (fun record : AttemptFailedRecord => record.attemptId)
    Attempt.failed _ (nodup_ids hcoherent.history) hmem
  intro other hother record hrecord
  rw [(numbered_of_mem hcoherent.history hother).failed record hrecord]

theorem findUsage :
    journal.usages.find? (fun record => record.attemptId = attempt.id) = attempt.usage := by
  rw [h.usages]
  apply find?_filterMap_of_nodup Attempt.id (fun record : AttemptUsageRecord => record.attemptId)
    Attempt.usage _ (nodup_ids hcoherent.history) hmem
  intro other hother record hrecord
  rw [(numbered_of_mem hcoherent.history hother).usage record hrecord]

theorem no_failure_iff :
    (∀ record ∈ journal.failures, record.attemptId ≠ attempt.id) ↔ attempt.failed = none := by
  rw [← h.findFailure hcoherent hmem, List.find?_eq_none]
  simp

theorem no_usage_iff :
    (∀ record ∈ journal.usages, record.attemptId ≠ attempt.id) ↔ attempt.usage = none := by
  rw [← h.findUsage hcoherent hmem, List.find?_eq_none]
  simp

theorem forall_states_iff (p : AttemptStateRecord → Prop) :
    (∀ record ∈ journal.states, record.attemptId = attempt.id → p record) ↔
      ∀ record ∈ attempt.states, p record := by
  rw [← h.statesOf hcoherent hmem, ModelInvocationMiddleware.statesOf]
  simp [List.mem_filter]

/-! ### Checks of a next record -/

theorem validState_iff {record : AttemptStateRecord}
    (hidentity : record.toAdmittedIdentity = attempt.identity) :
    ValidNext journal (.attemptState record) ↔
      (∀ before ∈ attempt.states, before.state ≠ record.state) ∧ attempt.failed = none ∧
        ∀ last ∈ attempt.states.getLast?,
          stateRank last.state ≤ stateRank record.state ∧ ¬ endsAttempt last.state := by
  have hstates := h.statesOf hcoherent hmem
  rw [ModelInvocationMiddleware.statesOf] at hstates
  rw [h.validNext_iff]
  simp only [ValidChild, ValidState, h.admissionForAttempt hcoherent hmem, hidentity, true_and,
    h.forall_states_iff hcoherent hmem, h.no_failure_iff hcoherent hmem, hstates]

theorem validUsage_iff {record : AttemptUsageRecord}
    (hidentity : record.toAdmittedIdentity = attempt.identity) :
    ValidNext journal (.attemptUsage record) ↔ attempt.usage = none := by
  rw [h.validNext_iff]
  simp only [ValidChild, ValidUsage, h.admissionForAttempt hcoherent hmem, hidentity, true_and,
    h.no_usage_iff hcoherent hmem]

theorem validFailure_iff {record : AttemptFailedRecord}
    (hidentity : record.toAdmittedIdentity = attempt.identity) :
    ValidNext journal (.attemptFailed record) ↔
      attempt.failed = none ∧ ∀ before ∈ attempt.states, before.state ≠ .completed := by
  rw [h.validNext_iff]
  simp only [ValidChild, ValidAttemptFailure, h.admissionForAttempt hcoherent hmem, hidentity,
    true_and, h.no_failure_iff hcoherent hmem, h.forall_states_iff hcoherent hmem]

/-- A recovery that admits an attempt after the failed one is accepted where that may be
followed. -/
theorem validRecovery_iff {failure : AttemptFailedRecord}
    (hfailed : attempt.failed = some failure)
    (hknown : failure.failureClass ≠ .ambiguousProviderState) {record : InvocationRecoveryRecord}
    (hordinal : record.recoveryOrdinal = account.recoveries.length + 1)
    (hsource : record.sourceAttemptId = attempt.id) (houtcome : record.outcome = .admitted)
    (hreason : ReasonMatches record.kind record.decisionReason) :
    ValidNext journal (.recovery record) ↔
      MayBeFollowed record.kind failure ∧ attempt.usage.isSome := by
  have hnumbered := numbered_of_mem hcoherent.history hmem
  have hfailure : failure.attemptId = attempt.id := by rw [hnumbered.failed failure hfailed]
  have hunambiguous : ¬ ∃ state ∈ journal.states,
      state.attemptId = attempt.id ∧ state.state = .ambiguous := by
    rintro ⟨state, hstate, hid, hambiguous⟩
    have hmine : state ∈ attempt.states := by
      rw [← h.statesOf hcoherent hmem]
      exact List.mem_filter.mpr ⟨hstate, decide_eq_true hid⟩
    exact hknown (hnumbered.ambiguous failure hfailed ⟨state, hmine, hambiguous⟩)
  have husage : (∃ usage ∈ journal.usages, usage.attemptId = failure.attemptId) ↔
      attempt.usage.isSome := by
    have hnone := h.no_usage_iff hcoherent hmem
    rw [hfailure, Option.isSome_iff_ne_none, Ne, ← hnone]
    push Not
    rfl
  rw [h.validNext_iff]
  simp only [ValidChild, ValidRecovery, hsource, h.findFailure hcoherent hmem, hfailed,
    Option.isSome_some, true_or, true_and, houtcome, hunambiguous, not_false_iff, true_implies,
    Option.mem_def, Option.some.injEq, exists_eq_left', RecoverableFailure, husage, hreason,
    and_true, h.recoveries, hordinal, MayBeFollowed, Bool.not_eq_true]
  tauto

end Members

theorem priorOutcomes : priorOutcomes journal = account.attempts.filterMap (·.outcome) := by
  rw [ModelInvocationMiddleware.priorOutcomes, h.admitted hcoherent, List.filterMap_map]
  apply List.filterMap_congr
  intro attempt hmem
  rw [Function.comp_apply, priorOutcome, h.findFailure hcoherent hmem, h.findUsage hcoherent hmem,
    Attempt.outcome]
  cases attempt.failed <;> rfl

theorem usageCovers_iff :
    UsageCoversAttempts journal ↔ ∀ attempt ∈ account.attempts, attempt.usage.isSome := by
  have hadmitted := h.admitted hcoherent
  constructor
  · rintro ⟨-, hcovers⟩ attempt hmem
    have hid : attempt.id ∈ journal.usages.map (·.attemptId) := by
      apply hcovers
      rw [hadmitted]
      exact List.mem_map_of_mem hmem
    rw [Option.isSome_iff_ne_none, Ne, ← h.no_usage_iff hcoherent hmem]
    obtain ⟨record, hrecord, heq⟩ := List.mem_map.mp hid
    exact fun hnone => hnone record hrecord heq
  · intro hall
    constructor
    · intro record hrecord
      rw [h.usages] at hrecord
      obtain ⟨attempt, hmem, husage⟩ := List.mem_filterMap.mp hrecord
      rw [hadmitted, (numbered_of_mem hcoherent.history hmem).usage record husage, List.map_map]
      exact List.mem_map_of_mem hmem
    · intro identity hidentity
      rw [hadmitted] at hidentity
      obtain ⟨attempt, hmem, rfl⟩ := List.mem_map.mp hidentity
      obtain ⟨record, husage⟩ := Option.isSome_iff_exists.mp (hall attempt hmem)
      apply List.mem_map.mpr
      refine ⟨record, ?_, ?_⟩
      · rw [h.usages]
        exact List.mem_filterMap.mpr ⟨attempt, hmem, husage⟩
      · rw [(numbered_of_mem hcoherent.history hmem).usage record husage]

/-- Every recovery admitted an attempt after one that is told. -/
theorem recovery_of_mem {recovery : InvocationRecoveryRecord}
    (hmem : recovery ∈ journal.recoveries) :
    ∃ source ∈ account.attempts, ∃ number, number ≤ account.attempts.length ∧
      source.id = ⟨number⟩ ∧ RecoveryOf number source recovery := by
  rw [h.recoveries, Account.recoveries] at hmem
  rcases List.mem_append.mp hmem with hmem | hmem
  · obtain ⟨attempt, hattempt, hrecovery⟩ := List.mem_filterMap.mp hmem
    obtain ⟨number, hlt, -, source, hsource, hid, hof⟩ :=
      ModelInvocation.recovery_of_mem hcoherent.history hattempt hrecovery
    exact ⟨source, hsource, number, hlt.le, hid, hof⟩
  · have hrecovered := hcoherent.recovering recovery (Option.mem_toList.mp hmem)
    obtain ⟨source, hlast, hof⟩ := recovered_some.mp hrecovered
    obtain ⟨earlier, hattempts⟩ := List.getLast?_eq_some_iff.mp hlast
    have hsource := (hcoherent.history earlier source [] (by rw [hattempts])).numbered.identity.1
    refine ⟨source, List.mem_of_getLast? hlast, account.attempts.length, le_rfl, ?_, hof⟩
    rw [hsource, hattempts, List.length_append, List.length_singleton]

theorem recovery_outcome : ∀ recovery ∈ journal.recoveries, recovery.outcome = .admitted := by
  intro recovery hmem
  obtain ⟨source, -, number, -, -, hof⟩ := h.recovery_of_mem hcoherent hmem
  exact hof.outcome

theorem validCompletion_iff (hmem : attempt ∈ account.attempts)
    {record : InvocationCompletedRecord} (hterminal : record.terminalAttemptId = attempt.id) :
    ValidNext journal (.completed record) ↔
      record.attemptCount = account.attempts.length ∧
        (∀ attempt ∈ account.attempts, attempt.usage.isSome) ∧
        (∃ state ∈ attempt.states, state.state = .completed) ∧
        TotalsMatch journal record.totalInputTokens record.totalOutputTokens
          record.totalCostMicrousd := by
  have hids : attempt.id ∈ journal.admitted.map (·.attemptId) := by
    rw [h.admitted hcoherent, List.map_map]
    exact List.mem_map_of_mem hmem
  have hcompleted : (∃ state ∈ journal.states,
      state.attemptId = attempt.id ∧ state.state = .completed) ↔
        ∃ state ∈ attempt.states, state.state = .completed := by
    have := h.forall_states_iff hcoherent hmem fun state => state.state ≠ .completed
    rw [← not_iff_not]
    push Not
    exact this
  have hreconciled : ¬ ∃ recovery ∈ journal.recoveries, recovery.sourceAttemptId = attempt.id ∧
      recovery.outcome = .reconciledCompleted := by
    rintro ⟨recovery, hrecovery, -, houtcome⟩
    rw [h.recovery_outcome hcoherent recovery hrecovery] at houtcome
    cases houtcome
  rw [h.validNext_iff]
  simp only [ValidChild, ValidCompletion, hterminal, hids, true_and, hcompleted, hreconciled,
    or_false, h.usageCovers_iff hcoherent]
  rw [h.admitted hcoherent, List.length_map]

/-- A recovery waits for its attempt exactly when the account says so. -/
theorem unresolvedRecovery_iff : UnresolvedRecovery journal ↔ account.recovering.isSome := by
  have hadmitted := h.admitted hcoherent
  rw [UnresolvedRecovery, h.recoveries, Account.recoveries, hadmitted, List.map_map]
  cases hrecovering : account.recovering with
  | some recovery =>
      have hrecovered := hcoherent.recovering recovery hrecovering
      obtain ⟨source, -, hof⟩ := recovered_some.mp hrecovered
      have htarget : ∀ attempt ∈ account.attempts, some attempt.id ≠ recovery.targetAttemptId := by
        intro attempt hattempt hid
        have hle := id_le_of_mem hcoherent.history hattempt
        rw [hof.toAttempt] at hid
        rw [Option.some.inj hid] at hle
        exact absurd hle (by simp)
      simpa using ⟨hof.outcome, htarget⟩
  | none =>
      simp only [Option.toList_none, List.append_nil, Option.isSome_none, Bool.false_eq_true,
        iff_false]
      rintro ⟨recovery, hlast, -, htarget⟩
      have hmem := List.mem_of_getLast? hlast
      obtain ⟨attempt, hattempt, hrecovery⟩ := List.mem_filterMap.mp hmem
      obtain ⟨number, -, hid, source, -, -, hof⟩ :=
        ModelInvocation.recovery_of_mem hcoherent.history hattempt hrecovery
      apply htarget
      rw [hof.toAttempt, ← hid]
      exact List.mem_map.mpr ⟨attempt, hattempt, rfl⟩

theorem validInvocationFailure_iff {record : InvocationFailedRecord}
    (hterminal : record.terminalAttemptId = account.attempts.getLast?.map (·.id))
    (hfailed : ∀ last ∈ account.attempts.getLast?, last.failed.isSome)
    (hdenied : account.attempts = [] → account.denial.isSome) :
    ValidNext journal (.failed record) ↔
      record.attemptCount = account.attempts.length ∧
        (∀ attempt ∈ account.attempts, attempt.usage.isSome) ∧ account.recovering = none ∧
        TotalsMatch journal record.totalInputTokens record.totalOutputTokens
          record.totalCostMicrousd := by
  have hadmitted := h.admitted hcoherent
  have hobserved : ∀ terminal ∈ record.terminalAttemptId, TerminalObserved journal terminal := by
    intro terminal hmem
    rw [hterminal] at hmem
    obtain ⟨last, hlast, rfl⟩ := Option.mem_map.mp hmem
    have hattempt := List.mem_of_getLast? hlast
    exact h.terminalObserved hattempt (numbered_of_mem hcoherent.history hattempt)
      (hfailed last hlast)
  have hfirst : journal.admitted = [] → journal.routes = [] ∨
      ∃ last ∈ journal.admissions.getLast?, last.isDenied := by
    intro hnone
    have hnone : account.attempts = [] := by simpa [hadmitted] using hnone
    obtain ⟨denial, hdenial⟩ := Option.isSome_iff_exists.mp (hdenied hnone)
    right
    refine ⟨denial, ?_, (hcoherent.denial denial hdenial).denied⟩
    simp [h.admissions, hnone, hdenial]
  rw [h.validNext_iff]
  simp only [ValidChild, ValidInvocationFailure, h.usageCovers_iff hcoherent,
    h.unresolvedRecovery_iff hcoherent]
  have hlength : journal.admitted.length = account.attempts.length := by
    rw [hadmitted, List.length_map]
  rw [hlength, Option.not_isSome_iff_eq_none]
  tauto

/-! ### Checks of an admission -/

theorem validAdmission_iff (hdenial : account.denial = none) {record : AttemptAdmissionRecord}
    (hordinal : record.admissionOrdinal = account.attempts.length + 1)
    (hprior : record.priorAttemptCount = account.attempts.length) :
    ValidNext journal (.attemptAdmission record) ↔
      prepared.routePlan.SortedExclusions ∧
        ¬ (account.attempts ≠ [] ∧ record.externalEffectObserved) ∧
        ValidAdmitted (PlannedRecord.create prepared) journal record := by
  have hroutes : journal.routes.length = prepared.routePlan.routes.length := by
    rw [← h.routeEntries, List.length_map]
  have hexclusions : journal.exclusions.length = prepared.routePlan.exclusions.length := by
    rw [h.exclusions, excludedRecords, List.length_map]
  have hlength : journal.admitted.length = account.attempts.length := by
    rw [h.admitted hcoherent, List.length_map]
  have hempty : journal.admitted = [] ↔ account.attempts = [] := by
    rw [h.admitted hcoherent, List.map_eq_nil_iff]
  have hadmitted : ∀ last ∈ journal.admissions.getLast?, ¬ last.isDenied := by
    intro last hlast
    have hmem := List.mem_of_getLast? hlast
    rw [h.admissions, hdenial, Option.toList_none, List.append_nil] at hmem
    obtain ⟨attempt, hattempt, rfl⟩ := List.mem_map.mp hmem
    simp [AttemptAdmissionRecord.isDenied, (numbered_of_mem hcoherent.history hattempt).admission]
  rw [h.validNext_iff]
  simp only [ValidChild, ValidAdmission, PlannedRecord.create, hroutes, hexclusions, hlength,
    hordinal, hprior, Ne, hempty, true_and]
  have hreconciles := h.routePlanReconciles_iff
  simp only [PlannedRecord.create] at hreconciles
  rw [hreconciles]
  tauto

theorem countP_admitted (deploymentId : String) :
    journal.admitted.countP (fun identity => identity.deploymentId = deploymentId) =
      account.attempts.countP (fun attempt => attempt.identity.deploymentId = deploymentId) := by
  rw [h.admitted hcoherent, List.countP_map]
  rfl

/-- What the policy admits as a first attempt passes the journal's own check. -/
theorem validAdmitted_first (hfirst : account.attempts = []) {record : AttemptAdmissionRecord}
    {deploymentId : String} (hdecision : record.decision = .admits deploymentId 1 .firstAttempt)
    (hroute : deploymentId ∈ prepared.routePlan.deploymentIds) :
    ValidAdmitted (PlannedRecord.create prepared) journal record := by
  have hnone : journal.admitted = [] := by rw [h.admitted hcoherent, hfirst, List.map_nil]
  have hids : journal.routes.map (·.route.deploymentId) = prepared.routePlan.deploymentIds := by
    rw [RoutePlanBody.deploymentIds, ← h.routeEntries, List.map_map]
    rfl
  rw [ValidAdmitted, hdecision]
  simp only [hnone, List.length_nil, List.countP_nil, if_true, hids, PlannedRecord.create]
  exact ⟨trivial, hroute, prepared.routePlan.budget.attemptsInRange.1,
    prepared.routePlan.budget.sameDeploymentInRange.1, trivial⟩

/-- A retry passes the journal's own check exactly when the recovery names it. -/
theorem validAdmitted_retry {source : Attempt} (hsource : account.attempts.getLast? = some source)
    {recovery : InvocationRecoveryRecord} (hrecovering : account.recovering = some recovery)
    {record : AttemptAdmissionRecord} {deploymentId : String}
    {reason : ModelAttemptDecisionReason}
    (hordinal : record.admissionOrdinal = account.attempts.length + 1)
    (hdecision : record.decision = .admits deploymentId (account.attempts.length + 1) reason)
    (hroute : deploymentId ∈ prepared.routePlan.deploymentIds)
    (hattempts : account.attempts.length < prepared.routePlan.budget.maxAttempts)
    (hsame : account.attempts.countP (fun attempt => attempt.identity.deploymentId = deploymentId) <
      prepared.routePlan.budget.maxSameDeploymentAttempts) :
    ValidAdmitted (PlannedRecord.create prepared) journal record ↔
      RecoveryMatches recovery.kind source.identity
        ⟨⟨account.attempts.length + 1⟩, account.attempts.length + 1, deploymentId⟩ reason := by
  have hadmitted := h.admitted hcoherent
  have hmem := List.mem_of_getLast? hsource
  have hlength : journal.admitted.length = account.attempts.length := by
    rw [hadmitted, List.length_map]
  have hsome : journal.admitted ≠ [] := by
    rw [hadmitted, Ne, List.map_eq_nil_iff]
    exact List.ne_nil_of_mem hmem
  have hids : journal.routes.map (·.route.deploymentId) = prepared.routePlan.deploymentIds := by
    rw [RoutePlanBody.deploymentIds, ← h.routeEntries, List.map_map]
    rfl
  have hlatest : (journal.recoveries.filter (·.outcome = .admitted)).getLast? = some recovery := by
    have hall : journal.recoveries.filter (·.outcome = .admitted) = journal.recoveries :=
      List.filter_eq_self.mpr fun found hfound =>
        decide_eq_true (h.recovery_outcome hcoherent found hfound)
    rw [hall, h.recoveries, Account.recoveries, hrecovering]
    simp
  obtain ⟨found, hfound, hof⟩ := recovered_some.mp (hcoherent.recovering recovery hrecovering)
  have hlookup : EventJournalModelInvocationStore.admissionForAttempt journal
      recovery.sourceAttemptId = some source.identity := by
    obtain ⟨earlier, hattempts⟩ := List.getLast?_eq_some_iff.mp hsource
    have hid := (hcoherent.history earlier source [] (by rw [hattempts])).numbered.identity.1
    have hlast : recovery.sourceAttemptId = source.id := by
      rw [hof.fromAttempt, hid, hattempts, List.length_append, List.length_singleton]
    rw [hlast]
    exact h.admissionForAttempt hcoherent hmem
  rw [ValidAdmitted, hdecision]
  simp only [hlength, hids, hroute, hattempts, h.countP_admitted hcoherent, hsame, hsome, if_false,
    true_and, PlannedRecord.create, Recovers, hlatest, hlookup, hof.toAttempt, hordinal]

end Tells

end CopilotRuntime.ModelInvocation
