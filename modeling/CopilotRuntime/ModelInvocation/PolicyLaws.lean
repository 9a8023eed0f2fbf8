import CopilotRuntime.ModelInvocation.Middleware

/-!
# What an admission says

An admitted attempt is on a route of the plan and within its budget. One that
follows another attempt follows a failure that may be retried.
-/

namespace CopilotRuntime.ModelInvocation

open ModelAttemptAdmissionPolicy ModelInvocationMiddleware

/-- An admission is within the plan and its budget. -/
structure AdmitsWithin (plan : ModelRoutePlan) (prior : List ModelAttemptOutcome)
    (deploymentId : String) (ordinal : Nat) : Prop where
  ordinal : ordinal = prior.length + 1
  route : deploymentId ∈ plan.deploymentIds
  attempts : prior.length < plan.budget.maxAttempts
  sameDeployment : attemptsOn deploymentId prior < plan.budget.maxSameDeploymentAttempts

/-- Why the policy lets an attempt follow the attempts before it. -/
inductive AdmitsRetry (prior : List ModelAttemptOutcome) (deploymentId : String) :
    ModelAttemptDecisionReason → Prop
  | first (none : prior = []) : AdmitsRetry prior deploymentId .firstAttempt
  | same {last : ModelAttemptOutcome} (latest : prior.getLast? = some last)
      (retried : retryDenial last = none) (deployment : deploymentId = last.deploymentId) :
      AdmitsRetry prior deploymentId .safeSameDeploymentRetry
  | alternate {last : ModelAttemptOutcome} (latest : prior.getLast? = some last)
      (retried : retryDenial last = none) (deployment : deploymentId ≠ last.deploymentId) :
      AdmitsRetry prior deploymentId .safeAlternateRoute

/-- An attempt may follow one whose provider rejected the cache metadata. -/
def AdmitsCacheRetry (prior : List ModelAttemptOutcome) (deploymentId : String) : Prop :=
  ∃ last, prior.getLast? = some last ∧ last.streamState ≠ .visibleOutput ∧
    last.failureClass = some .requestInvalid ∧ deploymentId = last.deploymentId

variable {request : ModelAttemptAdmissionRequest} {deploymentId : String} {ordinal : Nat}
  {reason : ModelAttemptDecisionReason} {prior : List ModelAttemptOutcome} {plan : ModelRoutePlan}

theorem preflight_eq_none (h : preflightDenial request = none) :
    ¬ (request.externalEffectObserved ∧ request.priorAttempts ≠ []) ∧
      request.routePlan.deploymentIds ≠ [] ∧
      (∀ attempt ∈ request.priorAttempts, attempt.deploymentId ∈ request.routePlan.deploymentIds) ∧
      request.priorAttempts.length < request.routePlan.budget.maxAttempts := by
  dsimp only [preflightDenial] at h
  split_ifs at h with hscope heffect hroutes hmismatch hlimit hdeadline
  refine ⟨heffect, hroutes, ?_, Nat.lt_of_not_le hlimit⟩
  intro attempt hattempt
  by_contra hnot
  exact hmismatch ⟨attempt, hattempt, hnot⟩

theorem attemptsOn_eq_zero (h : deploymentId ∉ prior.map (·.deploymentId)) :
    attemptsOn deploymentId prior = 0 := by
  rw [attemptsOn, List.countP_eq_zero]
  intro attempt hattempt heq
  exact h (List.mem_map.mpr ⟨attempt, hattempt, of_decide_eq_true heq⟩)

theorem attemptsOn_unattempted (h : deploymentId ∉ prior.map (·.deploymentId)) :
    attemptsOn deploymentId prior < plan.budget.maxSameDeploymentAttempts := by
  rw [attemptsOn_eq_zero h]
  exact plan.budget.sameDeploymentInRange.1

theorem ne_last_of_unattempted {last : ModelAttemptOutcome} (hlast : prior.getLast? = some last)
    (h : deploymentId ∉ prior.map (·.deploymentId)) : deploymentId ≠ last.deploymentId := by
  rintro rfl
  exact h (List.mem_map_of_mem (List.mem_of_getLast? hlast))

theorem decideRetry_admit {last : ModelAttemptOutcome} (hlast : request.priorAttempts.getLast? = some last)
    (hretried : retryDenial last = none)
    (hprior : last.deploymentId ∈ request.routePlan.deploymentIds)
    (hattempts : request.priorAttempts.length < request.routePlan.budget.maxAttempts)
    (h : decideRetry request last = .admits deploymentId ordinal reason) :
    AdmitsWithin request.routePlan request.priorAttempts deploymentId ordinal ∧
      AdmitsRetry request.priorAttempts deploymentId reason := by
  dsimp only [decideRetry] at h
  by_cases hroom : attemptsOn last.deploymentId request.priorAttempts <
      request.routePlan.budget.maxSameDeploymentAttempts
  · rw [if_pos hroom] at h
    obtain ⟨rfl, rfl, rfl⟩ := ModelAttemptDecision.admits.inj h
    exact ⟨⟨rfl, hprior, hattempts, hroom⟩, .same hlast hretried rfl⟩
  · rw [if_neg hroom] at h
    cases hfind : request.routePlan.deploymentIds.find? fun id =>
        id ∉ request.priorAttempts.map (·.deploymentId) with
    | none =>
        rw [hfind] at h
        split_ifs at h
    | some found =>
        rw [hfind] at h
        obtain ⟨rfl, rfl, rfl⟩ := ModelAttemptDecision.admits.inj h
        have hunattempted : found ∉ request.priorAttempts.map (·.deploymentId) := by
          simpa using List.find?_some hfind
        exact ⟨⟨rfl, List.mem_of_find?_eq_some hfind, hattempts, attemptsOn_unattempted hunattempted⟩,
          .alternate hlast hretried (ne_last_of_unattempted hlast hunattempted)⟩

/-- What the policy admits is within the plan, and a retry that it allows. -/
theorem decide_admit (h : ModelAttemptAdmissionPolicy.decide request = .admits deploymentId ordinal reason) :
    AdmitsWithin request.routePlan request.priorAttempts deploymentId ordinal ∧
      AdmitsRetry request.priorAttempts deploymentId reason := by
  unfold ModelAttemptAdmissionPolicy.decide at h
  cases hpreflight : preflightDenial request with
  | some denial => simp [hpreflight] at h
  | none =>
      obtain ⟨-, -, hprior, hattempts⟩ := preflight_eq_none hpreflight
      simp only [hpreflight] at h
      cases hlast : request.priorAttempts.getLast? with
      | none =>
          have hempty : request.priorAttempts = [] := List.getLast?_eq_none_iff.mp hlast
          cases hids : request.routePlan.deploymentIds with
          | nil => simp [hlast, hids] at h
          | cons first rest =>
              simp only [hlast, hids, ModelAttemptDecision.admits.injEq] at h
              obtain ⟨rfl, rfl, rfl⟩ := h
              refine ⟨⟨by simp [hempty], by simp [hids], hattempts, ?_⟩, .first hempty⟩
              exact attemptsOn_unattempted (by simp [hempty])
      | some last =>
          simp only [hlast] at h
          cases hretry : retryDenial last with
          | some denial => simp [hretry] at h
          | none =>
              simp only [hretry] at h
              exact decideRetry_admit hlast hretry (hprior last (List.mem_of_getLast? hlast))
                hattempts h

/-- A cache retry is on the route whose provider rejected the metadata. -/
theorem decideCacheFallback_admit
    (h : decideCacheFallback request = .admits deploymentId ordinal reason) :
    AdmitsWithin request.routePlan request.priorAttempts deploymentId ordinal ∧
      AdmitsCacheRetry request.priorAttempts deploymentId ∧
      reason = .safeCacheUndecoratedRetry := by
  unfold decideCacheFallback at h
  cases hpreflight : preflightDenial request with
  | some denial => simp [hpreflight] at h
  | none =>
      obtain ⟨-, -, hprior, hattempts⟩ := preflight_eq_none hpreflight
      simp only [hpreflight] at h
      cases hlast : request.priorAttempts.getLast? with
      | none => simp [hlast] at h
      | some last =>
          simp only [hlast] at h
          split_ifs at h with hvisible hclass hroom
          obtain ⟨rfl, rfl, rfl⟩ := ModelAttemptDecision.admits.inj h
          exact ⟨⟨rfl, hprior last (List.mem_of_getLast? hlast), hattempts,
            Nat.lt_of_not_le hroom⟩, ⟨last, hlast, hvisible, not_not.mp hclass, rfl⟩, rfl⟩

variable {binding : ModelInvocationRuntimeBinding} {reading : Reading}
  {release : ModelReliabilityReleaseDecision}

/-- The release gates turn a retry at most to another unattempted route. -/
theorem applyRelease_admit {decision : ModelAttemptDecision}
    (h : applyRelease decision prior plan release = .admits deploymentId ordinal reason)
    (hdecided : ∀ target ordinal' reason', decision = .admits target ordinal' reason' →
      AdmitsWithin plan prior target ordinal' ∧ AdmitsRetry prior target reason') :
    AdmitsWithin plan prior deploymentId ordinal ∧ AdmitsRetry prior deploymentId reason := by
  cases decision with
  | deny denial => simp [applyRelease] at h
  | admits target ordinal' reason' =>
      obtain ⟨hwithin, hretry⟩ := hdecided _ _ _ rfl
      cases hlast : prior.getLast? with
      | none =>
          simp only [applyRelease, hlast, ModelAttemptDecision.admits.injEq] at h
          obtain ⟨rfl, rfl, rfl⟩ := h
          exact ⟨hwithin, hretry⟩
      | some last =>
          simp only [applyRelease, hlast] at h
          split_ifs at h with hreleased
          · obtain ⟨rfl, rfl, rfl⟩ := ModelAttemptDecision.admits.inj h
            exact ⟨hwithin, hretry⟩
          · cases hfind : plan.routes.find? fun candidate =>
                candidate.deploymentId ∉ prior.map (·.deploymentId) ∧
                  routeReleaseEnabled last.deploymentId candidate.deploymentId plan release with
            | none =>
                rw [hfind] at h
                cases h
            | some candidate =>
                rw [hfind] at h
                obtain ⟨rfl, rfl, rfl⟩ := ModelAttemptDecision.admits.inj h
                have hfound := List.find?_some hfind
                simp only [decide_eq_true_eq] at hfound
                have hunattempted := hfound.1
                have hne := ne_last_of_unattempted hlast hunattempted
                refine ⟨⟨hwithin.ordinal, List.mem_map_of_mem (List.mem_of_find?_eq_some hfind),
                  hwithin.attempts, attemptsOn_unattempted hunattempted⟩, ?_⟩
                cases hretry with
                | first hnone => simp [hnone] at hlast
                | same hlatest hretried _ =>
                    rw [hlast] at hlatest
                    exact .alternate hlast (Option.some.inj hlatest ▸ hretried) hne
                | alternate hlatest hretried _ =>
                    rw [hlast] at hlatest
                    exact .alternate hlast (Option.some.inj hlatest ▸ hretried) hne

/-- What a call admits, unless it retries after a cache rejection. -/
theorem decideAttempt_admit
    (h : decideAttempt binding plan prior reading = .ok (.admits deploymentId ordinal reason)) :
    AdmitsWithin plan prior deploymentId ordinal ∧ AdmitsRetry prior deploymentId reason := by
  unfold decideAttempt admissionRequest at h
  split_ifs at h with hcontiguous
  · exact applyRelease_admit (Except.ok.inj h) fun target ordinal' reason' => decide_admit
  · cases h

theorem decideAttempt_ok (binding : ModelInvocationRuntimeBinding) (plan : ModelRoutePlan)
    (reading : Reading) (h : prior.map (·.ordinal) = List.range' 1 prior.length) :
    ∃ decision, decideAttempt binding plan prior reading = .ok decision := by
  rw [decideAttempt, admissionRequest, dif_pos h]
  exact ⟨_, rfl⟩

/-- A retry follows a failure of one of the safe classes, of which no output was visible. -/
theorem retryDenial_eq_none {last : ModelAttemptOutcome} (h : retryDenial last = none) :
    last.streamState ≠ .visibleOutput ∧
      ∃ failure ∈ safeRetryClasses, last.failureClass = some failure := by
  unfold retryDenial at h
  split_ifs at h with hvisible
  refine ⟨hvisible, ?_⟩
  cases hclass : last.failureClass with
  | none => simp [hclass] at h
  | some failure =>
      refine ⟨failure, ?_, rfl⟩
      by_contra hunsafe
      cases failure
      all_goals simp [hclass, safeRetryClasses] at h hunsafe

/-- The first attempt is on the first route. -/
theorem decideAttempt_first
    (h : decideAttempt binding plan [] reading = .ok (.admits deploymentId ordinal reason)) :
    plan.deploymentIds.head? = some deploymentId := by
  unfold decideAttempt admissionRequest at h
  have hcontiguous : ([] : List ModelAttemptOutcome).map (·.ordinal) =
      List.range' 1 ([] : List ModelAttemptOutcome).length := rfl
  rw [dif_pos hcontiguous] at h
  have hdecided := Except.ok.inj h
  unfold ModelAttemptAdmissionPolicy.decide at hdecided
  simp only [List.getLast?_nil] at hdecided
  split at hdecided
  · simp [applyRelease] at hdecided
  · cases hids : plan.deploymentIds with
    | nil => simp [hids, applyRelease] at hdecided
    | cons first rest =>
        simp only [hids, applyRelease, List.getLast?_nil, ModelAttemptDecision.admits.injEq] at hdecided
        rw [List.head?_cons, hdecided.1]

/-! ### Routes -/

theorem routeRequest_ok {route : ModelRouteEntry}
    (h : routeRequest binding plan deploymentId ordinal = .ok route) :
    route ∈ plan.routes ∧ route.deploymentId = deploymentId := by
  unfold routeRequest at h
  cases hroute : routeOf plan deploymentId with
  | none =>
      rw [hroute] at h
      cases h
  | some found =>
      simp only [hroute] at h
      split_ifs at h
      · obtain rfl := Except.ok.inj h
        exact ⟨List.mem_of_find?_eq_some hroute, by simpa using List.find?_some hroute⟩

/-- A route of the plan is there for the first attempt, and where a model is found for it. -/
theorem routeRequest_of_resolves (hroute : deploymentId ∈ plan.deploymentIds)
    (hresolves : plan.deploymentIds.head? = some deploymentId ∨
      ∀ route ∈ plan.routes, binding.resolves ordinal route = true) :
    ∃ route, routeRequest binding plan deploymentId ordinal = .ok route := by
  obtain ⟨entry, hentry, hid⟩ := List.mem_map.mp hroute
  obtain ⟨found, hfound⟩ : ∃ found, routeOf plan deploymentId = some found := by
    rw [← Option.isSome_iff_exists, routeOf, List.find?_isSome]
    exact ⟨entry, hentry, by simpa using hid⟩
  have hcondition : plan.routes.head? = some found ∨ binding.resolves ordinal found = true := by
    rcases hresolves with hhead | hall
    · left
      unfold RoutePlanBody.deploymentIds at hhead
      cases hroutes : plan.routes with
      | nil => simp [hroutes] at hentry
      | cons first rest =>
          rw [hroutes] at hhead
          have hfirst : first.deploymentId = deploymentId := Option.some.inj hhead
          rw [routeOf, hroutes, List.find?_cons_of_pos (by simpa using hfirst)] at hfound
          exact hfound
    · exact .inr (hall found (List.mem_of_find?_eq_some hfound))
  refine ⟨found, ?_⟩
  rw [routeRequest, hfound]
  exact if_pos hcondition

/-! ### After a failed attempt -/

theorem preflight_of_decide
    (h : ModelAttemptAdmissionPolicy.decide request = .admits deploymentId ordinal reason) :
    preflightDenial request = none := by
  unfold ModelAttemptAdmissionPolicy.decide at h
  cases hpreflight : preflightDenial request with
  | none => rfl
  | some denial => simp [hpreflight] at h

theorem preflight_of_cacheFallback
    (h : decideCacheFallback request = .admits deploymentId ordinal reason) :
    preflightDenial request = none := by
  unfold decideCacheFallback at h
  cases hpreflight : preflightDenial request with
  | none => rfl
  | some denial => simp [hpreflight] at h

/-- No attempt follows another one once an external effect is observed. -/
theorem unobserved_of_preflight (h : preflightDenial request = none)
    (hsome : request.priorAttempts ≠ []) : request.externalEffectObserved = false := by
  by_contra hobserved
  exact (preflight_eq_none h).1 ⟨Bool.not_eq_false _ ▸ hobserved, hsome⟩

theorem decideAttempt_unobserved
    (h : decideAttempt binding plan prior reading = .ok (.admits deploymentId ordinal reason))
    (hsome : prior ≠ []) : binding.externalEffectObserved reading = false := by
  unfold decideAttempt admissionRequest at h
  split_ifs at h with hcontiguous
  · have hreleased := Except.ok.inj h
    cases hdecided : ModelAttemptAdmissionPolicy.decide {
        routePlan := plan
        now := binding.now reading
        priorAttempts := prior
        externalEffectObserved := binding.externalEffectObserved reading
        projectedCostMicrousd := binding.projectedCostMicrousd
        projectedInputTokens := binding.projectedInputTokens
        projectedOutputTokens := binding.projectedOutputTokens
        contiguous := hcontiguous } with
    | admits target ordinal' reason' =>
        exact unobserved_of_preflight (preflight_of_decide hdecided) hsome
    | deny denial =>
        rw [hdecided] at hreleased
        cases hreleased
  · cases h

/-- What follows a failed attempt was decided before any external effect was observed. -/
theorem decideAfterFailure_some {rejected : Bool} {failure : ModelFailureClass}
    {observed : ProviderAttemptLifecycle} {decision : ModelAttemptDecision}
    (h : decideAfterFailure binding plan prior rejected failure observed = .ok (some decision))
    (hsome : prior ≠ []) :
    binding.externalEffectObserved (.nextDecision prior.length) = false ∧
      ∃ deploymentId ordinal reason, decision = .admits deploymentId ordinal reason ∧
        (rejected = true → AdmitsWithin plan prior deploymentId ordinal ∧
          AdmitsCacheRetry prior deploymentId ∧ reason = .safeCacheUndecoratedRetry) := by
  unfold decideAfterFailure at h
  split_ifs at h with hrejected hretry
  · unfold admissionRequest at h
    split_ifs at h with hcontiguous
    · simp only [bind, Except.bind] at h
      split at h
      · cases h
      · rename_i deploymentId ordinal reason hdecided
        obtain rfl := Option.some.inj (Except.ok.inj h)
        refine ⟨unobserved_of_preflight (preflight_of_cacheFallback hdecided) hsome, _, _, _, rfl,
          fun _ => decideCacheFallback_admit hdecided⟩
    · cases h
  · cases hdecided : decideAttempt binding plan prior (.nextDecision prior.length) with
    | error error =>
        rw [hdecided] at h
        cases h
    | ok decided =>
        rw [hdecided] at h
        cases decided with
        | deny denial => cases h
        | admits deploymentId ordinal reason =>
            obtain rfl := Option.some.inj (Except.ok.inj h)
            exact ⟨decideAttempt_unobserved hdecided hsome, _, _, _, rfl,
              fun hyes => absurd hyes hrejected⟩
  · cases h

theorem decideAfterFailure_ok (binding : ModelInvocationRuntimeBinding) (plan : ModelRoutePlan)
    (rejected : Bool) (failure : ModelFailureClass) (observed : ProviderAttemptLifecycle)
    (h : prior.map (·.ordinal) = List.range' 1 prior.length) :
    ∃ next, decideAfterFailure binding plan prior rejected failure observed = .ok next := by
  unfold decideAfterFailure
  split_ifs with hrejected hretry
  · rw [admissionRequest, dif_pos h]
    simp only [bind, Except.bind]
    split
    · exact ⟨_, rfl⟩
    · exact ⟨_, rfl⟩
  · obtain ⟨decision, hdecision⟩ := decideAttempt_ok binding plan
      (.nextDecision prior.length) h
    rw [hdecision]
    cases decision with
    | deny denial => exact ⟨_, rfl⟩
    | admits deploymentId ordinal reason => exact ⟨_, rfl⟩
  · exact ⟨_, rfl⟩

end CopilotRuntime.ModelInvocation
