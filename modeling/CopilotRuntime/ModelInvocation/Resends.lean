import CopilotRuntime.ModelInvocation.Entering

/-!
# When the provider is called again

Over all entries of a model call together the provider is called within the
budget of the plan, and once more only after an attempt whose recorded failure
lets another one follow.
-/

namespace CopilotRuntime.ModelInvocation

open Foundation Foundation.Program EventJournalModelInvocationStore ModelInvocationMiddleware

variable {prepared : PreparedAuthority} {world : World} {account : Account} {plan : ModelRoutePlan}
  {attempts : List Attempt}

/-- The journal shows a failure after which the provider may be called again. -/
def MayCallAgain (journal : Journal) (call : ProviderCall) : Prop :=
  ∃ failure ∈ journal.failures, failure.attemptId = call.attemptId ∧
    failure.visibleTextEmitted = false ∧ failure.toolCallContentEmitted = false ∧
    failure.externalEffectObserved = false ∧
    (failure.failureClass ∈ ModelAttemptAdmissionPolicy.safeRetryClasses ∨
      failure.failureClass = .requestInvalid ∧ call.RejectedCacheMetadata)

/-- The calls of the provider are those that the plan and the journal allow. -/
structure CallsAllowed (prepared : PreparedAuthority) (world : World) : Prop where
  attempts : world.calls.length ≤ prepared.routePlan.budget.maxAttempts
  sameDeployment : ∀ deploymentId,
    world.calls.countP (fun call => call.route.deploymentId = deploymentId) ≤
      prepared.routePlan.budget.maxSameDeploymentAttempts
  routes : ∀ call ∈ world.calls, call.route ∈ prepared.routePlan.routes
  distinct : (world.calls.map (·.attemptId)).Nodup
  followed : ∀ earlier call later, world.calls = earlier ++ call :: later → later ≠ [] →
    MayCallAgain world.journal call

theorem countP_le_of_history (h : EachStep (Continues plan) attempts) (deploymentId : String) :
    attempts.countP (fun attempt => attempt.identity.deploymentId = deploymentId) ≤
      plan.budget.maxSameDeploymentAttempts := by
  induction attempts using List.reverseRecOn with
  | nil => exact Nat.zero_le _
  | append_singleton earlier attempt ih =>
      obtain ⟨hearlier, hattempt⟩ := eachStep_snoc.mp h
      rw [List.countP_append, List.countP_singleton]
      by_cases hsame : attempt.identity.deploymentId = deploymentId
      · have hless := hattempt.sameDeployment
        rw [hsame] at hless
        rw [if_pos (decide_eq_true hsame)]
        exact hless
      · rw [if_neg (by simpa using hsame)]
        exact ih hearlier

/-- Of two items of a part in their order, the first comes before the second in the whole. -/
theorem split_of_sublist {α : Type} {earlier later whole : List α} {x y : α}
    (h : (earlier ++ x :: y :: later).Sublist whole) :
    ∃ before after, whole = before ++ x :: after ∧ y ∈ after := by
  obtain ⟨first, second, rfl, -, hsecond⟩ := List.append_sublist_iff.mp h
  obtain ⟨head, tail, rfl, hx, htail⟩ := List.cons_sublist_iff.mp hsecond
  obtain ⟨before, after, rfl⟩ := List.append_of_mem hx
  refine ⟨first ++ before, after ++ tail, by simp, ?_⟩
  exact List.mem_append_right _ (htail.mem List.mem_cons_self)

theorem Told.distinct (h : Told prepared world account) :
    (world.calls.map (·.attemptId)).Nodup := by
  have hcalled := h.calls.called.map Prod.fst
  rw [List.map_map, List.map_map] at hcalled
  exact hcalled.nodup (nodup_ids h.coherent.history)

/-- An attempt that another one follows failed so that it may be followed. -/
theorem Told.mayCallAgain (h : Told prepared world account) {earlier later : List ProviderCall}
    {call : ProviderCall} (hcalls : world.calls = earlier ++ call :: later) (hlater : later ≠ []) :
    MayCallAgain world.journal call := by
  obtain ⟨next, rest, rfl⟩ := List.exists_cons_of_ne_nil hlater
  have hcalled := h.calls.called
  rw [hcalls, List.map_append, List.map_cons, List.map_cons] at hcalled
  obtain ⟨before, after, htags, hnext⟩ := split_of_sublist hcalled
  obtain ⟨done, remaining, hattempts, rfl, hremaining⟩ := List.map_eq_append_iff.mp htags
  obtain ⟨attempt, others, rfl, htag, rfl⟩ := List.map_eq_cons_iff.mp hremaining
  cases others with
  | nil => cases hnext
  | cons follower others =>
      have hattempt : attempt ∈ account.attempts := by simp [hattempts]
      have hfollower : follower ∈ account.attempts := by simp [hattempts]
      have hid : attempt.id = call.attemptId := congrArg Prod.fst htag
      have hcontinues := h.coherent.history (done ++ [attempt]) follower others (by
        rw [hattempts, List.append_assoc, List.singleton_append])
      obtain ⟨recovery, hrecovery, hof⟩ := recovered_snoc.mp hcontinues.recovered
      obtain ⟨failure, hfailure, htext, htool, heffect, hclass⟩ := hof.failure
      have hidentity := (numbered_of_mem h.coherent.history hattempt).failed failure hfailure
      refine ⟨failure, ?_, ?_, htext, htool, heffect, ?_⟩
      · rw [h.tells.failures]
        exact List.mem_filterMap.mpr ⟨attempt, hattempt, hfailure⟩
      · rw [hidentity]
        exact hid
      · by_cases hcache : recovery.kind = .cacheUndecoratedRetry
        · rw [if_pos hcache] at hclass
          have hmem : recovery ∈ account.recoveries :=
            List.mem_append_left _ (List.mem_filterMap.mpr ⟨follower, hfollower, hrecovery⟩)
          obtain ⟨rejected, hrejected, hsource, hmetadata⟩ :=
            h.calls.rejected recovery hmem hcache
          have hnumber := (numbered_of_mem h.coherent.history hattempt).identity.1
          have hplace : attempt.id = ⟨done.length + 1⟩ := by
            have hfirst := h.coherent.history done attempt (follower :: others) hattempts
            exact hfirst.numbered.identity.1
          have hsame : rejected = call := by
            apply List.inj_on_of_nodup_map h.distinct hrejected (by simp [hcalls])
            rw [hsource, hof.fromAttempt, ← hplace, hid]
          exact .inr ⟨hclass, hsame ▸ hmetadata⟩
        · rw [if_neg hcache] at hclass
          exact .inl hclass

theorem Told.callsAllowed (h : Told prepared world account) : CallsAllowed prepared world where
  attempts := by
    have hlength := h.calls.called.length_le
    rw [List.length_map, List.length_map] at hlength
    exact hlength.trans (attempts_le h)
  sameDeployment := by
    intro deploymentId
    have hcount := h.calls.called.countP_le (p := fun tag => decide (tag.2 = deploymentId))
    rw [List.countP_map, List.countP_map] at hcount
    exact hcount.trans (countP_le_of_history h.coherent.history deploymentId)
  routes := h.calls.routes
  distinct := h.distinct
  followed := fun _ _ _ hcalls hlater => h.mayCallAgain hcalls hlater

/-- However many entries there are and wherever each of them stops, the provider is called within
the budget of the plan, and again only after a failure that may be followed. -/
theorem never_blindly_resent (h : Reachable prepared world) : CallsAllowed prepared world := by
  cases reachable_sound h with
  | planning rest hrecorded hrest hcalls =>
      constructor <;> simp [hcalls]
  | told account htold => exact htold.callsAllowed
  | closed account before terminal htold hjournal hends hreplays =>
      obtain ⟨hattempts, hsame, hroutes, hdistinct, hfollowed⟩ := htold.callsAllowed
      refine ⟨hattempts, hsame, hroutes, hdistinct, ?_⟩
      intro earlier call later hcalls hlater
      obtain ⟨failure, hfailure, hrest⟩ := hfollowed earlier call later hcalls hlater
      refine ⟨failure, ?_, hrest⟩
      rw [hjournal, Journal.failures_append]
      exact List.mem_append_left _ hfailure

/-! ### A call that is repeated -/

def soleRoute : ModelRouteEntry where
  deploymentId := "d"
  deploymentRevision := "1"
  descriptorRevision := "1"
  endpointRef := "e"
  endpointRevision := "1"
  provider := "openai"
  modelName := "m"
  region := "us"
  credentialMode := .deployment
  priceRevision := "1"
  qualificationRevision := "1"
  maxInputTokens := 100
  maxOutputTokens := 100

def twoAttempts : ModelInvocationBudget where
  maxAttempts := 2
  maxSameDeploymentAttempts := 2
  maxCostMicrousd := none
  maxInputTokens := none
  maxOutputTokens := none
  deadlineAt := none
  attemptsInRange := by decide
  sameDeploymentInRange := by decide

def soleAuthority : PreparedAuthority where
  requestDigest := "r"
  requirementsDigest := "q"
  requirementsRevision := "1"
  catalogRevision := "1"
  routePlan := {
    policyRevision := "1"
    routes := [soleRoute]
    exclusions := []
    fallbackPolicy := .sameModel
    budget := twoAttempts
    wellFormed := by decide }

def soleBinding : ModelInvocationRuntimeBinding where
  release := ⟨true, false, false⟩
  cacheFallbackPosture := .notConfigured
  currentHandoff := none
  projectedCostMicrousd := none
  projectedInputTokens := none
  projectedOutputTokens := none
  externalEffectObserved := fun _ => false
  now := fun _ => 0
  resolves := fun _ _ => true

def answering (behaviour : ProviderBehaviour) : Entry := ⟨soleBinding, fun _ _ => behaviour⟩

def limited : ProviderBehaviour := ⟨[.onChatModelStart], .error ⟨"RateLimitError", .rateLimited⟩, 1⟩

theorem never_blindly_resent_limited :
    (runFor (serve (answering limited)) 20 (entered (answering limited) soleAuthority)
        .empty).2.calls.length = 2 ∧
      CallsAllowed soleAuthority
        (runFor (serve (answering limited)) 20 (entered (answering limited) soleAuthority) .empty).2 :=
  ⟨by decide, never_blindly_resent (.entry _ 20 .empty)⟩

end CopilotRuntime.ModelInvocation
