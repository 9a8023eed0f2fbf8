import CopilotRuntime.ModelInvocation.Starting

/-!
# Settling an attempt

What an attempt came to is recorded after its handler ended: its progress, its
failure, its usage, and the end of the invocation unless another attempt follows.
-/

namespace CopilotRuntime.ModelInvocation

open Foundation Foundation.Program EventJournalModelInvocationStore ModelInvocationMiddleware
open ProviderLifecycleCallback

variable {prepared : PreparedAuthority} {entry : Entry} {world : World} {earlier : List Attempt}
  {attempt : Attempt} {observer : ProviderLifecycleCallback}

/-- An attempt of which only the dispatch is recorded. -/
structure Attempt.Dispatched (attempt : Attempt) : Prop where
  states : attempt.states = [dispatchingRecord attempt.identity]
  failed : attempt.failed = none
  usage : attempt.usage = none

/-- The usage that was reported passes the checks of a usage record. -/
def UsageRecordable (observer : ProviderLifecycleCallback) : Prop :=
  observer.usage.cachedInputTokens + observer.usage.cacheCreationInputTokens ≤
    observer.usage.inputTokens ∧ ∀ id ∈ observer.usageRecordId, id.length ≤ 255

instance (observer : ProviderLifecycleCallback) : Decidable (UsageRecordable observer) :=
  inferInstanceAs (Decidable (_ ∧ ∀ id ∈ _, _))

/-! ### Progress -/

def Attempt.statedAll (attempt : Attempt) (records : List AttemptStateRecord) : Attempt :=
  { attempt with states := attempt.states ++ records }

/-- The states that are recorded of an attempt that ended. -/
def endRecords (binding : ModelInvocationRuntimeBinding) (identity : AdmittedIdentity)
    (observed : ProviderAttemptLifecycle) (facts : List ModelAttemptLifecycleState) :
    List AttemptStateRecord :=
  facts.map (stateRecord binding identity observed)

theorem ensures_recordFacts (hknows : observer.Knows)
    (h : Told prepared world { attempts := earlier ++ [attempt] }) (hunderway : attempt.failed = none)
    {facts : List ModelAttemptLifecycleState}
    (hpairwise : (attempt.states.map (·.state) ++ facts).Pairwise Precedes)
    (hfacts : ∀ fact ∈ facts, fact ∈ stateFacts observer.state) :
    Ensures (serve entry) (Sound prepared) (fun result after => result = .ok () ∧
      after.calls = world.calls ∧ after.refused = world.refused ∧
        Told prepared after { attempts := earlier ++ [attempt.statedAll
          (endRecords entry.binding attempt.identity observer.state facts)] })
      (facts.forM fun fact => appendRecord
        (.attemptState (stateRecord entry.binding attempt.identity observer.state fact))) world := by
  induction facts generalizing attempt world with
  | nil =>
      have hsame : attempt.statedAll [] = attempt := by simp [Attempt.statedAll]
      exact ⟨.told _ h, rfl, rfl, rfl, hsame.symm ▸ h⟩
  | cons fact rest ih =>
      have hprogress : (stateRecord entry.binding attempt.identity observer.state
          fact).ProgressReconciles :=
        stateRecord_wellFormed hknows _ _ (hfacts fact List.mem_cons_self)
      have hprecedes : ∀ before ∈ attempt.states, Precedes before.state fact := by
        intro before hmem
        exact (List.pairwise_append.mp hpairwise).2.2 _ (List.mem_map_of_mem hmem) fact
          List.mem_cons_self
      have hstated := h.stated rfl hprogress hprecedes hunderway
      have hrest : ((attempt.stated (stateRecord entry.binding attempt.identity observer.state
          fact)).states.map (·.state) ++ rest).Pairwise Precedes := by
        simpa [Attempt.stated, stateRecord] using hpairwise
      rw [List.forM]
      apply (ensures_appendState h rfl hprogress hprecedes hunderway).bind
      · rintro _ after - ⟨-, rfl⟩
        apply (ih hstated hunderway hrest fun later hmem =>
          hfacts later (List.mem_cons_of_mem _ hmem)).mono
        rintro result final - ⟨hresult, hcalls, hrefused, htold⟩
        refine ⟨hresult, hcalls, hrefused, ?_⟩
        simpa [Attempt.statedAll, Attempt.stated, endRecords] using htold
      · rintro error after - ⟨herror, -⟩
        cases herror

theorem ensures_appendStates (hknows : observer.Knows)
    (h : Told prepared world { attempts := earlier ++ [attempt] }) (hdispatched : attempt.Dispatched) :
    Ensures (serve entry) (Sound prepared) (fun result after => result = .ok () ∧
      after.calls = world.calls ∧ after.refused = world.refused ∧
        Told prepared after { attempts := earlier ++ [attempt.statedAll (endRecords entry.binding
          attempt.identity observer.state (stateFacts observer.state))] })
      (appendStates entry.binding attempt.identity observer.state) world := by
  apply ensures_recordFacts hknows h hdispatched.failed _ fun fact hmem => hmem
  rw [hdispatched.states]
  exact stateFacts_ascending observer.state

/-! ### Usage -/

theorem usageRecord_wellFormed (hattested : observer.UsageAttested)
    (hrecordable : UsageRecordable observer) (identity : AdmittedIdentity) (durationMs : Nat) :
    (ModelInvocationRecord.attemptUsage
      (usageRecord identity observer observer.usage durationMs)).WellFormed := by
  refine ⟨?_, hrecordable.1, ?_⟩
  · intro id hid
    have hne : id.length ≠ 0 := fun hzero => hattested.2 id hid (String.length_eq_zero_iff.mp hzero)
    exact ⟨Nat.pos_of_ne_zero hne, hrecordable.2 id hid⟩
  · cases hreported : observer.usageReported with
    | true => exact .inl hreported
    | false => exact .inr ⟨(hattested.1 hreported).1, rfl⟩

/-- Usage that nobody reported is empty. -/
theorem reported_usage (hattested : observer.UsageAttested) :
    (if observer.usageReported then observer.usage else {}) = observer.usage := by
  cases hreported : observer.usageReported with
  | true => rfl
  | false => exact (hattested.1 hreported).1.symm

/-- The usage of an attempt is recorded, unless its record fails its own checks. -/
theorem ensures_meter (hattested : observer.UsageAttested)
    (h : Told prepared world { attempts := earlier ++ [attempt] }) (hunmetered : attempt.usage = none)
    (durationMs : Nat) :
    Ensures (serve entry) (Sound prepared) (fun result after =>
      (result = .ok () ∧ after = world.appended
        (.attemptUsage (usageRecord attempt.identity observer observer.usage durationMs))) ∨
      (¬ UsageRecordable observer ∧ (∃ error, result = .error error) ∧ after = world))
      (appendRecord (.attemptUsage (usageRecord attempt.identity observer observer.usage durationMs)))
      world := by
  by_cases hformed : (ModelInvocationRecord.attemptUsage
      (usageRecord attempt.identity observer observer.usage durationMs)).WellFormed
  · apply (ensures_appendUsage h hunmetered rfl hformed).mono
    intro result after _ happended
    exact .inl happended
  · apply ensures_appendRecord_invalid (.told _ h) hformed
    right
    exact ⟨fun hrecordable => hformed (usageRecord_wellFormed hattested hrecordable _ _),
      ⟨_, rfl⟩, rfl⟩

/-- The usage of an attempt adds to that of the attempts before it. -/
theorem totals_metered {journal : Journal} {usage : AttemptUsageRecord}
    (h : Tells prepared journal { attempts := earlier ++ [attempt] }) (hfailed : AllFailed earlier)
    (husage : attempt.usage = some usage) :
    TotalsMatch journal (totalInput (outcomes earlier) + usage.usage.inputTokens)
      (totalOutput (outcomes earlier) + usage.usage.outputTokens)
      (totalCost (outcomes earlier) + usage.costMicrousd) := by
  have husages : journal.usages = earlier.filterMap (·.usage) ++ [usage] := by
    rw [h.usages, List.filterMap_append, filterMap_singleton, husage]
    rfl
  rw [TotalsMatch, husages]
  simp only [List.map_append, List.map_singleton, List.sum_append, List.sum_singleton]
  refine ⟨?_, ?_, ?_⟩
  all_goals
    apply congrArg (· + _)
    apply outcomes_sum hfailed
    intro attempt outcome houtcome
    obtain ⟨failure, -, rfl⟩ := Option.map_eq_some_iff.mp houtcome
    rfl

theorem allFailed_of_settled (h : ∀ before ∈ earlier, before.Settled) : AllFailed earlier :=
  fun before hmem => (h before hmem).1

/-! ### Success -/

theorem ensures_recordSuccess (hknows : observer.Knows)
    (h : Told prepared world { attempts := earlier ++ [attempt] }) (hdispatched : attempt.Dispatched)
    (durationMs : Nat) :
    Ensures (serve entry) (Sound prepared) (fun result after => after.calls = world.calls ∧
      (observer.state.terminalState = some .completed → UsageRecordable observer →
        result = .ok () ∧ after.refused = world.refused ∧
          ∃ terminal, Concluded prepared (.completed terminal) after))
      (recordSuccess entry.binding attempt.identity observer (outcomes earlier) durationMs) world := by
  have hsettled := settled_of_history h.coherent.history
  have hlength := outcomes_length (allFailed_of_settled hsettled)
  apply (ensures_appendStates hknows h hdispatched).bind
  · rintro _ stated - ⟨-, hcalls, hsame, htold⟩
    apply (ensures_meter hknows.usageAttested htold hdispatched.usage durationMs).bind
    · rintro _ metered - (⟨-, rfl⟩ | ⟨-, ⟨error, herror⟩, -⟩)
      · have hmetered : Told prepared (stated.appended (.attemptUsage
            (usageRecord attempt.identity observer observer.usage durationMs)))
            { attempts := earlier ++ [(attempt.statedAll (endRecords entry.binding
              attempt.identity observer.state (stateFacts observer.state))).metered
                (usageRecord attempt.identity observer observer.usage durationMs)] } :=
          htold.metered hdispatched.usage rfl
        apply ensures_conclude hmetered rfl (Nat.le_add_left 1 _)
        · intro hnext
          exact ⟨hcalls, fun _ _ => ⟨rfl, hsame, _, .appended _ hmetered rfl hnext⟩⟩
        · intro hno
          refine ⟨hcalls, fun hcompleted _ => absurd ?_ hno⟩
          rw [hmetered.tells.validCompletion_iff hmetered.coherent last_mem_attempts rfl]
          refine ⟨by simp [hlength], ?_, ?_, totals_metered hmetered.tells
            (allFailed_of_settled hsettled) rfl⟩
          · intro found hmem
            rcases List.mem_append.mp hmem with hmem | hmem
            · exact (hsettled found hmem).2
            · rw [List.mem_singleton.mp hmem]
              rfl
          · refine ⟨stateRecord entry.binding attempt.identity observer.state .completed, ?_, rfl⟩
            apply List.mem_append_right
            exact List.mem_map_of_mem ((completed_mem_stateFacts _).mpr hcompleted)
      · cases herror
    · rintro error after - (⟨herror, -⟩ | ⟨hunrecordable, -, rfl⟩)
      · cases herror
      · exact ⟨hcalls, fun _ hrecordable => absurd hrecordable hunrecordable⟩
  · rintro error after - ⟨herror, -⟩
    cases herror

/-! ### Failure -/

/-- The attempt with all that is recorded of its failure. -/
def settledAttempt (binding : ModelInvocationRuntimeBinding) (attempt : Attempt)
    (observer : ProviderLifecycleCallback) (observation : ProviderFailureObservation)
    (durationMs : Nat) : Attempt :=
  ((attempt.statedAll (endRecords binding attempt.identity observer.state
    (stateFacts observer.state))).failing
      (failedRecord binding attempt.identity observer.state observation)).metered
        (usageRecord attempt.identity observer observer.usage durationMs)

theorem settledAttempt_outcome (binding : ModelInvocationRuntimeBinding)
    (observation : ProviderFailureObservation) (durationMs : Nat) :
    (settledAttempt binding attempt observer observation durationMs).outcome =
      some (failedOutcome attempt.identity observer observation) := rfl

/-- What is observed of a failure is the progress of its attempt. -/
theorem observation_streamState {observed : ProviderAttemptLifecycle}
    {observation : ProviderFailureObservation} (h : observed.failureObservation = some observation) :
    observation.streamState = observed.streamState := by
  unfold ProviderAttemptLifecycle.failureObservation at h
  split at h
  · split_ifs at h
    rw [← Option.some.inj h]
  · cases h

/-- The states of an attempt that ended are its dispatch and what was observed. -/
theorem mem_endStates (hdispatched : attempt.Dispatched) {binding : ModelInvocationRuntimeBinding}
    {observed : ProviderAttemptLifecycle} {record : AttemptStateRecord}
    (hmem : record ∈ (attempt.statedAll (endRecords binding attempt.identity observed
      (stateFacts observed))).states) : record.state = .dispatching ∨ record.state ∈ stateFacts observed := by
  rw [Attempt.statedAll, hdispatched.states] at hmem
  rcases List.mem_cons.mp hmem with rfl | hmem
  · exact .inl rfl
  · obtain ⟨fact, hfact, rfl⟩ := List.mem_map.mp hmem
    exact .inr hfact

/-- The failure is recorded after the progress. -/
theorem ensures_failing {observation : ProviderFailureObservation}
    (h : Told prepared world { attempts := earlier ++ [attempt.statedAll (endRecords entry.binding
      attempt.identity observer.state (stateFacts observer.state))] })
    (hdispatched : attempt.Dispatched)
    (hobservation : observer.state.failureObservation = some observation) :
    Ensures (serve entry) (Sound prepared) (fun result after => result = .ok () ∧
      after = world.appended (.attemptFailed
        (failedRecord entry.binding attempt.identity observer.state observation)) ∧
      Told prepared after { attempts := earlier ++ [(attempt.statedAll (endRecords entry.binding
        attempt.identity observer.state (stateFacts observer.state))).failing
          (failedRecord entry.binding attempt.identity observer.state observation)] })
      (appendRecord (.attemptFailed
        (failedRecord entry.binding attempt.identity observer.state observation))) world := by
  have hvisible : observer.state.visibleTextObserved = true ∨
      observer.state.toolCallContentObserved = true →
        observation.streamState = .visibleOutput := by
    intro hor
    rw [observation_streamState hobservation, ProviderAttemptLifecycle.streamState, if_pos]
    rcases hor with htext | htool
    · simp [ProviderAttemptLifecycle.visibleOutputObserved, htext]
    · simp [ProviderAttemptLifecycle.visibleOutputObserved, htool]
  have hincomplete : ∀ before ∈ (attempt.statedAll (endRecords entry.binding attempt.identity
      observer.state (stateFacts observer.state))).states, before.state ≠ .completed := by
    intro before hmem hcompleted
    rcases mem_endStates hdispatched hmem with hstate | hfact
    · rw [hcompleted] at hstate
      cases hstate
    · rw [hcompleted] at hfact
      have hended := (completed_mem_stateFacts _).mp hfact
      rw [failureObservation_of_completed hended] at hobservation
      cases hobservation
  have hambiguous : (∃ before ∈ (attempt.statedAll (endRecords entry.binding attempt.identity
      observer.state (stateFacts observer.state))).states, before.state = .ambiguous) →
        ProviderFailureClassifier.classify observation = .ambiguousProviderState := by
    rintro ⟨before, hmem, hended⟩
    rcases mem_endStates hdispatched hmem with hstate | hfact
    · rw [hended] at hstate
      cases hstate
    · rw [hended] at hfact
      have hclass := ambiguous_mem_stateFacts hfact
      rw [hobservation] at hclass
      exact Option.some.inj hclass
  have hformed : (ModelInvocationRecord.attemptFailed (failedRecord entry.binding
      attempt.identity observer.state observation)).WellFormed :=
    fun htext => hvisible (.inl htext)
  apply (ensures_appendFailure h hdispatched.failed rfl hformed hincomplete hambiguous
    fun _ => hvisible).mono
  rintro result after - ⟨hresult, rfl⟩
  refine ⟨hresult, rfl, ?_⟩
  exact h.failing hdispatched.failed rfl hincomplete hambiguous fun _ => hvisible

theorem ensures_recordFailure (hknows : observer.Knows)
    (h : Told prepared world { attempts := earlier ++ [attempt] }) (hdispatched : attempt.Dispatched)
    (durationMs : Nat) :
    Ensures (serve entry) (Sound prepared) (fun result after => after.calls = world.calls ∧
      ((∃ observation, result = .ok (failedOutcome attempt.identity observer observation) ∧
        after.refused = world.refused ∧ Told prepared after { attempts := earlier ++
          [settledAttempt entry.binding attempt observer observation durationMs] }) ∨
      ((∃ error, result = .error error) ∧
        ¬ (observer.state.terminalState = some .failed ∧ UsageRecordable observer))))
      (recordFailure entry.binding attempt.identity observer durationMs) world := by
  apply (ensures_appendStates hknows h hdispatched).bind
  · rintro _ stated hsound ⟨-, hcalls, hsame, htold⟩
    cases hobservation : observer.state.failureObservation with
    | none =>
        refine ⟨hsound, hcalls, .inr ⟨⟨_, rfl⟩, ?_⟩⟩
        rintro ⟨hfailed, -⟩
        obtain ⟨signal, -, hsome⟩ := failureObservation_of_failed hknows hfailed
        rw [hobservation] at hsome
        cases hsome
    | some observation =>
        apply (ensures_failing htold hdispatched hobservation).bind
        · rintro _ failed - ⟨-, rfl, hfailing⟩
          dsimp only
          rw [reported_usage hknows.usageAttested]
          apply (ensures_meter hknows.usageAttested hfailing hdispatched.usage durationMs).bind
          · rintro _ metered hsound (⟨-, rfl⟩ | ⟨-, ⟨error, herror⟩, -⟩)
            · refine ⟨hsound, hcalls, .inl ⟨observation, rfl, hsame, ?_⟩⟩
              exact hfailing.metered hdispatched.usage rfl
            · cases herror
          · rintro error after - (⟨herror, -⟩ | ⟨hunrecordable, -, rfl⟩)
            · cases herror
            · exact ⟨hcalls, .inr ⟨⟨_, rfl⟩, fun hboth => hunrecordable hboth.2⟩⟩
        · rintro error after - ⟨herror, -⟩
          cases herror
  · rintro error after - ⟨herror, -⟩
    cases herror

/-! ### Going on -/

/-- All attempts that the journal tells have failed, and the call knows what they came to. -/
structure Ready (prepared : PreparedAuthority) (world : World) (account : Account)
    (progress : Progress) : Prop where
  told : Told prepared world account
  failed : AllFailed account.attempts
  prior : progress.prior = outcomes account.attempts
  recoveries : progress.recoveries = account.recoveries
  pending : ∀ decision ∈ progress.pendingCacheRetry, ∃ deploymentId ordinal,
    decision = .admits deploymentId ordinal .safeCacheUndecoratedRetry ∧
      AdmitsWithin prepared.routePlan (outcomes account.attempts) deploymentId ordinal ∧
      AdmitsCacheRetry (outcomes account.attempts) deploymentId ∧
      ∃ call ∈ world.calls, call.attemptId = ⟨account.attempts.length⟩ ∧ call.RejectedCacheMetadata

/-- The call itself took the last attempt, and was granted another one. -/
structure Running (entry : Entry) (prepared : PreparedAuthority) (world : World)
    (account : Account) (progress : Progress) : Prop extends
    Ready prepared world account progress where
  denial : account.denial = none
  recovering : account.recovering = none
  usage : ∀ attempt ∈ account.attempts, attempt.usage.isSome
  latest : ∀ last ∈ account.attempts.getLast?, ∃ call ∈ world.calls.getLast?, ∃ error,
    call.attemptId = ⟨account.attempts.length⟩ ∧ call.behaviour.ending = .error error ∧
      progress.lastError = some error ∧
      entry.binding.externalEffectObserved (.nextDecision account.attempts.length) = false ∧
      ∀ failure ∈ last.failed, failure.externalEffectObserved =
        entry.binding.externalEffectObserved (.failure account.attempts.length)

/-- The invocation ends with a failure that nothing follows. -/
theorem ensures_failedTerminal (h : Told prepared world { attempts := earlier ++ [attempt] })
    (hfailed : AllFailed (earlier ++ [attempt]))
    (husage : ∀ found ∈ earlier ++ [attempt], found.usage.isSome) (failure : ModelFailureClass)
    (durationMs : Nat) :
    Ensures (serve entry) (Sound prepared) (fun result after => result = .ok () ∧
      after.calls = world.calls ∧ after.refused = world.refused ∧
        ∃ terminal, Concluded prepared (.failed terminal) after)
      (appendRecord (.failed (failedTerminal (outcomes (earlier ++ [attempt])) attempt.identity
        failure durationMs))) world := by
  have hlength := outcomes_length hfailed
  have hformed : (ModelInvocationRecord.failed (failedTerminal (outcomes (earlier ++ [attempt]))
      attempt.identity failure durationMs)).WellFormed := by
    constructor
    · intro hzero
      have hzero : (outcomes (earlier ++ [attempt])).length = 0 := hzero
      simp [hlength] at hzero
    · rintro ⟨⟩
  apply ensures_conclude h rfl hformed
  · intro hnext
    exact ⟨rfl, rfl, rfl, _, .appended _ h rfl hnext⟩
  · intro hno
    apply absurd _ hno
    rw [h.tells.validInvocationFailure_iff h.coherent (by simp [failedTerminal])
      (fun last hlast => hfailed last (List.mem_of_getLast? hlast)) (by simp)]
    exact ⟨hlength, husage, rfl, totals_of_outcomes h.tells hfailed⟩

/-- How recording a failed attempt ends. -/
def FailureSettles (entry : Entry) (prepared : PreparedAuthority) (world : World)
    (earlier : List Attempt) (observer : ProviderLifecycleCallback)
    (result : Except ModelInvocationError (Option Progress)) (after : World) : Prop :=
  after.calls = world.calls ∧
    match result with
    | .ok none => after.refused = world.refused ∧
        ∃ terminal, Concluded prepared (.failed terminal) after
    | .ok (some next) => after.refused = world.refused ∧
        ∃ settled, Running entry prepared after { attempts := earlier ++ [settled] } next
    | .error _ => ¬ (observer.state.terminalState = some .failed ∧ UsageRecordable observer)

theorem ensures_settleFailure (hknows : observer.Knows)
    (h : Told prepared world { attempts := earlier ++ [attempt] }) (hdispatched : attempt.Dispatched)
    {progress : Progress} (hprior : progress.prior = outcomes earlier)
    (hrecoveries : progress.recoveries =
      ({ attempts := earlier ++ [attempt] } : Account).recoveries)
    {call : ProviderCall} (hcall : call ∈ world.calls.getLast?) (hid : call.attemptId = attempt.id)
    {error : ProviderError} (hending : call.behaviour.ending = .error error) {rejected : Bool}
    (hrejected : rejected = true → call.RejectedCacheMetadata) (durationMs : Nat) :
    Ensures (serve entry) (Sound prepared) (FailureSettles entry prepared world earlier observer)
      (settleFailure entry.binding prepared.routePlan attempt.identity observer rejected error
        durationMs progress) world := by
  have hsettled := settled_of_history h.coherent.history
  have hnumbered := h.numbered
  apply (ensures_recordFailure hknows h hdispatched durationMs).bind
  · rintro outcome after hsound ⟨hcalls, ⟨observation, hresult, hsame, htold⟩ | ⟨⟨_, herror⟩, -⟩⟩
    · obtain rfl := Except.ok.inj hresult
      have hfailed : AllFailed (earlier ++
          [settledAttempt entry.binding attempt observer observation durationMs]) := by
        intro found hmem
        rcases List.mem_append.mp hmem with hmem | hmem
        · exact (hsettled found hmem).1
        · rw [List.mem_singleton.mp hmem]
          rfl
      have hmetered : ∀ found ∈ earlier ++
          [settledAttempt entry.binding attempt observer observation durationMs],
            found.usage.isSome := by
        intro found hmem
        rcases List.mem_append.mp hmem with hmem | hmem
        · exact (hsettled found hmem).2
        · rw [List.mem_singleton.mp hmem]
          rfl
      have houtcomes : progress.prior ++ [failedOutcome attempt.identity observer observation] =
          outcomes (earlier ++
            [settledAttempt entry.binding attempt observer observation durationMs]) := by
        rw [hprior, outcomes, outcomes, List.filterMap_append, filterMap_singleton,
          settledAttempt_outcome]
        rfl
      have hlength := outcomes_length hfailed
      have hnumber : (earlier ++
          [settledAttempt entry.binding attempt observer observation durationMs]).length =
            earlier.length + 1 := List.length_append
      obtain ⟨decided, hdecided⟩ := decideAfterFailure_ok entry.binding prepared.routePlan rejected
        (ProviderFailureClassifier.classify observation) observer.state
        (outcomes_ordinals htold.coherent.history hfailed)
      dsimp only
      rw [houtcomes]
      show Ensures _ _ _ (ofExcept (decideAfterFailure _ _ _ _
        (ProviderFailureClassifier.classify observation) _) >>= _) after
      rw [hdecided, ofExcept_ok, done_bind]
      cases decided with
      | none =>
          apply (ensures_failedTerminal htold hfailed hmetered _ durationMs).bind
          · rintro _ final hsound ⟨-, hfinal, hkept, hconcluded⟩
            exact ⟨hsound, hfinal.trans hcalls, hkept.trans hsame, hconcluded⟩
          · rintro error final - ⟨herror, -⟩
            cases herror
      | some decision =>
          have hsome : outcomes (earlier ++
              [settledAttempt entry.binding attempt observer observation durationMs]) ≠ [] := by
            rw [Ne, ← List.length_eq_zero_iff, hlength]
            simp
          obtain ⟨hunobserved, deploymentId, ordinal, reason, rfl, hcache⟩ :=
            decideAfterFailure_some hdecided hsome
          refine ⟨hsound, hcalls, hsame, _, ⟨⟨htold, hfailed, rfl, ?_, ?_⟩, rfl, rfl, hmetered, ?_⟩⟩
          · rw [hrecoveries]
            simp [Account.recoveries, settledAttempt, Attempt.metered, Attempt.failing,
              Attempt.statedAll, filterMap_singleton]
          · intro decision hdecision
            by_cases hyes : rejected = true
            · obtain ⟨hwithin, hadmits, rfl⟩ := hcache hyes
              rw [Option.mem_def, if_pos hyes] at hdecision
              refine ⟨deploymentId, ordinal, (Option.some.inj hdecision).symm, hwithin, hadmits,
                call, hcalls ▸ List.mem_of_getLast? hcall, ?_, hrejected hyes⟩
              rw [hid, hnumbered.identity.1, hnumber]
            · rw [Option.mem_def, if_neg hyes] at hdecision
              cases hdecision
          · intro last hlast
            rw [List.getLast?_concat] at hlast
            obtain rfl := Option.some.inj hlast
            refine ⟨call, hcalls ▸ hcall, error, ?_, hending, rfl, ?_, ?_⟩
            · rw [hid, hnumbered.identity.1, hnumber]
            · rw [hlength] at hunobserved
              exact hunobserved
            · rintro failure ⟨⟩
              show entry.binding.externalEffectObserved (.failure attempt.identity.attemptOrdinal) = _
              rw [hnumbered.identity.2, hnumber]
    · cases herror
  · rintro error after - ⟨hcalls, ⟨observation, hresult, -⟩ | ⟨-, hunrecordable⟩⟩
    · cases hresult
    · exact ⟨hcalls, hunrecordable⟩

/-! ### Settling -/

/-- What the callbacks of an attempt lead to. -/
def ProviderBehaviour.observed (behaviour : ProviderBehaviour) : ProviderLifecycleCallback :=
  dispatched.observeAll behaviour.callbacks

/-- The observer whose usage is recorded. -/
def ProviderBehaviour.metered (behaviour : ProviderBehaviour) : ProviderLifecycleCallback :=
  match behaviour.ending with
  | .ok response => behaviour.observed.deliver (.onLlmEnd response.result)
  | .error _ => behaviour.observed

/-- The callbacks do not contradict how the handler ended, and the usage they report passes the
checks of its record. -/
structure Recordable (behaviour : ProviderBehaviour) : Prop where
  agrees : match behaviour.ending with
    | .ok _ => behaviour.observed.state.terminalState ≠ some .failed
    | .error _ => behaviour.observed.state.terminalState ≠ some .completed
  usage : UsageRecordable behaviour.metered

theorem observed_knows (behaviour : ProviderBehaviour) : behaviour.observed.Knows :=
  observeAll_knows dispatched_knows behaviour.callbacks

/-- The typed authority recognised the rejection. -/
theorem handoff_of_consumed {binding : ModelInvocationRuntimeBinding} {progress : Progress}
    {error : ProviderError} {observed : ProviderAttemptLifecycle} {route : ModelRouteEntry}
    {ordinal : Nat}
    (h : consumesRejection binding progress error observed route ordinal = true) :
    (∃ handoff ∈ binding.currentHandoff, handoff.supportsUndecoratedRetry = true ∧
      handoff.rejects route error = true) ∧ observed.dispatchState ≠ .accepted ∧
      observed.visibleTextObserved = false ∧ observed.toolCallContentObserved = false ∧
      observed.usageObserved = false := by
  unfold consumesRejection at h
  cases hhandoff : handoffOf binding progress with
  | none => simp [hhandoff] at h
  | some handoff =>
      simp only [hhandoff, Bool.and_eq_true, Bool.not_eq_true', decide_eq_true_eq] at h
      obtain ⟨⟨⟨⟨⟨⟨hsupports, -⟩, hdispatch⟩, htext⟩, htool⟩, husage⟩, hrejects⟩ := h
      unfold handoffOf at hhandoff
      split_ifs at hhandoff
      exact ⟨⟨handoff, hhandoff, hsupports, hrejects⟩, hdispatch, htext, htool, husage⟩

/-- The error that the handler raised is always taken in. -/
theorem observeRaised_ok (hknows : observer.Knows) {rejected : Bool} (error : ProviderError)
    (hrejected : rejected = true → observer.state.dispatchState ≠ .accepted ∧
      observer.state.visibleTextObserved = false ∧
      observer.state.toolCallContentObserved = false ∧ observer.state.usageObserved = false) :
    ∃ next, observeRaised rejected observer error = .ok next ∧ next.Knows ∧
      next.usage = observer.usage ∧ next.usageRecordId = observer.usageRecordId ∧
      (observer.state.terminalState ≠ some .completed →
        next.state.terminalState = some .failed) := by
  cases rejected with
  | true =>
      obtain ⟨hdispatch, htext, htool, husage⟩ := hrejected rfl
      obtain ⟨next, hnext, hnextKnows, hfailed, -, -, -, -, husage, -, hid⟩ :=
        onCacheRejection_ok hknows hdispatch htext htool husage (hknows.started hdispatch)
      exact ⟨next, hnext, hnextKnows, husage, hid, fun _ => hfailed⟩
  | false =>
      obtain ⟨next, hnext, hnextKnows, hunderway, hended, husage, hid⟩ := onError_ok hknows error
      refine ⟨next, hnext, hnextKnows, husage, hid, fun hincomplete => ?_⟩
      rcases hknows.ended with hnone | hcompleted | hfailed
      · exact (hunderway hnone).1
      · exact absurd hcompleted hincomplete
      · rw [hended (by rw [hfailed]; exact Option.some_ne_none _)]
        exact hfailed

/-- How an attempt ends once its handler did. -/
def AttemptSettles (entry : Entry) (prepared : PreparedAuthority) (world : World)
    (earlier : List Attempt) (call : ProviderCall)
    (result : Except ModelInvocationError (ModelResponse ⊕ Progress)) (after : World) : Prop :=
  after.calls = world.calls ∧
    match result with
    | .ok (.inl response) => call.behaviour.ending = .ok response ∧
        (Recordable call.behaviour → after.refused = world.refused ∧
          ∃ terminal, Concluded prepared (.completed terminal) after)
    | .ok (.inr next) => after.refused = world.refused ∧
        ∃ settled, Running entry prepared after { attempts := earlier ++ [settled] } next
    | .error error => ∃ raised, call.behaviour.ending = .error raised ∧ error = .provider raised ∧
        (Recordable call.behaviour → after.refused = world.refused ∧
          ∃ terminal, Concluded prepared (.failed terminal) after)

section Settle
variable (h : Told prepared world { attempts := earlier ++ [attempt] })
  (hdispatched : attempt.Dispatched) {progress : Progress} (hprior : progress.prior = outcomes earlier)
  {call : ProviderCall}
include h hdispatched hprior

/-- A response is returned whether or not its attempt could be recorded. -/
theorem ensures_settleResponse {response : ModelResponse}
    (hending : call.behaviour.ending = .ok response) :
    Ensures (serve entry) (Sound prepared) (AttemptSettles entry prepared world earlier call)
      (settleAttempt entry.binding prepared.routePlan attempt.identity call.route call.behaviour
        progress) world := by
  have hknows := observed_knows call.behaviour
  obtain ⟨final, hfinal, hfinalKnows, hended, hkept⟩ := complete_ok hknows response.result
  have hmetered : call.behaviour.metered = final := by
    rw [ProviderBehaviour.metered, hending]
    show (call.behaviour.observed.complete response.result).toOption.getD _ = final
    rw [hfinal]
    rfl
  have hcompleted (hrecordable : Recordable call.behaviour) :
      final.state.terminalState = some .completed := by
    have hagrees := hrecordable.agrees
    rw [hending] at hagrees
    rcases hknows.ended with hnone | hcompleted | hfailed
    · exact hended hnone
    · rw [hkept (by rw [hcompleted]; exact Option.some_ne_none _)]
      exact hcompleted
    · exact absurd hfailed hagrees
  have hcaught : Ensures (serve entry) (Sound prepared) (fun result after => result = .ok () ∧
      after.calls = world.calls ∧ (Recordable call.behaviour → after.refused = world.refused ∧
        ∃ terminal, Concluded prepared (.completed terminal) after))
      ((recordSuccess entry.binding attempt.identity final (outcomes earlier)
        call.behaviour.durationMs).tryCatch fun _ => pure ()) world := by
    apply (ensures_recordSuccess hfinalKnows h hdispatched call.behaviour.durationMs).tryCatch
    · rintro _ after - ⟨hcalls, hrecorded⟩
      refine ⟨rfl, hcalls, fun hrecordable => ?_⟩
      exact (hrecorded (hcompleted hrecordable) (hmetered ▸ hrecordable.usage)).2
    · rintro error after hsound ⟨hcalls, hrecorded⟩
      refine ⟨hsound, rfl, hcalls, fun hrecordable => ?_⟩
      exact (hrecorded (hcompleted hrecordable) (hmetered ▸ hrecordable.usage)).2
  rw [settleAttempt, event_dispatchStarted]
  show Ensures _ _ _ (done dispatched >>= _) world
  rw [done_bind, hending, hprior]
  dsimp only
  rw [ProviderBehaviour.observed] at hfinal
  rw [hfinal]
  show Ensures _ _ _ (done final >>= _) world
  rw [done_bind]
  apply hcaught.bind
  · rintro _ after hsound ⟨-, hcalls, hrecorded⟩
    exact ⟨hsound, hcalls, hending, hrecorded⟩
  · rintro error after - ⟨herror, -⟩
    cases herror

/-- The handler's error is raised unless another attempt follows. -/
theorem ensures_settleRaised
    (hrecoveries : progress.recoveries =
      ({ attempts := earlier ++ [attempt] } : Account).recoveries)
    (hcall : call ∈ world.calls.getLast?) (hid : call.attemptId = attempt.id)
    (hhandoff : call.handoff = entry.binding.currentHandoff) {error : ProviderError}
    (hending : call.behaviour.ending = .error error) :
    Ensures (serve entry) (Sound prepared) (AttemptSettles entry prepared world earlier call)
      (settleAttempt entry.binding prepared.routePlan attempt.identity call.route call.behaviour
        progress) world := by
  have hknows := observed_knows call.behaviour
  obtain ⟨rejected, hrejected⟩ : ∃ rejected, consumesRejection entry.binding progress error
      call.behaviour.observed.state call.route attempt.identity.attemptOrdinal = rejected :=
    ⟨_, rfl⟩
  have hconsumed (hyes : rejected = true) := handoff_of_consumed (hrejected.trans hyes)
  obtain ⟨final, hfinal, hfinalKnows, husage, hrecordId, hfailed⟩ :=
    observeRaised_ok hknows error fun hyes => (hconsumed hyes).2
  have hcallRejected (hyes : rejected = true) : call.RejectedCacheMetadata := by
    obtain ⟨⟨handoff, hcurrent, hsupports, hrejects⟩, -⟩ := hconsumed hyes
    exact ⟨handoff, hhandoff ▸ hcurrent, hsupports, error, hending, hrejects⟩
  have hrecordable (hyes : Recordable call.behaviour) :
      final.state.terminalState = some .failed ∧ UsageRecordable final := by
    have hagrees := hyes.agrees
    have hmetered := hyes.usage
    rw [ProviderBehaviour.metered, hending] at hmetered
    rw [hending] at hagrees
    refine ⟨hfailed hagrees, ?_⟩
    rw [UsageRecordable, husage, hrecordId]
    exact hmetered
  have hcaught : Ensures (serve entry) (Sound prepared) (fun result after =>
      after.calls = world.calls ∧ ∃ next, result = .ok next ∧
        ((next = none ∧ (Recordable call.behaviour → after.refused = world.refused ∧
          ∃ terminal, Concluded prepared (.failed terminal) after)) ∨
        ∃ progress, next = some progress ∧ after.refused = world.refused ∧
          ∃ settled, Running entry prepared after { attempts := earlier ++ [settled] } progress))
      ((settleFailure entry.binding prepared.routePlan attempt.identity final rejected error
        call.behaviour.durationMs progress).tryCatch fun _ => pure none) world := by
    apply (ensures_settleFailure hfinalKnows h hdispatched hprior hrecoveries hcall hid hending
      hcallRejected call.behaviour.durationMs).tryCatch
    · rintro next after - ⟨hcalls, hsettles⟩
      refine ⟨hcalls, next, rfl, ?_⟩
      cases next with
      | none => exact .inl ⟨rfl, fun _ => hsettles⟩
      | some progress => exact .inr ⟨progress, rfl, hsettles⟩
    · rintro raised after hsound ⟨hcalls, hunrecordable⟩
      refine ⟨hsound, hcalls, none, rfl, .inl ⟨rfl, fun hyes => ?_⟩⟩
      exact absurd (hrecordable hyes) hunrecordable
  rw [settleAttempt, event_dispatchStarted]
  show Ensures _ _ _ (done dispatched >>= _) world
  rw [done_bind, hending]
  dsimp only
  rw [ProviderBehaviour.observed] at hrejected hfinal
  rw [hrejected, hfinal]
  show Ensures _ _ _ (done final >>= _) world
  rw [done_bind]
  apply hcaught.bind
  · rintro next after hsound ⟨hcalls, found, hfound, ⟨rfl, hclosed⟩ | ⟨goesOn, rfl, hgoes⟩⟩
    · obtain rfl := Except.ok.inj hfound
      exact ⟨hsound, hcalls, error, hending, rfl, hclosed⟩
    · obtain rfl := Except.ok.inj hfound
      exact ⟨hsound, hcalls, hgoes⟩
  · rintro raised after - ⟨-, found, hfound, -⟩
    cases hfound

end Settle

theorem ensures_settleAttempt (h : Told prepared world { attempts := earlier ++ [attempt] })
    (hdispatched : attempt.Dispatched) {progress : Progress}
    (hprior : progress.prior = outcomes earlier)
    (hrecoveries : progress.recoveries =
      ({ attempts := earlier ++ [attempt] } : Account).recoveries)
    {call : ProviderCall} (hcall : call ∈ world.calls.getLast?) (hid : call.attemptId = attempt.id)
    (hhandoff : call.handoff = entry.binding.currentHandoff) :
    Ensures (serve entry) (Sound prepared) (AttemptSettles entry prepared world earlier call)
      (settleAttempt entry.binding prepared.routePlan attempt.identity call.route call.behaviour
        progress) world := by
  cases hending : call.behaviour.ending with
  | ok response => exact ensures_settleResponse h hdispatched hprior hending
  | error error =>
      exact ensures_settleRaised h hdispatched hprior hrecoveries hcall hid hhandoff hending

end CopilotRuntime.ModelInvocation
