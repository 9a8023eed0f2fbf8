import CopilotRuntime.ModelInvocation.Settling

/-!
# The attempts of a call

A call goes on from what the journal tells. Whether its next step is accepted
is a condition on that, and from then on each attempt leads to the next decision
or to the end of the invocation.
-/

namespace CopilotRuntime.ModelInvocation

open Foundation Foundation.Program EventJournalModelInvocationStore ModelInvocationMiddleware
open ModelAttemptAdmissionPolicy

variable {prepared : PreparedAuthority} {entry : Entry} {world : World} {account : Account}
  {progress : Progress}

/-! ### The next decision -/

/-- The store accepts what the call decides next. -/
def Proceeds (entry : Entry) (prepared : PreparedAuthority) (account : Account)
    (progress : Progress) : Prop :=
  match nextDecision entry.binding prepared.routePlan progress with
  | .ok (.deny reason) => Deniable prepared.routePlan entry.binding account reason
  | .ok (.admits deploymentId ordinal reason) =>
      (∃ route, routeRequest entry.binding prepared.routePlan deploymentId ordinal = .ok route) ∧
        Startable prepared.routePlan entry.binding account deploymentId reason
  | .error _ => False

/-- The next decision is made, and it is within the plan and has its grounds. -/
theorem Ready.decides (h : Ready prepared world account progress) (entry : Entry) :
    ∃ decision, nextDecision entry.binding prepared.routePlan progress = .ok decision ∧
      ∀ deploymentId ordinal reason, decision = .admits deploymentId ordinal reason →
        ordinal = account.attempts.length + 1 ∧
          AdmitsWithin prepared.routePlan (outcomes account.attempts) deploymentId
            (account.attempts.length + 1) ∧
          Grounds world account.attempts deploymentId reason := by
  have hlength := outcomes_length h.failed
  cases hpending : progress.pendingCacheRetry with
  | some decision =>
      refine ⟨decision, by rw [nextDecision, hpending]; rfl, ?_⟩
      rintro deploymentId ordinal reason rfl
      obtain ⟨target, number, heq, hwithin, hadmits, hcall⟩ := h.pending _ hpending
      obtain ⟨rfl, rfl, rfl⟩ := ModelAttemptDecision.admits.inj heq
      have hordinal := hwithin.ordinal
      rw [hlength] at hordinal
      exact ⟨hordinal, hordinal ▸ hwithin, .rejected hadmits rfl hcall⟩
  | none =>
      obtain ⟨decision, hdecision⟩ := decideAttempt_ok entry.binding prepared.routePlan
        (.decision progress.prior.length)
        (h.prior ▸ outcomes_ordinals h.told.coherent.history h.failed)
      refine ⟨decision, by rw [nextDecision, hpending]; exact hdecision, ?_⟩
      rintro deploymentId ordinal reason rfl
      obtain ⟨hwithin, hretry⟩ := decideAttempt_admit hdecision
      rw [h.prior] at hwithin hretry
      have hordinal := hwithin.ordinal
      rw [hlength] at hordinal
      exact ⟨hordinal, hordinal ▸ hwithin, .policy hretry⟩

variable {reason : ModelAttemptDecisionReason}

/-- The first attempt of an invocation is on the first route of its plan. -/
theorem Ready.first_route (h : Ready prepared world account progress)
    (hnone : account.attempts = []) {deploymentId : String} {ordinal : Nat}
    (hdecision : nextDecision entry.binding prepared.routePlan progress =
      .ok (.admits deploymentId ordinal reason)) :
    prepared.routePlan.deploymentIds.head? = some deploymentId := by
  have hprior : progress.prior = [] := by rw [h.prior, hnone, outcomes, List.filterMap_nil]
  cases hpending : progress.pendingCacheRetry with
  | some decision =>
      obtain ⟨target, number, -, -, ⟨latest, hlatest, -⟩, -⟩ := h.pending _ hpending
      rw [hnone] at hlatest
      cases hlatest
  | none =>
      rw [nextDecision, hpending, hprior] at hdecision
      exact decideAttempt_first hdecision

/-! ### The end of a call -/

/-- What an attempt of a call that is closed has to meet. -/
structure Meets (binding : ModelInvocationRuntimeBinding) (plan : ModelRoutePlan)
    (call : ProviderCall) : Prop where
  recordable : Recordable call.behaviour
  steady : binding.externalEffectObserved (.nextDecision call.attemptId.ordinal) = false →
    binding.externalEffectObserved (.failure call.attemptId.ordinal) = false ∧
      binding.externalEffectObserved (.admission (call.attemptId.ordinal + 1)) = false
  resolves : ∀ route ∈ plan.routes, binding.resolves (call.attemptId.ordinal + 1) route = true

/-- The invocation is closed with how the call ended after it called the provider, and nothing
was refused. -/
structure Closes (prepared : PreparedAuthority) (world : World) (calls : List ProviderCall)
    (lastError : Option ProviderError) (result : Except ModelInvocationError ModelResponse)
    (after : World) : Prop where
  refused : after.refused = world.refused
  concluded : match result with
    | .ok _ => ∃ terminal, Concluded prepared (.completed terminal) after
    | .error _ => ∃ terminal, Concluded prepared (.failed terminal) after
  returned : ∀ response, result = .ok response →
    ∃ call ∈ calls.getLast?, call.behaviour.ending = .ok response
  raised : ∀ error, result = .error error →
    (∃ call ∈ calls.getLast?, ∃ raised,
      call.behaviour.ending = .error raised ∧ error = .provider raised) ∨
      calls = [] ∧ ∃ reason, error = deniedError lastError reason

/-- How the attempts of a call end. -/
structure Attempted (entry : Entry) (prepared : PreparedAuthority) (world : World)
    (account : Account) (progress : Progress)
    (result : Except ModelInvocationError ModelResponse) (after : World) : Prop where
  proceeds : Proceeds entry prepared account progress →
    ∃ calls, after.calls = world.calls ++ calls ∧
      ((∀ call ∈ calls, Meets entry.binding prepared.routePlan call) →
        Closes prepared world calls progress.lastError result after)
  stuck : ¬ Proceeds entry prepared account progress →
    after.calls = world.calls ∧ after.journal.isTerminal = false

theorem Running.steady (h : Running entry prepared world account progress)
    (hmeets : ∀ call ∈ world.calls.getLast?, Meets entry.binding prepared.routePlan call)
    {last : Attempt} (hlast : account.attempts.getLast? = some last) :
    (∀ failure ∈ last.failed, failure.externalEffectObserved = false) ∧
      entry.binding.externalEffectObserved (.admission (account.attempts.length + 1)) = false ∧
      ∀ route ∈ prepared.routePlan.routes,
        entry.binding.resolves (account.attempts.length + 1) route = true := by
  obtain ⟨call, hcall, error, hid, -, -, hunobserved, hfailure⟩ := h.latest last hlast
  obtain ⟨-, hsteady, hresolves⟩ := hmeets call hcall
  rw [hid] at hsteady hresolves
  obtain ⟨hfailed, hadmission⟩ := hsteady hunobserved
  refine ⟨fun failure hmem => ?_, hadmission, hresolves⟩
  rw [hfailure failure hmem]
  exact hfailed

/-- A call that runs meets nothing that the store refuses. -/
theorem Running.proceeds (h : Running entry prepared world account progress)
    (hsorted : prepared.routePlan.SortedExclusions)
    (hmeets : ∀ call ∈ world.calls.getLast?, Meets entry.binding prepared.routePlan call) :
    Proceeds entry prepared account progress := by
  have heffect : ¬ (account.attempts ≠ [] ∧
      entry.binding.externalEffectObserved (.admission (account.attempts.length + 1))) := by
    rintro ⟨hsome, hobserved⟩
    have hlast := List.getLast?_eq_some_getLast hsome
    rw [(h.steady hmeets hlast).2.1] at hobserved
    cases hobserved
  obtain ⟨decision, hdecision, hadmit⟩ := h.decides entry
  rw [Proceeds, hdecision]
  cases decision with
  | deny reason =>
      refine ⟨?_, h.usage, h.recovering⟩
      rw [DenialAccepted, h.denial]
      exact ⟨hsorted, heffect⟩
  | admits deploymentId ordinal reason =>
      obtain ⟨rfl, hwithin, hgrounds⟩ := hadmit _ _ _ rfl
      constructor
      · apply routeRequest_of_resolves hwithin.route
        cases hlast : account.attempts.getLast? with
        | none =>
            exact .inl (h.first_route (List.getLast?_eq_none_iff.mp hlast) hdecision)
        | some last => exact .inr (h.steady hmeets hlast).2.2
      · refine ⟨⟨hsorted, h.denial, heffect, ?_⟩, ?_⟩
        · simp [h.recovering]
        · intro last hlast
          exact ⟨h.usage last (List.mem_of_getLast? hlast), fun _ => (h.steady hmeets hlast).1⟩

/-! ### The attempts -/

theorem attempts_le (h : Told prepared world account) :
    account.attempts.length ≤ prepared.routePlan.budget.maxAttempts := by
  obtain hnone | ⟨earlier, last, hattempts⟩ := List.eq_nil_or_concat account.attempts
  · simp [hnone]
  · rw [List.concat_eq_append] at hattempts
    have hlast := (h.coherent.history earlier last [] (by rw [hattempts])).attempts
    rw [hattempts, List.length_append, List.length_singleton]
    exact hlast

variable {fuel : Nat}

/-- A denial ends the call. -/
theorem attempted_denied (hready : Ready prepared world account progress)
    (hdecision : nextDecision entry.binding prepared.routePlan progress = .ok (.deny reason)) :
    Ensures (serve entry) (Sound prepared) (Attempted entry prepared world account progress)
      (attempts entry.binding prepared.routePlan (fuel + 1) progress) world := by
  have hproceeds : Proceeds entry prepared account progress ↔
      Deniable prepared.routePlan entry.binding account reason := by
    rw [Proceeds, hdecision]
  rw [attempts, hdecision, ofExcept_ok, done_bind, hready.prior]
  apply (ensures_denyAttempt hready.told hready.failed progress.lastError reason).mono
  rintro result after - ⟨hyes, hno⟩
  constructor
  · intro hpossible
    obtain ⟨rfl, hcalls, hsame, hconcluded⟩ := hyes (hproceeds.mp hpossible)
    refine ⟨[], by rw [hcalls, List.append_nil], fun _ => ⟨hsame, hconcluded, ?_, ?_⟩⟩
    · rintro response ⟨⟩
    · intro error herror
      exact .inr ⟨rfl, reason, (Except.error.inj herror).symm⟩
  · intro himpossible
    obtain ⟨-, hunderway, hcalls⟩ := hno fun hyes => himpossible (hproceeds.mpr hyes)
    exact ⟨hcalls, hunderway⟩

/-- A call that goes on after its latest attempt closes as its later attempts do. -/
theorem closes_of_later {called settled : World} {call : ProviderCall} {next : Progress}
    {calls : List ProviderCall} {lastError : Option ProviderError} {error : ProviderError}
    {result : Except ModelInvocationError ModelResponse} {after : World}
    (hending : call.behaviour.ending = .error error) (hlast : next.lastError = some error)
    (hsame : settled.refused = called.refused)
    (h : Closes prepared settled calls next.lastError result after) :
    Closes prepared called (call :: calls) lastError result after where
  refused := h.refused.trans hsame
  concluded := h.concluded
  returned := by
    intro response hresponse
    obtain ⟨found, hfound, hreturned⟩ := h.returned response hresponse
    refine ⟨found, ?_, hreturned⟩
    rw [List.getLast?_cons, Option.mem_def.mp hfound]
    rfl
  raised := by
    intro raised hraised
    rcases h.raised raised hraised with ⟨found, hfound, hsource⟩ | ⟨rfl, reason, rfl⟩
    · refine .inl ⟨found, ?_, hsource⟩
      rw [List.getLast?_cons, Option.mem_def.mp hfound]
      rfl
    · rw [hlast]
      exact .inl ⟨call, rfl, error, hending, rfl⟩

/-- What an attempt and the attempts after it come to is what the call comes to. -/
theorem attempted_of_called {called : World} {call : ProviderCall} {identity : AdmittedIdentity}
    {route : ModelRouteEntry} {behaviour : ProviderBehaviour} {given : Progress} (hproceeds : Proceeds entry prepared account progress)
    (hsorted : prepared.routePlan.SortedExclusions)
    (hnew : called.calls = world.calls ++ [call]) (hsame : called.refused = world.refused)
    (hsettles : Ensures (serve entry) (Sound prepared)
      (AttemptSettles entry prepared called account.attempts call)
      (settleAttempt entry.binding prepared.routePlan identity route behaviour given) called)
    (hrest : ∀ {after settled next}, Running entry prepared after
      { attempts := account.attempts ++ [settled] } next →
        Ensures (serve entry) (Sound prepared) (Attempted entry prepared after
          { attempts := account.attempts ++ [settled] } next)
          (attempts entry.binding prepared.routePlan fuel next) after) :
    Ensures (serve entry) (Sound prepared) (Attempted entry prepared world account progress)
      (settleAttempt entry.binding prepared.routePlan identity route behaviour given >>=
        fun next => match next with
          | .inl response => pure response
          | .inr progress => attempts entry.binding prepared.routePlan fuel progress) called := by
  apply hsettles.bind
  · rintro next after hsound ⟨hcalls, hsettled⟩
    rw [hnew] at hcalls
    cases next with
    | inl response =>
        obtain ⟨hending, hrecorded⟩ := hsettled
        refine ⟨hsound, fun _ => ⟨[call], hcalls, fun hmeets => ?_⟩, fun hnot =>
          absurd hproceeds hnot⟩
        obtain ⟨hrefused, hconcluded⟩ := hrecorded (hmeets call List.mem_cons_self).recordable
        refine ⟨hrefused.trans hsame, hconcluded, ?_, ?_⟩
        · intro found hfound
          exact ⟨call, rfl, hending.trans (congrArg Except.ok (Except.ok.inj hfound))⟩
        · rintro error ⟨⟩
    | inr next =>
        obtain ⟨hrefused, settled, hrunning⟩ := hsettled
        have hlatest : after.calls.getLast? = some call := by simp [hcalls]
        obtain ⟨found, hfound, error, -, hending, hlast, -⟩ :=
          hrunning.latest settled List.getLast?_concat
        rw [hlatest] at hfound
        obtain rfl := Option.some.inj hfound
        apply (hrest hrunning).mono
        rintro result final - hattempted
        refine ⟨fun _ => ?_, fun hnot => absurd hproceeds hnot⟩
        by_cases hnext : Proceeds entry prepared { attempts := account.attempts ++ [settled] } next
        · obtain ⟨calls, hfinal, hcloses⟩ := hattempted.proceeds hnext
          refine ⟨call :: calls, by simp [hfinal, hcalls], fun hmeets => ?_⟩
          have hlater := hcloses fun later hmem => hmeets later (List.mem_cons_of_mem _ hmem)
          exact closes_of_later hending hlast (hrefused.trans hsame) hlater
        · obtain ⟨hfinal, -⟩ := hattempted.stuck hnext
          refine ⟨[call], hfinal.trans hcalls, fun hmeets => absurd ?_ hnext⟩
          apply hrunning.proceeds hsorted
          rw [hlatest]
          rintro found ⟨⟩
          exact hmeets call List.mem_cons_self
  · rintro error after - ⟨hcalls, raised, hending, rfl, hrecorded⟩
    rw [hnew] at hcalls
    refine ⟨fun _ => ⟨[call], hcalls, fun hmeets => ?_⟩, fun hnot => absurd hproceeds hnot⟩
    obtain ⟨hrefused, hconcluded⟩ := hrecorded (hmeets call List.mem_cons_self).recordable
    refine ⟨hrefused.trans hsame, hconcluded, ?_, ?_⟩
    · rintro response ⟨⟩
    · intro error herror
      exact .inl ⟨call, rfl, raised, hending, (Except.error.inj herror).symm⟩

/-- A started attempt is called and settled. -/
theorem ensures_called {started : World} {deploymentId : String}
    {recovery : Option InvocationRecoveryRecord}
    {route : ModelRouteEntry} (hready : Ready prepared world account progress)
    (hsound : Sound prepared started) (hproceeds : Proceeds entry prepared account progress)
    (hsorted : prepared.routePlan.SortedExclusions)
    (hroute : routeRequest entry.binding prepared.routePlan deploymentId
      (account.attempts.length + 1) = .ok route)
    (hcalls : started.calls = world.calls) (hsame : started.refused = world.refused)
    (htold : Told prepared started { attempts := account.attempts ++ [startedAttempt entry.binding
      { account with recovering := recovery } deploymentId reason] })
    (hrest : ∀ {after settled next}, Running entry prepared after
      { attempts := account.attempts ++ [settled] } next →
        Ensures (serve entry) (Sound prepared) (Attempted entry prepared after
          { attempts := account.attempts ++ [settled] } next)
          (attempts entry.binding prepared.routePlan fuel next) after) :
    Ensures (serve entry) (Sound prepared) (Attempted entry prepared world account progress)
      (request (.invoke ⟨account.attempts.length + 1⟩ route) >>= fun behaviour =>
        settleAttempt entry.binding prepared.routePlan
          (nextIdentity account.attempts deploymentId) route behaviour { progress with
            recoveries := ({ account with recovering := recovery } : Account).recoveries } >>=
          fun next => match next with
            | .inl response => pure response
            | .inr progress => attempts entry.binding prepared.routePlan fuel progress) started := by
  obtain ⟨hmem, hdeployment⟩ := routeRequest_ok hroute
  obtain ⟨call, hcall⟩ : ∃ call : ProviderCall, call = ⟨⟨account.attempts.length + 1⟩, route,
      entry.binding.currentHandoff, entry.provider ⟨account.attempts.length + 1⟩ route⟩ := ⟨_, rfl⟩
  have htag : call.tag = (startedAttempt entry.binding { account with recovering := recovery }
      deploymentId reason).tag := by
    rw [hcall, ProviderCall.tag, hdeployment]
    rfl
  have huncalled : (started.calls.map (·.tag)).Sublist (account.attempts.map (·.tag)) :=
    hcalls ▸ hready.told.calls.called
  have hcalled := htold.called huncalled htag (by rw [hcall]; exact hmem)
  have hdispatched : (startedAttempt entry.binding { account with recovering := recovery }
      deploymentId reason).Dispatched := ⟨rfl, rfl, rfl⟩
  have hlatest : call ∈ (started.calls ++ [call]).getLast? := by simp
  obtain ⟨given, hgiven⟩ : ∃ given : Progress, given = { progress with
      recoveries := ({ account with recovering := recovery } : Account).recoveries } := ⟨_, rfl⟩
  have hprior : given.prior = outcomes account.attempts := by
    rw [hgiven]
    exact hready.prior
  have hrecoveries : given.recoveries =
      ({ attempts := account.attempts ++ [startedAttempt entry.binding
        { account with recovering := recovery } deploymentId reason] } : Account).recoveries := by
    rw [hgiven]
    have hkept := @recoveries_started { account with recovering := recovery } deploymentId reason
      entry.binding
    exact hkept.symm
  have hsettles : Ensures (serve entry) (Sound prepared) _ _ _ :=
    ensures_settleAttempt hcalled hdispatched hprior hrecoveries hlatest (by rw [hcall]; rfl)
      (by rw [hcall])
  rw [request_bind, ensures_await, ← hgiven]
  refine ⟨hsound, ?_⟩
  subst hcall
  exact attempted_of_called hproceeds hsorted (congrArg (· ++ _) hcalls) hsame hsettles hrest

/-- From what the journal tells on, a call takes attempts until it ends. -/
theorem ensures_attempts (hready : Ready prepared world account progress)
    (hfuel : prepared.routePlan.budget.maxAttempts < account.attempts.length + fuel) :
    Ensures (serve entry) (Sound prepared) (Attempted entry prepared world account progress)
      (attempts entry.binding prepared.routePlan fuel progress) world := by
  induction fuel generalizing world account progress with
  | zero => exact absurd (attempts_le hready.told) (Nat.not_le.mpr hfuel)
  | succ fuel ih =>
      obtain ⟨decision, hdecision, hadmit⟩ := hready.decides entry
      cases decision with
      | deny reason => exact attempted_denied hready hdecision
      | admits deploymentId ordinal reason =>
          obtain ⟨rfl, hwithin, hgrounds⟩ := hadmit _ _ _ rfl
          have hlength := outcomes_length hready.failed
          have hproceeds : Proceeds entry prepared account progress ↔
              (∃ route, routeRequest entry.binding prepared.routePlan deploymentId
                (account.attempts.length + 1) = .ok route) ∧
                Startable prepared.routePlan entry.binding account deploymentId reason := by
            rw [Proceeds, hdecision]
          rw [attempts, hdecision, ofExcept_ok, done_bind]
          dsimp only
          cases hroute : routeRequest entry.binding prepared.routePlan deploymentId
              (account.attempts.length + 1) with
          | error error =>
              refine ⟨.told _ hready.told, ?_, fun _ => ⟨rfl, hready.told.tells.underway⟩⟩
              rw [hproceeds, hroute]
              rintro ⟨⟨route, hnone⟩, -⟩
              cases hnone
          | ok route =>
              have hordinal : (admissionRecord entry.binding (.admits deploymentId
                  (account.attempts.length + 1) reason) progress.prior).admissionOrdinal =
                    account.attempts.length + 1 := by
                rw [hready.prior]
                exact congrArg (· + 1) hlength
              rw [ofExcept_ok, done_bind, hordinal]
              apply (ensures_startAttempt hready.told hready.failed hwithin hready.prior
                hready.recoveries hgrounds).bind
              · intro recoveries started hsound hstarts
                by_cases hstartable :
                    Startable prepared.routePlan entry.binding account deploymentId reason
                · obtain ⟨hcalls, hsame, recovery, hresult, htold⟩ := hstarts.started hstartable
                  obtain rfl := Except.ok.inj hresult
                  exact ensures_called hready hsound (hproceeds.mpr ⟨⟨route, hroute⟩, hstartable⟩)
                    hstartable.admissible.sorted hroute hcalls hsame htold fun hrunning =>
                      ih hrunning.toReady (by
                        rw [List.length_append, List.length_singleton]
                        omega)
                · obtain ⟨⟨id, herror⟩, -⟩ := hstarts.refused hstartable
                  cases herror
              · intro error after _ hstarts
                by_cases hstartable :
                    Startable prepared.routePlan entry.binding account deploymentId reason
                · obtain ⟨-, -, recovery, hresult, -⟩ := hstarts.started hstartable
                  cases hresult
                · obtain ⟨-, hunderway, hcalls⟩ := hstarts.refused hstartable
                  exact ⟨fun hyes => absurd (hproceeds.mp hyes).2 hstartable,
                    fun _ => ⟨hcalls, hunderway⟩⟩

end CopilotRuntime.ModelInvocation
