import CopilotRuntime.ModelInvocation.Resends

/-!
# Which journals an entry can go on from

An entry goes on from what earlier entries left if the store accepts the records
that its decision needs. The journal and the decision of the policy tell whether
it does.
-/

namespace CopilotRuntime.ModelInvocation

open Foundation Foundation.Program EventJournalModelInvocationStore ModelInvocationMiddleware

namespace Journal

/-- The denial after the last attempt. -/
def denial (journal : Journal) : Option AttemptAdmissionRecord :=
  journal.admissions.getLast?.filter (·.isDenied)

/-- The recovery whose attempt was never started. -/
def recovering (journal : Journal) : Option InvocationRecoveryRecord :=
  if UnresolvedRecovery journal then journal.recoveries.getLast? else none

/-- The attempts of which no failure is recorded. -/
def unfailed (journal : Journal) : List AdmittedIdentity :=
  journal.admitted.filter fun identity => identity.attemptId ∉ journal.failures.map (·.attemptId)

/-- All routes and exclusions of the plan are recorded. -/
def HoldsPlan (plan : ModelRoutePlan) (journal : Journal) : Prop :=
  journal.routes.length = plan.routes.length ∧ journal.exclusions.length = plan.exclusions.length

end Journal

/-- An external effect is seen when an attempt after the first one is admitted or denied. -/
def EffectSeen (binding : ModelInvocationRuntimeBinding) (journal : Journal) : Prop :=
  journal.admitted ≠ [] ∧
    binding.externalEffectObserved (.admission (journal.admitted.length + 1)) = true

/-- The journal lets the decision be recorded. A denial that it holds has to be the same one, and
a recovery that waits for its attempt has to name the retry that is decided. -/
def LetsRecord (binding : ModelInvocationRuntimeBinding) (plan : ModelRoutePlan) (journal : Journal) :
    ModelAttemptDecision → Prop
  | .deny reason =>
      journal.recovering = none ∧
        match journal.denial with
        | some denial => denial = admissionRecord binding (.deny reason) (priorOutcomes journal)
        | none => ¬ EffectSeen binding journal
  | .admits deploymentId ordinal reason =>
      (∃ route, routeRequest binding plan deploymentId ordinal = .ok route) ∧
        journal.denial = none ∧ ¬ EffectSeen binding journal ∧
        match journal.recovering with
        | some recovery => ∀ last ∈ journal.admitted.getLast?,
            RecoveryMatches recovery.kind last ⟨⟨ordinal⟩, ordinal, deploymentId⟩ reason
        | none => ∀ failure ∈ journal.failures.getLast?, failure.externalEffectObserved = false

/-- Every failed attempt has its usage, and the journal lets the next decision be recorded. -/
def Followable (binding : ModelInvocationRuntimeBinding) (plan : ModelRoutePlan)
    (journal : Journal) : Prop :=
  UsageCoversAttempts journal ∧
    ∃ decision, decideAttempt binding plan (priorOutcomes journal)
      (.decision journal.admitted.length) = .ok decision ∧ LetsRecord binding plan journal decision

/-- The journal is one that an entry can go on from: it is closed; or nothing is recorded yet; or
the whole plan is, the attempt under way was not recorded as cancelled, and failed attempts may
be followed. -/
def Resumable (binding : ModelInvocationRuntimeBinding) (plan : ModelRoutePlan)
    (journal : Journal) : Prop :=
  journal.isTerminal = true ∨ plan.SortedExclusions ∧
    (journal = [] ∧ Projectable plan ∨ journal ≠ [] ∧ journal.HoldsPlan plan ∧
      (∀ identity ∈ journal.unfailed, ∀ record ∈ statesOf journal identity.attemptId,
        record.state ≠ .cancelled) ∧
      (journal.unfailed = [] → Followable binding plan journal))

/-- The entry calls the provider once more, or ends the invocation and says so. -/
def Resumes (entry : Entry) (prepared : PreparedAuthority) (world : World) : Prop :=
  world.calls.length < (enter entry prepared world).2.calls.length ∨
    (enter entry prepared world).2.journal.isTerminal = true ∧
      ((enter entry prepared world).1 = .error .replayConflict ∨
        ∃ reason, (enter entry prepared world).1 = .error (.denied reason))

variable {prepared : PreparedAuthority} {entry : Entry} {world : World} {account : Account}
  {last : Attempt}

/-! ### What the journal tells -/

section Readings
variable (h : Told prepared world account)
include h

theorem Told.denial : world.journal.denial = account.denial := by
  rw [Journal.denial, h.tells.admissions]
  cases hdenial : account.denial with
  | some denial =>
      have hdenied := (h.coherent.denial denial hdenial).denied
      rw [Option.toList_some, List.getLast?_concat, Option.filter_some, if_pos hdenied]
  | none =>
      rw [Option.toList_none, List.append_nil, List.getLast?_map]
      cases hlast : account.attempts.getLast? with
      | none => rfl
      | some last =>
          have hadmission :=
            (numbered_of_mem h.coherent.history (List.mem_of_getLast? hlast)).admission
          have hadmitted : last.admission.isDenied = false := by
            rw [AttemptAdmissionRecord.isDenied, hadmission]
            rfl
          rw [Option.map_some, Option.filter_some, hadmitted]
          rfl

theorem Told.recovering : world.journal.recovering = account.recovering := by
  have hunresolved := h.tells.unresolvedRecovery_iff h.coherent
  rw [Journal.recovering, h.tells.recoveries, Account.recoveries]
  cases hrecovering : account.recovering with
  | some recovery =>
      rw [if_pos (hunresolved.mpr (by rw [hrecovering]; rfl)), Option.toList_some,
        List.getLast?_concat]
  | none =>
      rw [if_neg]
      rw [hunresolved, hrecovering]
      exact Bool.false_ne_true

theorem Told.holdsPlan : world.journal.HoldsPlan prepared.routePlan := by
  constructor
  · rw [h.tells.routes]
    simp [eligibleRecords]
  · rw [h.tells.exclusions]
    simp [excludedRecords]

theorem Told.ne_nil : world.journal ≠ [] := by
  intro hnone
  have hplanned := h.tells.planned
  rw [hnone] at hplanned
  cases hplanned

theorem Told.mem_unfailed {identity : AdmittedIdentity} :
    identity ∈ world.journal.unfailed ↔
      ∃ attempt ∈ account.attempts, attempt.failed = none ∧ attempt.identity = identity := by
  have hnone {attempt : Attempt} (hmem : attempt ∈ account.attempts) :
      attempt.identity.attemptId ∉ world.journal.failures.map (·.attemptId) ↔
        attempt.failed = none := by
    rw [← h.tells.no_failure_iff h.coherent hmem]
    simp only [List.mem_map, not_exists, not_and]
  rw [Journal.unfailed, h.tells.admitted h.coherent, List.mem_filter, decide_eq_true_eq]
  constructor
  · rintro ⟨hmem, hunfailed⟩
    obtain ⟨attempt, hattempt, rfl⟩ := List.mem_map.mp hmem
    exact ⟨attempt, hattempt, (hnone hattempt).mp hunfailed, rfl⟩
  · rintro ⟨attempt, hattempt, hunfailed, rfl⟩
    exact ⟨List.mem_map_of_mem hattempt, (hnone hattempt).mpr hunfailed⟩

theorem Told.unfailed_eq_nil : world.journal.unfailed = [] ↔ AllFailed account.attempts := by
  rw [List.eq_nil_iff_forall_not_mem]
  constructor
  · intro hnone attempt hmem
    rw [Option.isSome_iff_ne_none]
    exact fun hunfailed => hnone _ (h.mem_unfailed.mpr ⟨attempt, hmem, hunfailed, rfl⟩)
  · intro hfailed identity hidentity
    obtain ⟨attempt, hmem, hunfailed, -⟩ := h.mem_unfailed.mp hidentity
    have hsome := hfailed attempt hmem
    rw [hunfailed] at hsome
    cases hsome

/-- Only the last attempt may be without a failure. -/
theorem Told.unfailed_of_last (hlast : account.attempts.getLast? = some last)
    (hunderway : last.failed = none) {identity : AdmittedIdentity} :
    identity ∈ world.journal.unfailed ↔ identity = last.identity := by
  rw [h.mem_unfailed]
  constructor
  · rintro ⟨attempt, hmem, hunfailed, rfl⟩
    obtain ⟨earlier, hattempts⟩ := List.getLast?_eq_some_iff.mp hlast
    have hhistory := h.coherent.history
    rw [hattempts] at hhistory hmem
    rcases List.mem_append.mp hmem with hmem | hmem
    · have hsettled := (settled_of_history hhistory attempt hmem).1
      rw [hunfailed] at hsettled
      cases hsettled
    · rw [List.mem_singleton.mp hmem]
  · rintro rfl
    exact ⟨last, List.mem_of_getLast? hlast, hunderway, rfl⟩

theorem Told.sorted_of_attempt (hlast : account.attempts.getLast? = some last) :
    prepared.routePlan.SortedExclusions := by
  obtain ⟨earlier, hattempts⟩ := List.getLast?_eq_some_iff.mp hlast
  exact (h.coherent.history earlier last [] hattempts).sorted

theorem Told.effectSeen_iff (binding : ModelInvocationRuntimeBinding) :
    EffectSeen binding world.journal ↔
      account.attempts ≠ [] ∧
        binding.externalEffectObserved (.admission (account.attempts.length + 1)) = true := by
  rw [EffectSeen, h.tells.admitted h.coherent, List.length_map, Ne, List.map_eq_nil_iff]

theorem Told.last_failure (hfailed : AllFailed account.attempts) :
    world.journal.failures.getLast? = account.attempts.getLast?.bind (·.failed) := by
  rw [h.tells.failures]
  obtain hnone | ⟨earlier, last, hattempts⟩ := List.eq_nil_or_concat account.attempts
  · rw [hnone]
    rfl
  · rw [List.concat_eq_append] at hattempts
    obtain ⟨failure, hfailure⟩ := Option.isSome_iff_exists.mp
      (hfailed last (by simp [hattempts]))
    rw [hattempts, List.filterMap_append, List.filterMap_cons_some hfailure, List.filterMap_nil,
      List.getLast?_concat, List.getLast?_concat, Option.bind_some, hfailure]

theorem Told.metered_iff :
    UsageCoversAttempts world.journal ↔ ∀ last ∈ account.attempts.getLast?, last.usage.isSome := by
  rw [h.tells.usageCovers_iff h.coherent]
  constructor
  · intro hall last hlast
    exact hall last (List.mem_of_getLast? hlast)
  · intro hlast attempt hmem
    obtain hnone | ⟨earlier, last, hattempts⟩ := List.eq_nil_or_concat account.attempts
    · rw [hnone] at hmem
      cases hmem
    · rw [List.concat_eq_append] at hattempts
      have hhistory := h.coherent.history
      rw [hattempts] at hhistory hmem hlast
      rcases List.mem_append.mp hmem with hmem | hmem
      · exact (settled_of_history hhistory attempt hmem).2
      · rw [List.mem_singleton.mp hmem]
        exact hlast last List.getLast?_concat

/-! ### The next decision -/

/-- A denial is accepted as the journal lets it be recorded. -/
theorem Told.deniable_iff (reason : ModelAttemptDecisionReason) :
    Deniable prepared.routePlan entry.binding account reason ↔
      prepared.routePlan.SortedExclusions ∧ UsageCoversAttempts world.journal ∧
        LetsRecord entry.binding prepared.routePlan world.journal (.deny reason) := by
  have hprior : priorOutcomes world.journal = outcomes account.attempts :=
    h.tells.priorOutcomes h.coherent
  rw [LetsRecord, h.tells.usageCovers_iff h.coherent, h.denial, h.recovering, hprior,
    h.effectSeen_iff]
  cases hdenial : account.denial with
  | some denial =>
      have hsorted := (h.coherent.denial denial hdenial).sorted
      have haccepted : DenialAccepted prepared.routePlan entry.binding account reason ↔
          denial = admissionRecord entry.binding (.deny reason) (outcomes account.attempts) := by
        rw [DenialAccepted, hdenial]
      constructor
      · rintro ⟨hdenied, husage, hrecovering⟩
        exact ⟨hsorted, husage, hrecovering, haccepted.mp hdenied⟩
      · rintro ⟨-, husage, hrecovering, hsame⟩
        exact ⟨haccepted.mpr hsame, husage, hrecovering⟩
  | none =>
      have haccepted : DenialAccepted prepared.routePlan entry.binding account reason ↔
          prepared.routePlan.SortedExclusions ∧ ¬ (account.attempts ≠ [] ∧
            entry.binding.externalEffectObserved (.admission (account.attempts.length + 1))) := by
        rw [DenialAccepted, hdenial]
      constructor
      · rintro ⟨hdenied, husage, hrecovering⟩
        obtain ⟨hsorted, heffect⟩ := haccepted.mp hdenied
        exact ⟨hsorted, husage, hrecovering, heffect⟩
      · rintro ⟨hsorted, husage, hrecovering, heffect⟩
        exact ⟨haccepted.mpr ⟨hsorted, heffect⟩, husage, hrecovering⟩

/-- A retry is started as the journal lets it be recorded. -/
theorem Told.startable_iff (hfailed : AllFailed account.attempts) {deploymentId : String}
    {reason : ModelAttemptDecisionReason} :
    (∃ route, routeRequest entry.binding prepared.routePlan deploymentId
        (account.attempts.length + 1) = .ok route) ∧
      Startable prepared.routePlan entry.binding account deploymentId reason ↔
      prepared.routePlan.SortedExclusions ∧ UsageCoversAttempts world.journal ∧
        LetsRecord entry.binding prepared.routePlan world.journal
          (.admits deploymentId (account.attempts.length + 1) reason) := by
  have hlast : world.journal.admitted.getLast? = account.attempts.getLast?.map (·.identity) := by
    rw [h.tells.admitted h.coherent, List.getLast?_map]
  rw [LetsRecord, h.metered_iff, h.denial, h.recovering, h.effectSeen_iff, hlast,
    h.last_failure hfailed]
  cases hrecovering : account.recovering with
  | some recovery =>
      constructor
      · rintro ⟨hroute, ⟨hsorted, hdenial, heffect, hmatches⟩, hrecovery⟩
        refine ⟨hsorted, fun last hmem => (hrecovery last hmem).1, hroute, hdenial, heffect, ?_⟩
        intro identity hidentity
        obtain ⟨last, hmem, rfl⟩ := Option.map_eq_some_iff.mp hidentity
        exact hmatches last hmem recovery hrecovering
      · rintro ⟨hsorted, husage, hroute, hdenial, heffect, hmatches⟩
        refine ⟨hroute, ⟨hsorted, hdenial, heffect, ?_⟩, fun last hmem => ⟨husage last hmem, ?_⟩⟩
        · intro last hmem found hfound
          rw [hrecovering] at hfound
          obtain rfl := Option.some.inj hfound
          exact hmatches last.identity (Option.map_eq_some_iff.mpr ⟨last, hmem, rfl⟩)
        · intro hnone
          rw [hrecovering] at hnone
          cases hnone
  | none =>
      constructor
      · rintro ⟨hroute, ⟨hsorted, hdenial, heffect, -⟩, hrecovery⟩
        refine ⟨hsorted, fun last hmem => (hrecovery last hmem).1, hroute, hdenial, heffect, ?_⟩
        intro failure hfailure
        obtain ⟨last, hmem, hfailure⟩ := Option.bind_eq_some_iff.mp hfailure
        exact (hrecovery last hmem).2 hrecovering failure hfailure
      · rintro ⟨hsorted, husage, hroute, hdenial, heffect, heffects⟩
        refine ⟨hroute, ⟨hsorted, hdenial, heffect, by simp [hrecovering]⟩, fun last hmem =>
          ⟨husage last hmem, fun _ failure hfailure => heffects failure ?_⟩⟩
        exact Option.bind_eq_some_iff.mpr ⟨last, hmem, hfailure⟩

/-- The store accepts what the policy decides exactly when the journal may be followed. -/
theorem Told.proceeds_iff (hfailed : AllFailed account.attempts) :
    Proceeds entry prepared account
      { prior := outcomes account.attempts, recoveries := account.recoveries } ↔
        prepared.routePlan.SortedExclusions ∧
          Followable entry.binding prepared.routePlan world.journal := by
  obtain ⟨decision, hdecision, hadmit⟩ := (h.ready hfailed).decides entry
  have hprior : priorOutcomes world.journal = outcomes account.attempts :=
    h.tells.priorOutcomes h.coherent
  have hlength : world.journal.admitted.length = (outcomes account.attempts).length := by
    rw [h.tells.admitted h.coherent, List.length_map, outcomes_length hfailed]
  have hdecides : decideAttempt entry.binding prepared.routePlan (priorOutcomes world.journal)
      (.decision world.journal.admitted.length) = .ok decision := by
    rw [hprior, hlength]
    exact hdecision
  have hfollowable : Followable entry.binding prepared.routePlan world.journal ↔
      UsageCoversAttempts world.journal ∧
        LetsRecord entry.binding prepared.routePlan world.journal decision := by
    rw [Followable]
    apply and_congr_right'
    constructor
    · rintro ⟨found, hfound, hlets⟩
      rw [hdecides] at hfound
      rw [Except.ok.inj hfound]
      exact hlets
    · exact fun hlets => ⟨decision, hdecides, hlets⟩
  rw [Proceeds, hdecision, hfollowable]
  cases decision with
  | deny reason => exact h.deniable_iff reason
  | admits deploymentId ordinal reason =>
      obtain ⟨rfl, -⟩ := hadmit _ _ _ rfl
      exact h.startable_iff hfailed

end Readings

/-! ### Resuming -/

theorem Refuses.not_resumes (h : Refuses world (enter entry prepared world).1
    (enter entry prepared world).2) : ¬ Resumes entry prepared world := by
  obtain ⟨-, hunderway, hcalls⟩ := h
  rintro (hmore | ⟨hterminal, -⟩)
  · rw [hcalls] at hmore
    exact absurd hmore (Nat.lt_irrefl _)
  · rw [hunderway] at hterminal
    cases hterminal

theorem Attempted.resumes_iff {found : World} {progress : Progress}
    (h : Attempted entry prepared found account progress (enter entry prepared world).1
      (enter entry prepared world).2) (hcalls : found.calls = world.calls)
    (hlast : progress.lastError = none) :
    Resumes entry prepared world ↔ Proceeds entry prepared account progress := by
  constructor
  · intro hresumes
    by_contra hstuck
    obtain ⟨hsame, hunderway⟩ := h.stuck hstuck
    rcases hresumes with hmore | ⟨hterminal, -⟩
    · rw [hsame, hcalls] at hmore
      exact absurd hmore (Nat.lt_irrefl _)
    · rw [hunderway] at hterminal
      cases hterminal
  · intro hproceeds
    obtain ⟨calls, hmade, hcloses⟩ := h.proceeds hproceeds
    cases calls with
    | cons call rest =>
        left
        rw [hmade, hcalls]
        simp
    | nil =>
        right
        obtain ⟨-, hconcluded, hreturned, hraised⟩ := hcloses (by rintro call ⟨⟩)
        cases hresult : (enter entry prepared world).1 with
        | ok response =>
            obtain ⟨call, hcall, -⟩ := hreturned response hresult
            cases hcall
        | error error =>
            rw [hresult] at hconcluded
            obtain ⟨terminal, hterminal⟩ := hconcluded
            refine ⟨hterminal.isTerminal, .inr ?_⟩
            rcases hraised error hresult with ⟨call, hcall, -⟩ | ⟨-, reason, rfl⟩
            · cases hcall
            · rw [hlast]
              exact ⟨reason, rfl⟩

theorem Told.resumable_iff (h : Told prepared world account) (hfailed : AllFailed account.attempts)
    (binding : ModelInvocationRuntimeBinding) :
    Resumable binding prepared.routePlan world.journal ↔
      prepared.routePlan.SortedExclusions ∧
        Followable binding prepared.routePlan world.journal := by
  have hunfailed := h.unfailed_eq_nil.mpr hfailed
  rw [Resumable, hunfailed, h.tells.underway]
  constructor
  · rintro (hterminal | ⟨hsorted, ⟨hnone, -⟩ | ⟨-, -, -, hfollowable⟩⟩)
    · cases hterminal
    · exact absurd hnone h.ne_nil
    · exact ⟨hsorted, hfollowable rfl⟩
  · rintro ⟨hsorted, hfollowable⟩
    exact .inr ⟨hsorted, .inr ⟨h.ne_nil, h.holdsPlan, by simp, fun _ => hfollowable⟩⟩

/-- An attempt under way may be closed unless it was recorded as cancelled. -/
theorem Told.resumable_underway (h : Told prepared world account)
    (hlast : account.attempts.getLast? = some last) (hunderway : last.failed = none)
    (binding : ModelInvocationRuntimeBinding) :
    Resumable binding prepared.routePlan world.journal ↔ ¬ last.Cancelled := by
  have hstates : statesOf world.journal last.identity.attemptId = last.states :=
    h.tells.statesOf h.coherent (List.mem_of_getLast? hlast)
  have hunfailed : last.identity ∈ world.journal.unfailed :=
    (h.unfailed_of_last hlast hunderway).mpr rfl
  rw [Resumable, h.tells.underway]
  constructor
  · rintro (hterminal | ⟨-, ⟨hnone, -⟩ | ⟨-, -, huncancelled, -⟩⟩) ⟨record, hmem, hcancelled⟩
    · cases hterminal
    · exact h.ne_nil hnone
    · exact huncancelled last.identity hunfailed record (hstates ▸ hmem) hcancelled
  · intro huncancelled
    refine .inr ⟨h.sorted_of_attempt hlast, .inr ⟨h.ne_nil, h.holdsPlan, ?_, fun hnone => ?_⟩⟩
    · intro identity hidentity record hmem hcancelled
      rw [(h.unfailed_of_last hlast hunderway).mp hidentity, hstates] at hmem
      exact huncancelled ⟨record, hmem, hcancelled⟩
    · rw [hnone] at hunfailed
      cases hunfailed

theorem PartlyPlanned.not_resumable (h : PartlyPlanned prepared world.journal)
    (binding : ModelInvocationRuntimeBinding) :
    ¬ Resumable binding prepared.routePlan world.journal := by
  rintro (hterminal | ⟨-, ⟨hnone, -⟩ | ⟨-, hholds, -⟩⟩)
  · rw [h.underway] at hterminal
    cases hterminal
  · have hplanned := h.planned
    rw [hnone] at hplanned
    cases hplanned
  · exact h.incomplete hholds

theorem resumable_nil (binding : ModelInvocationRuntimeBinding) (plan : ModelRoutePlan) :
    Resumable binding plan [] ↔ plan.SortedExclusions ∧ Projectable plan := by
  constructor
  · rintro (hterminal | ⟨hsorted, ⟨-, hprojectable⟩ | ⟨hsome, -⟩⟩)
    · cases hterminal
    · exact ⟨hsorted, hprojectable⟩
    · exact absurd rfl hsome
  · rintro ⟨hsorted, hprojectable⟩
    exact .inr ⟨hsorted, .inl ⟨rfl, hprojectable⟩⟩

/-- The first attempt of a plan is started or denied, if its exclusions are in order. -/
theorem Told.proceeds_first (h : Told prepared world { attempts := [] }) :
    Proceeds entry prepared { attempts := [] } { prior := [], recoveries := [] } ↔
      prepared.routePlan.SortedExclusions := by
  have hfailed : AllFailed [] := by
    rintro attempt ⟨⟩
  have hready := h.ready hfailed
  constructor
  · exact fun hproceeds => ((h.proceeds_iff hfailed).mp hproceeds).1
  · intro hsorted
    obtain ⟨decision, hdecision, hadmit⟩ := hready.decides entry
    have hnext : nextDecision entry.binding prepared.routePlan { prior := [], recoveries := [] } =
        .ok decision := hdecision
    rw [Proceeds, hnext]
    cases decision with
    | deny reason =>
        refine ⟨⟨hsorted, ?_⟩, ?_, rfl⟩
        · rintro ⟨hsome, -⟩
          exact hsome rfl
        · rintro attempt ⟨⟩
    | admits deploymentId ordinal reason =>
        obtain ⟨rfl, hwithin, -⟩ := hadmit _ _ _ rfl
        refine ⟨routeRequest_of_resolves hwithin.route (.inl (decideAttempt_first hdecision)),
          ⟨hsorted, rfl, ?_, ?_⟩, ?_⟩
        · rintro ⟨hsome, -⟩
          exact hsome rfl
        · rintro last ⟨⟩
        · rintro last ⟨⟩

/-- Whatever the entries before it left, an entry goes on to a further attempt or closes the
invocation exactly when the journal is one that it can go on from. -/
theorem resumes_iff_resumable (h : Reachable prepared world) (entry : Entry) :
    Resumes entry prepared world ↔
      Resumable entry.binding prepared.routePlan world.journal := by
  cases enter_entered h entry with
  | unprojectable hjournal hinvalid hcalls hunderway =>
      rw [hjournal, resumable_nil]
      constructor
      · rintro (hmore | ⟨hterminal, -⟩)
        · rw [hcalls] at hmore
          exact absurd hmore (Nat.lt_irrefl _)
        · rw [hunderway] at hterminal
          cases hterminal
      · rintro ⟨-, hprojectable⟩
        exact absurd hprojectable hinvalid
  | planned recorded hjournal hprojectable hcalls hrefused htold hattempted =>
      rw [hattempted.resumes_iff hcalls rfl, htold.proceeds_first, hjournal, resumable_nil]
      exact (and_iff_left hprojectable).symm
  | partly hplanned hrefuses =>
      exact iff_of_false hrefuses.not_resumes (hplanned.not_resumable entry.binding)
  | cancelled account last htold hlast hunderway hcancelled hrefuses =>
      apply iff_of_false hrefuses.not_resumes
      rw [htold.resumable_underway hlast hunderway]
      exact fun huncancelled => huncancelled hcancelled
  | abandoned account last htold hlast hunderway huncancelled habandons =>
      obtain ⟨hresult, hterminal, -⟩ := habandons
      apply iff_of_true (.inr ⟨hterminal, .inl hresult⟩)
      exact (htold.resumable_underway hlast hunderway entry.binding).mpr huncancelled
  | attempted account htold hfailed hattempted =>
      rw [hattempted.resumes_iff rfl rfl, htold.proceeds_iff hfailed,
        htold.resumable_iff hfailed]
  | closed hterminal hresult hsame =>
      apply iff_of_true _ (.inl hterminal)
      refine .inr ⟨?_, .inl hresult⟩
      rw [hsame]
      exact hterminal

/-- The first entry stopped once the plan's first record was appended. -/
def stoppedPlanning : World :=
  (runFor (serve (answering limited)) 2 (entered (answering limited) soleAuthority) .empty).2

theorem stoppedPlanning_reachable : Reachable soleAuthority stoppedPlanning := .entry _ 2 .empty

theorem resumes_iff_resumable_stopped :
    Resumes (answering limited) soleAuthority stoppedPlanning ↔
      Resumable soleBinding soleAuthority.routePlan stoppedPlanning.journal :=
  resumes_iff_resumable stoppedPlanning_reachable (answering limited)

/-- A plan without its routes is never gone on from. -/
theorem stoppedPlanning_stuck : Reachable soleAuthority stoppedPlanning ∧
    (enter (answering limited) soleAuthority stoppedPlanning).1 =
      .error (.journal (.conflict (.attemptAdmission 1))) ∧
    ¬ Resumes (answering limited) soleAuthority stoppedPlanning := by
  have hstuck : (enter (answering limited) soleAuthority stoppedPlanning).2.calls = [] ∧
      (enter (answering limited) soleAuthority stoppedPlanning).2.journal.isTerminal = false := by
    constructor
    · exact List.eq_nil_of_length_eq_zero (by decide)
    · decide
  refine ⟨stoppedPlanning_reachable, by rfl, ?_⟩
  rintro (hmore | ⟨hterminal, -⟩)
  · rw [hstuck.1] at hmore
    exact absurd hmore (Nat.not_lt_zero _)
  · rw [hstuck.2] at hterminal
    cases hterminal

end CopilotRuntime.ModelInvocation
