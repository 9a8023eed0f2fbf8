import CopilotRuntime.ModelInvocation.Admitting

/-!
# Starting another attempt

An attempt after the first one follows a recovery. An earlier entry may have
recorded that recovery already, and then it has to name the retry that is decided
now.
-/

namespace CopilotRuntime.ModelInvocation

open Foundation Foundation.Program EventJournalModelInvocationStore ModelInvocationMiddleware
open ModelAttemptAdmissionPolicy

variable {prepared : PreparedAuthority} {entry : Entry} {world : World} {account : Account}
  {attempts earlier : List Attempt} {last attempt : Attempt} {deploymentId : String}
  {reason : ModelAttemptDecisionReason}

/-- The attempt that would follow the attempts. -/
def nextIdentity (attempts : List Attempt) (deploymentId : String) : AdmittedIdentity :=
  ⟨⟨attempts.length + 1⟩, attempts.length + 1, deploymentId⟩

def dispatchingRecord (identity : AdmittedIdentity) : AttemptStateRecord where
  toAdmittedIdentity := identity
  state := .dispatching
  dispatchState := .unknown
  streamState := .notStarted

/-- Why another attempt is started. -/
inductive Grounds (world : World) (attempts : List Attempt) (deploymentId : String)
    (reason : ModelAttemptDecisionReason) : Prop
  | policy (admits : AdmitsRetry (outcomes attempts) deploymentId reason)
  | rejected (admits : AdmitsCacheRetry (outcomes attempts) deploymentId)
      (cache : reason = .safeCacheUndecoratedRetry)
      (call : ∃ call ∈ world.calls, call.attemptId = ⟨attempts.length⟩ ∧ call.RejectedCacheMetadata)

/-! ### Admitting -/

/-- The store accepts the admission of another attempt. -/
structure Admissible (plan : ModelRoutePlan) (binding : ModelInvocationRuntimeBinding)
    (account : Account) (deploymentId : String) (reason : ModelAttemptDecisionReason) : Prop where
  sorted : plan.SortedExclusions
  denial : account.denial = none
  effect : ¬ (account.attempts ≠ [] ∧
    binding.externalEffectObserved (.admission (account.attempts.length + 1)))
  recovery : ∀ last ∈ account.attempts.getLast?, ∀ recovery ∈ account.recovering,
    RecoveryMatches recovery.kind last.identity (nextIdentity account.attempts deploymentId) reason

/-- The new attempt with its first record. -/
def startedAttempt (binding : ModelInvocationRuntimeBinding) (account : Account)
    (deploymentId : String) (reason : ModelAttemptDecisionReason) : Attempt where
  identity := nextIdentity account.attempts deploymentId
  admission := admissionRecord binding
    (.admits deploymentId (account.attempts.length + 1) reason) (outcomes account.attempts)
  recovery := account.recovering
  states := [dispatchingRecord (nextIdentity account.attempts deploymentId)]

theorem admission_identity (hfailed : AllFailed attempts) (binding : ModelInvocationRuntimeBinding) :
    (admissionRecord binding (.admits deploymentId (attempts.length + 1) reason)
      (outcomes attempts)).admittedIdentity? = some (nextIdentity attempts deploymentId) := by
  simp [AttemptAdmissionRecord.admittedIdentity?, admissionRecord, outcomes_length hfailed,
    nextIdentity]

theorem admission_wellFormed (hfailed : AllFailed attempts)
    (binding : ModelInvocationRuntimeBinding) :
    (ModelInvocationRecord.attemptAdmission (admissionRecord binding
      (.admits deploymentId (attempts.length + 1) reason) (outcomes attempts))).WellFormed := by
  intro identity hidentity
  rw [admission_identity hfailed] at hidentity
  rw [← Option.some.inj hidentity]
  exact (congrArg (· + 1) (outcomes_length hfailed)).symm

section Admitting
variable (h : Told prepared world account) (hfailed : AllFailed account.attempts)
  (hwithin : AdmitsWithin prepared.routePlan (outcomes account.attempts) deploymentId
    (account.attempts.length + 1))
  (hrecovered : Recovered account.attempts account.recovering)
  (hfirst : account.attempts = [] → reason = .firstAttempt)
include h hfailed hwithin hrecovered hfirst

/-- The store accepts the admission exactly where the account allows it. -/
theorem valid_admission (entry : Entry) (hdenial : account.denial = none) :
    ValidNext world.journal (.attemptAdmission (admissionRecord entry.binding
      (.admits deploymentId (account.attempts.length + 1) reason) (outcomes account.attempts))) ↔
        Admissible prepared.routePlan entry.binding account deploymentId reason := by
  have hlength := outcomes_length hfailed
  have hordinal : (admissionRecord entry.binding (.admits deploymentId
      (account.attempts.length + 1) reason) (outcomes account.attempts)).admissionOrdinal =
        account.attempts.length + 1 := congrArg (· + 1) hlength
  have heffect : (admissionRecord entry.binding (.admits deploymentId (account.attempts.length + 1)
      reason) (outcomes account.attempts)).externalEffectObserved =
        entry.binding.externalEffectObserved (.admission (account.attempts.length + 1)) := by
    rw [admissionRecord, hlength]
  have hadmitted : ValidAdmitted (PlannedRecord.create prepared) world.journal
      (admissionRecord entry.binding (.admits deploymentId (account.attempts.length + 1) reason)
        (outcomes account.attempts)) ↔
      ∀ last ∈ account.attempts.getLast?, ∀ recovery ∈ account.recovering,
        RecoveryMatches recovery.kind last.identity (nextIdentity account.attempts deploymentId)
          reason := by
    obtain hnone | ⟨earlier, last, hattempts⟩ := List.eq_nil_or_concat account.attempts
    · have hvalid : ValidAdmitted (PlannedRecord.create prepared) world.journal
          (admissionRecord entry.binding (.admits deploymentId (account.attempts.length + 1) reason)
            (outcomes account.attempts)) := by
        apply h.tells.validAdmitted_first h.coherent hnone _ hwithin.route
        rw [hnone, hfirst hnone]
        rfl
      constructor
      · intro _
        simp [hnone]
      · intro _
        exact hvalid
    · rw [List.concat_eq_append] at hattempts
      have hlast : account.attempts.getLast? = some last := by simp [hattempts]
      have hsome := hrecovered
      rw [hattempts] at hsome
      obtain ⟨recovery, hrecovering, -⟩ := recovered_snoc.mp hsome
      have hattemptsLt := hwithin.attempts
      have hsameLt := hwithin.sameDeployment
      rw [hlength] at hattemptsLt
      rw [attemptsOn_outcomes hfailed] at hsameLt
      rw [h.tells.validAdmitted_retry h.coherent hlast hrecovering hordinal rfl hwithin.route
        hattemptsLt hsameLt, hlast, hrecovering]
      simp [nextIdentity]
  rw [h.tells.validAdmission_iff h.coherent hdenial hordinal hlength, hadmitted, heffect]
  constructor
  · rintro ⟨hsorted, heffect, hrecovery⟩
    exact ⟨hsorted, hdenial, heffect, hrecovery⟩
  · intro hadmissible
    exact ⟨hadmissible.sorted, hadmissible.effect, hadmissible.recovery⟩

omit h hfirst in
theorem continues_admitted (hsorted : prepared.routePlan.SortedExclusions)
    (binding : ModelInvocationRuntimeBinding) :
    Continues prepared.routePlan account.attempts
      ⟨nextIdentity account.attempts deploymentId, admissionRecord binding
        (.admits deploymentId (account.attempts.length + 1) reason) (outcomes account.attempts),
        account.recovering, [], none, none⟩ where
  sorted := hsorted
  numbered := {
    identity := ⟨rfl, rfl⟩
    admission := admission_identity hfailed binding
    states := by simp
    failed := by simp
    usage := by simp
    incomplete := by simp
    ambiguous := by simp
    progress := by simp
    ends := by simp
    visible := by simp }
  route := hwithin.route
  attempts := by
    have hattempts := hwithin.attempts
    rwa [outcomes_length hfailed] at hattempts
  sameDeployment := by
    have hsame := hwithin.sameDeployment
    rwa [attemptsOn_outcomes hfailed] at hsame
  recovered := hrecovered

/-- An admitted attempt is recorded with its dispatch. -/
theorem ensures_admitAttempt :
    Ensures (serve entry) (Sound prepared) (fun result after =>
      (Admissible prepared.routePlan entry.binding account deploymentId reason →
        result = .ok () ∧ after.calls = world.calls ∧ after.refused = world.refused ∧
          Told prepared after { attempts := account.attempts ++
            [startedAttempt entry.binding account deploymentId reason] }) ∧
        (¬ Admissible prepared.routePlan entry.binding account deploymentId reason →
          Refuses world result after))
      (appendRecord (.attemptAdmission (admissionRecord entry.binding
        (.admits deploymentId (account.attempts.length + 1) reason) (outcomes account.attempts))) >>=
        fun _ => appendRecord (.attemptState
          (dispatchingRecord (nextIdentity account.attempts deploymentId)))) world := by
  have hordinal : (admissionRecord entry.binding (.admits deploymentId
      (account.attempts.length + 1) reason) (outcomes account.attempts)).admissionOrdinal =
        account.attempts.length + 1 := congrArg (· + 1) (outcomes_length hfailed)
  have hadmission : Ensures (serve entry) (Sound prepared) (fun result after =>
      (Admissible prepared.routePlan entry.binding account deploymentId reason →
        result = .ok () ∧ after.calls = world.calls ∧ after.refused = world.refused ∧
          Told prepared after { attempts := account.attempts ++
            [⟨nextIdentity account.attempts deploymentId, admissionRecord entry.binding
              (.admits deploymentId (account.attempts.length + 1) reason)
              (outcomes account.attempts), account.recovering, [], none, none⟩] }) ∧
        (¬ Admissible prepared.routePlan entry.binding account deploymentId reason →
          Refuses world result after))
      (appendRecord (.attemptAdmission (admissionRecord entry.binding
        (.admits deploymentId (account.attempts.length + 1) reason) (outcomes account.attempts))))
      world := by
    cases hdenial : account.denial with
    | some denial =>
        have hinadmissible :
            ¬ Admissible prepared.routePlan entry.binding account deploymentId reason := by
          intro hadmissible
          rw [hadmissible.denial] at hdenial
          cases hdenial
        have hdenies := h.coherent.denial denial hdenial
        have hadmissions : denial ∈ world.journal.admissions := by
          rw [h.tells.admissions, hdenial]
          simp
        have hid : (ModelInvocationRecord.attemptAdmission denial).recordId =
            (ModelInvocationRecord.attemptAdmission (admissionRecord entry.binding
              (.admits deploymentId (account.attempts.length + 1) reason)
              (outcomes account.attempts))).recordId :=
          congrArg RecordId.attemptAdmission (hdenies.ordinal.trans hordinal.symm)
        apply ensures_appendRecord_held (.told _ h) (admission_wellFormed hfailed _) h.replays
          (find?_of_mem h.replays (Journal.mem_of_admissions hadmissions) hid)
        · intro hsame
          have hdenied := hdenies.denied
          rw [ModelInvocationRecord.attemptAdmission.inj hsame, AttemptAdmissionRecord.isDenied,
            admission_identity hfailed] at hdenied
          cases hdenied
        · intro _
          exact ⟨.told _ (h.refusing _), fun hyes => absurd hyes hinadmissible,
            fun _ => ⟨⟨_, rfl⟩, h.tells.underway, rfl⟩⟩
    | none =>
        have hvalid := valid_admission h hfailed hwithin hrecovered hfirst entry hdenial
        have hfresh : world.journal.Fresh (ModelInvocationRecord.attemptAdmission
            (admissionRecord entry.binding (.admits deploymentId (account.attempts.length + 1) reason)
              (outcomes account.attempts))).recordId := by
          rw [ModelInvocationRecord.recordId, hordinal]
          exact h.tells.fresh_admission h.coherent hdenial
        apply ensures_appendRecord (.told _ h) (admission_wellFormed hfailed _) h.replays hfresh
        · intro hnext
          have hadmissible := hvalid.mp hnext
          have htold := h.admits hdenial (continues_admitted hfailed hwithin hrecovered
            hadmissible.sorted entry.binding) hnext
          exact ⟨.told _ htold, fun _ => ⟨rfl, rfl, rfl, htold⟩, fun hnot =>
            absurd hadmissible hnot⟩
        · intro hno
          exact ⟨.told _ (h.refusing _), fun hyes => absurd (hvalid.mpr hyes) hno,
            fun _ => ⟨⟨_, rfl⟩, h.tells.underway, rfl⟩⟩
  apply hadmission.bind
  · rintro _ admitted - ⟨hyes, hno⟩
    by_cases hadmissible : Admissible prepared.routePlan entry.binding account deploymentId reason
    · obtain ⟨-, hcalls, hsame, htold⟩ := hyes hadmissible
      have hprogress :
          (dispatchingRecord (nextIdentity account.attempts deploymentId)).ProgressReconciles := by
        simp [AttemptStateRecord.ProgressReconciles, dispatchingRecord]
      have hprecedes : ∀ before ∈ ([] : List AttemptStateRecord),
          Precedes before.state ModelAttemptLifecycleState.dispatching := by simp
      apply (ensures_appendState htold rfl hprogress hprecedes rfl).mono
      rintro result after - ⟨rfl, rfl⟩
      refine ⟨fun _ => ⟨rfl, hcalls, hsame, ?_⟩, fun hnot => absurd hadmissible hnot⟩
      exact htold.stated rfl hprogress hprecedes rfl
    · obtain ⟨⟨id, herror⟩, -⟩ := hno hadmissible
      cases herror
  · rintro error after - ⟨hyes, hno⟩
    refine ⟨fun hadmissible => ?_, fun hinadmissible => ?_⟩
    · obtain ⟨herror, -⟩ := hyes hadmissible
      cases herror
    · obtain ⟨⟨id, herror⟩, hrest⟩ := hno hinadmissible
      rw [Except.error.inj herror]
      exact ⟨⟨id, rfl⟩, hrest⟩

end Admitting

/-! ### Recovering -/

/-- What the grounds of a retry say about the recovery it needs. -/
structure Warrants (world : World) (attempts : List Attempt) (last : Attempt)
    (failure : AttemptFailedRecord) (deploymentId : String) (reason : ModelAttemptDecisionReason)
    (kind : ModelRecoveryKind) : Prop where
  known : failure.failureClass ≠ .ambiguousProviderState
  agrees : ReasonMatches kind (some reason)
  names : RecoveryMatches kind last.identity (nextIdentity attempts deploymentId) reason
  followed : failure.externalEffectObserved = false → MayBeFollowed kind failure
  rejected : kind = .cacheUndecoratedRetry →
    ∃ call ∈ world.calls, call.attemptId = ⟨attempts.length⟩ ∧ call.RejectedCacheMetadata

variable {failure : AttemptFailedRecord}

/-- Nothing of a failure was visible whose stream showed no output. -/
theorem unseen_of_numbered {number : Nat} (h : last.Numbered number)
    (hfailure : last.failed = some failure)
    (hknown : failure.failureClass ≠ .ambiguousProviderState)
    (hstream : failure.streamState ≠ .visibleOutput) :
    failure.visibleTextEmitted = false ∧ failure.toolCallContentEmitted = false := by
  have hvisible := h.visible failure hfailure hknown
  constructor
  · by_contra htext
    exact hstream (hvisible (.inl (Bool.not_eq_false _ ▸ htext)))
  · by_contra htool
    exact hstream (hvisible (.inr (Bool.not_eq_false _ ▸ htool)))

variable {source : ModelAttemptOutcome}

theorem warrants_of_grounds {number : Nat} (hnumbered : last.Numbered number)
    (hfailure : last.failed = some failure) (hlatest : (outcomes attempts).getLast? = some source)
    (hsource : last.outcome = some source) (h : Grounds world attempts deploymentId reason) :
    Warrants world attempts last failure deploymentId reason
      (recoveryKind deploymentId reason source) := by
  obtain ⟨found, hfound, -, -, hdeployment, hclass, hstream⟩ := outcome_eq hsource
  rw [hfailure] at hfound
  obtain rfl := Option.some.inj hfound
  have hretried {kind : ModelRecoveryKind} (hkind : kind ≠ .cacheUndecoratedRetry)
      (hretry : retryDenial source = none) (hreason : ReasonMatches kind (some reason))
      (hnames : RecoveryMatches kind last.identity (nextIdentity attempts deploymentId) reason) :
      Warrants world attempts last failure deploymentId reason kind := by
    obtain ⟨hunseen, safe, hsafe, hsame⟩ := retryDenial_eq_none hretry
    rw [hclass] at hsame
    rw [← Option.some.inj hsame] at hsafe
    have hknown : failure.failureClass ≠ .ambiguousProviderState := by
      intro hambiguous
      rw [hambiguous] at hsafe
      exact absurd hsafe (by decide)
    obtain ⟨htext, htool⟩ := unseen_of_numbered hnumbered hfailure hknown (hstream ▸ hunseen)
    refine ⟨hknown, hreason, hnames, fun heffect => ⟨htext, htool, heffect, ?_⟩, fun hcache =>
      absurd hcache hkind⟩
    rw [if_neg hkind]
    exact hsafe
  cases h with
  | policy hadmits =>
      cases hadmits with
      | first hnone =>
          rw [hnone] at hlatest
          cases hlatest
      | same hlast hretry hdep =>
          rw [hlatest] at hlast
          obtain rfl := Option.some.inj hlast
          have hkind : recoveryKind deploymentId .safeSameDeploymentRetry source =
              .sameDeploymentRetry := by
            rw [recoveryKind, if_neg (by decide), if_pos hdep]
          rw [hkind]
          exact hretried (by decide) hretry rfl ⟨hdep.trans hdeployment, rfl⟩
      | alternate hlast hretry hdep =>
          rw [hlatest] at hlast
          obtain rfl := Option.some.inj hlast
          have hkind : recoveryKind deploymentId .safeAlternateRoute source = .alternateRoute := by
            rw [recoveryKind, if_neg (by decide), if_neg hdep]
          rw [hkind]
          exact hretried (by decide) hretry rfl ⟨fun hsame => hdep (hsame.trans hdeployment.symm), rfl⟩
  | rejected hadmits hcache hcall =>
      obtain ⟨latest, hlast, hunseen, hinvalid, hdep⟩ := hadmits
      rw [hlatest] at hlast
      obtain rfl := Option.some.inj hlast
      rw [hclass] at hinvalid
      have hinvalid := Option.some.inj hinvalid
      have hknown : failure.failureClass ≠ .ambiguousProviderState := by
        rw [hinvalid]
        decide
      obtain ⟨htext, htool⟩ := unseen_of_numbered hnumbered hfailure hknown (hstream ▸ hunseen)
      rw [recoveryKind, if_pos hcache]
      refine ⟨hknown, by rw [hcache]; rfl, ⟨hdep.trans hdeployment, hcache⟩, fun heffect => ?_,
        fun _ => hcall⟩
      exact ⟨htext, htool, heffect, by rw [if_pos rfl]; exact hinvalid⟩

/-- The recovery with which a retry starts. -/
def newRecovery (attempts : List Attempt) (deploymentId : String)
    (reason : ModelAttemptDecisionReason) (source : ModelAttemptOutcome) :
    InvocationRecoveryRecord where
  recoveryOrdinal := attempts.length
  sourceAttemptId := ⟨attempts.length⟩
  kind := recoveryKind deploymentId reason source
  outcome := .admitted
  decisionReason := some reason
  targetAttemptId := some ⟨attempts.length + 1⟩

theorem recoveryFor_first (recoveries : List InvocationRecoveryRecord) :
    recoveryFor deploymentId reason (outcomes []) recoveries = none := rfl

theorem latest_outcome (hfailed : AllFailed attempts) (hlast : attempts.getLast? = some last)
    (hsource : last.outcome = some source) :
    (outcomes attempts).getLast? = some source := by
  rw [outcomes_getLast? hfailed, hlast]
  exact hsource

theorem latest_id (h : Told prepared world account)
    (hlast : account.attempts.getLast? = some last) (hsource : last.outcome = some source) :
    source.attemptId = ⟨account.attempts.length⟩ := by
  obtain ⟨earlier, hattempts⟩ := List.getLast?_eq_some_iff.mp hlast
  obtain ⟨failure, -, hid, -⟩ := outcome_eq hsource
  have hnumbered := (h.coherent.history earlier last [] (by rw [hattempts])).numbered
  rw [hid, hnumbered.identity.1, hattempts, List.length_append, List.length_singleton]

section Last
variable {source : ModelAttemptOutcome} (h : Told prepared world account)
  (hfailed : AllFailed account.attempts) (hlast : account.attempts.getLast? = some last)
  (hsource : last.outcome = some source)
include h hfailed hlast hsource

/-- A recovery that waits for its attempt is not recorded again. -/
theorem recoveryFor_pending {recovery : InvocationRecoveryRecord}
    (hrecovering : account.recovering = some recovery) :
    recoveryFor deploymentId reason (outcomes account.attempts) account.recoveries = none := by
  have hrecovered := h.coherent.recovering recovery hrecovering
  obtain ⟨found, hfound, hof⟩ := recovered_some.mp hrecovered
  have hpending : account.recoveries.getLast? = some recovery := by
    simp [Account.recoveries, hrecovering]
  have hrecorded : ∃ latest ∈ account.recoveries.getLast?,
      latest.sourceAttemptId = source.attemptId ∧ latest.outcome = .admitted := by
    refine ⟨recovery, hpending, ?_, hof.outcome⟩
    rw [hof.fromAttempt, latest_id h hlast hsource]
  rw [recoveryFor, latest_outcome hfailed hlast hsource]
  exact if_pos hrecorded

theorem recoveryFor_new (hrecovering : account.recovering = none) :
    recoveryFor deploymentId reason (outcomes account.attempts) account.recoveries =
      some (newRecovery account.attempts deploymentId reason source) := by
  have hid := latest_id h hlast hsource
  have hlength : account.recoveries.length + 1 = account.attempts.length := by
    have hcount := length_recoveries h.coherent.history
    have hpos : 0 < account.attempts.length :=
      List.length_pos_iff.mpr (List.ne_nil_of_mem (List.mem_of_getLast? hlast))
    rw [Account.recoveries, hrecovering, Option.toList_none, List.append_nil, hcount]
    omega
  have hunrelated : ¬ ∃ latest ∈ account.recoveries.getLast?,
      latest.sourceAttemptId = source.attemptId ∧ latest.outcome = .admitted := by
    rintro ⟨latest, hlatest, hsame, -⟩
    have hmem := List.mem_of_getLast? hlatest
    rw [Account.recoveries, hrecovering, Option.toList_none, List.append_nil] at hmem
    obtain ⟨attempt, hattempt, hrecovery⟩ := List.mem_filterMap.mp hmem
    obtain ⟨number, hlt, -, found, -, -, hof⟩ :=
      recovery_of_mem h.coherent.history hattempt hrecovery
    rw [hof.fromAttempt, hid] at hsame
    exact absurd (AttemptId.mk.inj hsame) hlt.ne
  rw [recoveryFor, latest_outcome hfailed hlast hsource]
  apply (if_neg hunrelated).trans
  simp only [hlength, hid, outcomes_length hfailed, newRecovery]

end Last

/-! ### Starting -/

/-- The store accepts the recovery of a retry and its admission. -/
structure Startable (plan : ModelRoutePlan) (binding : ModelInvocationRuntimeBinding)
    (account : Account) (deploymentId : String) (reason : ModelAttemptDecisionReason) : Prop where
  admissible : Admissible plan binding account deploymentId reason
  recovery : ∀ last ∈ account.attempts.getLast?, last.usage.isSome ∧
    (account.recovering = none → ∀ failure ∈ last.failed, failure.externalEffectObserved = false)

/-- A retry is admitted by what its new recovery says. -/
theorem admissible_recovering {plan : ModelRoutePlan} {binding : ModelInvocationRuntimeBinding}
    {recovery : InvocationRecoveryRecord} (hlast : account.attempts.getLast? = some last)
    (hrecovering : account.recovering = none)
    (hnames : RecoveryMatches recovery.kind last.identity
      (nextIdentity account.attempts deploymentId) reason) :
    Admissible plan binding { account with recovering := some recovery } deploymentId reason ↔
      Admissible plan binding account deploymentId reason := by
  constructor
  · rintro ⟨hsorted, hdenial, heffect, -⟩
    exact ⟨hsorted, hdenial, heffect, by simp [hrecovering]⟩
  · rintro ⟨hsorted, hdenial, heffect, -⟩
    refine ⟨hsorted, hdenial, heffect, ?_⟩
    rintro found hfound _ ⟨⟩
    rw [hlast] at hfound
    obtain rfl := Option.some.inj hfound
    exact hnames

/-- The recovery of a retry is recorded where the failure before it may be followed. -/
theorem ensures_recordRecovery (h : Told prepared world account) (hlast : account.attempts.getLast? = some last)
    (hrecovering : account.recovering = none) (hfailure : last.failed = some failure)
    (hwarrants : Warrants world account.attempts last failure deploymentId reason
      (recoveryKind deploymentId reason source)) :
    Ensures (serve entry) (Sound prepared) (fun result after =>
      (last.usage.isSome ∧ failure.externalEffectObserved = false →
        result = .ok () ∧ after.calls = world.calls ∧ after.refused = world.refused ∧
          Told prepared after { account with
            recovering := some (newRecovery account.attempts deploymentId reason source) } ∧
          Recovered account.attempts
            (some (newRecovery account.attempts deploymentId reason source))) ∧
        (¬ (last.usage.isSome ∧ failure.externalEffectObserved = false) →
          Refuses world result after))
      (appendRecord (.recovery (newRecovery account.attempts deploymentId reason source)))
      world := by
  have hmem := List.mem_of_getLast? hlast
  obtain ⟨earlier, hattempts⟩ := List.getLast?_eq_some_iff.mp hlast
  have hid : last.id = ⟨account.attempts.length⟩ := by
    have hnumbered := (h.coherent.history earlier last [] (by rw [hattempts])).numbered
    rw [hnumbered.identity.1, hattempts, List.length_append, List.length_singleton]
  have hordinal : (newRecovery account.attempts deploymentId reason source).recoveryOrdinal =
      account.recoveries.length + 1 := by
    have hcount := length_recoveries h.coherent.history
    have hpos : 0 < account.attempts.length := List.length_pos_iff.mpr (List.ne_nil_of_mem hmem)
    rw [Account.recoveries, hrecovering, Option.toList_none, List.append_nil, hcount]
    exact (Nat.sub_add_cancel hpos).symm
  have hvalid := h.tells.validRecovery_iff h.coherent hmem hfailure hwarrants.known hordinal
    hid.symm rfl hwarrants.agrees
  have hformed : (ModelInvocationRecord.recovery
      (newRecovery account.attempts deploymentId reason source)).WellFormed := by
    have hkind : recoveryKind deploymentId reason source ≠ .crashReconciliation := by
      intro hkind
      unfold recoveryKind at hkind
      split_ifs at hkind
    have hreconciles :
        (newRecovery account.attempts deploymentId reason source).RecoveryReconciles := by
      simp [InvocationRecoveryRecord.RecoveryReconciles, newRecovery, hkind]
    exact hreconciles
  have hfresh := h.tells.fresh_recovery h.coherent hrecovering
  apply ensures_appendRecord (.told _ h) hformed h.replays hfresh
  · intro hnext
    obtain ⟨hfollowed, husage⟩ := hvalid.mp hnext
    have hrecovered : Recovered account.attempts
        (some (newRecovery account.attempts deploymentId reason source)) := by
      rw [recovered_some]
      refine ⟨last, hlast, rfl, rfl, rfl, rfl, ⟨by rw [hfailure]; rfl, husage⟩, ?_⟩
      exact ⟨failure, hfailure, hfollowed⟩
    have htold := h.recovers hrecovering hrecovered hnext hwarrants.rejected
    refine ⟨.told _ htold, fun _ => ⟨rfl, rfl, rfl, htold, hrecovered⟩, fun hnot => ?_⟩
    exact absurd ⟨husage, hfollowed.2.2.1⟩ hnot
  · intro hno
    refine ⟨.told _ (h.refusing _), ?_, fun _ => ⟨⟨_, rfl⟩, h.tells.underway, rfl⟩⟩
    rintro ⟨husage, heffect⟩
    exact absurd (hvalid.mpr ⟨hwarrants.followed heffect, husage⟩) hno

theorem recoveries_started (binding : ModelInvocationRuntimeBinding) :
    ({ attempts := account.attempts ++ [startedAttempt binding account deploymentId reason] } :
      Account).recoveries = account.recoveries := by
  simp [Account.recoveries, startedAttempt, filterMap_singleton]

/-- An attempt is started once its recovery is recorded. -/
theorem ensures_startRecovered (h : Told prepared world account)
    (hfailed : AllFailed account.attempts)
    (hwithin : AdmitsWithin prepared.routePlan (outcomes account.attempts) deploymentId
      (account.attempts.length + 1))
    (hrecovered : Recovered account.attempts account.recovering)
    (hfirst : account.attempts = [] → reason = .firstAttempt) :
    Ensures (serve entry) (Sound prepared) (fun result after =>
      (Admissible prepared.routePlan entry.binding account deploymentId reason →
        result = .ok account.recoveries ∧ after.calls = world.calls ∧
          after.refused = world.refused ∧ Told prepared after { attempts := account.attempts ++
            [startedAttempt entry.binding account deploymentId reason] }) ∧
        (¬ Admissible prepared.routePlan entry.binding account deploymentId reason →
          Refuses world result after))
      (appendRecord (.attemptAdmission (admissionRecord entry.binding
        (.admits deploymentId (account.attempts.length + 1) reason) (outcomes account.attempts))) >>=
        fun _ => appendRecord (.attemptState
          (dispatchingRecord (nextIdentity account.attempts deploymentId))) >>=
          fun _ => pure account.recoveries) world := by
  rw [← bind_bind]
  apply (ensures_admitAttempt h hfailed hwithin hrecovered hfirst).bind
  · rintro _ after hsound ⟨hyes, hno⟩
    refine ⟨hsound, fun hadmissible => ⟨rfl, (hyes hadmissible).2⟩, fun hinadmissible => ?_⟩
    obtain ⟨⟨id, herror⟩, -⟩ := hno hinadmissible
    cases herror
  · rintro error after - ⟨hyes, hno⟩
    refine ⟨fun hadmissible => ?_, fun hinadmissible => ?_⟩
    · obtain ⟨herror, -⟩ := hyes hadmissible
      cases herror
    · obtain ⟨⟨id, herror⟩, hrest⟩ := hno hinadmissible
      rw [Except.error.inj herror]
      exact ⟨⟨id, rfl⟩, hrest⟩

/-- How starting another attempt ends. -/
structure Starts (prepared : PreparedAuthority) (entry : Entry) (world : World) (account : Account)
    (deploymentId : String) (reason : ModelAttemptDecisionReason)
    (result : Except ModelInvocationError (List InvocationRecoveryRecord)) (after : World) :
    Prop where
  started : Startable prepared.routePlan entry.binding account deploymentId reason →
    after.calls = world.calls ∧ after.refused = world.refused ∧ ∃ recovery,
      result = .ok ({ account with recovering := recovery } : Account).recoveries ∧
        Told prepared after { attempts := account.attempts ++
          [startedAttempt entry.binding { account with recovering := recovery } deploymentId reason] }
  refused : ¬ Startable prepared.routePlan entry.binding account deploymentId reason →
    Refuses world result after

section Start
variable (h : Told prepared world account) (hfailed : AllFailed account.attempts)
  (hwithin : AdmitsWithin prepared.routePlan (outcomes account.attempts) deploymentId
    (account.attempts.length + 1)) {progress : Progress}
  (hprior : progress.prior = outcomes account.attempts)
  (hrecoveries : progress.recoveries = account.recoveries)
include h hfailed hwithin hprior hrecoveries

/-- The first attempt needs no recovery, and a recovery that waits for its attempt is kept. -/
theorem ensures_startPending
    (hnone : recoveryFor deploymentId reason (outcomes account.attempts) account.recoveries = none)
    (hrecovered : Recovered account.attempts account.recovering)
    (hfirst : account.attempts = [] → reason = .firstAttempt)
    (hstartable : Startable prepared.routePlan entry.binding account deploymentId reason ↔
      Admissible prepared.routePlan entry.binding account deploymentId reason) :
    Ensures (serve entry) (Sound prepared)
      (Starts prepared entry world account deploymentId reason)
      (startAttempt (admissionRecord entry.binding (.admits deploymentId
        (account.attempts.length + 1) reason) progress.prior)
        (nextIdentity account.attempts deploymentId) reason progress) world := by
  rw [startAttempt, hprior, hrecoveries]
  dsimp only [nextIdentity]
  rw [hnone, Option.toList_none, List.append_nil]
  apply (ensures_startRecovered h hfailed hwithin hrecovered hfirst).mono
  rintro result after - ⟨hyes, hno⟩
  constructor
  · intro hpossible
    obtain ⟨hresult, hcalls, hsame, htold⟩ := hyes (hstartable.mp hpossible)
    exact ⟨hcalls, hsame, account.recovering, hresult, htold⟩
  · intro himpossible
    exact hno fun hadmissible => himpossible (hstartable.mpr hadmissible)

/-- A retry that no recovery waits for records one. -/
theorem ensures_startNew {source : ModelAttemptOutcome} {failure : AttemptFailedRecord}
    (hlast : account.attempts.getLast? = some last) (hsource : last.outcome = some source)
    (hrecovering : account.recovering = none) (hfailure : last.failed = some failure)
    (hwarrants : Warrants world account.attempts last failure deploymentId reason
      (recoveryKind deploymentId reason source)) :
    Ensures (serve entry) (Sound prepared)
      (Starts prepared entry world account deploymentId reason)
      (startAttempt (admissionRecord entry.binding (.admits deploymentId
        (account.attempts.length + 1) reason) progress.prior)
        (nextIdentity account.attempts deploymentId) reason progress) world := by
  have hsome : account.attempts ≠ [] := List.ne_nil_of_mem (List.mem_of_getLast? hlast)
  have hnew : recoveryFor deploymentId reason (outcomes account.attempts) account.recoveries =
      some (newRecovery account.attempts deploymentId reason source) :=
    recoveryFor_new h hfailed hlast hsource hrecovering
  have hstartable : Startable prepared.routePlan entry.binding account deploymentId reason ↔
      Admissible prepared.routePlan entry.binding account deploymentId reason ∧
        last.usage.isSome ∧ failure.externalEffectObserved = false := by
    constructor
    · rintro ⟨hadmissible, hrecovery⟩
      obtain ⟨husage, heffect⟩ := hrecovery last hlast
      exact ⟨hadmissible, husage, heffect hrecovering failure hfailure⟩
    · rintro ⟨hadmissible, husage, heffect⟩
      refine ⟨hadmissible, ?_⟩
      intro found hfound
      rw [hlast] at hfound
      rw [← Option.some.inj hfound]
      refine ⟨husage, fun _ other hother => ?_⟩
      rw [hfailure] at hother
      rw [← Option.some.inj hother]
      exact heffect
  have hadmits : Admissible prepared.routePlan entry.binding { account with
      recovering := some (newRecovery account.attempts deploymentId reason source) } deploymentId
        reason ↔ Admissible prepared.routePlan entry.binding account deploymentId reason :=
    admissible_recovering hlast hrecovering hwarrants.names
  have hcollected : account.recoveries ++
      [newRecovery account.attempts deploymentId reason source] =
        ({ account with
          recovering := newRecovery account.attempts deploymentId reason source } :
            Account).recoveries := by
    simp [Account.recoveries, hrecovering]
  rw [startAttempt, hprior, hrecoveries]
  dsimp only [nextIdentity]
  rw [hnew, Option.toList_some, List.forM, bind_bind, hcollected]
  apply (ensures_recordRecovery h hlast hrecovering hfailure hwarrants).bind
  · rintro _ recovered - ⟨hyes, hno⟩
    by_cases hrecoverable : last.usage.isSome ∧ failure.externalEffectObserved = false
    · obtain ⟨-, hcalls, hsame, htold, hrecovered⟩ := hyes hrecoverable
      apply (ensures_startRecovered htold hfailed hwithin hrecovered
        fun hnone => absurd hnone hsome).mono
      rintro result after - ⟨hadmitted, hinadmissible⟩
      constructor
      · intro hpossible
        obtain ⟨hresult, hcalls', hsame', hstarted⟩ :=
          hadmitted (hadmits.mpr (hstartable.mp hpossible).1)
        exact ⟨hcalls'.trans hcalls, hsame'.trans hsame, _, hresult, hstarted⟩
      · intro himpossible
        obtain ⟨herror, hunderway, hcalls'⟩ := hinadmissible fun hadmissible =>
          himpossible (hstartable.mpr ⟨hadmits.mp hadmissible, hrecoverable⟩)
        exact ⟨herror, hunderway, hcalls'.trans hcalls⟩
    · obtain ⟨⟨id, herror⟩, -⟩ := hno hrecoverable
      cases herror
  · rintro error after - ⟨hyes, hno⟩
    by_cases hrecoverable : last.usage.isSome ∧ failure.externalEffectObserved = false
    · obtain ⟨herror, -⟩ := hyes hrecoverable
      cases herror
    · obtain ⟨⟨id, herror⟩, hrest⟩ := hno hrecoverable
      rw [Except.error.inj herror]
      exact ⟨fun hpossible => absurd (hstartable.mp hpossible).2 hrecoverable,
        fun _ => ⟨⟨id, rfl⟩, hrest⟩⟩

/-- A retry is started with its recovery and its admission, where the store accepts them. -/
theorem ensures_startAttempt (hgrounds : Grounds world account.attempts deploymentId reason) :
    Ensures (serve entry) (Sound prepared)
      (Starts prepared entry world account deploymentId reason)
      (startAttempt (admissionRecord entry.binding (.admits deploymentId
        (account.attempts.length + 1) reason) progress.prior)
        (nextIdentity account.attempts deploymentId) reason progress) world := by
  obtain hnone | ⟨earlier, last, hattempts⟩ := List.eq_nil_or_concat account.attempts
  · have hfirst : reason = .firstAttempt := by
      cases hgrounds with
      | policy hadmits =>
          cases hadmits with
          | first _ => rfl
          | same hlatest _ _ => simp [hnone, outcomes] at hlatest
          | alternate hlatest _ _ => simp [hnone, outcomes] at hlatest
      | rejected hadmits _ _ =>
          obtain ⟨latest, hlatest, -⟩ := hadmits
          simp [hnone, outcomes] at hlatest
    apply ensures_startPending h hfailed hwithin hprior hrecoveries
    · rw [hnone]
      exact recoveryFor_first _
    · cases hrecovering : account.recovering with
      | none => exact recovered_none.mpr hnone
      | some recovery => exact h.coherent.recovering recovery hrecovering
    · exact fun _ => hfirst
    · exact ⟨fun hyes => hyes.admissible, fun hyes => ⟨hyes, by simp [hnone]⟩⟩
  · rw [List.concat_eq_append] at hattempts
    have hlast : account.attempts.getLast? = some last := by simp [hattempts]
    have hmem := List.mem_of_getLast? hlast
    obtain ⟨failure, hfailure⟩ := Option.isSome_iff_exists.mp (hfailed last hmem)
    obtain ⟨source, hsource⟩ : ∃ source, last.outcome = some source := by
      rw [Attempt.outcome, hfailure]
      exact ⟨_, rfl⟩
    cases hrecovering : account.recovering with
    | some recovery =>
        have hrecovered := h.coherent.recovering recovery hrecovering
        obtain ⟨found, hfound, hof⟩ := recovered_some.mp hrecovered
        rw [hlast] at hfound
        obtain rfl := Option.some.inj hfound
        apply ensures_startPending h hfailed hwithin hprior hrecoveries
          (recoveryFor_pending h hfailed hlast hsource hrecovering)
        · rw [hrecovering]
          exact hrecovered
        · exact fun hnone => absurd hnone (List.ne_nil_of_mem hmem)
        · refine ⟨fun hyes => hyes.admissible, fun hyes => ⟨hyes, ?_⟩⟩
          intro other hother
          rw [hlast] at hother
          rw [← Option.some.inj hother]
          exact ⟨hof.settled.2, fun hnone => by rw [hrecovering] at hnone; cases hnone⟩
    | none =>
        have hwarrants := warrants_of_grounds (numbered_of_mem h.coherent.history hmem) hfailure
          (latest_outcome hfailed hlast hsource) hsource hgrounds
        exact ensures_startNew h hfailed hwithin hprior hrecoveries hlast hsource hrecovering
          hfailure hwarrants

end Start

end CopilotRuntime.ModelInvocation
