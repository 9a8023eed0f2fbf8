import CopilotRuntime.ModelInvocation.PolicyLaws
import CopilotRuntime.ModelInvocation.Reconciling

/-!
# Admitting or denying another attempt

Once all attempts of an invocation have failed, the policy decides on another
one. What the journal tells of the attempts decides whether the store accepts
the records of that decision.
-/

namespace CopilotRuntime.ModelInvocation

open Foundation Foundation.Program EventJournalModelInvocationStore ModelInvocationMiddleware
open ModelAttemptAdmissionPolicy

variable {prepared : PreparedAuthority} {entry : Entry} {world : World} {account : Account}
  {attempts earlier : List Attempt} {last attempt : Attempt}

/-! ### The outcomes of failed attempts -/

/-- All attempts failed. -/
def AllFailed (attempts : List Attempt) : Prop := ∀ attempt ∈ attempts, attempt.failed.isSome

/-- What the policy is told of the attempts. -/
def outcomes (attempts : List Attempt) : List ModelAttemptOutcome :=
  attempts.filterMap (·.outcome)

/-- Of every failed attempt there is an outcome with the same values. -/
theorem outcomes_map {α : Type} {f : ModelAttemptOutcome → α} {g : Attempt → α}
    (hfailed : AllFailed attempts)
    (hsame : ∀ attempt outcome, attempt.outcome = some outcome → f outcome = g attempt) :
    (outcomes attempts).map f = attempts.map g := by
  induction attempts with
  | nil => rfl
  | cons attempt rest ih =>
      obtain ⟨failure, hfailure⟩ := Option.isSome_iff_exists.mp
        (hfailed attempt List.mem_cons_self)
      have hrest := ih fun later hmem => hfailed later (List.mem_cons_of_mem _ hmem)
      have hsome : ∃ outcome, attempt.outcome = some outcome := by
        rw [Attempt.outcome, hfailure]
        exact ⟨_, rfl⟩
      obtain ⟨outcome, houtcome⟩ := hsome
      rw [outcomes, List.filterMap_cons_some houtcome, List.map_cons, List.map_cons,
        hsame attempt outcome houtcome]
      exact congrArg _ hrest

theorem outcome_eq {outcome : ModelAttemptOutcome} (h : attempt.outcome = some outcome) :
    ∃ failure, attempt.failed = some failure ∧ outcome.attemptId = attempt.id ∧
      outcome.ordinal = attempt.identity.attemptOrdinal ∧
      outcome.deploymentId = attempt.identity.deploymentId ∧
      outcome.failureClass = some failure.failureClass ∧
      outcome.streamState = failure.streamState := by
  obtain ⟨failure, hfailure, rfl⟩ := Option.map_eq_some_iff.mp h
  exact ⟨failure, hfailure, rfl, rfl, rfl, rfl, rfl⟩

theorem outcomes_length (hfailed : AllFailed attempts) :
    (outcomes attempts).length = attempts.length := by
  have hunits : (outcomes attempts).map (fun _ => ()) = attempts.map fun _ => () :=
    outcomes_map hfailed fun _ _ _ => rfl
  simpa using congrArg List.length hunits

theorem outcomes_ids (hfailed : AllFailed attempts) :
    (outcomes attempts).map (·.attemptId) = attempts.map (·.id) := by
  apply outcomes_map hfailed
  intro attempt outcome houtcome
  obtain ⟨failure, -, hid, -⟩ := outcome_eq houtcome
  exact hid

theorem outcomes_ordinals {plan : ModelRoutePlan} (hhistory : EachStep (Continues plan) attempts)
    (hfailed : AllFailed attempts) :
    (outcomes attempts).map (·.ordinal) = List.range' 1 (outcomes attempts).length := by
  rw [outcomes_length hfailed, ← ordinals_of_history hhistory]
  apply outcomes_map hfailed
  intro attempt outcome houtcome
  obtain ⟨failure, -, -, hordinal, -⟩ := outcome_eq houtcome
  exact hordinal

theorem attemptsOn_outcomes (hfailed : AllFailed attempts) (deploymentId : String) :
    attemptsOn deploymentId (outcomes attempts) =
      attempts.countP fun attempt => attempt.identity.deploymentId = deploymentId := by
  have hids : (outcomes attempts).map (·.deploymentId) =
      attempts.map (·.identity.deploymentId) := by
    apply outcomes_map hfailed
    intro attempt outcome houtcome
    obtain ⟨failure, -, -, -, hdeployment, -⟩ := outcome_eq houtcome
    exact hdeployment
  have hcount := congrArg (List.countP fun id => decide (id = deploymentId)) hids
  rw [List.countP_map, List.countP_map] at hcount
  exact hcount

/-- The outcome of the last attempt is the policy's latest one. -/
theorem outcomes_getLast? (hfailed : AllFailed attempts) :
    (outcomes attempts).getLast? = attempts.getLast?.bind (·.outcome) := by
  obtain rfl | ⟨earlier, last, rfl⟩ := List.eq_nil_or_concat attempts
  · rfl
  · rw [List.concat_eq_append, outcomes, List.filterMap_append, filterMap_singleton,
      List.getLast?_concat, Option.bind_some]
    obtain ⟨failure, hfailure⟩ := Option.isSome_iff_exists.mp (hfailed last (by simp))
    have hsome : ∃ outcome, last.outcome = some outcome := by
      rw [Attempt.outcome, hfailure]
      exact ⟨_, rfl⟩
    obtain ⟨outcome, houtcome⟩ := hsome
    rw [houtcome, Option.toList_some, List.getLast?_concat]

/-- What the usage of the attempts adds up to. -/
theorem outcomes_sum {f : ModelAttemptOutcome → Nat} {g : AttemptUsageRecord → Nat}
    (hfailed : AllFailed attempts)
    (hsame : ∀ (attempt : Attempt) outcome, attempt.outcome = some outcome →
      f outcome = (attempt.usage.map g).getD 0) :
    ((outcomes attempts).map f).sum = ((attempts.filterMap (·.usage)).map g).sum := by
  rw [outcomes_map hfailed hsame]
  clear hsame hfailed
  induction attempts with
  | nil => rfl
  | cons attempt rest ih =>
      rw [List.map_cons, List.sum_cons, ih]
      cases husage : attempt.usage with
      | none => simp [husage]
      | some usage => simp [husage]

theorem totals_of_outcomes (h : Tells prepared world.journal account)
    (hfailed : AllFailed account.attempts) :
    TotalsMatch world.journal (totalInput (outcomes account.attempts))
      (totalOutput (outcomes account.attempts)) (totalCost (outcomes account.attempts)) := by
  rw [TotalsMatch, h.usages]
  refine ⟨?_, ?_, ?_⟩
  all_goals
    apply outcomes_sum hfailed
    intro attempt outcome houtcome
    obtain ⟨failure, -, rfl⟩ := Option.map_eq_some_iff.mp houtcome
    rfl

/-! ### Records that the journal holds already -/

theorem nodup_of_replays {journal : Journal} (h : ReplaysAfter [] journal) :
    (journal.map (·.recordId)).Nodup := by
  induction journal using List.reverseRecOn with
  | nil => exact List.nodup_nil
  | append_singleton earlier record ih =>
      obtain ⟨hbefore, hfresh, -⟩ := replaysAfter_snoc.mp h
      rw [List.map_append, List.map_singleton, List.nodup_append]
      refine ⟨ih hbefore, List.nodup_singleton _, ?_⟩
      intro id hmem other hother
      obtain ⟨found, hfound, rfl⟩ := List.mem_map.mp hmem
      rw [List.mem_singleton.mp hother]
      exact hfresh found hfound

/-- The record of an identifier is found by it. -/
theorem find?_of_mem {journal : Journal} {record : ModelInvocationRecord}
    (h : ReplaysAfter [] journal) (hmem : record ∈ journal) {id : RecordId}
    (hid : record.recordId = id) :
    journal.find? (fun existing => existing.recordId = id) = some record := by
  have hnodup := nodup_of_replays h
  clear h
  induction journal with
  | nil => cases hmem
  | cons first rest ih =>
      obtain ⟨hnew, hrest⟩ := List.nodup_cons.mp hnodup
      rcases List.mem_cons.mp hmem with rfl | hmem
      · exact List.find?_cons_of_pos (decide_eq_true hid)
      · have hne : first.recordId ≠ id := by
          rintro heq
          apply hnew
          show first.recordId ∈ rest.map (·.recordId)
          rw [heq, ← hid]
          exact List.mem_map_of_mem hmem
        rw [List.find?_cons_of_neg (by simpa using hne)]
        exact ih hmem hrest

theorem Journal.mem_of_admissions {journal : Journal} {record : AttemptAdmissionRecord}
    (h : record ∈ journal.admissions) :
    ModelInvocationRecord.attemptAdmission record ∈ journal := by
  obtain ⟨found, hfound, hsome⟩ := List.mem_filterMap.mp h
  cases found with
  | attemptAdmission found =>
      rw [← Option.some.inj hsome]
      exact hfound
  | _ => cases hsome

/-! ### Denying -/

/-- The store accepts the denial, or the journal holds it already. -/
def DenialAccepted (plan : ModelRoutePlan) (binding : ModelInvocationRuntimeBinding)
    (account : Account) (reason : ModelAttemptDecisionReason) : Prop :=
  match account.denial with
  | some denial => denial = admissionRecord binding (.deny reason) (outcomes account.attempts)
  | none => plan.SortedExclusions ∧ ¬ (account.attempts ≠ [] ∧
      binding.externalEffectObserved (.admission (account.attempts.length + 1)))

/-- The store accepts the denial of another attempt and the end of the invocation. -/
structure Deniable (plan : ModelRoutePlan) (binding : ModelInvocationRuntimeBinding)
    (account : Account) (reason : ModelAttemptDecisionReason) : Prop where
  denial : DenialAccepted plan binding account reason
  usage : ∀ attempt ∈ account.attempts, attempt.usage.isSome
  recovering : account.recovering = none

def deniedError (lastError : Option ProviderError) (reason : ModelAttemptDecisionReason) :
    ModelInvocationError :=
  match lastError with
  | some error => .provider error
  | none => .denied reason

theorem denies_of_failed {plan : ModelRoutePlan} (hsorted : plan.SortedExclusions)
    (hfailed : AllFailed attempts) (binding : ModelInvocationRuntimeBinding)
    (reason : ModelAttemptDecisionReason) :
    Denies plan attempts (admissionRecord binding (.deny reason) (outcomes attempts)) where
  sorted := hsorted
  denied := rfl
  ordinal := congrArg (· + 1) (outcomes_length hfailed)
  failed := fun last hlast => hfailed last (List.mem_of_getLast? hlast)

theorem denial_wellFormed (binding : ModelInvocationRuntimeBinding)
    (reason : ModelAttemptDecisionReason) (prior : List ModelAttemptOutcome) :
    (ModelInvocationRecord.attemptAdmission
      (admissionRecord binding (.deny reason) prior)).WellFormed := by
  rintro identity ⟨⟩

/-- The denial is recorded, unless the journal holds another one or an effect was observed. -/
theorem ensures_recordDenial (h : Told prepared world account) (hfailed : AllFailed account.attempts)
    (reason : ModelAttemptDecisionReason) :
    Ensures (serve entry) (Sound prepared) (fun result after =>
      (DenialAccepted prepared.routePlan entry.binding account reason →
        result = .ok () ∧ after.calls = world.calls ∧ after.refused = world.refused ∧
          Told prepared after
            { account with
              denial := admissionRecord entry.binding (.deny reason)
                (outcomes account.attempts) }) ∧
        (¬ DenialAccepted prepared.routePlan entry.binding account reason →
          Refuses world result after))
      (appendRecord (.attemptAdmission
        (admissionRecord entry.binding (.deny reason) (outcomes account.attempts)))) world := by
  have hordinal : (admissionRecord entry.binding (.deny reason)
      (outcomes account.attempts)).admissionOrdinal = account.attempts.length + 1 :=
    congrArg (· + 1) (outcomes_length hfailed)
  cases hdenial : account.denial with
  | some denial =>
      have haccepted : DenialAccepted prepared.routePlan entry.binding account reason ↔
          denial = admissionRecord entry.binding (.deny reason) (outcomes account.attempts) := by
        rw [DenialAccepted, hdenial]
      have hdenies := h.coherent.denial denial hdenial
      have hadmissions : denial ∈ world.journal.admissions := by
        rw [h.tells.admissions, hdenial]
        simp
      have hid : (ModelInvocationRecord.attemptAdmission denial).recordId =
          (ModelInvocationRecord.attemptAdmission (admissionRecord entry.binding (.deny reason)
            (outcomes account.attempts))).recordId :=
        congrArg RecordId.attemptAdmission (hdenies.ordinal.trans hordinal.symm)
      apply ensures_appendRecord_held (.told _ h) (denial_wellFormed _ _ _) h.replays
        (find?_of_mem h.replays (Journal.mem_of_admissions hadmissions) hid)
      · intro hsame
        have hsame := ModelInvocationRecord.attemptAdmission.inj hsame
        refine ⟨fun _ => ⟨rfl, rfl, rfl, ?_⟩, fun hnot => absurd (haccepted.mpr hsame) hnot⟩
        rw [← hsame, ← hdenial]
        exact h
      · intro hother
        refine ⟨.told _ (h.refusing _), fun hyes => ?_, fun _ => ⟨⟨_, rfl⟩, h.tells.underway, rfl⟩⟩
        exact absurd (congrArg ModelInvocationRecord.attemptAdmission (haccepted.mp hyes)) hother
  | none =>
      have hvalid := h.tells.validAdmission_iff h.coherent hdenial hordinal (outcomes_length hfailed)
      have hnext : ValidNext world.journal (.attemptAdmission (admissionRecord entry.binding
          (.deny reason) (outcomes account.attempts))) ↔
            DenialAccepted prepared.routePlan entry.binding account reason := by
        rw [hvalid, DenialAccepted, hdenial]
        simp [ValidAdmitted, admissionRecord, outcomes_length hfailed]
      have hfresh : world.journal.Fresh (ModelInvocationRecord.attemptAdmission (admissionRecord
          entry.binding (.deny reason) (outcomes account.attempts))).recordId := by
        rw [ModelInvocationRecord.recordId, hordinal]
        exact h.tells.fresh_admission h.coherent hdenial
      apply ensures_appendRecord (.told _ h) (denial_wellFormed _ _ _) h.replays hfresh
      · intro hyes
        have hsorted := (hvalid.mp hyes).1
        have htold := h.denies hdenial (denies_of_failed hsorted hfailed entry.binding reason) hyes
        exact ⟨.told _ htold, fun _ => ⟨rfl, rfl, rfl, htold⟩, fun hnot =>
          absurd (hnext.mp hyes) hnot⟩
      · intro hno
        exact ⟨.told _ (h.refusing _), fun hyes => absurd (hnext.mpr hyes) hno,
          fun _ => ⟨⟨_, rfl⟩, h.tells.underway, rfl⟩⟩

theorem deniedTerminal_wellFormed (plan : ModelRoutePlan) (prior : List ModelAttemptOutcome) :
    (ModelInvocationRecord.failed (deniedTerminal plan prior)).WellFormed := by
  show prior.length = 0 ↔ prior.getLast?.map (·.attemptId) = none
  rw [Option.map_eq_none_iff, List.getLast?_eq_none_iff, List.length_eq_zero_iff]

/-- The invocation ends with the failure that denied it another attempt. -/
theorem valid_deniedTerminal (h : Told prepared world account)
    (hfailed : AllFailed account.attempts) (hdenial : account.denial.isSome) :
    ValidNext world.journal (.failed
      (deniedTerminal prepared.routePlan (outcomes account.attempts))) ↔
        (∀ attempt ∈ account.attempts, attempt.usage.isSome) ∧ account.recovering = none := by
  have hterminal : (deniedTerminal prepared.routePlan (outcomes account.attempts)).terminalAttemptId =
      account.attempts.getLast?.map (·.id) := by
    show (outcomes account.attempts).getLast?.map (·.attemptId) = _
    rw [← List.getLast?_map, outcomes_ids hfailed, List.getLast?_map]
  have hcount : (deniedTerminal prepared.routePlan (outcomes account.attempts)).attemptCount =
      account.attempts.length := outcomes_length hfailed
  have htotals := totals_of_outcomes h.tells hfailed
  rw [h.tells.validInvocationFailure_iff h.coherent hterminal
    (fun last hlast => hfailed last (List.mem_of_getLast? hlast)) (fun _ => hdenial)]
  constructor
  · rintro ⟨-, husage, hrecovering, -⟩
    exact ⟨husage, hrecovering⟩
  · rintro ⟨husage, hrecovering⟩
    exact ⟨hcount, husage, hrecovering, htotals⟩

theorem ensures_denyAttempt (h : Told prepared world account) (hfailed : AllFailed account.attempts)
    (lastError : Option ProviderError) (reason : ModelAttemptDecisionReason) :
    Ensures (serve entry) (Sound prepared) (fun result after =>
      (Deniable prepared.routePlan entry.binding account reason →
        result = .error (deniedError lastError reason) ∧ after.calls = world.calls ∧
          after.refused = world.refused ∧ ∃ terminal, Concluded prepared (.failed terminal) after) ∧
        (¬ Deniable prepared.routePlan entry.binding account reason → Refuses world result after))
      (denyAttempt entry.binding prepared.routePlan (outcomes account.attempts) lastError reason)
      world := by
  apply (ensures_recordDenial h hfailed reason).bind
  · rintro _ denied - ⟨haccepted, hrefused⟩
    by_cases hdenial : DenialAccepted prepared.routePlan entry.binding account reason
    · obtain ⟨-, hcalls, hsame, htold⟩ := haccepted hdenial
      have hvalid := valid_deniedTerminal htold hfailed rfl
      have hdeniable : Deniable prepared.routePlan entry.binding account reason ↔
          (∀ attempt ∈ account.attempts, attempt.usage.isSome) ∧ account.recovering = none :=
        ⟨fun hyes => ⟨hyes.usage, hyes.recovering⟩, fun hyes => ⟨hdenial, hyes.1, hyes.2⟩⟩
      have hconclude : Ensures (serve entry) (Sound prepared) (fun result after =>
          (Deniable prepared.routePlan entry.binding account reason →
            result = .ok () ∧ after.calls = world.calls ∧ after.refused = world.refused ∧
              ∃ terminal, Concluded prepared (.failed terminal) after) ∧
            (¬ Deniable prepared.routePlan entry.binding account reason →
              Refuses world result after))
          (appendRecord (.failed (deniedTerminal prepared.routePlan (outcomes account.attempts))))
          denied := by
        apply ensures_conclude htold rfl (deniedTerminal_wellFormed _ _)
        · intro hnext
          refine ⟨fun _ => ⟨rfl, hcalls, hsame, _, .appended _ htold rfl hnext⟩, fun hnot => ?_⟩
          exact absurd (hdeniable.mpr (hvalid.mp hnext)) hnot
        · intro hno
          refine ⟨fun hyes => absurd (hvalid.mpr (hdeniable.mp hyes)) hno, fun _ => ?_⟩
          exact ⟨⟨_, rfl⟩, htold.tells.underway, hcalls⟩
      apply hconclude.bind
      · rintro _ after hsound ⟨hyes, hno⟩
        by_cases hpossible : Deniable prepared.routePlan entry.binding account reason
        · obtain ⟨-, hrest⟩ := hyes hpossible
          cases lastError with
          | none => exact ⟨hsound, fun _ => ⟨rfl, hrest⟩, fun hnot => absurd hpossible hnot⟩
          | some error => exact ⟨hsound, fun _ => ⟨rfl, hrest⟩, fun hnot => absurd hpossible hnot⟩
        · obtain ⟨⟨id, herror⟩, -⟩ := hno hpossible
          cases herror
      · rintro error after - ⟨hyes, hno⟩
        refine ⟨fun hpossible => ?_, fun himpossible => ?_⟩
        · obtain ⟨herror, -⟩ := hyes hpossible
          cases herror
        · obtain ⟨⟨id, herror⟩, hrest⟩ := hno himpossible
          rw [Except.error.inj herror]
          exact ⟨⟨id, rfl⟩, hrest⟩
    · obtain ⟨⟨id, herror⟩, -⟩ := hrefused hdenial
      cases herror
  · rintro error after - ⟨haccepted, hrefused⟩
    by_cases hdenial : DenialAccepted prepared.routePlan entry.binding account reason
    · obtain ⟨herror, -⟩ := haccepted hdenial
      cases herror
    · obtain ⟨⟨id, herror⟩, hrest⟩ := hrefused hdenial
      rw [Except.error.inj herror]
      exact ⟨fun hyes => absurd hyes.denial hdenial, fun _ => ⟨⟨id, rfl⟩, hrest⟩⟩

end CopilotRuntime.ModelInvocation
