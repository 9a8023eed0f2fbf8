import CopilotRuntime.Foundation.History
import CopilotRuntime.ModelInvocation.JournalLaws

/-!
# What a journal tells

The journal of an invocation tells of its attempts one after the other. All but
the last of them failed and have their usage, and each of them follows an
admitted recovery of the one before.
-/

namespace CopilotRuntime.ModelInvocation

open Foundation EventJournalModelInvocationStore ModelInvocationMiddleware

/-- The records of one attempt. -/
structure Attempt where
  identity : AdmittedIdentity
  admission : AttemptAdmissionRecord
  recovery : Option InvocationRecoveryRecord := none
  states : List AttemptStateRecord := []
  failed : Option AttemptFailedRecord := none
  usage : Option AttemptUsageRecord := none

namespace Attempt

abbrev id (attempt : Attempt) : AttemptId := attempt.identity.attemptId

/-- The attempt failed, and its usage is final. -/
def Settled (attempt : Attempt) : Prop := attempt.failed.isSome ∧ attempt.usage.isSome

/-- The records are those of the attempt with the number. -/
structure Numbered (number : Nat) (attempt : Attempt) : Prop where
  identity : attempt.id = ⟨number⟩ ∧ attempt.identity.attemptOrdinal = number
  admission : attempt.admission.admittedIdentity? = some attempt.identity
  states : ∀ record ∈ attempt.states, record.toAdmittedIdentity = attempt.identity
  failed : ∀ record ∈ attempt.failed, record.toAdmittedIdentity = attempt.identity
  usage : ∀ record ∈ attempt.usage, record.toAdmittedIdentity = attempt.identity
  incomplete : attempt.failed.isSome → ∀ record ∈ attempt.states, record.state ≠ .completed
  ambiguous : ∀ failure ∈ attempt.failed, (∃ record ∈ attempt.states, record.state = .ambiguous) →
    failure.failureClass = .ambiguousProviderState
  progress : ∀ record ∈ attempt.states, record.ProgressReconciles
  ends : ∀ record ∈ attempt.states.dropLast, ¬ endsAttempt record.state
  visible : ∀ failure ∈ attempt.failed, failure.failureClass ≠ .ambiguousProviderState →
    failure.visibleTextEmitted ∨ failure.toolCallContentEmitted →
      failure.streamState = .visibleOutput

/-- What the policy is told of a failed attempt. -/
def outcome (attempt : Attempt) : Option ModelAttemptOutcome :=
  attempt.failed.map fun failure => {
    attemptId := attempt.id
    ordinal := attempt.identity.attemptOrdinal
    deploymentId := attempt.identity.deploymentId
    failureClass := some failure.failureClass
    streamState := failure.streamState
    costMicrousd := (attempt.usage.map (·.costMicrousd)).getD 0
    inputTokens := (attempt.usage.map (·.usage.inputTokens)).getD 0
    outputTokens := (attempt.usage.map (·.usage.outputTokens)).getD 0 }

end Attempt

/-- A failure that another attempt may follow, under a recovery of the kind. -/
def MayBeFollowed (kind : ModelRecoveryKind) (failure : AttemptFailedRecord) : Prop :=
  failure.visibleTextEmitted = false ∧ failure.toolCallContentEmitted = false ∧
    failure.externalEffectObserved = false ∧
    if kind = .cacheUndecoratedRetry then failure.failureClass = .requestInvalid
    else failure.failureClass ∈ ModelAttemptAdmissionPolicy.safeRetryClasses

/-- The recovery leads from the attempt with the number to the next one. -/
structure RecoveryOf (number : Nat) (source : Attempt) (recovery : InvocationRecoveryRecord) :
    Prop where
  ordinal : recovery.recoveryOrdinal = number
  fromAttempt : recovery.sourceAttemptId = ⟨number⟩
  toAttempt : recovery.targetAttemptId = some ⟨number + 1⟩
  outcome : recovery.outcome = .admitted
  settled : source.Settled
  failure : ∃ failure ∈ source.failed, MayBeFollowed recovery.kind failure

/-- What recovery the attempts need before another one. -/
def Recovered (earlier : List Attempt) (recovery : Option InvocationRecoveryRecord) : Prop :=
  match earlier.getLast?, recovery with
  | none, none => True
  | some source, some recovery => RecoveryOf earlier.length source recovery
  | _, _ => False

/-- The reasons of every exclusion are in the order in which the journal tells them. -/
def ModelRoutePlan.SortedExclusions (plan : ModelRoutePlan) : Prop :=
  ∀ exclusion ∈ plan.exclusions, canonicalReasons exclusion.reasons = exclusion.reasons

instance (plan : ModelRoutePlan) : Decidable plan.SortedExclusions :=
  inferInstanceAs (Decidable (∀ exclusion ∈ _, _))

/-- The attempt may follow the attempts before it. -/
structure Continues (plan : ModelRoutePlan) (earlier : List Attempt) (attempt : Attempt) :
    Prop where
  sorted : plan.SortedExclusions
  numbered : attempt.Numbered (earlier.length + 1)
  route : attempt.identity.deploymentId ∈ plan.deploymentIds
  attempts : earlier.length < plan.budget.maxAttempts
  sameDeployment : earlier.countP (fun before =>
    before.identity.deploymentId = attempt.identity.deploymentId) <
      plan.budget.maxSameDeploymentAttempts
  recovered : Recovered earlier attempt.recovery

/-- All that a journal tells once the routes of its plan are recorded. -/
structure Account where
  attempts : List Attempt
  recovering : Option InvocationRecoveryRecord := none
  denial : Option AttemptAdmissionRecord := none

/-- The denial of an attempt that would follow the attempts. -/
structure Denies (plan : ModelRoutePlan) (earlier : List Attempt) (denial : AttemptAdmissionRecord) :
    Prop where
  sorted : plan.SortedExclusions
  denied : denial.isDenied = true
  ordinal : denial.admissionOrdinal = earlier.length + 1
  failed : ∀ last ∈ earlier.getLast?, last.failed.isSome

structure Account.Coherent (plan : ModelRoutePlan) (account : Account) : Prop where
  history : EachStep (Continues plan) account.attempts
  recovering : ∀ recovery ∈ account.recovering, Recovered account.attempts (some recovery)
  denial : ∀ denial ∈ account.denial, Denies plan account.attempts denial

def Account.recoveries (account : Account) : List InvocationRecoveryRecord :=
  account.attempts.filterMap (·.recovery) ++ account.recovering.toList

structure Tells (prepared : PreparedAuthority) (journal : Journal) (account : Account) : Prop where
  planned : journal.planned = [PlannedRecord.create prepared]
  routes : journal.routes = eligibleRecords prepared.routePlan
  exclusions : journal.exclusions = excludedRecords prepared.routePlan
  admissions : journal.admissions =
    account.attempts.map (·.admission) ++ account.denial.toList
  recoveries : journal.recoveries = account.recoveries
  states : journal.states = account.attempts.flatMap (·.states)
  failures : journal.failures = account.attempts.filterMap (·.failed)
  usages : journal.usages = account.attempts.filterMap (·.usage)
  underway : journal.isTerminal = false

/-! ### The calls that a journal tells -/

/-- What of a call its attempt tells. -/
def ProviderCall.tag (call : ProviderCall) : AttemptId × String :=
  (call.attemptId, call.route.deploymentId)

def Attempt.tag (attempt : Attempt) : AttemptId × String :=
  (attempt.id, attempt.identity.deploymentId)

/-- The provider refused the call for its cache metadata, as the typed authority recognises. -/
def ProviderCall.RejectedCacheMetadata (call : ProviderCall) : Prop :=
  ∃ handoff ∈ call.handoff, handoff.supportsUndecoratedRetry = true ∧
    ∃ error, call.behaviour.ending = .error error ∧ handoff.rejects call.route error = true

/-- Every call is one of an attempt, in the order of the attempts. -/
structure CallsTold (plan : ModelRoutePlan) (account : Account) (calls : List ProviderCall) :
    Prop where
  called : (calls.map (·.tag)).Sublist (account.attempts.map (·.tag))
  routes : ∀ call ∈ calls, call.route ∈ plan.routes
  rejected : ∀ recovery ∈ account.recoveries, recovery.kind = .cacheUndecoratedRetry →
    ∃ call ∈ calls, call.attemptId = recovery.sourceAttemptId ∧ call.RejectedCacheMetadata

structure Told (prepared : PreparedAuthority) (world : World) (account : Account) : Prop where
  replays : ReplaysAfter [] world.journal
  tells : Tells prepared world.journal account
  coherent : account.Coherent prepared.routePlan
  calls : CallsTold prepared.routePlan account world.calls

/-! ### Attempts one after the other -/

section History
variable {plan : ModelRoutePlan} {attempts earlier : List Attempt} {attempt : Attempt}

theorem Attempt.Numbered.admissionOrdinal {number : Nat} (h : attempt.Numbered number) :
    attempt.admission.admissionOrdinal = number := by
  have hadmission := h.admission
  have hid := h.identity.1
  unfold AttemptAdmissionRecord.admittedIdentity? at hadmission
  split at hadmission
  · rw [Attempt.id, ← Option.some.inj hadmission] at hid
    exact AttemptId.mk.inj hid
  · cases hadmission

theorem ids_of_history (h : EachStep (Continues plan) attempts) :
    attempts.map (·.id) = (List.range' 1 attempts.length).map AttemptId.mk := by
  induction attempts using List.reverseRecOn with
  | nil => rfl
  | append_singleton earlier attempt ih =>
      obtain ⟨hearlier, hattempt⟩ := eachStep_snoc.mp h
      rw [List.map_append, ih hearlier, List.length_append, List.length_singleton,
        List.range'_concat, List.map_append]
      simp [hattempt.numbered.identity.1, Nat.add_comm]

theorem ordinals_of_history (h : EachStep (Continues plan) attempts) :
    attempts.map (·.identity.attemptOrdinal) = List.range' 1 attempts.length := by
  induction attempts using List.reverseRecOn with
  | nil => rfl
  | append_singleton earlier attempt ih =>
      obtain ⟨hearlier, hattempt⟩ := eachStep_snoc.mp h
      rw [List.map_append, ih hearlier, List.length_append, List.length_singleton,
        List.range'_concat]
      simp [hattempt.numbered.identity.2, Nat.add_comm]

theorem nodup_ids (h : EachStep (Continues plan) attempts) : (attempts.map (·.id)).Nodup := by
  rw [ids_of_history h]
  exact List.Nodup.map (fun a b hab => AttemptId.mk.inj hab) List.nodup_range'

theorem id_le_of_mem (h : EachStep (Continues plan) attempts) (hmem : attempt ∈ attempts) :
    attempt.id.ordinal ≤ attempts.length := by
  have hid : attempt.id ∈ attempts.map (·.id) := List.mem_map_of_mem hmem
  rw [ids_of_history h] at hid
  obtain ⟨ordinal, hordinal, heq⟩ := List.mem_map.mp hid
  have hbound := (List.mem_range'_1.mp hordinal).2
  have hsame : ordinal = attempt.id.ordinal := congrArg AttemptId.ordinal heq
  omega

theorem recovered_none : Recovered earlier none ↔ earlier = [] := by
  unfold Recovered
  cases hlast : earlier.getLast? with
  | none => simpa using List.getLast?_eq_none_iff.mp hlast
  | some source =>
      constructor
      · intro h
        exact h.elim
      · rintro rfl
        cases hlast

theorem recovered_some {recovery : InvocationRecoveryRecord} : Recovered earlier (some recovery) ↔
    ∃ source, earlier.getLast? = some source ∧ RecoveryOf earlier.length source recovery := by
  unfold Recovered
  cases earlier.getLast? with
  | none => simp
  | some source => simp

@[simp] theorem recovered_snoc {source : Attempt} {recovery : Option InvocationRecoveryRecord} :
    Recovered (earlier ++ [source]) recovery ↔
      ∃ found, recovery = some found ∧ RecoveryOf (earlier.length + 1) source found := by
  cases recovery with
  | none => simp [recovered_none]
  | some recovery => simp [recovered_some]

/-- Every attempt but the last one is settled. -/
theorem settled_of_history (h : EachStep (Continues plan) (earlier ++ [attempt])) :
    ∀ before ∈ earlier, before.Settled := by
  induction earlier using List.reverseRecOn generalizing attempt with
  | nil => simp
  | append_singleton earlier last ih =>
      obtain ⟨hearlier, hattempt⟩ := eachStep_snoc.mp h
      intro before hmem
      rcases List.mem_append.mp hmem with hmem | hmem
      · exact ih hearlier before hmem
      · obtain ⟨recovery, -, hrecovery⟩ := recovered_snoc.mp hattempt.recovered
        rw [List.mem_singleton.mp hmem]
        exact hrecovery.settled

/-- The recovery of an attempt leads to it from the attempt before. -/
theorem recovery_of_mem (h : EachStep (Continues plan) attempts) (hmem : attempt ∈ attempts)
    {recovery : InvocationRecoveryRecord} (hrecovery : attempt.recovery = some recovery) :
    ∃ number, number < attempts.length ∧ attempt.id = ⟨number + 1⟩ ∧
      ∃ source ∈ attempts, source.id = ⟨number⟩ ∧ RecoveryOf number source recovery := by
  obtain ⟨earlier, later, rfl⟩ := List.append_of_mem hmem
  have hcontinues := h earlier attempt later rfl
  have hrecovered := hcontinues.recovered
  rw [hrecovery, recovered_some] at hrecovered
  obtain ⟨source, hlast, hof⟩ := hrecovered
  refine ⟨earlier.length, by simp, hcontinues.numbered.identity.1, source, ?_, ?_, hof⟩
  · exact List.mem_append_left _ (List.mem_of_getLast? hlast)
  · obtain ⟨before, rfl⟩ := List.getLast?_eq_some_iff.mp hlast
    have hsource := (h before source (attempt :: later) (by simp)).numbered.identity.1
    rw [hsource, List.length_append, List.length_singleton]

/-- All attempts but the first one have their recoveries. -/
theorem length_recoveries (h : EachStep (Continues plan) attempts) :
    (attempts.filterMap (·.recovery)).length = attempts.length - 1 := by
  induction attempts using List.reverseRecOn with
  | nil => rfl
  | append_singleton earlier attempt ih =>
      obtain ⟨hearlier, hattempt⟩ := eachStep_snoc.mp h
      have hrecovered := hattempt.recovered
      rw [List.filterMap_append, List.length_append, ih hearlier]
      cases hrecovery : attempt.recovery with
      | none =>
          rw [hrecovery, recovered_none] at hrecovered
          simp [hrecovered, hrecovery]
      | some recovery =>
          rw [hrecovery, recovered_some] at hrecovered
          obtain ⟨source, hlast, -⟩ := hrecovered
          have hpos : 0 < earlier.length := by
            rw [List.length_pos_iff]
            rintro rfl
            cases hlast
          simp only [List.filterMap_cons, hrecovery, List.filterMap_nil, List.length_singleton,
            List.length_append]
          omega

theorem numbered_of_mem (h : EachStep (Continues plan) attempts) (hmem : attempt ∈ attempts) :
    attempt.Numbered attempt.id.ordinal := by
  obtain ⟨earlier, later, rfl⟩ := List.append_of_mem hmem
  have hnumbered := (h earlier attempt later rfl).numbered
  rw [hnumbered.identity.1]
  exact hnumbered

end History

/-! ### Records found by their attempt -/

/-- Items with distinct keys are found by their keys. -/
theorem filter_flatMap_of_nodup {α β κ : Type} [DecidableEq κ] (key : α → κ) (keyOf : β → κ)
    (items : α → List β) {xs : List α} {x : α} (hkeys : ∀ y ∈ xs, ∀ b ∈ items y, keyOf b = key y)
    (hnodup : (xs.map key).Nodup) (hmem : x ∈ xs) :
    (xs.flatMap items).filter (fun b => keyOf b = key x) = items x := by
  induction xs with
  | nil => cases hmem
  | cons y rest ih =>
      have hkeysRest : ∀ z ∈ rest, ∀ b ∈ items z, keyOf b = key z := fun z hz =>
        hkeys z (List.mem_cons_of_mem _ hz)
      obtain ⟨hfresh, hrest⟩ := List.nodup_cons.mp hnodup
      rw [List.flatMap_cons, List.filter_append]
      rcases List.mem_cons.mp hmem with rfl | hmem
      · have hown : (items x).filter (fun b => keyOf b = key x) = items x :=
          List.filter_eq_self.mpr fun b hb => decide_eq_true (hkeys x List.mem_cons_self b hb)
        have hothers : (rest.flatMap items).filter (fun b => keyOf b = key x) = [] := by
          rw [List.filter_eq_nil_iff]
          intro b hb hkey
          obtain ⟨z, hz, hb⟩ := List.mem_flatMap.mp hb
          rw [decide_eq_true_eq, hkeysRest z hz b hb] at hkey
          exact hfresh (hkey ▸ List.mem_map_of_mem hz)
        rw [hown, hothers, List.append_nil]
      · have hhead : (items y).filter (fun b => keyOf b = key x) = [] := by
          rw [List.filter_eq_nil_iff]
          intro b hb hkey
          rw [decide_eq_true_eq, hkeys y List.mem_cons_self b hb] at hkey
          exact hfresh (hkey ▸ List.mem_map_of_mem hmem)
        rw [hhead, List.nil_append]
        exact ih hkeysRest hrest hmem

theorem find?_filterMap_of_nodup {α β κ : Type} [DecidableEq κ] (key : α → κ) (keyOf : β → κ)
    (item : α → Option β) {xs : List α} {x : α} (hkeys : ∀ y ∈ xs, ∀ b ∈ item y, keyOf b = key y)
    (hnodup : (xs.map key).Nodup) (hmem : x ∈ xs) :
    (xs.filterMap item).find? (fun b => keyOf b = key x) = item x := by
  have hfilter := filter_flatMap_of_nodup key keyOf (fun y => (item y).toList)
    (fun y hy b hb => hkeys y hy b (Option.mem_toList.mp hb)) hnodup hmem
  rw [← List.head?_filter, List.filterMap_eq_flatMap_toList, hfilter]
  cases item x <;> rfl

end CopilotRuntime.ModelInvocation
