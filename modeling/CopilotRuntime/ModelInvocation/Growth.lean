import CopilotRuntime.ModelInvocation.LifecycleLaws
import CopilotRuntime.ModelInvocation.Tellings

/-!
# How an account grows

Every record that is appended to a told journal changes its account at one place.
What a later entry may find is a journal whose plan is not fully recorded, one
that tells an account, or one that a terminal record closed.
-/

namespace CopilotRuntime.ModelInvocation

open Foundation Foundation.Program EventJournalModelInvocationStore ModelInvocationMiddleware

namespace Journal

variable (journal later : Journal)

theorem planned_append : (journal ++ later).planned = journal.planned ++ later.planned :=
  List.filterMap_append

theorem routes_append : (journal ++ later).routes = journal.routes ++ later.routes :=
  List.filterMap_append

theorem exclusions_append :
    (journal ++ later).exclusions = journal.exclusions ++ later.exclusions :=
  List.filterMap_append

theorem admissions_append :
    (journal ++ later).admissions = journal.admissions ++ later.admissions :=
  List.filterMap_append

theorem states_append : (journal ++ later).states = journal.states ++ later.states :=
  List.filterMap_append

theorem usages_append : (journal ++ later).usages = journal.usages ++ later.usages :=
  List.filterMap_append

theorem failures_append : (journal ++ later).failures = journal.failures ++ later.failures :=
  List.filterMap_append

theorem recoveries_append :
    (journal ++ later).recoveries = journal.recoveries ++ later.recoveries :=
  List.filterMap_append

theorem isTerminal_append :
    (journal ++ later).isTerminal = (journal.isTerminal || later.isTerminal) :=
  List.any_append

end Journal

theorem filterMap_singleton {α β : Type} (f : α → Option β) (x : α) :
    [x].filterMap f = (f x).toList := by
  cases hx : f x with
  | none => simp [hx]
  | some y => simp [hx]

/-! ### The attempt under way -/

namespace Attempt

def stated (attempt : Attempt) (record : AttemptStateRecord) : Attempt :=
  { attempt with states := attempt.states ++ [record] }

def failing (attempt : Attempt) (record : AttemptFailedRecord) : Attempt :=
  { attempt with failed := some record }

def metered (attempt : Attempt) (record : AttemptUsageRecord) : Attempt :=
  { attempt with usage := some record }

variable {number : Nat} {attempt : Attempt}

theorem Numbered.stated (h : attempt.Numbered number) {record : AttemptStateRecord}
    (hidentity : record.toAdmittedIdentity = attempt.identity)
    (hprogress : record.ProgressReconciles)
    (hprecedes : ∀ before ∈ attempt.states, ¬ endsAttempt before.state)
    (hunderway : attempt.failed = none) : (attempt.stated record).Numbered number where
  identity := h.identity
  admission := h.admission
  states := by
    intro found hmem
    rcases List.mem_append.mp hmem with hmem | hmem
    · exact h.states found hmem
    · rw [List.mem_singleton.mp hmem]
      exact hidentity
  failed := h.failed
  usage := h.usage
  incomplete := by simp [Attempt.stated, hunderway]
  ambiguous := by simp [Attempt.stated, hunderway]
  progress := by
    intro found hmem
    rcases List.mem_append.mp hmem with hmem | hmem
    · exact h.progress found hmem
    · rw [List.mem_singleton.mp hmem]
      exact hprogress
  ends := by
    intro found hmem
    rw [Attempt.stated, List.dropLast_concat] at hmem
    exact hprecedes found hmem
  visible := h.visible

theorem Numbered.failing (h : attempt.Numbered number) {record : AttemptFailedRecord}
    (hidentity : record.toAdmittedIdentity = attempt.identity)
    (hincomplete : ∀ before ∈ attempt.states, before.state ≠ .completed)
    (hambiguous : (∃ before ∈ attempt.states, before.state = .ambiguous) →
      record.failureClass = .ambiguousProviderState)
    (hvisible : record.failureClass ≠ .ambiguousProviderState →
      record.visibleTextEmitted ∨ record.toolCallContentEmitted →
        record.streamState = .visibleOutput) : (attempt.failing record).Numbered number where
  identity := h.identity
  admission := h.admission
  states := h.states
  failed := by
    rintro found ⟨⟩
    exact hidentity
  usage := h.usage
  incomplete := fun _ => hincomplete
  ambiguous := by
    rintro found ⟨⟩
    exact hambiguous
  progress := h.progress
  ends := h.ends
  visible := by
    rintro found ⟨⟩
    exact hvisible

theorem Numbered.metered (h : attempt.Numbered number) {record : AttemptUsageRecord}
    (hidentity : record.toAdmittedIdentity = attempt.identity) :
    (attempt.metered record).Numbered number where
  identity := h.identity
  admission := h.admission
  states := h.states
  failed := h.failed
  usage := by
    rintro found ⟨⟩
    exact hidentity
  incomplete := h.incomplete
  ambiguous := h.ambiguous
  progress := h.progress
  ends := h.ends
  visible := h.visible

end Attempt

section Coherence
variable {plan : ModelRoutePlan} {earlier : List Attempt} {attempt next : Attempt}
  {account account' : Account} {calls : List ProviderCall}

theorem Continues.update (h : Continues plan earlier attempt)
    (hnumbered : next.Numbered (earlier.length + 1)) (hidentity : next.identity = attempt.identity)
    (hrecovery : next.recovery = attempt.recovery) : Continues plan earlier next where
  sorted := h.sorted
  numbered := hnumbered
  route := hidentity ▸ h.route
  attempts := h.attempts
  sameDeployment := hidentity ▸ h.sameDeployment
  recovered := hrecovery ▸ h.recovered

/-- The attempt under way may change in all but its identity. -/
theorem Account.Coherent.update
    (h : ({ attempts := earlier ++ [attempt] } : Account).Coherent plan)
    (hnumbered : attempt.Numbered (earlier.length + 1) → next.Numbered (earlier.length + 1))
    (hidentity : next.identity = attempt.identity) (hrecovery : next.recovery = attempt.recovery) :
    ({ attempts := earlier ++ [next] } : Account).Coherent plan where
  history := by
    obtain ⟨hearlier, hattempt⟩ := eachStep_snoc.mp h.history
    exact hearlier.snoc _ (hattempt.update (hnumbered hattempt.numbered) hidentity hrecovery)
  recovering := by simp
  denial := by simp

theorem CallsTold.congr (h : CallsTold plan account calls)
    (htags : account'.attempts.map (·.tag) = account.attempts.map (·.tag))
    (hrecoveries : account'.recoveries = account.recoveries) : CallsTold plan account' calls where
  called := htags ▸ h.called
  routes := h.routes
  rejected := hrecoveries ▸ h.rejected

theorem CallsTold.update (h : CallsTold plan { attempts := earlier ++ [attempt] } calls)
    (hidentity : next.identity = attempt.identity) (hrecovery : next.recovery = attempt.recovery) :
    CallsTold plan { attempts := earlier ++ [next] } calls := by
  apply h.congr
  · simp [Attempt.tag, Attempt.id, hidentity]
  · simp [Account.recoveries, filterMap_singleton, hrecovery]

end Coherence

section Told
variable {prepared : PreparedAuthority} {world : World} {earlier : List Attempt}
  {attempt : Attempt} {account : Account}

variable {journal : Journal}

/-- A record adds what it tells to an account. -/
theorem Tells.append (h : Tells prepared journal account) {next : Account}
    {record : ModelInvocationRecord}
    (hlater : Journal.planned [record] = [] ∧ Journal.routes [record] = [] ∧
      Journal.exclusions [record] = [] ∧ Journal.isTerminal [record] = false)
    (hadmissions : next.attempts.map (·.admission) ++ next.denial.toList =
      account.attempts.map (·.admission) ++ account.denial.toList ++ Journal.admissions [record])
    (hrecoveries : next.recoveries = account.recoveries ++ Journal.recoveries [record])
    (hstates : next.attempts.flatMap (·.states) =
      account.attempts.flatMap (·.states) ++ Journal.states [record])
    (hfailures : next.attempts.filterMap (·.failed) =
      account.attempts.filterMap (·.failed) ++ Journal.failures [record])
    (husages : next.attempts.filterMap (·.usage) =
      account.attempts.filterMap (·.usage) ++ Journal.usages [record]) :
    Tells prepared (journal ++ [record]) next where
  planned := by rw [Journal.planned_append, h.planned, hlater.1, List.append_nil]
  routes := by rw [Journal.routes_append, h.routes, hlater.2.1, List.append_nil]
  exclusions := by rw [Journal.exclusions_append, h.exclusions, hlater.2.2.1, List.append_nil]
  admissions := by rw [Journal.admissions_append, h.admissions, hadmissions]
  recoveries := by rw [Journal.recoveries_append, h.recoveries, hrecoveries]
  states := by rw [Journal.states_append, h.states, hstates]
  failures := by rw [Journal.failures_append, h.failures, hfailures]
  usages := by rw [Journal.usages_append, h.usages, husages]
  underway := by rw [Journal.isTerminal_append, h.underway, hlater.2.2.2, Bool.or_false]

section Last
variable (h : Tells prepared journal { attempts := earlier ++ [attempt] })
include h

theorem Tells.stated (record : AttemptStateRecord) :
    Tells prepared (journal ++ [.attemptState record])
      { attempts := earlier ++ [attempt.stated record] } := by
  apply h.append ⟨rfl, rfl, rfl, rfl⟩ <;>
    simp [Journal.admissions, Journal.recoveries, Journal.states, Journal.failures, Journal.usages,
      Attempt.stated, Account.recoveries, filterMap_singleton]

theorem Tells.failing (hunderway : attempt.failed = none) (record : AttemptFailedRecord) :
    Tells prepared (journal ++ [.attemptFailed record])
      { attempts := earlier ++ [attempt.failing record] } := by
  apply h.append ⟨rfl, rfl, rfl, rfl⟩ <;>
    simp [Journal.admissions, Journal.recoveries, Journal.states, Journal.failures, Journal.usages,
      Attempt.failing, Account.recoveries, filterMap_singleton, hunderway]

theorem Tells.metered (hunmetered : attempt.usage = none) (record : AttemptUsageRecord) :
    Tells prepared (journal ++ [.attemptUsage record])
      { attempts := earlier ++ [attempt.metered record] } := by
  apply h.append ⟨rfl, rfl, rfl, rfl⟩ <;>
    simp [Journal.admissions, Journal.recoveries, Journal.states, Journal.failures, Journal.usages,
      Attempt.metered, Account.recoveries, filterMap_singleton, hunmetered]

end Last

section Journals
variable (h : Tells prepared journal account)
include h

/-- A recovery waits for the attempt that it admits. -/
theorem Tells.recovers (hrecovering : account.recovering = none)
    (record : InvocationRecoveryRecord) :
    Tells prepared (journal ++ [.recovery record]) { account with recovering := some record } := by
  apply h.append ⟨rfl, rfl, rfl, rfl⟩ <;>
    simp [Journal.admissions, Journal.recoveries, Journal.states, Journal.failures, Journal.usages,
      Account.recoveries, hrecovering]

theorem Tells.denies (hdenial : account.denial = none) (record : AttemptAdmissionRecord) :
    Tells prepared (journal ++ [.attemptAdmission record])
      { account with denial := some record } := by
  apply h.append ⟨rfl, rfl, rfl, rfl⟩ <;>
    simp [Journal.admissions, Journal.recoveries, Journal.states, Journal.failures, Journal.usages,
      Account.recoveries, hdenial]

/-- The attempt that an admission starts follows the recovery that waited for it. -/
theorem Tells.admits (hdenial : account.denial = none) (record : AttemptAdmissionRecord)
    (identity : AdmittedIdentity) :
    Tells prepared (journal ++ [.attemptAdmission record])
      { attempts := account.attempts ++ [⟨identity, record, account.recovering, [], none, none⟩] } := by
  apply h.append ⟨rfl, rfl, rfl, rfl⟩ <;>
    simp [Journal.admissions, Journal.recoveries, Journal.states, Journal.failures, Journal.usages,
      Account.recoveries, filterMap_singleton, hdenial]

/-! ### Fresh records -/

variable (hcoherent : account.Coherent prepared.routePlan)
include hcoherent

theorem Tells.fresh_usage (hmem : attempt ∈ account.attempts) (hunmetered : attempt.usage = none) :
    journal.Fresh (.attemptUsage attempt.id) :=
  Journal.fresh_attemptUsage ((h.no_usage_iff hcoherent hmem).mpr hunmetered)

theorem Tells.fresh_failure (hmem : attempt ∈ account.attempts)
    (hunderway : attempt.failed = none) : journal.Fresh (.attemptFailed attempt.id) :=
  Journal.fresh_attemptFailed ((h.no_failure_iff hcoherent hmem).mpr hunderway)

theorem Tells.fresh_state (hmem : attempt ∈ account.attempts) {state : ModelAttemptLifecycleState}
    (hnew : ∀ before ∈ attempt.states, before.state ≠ state) :
    journal.Fresh (.attemptState attempt.id state) :=
  Journal.fresh_attemptState ((h.forall_states_iff hcoherent hmem _).mpr hnew)

theorem Tells.fresh_recovery (hrecovering : account.recovering = none) :
    journal.Fresh (.recovery account.attempts.length) := by
  apply Journal.fresh_recovery
  intro recovery hmem hordinal
  rw [h.recoveries, Account.recoveries, hrecovering, Option.toList_none, List.append_nil] at hmem
  obtain ⟨attempt, hattempt, hrecovery⟩ := List.mem_filterMap.mp hmem
  obtain ⟨number, hlt, -, source, -, -, hof⟩ :=
    ModelInvocation.recovery_of_mem hcoherent.history hattempt hrecovery
  rw [hof.ordinal] at hordinal
  omega

theorem Tells.fresh_admission (hdenial : account.denial = none) :
    journal.Fresh (.attemptAdmission (account.attempts.length + 1)) := by
  apply Journal.fresh_attemptAdmission
  intro record hmem hordinal
  rw [h.admissions, hdenial, Option.toList_none, List.append_nil] at hmem
  obtain ⟨attempt, hattempt, rfl⟩ := List.mem_map.mp hmem
  have hnumbered := numbered_of_mem hcoherent.history hattempt
  have hle := id_le_of_mem hcoherent.history hattempt
  rw [hnumbered.admissionOrdinal] at hordinal
  omega

end Journals

/-! ### What is told after a record -/

/-- A refused record changes nothing of what is told. -/
theorem Told.refusing (h : Told prepared world account) (record : ModelInvocationRecord) :
    Told prepared (world.refusing record) account :=
  ⟨h.replays, h.tells, h.coherent, h.calls⟩

theorem Told.numbered (h : Told prepared world { attempts := earlier ++ [attempt] }) :
    attempt.Numbered (earlier.length + 1) :=
  (eachStep_snoc.mp h.coherent.history).2.numbered

theorem last_mem_attempts : attempt ∈ ({ attempts := earlier ++ [attempt] } : Account).attempts :=
  List.mem_append_right _ (List.mem_singleton_self _)

section Last
variable (h : Told prepared world { attempts := earlier ++ [attempt] })
include h

variable {record : AttemptStateRecord}

theorem Told.valid_state (hidentity : record.toAdmittedIdentity = attempt.identity)
    (hprecedes : ∀ before ∈ attempt.states, Precedes before.state record.state)
    (hunderway : attempt.failed = none) : ValidNext world.journal (.attemptState record) := by
  rw [h.tells.validState_iff h.coherent last_mem_attempts hidentity]
  refine ⟨fun before hmem => (hprecedes before hmem).1, hunderway, fun last hlast => ?_⟩
  exact (hprecedes last (List.mem_of_getLast? hlast)).2

theorem Told.fresh_state (hidentity : record.toAdmittedIdentity = attempt.identity)
    (hnew : ∀ before ∈ attempt.states, before.state ≠ record.state) :
    world.journal.Fresh (ModelInvocationRecord.attemptState record).recordId := by
  have hfresh := h.tells.fresh_state h.coherent last_mem_attempts hnew
  rw [Attempt.id, ← hidentity] at hfresh
  exact hfresh

theorem Told.stated (hidentity : record.toAdmittedIdentity = attempt.identity)
    (hprogress : record.ProgressReconciles)
    (hprecedes : ∀ before ∈ attempt.states, Precedes before.state record.state)
    (hunderway : attempt.failed = none) : Told prepared (world.appended (.attemptState record))
      { attempts := earlier ++ [attempt.stated record] } where
  replays := h.replays.snoc (h.fresh_state hidentity fun before hmem => (hprecedes before hmem).1)
    (h.valid_state hidentity hprecedes hunderway)
  tells := h.tells.stated record
  coherent := by
    refine h.coherent.update (fun hnumbered => ?_) rfl rfl
    exact hnumbered.stated hidentity hprogress (fun before hmem => (hprecedes before hmem).2.2)
      hunderway
  calls := h.calls.update rfl rfl

theorem Told.fresh_failure (hunderway : attempt.failed = none) {record : AttemptFailedRecord}
    (hidentity : record.toAdmittedIdentity = attempt.identity) :
    world.journal.Fresh (ModelInvocationRecord.attemptFailed record).recordId := by
  have hfresh := h.tells.fresh_failure h.coherent last_mem_attempts hunderway
  rw [Attempt.id, ← hidentity] at hfresh
  exact hfresh

theorem Told.failing (hunderway : attempt.failed = none) {record : AttemptFailedRecord}
    (hidentity : record.toAdmittedIdentity = attempt.identity)
    (hincomplete : ∀ before ∈ attempt.states, before.state ≠ .completed)
    (hambiguous : (∃ before ∈ attempt.states, before.state = .ambiguous) →
      record.failureClass = .ambiguousProviderState)
    (hvisible : record.failureClass ≠ .ambiguousProviderState →
      record.visibleTextEmitted ∨ record.toolCallContentEmitted →
        record.streamState = .visibleOutput) :
    Told prepared (world.appended (.attemptFailed record))
      { attempts := earlier ++ [attempt.failing record] } where
  replays := h.replays.snoc (h.fresh_failure hunderway hidentity)
    ((h.tells.validFailure_iff h.coherent last_mem_attempts hidentity).mpr ⟨hunderway, hincomplete⟩)
  tells := h.tells.failing hunderway record
  coherent := by
    refine h.coherent.update (fun hnumbered => ?_) rfl rfl
    exact hnumbered.failing hidentity hincomplete hambiguous hvisible
  calls := h.calls.update rfl rfl

theorem Told.fresh_usage (hunmetered : attempt.usage = none) {record : AttemptUsageRecord}
    (hidentity : record.toAdmittedIdentity = attempt.identity) :
    world.journal.Fresh (ModelInvocationRecord.attemptUsage record).recordId := by
  have hfresh := h.tells.fresh_usage h.coherent last_mem_attempts hunmetered
  rw [Attempt.id, ← hidentity] at hfresh
  exact hfresh

theorem Told.metered (hunmetered : attempt.usage = none) {record : AttemptUsageRecord}
    (hidentity : record.toAdmittedIdentity = attempt.identity) :
    Told prepared (world.appended (.attemptUsage record))
      { attempts := earlier ++ [attempt.metered record] } where
  replays := h.replays.snoc (h.fresh_usage hunmetered hidentity)
    ((h.tells.validUsage_iff h.coherent last_mem_attempts hidentity).mpr hunmetered)
  tells := h.tells.metered hunmetered record
  coherent := by
    refine h.coherent.update (fun hnumbered => ?_) rfl rfl
    exact hnumbered.metered hidentity
  calls := h.calls.update rfl rfl

/-- The attempt under way is called. -/
theorem Told.called {call : ProviderCall}
    (huncalled : (world.calls.map (·.tag)).Sublist (earlier.map (·.tag)))
    (htag : call.tag = attempt.tag) (hroute : call.route ∈ prepared.routePlan.routes) :
    Told prepared { world with calls := world.calls ++ [call] }
      { attempts := earlier ++ [attempt] } where
  replays := h.replays
  tells := h.tells
  coherent := h.coherent
  calls := {
    called := by
      rw [List.map_append, List.map_append, List.map_singleton, List.map_singleton, htag]
      exact huncalled.append (List.Sublist.refl _)
    routes := by
      intro found hmem
      rcases List.mem_append.mp hmem with hmem | hmem
      · exact h.calls.routes found hmem
      · rw [List.mem_singleton.mp hmem]
        exact hroute
    rejected := by
      intro recovery hmem hkind
      obtain ⟨found, hfound, hrejected⟩ := h.calls.rejected recovery hmem hkind
      exact ⟨found, List.mem_append_left _ hfound, hrejected⟩ }

end Last

/-- A recovery is recorded after the last attempt. -/
theorem Told.recovers (h : Told prepared world account) (hrecovering : account.recovering = none)
    {record : InvocationRecoveryRecord} (hrecovered : Recovered account.attempts (some record))
    (hvalid : ValidNext world.journal (.recovery record))
    (hrejected : record.kind = .cacheUndecoratedRetry →
      ∃ call ∈ world.calls, call.attemptId = record.sourceAttemptId ∧ call.RejectedCacheMetadata) :
    Told prepared (world.appended (.recovery record))
      { account with recovering := some record } where
  replays := by
    obtain ⟨source, -, hof⟩ := recovered_some.mp hrecovered
    apply h.replays.snoc _ hvalid
    have hfresh := h.tells.fresh_recovery h.coherent hrecovering
    rw [← hof.ordinal] at hfresh
    exact hfresh
  tells := h.tells.recovers hrecovering record
  coherent := {
    history := h.coherent.history
    recovering := by
      rintro found ⟨⟩
      exact hrecovered
    denial := h.coherent.denial }
  calls := {
    called := h.calls.called
    routes := h.calls.routes
    rejected := by
      intro recovery hmem hkind
      rcases List.mem_append.mp hmem with hmem | hmem
      · exact h.calls.rejected recovery (List.mem_append_left _ hmem) hkind
      · cases Option.mem_toList.mp hmem
        exact hrejected hkind }

theorem Told.denies (h : Told prepared world account) (hdenial : account.denial = none)
    {record : AttemptAdmissionRecord} (hdenies : Denies prepared.routePlan account.attempts record)
    (hvalid : ValidNext world.journal (.attemptAdmission record)) :
    Told prepared (world.appended (.attemptAdmission record))
      { account with denial := some record } where
  replays := by
    apply h.replays.snoc _ hvalid
    have hfresh := h.tells.fresh_admission h.coherent hdenial
    rw [← hdenies.ordinal] at hfresh
    exact hfresh
  tells := h.tells.denies hdenial record
  coherent := {
    history := h.coherent.history
    recovering := h.coherent.recovering
    denial := by
      rintro found ⟨⟩
      exact hdenies }
  calls := ⟨h.calls.called, h.calls.routes, h.calls.rejected⟩

theorem Told.admits (h : Told prepared world account) (hdenial : account.denial = none)
    {record : AttemptAdmissionRecord} {identity : AdmittedIdentity}
    (hcontinues : Continues prepared.routePlan account.attempts
      ⟨identity, record, account.recovering, [], none, none⟩)
    (hvalid : ValidNext world.journal (.attemptAdmission record)) :
    Told prepared (world.appended (.attemptAdmission record))
      { attempts := account.attempts ++ [⟨identity, record, account.recovering, [], none, none⟩] } where
  replays := by
    apply h.replays.snoc _ hvalid
    have hfresh := h.tells.fresh_admission h.coherent hdenial
    rw [← hcontinues.numbered.admissionOrdinal] at hfresh
    exact hfresh
  tells := h.tells.admits hdenial record identity
  coherent := {
    history := h.coherent.history.snoc _ hcontinues
    recovering := by simp
    denial := by simp }
  calls := {
    called := by
      rw [List.map_append]
      exact h.calls.called.trans (List.sublist_append_left _ _)
    routes := h.calls.routes
    rejected := by
      intro recovery hmem hkind
      apply h.calls.rejected recovery _ hkind
      simpa [Account.recoveries, filterMap_singleton] using hmem }

end Told

end CopilotRuntime.ModelInvocation
