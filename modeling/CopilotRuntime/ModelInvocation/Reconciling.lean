import CopilotRuntime.ModelInvocation.Planning

/-!
# Reconciling what an earlier entry left

An attempt that was under way when its entry stopped is closed with what the
journal tells of it, and the call is not repeated.
-/

namespace CopilotRuntime.ModelInvocation

open Foundation Foundation.Program EventJournalModelInvocationStore ModelInvocationMiddleware

variable {prepared : PreparedAuthority} {entry : Entry} {world : World} {account : Account}
  {earlier : List Attempt} {last attempt : Attempt} {terminal : ModelInvocationRecord}

/-! ### Closing an invocation -/

/-- A told journal and its terminal record. -/
inductive Concluded (prepared : PreparedAuthority) (terminal : ModelInvocationRecord) : World → Prop
  | appended {before : World} (account : Account) (told : Told prepared before account)
      (ends : Journal.isTerminal [terminal] = true) (valid : ValidNext before.journal terminal) :
      Concluded prepared terminal (before.appended terminal)

theorem Tells.fresh_terminal {journal : Journal} (h : Tells prepared journal account)
    (hends : Journal.isTerminal [terminal] = true) : journal.Fresh terminal.recordId := by
  cases terminal with
  | completed record => exact Journal.fresh_completed h.underway
  | failed record => exact Journal.fresh_failed h.underway
  | _ => cases hends

theorem Concluded.sound (h : Concluded prepared terminal world) : Sound prepared world := by
  obtain ⟨account, told, hends, hvalid⟩ := h
  rename_i before
  exact .closed account before.journal terminal told rfl hends
    (told.replays.snoc (told.tells.fresh_terminal hends) hvalid)

theorem Concluded.isTerminal (h : Concluded prepared terminal world) :
    world.journal.isTerminal = true := by
  obtain ⟨account, told, hends, hvalid⟩ := h
  rw [World.appended_journal, Journal.isTerminal_append, hends, Bool.or_true]

/-- A terminal record closes a told journal, or is refused. -/
theorem ensures_conclude {post : Except ModelInvocationError Unit → World → Prop}
    (h : Told prepared world account) (hends : Journal.isTerminal [terminal] = true)
    (hformed : terminal.WellFormed)
    (hvalid : ValidNext world.journal terminal → post (.ok ()) (world.appended terminal))
    (hinvalid : ¬ ValidNext world.journal terminal →
      post (.error (.journal (.conflict terminal.recordId))) (world.refusing terminal)) :
    Ensures (serve entry) (Sound prepared) post (appendRecord terminal) world := by
  apply ensures_appendRecord (.told account h) hformed h.replays (h.tells.fresh_terminal hends)
  · intro hnext
    exact ⟨(Concluded.appended account h hends hnext).sound, hvalid hnext⟩
  · intro hrefused
    exact ⟨.told account (h.refusing terminal), hinvalid hrefused⟩

/-! ### The attempt under way -/

/-- Only the attempts of an invocation that goes on without a recovery or a denial are under
way. -/
theorem Account.eq_of_underway {plan : ModelRoutePlan} (h : account.Coherent plan)
    (hattempts : account.attempts = earlier ++ [last]) (hunderway : last.failed = none) :
    account = { attempts := earlier ++ [last] } := by
  obtain ⟨attempts, recovering, denial⟩ := account
  obtain rfl : attempts = earlier ++ [last] := hattempts
  have hrecovering : recovering = none := by
    cases hrecovery : recovering with
    | none => rfl
    | some recovery =>
        obtain ⟨found, hfound, hof⟩ := recovered_snoc.mp (h.recovering recovery hrecovery)
        have hsettled := hof.settled.1
        simp [hunderway] at hsettled
  have hdenial : denial = none := by
    cases hdenied : denial with
    | none => rfl
    | some denial =>
        have hfailed := (h.denial denial hdenied).failed last (by simp)
        simp [hunderway] at hfailed
  rw [hrecovering, hdenial]

theorem Attempt.metered_of_some {usage : AttemptUsageRecord} (h : attempt.usage = some usage) :
    attempt.metered usage = attempt := by
  rw [Attempt.metered, ← h]

section Records
variable (h : Told prepared world { attempts := earlier ++ [last] })
include h

/-- A state that may follow the states of the attempt under way is recorded. -/
theorem ensures_appendState {record : AttemptStateRecord}
    (hidentity : record.toAdmittedIdentity = last.identity)
    (hprogress : record.ProgressReconciles)
    (hprecedes : ∀ before ∈ last.states, Precedes before.state record.state)
    (hunderway : last.failed = none) :
    Ensures (serve entry) (Sound prepared) (fun result after => result = .ok () ∧
      after = world.appended (.attemptState record)) (appendRecord (.attemptState record)) world := by
  have hformed : (ModelInvocationRecord.attemptState record).WellFormed := hprogress
  apply ensures_appendRecord (.told _ h) hformed h.replays
    (h.fresh_state hidentity fun before hmem => (hprecedes before hmem).1)
  · intro _
    exact ⟨.told _ (h.stated hidentity hprogress hprecedes hunderway), rfl, rfl⟩
  · intro hrefused
    exact absurd (h.valid_state hidentity hprecedes hunderway) hrefused

theorem ensures_appendFailure (hunderway : last.failed = none) {record : AttemptFailedRecord}
    (hidentity : record.toAdmittedIdentity = last.identity)
    (hformed : (ModelInvocationRecord.attemptFailed record).WellFormed)
    (hincomplete : ∀ before ∈ last.states, before.state ≠ .completed)
    (hambiguous : (∃ before ∈ last.states, before.state = .ambiguous) →
      record.failureClass = .ambiguousProviderState)
    (hvisible : record.failureClass ≠ .ambiguousProviderState →
      record.visibleTextEmitted ∨ record.toolCallContentEmitted →
        record.streamState = .visibleOutput) :
    Ensures (serve entry) (Sound prepared) (fun result after => result = .ok () ∧
      after = world.appended (.attemptFailed record))
      (appendRecord (.attemptFailed record)) world := by
  apply ensures_appendRecord (.told _ h) hformed h.replays (h.fresh_failure hunderway hidentity)
  · intro _
    exact ⟨.told _ (h.failing hunderway hidentity hincomplete hambiguous hvisible), rfl, rfl⟩
  · intro hrefused
    exact absurd ((h.tells.validFailure_iff h.coherent last_mem_attempts hidentity).mpr
      ⟨hunderway, hincomplete⟩) hrefused

theorem ensures_appendUsage (hunmetered : last.usage = none) {record : AttemptUsageRecord}
    (hidentity : record.toAdmittedIdentity = last.identity)
    (hformed : (ModelInvocationRecord.attemptUsage record).WellFormed) :
    Ensures (serve entry) (Sound prepared) (fun result after => result = .ok () ∧
      after = world.appended (.attemptUsage record)) (appendRecord (.attemptUsage record)) world := by
  apply ensures_appendRecord (.told _ h) hformed h.replays (h.fresh_usage hunmetered hidentity)
  · intro _
    exact ⟨.told _ (h.metered hunmetered hidentity), rfl, rfl⟩
  · intro hrefused
    exact absurd ((h.tells.validUsage_iff h.coherent last_mem_attempts hidentity).mpr hunmetered)
      hrefused

end Records

theorem unreportedUsage_wellFormed (identity : AdmittedIdentity) :
    (ModelInvocationRecord.attemptUsage (unreportedUsage identity)).WellFormed := by
  refine ⟨?_, Nat.zero_le _, .inr ⟨rfl, rfl⟩⟩
  rintro id ⟨⟩

/-- Whether or not an earlier entry recorded it, the attempt under way has its usage. -/
theorem ensures_finalizeUsage (h : Told prepared world { attempts := earlier ++ [last] })
    {records : Journal} (husages : records.usages = world.journal.usages) :
    Ensures (serve entry) (Sound prepared) (fun result after =>
      result = .ok after.journal.usages ∧ after.calls = world.calls ∧ ∃ usage,
        Told prepared after { attempts := earlier ++ [last.metered usage] })
      (finalizeUsage records last.identity) world := by
  have hunmetered := h.tells.no_usage_iff h.coherent last_mem_attempts
  by_cases hmem : last.identity.attemptId ∈ records.usages.map (·.attemptId)
  · rw [finalizeUsage, if_pos hmem]
    refine ⟨.told _ h, by rw [husages], rfl, ?_⟩
    obtain ⟨found, hfound, hid⟩ := List.mem_map.mp hmem
    rw [husages] at hfound
    cases husage : last.usage with
    | none => exact absurd hid (hunmetered.mpr husage found hfound)
    | some usage =>
        refine ⟨usage, ?_⟩
        rw [Attempt.metered_of_some husage]
        exact h
  · have husage : last.usage = none := by
      apply hunmetered.mp
      intro record hrecord hid
      apply hmem
      rw [husages]
      exact List.mem_map.mpr ⟨record, hrecord, hid⟩
    rw [finalizeUsage, if_neg hmem]
    have hmetered : Told prepared
        (world.appended (.attemptUsage (unreportedUsage last.identity)))
        { attempts := earlier ++ [last.metered (unreportedUsage last.identity)] } :=
      h.metered husage rfl
    apply (ensures_appendUsage h husage rfl (unreportedUsage_wellFormed last.identity)).bind
    · rintro _ after - ⟨-, rfl⟩
      refine ⟨.told _ hmetered, ?_, rfl, _, hmetered⟩
      rw [husages, World.appended_journal, Journal.usages_append]
      rfl
    · rintro error after - ⟨herror, -⟩
      cases herror

/-- What an entry makes of an attempt that an earlier one left under way. -/
def Abandons (world : World) {α : Type} (result : Except ModelInvocationError α) (after : World) :
    Prop :=
  result = .error .replayConflict ∧ after.journal.isTerminal = true ∧ after.calls = world.calls

theorem ensures_abandon {before : World} (h : Told prepared world account)
    (hends : Journal.isTerminal [terminal] = true) (hformed : terminal.WellFormed)
    (hvalid : ValidNext world.journal terminal) (hcalls : world.calls = before.calls) :
    Ensures (serve entry) (Sound prepared) (Abandons before)
      (appendRecord terminal >>= fun _ => (raised .replayConflict : InvocationProgram Unit))
      world := by
  have hconclude : Ensures (serve entry) (Sound prepared)
      (fun result after => result = .ok () ∧ after = world.appended terminal)
      (appendRecord terminal) world := by
    apply ensures_conclude h hends hformed
    · intro _
      exact ⟨rfl, rfl⟩
    · intro hrefused
      exact absurd hvalid hrefused
  apply hconclude.bind
  · rintro _ after hsound ⟨-, rfl⟩
    exact ⟨hsound, rfl, (Concluded.appended account h hends hvalid).isTerminal, hcalls⟩
  · rintro error after - ⟨herror, -⟩
    cases herror

theorem reconcileCompleted_ensures (h : Told prepared world { attempts := earlier ++ [last] })
    (hcompleted : ∃ state ∈ last.states, state.state = .completed)
    (hsettled : ∀ before ∈ earlier, before.Settled) :
    Ensures (serve entry) (Sound prepared) (Abandons world)
      (reconcileCompleted world.journal last.identity) world := by
  have hcount : world.journal.admitted.length = (earlier ++ [last]).length := by
    rw [h.tells.admitted h.coherent, List.length_map]
  apply (ensures_finalizeUsage h rfl).bind
  · rintro usages after - ⟨husages, hcalls, usage, htold⟩
    obtain rfl := Except.ok.inj husages
    apply ensures_abandon htold rfl _ _ hcalls
    · show 1 ≤ world.journal.admitted.length
      simp [hcount]
    · have hmem : last.metered usage ∈
          ({ attempts := earlier ++ [last.metered usage] } : Account).attempts := last_mem_attempts
      rw [htold.tells.validCompletion_iff htold.coherent hmem rfl]
      refine ⟨by simp [hcount], ?_, hcompleted, rfl, rfl, rfl⟩
      intro attempt hmem
      rcases List.mem_append.mp hmem with hmem | hmem
      · exact (hsettled attempt hmem).2
      · rw [List.mem_singleton.mp hmem]
        rfl
  · rintro error after - ⟨herror, -⟩
    cases herror

/-! ### An attempt of which nobody knows how it ended -/

/-- The progress that the journal tells is what an ambiguous record repeats. -/
theorem ambiguousState_progress (binding : ModelInvocationRuntimeBinding)
    (identity : AdmittedIdentity) {states : List AttemptStateRecord}
    (h : ∀ record ∈ states, record.ProgressReconciles) :
    (ambiguousState binding identity states.getLast?).ProgressReconciles := by
  cases hlast : states.getLast? with
  | none => exact ⟨nofun, nofun, nofun, nofun⟩
  | some last =>
      obtain ⟨hvisible, htool, -, -⟩ := h last (List.mem_of_getLast? hlast)
      exact ⟨hvisible, htool, nofun, nofun⟩

theorem ambiguousFailure_wellFormed (binding : ModelInvocationRuntimeBinding)
    (identity : AdmittedIdentity) {states : List AttemptStateRecord}
    (h : ∀ record ∈ states, record.ProgressReconciles) :
    (ModelInvocationRecord.attemptFailed
      (ambiguousFailure binding identity states.getLast?)).WellFormed := by
  cases hlast : states.getLast? with
  | none => exact nofun
  | some last => exact (h last (List.mem_of_getLast? hlast)).1

theorem ambiguousTerminal_wellFormed (records : Journal) (identity : AdmittedIdentity)
    (usages : List AttemptUsageRecord) (hadmitted : records.admitted ≠ []) :
    (ModelInvocationRecord.failed (ambiguousTerminal records identity usages)).WellFormed := by
  constructor
  · intro hnone
    exact absurd (List.length_eq_zero_iff.mp hnone) hadmitted
  · rintro ⟨⟩

/-- The attempt is recorded as failed, whatever came of it, and the invocation is closed. -/
theorem ensures_failOpen {before : World} (h : Told prepared world { attempts := earlier ++ [last] })
    (hunderway : last.failed = none) (hincomplete : ∀ state ∈ last.states, state.state ≠ .completed)
    (hsettled : ∀ before ∈ earlier, before.Settled) (hcalls : world.calls = before.calls)
    {records : Journal} (husages : records.usages = world.journal.usages)
    (hadmitted : records.admitted = world.journal.admitted) {states : List AttemptStateRecord}
    (hstates : ∀ record ∈ states, record.ProgressReconciles) :
    Ensures (serve entry) (Sound prepared) (Abandons before) (do
      appendRecord (.attemptFailed (ambiguousFailure entry.binding last.identity states.getLast?))
      let usages ← finalizeUsage records last.identity
      appendRecord (.failed (ambiguousTerminal records last.identity usages))
      (raised .replayConflict : InvocationProgram Unit)) world := by
  have htold : Told prepared (world.appended
      (.attemptFailed (ambiguousFailure entry.binding last.identity states.getLast?)))
      { attempts := earlier ++
        [last.failing (ambiguousFailure entry.binding last.identity states.getLast?)] } :=
    h.failing hunderway rfl hincomplete (fun _ => rfl) fun hclass => absurd rfl hclass
  have hcount : records.admitted = (earlier ++ [last]).map (·.identity) := by
    rw [hadmitted, h.tells.admitted h.coherent]
  apply (ensures_appendFailure h hunderway rfl (ambiguousFailure_wellFormed _ _ hstates) hincomplete
    (fun _ => rfl) fun hclass => absurd rfl hclass).bind
  · rintro _ failed - ⟨-, rfl⟩
    have hsame : records.usages =
        (world.appended (.attemptFailed (ambiguousFailure entry.binding last.identity
          states.getLast?))).journal.usages := by
      rw [husages, World.appended_journal, Journal.usages_append]
      exact (List.append_nil _).symm
    apply (ensures_finalizeUsage htold hsame).bind
    · rintro usages after - ⟨hresult, hafter, usage, hmetered⟩
      obtain rfl := Except.ok.inj hresult
      apply ensures_abandon hmetered rfl _ _ (hafter.trans hcalls)
      · exact ambiguousTerminal_wellFormed _ _ _ (by simp [hcount])
      · rw [hmetered.tells.validInvocationFailure_iff hmetered.coherent]
        · refine ⟨by simp [ambiguousTerminal, hcount], ?_, rfl, rfl, rfl, rfl⟩
          intro attempt hmem
          rcases List.mem_append.mp hmem with hmem | hmem
          · exact (hsettled attempt hmem).2
          · rw [List.mem_singleton.mp hmem]
            rfl
        · simp [ambiguousTerminal, Attempt.metered, Attempt.failing]
        · simp [Attempt.metered, Attempt.failing]
        · simp
    · rintro error after - ⟨herror, -⟩
      cases herror
  · rintro error after - ⟨herror, -⟩
    cases herror

/-- The attempt was recorded as cancelled. -/
def Attempt.Cancelled (attempt : Attempt) : Prop :=
  ∃ record ∈ attempt.states, record.state = .cancelled

/-- The store refuses what the entry would go on with. -/
def Refuses (world : World) {α : Type} (result : Except ModelInvocationError α) (after : World) :
    Prop :=
  (∃ id, result = .error (.journal (.conflict id))) ∧ after.journal.isTerminal = false ∧
    after.calls = world.calls

/-- A state that ends an attempt is its last one. -/
theorem Attempt.Numbered.getLast_of_ends {number : Nat} (h : attempt.Numbered number)
    {record : AttemptStateRecord} (hmem : record ∈ attempt.states)
    (hends : endsAttempt record.state) : attempt.states.getLast? = some record := by
  obtain ⟨before, final, hstates⟩ := List.eq_nil_or_concat attempt.states |>.resolve_left
    (List.ne_nil_of_mem hmem)
  have hdrop := h.ends
  rw [List.concat_eq_append] at hstates
  rw [hstates, List.dropLast_concat] at hdrop
  rw [hstates] at hmem ⊢
  rcases List.mem_append.mp hmem with hmem | hmem
  · exact absurd hends (hdrop record hmem)
  · rw [List.mem_singleton.mp hmem]
    exact List.getLast?_concat

/-- The ambiguous end of an attempt is recorded unless it was recorded as cancelled. -/
theorem ensures_recordAmbiguous (h : Told prepared world { attempts := earlier ++ [last] })
    (hunderway : last.failed = none) (hincomplete : ∀ state ∈ last.states, state.state ≠ .completed)
    (hambiguous : ∀ state ∈ last.states, state.state ≠ .ambiguous) :
    Ensures (serve entry) (Sound prepared) (fun result after =>
      (last.Cancelled → Refuses world result after) ∧
        (¬ last.Cancelled → result = .ok () ∧ after.calls = world.calls ∧
          after.journal.usages = world.journal.usages ∧
          Told prepared after { attempts := earlier ++ [last.stated
            (ambiguousState entry.binding last.identity last.states.getLast?)] }))
      (appendRecord (.attemptState
        (ambiguousState entry.binding last.identity last.states.getLast?))) world := by
  have hnumbered := h.numbered
  have hprogress := ambiguousState_progress entry.binding last.identity hnumbered.progress
  have hformed : (ModelInvocationRecord.attemptState
      (ambiguousState entry.binding last.identity last.states.getLast?)).WellFormed := hprogress
  have hfresh : world.journal.Fresh (ModelInvocationRecord.attemptState
      (ambiguousState entry.binding last.identity last.states.getLast?)).recordId :=
    h.fresh_state rfl hambiguous
  by_cases hcancelled : last.Cancelled
  · obtain ⟨record, hmem, hstate⟩ := hcancelled
    have hlast := hnumbered.getLast_of_ends hmem (.inr (.inl hstate))
    apply ensures_appendRecord (.told _ h) hformed h.replays hfresh
    · intro hvalid
      obtain ⟨-, -, hnext⟩ := (h.tells.validState_iff h.coherent last_mem_attempts rfl).mp hvalid
      exact absurd (.inr (.inl hstate)) (hnext record hlast).2
    · intro _
      refine ⟨.told _ (h.refusing _), fun _ => ⟨⟨_, rfl⟩, h.tells.underway, rfl⟩, ?_⟩
      exact fun huncancelled => absurd ⟨record, hmem, hstate⟩ huncancelled
  · have hprecedes : ∀ before ∈ last.states, Precedes before.state .ambiguous := by
      intro before hmem
      refine ⟨hambiguous before hmem, ?_, ?_⟩
      · cases before.state
        all_goals decide
      · rintro (hended | hended | hended)
        · exact hincomplete before hmem hended
        · exact hcancelled ⟨before, hmem, hended⟩
        · exact hambiguous before hmem hended
    apply (ensures_appendState h rfl hprogress hprecedes hunderway).mono
    rintro result after - ⟨rfl, rfl⟩
    refine ⟨fun hended => absurd hended hcancelled, fun _ => ⟨rfl, rfl, ?_, ?_⟩⟩
    · rw [World.appended_journal, Journal.usages_append]
      exact List.append_nil _
    · exact h.stated rfl hprogress hprecedes hunderway

theorem reconcileOpen_ensures (h : Told prepared world { attempts := earlier ++ [last] })
    (hunderway : last.failed = none) (hincomplete : ∀ state ∈ last.states, state.state ≠ .completed)
    (hsettled : ∀ before ∈ earlier, before.Settled) :
    Ensures (serve entry) (Sound prepared) (fun result after =>
      (last.Cancelled → Refuses world result after) ∧
        (¬ last.Cancelled → Abandons world result after))
      (reconcileOpen entry.binding world.journal last.identity) world := by
  have hnumbered := h.numbered
  have hstates : statesOf world.journal last.identity.attemptId = last.states :=
    h.tells.statesOf h.coherent last_mem_attempts
  rw [reconcileOpen]
  dsimp only
  rw [hstates]
  by_cases hambiguous : ∀ record ∈ last.states, record.state ≠ .ambiguous
  · rw [if_pos hambiguous]
    apply (ensures_recordAmbiguous h hunderway hincomplete hambiguous).bind
    · rintro _ after - ⟨hrefused, hrecorded⟩
      by_cases hcancelled : last.Cancelled
      · obtain ⟨⟨id, herror⟩, -⟩ := hrefused hcancelled
        cases herror
      · obtain ⟨-, hcalls, husages, htold⟩ := hrecorded hcancelled
        have hincomplete' : ∀ state ∈ (last.stated (ambiguousState entry.binding last.identity
            last.states.getLast?)).states, state.state ≠ .completed := by
          intro state hmem
          rcases List.mem_append.mp hmem with hmem | hmem
          · exact hincomplete state hmem
          · rw [List.mem_singleton.mp hmem]
            exact nofun
        have hadmitted : world.journal.admitted = after.journal.admitted := by
          rw [h.tells.admitted h.coherent, htold.tells.admitted htold.coherent]
          simp [Attempt.stated]
        have hfails : Ensures (serve entry) (Sound prepared) (Abandons world) _ after :=
          ensures_failOpen htold hunderway hincomplete' hsettled hcalls husages.symm hadmitted
            hnumbered.progress
        exact hfails.mono fun result final _ habandons =>
          ⟨fun hended => absurd hended hcancelled, fun _ => habandons⟩
    · rintro error after - ⟨hrefused, hrecorded⟩
      by_cases hcancelled : last.Cancelled
      · obtain ⟨⟨id, herror⟩, hrest⟩ := hrefused hcancelled
        rw [Except.error.inj herror]
        exact ⟨fun _ => ⟨⟨id, rfl⟩, hrest⟩, fun hnot => absurd hcancelled hnot⟩
      · obtain ⟨herror, -⟩ := hrecorded hcancelled
        cases herror
  · rw [if_neg hambiguous]
    push Not at hambiguous
    obtain ⟨record, hmem, hstate⟩ := hambiguous
    have hlast := hnumbered.getLast_of_ends hmem (.inr (.inr hstate))
    have huncancelled : ¬ last.Cancelled := by
      rintro ⟨other, hother, hcancelled⟩
      have hsame := hnumbered.getLast_of_ends hother (.inr (.inl hcancelled))
      rw [hlast] at hsame
      rw [Option.some.inj hsame, hcancelled] at hstate
      cases hstate
    have hfails : Ensures (serve entry) (Sound prepared) (Abandons world) _ world :=
      ensures_failOpen h hunderway hincomplete hsettled rfl rfl rfl hnumbered.progress
    exact hfails.mono fun result after _ habandons =>
      ⟨fun hcancelled => absurd hcancelled huncancelled, fun _ => habandons⟩

/-! ### Reconciling all attempts -/

theorem forM_of_done {α : Type} {f : α → InvocationProgram Unit} {xs ys : List α}
    (h : ∀ x ∈ xs, f x = done ()) : (xs ++ ys).forM f = ys.forM f := by
  induction xs with
  | nil => rfl
  | cons x rest ih =>
      rw [List.cons_append, List.forM, h x List.mem_cons_self]
      exact ih fun y hy => h y (List.mem_cons_of_mem _ hy)

/-- An attempt that failed is left as it is. -/
theorem reconcileAttempt_of_failed (h : Told prepared world account) (hmem : attempt ∈ account.attempts)
    (hfailed : attempt.failed.isSome) (binding : ModelInvocationRuntimeBinding) :
    reconcileAttempt binding world.journal attempt.identity = done () := by
  have hnumbered := numbered_of_mem h.coherent.history hmem
  have hstates : statesOf world.journal attempt.identity.attemptId = attempt.states :=
    h.tells.statesOf h.coherent hmem
  have hnone := h.tells.no_failure_iff h.coherent hmem
  have hincomplete : ¬ ∃ record ∈ attempt.states, record.state = .completed := by
    rintro ⟨record, hrecord, hstate⟩
    exact hnumbered.incomplete hfailed record hrecord hstate
  have hrecorded : attempt.identity.attemptId ∈ world.journal.failures.map (·.attemptId) := by
    by_contra hmissing
    rw [hnone.mp fun record hrecord hid => hmissing (List.mem_map.mpr ⟨record, hrecord, hid⟩)]
      at hfailed
    cases hfailed
  rw [reconcileAttempt, hstates, if_neg hincomplete, if_pos hrecorded]
  rfl

/-- What becomes of the attempts that earlier entries left. -/
structure Reconciles (world : World) (account : Account) (result : Except ModelInvocationError Unit)
    (after : World) : Prop where
  failed : (∀ last ∈ account.attempts.getLast?, last.failed.isSome) →
    result = .ok () ∧ after = world
  cancelled : ∀ last ∈ account.attempts.getLast?, last.failed = none → last.Cancelled →
    Refuses world result after
  underway : ∀ last ∈ account.attempts.getLast?, last.failed = none → ¬ last.Cancelled →
    Abandons world result after

theorem reconciles_of_failed
    (hfailed : ∀ last ∈ account.attempts.getLast?, last.failed.isSome) :
    Reconciles world account (.ok ()) world where
  failed := fun _ => ⟨rfl, rfl⟩
  cancelled := by
    intro last hlast hunderway
    exact absurd hunderway (by simpa [Option.isSome_iff_ne_none] using hfailed last hlast)
  underway := by
    intro last hlast hunderway
    exact absurd hunderway (by simpa [Option.isSome_iff_ne_none] using hfailed last hlast)

/-- The attempt under way is closed with what the journal tells of it. -/
theorem reconcileAttempt_ensures (h : Told prepared world { attempts := earlier ++ [last] })
    (hunderway : last.failed = none) :
    Ensures (serve entry) (Sound prepared) (fun result after =>
      (last.Cancelled → Refuses world result after) ∧
        (¬ last.Cancelled → Abandons world result after))
      (reconcileAttempt entry.binding world.journal last.identity) world := by
  have hsettled := settled_of_history h.coherent.history
  have hstates : statesOf world.journal last.identity.attemptId = last.states :=
    h.tells.statesOf h.coherent last_mem_attempts
  rw [reconcileAttempt, hstates]
  by_cases hcompleted : ∃ record ∈ last.states, record.state = .completed
  · rw [if_pos hcompleted]
    obtain ⟨record, hmem, hstate⟩ := hcompleted
    have huncancelled : ¬ last.Cancelled := by
      rintro ⟨other, hother, hcancelled⟩
      have hlast := h.numbered.getLast_of_ends hmem (.inl hstate)
      rw [h.numbered.getLast_of_ends hother (.inr (.inl hcancelled))] at hlast
      rw [Option.some.inj hlast, hstate] at hcancelled
      cases hcancelled
    have hcompletes : Ensures (serve entry) (Sound prepared) (Abandons world) _ world :=
      reconcileCompleted_ensures h ⟨record, hmem, hstate⟩ hsettled
    exact hcompletes.mono fun result after _ habandons =>
      ⟨fun hcancelled => absurd hcancelled huncancelled, fun _ => habandons⟩
  · have hunrecorded : last.identity.attemptId ∉ world.journal.failures.map (·.attemptId) := by
      intro hmem
      obtain ⟨failure, hfailure, hid⟩ := List.mem_map.mp hmem
      exact (h.tells.no_failure_iff h.coherent last_mem_attempts).mpr hunderway failure hfailure hid
    rw [if_neg hcompleted, if_neg hunrecorded]
    push Not at hcompleted
    exact reconcileOpen_ensures h hunderway hcompleted hsettled

theorem ensures_reconcileReplay (h : Told prepared world account) :
    Ensures (serve entry) (Sound prepared) (Reconciles world account)
      (reconcileReplay entry.binding world.journal) world := by
  rw [reconcileReplay, h.tells.admitted h.coherent]
  obtain hnone | ⟨earlier, last, hattempts⟩ := List.eq_nil_or_concat account.attempts
  · rw [hnone]
    exact ⟨.told _ h, reconciles_of_failed (by simp [hnone])⟩
  · rw [List.concat_eq_append] at hattempts
    have hhistory := h.coherent.history
    rw [hattempts] at hhistory
    have hsettled := settled_of_history hhistory
    have hearlier : ∀ identity ∈ earlier.map (·.identity),
        reconcileAttempt entry.binding world.journal identity = done () := by
      intro identity hmem
      obtain ⟨attempt, hattempt, rfl⟩ := List.mem_map.mp hmem
      exact reconcileAttempt_of_failed h (hattempts ▸ List.mem_append_left _ hattempt)
        (hsettled attempt hattempt).1 entry.binding
    have hlatest : account.attempts.getLast? = some last := by simp [hattempts]
    rw [hattempts, List.map_append, forM_of_done hearlier]
    by_cases hfailed : last.failed.isSome
    · rw [List.map_singleton, List.forM, reconcileAttempt_of_failed h (by simp [hattempts]) hfailed]
      exact ⟨.told _ h, reconciles_of_failed (by simpa [hlatest] using hfailed)⟩
    · rw [Bool.not_eq_true, Option.isSome_eq_false_iff, Option.isNone_iff_eq_none] at hfailed
      have htold : Told prepared world { attempts := earlier ++ [last] } :=
        Account.eq_of_underway h.coherent hattempts hfailed ▸ h
      rw [List.map_singleton, List.forM]
      apply (reconcileAttempt_ensures htold hfailed).bind
      · rintro _ after - ⟨hrefused, habandoned⟩
        by_cases hcancelled : last.Cancelled
        · obtain ⟨⟨id, herror⟩, -⟩ := hrefused hcancelled
          cases herror
        · obtain ⟨herror, -⟩ := habandoned hcancelled
          cases herror
      · rintro error after - ⟨hrefused, habandoned⟩
        refine ⟨?_, ?_, ?_⟩
        · intro hall
          have hsome := hall last hlatest
          rw [hfailed] at hsome
          cases hsome
        · intro found hfound _ hcancelled
          rw [hlatest] at hfound
          cases hfound
          exact hrefused hcancelled
        · intro found hfound _ huncancelled
          rw [hlatest] at hfound
          cases hfound
          exact habandoned huncancelled

end CopilotRuntime.ModelInvocation
