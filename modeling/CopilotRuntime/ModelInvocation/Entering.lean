import CopilotRuntime.ModelInvocation.Attempting

/-!
# What an entry finds and what it comes to

An entry finds a journal without records, a part of a plan, the attempts of
earlier entries, or a closed invocation.
-/

namespace CopilotRuntime.ModelInvocation

open Foundation Foundation.Program EventJournalModelInvocationStore ModelInvocationMiddleware
open ModelAttemptAdmissionPolicy

variable {prepared : PreparedAuthority} {entry : Entry} {world : World} {account : Account}

/-! ### A part of a plan -/

/-- A plan is recorded, but not all of its routes and exclusions. -/
structure PartlyPlanned (prepared : PreparedAuthority) (journal : Journal) : Prop where
  replays : ReplaysAfter [] journal
  planned : journal.planned = [PlannedRecord.create prepared]
  admissions : journal.admissions = []
  recoveries : journal.recoveries = []
  underway : journal.isTerminal = false
  incomplete : ¬ (journal.routes.length = prepared.routePlan.routes.length ∧
    journal.exclusions.length = prepared.routePlan.exclusions.length)

theorem header_routes : (header prepared).routes.length = prepared.routePlan.routes.length := by
  rw [header_eq, recording_routes]
  simp [eligibleRecords]

theorem header_exclusions :
    (header prepared).exclusions.length = prepared.routePlan.exclusions.length := by
  rw [header_eq, recording_exclusions]
  simp [excludedRecords]

/-- Every record of a plan but its first is about a route. -/
theorem route_of_mem {record : ModelInvocationRecord}
    (h : record ∈ routeRecords prepared.routePlan) :
    (∃ route, record = .routeEligible route) ∨ ∃ exclusion, record = .routeExcluded exclusion := by
  rcases List.mem_append.mp h with h | h
  · obtain ⟨route, -, rfl⟩ := List.mem_map.mp h
    exact .inl ⟨route, rfl⟩
  · obtain ⟨exclusion, -, rfl⟩ := List.mem_map.mp h
    exact .inr ⟨exclusion, rfl⟩

theorem partlyPlanned_of_recorded {journal rest : Journal}
    (hrecorded : journal ++ rest = header prepared) (hrest : rest ≠ []) (hsome : journal ≠ []) :
    PartlyPlanned prepared journal := by
  obtain ⟨first, later, rfl⟩ := List.exists_cons_of_ne_nil hsome
  rw [List.cons_append] at hrecorded
  obtain ⟨hfirst, hlater⟩ := List.cons.inj hrecorded
  have hroutes : ∀ record ∈ later ++ rest, (∃ route, record = .routeEligible route) ∨
      ∃ exclusion, record = .routeExcluded exclusion := by
    intro record hmem
    rw [hlater] at hmem
    exact route_of_mem hmem
  have hnone {α : Type} (f : ModelInvocationRecord → Option α)
      (hf : ∀ record ∈ later ++ rest, f record = none) : later.filterMap f = [] :=
    List.filterMap_eq_nil_iff.mpr fun record hmem => hf record (List.mem_append_left _ hmem)
  subst hfirst
  constructor
  · have hreplays : ReplaysAfter [] ((.planned (PlannedRecord.create prepared) :: later) ++ rest) := by
      rw [List.cons_append, hrecorded]
      exact header_replays
    exact (replaysAfter_append.mp hreplays).1
  · show PlannedRecord.create prepared :: later.filterMap _ = _
    rw [hnone]
    intro record hmem
    rcases hroutes record hmem with ⟨route, rfl⟩ | ⟨exclusion, rfl⟩ <;> rfl
  · show later.filterMap _ = []
    rw [hnone]
    intro record hmem
    rcases hroutes record hmem with ⟨route, rfl⟩ | ⟨exclusion, rfl⟩ <;> rfl
  · show later.filterMap _ = []
    rw [hnone]
    intro record hmem
    rcases hroutes record hmem with ⟨route, rfl⟩ | ⟨exclusion, rfl⟩ <;> rfl
  · rw [Journal.isTerminal, List.any_eq_false]
    intro record hmem
    rcases List.mem_cons.mp hmem with rfl | hmem
    · exact Bool.false_ne_true
    · rcases hroutes record (List.mem_append_left _ hmem) with ⟨route, rfl⟩ | ⟨exclusion, rfl⟩ <;>
        exact Bool.false_ne_true
  · rintro ⟨hall, hexcluded⟩
    rw [← List.cons_append] at hrecorded
    have hroutesLength := congrArg (fun journal : Journal => journal.routes.length) hrecorded
    have hexclusionsLength := congrArg (fun journal : Journal => journal.exclusions.length) hrecorded
    simp only [Journal.routes_append, List.length_append, header_routes] at hroutesLength
    simp only [Journal.exclusions_append, List.length_append, header_exclusions] at hexclusionsLength
    have hrestRoutes : rest.routes = [] := List.eq_nil_of_length_eq_zero (by omega)
    have hrestExclusions : rest.exclusions = [] := List.eq_nil_of_length_eq_zero (by omega)
    obtain ⟨record, hmem⟩ := List.exists_mem_of_ne_nil rest hrest
    rcases hroutes record (List.mem_append_right _ hmem) with ⟨route, rfl⟩ | ⟨exclusion, rfl⟩
    · have hfound : route ∈ rest.routes := List.mem_filterMap.mpr ⟨_, hmem, rfl⟩
      rw [hrestRoutes] at hfound
      cases hfound
    · have hfound : exclusion ∈ rest.exclusions := List.mem_filterMap.mpr ⟨_, hmem, rfl⟩
      rw [hrestExclusions] at hfound
      cases hfound

theorem PartlyPlanned.admitted {journal : Journal} (h : PartlyPlanned prepared journal) :
    journal.admitted = [] := by
  rw [Journal.admitted, h.admissions, List.filterMap_nil]

/-- The store accepts no admission after a part of a plan. -/
theorem PartlyPlanned.refuses (h : PartlyPlanned prepared world.journal)
    {record : AttemptAdmissionRecord}
    (hformed : (ModelInvocationRecord.attemptAdmission record).WellFormed)
    (hhere : Sound prepared world) (hrefused : ∀ record, Sound prepared (world.refusing record)) :
    Ensures (serve entry) (Sound prepared) (Refuses world) (appendRecord (.attemptAdmission record))
      world := by
  apply ensures_appendRecord hhere hformed h.replays
  · apply Journal.fresh_attemptAdmission
    rw [h.admissions]
    simp
  · rw [ValidNext, h.planned]
    rintro ⟨-, hroutes, hexclusions, -⟩
    exact absurd ⟨hroutes, hexclusions⟩ h.incomplete
  · intro _
    exact ⟨hrefused _, ⟨_, rfl⟩, h.underway, rfl⟩

theorem ensures_refuses_bind {α β : Type} {program : InvocationProgram α} {next : α → InvocationProgram β}
    (h : Ensures (serve entry) (Sound prepared) (Refuses world) program world) :
    Ensures (serve entry) (Sound prepared) (Refuses world) (program >>= next) world := by
  apply h.bind
  · rintro value after - ⟨⟨id, herror⟩, -⟩
    cases herror
  · rintro error after - ⟨⟨id, herror⟩, hrest⟩
    rw [Except.error.inj herror]
    exact ⟨⟨id, rfl⟩, hrest⟩

/-- The first attempt follows no recovery. -/
theorem startAttempt_first (admission : AttemptAdmissionRecord) (identity : AdmittedIdentity)
    (reason : ModelAttemptDecisionReason) :
    startAttempt admission identity reason { prior := [], recoveries := [] } =
      appendRecord (.attemptAdmission admission) >>= fun _ =>
        appendRecord (.attemptState (dispatchingRecord identity)) >>= fun _ => done [] := rfl

/-- A call cannot go on from a part of a plan. -/
theorem PartlyPlanned.ensures_attempts (h : PartlyPlanned prepared world.journal)
    (hhere : Sound prepared world) (hrefused : ∀ record, Sound prepared (world.refusing record))
    {fuel : Nat} : Ensures (serve entry) (Sound prepared) (Refuses world)
      (attempts entry.binding prepared.routePlan (fuel + 1) { prior := [], recoveries := [] })
      world := by
  have hnone : AllFailed [] := by
    rintro attempt ⟨⟩
  obtain ⟨decision, hdecision⟩ : ∃ decision,
      decideAttempt entry.binding prepared.routePlan [] (.decision 0) = .ok decision :=
    decideAttempt_ok _ _ _ rfl
  have hnext : nextDecision entry.binding prepared.routePlan { prior := [], recoveries := [] } =
      .ok decision := hdecision
  rw [attempts, hnext, ofExcept_ok, done_bind]
  cases decision with
  | deny reason =>
      dsimp only
      rw [denyAttempt]
      exact ensures_refuses_bind (h.refuses (denial_wellFormed _ _ _) hhere hrefused)
  | admits deploymentId ordinal reason =>
      obtain ⟨hwithin, -⟩ := decideAttempt_admit hdecision
      obtain rfl := hwithin.ordinal
      obtain ⟨route, hroute⟩ : ∃ route,
          routeRequest entry.binding prepared.routePlan deploymentId 1 = .ok route :=
        routeRequest_of_resolves hwithin.route (.inl (decideAttempt_first hdecision))
      dsimp only
      rw [List.length_nil, hroute, ofExcept_ok, done_bind, startAttempt_first]
      have hformed : (ModelInvocationRecord.attemptAdmission (admissionRecord entry.binding
          (.admits deploymentId 1 reason) [])).WellFormed := admission_wellFormed hnone entry.binding
      have hadmission : Ensures (serve entry) (Sound prepared) (Refuses world) _ world :=
        h.refuses hformed hhere hrefused
      exact ensures_refuses_bind (ensures_refuses_bind hadmission)

/-! ### Loading -/

theorem ensures_loadRecorded (hhere : Sound prepared world)
    (hreplays : ReplaysAfter [] world.journal)
    (hplanned : world.journal.planned = [PlannedRecord.create prepared]) :
    Ensures (serve entry) (Sound prepared) (fun result after => after = world ∧
      result = if world.journal.isTerminal then .error .replayConflict else .ok world.journal)
      (loadOrPlan prepared) world := by
  rw [loadOrPlan, bind_bind, request_bind, ensures_await]
  refine ⟨hhere, ?_⟩
  simp only [serve, listForRun_of_replays hreplays]
  show Ensures _ _ _ (done world.journal >>= _) world
  rw [done_bind, hplanned]
  have hmatches : matchesAuthority prepared (PlannedRecord.create prepared) :=
    ⟨rfl, rfl, rfl, rfl, rfl, rfl⟩
  by_cases hterminal : world.journal.isTerminal = true
  · simp only [List.head?_cons, hterminal, not_true_eq_false, and_false, if_false, if_true]
    exact ⟨hhere, rfl, rfl⟩
  · simp only [List.head?_cons, hmatches, hterminal]
    exact ⟨hhere, rfl, rfl⟩

/-- What becomes of a plan of which nothing is recorded. -/
structure Plans (prepared : PreparedAuthority) (world : World)
    (result : Except ModelInvocationError Journal) (after : World) : Prop where
  calls : after.calls = world.calls
  refused : after.refused = world.refused
  planned : Projectable prepared.routePlan →
    result = .ok (header prepared) ∧ after.journal = header prepared
  invalid : ¬ Projectable prepared.routePlan →
    result = .error .invalidRecord ∧ after.journal.isTerminal = false

theorem ensures_loadEmpty (hjournal : world.journal = []) (hcalls : world.calls = []) :
    Ensures (serve entry) (Sound prepared) (Plans prepared world) (loadOrPlan prepared) world := by
  have hhere : Sound prepared world :=
    sound_of_recorded (by rw [hjournal, List.nil_append]) hcalls
  have hreplays : ReplaysAfter [] world.journal := by
    rw [hjournal]
    trivial
  rw [loadOrPlan, bind_bind, request_bind, ensures_await]
  refine ⟨hhere, ?_⟩
  simp only [serve, listForRun_of_replays hreplays]
  show Ensures _ _ _ (done world.journal >>= _) world
  rw [done_bind, hjournal]
  show Ensures _ _ _ (plan prepared) world
  rw [plan]
  obtain ⟨planned, hplanned⟩ : ∃ planned,
      planned = world.appended (.planned (PlannedRecord.create prepared)) := ⟨_, rfl⟩
  have hrecorded : planned.journal ++ routeRecords prepared.routePlan = header prepared := by
    rw [hplanned, World.appended_journal, hjournal]
    rfl
  have hcallsPlanned : planned.calls = [] := by
    rw [hplanned]
    exact hcalls
  have happend : Ensures (serve entry) (Sound prepared)
      (fun result after => result = .ok () ∧ after = planned)
      (appendRecord (.planned (PlannedRecord.create prepared))) world := by
    have hformed : (ModelInvocationRecord.planned (PlannedRecord.create prepared)).WellFormed :=
      trivial
    apply ensures_appendRecord hhere hformed hreplays
    · rw [hjournal]
      rintro record ⟨⟩
    · intro _
      rw [← hplanned]
      exact ⟨sound_of_recorded hrecorded hcallsPlanned, rfl, rfl⟩
    · intro hinvalid
      rw [hjournal] at hinvalid
      exact absurd ⟨_, rfl⟩ hinvalid
  apply happend.bind
  · rintro _ after hsound ⟨-, rfl⟩
    dsimp only
    by_cases hprojectable : ∀ record ∈ routeRecords prepared.routePlan, record.WellFormed
    · rw [if_pos hprojectable]
      apply (ensures_record_plan hrecorded hcallsPlanned hprojectable).bind
      · rintro _ final hfinal ⟨-, hheader, hnone, hsame⟩
        refine ⟨hfinal, hnone.trans hcalls.symm, ?_, fun _ => ⟨rfl, hheader⟩,
          fun hnot => absurd hprojectable hnot⟩
        rw [hsame, hplanned]
        rfl
      · rintro error final - ⟨herror, -⟩
        cases herror
    · rw [if_neg hprojectable]
      refine ⟨hsound, hcallsPlanned.trans hcalls.symm, ?_, fun hyes => absurd hyes hprojectable,
        fun _ => ⟨rfl, ?_⟩⟩
      · rw [hplanned]
        rfl
      · rw [hplanned, World.appended_journal, hjournal]
        rfl
  · rintro error after - ⟨herror, -⟩
    cases herror

/-! ### Entries -/

/-- What an entry comes to, by what it found. -/
inductive Entered (entry : Entry) (prepared : PreparedAuthority) (world : World)
    (result : Except ModelInvocationError ModelResponse) (after : World) : Prop
  | unprojectable (journal : world.journal = []) (invalid : ¬ Projectable prepared.routePlan)
      (calls : after.calls = world.calls) (underway : after.journal.isTerminal = false)
  | planned (recorded : World) (journal : world.journal = [])
      (projectable : Projectable prepared.routePlan) (calls : recorded.calls = world.calls)
      (refused : recorded.refused = world.refused)
      (told : Told prepared recorded { attempts := [] })
      (attempted : Attempted entry prepared recorded { attempts := [] }
        { prior := [], recoveries := [] } result after)
  | partly (planned : PartlyPlanned prepared world.journal) (refuses : Refuses world result after)
  | cancelled (account : Account) (last : Attempt) (told : Told prepared world account)
      (latest : account.attempts.getLast? = some last) (underway : last.failed = none)
      (cancelled : last.Cancelled) (refuses : Refuses world result after)
  | abandoned (account : Account) (last : Attempt) (told : Told prepared world account)
      (latest : account.attempts.getLast? = some last) (underway : last.failed = none)
      (uncancelled : ¬ last.Cancelled) (abandons : Abandons world result after)
  | attempted (account : Account) (told : Told prepared world account)
      (failed : AllFailed account.attempts)
      (attempted : Attempted entry prepared world account
        { prior := outcomes account.attempts, recoveries := account.recoveries } result after)
  | closed (terminal : world.journal.isTerminal = true) (raises : result = .error .replayConflict)
      (unchanged : after = world)

theorem Told.ready (h : Told prepared world account) (hfailed : AllFailed account.attempts) :
    Ready prepared world account
      { prior := outcomes account.attempts, recoveries := account.recoveries } where
  told := h
  failed := hfailed
  prior := rfl
  recoveries := rfl
  pending := by
    rintro decision ⟨⟩

theorem allFailed_of_last (h : Told prepared world account)
    (hlast : ∀ last ∈ account.attempts.getLast?, last.failed.isSome) :
    AllFailed account.attempts := by
  obtain hnone | ⟨earlier, last, hattempts⟩ := List.eq_nil_or_concat account.attempts
  · rw [hnone]
    rintro attempt ⟨⟩
  · rw [List.concat_eq_append] at hattempts
    have hhistory := h.coherent.history
    rw [hattempts] at hhistory hlast ⊢
    intro attempt hmem
    rcases List.mem_append.mp hmem with hmem | hmem
    · exact (settled_of_history hhistory attempt hmem).1
    · rw [List.mem_singleton.mp hmem]
      exact hlast last List.getLast?_concat

/-- An entry that finds a told journal takes up the attempt under way, or goes on. -/
theorem ensures_entered_told (h : Told prepared world account) :
    Ensures (serve entry) (Sound prepared) (Entered entry prepared world)
      (entered entry prepared) world := by
  have hsound : Sound prepared world := .told _ h
  rw [entered, awrapModelCall]
  apply (ensures_loadRecorded hsound h.replays h.tells.planned).bind
  · rintro records _ - ⟨rfl, hrecords⟩
    rw [h.tells.underway, if_neg Bool.false_ne_true] at hrecords
    obtain rfl := Except.ok.inj hrecords
    apply (ensures_reconcileReplay h).bind
    · rintro _ after - hreconciles
      have hlast : ∀ last ∈ account.attempts.getLast?, last.failed.isSome := by
        intro last hmem
        rw [Option.isSome_iff_ne_none]
        intro hunderway
        by_cases hcancelled : last.Cancelled
        · obtain ⟨⟨id, herror⟩, -⟩ := hreconciles.cancelled last hmem hunderway hcancelled
          cases herror
        · obtain ⟨herror, -⟩ := hreconciles.underway last hmem hunderway hcancelled
          cases herror
      obtain ⟨-, rfl⟩ := hreconciles.failed hlast
      have hfailed := allFailed_of_last h hlast
      rw [h.tells.priorOutcomes h.coherent, h.tells.recoveries]
      apply (ensures_attempts (h.ready hfailed) (by omega)).mono
      rintro result final - hattempted
      exact .attempted account h hfailed hattempted
    · rintro error after - hreconciles
      obtain ⟨last, hmem, hunderway⟩ : ∃ last ∈ account.attempts.getLast?, last.failed = none := by
        by_contra hnone
        push Not at hnone
        obtain ⟨herror, -⟩ := hreconciles.failed fun last hmem =>
          Option.isSome_iff_ne_none.mpr (hnone last hmem)
        cases herror
      by_cases hcancelled : last.Cancelled
      · obtain ⟨⟨id, herror⟩, hrest⟩ := hreconciles.cancelled last hmem hunderway hcancelled
        rw [Except.error.inj herror]
        exact .cancelled account last h hmem hunderway hcancelled ⟨⟨id, rfl⟩, hrest⟩
      · obtain ⟨herror, hrest⟩ := hreconciles.underway last hmem hunderway hcancelled
        rw [Except.error.inj herror]
        exact .abandoned account last h hmem hunderway hcancelled ⟨rfl, hrest⟩
  · rintro error after - ⟨-, hrecords⟩
    rw [h.tells.underway, if_neg Bool.false_ne_true] at hrecords
    cases hrecords

theorem ensures_entered_empty (hjournal : world.journal = []) (hcalls : world.calls = []) :
    Ensures (serve entry) (Sound prepared) (Entered entry prepared world)
      (entered entry prepared) world := by
  rw [entered, awrapModelCall]
  apply (ensures_loadEmpty hjournal hcalls).bind
  · rintro records recorded - hplans
    have hprojectable : Projectable prepared.routePlan := by
      by_contra hnot
      obtain ⟨herror, -⟩ := hplans.invalid hnot
      cases herror
    obtain ⟨hresult, hheader⟩ := hplans.planned hprojectable
    obtain rfl := Except.ok.inj hresult
    have htold : Told prepared recorded { attempts := [] } :=
      told_header hheader (hplans.calls.trans hcalls)
    have hfailed : AllFailed [] := by
      rintro attempt ⟨⟩
    have hnone : (header prepared).admitted = [] := by
      rw [Journal.admitted, header_eq, recording_admissions, List.filterMap_nil]
    have hprior : priorOutcomes (header prepared) = [] := by
      rw [priorOutcomes, hnone, List.filterMap_nil]
    have hrecoveries : (header prepared).recoveries = [] := by
      rw [← hheader, htold.tells.recoveries]
      rfl
    rw [reconcileReplay, hnone, hprior, hrecoveries]
    show Ensures _ _ _ (done () >>= _) recorded
    rw [done_bind]
    apply (ensures_attempts (htold.ready hfailed) (by simp)).mono
    rintro result after - hattempted
    exact .planned recorded hjournal hprojectable hplans.calls hplans.refused htold hattempted
  · rintro error after - hplans
    have hinvalid : ¬ Projectable prepared.routePlan := by
      intro hprojectable
      obtain ⟨hresult, -⟩ := hplans.planned hprojectable
      cases hresult
    exact .unprojectable hjournal hinvalid hplans.calls (hplans.invalid hinvalid).2

theorem ensures_entered_partly (h : PartlyPlanned prepared world.journal)
    (hhere : Sound prepared world) (hrefused : ∀ record, Sound prepared (world.refusing record)) :
    Ensures (serve entry) (Sound prepared) (Entered entry prepared world)
      (entered entry prepared) world := by
  rw [entered, awrapModelCall]
  apply (ensures_loadRecorded hhere h.replays h.planned).bind
  · rintro records _ - ⟨rfl, hrecords⟩
    rw [h.underway, if_neg Bool.false_ne_true] at hrecords
    obtain rfl := Except.ok.inj hrecords
    rw [reconcileReplay, priorOutcomes, h.admitted, h.recoveries]
    show Ensures _ _ _ (done () >>= _) _
    rw [done_bind]
    apply (h.ensures_attempts hhere hrefused).mono
    rintro result after - hrefuses
    exact .partly h hrefuses
  · rintro error after - ⟨-, hrecords⟩
    rw [h.underway, if_neg Bool.false_ne_true] at hrecords
    cases hrecords

theorem ensures_entered_closed (hhere : Sound prepared world) (hreplays : ReplaysAfter [] world.journal)
    (hplanned : world.journal.planned = [PlannedRecord.create prepared])
    (hterminal : world.journal.isTerminal = true) :
    Ensures (serve entry) (Sound prepared) (Entered entry prepared world)
      (entered entry prepared) world := by
  rw [entered, awrapModelCall]
  apply (ensures_loadRecorded hhere hreplays hplanned).bind
  · rintro records _ - ⟨-, hrecords⟩
    rw [if_pos hterminal] at hrecords
    cases hrecords
  · rintro error _ - ⟨rfl, hrecords⟩
    rw [if_pos hterminal] at hrecords
    exact .closed hterminal (congrArg Except.error (Except.error.inj hrecords)) rfl

theorem ensures_entered (h : Sound prepared world) :
    Ensures (serve entry) (Sound prepared) (Entered entry prepared world)
      (entered entry prepared) world := by
  cases h with
  | planning rest hrecorded hrest hcalls =>
      have hrefused : ∀ record, Sound prepared (world.refusing record) := fun record =>
        .planning rest hrecorded hrest hcalls
      by_cases hjournal : world.journal = []
      · exact ensures_entered_empty hjournal hcalls
      · exact ensures_entered_partly (partlyPlanned_of_recorded hrecorded hrest hjournal)
          (.planning rest hrecorded hrest hcalls) hrefused
  | told account htold => exact ensures_entered_told htold
  | closed account before terminal htold hjournal hends hreplays =>
      apply ensures_entered_closed (.closed account before terminal htold hjournal hends hreplays)
        hreplays
      · rw [hjournal, Journal.planned_append, htold.tells.planned]
        cases terminal with
        | completed record => rfl
        | failed record => rfl
        | _ => cases hends
      · rw [hjournal, Journal.isTerminal_append, hends, Bool.or_true]

/-- Whatever earlier entries left is sound. -/
theorem reachable_sound (h : Reachable prepared world) : Sound prepared world := by
  induction h with
  | empty => exact sound_of_recorded (List.nil_append _) rfl
  | entry entry awaits _ ih => exact (ensures_iff.mp (ensures_entered ih)).1 awaits

theorem enter_entered (h : Reachable prepared world) (entry : Entry) :
    Entered entry prepared world (enter entry prepared world).1 (enter entry prepared world).2 :=
  (ensures_iff.mp (ensures_entered (reachable_sound h))).2

end CopilotRuntime.ModelInvocation
