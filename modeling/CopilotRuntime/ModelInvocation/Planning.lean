import CopilotRuntime.ModelInvocation.Growth

/-!
# Planning an invocation

A plan is recorded once: its planned record, then its routes and its exclusions.
An entry that stops in between leaves a part of these records.
-/

namespace CopilotRuntime.ModelInvocation

open Foundation Foundation.Program EventJournalModelInvocationStore ModelInvocationMiddleware

/-- The records of a plan in the order in which they are appended. -/
def header (prepared : PreparedAuthority) : Journal :=
  .planned (PlannedRecord.create prepared) :: routeRecords prepared.routePlan

/-- What an invocation looks like to a later entry. -/
inductive Sound (prepared : PreparedAuthority) (world : World) : Prop
  | planning (rest : Journal) (recorded : world.journal ++ rest = header prepared)
      (unfinished : rest ≠ []) (calls : world.calls = [])
  | told (account : Account) (told : Told prepared world account)
  | closed (account : Account) (before : Journal) (terminal : ModelInvocationRecord)
      (told : Told prepared { world with journal := before } account)
      (journal : world.journal = before ++ [terminal])
      (ends : Journal.isTerminal [terminal] = true)
      (replays : ReplaysAfter [] world.journal)

variable {prepared : PreparedAuthority}

/-! ### The records of a plan -/

theorem replaysAfter_append {before journal later : Journal} :
    ReplaysAfter before (journal ++ later) ↔
      ReplaysAfter before journal ∧ ReplaysAfter (before ++ journal) later := by
  induction journal generalizing before with
  | nil => simp [ReplaysAfter]
  | cons record rest ih => simp only [List.cons_append, ReplaysAfter, ih, List.append_assoc, and_assoc,
      List.nil_append]

/-- The route with its place in the plan. -/
theorem eligible_of_split {plan : ModelRoutePlan} {earlier later : List RouteEligibleRecord}
    {record : RouteEligibleRecord} (hsplit : eligibleRecords plan = earlier ++ record :: later) :
    record.routeDigest = plan.routeDigest ∧ record.routeOrdinal = earlier.length + 1 ∧
      record.routeOrdinal ≤ plan.routes.length ∧
      record.route.deploymentId ∉ earlier.map (·.route.deploymentId) := by
  have hlength : (eligibleRecords plan).length = plan.routes.length := by simp [eligibleRecords]
  have hbound : earlier.length < (eligibleRecords plan).length := by simp [hsplit]
  have hget : (eligibleRecords plan)[earlier.length] = record := by simp [hsplit]
  have hids : (eligibleRecords plan).map (·.route.deploymentId) = plan.deploymentIds := by
    rw [RoutePlanBody.deploymentIds, ← eligible_entries plan, List.map_map]
    rfl
  have hnodup : ((eligibleRecords plan).map (·.route.deploymentId)).Nodup :=
    hids ▸ plan.wellFormed.1
  rw [hsplit, List.map_append, List.map_cons] at hnodup
  have hnew := (List.nodup_middle.mp hnodup).notMem
  have hrecord : record.routeOrdinal = earlier.length + 1 := by
    rw [← hget]
    simp [eligibleRecords]
  refine ⟨?_, hrecord, ?_, fun hmem => hnew (List.mem_append_left _ hmem)⟩
  · rw [← hget]
    simp [eligibleRecords]
  · rw [hrecord, ← hlength]
    exact hbound

theorem excluded_of_split {plan : ModelRoutePlan} {earlier later : List RouteExcludedRecord}
    {record : RouteExcludedRecord} (hsplit : excludedRecords plan = earlier ++ record :: later) :
    record.routeDigest = plan.routeDigest ∧ earlier.length < plan.exclusions.length ∧
      record.deploymentId ∉ earlier.map (·.deploymentId) ∧
      record.deploymentId ∈ plan.excludedIds := by
  have hlength : (excludedRecords plan).length = plan.exclusions.length := by
    simp [excludedRecords]
  have hids : (excludedRecords plan).map (·.deploymentId) = plan.excludedIds := by
    rw [excludedRecords, List.map_map]
    rfl
  have hnodup : ((excludedRecords plan).map (·.deploymentId)).Nodup := hids ▸ plan.wellFormed.2.1
  have hmem : record ∈ excludedRecords plan := by simp [hsplit]
  rw [hsplit, List.map_append, List.map_cons] at hnodup
  have hnew := (List.nodup_middle.mp hnodup).notMem
  refine ⟨?_, ?_, fun hmem => hnew (List.mem_append_left _ hmem), ?_⟩
  · obtain ⟨exclusion, -, rfl⟩ := List.mem_map.mp hmem
    rfl
  · rw [← hlength, hsplit]
    simp
  · rw [← hids]
    exact List.mem_map_of_mem hmem

/-- The journal of a plan of which some routes and exclusions are recorded. -/
def recording (prepared : PreparedAuthority) (routes : List RouteEligibleRecord)
    (exclusions : List RouteExcludedRecord) : Journal :=
  .planned (PlannedRecord.create prepared) ::
    (routes.map .routeEligible ++ exclusions.map .routeExcluded)

section Recording
variable (routes : List RouteEligibleRecord) (exclusions : List RouteExcludedRecord)

theorem recording_planned :
    (recording prepared routes exclusions).planned = [PlannedRecord.create prepared] := by
  simp [recording, Journal.planned, List.filterMap_map]

theorem recording_routes : (recording prepared routes exclusions).routes = routes := by
  simp [recording, Journal.routes, List.filterMap_map]

theorem recording_exclusions : (recording prepared routes exclusions).exclusions = exclusions := by
  simp [recording, Journal.exclusions, List.filterMap_map]

theorem recording_admissions : (recording prepared routes exclusions).admissions = [] := by
  simp [recording, Journal.admissions, List.filterMap_map]

theorem recording_underway : (recording prepared routes exclusions).isTerminal = false := by
  simp [recording, Journal.isTerminal]

variable {routes exclusions}

/-- The routes of a plan are recorded one after the other. -/
theorem replays_routes (hroutes : routes <+: eligibleRecords prepared.routePlan) :
    ReplaysAfter [] (recording prepared routes []) := by
  induction routes using List.reverseRecOn with
  | nil => simp [recording, ReplaysAfter, ValidNext, Journal.planned]
  | append_singleton earlier record ih =>
      obtain ⟨later, hsplit⟩ := hroutes
      rw [List.append_assoc, List.singleton_append] at hsplit
      obtain ⟨hdigest, hordinal, hbound, hnew⟩ := eligible_of_split hsplit.symm
      have hbefore := ih ⟨record :: later, hsplit⟩
      have hjournal : recording prepared (earlier ++ [record]) [] =
          recording prepared earlier [] ++ [.routeEligible record] := by
        simp [recording]
      rw [hjournal]
      apply hbefore.snoc
      · intro found hmem hid
        simp only [recording, List.map_nil, List.append_nil, List.mem_cons, List.mem_map] at hmem
        obtain rfl | ⟨other, hother, rfl⟩ := hmem
        · cases hid
        · have hsame := RecordId.routeEligible.inj hid
          obtain ⟨before, after, hbetween⟩ := List.append_of_mem hother
          have hplace : eligibleRecords prepared.routePlan =
              before ++ other :: (after ++ record :: later) := by
            rw [← hsplit, hbetween, List.append_assoc, List.cons_append]
          have hearlier := (eligible_of_split hplace).2.1
          have hlength := congrArg List.length hbetween
          rw [List.length_append, List.length_cons] at hlength
          omega
      · rw [ValidNext, recording_planned]
        refine ⟨by simp [recording_underway], ?_⟩
        simp only [ValidChild, ValidRoute, recording_admissions, recording_routes,
          recording_exclusions, List.map_nil, List.not_mem_nil, not_false_iff, and_true]
        exact ⟨trivial, hdigest, hordinal, hbound, hnew⟩

/-- The exclusions of a plan are recorded after its routes. -/
theorem replays_exclusions (hexclusions : exclusions <+: excludedRecords prepared.routePlan) :
    ReplaysAfter [] (recording prepared (eligibleRecords prepared.routePlan) exclusions) := by
  induction exclusions using List.reverseRecOn with
  | nil => exact replays_routes (List.prefix_refl _)
  | append_singleton earlier record ih =>
      obtain ⟨later, hsplit⟩ := hexclusions
      rw [List.append_assoc, List.singleton_append] at hsplit
      obtain ⟨hdigest, hbound, hnew, hexcluded⟩ := excluded_of_split hsplit.symm
      have hbefore := ih ⟨record :: later, hsplit⟩
      have hjournal : recording prepared (eligibleRecords prepared.routePlan) (earlier ++ [record]) =
          recording prepared (eligibleRecords prepared.routePlan) earlier ++
            [.routeExcluded record] := by
        simp [recording]
      have heligible : record.deploymentId ∉
          (eligibleRecords prepared.routePlan).map (·.route.deploymentId) := by
        have hids : (eligibleRecords prepared.routePlan).map (·.route.deploymentId) =
            prepared.routePlan.deploymentIds := by
          rw [RoutePlanBody.deploymentIds, ← eligible_entries prepared.routePlan, List.map_map]
          rfl
        rw [hids]
        exact fun hmem => prepared.routePlan.wellFormed.2.2 hmem hexcluded
      rw [hjournal]
      apply hbefore.snoc
      · intro found hmem hid
        simp only [recording, List.mem_cons, List.mem_append, List.mem_map] at hmem
        obtain rfl | ⟨other, -, rfl⟩ | ⟨other, hother, rfl⟩ := hmem
        · cases hid
        · cases hid
        · apply hnew
          rw [← RecordId.routeExcluded.inj hid]
          exact List.mem_map_of_mem hother
      · rw [ValidNext, recording_planned]
        refine ⟨by simp [recording_underway], ?_⟩
        simp only [ValidChild, ValidExclusion, recording_admissions, recording_routes,
          recording_exclusions]
        exact ⟨trivial, hdigest, hbound, heligible, hnew⟩

end Recording

theorem header_eq : header prepared =
    recording prepared (eligibleRecords prepared.routePlan) (excludedRecords prepared.routePlan) :=
  rfl

theorem header_replays : ReplaysAfter [] (header prepared) :=
  replays_exclusions (List.prefix_refl _)

/-- A journal with the whole plan tells an invocation without attempts. -/
theorem told_header {world : World} (hjournal : world.journal = header prepared)
    (hcalls : world.calls = []) : Told prepared world { attempts := [] } where
  replays := hjournal ▸ header_replays
  tells := by
    rw [hjournal, header_eq]
    exact {
      planned := recording_planned _ _
      routes := recording_routes _ _
      exclusions := recording_exclusions _ _
      admissions := recording_admissions _ _
      recoveries := by
        simp [recording, Journal.recoveries, List.filterMap_map, Account.recoveries]
      states := by simp [recording, Journal.states, List.filterMap_map]
      failures := by simp [recording, Journal.failures, List.filterMap_map]
      usages := by simp [recording, Journal.usages, List.filterMap_map]
      underway := recording_underway _ _ }
  coherent := ⟨eachStep_nil, by simp, by simp⟩
  calls := by
    rw [hcalls]
    exact ⟨by simp, by simp, by simp [Account.recoveries]⟩

/-! ### Recording the plan -/

/-- Every record of the plan passes the checks of its kind. -/
def Projectable (plan : ModelRoutePlan) : Prop := ∀ record ∈ routeRecords plan, record.WellFormed

instance (plan : ModelRoutePlan) : Decidable (Projectable plan) :=
  inferInstanceAs (Decidable (∀ record ∈ _, _))

variable {entry : Entry} {world : World}

/-- An entry finds a journal in which more or less of the plan is recorded. -/
theorem sound_of_recorded {rest : Journal} (hrecorded : world.journal ++ rest = header prepared)
    (hcalls : world.calls = []) : Sound prepared world := by
  cases rest with
  | nil =>
      rw [List.append_nil] at hrecorded
      exact .told _ (told_header hrecorded hcalls)
  | cons record rest => exact .planning _ hrecorded (List.cons_ne_nil _ _) hcalls

theorem ensures_record_plan {rest : Journal} (hrecorded : world.journal ++ rest = header prepared)
    (hcalls : world.calls = []) (hformed : ∀ record ∈ rest, record.WellFormed) :
    Ensures (serve entry) (Sound prepared) (fun result after => result = .ok () ∧
      after.journal = header prepared ∧ after.calls = [] ∧ after.refused = world.refused)
      (rest.forM appendRecord) world := by
  induction rest generalizing world with
  | nil =>
      rw [List.append_nil] at hrecorded
      exact ⟨.told _ (told_header hrecorded hcalls), rfl, hrecorded, hcalls, rfl⟩
  | cons record rest ih =>
      have hreplays : ReplaysAfter [] (world.journal ++ record :: rest) :=
        hrecorded ▸ header_replays
      obtain ⟨hbefore, ⟨hfresh, hvalid⟩, -⟩ := replaysAfter_append.mp hreplays
      have hlater : (world.appended record).journal ++ rest = header prepared := by
        rw [World.appended_journal, List.append_assoc, List.singleton_append, hrecorded]
      have hfresh : world.journal.Fresh record.recordId := by
        intro found hmem hid
        exact hfresh (hid ▸ List.mem_map_of_mem hmem)
      have happend : Ensures (serve entry) (Sound prepared)
          (fun result after => result = .ok () ∧ after = world.appended record)
          (appendRecord record) world := by
        apply ensures_appendRecord (sound_of_recorded hrecorded hcalls)
          (hformed record List.mem_cons_self) hbefore hfresh
        · intro _
          exact ⟨sound_of_recorded hlater hcalls, rfl, rfl⟩
        · intro hinvalid
          exact absurd hvalid hinvalid
      rw [List.forM]
      apply happend.bind
      · rintro _ after - ⟨-, rfl⟩
        exact ih hlater hcalls fun later hmem => hformed later (List.mem_cons_of_mem _ hmem)
      · rintro error after - ⟨herror, -⟩
        cases herror

end CopilotRuntime.ModelInvocation
