import CopilotRuntime.Routines.StoreLaws

/-!
# Invariants of routines

What holds of all routines after any sequence of calls that come one after another.

## Implementation notes

A run is one of calls that are considered, each in the state in which it starts. The id that is
drawn for a new routine is new.
-/

namespace CopilotRuntime.Routines

open Foundation

variable {service : RoutinesService} {call : RoutineCall} {around : Surroundings} {caller : Caller}
  {s s' : RoutinesStore} {routineId : String} {existing record : RoutineRecord}

/-! ### What a call does -/

theorem getRoutine_eq_some {tenantId : String} (h : s.getRoutine tenantId routineId = some record) :
    s.routines.find? routineId = some record ∧ record.tenantId = tenantId ∧
      record.deletedAt = none := by
  obtain ⟨hfound, hvisible⟩ := Option.filter_eq_some_iff.mp h
  rw [Bool.and_eq_true, decide_eq_true_eq, Option.isNone_iff_eq_none] at hvisible
  exact ⟨hfound, hvisible⟩

theorem ownRoutine_eq_ok (h : ownRoutine around caller routineId s = .ok existing) :
    s.getRoutine caller.tenantId routineId = some existing ∧
      existing.ownerUserId = caller.userId := by
  obtain ⟨read, hread, h⟩ := bind_eq_ok_iff.mp h
  split at h
  · next howner =>
      obtain rfl := pure_eq_ok_iff.mp h
      refine ⟨?_, howner⟩
      unfold readRoutine at hread
      split at hread
      · cases hread
      · next hfound =>
          split at hread
          · obtain rfl := Except.ok.inj hread
            exact hfound
          · cases hread
  · cases h

/-- What a call raises and leaves behind. -/
inductive Effect (service : RoutinesService) (call : RoutineCall) (s : RoutinesStore) :
    Option RoutineError → RoutinesStore → Prop
  | raised (e : RoutineError) : Effect service call s (some e) s
  | kept {s' : RoutinesStore} (same : s'.routines = s.routines) : Effect service call s none s'
  | created {raised : Option RoutineError} {s' : RoutinesStore} {payload : List (String × Json)}
      {record : RoutineRecord} (request : call.request = .create (.obj payload))
      (made : newRoutine service call.around call.caller (.obj payload) s = .ok record)
      (stored : s'.routines = s.routines.put record)
      (dumped : raised.isSome → service.modelDump record = none) : Effect service call s raised s'
  | patched {s' : RoutinesStore} {patch : List (String × Json)} {existing : RoutineRecord}
      {updates : RoutineUpdates} {routineId : String}
      (request : call.request = .update routineId (.obj patch))
      (found : s.getRoutine call.caller.tenantId routineId = some existing)
      (owned : existing.ownerUserId = call.caller.userId)
      (checked : Checked existing patch updates)
      (quota : (updates.apply call.around.now existing).status = .active →
        existing.status ≠ .active →
          s.countActiveForUser call.caller.tenantId call.caller.userId < service.activeQuota)
      (stored : s'.routines = s.routines.put (updates.apply call.around.now existing)) :
      Effect service call s none s'
  | deleted {s' : RoutinesStore} {existing : RoutineRecord}
      (found : existing ∈ s.routines.rows)
      (stored : s'.routines =
        s.routines.put { existing with deletedAt := some call.around.now }) :
      Effect service call s none s'

theorem effect_create {payload : Json} (hrequest : call.request = .create payload) :
    Effect service call s (takeCall service call s).1 (takeCall service call s).2 := by
  rw [takeCall, hrequest]
  dsimp only
  unfold createRoutine
  split
  · next e _ => exact .raised e
  · next record hmade =>
      obtain ⟨fields, rfl, -⟩ := created_of_newRoutine hmade
      dsimp only
      split
      · next hdump =>
          refine .created hrequest hmade rfl fun _ => ?_
          unfold safeDump at hdump
          split at hdump
          · assumption
          · cases hdump
      · exact .created hrequest hmade rfl nofun

theorem effect_update {patch : Json} (hrequest : call.request = .update routineId patch) :
    Effect service call s (takeCall service call s).1 (takeCall service call s).2 := by
  rw [takeCall, hrequest]
  dsimp only
  unfold updateRoutine
  split
  · next e _ => exact .raised e
  · next record audit hmade =>
      unfold patchedRoutine at hmade
      obtain ⟨existing, hexisting, hmade⟩ := bind_eq_ok_iff.mp hmade
      obtain ⟨fields, hfields, hmade⟩ := bind_eq_ok_iff.mp hmade
      obtain ⟨updates, hupdates, hmade⟩ := bind_eq_ok_iff.mp hmade
      obtain ⟨_, hquota, hmade⟩ := bind_eq_ok_iff.mp hmade
      obtain ⟨beforeState, -, hmade⟩ := bind_eq_ok_iff.mp hmade
      obtain ⟨afterState, -, hmade⟩ := bind_eq_ok_iff.mp hmade
      obtain ⟨rfl, -⟩ := Prod.mk.inj (pure_eq_ok_iff.mp hmade)
      obtain ⟨hfound, howned⟩ := ownRoutine_eq_ok hexisting
      have hpatch : patch = .obj fields := by
        unfold fieldsOf at hfields
        split at hfields
        · obtain rfl := Except.ok.inj hfields
          rfl
        · cases hfields
      rw [hpatch] at hrequest
      exact .patched hrequest hfound howned (checked_of_patchPayload hupdates)
        (fun hactive hinactive => lt_of_checkQuota hquota ⟨hactive, hinactive⟩) rfl

theorem effect_delete (hrequest : call.request = .delete routineId) :
    Effect service call s (takeCall service call s).1 (takeCall service call s).2 := by
  rw [takeCall, hrequest]
  dsimp only
  unfold deleteRoutine
  split
  · next e _ => exact .raised e
  · next beforeState hmade =>
      obtain ⟨existing, hexisting, -⟩ := bind_eq_ok_iff.mp hmade
      obtain ⟨hstored, htenant, hlive⟩ := getRoutine_eq_some (ownRoutine_eq_ok hexisting).1
      have hmem : existing ∈ s.routines.rows := by
        rw [Table.mem_rows_iff, Table.key_of_find? hstored]
        exact hstored
      refine .deleted hmem ?_
      change (s.softDeleteRoutine _ _ _).routines = _
      rw [RoutinesStore.softDeleteRoutine, hstored]
      dsimp only
      rw [if_neg]
      rintro (hother | hdeleted)
      · exact hother htenant
      · rw [hlive] at hdeleted
        cases hdeleted

theorem effect_fire (hrequest : call.request = .fire routineId) :
    Effect service call s (takeCall service call s).1 (takeCall service call s).2 := by
  rw [takeCall, hrequest]
  dsimp only
  unfold manualFire
  split
  · next e _ => exact .raised e
  · exact .kept rfl

/-- Every call has one of the effects. -/
theorem effect_takeCall (service : RoutinesService) (call : RoutineCall) (s : RoutinesStore) :
    Effect service call s (takeCall service call s).1 (takeCall service call s).2 := by
  cases hrequest : call.request with
  | create payload => exact effect_create hrequest
  | update routineId patch => exact effect_update hrequest
  | delete routineId => exact effect_delete hrequest
  | fire routineId => exact effect_fire hrequest

/-! ### Runs -/

/-- What a call that is considered meets: a new routine gives a reason only with its pause and can
be dumped, and a patch leaves no scope of project members without a project. -/
def Considered (service : RoutinesService) (call : RoutineCall) (s : RoutinesStore) : Prop :=
  (∀ payload, call.request = .create (.obj payload) →
    GivesReasonWithPause payload ∧
      ∀ record, newRoutine service call.around call.caller (.obj payload) s = .ok record →
        service.modelDump record ≠ none) ∧
  ∀ routineId patch existing, call.request = .update routineId (.obj patch) →
    s.getRoutine call.caller.tenantId routineId = some existing →
    KeepsNeededProject existing patch

/-- The stores that considered calls lead to, one after another. -/
inductive Reached (service : RoutinesService)
    (considered : RoutineCall → RoutinesStore → Prop) : RoutinesStore → Prop
  | empty : Reached service considered .empty
  | call {s : RoutinesStore} (before : Reached service considered s) (call : RoutineCall)
      (drawn : s.routines.find? call.around.routineId = none) (allowed : considered call s) :
      Reached service considered (takeCall service call s).2

structure Invariant (service : RoutinesService) (s : RoutinesStore) : Prop where
  wellFormed : ∀ r ∈ s.routines.rows, WellFormed r
  quota : ∀ tenantId userId, s.countActiveForUser tenantId userId ≤ service.activeQuota

theorem invariant_empty : Invariant service .empty where
  wellFormed _ hr := absurd hr List.not_mem_nil
  quota _ _ := Nat.zero_le _

/-- The routine of an owner counts as active. -/
theorem countsAsActive_iff {tenantId userId : String} :
    RoutinesStore.countsAsActive tenantId userId record ↔
      record.tenantId = tenantId ∧ record.ownerUserId = userId ∧ record.status = .active ∧
        record.deletedAt = none := by
  simp only [RoutinesStore.countsAsActive, Bool.and_eq_true, decide_eq_true_eq,
    Option.isNone_iff_eq_none, and_assoc]

/-- A row that is put in place of one that counted already, or while the quota has room, keeps
the quota. -/
theorem Invariant.put (h : Invariant service s) (hrecord : WellFormed record)
    (hroom : ∀ tenantId userId, RoutinesStore.countsAsActive tenantId userId record →
      s.routines.countAt (RoutinesStore.countsAsActive tenantId userId) record.id = 1 ∨
        s.countActiveForUser tenantId userId < service.activeQuota)
    (hstored : s'.routines = s.routines.put record) : Invariant service s' where
  wellFormed r hr := by
    rw [hstored, Table.mem_rows_put] at hr
    obtain rfl | ⟨hr, -⟩ := hr
    · exact hrecord
    · exact h.wellFormed r hr
  quota tenantId userId := by
    have hcount := Table.count_put (RoutinesStore.countsAsActive tenantId userId) s.routines record
    have hbefore := h.quota tenantId userId
    rw [RoutinesStore.countActiveForUser] at hbefore ⊢
    rw [hstored]
    cases hcounts : RoutinesStore.countsAsActive tenantId userId record with
    | false =>
        rw [hcounts, Bool.toNat_false] at hcount
        omega
    | true =>
        rw [hcounts, Bool.toNat_true] at hcount
        obtain hold | hbelow := hroom tenantId userId hcounts
        · omega
        · rw [RoutinesStore.countActiveForUser] at hbelow
          omega

theorem countAt_of_find? {p : RoutineRecord → Bool} (h : s.routines.find? record.id = some existing)
    (hp : p existing = true) : s.routines.countAt p record.id = 1 := by
  rw [Table.countAt, h, Option.map_some, hp]
  rfl

/-- A considered call keeps the invariant. -/
theorem Invariant.effect {raised : Option RoutineError} (h : Invariant service s)
    (hconsidered : Considered service call s) (heffect : Effect service call s raised s') :
    Invariant service s' := by
  cases heffect with
  | raised e => exact h
  | kept same =>
      constructor
      · rw [same]
        exact h.wellFormed
      · intro tenantId userId
        rw [RoutinesStore.countActiveForUser, same]
        exact h.quota tenantId userId
  | created request made stored dumped =>
      obtain ⟨fields, heq, hcreated⟩ := created_of_newRoutine made
      obtain rfl := Json.obj.inj heq
      refine h.put (hcreated.wellFormed (hconsidered.1 _ request).1) ?_ stored
      intro tenantId userId hcounts
      obtain ⟨htenant, howner, hactive, -⟩ := countsAsActive_iff.mp hcounts
      rw [← htenant, ← howner, hcreated.owner.1, hcreated.owner.2]
      exact .inr (hcreated.quota hactive)
  | @patched _ patch existing updates routineId request found owned checked quota stored =>
      obtain ⟨hstored, htenant, hlive⟩ := getRoutine_eq_some found
      have hid : existing.id = routineId := Table.key_of_find? hstored
      have hmem : existing ∈ s.routines.rows := by
        rw [Table.mem_rows_iff, hid]
        exact hstored
      have hkeeps := hconsidered.2 routineId patch existing request found
      refine h.put (checked.wellFormed (h.wellFormed existing hmem) hkeeps _) ?_ stored
      intro tenantId userId hcounts
      obtain ⟨hsameTenant, hsameOwner, hactive, -⟩ := countsAsActive_iff.mp hcounts
      have hsameTenant : existing.tenantId = tenantId := hsameTenant
      have hsameOwner : existing.ownerUserId = userId := hsameOwner
      by_cases hbefore : existing.status = .active
      · left
        apply countAt_of_find? (Table.mem_rows_iff.mp hmem)
        · exact countsAsActive_iff.mpr ⟨hsameTenant, hsameOwner, hbefore, hlive⟩
      · right
        rw [← hsameTenant, ← hsameOwner, htenant, owned]
        exact quota hactive hbefore
  | @deleted _ existing found stored =>
      have hold := h.wellFormed existing found
      have hwell : WellFormed { existing with deletedAt := some call.around.now } :=
        ⟨hold.project, hold.reason⟩
      refine h.put hwell ?_ stored
      intro tenantId userId hcounts
      obtain ⟨-, -, -, hlive⟩ := countsAsActive_iff.mp hcounts
      cases hlive

theorem Reached.invariant (h : Reached service (Considered service) s) : Invariant service s := by
  induction h with
  | empty => exact invariant_empty
  | call before call drawn allowed ih => exact ih.effect allowed (effect_takeCall service call _)

/-! ### Changes of status -/

/-- Every routine that is still there has the status it had, or one that it may go to. -/
def Transitions (s s' : RoutinesStore) : Prop :=
  ∀ id r r', s.routines.find? id = some r → s'.routines.find? id = some r' →
    r'.status ∈ allowedTransitions r.status

theorem transitions_of_same (h : s'.routines = s.routines) : Transitions s s' := by
  intro id r r' hr hr'
  rw [h, hr] at hr'
  obtain rfl := Option.some.inj hr'
  exact mem_allowedTransitions_self _

theorem transitions_of_put (h : s'.routines = s.routines.put record)
    (hrecord : ∀ r, s.routines.find? record.id = some r →
      record.status ∈ allowedTransitions r.status) : Transitions s s' := by
  intro id r r' hr hr'
  rw [h, Table.find?_put] at hr'
  split at hr'
  · next hid =>
      obtain rfl := Option.some.inj hr'
      exact hrecord r (hid ▸ hr)
  · rw [hr] at hr'
    obtain rfl := Option.some.inj hr'
    exact mem_allowedTransitions_self _

theorem Effect.transitions {raised : Option RoutineError}
    (h : Effect service call s raised s')
    (drawn : s.routines.find? call.around.routineId = none) : Transitions s s' := by
  cases h with
  | raised e => exact transitions_of_same rfl
  | kept same => exact transitions_of_same same
  | created request made stored dumped =>
      apply transitions_of_put stored
      intro r hr
      obtain ⟨fields, -, hcreated⟩ := created_of_newRoutine made
      rw [hcreated.id, drawn] at hr
      cases hr
  | @patched _ patch existing updates routineId request found owned checked quota stored =>
      apply transitions_of_put stored
      intro r hr
      obtain ⟨hstored, -, -⟩ := getRoutine_eq_some found
      have hr : s.routines.find? existing.id = some r := hr
      rw [Table.key_of_find? hstored, hstored] at hr
      obtain rfl := Option.some.inj hr
      exact checked.transition
  | deleted found stored =>
      apply transitions_of_put stored
      intro r hr
      obtain rfl := Option.some.inj ((Table.mem_rows_iff.mp found).symm.trans hr)
      exact mem_allowedTransitions_self _

/-- A considered call that raises changes nothing. -/
theorem Effect.unchanged {raised : Option RoutineError} (h : Effect service call s raised s')
    (hconsidered : Considered service call s) (hraised : raised.isSome) : s' = s := by
  cases h with
  | raised e => rfl
  | kept same => cases hraised
  | created request made stored dumped =>
      exact absurd (dumped hraised) ((hconsidered.1 _ request).2 _ made)
  | patched request found owned checked quota stored => cases hraised
  | deleted found stored => cases hraised

/-- In every store that considered calls lead to, a scope of project members has its project, a
reason is a declared one of a pause and no owner has more active routines than the quota; and a
considered call that raises changes nothing, and one that changes a status makes a declared
transition. -/
theorem routine_invariants_hold (service : RoutinesService) (s : RoutinesStore)
    (h : Reached service (Considered service) s) :
    (∀ r ∈ s.routines.rows, WellFormed r) ∧
      (∀ tenantId userId, s.countActiveForUser tenantId userId ≤ service.activeQuota) ∧
      ∀ call, s.routines.find? call.around.routineId = none → Considered service call s →
        ((takeCall service call s).1.isSome → (takeCall service call s).2 = s) ∧
        Transitions s (takeCall service call s).2 := by
  refine ⟨h.invariant.wellFormed, h.invariant.quota, fun call drawn hconsidered => ?_⟩
  have heffect := effect_takeCall service call s
  exact ⟨heffect.unchanged hconsidered, heffect.transitions drawn⟩

/-! ### A reason without a pause, and a scope without its project -/

section Sample

/-- Records are dumped to their names. -/
def sampleService : RoutinesService where
  activeQuota := 100
  modelDump r := some [("name", .str r.name), ("instructions", .str r.instructions)]

def sampleAround (routineId : String) : Surroundings where
  now := 5
  routineId := routineId
  fireId := "rfire_1"
  isProjectMember _ _ _ := false
  fetchConnectorAllowlist _ _ _ := none

def callBy (routineId : String) (request : RoutineRequest) : RoutineCall where
  caller := ⟨"acme", "ada", []⟩
  around := sampleAround routineId
  request := request

/-- A new routine of a project, which its members may fire. -/
def createShared : RoutineCall :=
  callBy "rt_1" (.create (.obj [("name", .str "digest"), ("agent_id", .str "agent"),
    ("permissions", .obj [("manual_fire", .str "project_members")]),
    ("project_id", .str "apollo")]))

def activateShared : RoutineCall :=
  callBy "rt_2" (.update "rt_1" (.obj [("status", .str "active")]))

/-- The project is taken away, and the scope stays. -/
def leaveProject : RoutineCall :=
  callBy "rt_2" (.update "rt_1" (.obj [("project_id", .null)]))

/-- A draft with a reason that no pause has. -/
def createWithReason : RoutineCall :=
  callBy "rt_1" (.create (.obj [("name", .str "digest"), ("agent_id", .str "agent"),
    ("pause_reason", .str "holiday")]))

def afterCalls (calls : List RoutineCall) : RoutinesStore :=
  calls.foldl (fun s call => (takeCall sampleService call s).2) .empty

theorem considered_createShared : Considered sampleService createShared .empty := by
  constructor
  · intro payload hrequest
    obtain rfl := Json.obj.inj (RoutineRequest.create.inj hrequest)
    refine ⟨fun reason hreason => ?_, fun record _ => Option.some_ne_none _⟩
    have hnone : Json.lookup [("name", .str "digest"), ("agent_id", .str "agent"),
        ("permissions", .obj [("manual_fire", .str "project_members")]),
        ("project_id", .str "apollo")] "pause_reason" = none := by decide
    cases hnone.symm.trans hreason
  · intro routineId patch existing hrequest
    change RoutineRequest.create _ = RoutineRequest.update _ _ at hrequest
    cases hrequest

theorem considered_activateShared :
    Considered sampleService activateShared (afterCalls [createShared]) := by
  constructor
  · intro payload hrequest
    change RoutineRequest.update _ _ = RoutineRequest.create _ at hrequest
    cases hrequest
  · intro routineId patch existing hrequest _ hfalsy
    obtain ⟨-, hpatch⟩ := RoutineRequest.update.inj hrequest
    obtain rfl := Json.obj.inj hpatch
    have hnone : Json.lookup [("status", .str "active")] "project_id" = none := by
      decide
    rw [hnone] at hfalsy
    cases hfalsy

theorem routine_invariants_hold_sample :
    ((afterCalls [createShared, activateShared]).routines.rows.map fun r =>
      (r.status, r.projectId)) = [(.active, some "apollo")] ∧
    ∀ tenantId userId,
      (afterCalls [createShared, activateShared]).countActiveForUser tenantId userId ≤ 100 := by
  have hcreated : Reached sampleService (Considered sampleService) (afterCalls [createShared]) :=
    .call .empty createShared (Table.find?_empty _) considered_createShared
  have hdrawn : (afterCalls [createShared]).routines.find? "rt_2" = none := by decide
  have hreached : Reached sampleService (Considered sampleService)
      (afterCalls [createShared, activateShared]) :=
    hcreated.call activateShared hdrawn considered_activateShared
  exact ⟨by decide, (routine_invariants_hold sampleService _ hreached).2.1⟩

/-- A patch of the project alone leaves a scope of project members without one, and a new draft may
have any reason. -/
theorem patched_project_breaks_scope :
    ((afterCalls [createShared, leaveProject]).routines.rows.map fun r =>
      (r.manualFire, r.projectId)) = [(.projectMembers, none)] ∧
    ((afterCalls [createWithReason]).routines.rows.map fun r => (r.status, r.pauseReason)) =
      [(.draft, some "holiday")] := by
  decide

end Sample

end CopilotRuntime.Routines
