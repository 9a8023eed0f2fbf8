import CopilotRuntime.Foundation.Outcome
import CopilotRuntime.Routines.Service

/-!
# What calls do to routines

Each call that changes routines stores one row, which it has checked.
-/

namespace CopilotRuntime.Routines

open Foundation

variable {service : RoutinesService} {around : Surroundings} {caller : Caller}
  {s s' : RoutinesStore} {routineId : String} {existing record : RoutineRecord}

/-! ### Values of fields -/

theorem mem_of_oneOf {α : Type} {values : List (String × α)} {code : String} {value : Json} {a : α}
    (h : oneOf values code value = .ok a) : ∃ text, value = .str text ∧ (text, a) ∈ values := by
  unfold oneOf at h
  split at h
  · next text =>
      split at h
      · next b hb =>
          obtain rfl := Except.ok.inj h
          obtain ⟨before, after, heq, -⟩ := List.lookup_eq_some_iff.mp hb
          exact ⟨text, rfl, heq ▸ List.mem_append_right _ List.mem_cons_self⟩
      · cases h
  · cases h
  · cases h
  · cases h

theorem of_require {condition : Prop} [Decidable condition] {code : String}
    (h : require condition code = .ok ()) : condition := by
  unfold require at h
  split at h
  · assumption
  · cases h

theorem mem_pauseReasons {reason : String} {value : Json} {code : String}
    (h : oneOf pauseReasons code value = .ok reason) :
    value = .str reason ∧ reason ∈ pauseReasons.map Prod.fst := by
  obtain ⟨text, rfl, hmem⟩ := mem_of_oneOf h
  have htext : text = reason := by
    simp only [pauseReasons, List.mem_cons, Prod.mk.injEq, List.not_mem_nil, or_false] at hmem
    obtain ⟨rfl, rfl⟩ | ⟨rfl, rfl⟩ | ⟨rfl, rfl⟩ := hmem
    · rfl
    · rfl
    · rfl
  subst htext
  exact ⟨rfl, List.mem_map_of_mem hmem⟩

/-- A field that is checked has its checked value, or is not there. -/
theorem checkField_eq_ok {α : Type} {validate : Json → Except RoutineError α} {value : Option Json}
    {a : Option α} (h : checkField validate value = .ok a) :
    (value = none ∧ a = none) ∨ ∃ v b, value = some v ∧ validate v = .ok b ∧ a = some b := by
  unfold checkField at h
  cases value with
  | none =>
      obtain rfl := Except.ok.inj h
      exact .inl ⟨rfl, rfl⟩
  | some v =>
      dsimp only at h
      cases hv : validate v with
      | error e =>
          rw [hv] at h
          cases h
      | ok b =>
          rw [hv] at h
          obtain rfl := Except.ok.inj h
          exact .inr ⟨v, b, rfl, hv, rfl⟩

/-! ### Well-formed routines -/

/-- A scope of project members has a project, and a reason is one of a pause. -/
structure WellFormed (r : RoutineRecord) : Prop where
  project : r.manualFire = .projectMembers →
    ∃ projectId, r.projectId = some projectId ∧ projectId ≠ ""
  reason : ∀ reason, r.pauseReason = some reason →
    r.status.IsPause ∧ reason ∈ pauseReasons.map Prod.fst

/-- The payload of a new routine gives a declared reason, and only with a pause; values that are
no texts are refused. -/
def GivesReasonWithPause (payload : List (String × Json)) : Prop :=
  ∀ reason, Json.lookup payload "pause_reason" = some (.str reason) →
    reason ∈ pauseReasons.map Prod.fst ∧
      ∃ status, Json.lookup payload "status" = some (.str status) ∧
        (status = "paused" ∨ status = "errored")

theorem status_of_oneOf {value : Json} {code : String} {status : RoutineStatus}
    (h : oneOf statuses code value = .ok status) : value = .str status.text := by
  obtain ⟨text, rfl, hmem⟩ := mem_of_oneOf h
  simp only [statuses, List.mem_cons, Prod.mk.injEq, List.not_mem_nil, or_false] at hmem
  obtain ⟨rfl, rfl⟩ | ⟨rfl, rfl⟩ | ⟨rfl, rfl⟩ | ⟨rfl, rfl⟩ := hmem
  · rfl
  · rfl
  · rfl
  · rfl

theorem isPause_of_text {status : RoutineStatus}
    (h : status.text = "paused" ∨ status.text = "errored") : status.IsPause := by
  revert h
  cases status with
  | _ => decide

theorem project_of_requireProject {manualFire : ManualFireScope} {projectId : Option String}
    (h : requireProject manualFire projectId = .ok ()) (hscope : manualFire = .projectMembers) :
    ∃ p, projectId = some p ∧ p ≠ "" := by
  unfold requireProject at h
  split at h
  · cases h
  · next hall =>
      cases projectId with
      | none => exact absurd ⟨hscope, rfl⟩ hall
      | some p =>
          refine ⟨p, rfl, fun hempty => hall ⟨hscope, ?_⟩⟩
          rw [Option.all_some, hempty]
          rfl

/-! ### New routines -/

theorem validated_of_createPayload {payload : List (String × Json)} {validated : ValidatedRoutine}
    (h : validateCreatePayload payload = .ok validated) :
    requireProject validated.manualFire validated.projectId = .ok () ∧
      validated.status = (Json.lookup payload "status").getD (.str "draft") ∧
      validated.pauseReason = (Json.lookup payload "pause_reason").getD .null := by
  unfold validateCreatePayload at h
  obtain ⟨name, -, h⟩ := bind_eq_ok_iff.mp h
  obtain ⟨instructions, -, h⟩ := bind_eq_ok_iff.mp h
  obtain ⟨agentId, -, h⟩ := bind_eq_ok_iff.mp h
  obtain ⟨triggers, -, h⟩ := bind_eq_ok_iff.mp h
  obtain ⟨permissions, -, h⟩ := bind_eq_ok_iff.mp h
  obtain ⟨manualFire, -, h⟩ := bind_eq_ok_iff.mp h
  obtain ⟨missedFirePolicy, -, h⟩ := bind_eq_ok_iff.mp h
  obtain ⟨projectId, -, h⟩ := bind_eq_ok_iff.mp h
  obtain ⟨_, hproject, h⟩ := bind_eq_ok_iff.mp h
  obtain ⟨agentVersionPin, -, h⟩ := bind_eq_ok_iff.mp h
  obtain ⟨code, -, h⟩ := bind_eq_ok_iff.mp h
  obtain ⟨connectorsScope, -, h⟩ := bind_eq_ok_iff.mp h
  obtain ⟨behavior, -, h⟩ := bind_eq_ok_iff.mp h
  obtain rfl := pure_eq_ok_iff.mp h
  exact ⟨hproject, rfl, rfl⟩

/-- What a new routine is made of. -/
structure Created (service : RoutinesService) (around : Surroundings) (caller : Caller)
    (payload : List (String × Json)) (s : RoutinesStore) (r : RoutineRecord) : Prop where
  id : r.id = around.routineId
  owner : r.tenantId = caller.tenantId ∧ r.ownerUserId = caller.userId
  quota : r.status = .active →
    s.countActiveForUser caller.tenantId caller.userId < service.activeQuota
  project : r.manualFire = .projectMembers →
    ∃ projectId, r.projectId = some projectId ∧ projectId ≠ ""
  status : (Json.lookup payload "status").getD (.str "draft") = .str r.status.text
  reason : ∀ reason, r.pauseReason = some reason →
    Json.lookup payload "pause_reason" = some (.str reason)

theorem lt_of_checkQuota {activates : Prop} [Decidable activates]
    (h : checkQuota service caller activates s = .ok ()) (hactivates : activates) :
    s.countActiveForUser caller.tenantId caller.userId < service.activeQuota := by
  unfold checkQuota at h
  split at h
  · cases h
  · next hbelow => exact Nat.not_le.mp fun hle => hbelow ⟨hactivates, hle⟩

theorem created_of_newRoutine {payload : Json}
    (h : newRoutine service around caller payload s = .ok record) :
    ∃ fields, payload = .obj fields ∧ Created service around caller fields s record := by
  unfold newRoutine at h
  split at h
  · next fields =>
      obtain ⟨validated, hvalidated, h⟩ := bind_eq_ok_iff.mp h
      obtain ⟨status, hstatus, h⟩ := bind_eq_ok_iff.mp h
      obtain ⟨_, hquota, h⟩ := bind_eq_ok_iff.mp h
      obtain ⟨hproject, hstatusField, hreasonField⟩ := validated_of_createPayload hvalidated
      unfold buildRoutine at h
      obtain ⟨pauseReason, hreason, h⟩ := bind_eq_ok_iff.mp h
      split at h
      · obtain rfl := pure_eq_ok_iff.mp h
        refine ⟨fields, rfl, rfl, ⟨rfl, rfl⟩, lt_of_checkQuota hquota,
          project_of_requireProject hproject, ?_, ?_⟩
        · exact hstatusField.symm.trans (status_of_oneOf hstatus)
        · intro reason hsome
          dsimp only at hsome
          rw [hreasonField] at hreason
          unfold readPauseReason at hreason
          split at hreason
          · obtain rfl := Except.ok.inj hreason
            cases hsome
          · next text htext =>
              obtain rfl := Except.ok.inj hreason
              obtain rfl := Option.some.inj hsome
              cases hlookup : Json.lookup fields "pause_reason" with
              | none =>
                  rw [hlookup] at htext
                  cases htext
              | some value =>
                  rw [hlookup] at htext
                  exact congrArg some htext
          · cases hreason
      · cases h
  · cases h

theorem Created.wellFormed {payload : List (String × Json)}
    (h : Created service around caller payload s record) (hgives : GivesReasonWithPause payload) :
    WellFormed record where
  project := h.project
  reason reason hreason := by
    obtain ⟨hdeclared, status, hstatus, hpause⟩ := hgives reason (h.reason reason hreason)
    have htext : status = record.status.text := by
      have heq := h.status
      rw [hstatus] at heq
      exact Json.str.inj heq
    rw [htext] at hpause
    exact ⟨isPause_of_text hpause, hdeclared⟩

/-! ### Changes -/

/-- A patch that takes away the project either names a scope or meets one that needs no project. -/
def KeepsNeededProject (existing : RoutineRecord) (patch : List (String × Json)) : Prop :=
  (Json.lookup patch "project_id").any isFalsy →
    existing.manualFire ≠ .projectMembers ∨
      ∃ permissions value, Json.lookup patch "permissions" = some (.obj permissions) ∧
        Json.lookup permissions "manual_fire" = some value

/-- The checks that a patch has passed, of the fields that depend on others. -/
structure Checked (existing : RoutineRecord) (patch : List (String × Json))
    (updates : RoutineUpdates) : Prop where
  manualFire : checkField (validatePermissions existing patch) (Json.lookup patch "permissions") =
    .ok updates.manualFire
  projectId : checkField (optionalText "project_id_invalid") (Json.lookup patch "project_id") =
    .ok updates.projectId
  status : checkField (validateTransition existing) (Json.lookup patch "status") =
    .ok updates.status
  pauseReason : ∃ given, checkField (validatePauseReason (updates.status.getD existing.status))
      (Json.lookup patch "pause_reason") = .ok given ∧
    updates.pauseReason = (given <|> defaultPauseReason updates.status)

theorem checked_of_patchPayload {patch : List (String × Json)} {updates : RoutineUpdates}
    (h : validatePatchPayload existing patch = .ok updates) : Checked existing patch updates := by
  unfold validatePatchPayload at h
  obtain ⟨name, -, h⟩ := bind_eq_ok_iff.mp h
  obtain ⟨instructions, -, h⟩ := bind_eq_ok_iff.mp h
  obtain ⟨agentId, -, h⟩ := bind_eq_ok_iff.mp h
  obtain ⟨agentVersionPin, -, h⟩ := bind_eq_ok_iff.mp h
  obtain ⟨triggers, -, h⟩ := bind_eq_ok_iff.mp h
  obtain ⟨connectorsScope, -, h⟩ := bind_eq_ok_iff.mp h
  obtain ⟨behavior, -, h⟩ := bind_eq_ok_iff.mp h
  obtain ⟨manualFire, hmanualFire, h⟩ := bind_eq_ok_iff.mp h
  obtain ⟨missedFirePolicy, -, h⟩ := bind_eq_ok_iff.mp h
  obtain ⟨projectId, hprojectId, h⟩ := bind_eq_ok_iff.mp h
  obtain ⟨code, -, h⟩ := bind_eq_ok_iff.mp h
  obtain ⟨status, hstatus, h⟩ := bind_eq_ok_iff.mp h
  obtain ⟨pauseReason, hpauseReason, h⟩ := bind_eq_ok_iff.mp h
  obtain rfl := pure_eq_ok_iff.mp h
  exact ⟨hmanualFire, hprojectId, hstatus, pauseReason, hpauseReason, rfl⟩

section Checked
variable {patch : List (String × Json)} {updates : RoutineUpdates}

theorem mem_allowedTransitions_self (status : RoutineStatus) :
    status ∈ allowedTransitions status := by
  cases status with
  | _ => decide

theorem Checked.transition (h : Checked existing patch updates) :
    updates.status.getD existing.status ∈ allowedTransitions existing.status := by
  obtain ⟨-, hnone⟩ | ⟨value, status, -, hvalid, hsome⟩ := checkField_eq_ok h.status
  · rw [hnone]
    exact mem_allowedTransitions_self _
  · rw [hsome]
    obtain ⟨parsed, -, hvalid⟩ := bind_eq_ok_iff.mp hvalid
    split at hvalid
    · next hallowed =>
        obtain rfl := pure_eq_ok_iff.mp hvalid
        exact hallowed
    · cases hvalid

/-- A reason that a patch gives is declared and goes with a pause; one that it leaves stays with
one. -/
theorem Checked.reason (h : Checked existing patch updates) (hexisting : WellFormed existing)
    {reason : String} (hreason : updates.pauseReason.getD existing.pauseReason = some reason) :
    (updates.status.getD existing.status).IsPause ∧ reason ∈ pauseReasons.map Prod.fst := by
  obtain ⟨given, hgiven, heq⟩ := h.pauseReason
  rw [heq] at hreason
  obtain ⟨-, rfl⟩ | ⟨value, chosen, -, hvalid, rfl⟩ := checkField_eq_ok hgiven
  · change (defaultPauseReason updates.status).getD existing.pauseReason = some reason at hreason
    cases hstatus : updates.status with
    | none =>
        rw [hstatus] at hreason
        exact hexisting.reason reason hreason
    | some status =>
        rw [hstatus, defaultPauseReason] at hreason
        split at hreason
        · next hpause =>
            exact ⟨hpause, (hexisting.reason reason hreason).2⟩
        · cases hreason
  · have hchosen : chosen = some reason := hreason
    subst hchosen
    unfold validatePauseReason at hvalid
    split at hvalid
    · cases hvalid
    · obtain ⟨declared, hdeclared, hvalid⟩ := bind_eq_ok_iff.mp hvalid
      obtain ⟨_, hpause, hvalid⟩ := bind_eq_ok_iff.mp hvalid
      obtain rfl := Option.some.inj (pure_eq_ok_iff.mp hvalid)
      exact ⟨of_require hpause, (mem_pauseReasons hdeclared).2⟩

/-- The project after a patch that names one which does not count as false, or none. -/
theorem Checked.project_of_not_falsy (h : Checked existing patch updates)
    (htarget : ¬ isFalsy
      ((Json.lookup patch "project_id").getD (Json.ofOption existing.projectId))) :
    ∃ projectId, updates.projectId.getD existing.projectId = some projectId ∧ projectId ≠ "" := by
  obtain ⟨hlookup, hnone⟩ | ⟨value, projectId, hlookup, hvalid, hsome⟩ :=
    checkField_eq_ok h.projectId
  · rw [hlookup, Option.getD_none] at htarget
    rw [hnone, Option.getD_none]
    cases hproject : existing.projectId with
    | none =>
        rw [hproject] at htarget
        exact absurd rfl htarget
    | some p =>
        rw [hproject] at htarget
        refine ⟨p, rfl, ?_⟩
        rintro rfl
        exact absurd rfl htarget
  · rw [hlookup, Option.getD_some] at htarget
    rw [hsome, Option.getD_some]
    unfold optionalText at hvalid
    split at hvalid
    · exact absurd rfl htarget
    · next text =>
        obtain rfl := Except.ok.inj hvalid
        refine ⟨text, rfl, ?_⟩
        rintro rfl
        exact absurd rfl htarget
    · cases hvalid

theorem Checked.project (h : Checked existing patch updates) (hexisting : WellFormed existing)
    (hkeeps : KeepsNeededProject existing patch)
    (hscope : updates.manualFire.getD existing.manualFire = .projectMembers) :
    ∃ projectId, updates.projectId.getD existing.projectId = some projectId ∧ projectId ≠ "" := by
  -- without a scope in the patch, the stored scope meets the project that the patch leaves
  have hstored (hstays : existing.manualFire = .projectMembers)
      (hnames : ¬ ∃ permissions value,
        Json.lookup patch "permissions" = some (.obj permissions) ∧
          Json.lookup permissions "manual_fire" = some value) :
      ∃ projectId, updates.projectId.getD existing.projectId = some projectId ∧
        projectId ≠ "" := by
    apply h.project_of_not_falsy
    intro hfalsy
    cases hlookup : Json.lookup patch "project_id" with
    | none =>
        obtain ⟨p, hp, hne⟩ := hexisting.project hstays
        rw [hlookup, hp] at hfalsy
        apply hne
        change isFalsy (.str p) = true at hfalsy
        unfold isFalsy at hfalsy
        split at hfalsy
        · next heq => cases heq
        · next heq => cases heq
        · next heq => cases heq
        · next heq => exact Json.str.inj heq
        · next heq => cases heq
        · next heq => cases heq
        · cases hfalsy
    | some value =>
        rw [hlookup] at hfalsy
        obtain hne | hnamed := hkeeps (by rw [hlookup]; exact hfalsy)
        · exact hne hstays
        · exact hnames hnamed
  obtain ⟨hlookup, hnone⟩ | ⟨permissions, manualFire, hlookup, hvalid, hsome⟩ :=
    checkField_eq_ok h.manualFire
  · rw [hnone] at hscope
    refine hstored hscope ?_
    rintro ⟨fields, value, hfields, -⟩
    rw [hlookup] at hfields
    cases hfields
  · rw [hsome] at hscope
    obtain ⟨fields, hfields, hvalid⟩ := bind_eq_ok_iff.mp hvalid
    split at hvalid
    · next hunnamed =>
        obtain rfl := pure_eq_ok_iff.mp hvalid
        refine hstored hscope ?_
        rintro ⟨named, value, hnamed, hvalue⟩
        rw [hlookup] at hnamed
        obtain rfl := Option.some.inj hnamed
        cases named with
        | nil => cases hvalue
        | cons field rest =>
            obtain rfl := Except.ok.inj hfields
            rw [hunnamed] at hvalue
            cases hvalue
    · obtain ⟨scope, -, hvalid⟩ := bind_eq_ok_iff.mp hvalid
      obtain ⟨_, htarget, hvalid⟩ := bind_eq_ok_iff.mp hvalid
      obtain rfl := pure_eq_ok_iff.mp hvalid
      exact h.project_of_not_falsy fun hfalsy => of_require htarget ⟨hscope, hfalsy⟩

theorem Checked.wellFormed (h : Checked existing patch updates) (hexisting : WellFormed existing)
    (hkeeps : KeepsNeededProject existing patch) (updatedAt : Int) :
    WellFormed (updates.apply updatedAt existing) where
  project := h.project hexisting hkeeps
  reason _ := h.reason hexisting

end Checked

end CopilotRuntime.Routines
