import CopilotRuntime.Projects.Ownership

/-!
# Calls of the projects service

The operations of the service as calls, and what it means for a call to pass the
checks of its operation.
-/

namespace CopilotRuntime.Projects

open Foundation

inductive ProjectOperation
  | create (payload : Json)
  | update (projectId : String) (patch : List (String × Json))
  | delete (projectId : String)
  | restore (projectId : String)
  | addMember (projectId targetUserId role : String)
  | removeMember (projectId targetUserId : String)
  | changeMemberRole (projectId targetUserId role : String)
  | transferOwnership (projectId newOwnerUserId previousOwnerNewRole : String)
  | forceTransferOwnership (projectId newOwnerUserId previousOwnerNewRole : String)

structure ProjectCall where
  caller : ProjectCaller
  ctx : ProjectContext
  operation : ProjectOperation

section Runs
variable (lower : String → String) (store : ProjectsStore)

def perform (t : ProjectTables) (call : ProjectCall) :
    Except ProjectError ProjectResult × ProjectTables :=
  match call.operation with
  | .create payload => createProject lower t call.caller store call.ctx payload
  | .update projectId patch => updateProject lower t call.caller store call.ctx projectId patch
  | .delete projectId => deleteProject t call.caller store call.ctx projectId
  | .restore projectId => restoreProject t call.caller store call.ctx projectId
  | .addMember projectId targetUserId role =>
      addMember t call.caller store call.ctx projectId targetUserId role
  | .removeMember projectId targetUserId => removeMember t call.caller projectId targetUserId
  | .changeMemberRole projectId targetUserId role =>
      changeMemberRole t call.caller projectId targetUserId role
  | .transferOwnership projectId newOwnerUserId previousOwnerNewRole =>
      transferOwnership t call.caller store call.ctx projectId newOwnerUserId previousOwnerNewRole
  | .forceTransferOwnership projectId newOwnerUserId previousOwnerNewRole =>
      forceTransferOwnership t call.caller store call.ctx projectId newOwnerUserId
        previousOwnerNewRole

/-- One call; one that comes with an id already given to a project does not happen. -/
def step (t : ProjectTables) (call : ProjectCall) :
    Option (Except ProjectError ProjectResult) × ProjectTables :=
  if (t.projects.find? call.ctx.newProjectId).isSome then (none, t)
  else ((perform lower store t call).1, (perform lower store t call).2)

/-- The results of the calls of a history and the tables they leave. -/
def after (history : List ProjectCall) :
    List (Option (Except ProjectError ProjectResult)) × ProjectTables :=
  history.foldl (fun s call => (s.1 ++ [(step lower store s.2 call).1],
    (step lower store s.2 call).2)) ([], .empty)

end Runs

namespace ProjectTables

/-- What every operation on the in-memory store keeps. -/
structure Governed (t : ProjectTables) : Prop extends Shaped t where
  owned : t.Owned

end ProjectTables

open ProjectTables

variable {lower : String → String} {t : ProjectTables} {caller : ProjectCaller}
  {store : ProjectsStore} {ctx : ProjectContext}

/-! ### What passing the checks means -/

variable {name : String}

theorem validateName_stripped {value : Option Json} (h : validateName value = .ok name) :
    Text.strip name = name := by
  unfold validateName at h
  split at h
  · split at h
    · cases h
    · split at h
      · cases h
      · obtain rfl := Except.ok.inj h
        exact Text.strip_strip _
  · cases h

theorem validateCreatePayload_stripped {payload : Json} {validated : ValidatedProject}
    (h : validateCreatePayload lower payload = .ok validated) :
    Text.strip validated.name = validated.name := by
  cases payload with
  | obj fields =>
      simp only [validateCreatePayload, bind_eq_ok_iff, pure_eq_ok_iff] at h
      obtain ⟨name, hname, _, -, _, -, _, -, _, -, rfl⟩ := h
      exact validateName_stripped hname
  | _ => cases h

theorem validatePatchPayload_stripped {patch : List (String × Json)} {updates : ProjectUpdates}
    (h : validatePatchPayload lower patch = .ok updates) (hname : updates.name = some name) :
    Text.strip name = name := by
  simp only [validatePatchPayload, bind_eq_ok_iff, pure_eq_ok_iff] at h
  obtain ⟨found, hfound, _, -, _, -, _, -, _, -, _, -, rfl⟩ := h
  dsimp only at hname
  subst hname
  unfold checkField at hfound
  split at hfound
  · cases hfound
  · next value _ =>
      dsimp only at hfound
      cases hvalid : validateName (some value) with
      | error e =>
          rw [hvalid] at hfound
          cases hfound
      | ok valid =>
          rw [hvalid] at hfound
          obtain rfl : valid = name := Option.some.inj (Except.ok.inj hfound)
          exact validateName_stripped hvalid

variable {projectId : String} {record : ProjectRecord}

theorem requireRead_ok (h : requireRead t caller projectId = .ok record) :
    t.projects.find? projectId = some record ∧ record.tenantId = caller.tenantId ∧
      record.deletedAt = none := by
  unfold requireRead at h
  split at h
  · cases h
  · next found hget =>
      split at h
      · cases h
      · obtain rfl := Except.ok.inj h
        obtain ⟨hfind, htenant, hlive⟩ := getProject_eq_some_iff.mp hget
        exact ⟨hfind, htenant, hlive.resolve_right (by decide)⟩

theorem requireOwner_ok (h : requireOwner t caller projectId = .ok record) :
    requireRead t caller projectId = .ok record ∧ record.ownerUserId = caller.userId := by
  simp only [requireOwner, raiseIf_eq_ok_iff, bind_eq_ok_iff, pure_eq_ok_iff] at h
  obtain ⟨existing, hread, howner, rfl⟩ := h
  exact ⟨hread, not_not.mp howner⟩

theorem createChecks_ok {payload : Json} {validated : ValidatedProject}
    (h : createChecks lower t caller store payload = .ok validated) :
    Text.strip validated.name = validated.name ∧
      store.getProjectByName lower t caller.tenantId validated.name = none := by
  simp only [createChecks, raiseIf_eq_ok_iff, bind_eq_ok_iff, pure_eq_ok_iff] at h
  obtain ⟨found, hvalid, hname, rfl⟩ := h
  exact ⟨validateCreatePayload_stripped hvalid, by simpa using hname⟩

theorem updateChecks_ok {patch : List (String × Json)} {found : ProjectRecord × ProjectUpdates}
    (h : updateChecks lower t caller store projectId patch = .ok found) :
    requireOwner t caller projectId = .ok found.1 ∧
      (∀ name, found.2.name = some name → Text.strip name = name) ∧
      ∀ name, found.2.name = some name → lower name ≠ lower found.1.name →
        ∀ q, store.getProjectByName lower t caller.tenantId name = some q → q.id = found.1.id := by
  simp only [updateChecks, raiseIf_eq_ok_iff, bind_eq_ok_iff, pure_eq_ok_iff] at h
  obtain ⟨existing, howner, -, updates, hvalid, hname, rfl⟩ := h
  refine ⟨howner, fun name => validatePatchPayload_stripped hvalid, ?_⟩
  intro name hupdate hdiffers q hq
  dsimp only at hupdate hdiffers ⊢
  by_contra hid
  apply hname
  simp [hupdate, hdiffers, hq, hid]

theorem restoreChecks_ok (h : restoreChecks t caller projectId = .ok record) :
    t.projects.find? projectId = some record ∧ record.tenantId = caller.tenantId := by
  unfold restoreChecks at h
  split at h
  · cases h
  · next found hget =>
      split at h
      · cases h
      · obtain rfl := Except.ok.inj h
        obtain ⟨hfind, htenant, -⟩ := getProject_eq_some_iff.mp hget
        exact ⟨hfind, htenant⟩

variable {role : String} {given : ProjectRole}

theorem memberRole_ok (h : memberRole role = .ok given) :
    given ≠ .owner := by
  unfold memberRole at h
  split at h
  · obtain rfl := Except.ok.inj h
    decide
  · obtain rfl := Except.ok.inj h
    decide
  · cases h

variable {targetUserId : String}

theorem addMemberChecks_ok
    (h : addMemberChecks t caller ctx projectId targetUserId role = .ok given) :
    given ≠ .owner ∧ (∃ existing, requireOwner t caller projectId = .ok existing) ∧
      t.getMembership caller.tenantId projectId targetUserId = none ∧
      (t.listMembershipsForProject caller.tenantId projectId (maxMembersPerProject + 1)).length <
        maxMembersPerProject := by
  simp only [addMemberChecks, raiseIf_eq_ok_iff, bind_eq_ok_iff, pure_eq_ok_iff] at h
  obtain ⟨found, hrole, existing, howner, -, -, hnone, hcap, rfl⟩ := h
  exact ⟨memberRole_ok hrole, ⟨existing, howner⟩, by simpa using hnone, not_le.mp hcap⟩

theorem removeMemberChecks_ok (h : removeMemberChecks t caller projectId targetUserId = .ok ()) :
    ∃ existing, requireRead t caller projectId = .ok existing ∧
      targetUserId ≠ existing.ownerUserId := by
  simp only [removeMemberChecks, raiseIf_eq_ok_iff, bind_eq_ok_iff] at h
  obtain ⟨existing, hread, -, howner, -⟩ := h
  exact ⟨existing, hread, howner⟩

theorem changeRoleChecks_ok
    (h : changeRoleChecks t caller projectId targetUserId role = .ok given) :
    given ≠ .owner ∧ ∃ existing, requireOwner t caller projectId = .ok existing ∧
      targetUserId ≠ existing.ownerUserId := by
  simp only [changeRoleChecks, raiseIf_eq_ok_iff, bind_eq_ok_iff, pure_eq_ok_iff] at h
  obtain ⟨found, hrole, existing, howner, hother, -, rfl⟩ := h
  exact ⟨memberRole_ok hrole, existing, howner, hother⟩

theorem demotionTarget_ok {target : Option ProjectRole} (h : demotionTarget role = .ok target) :
    target ≠ some .owner := by
  unfold demotionTarget at h
  split at h
  · obtain rfl := Except.ok.inj h
    decide
  · obtain rfl := Except.ok.inj h
    decide
  · obtain rfl := Except.ok.inj h
    decide
  · cases h

theorem transferable_ok {adminForce : Bool}
    (h : transferable t caller adminForce projectId = .ok record) :
    t.projects.find? projectId = some record ∧ record.tenantId = caller.tenantId := by
  unfold transferable at h
  split at h
  · split at h
    · cases h
    · next found hget =>
        obtain rfl := Except.ok.inj h
        obtain ⟨hfind, htenant, -⟩ := getProject_eq_some_iff.mp hget
        exact ⟨hfind, htenant⟩
  · obtain ⟨hread, -⟩ := requireOwner_ok h
    obtain ⟨hfind, htenant, -⟩ := requireRead_ok hread
    exact ⟨hfind, htenant⟩

theorem transferChecks_ok {adminForce : Bool}
    {newOwnerUserId previousOwnerNewRole : String}
    {found : ProjectRecord × Option ProjectRole}
    (h : transferChecks t caller adminForce projectId newOwnerUserId previousOwnerNewRole =
      .ok found) :
    t.projects.find? projectId = some found.1 ∧ found.1.tenantId = caller.tenantId ∧
      found.2 ≠ some .owner ∧ newOwnerUserId ≠ found.1.ownerUserId ∧
      (t.getMembership caller.tenantId projectId newOwnerUserId).isSome := by
  simp only [transferChecks, raiseIf_eq_ok_iff, bind_eq_ok_iff, pure_eq_ok_iff] at h
  obtain ⟨target, htarget, existing, hfound, -, hother, hmember, rfl⟩ := h
  obtain ⟨hfind, htenant⟩ := transferable_ok hfound
  exact ⟨hfind, htenant, demotionTarget_ok htarget, hother, Option.isSome_iff_ne_none.mpr hmember⟩

/-! ### Names -/

theorem getProjectByName_eq (h : t.Shaped) (tenantId name : String) :
    PostgresProjectsStore.getProjectByName lower t tenantId name =
      InMemoryProjectsStore.getProjectByName lower t tenantId name := by
  unfold PostgresProjectsStore.getProjectByName InMemoryProjectsStore.getProjectByName
  rw [← List.head?_filter, ← List.head?_filter]
  refine congrArg List.head? (List.filter_congr fun record hrecord => ?_)
  rw [h.stripped record.id record (Table.mem_rows_iff.mp hrecord), Bool.and_assoc, Bool.and_assoc,
    Bool.and_comm record.deletedAt.isNone]

/-- The name lookup finds a live project of the tenant with the name, if there is one. -/
theorem getProjectByName_spec (h : t.Shaped) (lower : String → String) (tenantId : String)
    (hname : Text.strip name = name) :
    (∀ q, InMemoryProjectsStore.getProjectByName lower t tenantId name = some q →
      q ∈ t.projects.rows ∧ lower q.name = lower name) ∧
    (InMemoryProjectsStore.getProjectByName lower t tenantId name = none →
      ∀ q ∈ t.projects.rows, q.tenantId = tenantId → q.deletedAt = none →
        lower q.name ≠ lower name) := by
  constructor
  · intro q hq
    have hmem := List.mem_of_find?_eq_some hq
    have hfound := List.find?_some hq
    rw [h.stripped q.id q (Table.mem_rows_iff.mp hmem), hname] at hfound
    simp only [Bool.and_eq_true, decide_eq_true_eq] at hfound
    exact ⟨hmem, hfound.2⟩
  · intro hnone q hq htenant hlive hsame
    have hnot := List.find?_eq_none.mp hnone q hq
    rw [h.stripped q.id q (Table.mem_rows_iff.mp hq), hname] at hnot
    simp [htenant, hlive, hsame] at hnot

end CopilotRuntime.Projects
