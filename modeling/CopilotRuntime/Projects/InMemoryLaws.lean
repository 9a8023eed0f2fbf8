import CopilotRuntime.Projects.Calls

/-!
# Ownership on the in-memory store

Every operation keeps the owners, the times of archiving and the cap of members.
The names of live projects stay apart unless a restored project brings back one
that was given away.
-/

namespace CopilotRuntime.Projects

open Foundation ProjectTables

variable {lower : String → String} {t : ProjectTables} {caller : ProjectCaller}
  {ctx : ProjectContext}

/-! ### The in-memory store, operation by operation -/

abbrev memory : ProjectsStore := InMemoryProjectsStore.store

/-- A new project starts out with its owner as its only member. -/
theorem governed_insertProject (h : t.Governed) (record : ProjectRecord)
    (hfresh : t.projects.find? record.id = none) (hstripped : Text.strip record.name = record.name)
    (hactive : record.status = .active) (harchived : record.archivedAt = none) (addedAt : Int)
    (addedBy : String) :
    ((t.insertProject record).putMembership
      ⟨record.id, record.ownerUserId, record.tenantId, .owner, addedAt, addedBy⟩).Governed := by
  have hnorole : ∀ userId, t.memberships.find? (record.id, userId) = none := by
    intro userId
    by_contra hsome
    obtain ⟨m, hm⟩ := Option.ne_none_iff_exists'.mp hsome
    obtain ⟨p, hp, -⟩ := h.tenant _ _ m hm
    rw [hfresh] at hp
    cases hp
  have hcount : ∀ other, (t.insertProject record).memberCount other = t.memberCount other :=
    fun _ => rfl
  have hshaped : (t.insertProject record).Shaped := {
    tenant := fun projectId userId m hm => by
      obtain ⟨p, hp, htenant⟩ := h.tenant projectId userId m hm
      refine ⟨p, ?_, htenant⟩
      refine (Table.find?_put_of_ne _ fun hid => ?_).trans hp
      rw [← hid, hfresh] at hp
      cases hp
    stripped := fun projectId p hp => by
      change (t.projects.put record).find? projectId = some p at hp
      rw [Table.find?_put] at hp
      split at hp
      · obtain rfl := Option.some.inj hp
        exact hstripped
      · exact h.stripped projectId p hp
    archived := fun projectId p hp => by
      change (t.projects.put record).find? projectId = some p at hp
      rw [Table.find?_put] at hp
      split at hp
      · obtain rfl := Option.some.inj hp
        simp [hactive, harchived]
      · exact h.archived projectId p hp
    members := h.members }
  refine ⟨hshaped.putMembership (Table.find?_put_self t.projects record) rfl fun other => ?_, ?_⟩
  · rw [memberCount_putMembership_of_none (hnorole record.ownerUserId), hcount]
    by_cases hother : record.id = other
    · rw [← hother, h.memberCount_of_fresh hfresh]
      simp [maxMembersPerProject]
    · simp only [hother, decide_false, Bool.toNat_false, Nat.add_zero]
      exact h.members other
  · intro projectId p hp userId
    change (t.projects.put record).find? projectId = some p at hp
    rw [roleOf_putMembership]
    dsimp only
    rw [Table.find?_put] at hp
    by_cases hid : record.id = projectId
    · rw [if_pos hid] at hp
      obtain rfl := Option.some.inj hp
      by_cases huser : record.ownerUserId = userId
      · simp [hid, huser]
      · have hnone : (t.insertProject record).roleOf projectId userId = none := by
          change (t.memberships.find? (projectId, userId)).map (·.role) = none
          rw [← hid, hnorole, Option.map_none]
        simp [hnone, huser, Ne.symm huser]
    · rw [if_neg hid] at hp
      rw [if_neg fun hboth => hid hboth.1]
      exact h.owned projectId p hp userId

variable {existing : ProjectRecord}

theorem archived_patched (updates : ProjectUpdates)
    (h : existing.archivedAt.isSome = true ↔ existing.status = .archived) :
    (patched ctx existing updates).archivedAt.isSome = true ↔
      (patched ctx existing updates).status = .archived := by
  unfold patched
  dsimp only
  split
  · next hsame =>
      dsimp only
      rw [← hsame]
      exact h
  · split
    · next hstatus => simp [hstatus]
    · next hstatus => simp [hstatus]

/-- A patch leaves the ids, the owner and whether the project is live. -/
theorem patched_keeps (ctx : ProjectContext) (existing : ProjectRecord) (updates : ProjectUpdates) :
    (patched ctx existing updates).id = existing.id ∧
      (patched ctx existing updates).tenantId = existing.tenantId ∧
      (patched ctx existing updates).ownerUserId = existing.ownerUserId ∧
      (patched ctx existing updates).createdAt = existing.createdAt ∧
      (patched ctx existing updates).deletedAt = existing.deletedAt ∧
      (patched ctx existing updates).name = updates.name.getD existing.name := by
  unfold patched
  dsimp only
  split
  · exact ⟨rfl, rfl, rfl, rfl, rfl, rfl⟩
  · split
    · exact ⟨rfl, rfl, rfl, rfl, rfl, rfl⟩
    · exact ⟨rfl, rfl, rfl, rfl, rfl, rfl⟩

/-- A project's row may be written anew with the same ids and owner. -/
theorem governed_putProject (h : t.Governed) {record old : ProjectRecord}
    (hold : t.projects.find? record.id = some old) (htenant : record.tenantId = old.tenantId)
    (howner : record.ownerUserId = old.ownerUserId)
    (hstripped : Text.strip record.name = record.name)
    (harchived : record.archivedAt.isSome = true ↔ record.status = .archived) :
    Governed { t with projects := t.projects.put record } :=
  ⟨h.toShaped.putProject hold htenant hstripped harchived, h.owned.putProject hold howner⟩

theorem stripped_patched {updates : ProjectUpdates}
    (hexisting : Text.strip existing.name = existing.name)
    (hupdates : ∀ name, updates.name = some name → Text.strip name = name) :
    Text.strip (patched ctx existing updates).name = (patched ctx existing updates).name := by
  rw [(patched_keeps ctx existing updates).2.2.2.2.2]
  cases hname : updates.name with
  | none => exact hexisting
  | some name => exact hupdates name hname

variable {projectId : String}

/-- Members are added within the cap: the checks list one member more than there may be. -/
theorem memberCount_lt_of_list (h : t.Shaped) {p : ProjectRecord}
    (hp : t.projects.find? projectId = some p)
    (hlist : (t.listMembershipsForProject p.tenantId projectId (maxMembersPerProject + 1)).length <
      maxMembersPerProject) : t.memberCount projectId < maxMembersPerProject := by
  have hfilter : t.memberships.rows.filter
        (fun m => m.tenantId = p.tenantId && m.projectId = projectId) =
      t.memberships.rows.filter fun m => m.projectId = projectId := by
    refine List.filter_congr fun m hm => ?_
    by_cases hproject : m.projectId = projectId
    · obtain ⟨p', hp', htenant⟩ := h.tenant m.projectId m.userId m (Table.mem_rows_iff.mp hm)
      rw [hproject] at hp'
      obtain rfl := Option.some.inj (hp.symm.trans hp')
      simp [hproject, htenant]
    · simp [hproject]
  unfold listMembershipsForProject at hlist
  rw [hfilter, List.length_take, List.length_insertionSort] at hlist
  rw [memberCount, Table.count, List.countP_eq_length_filter]
  omega

/-- A member other than the owner is put in, with another role than the owner's. -/
theorem governed_putMembership (h : t.Governed) {m : ProjectMembershipRecord} {p : ProjectRecord}
    (hp : t.projects.find? m.projectId = some p) (htenant : p.tenantId = m.tenantId)
    (hrole : m.role ≠ .owner) (huser : m.userId ≠ p.ownerUserId)
    (hroom : ∀ other, (t.putMembership m).memberCount other ≤ maxMembersPerProject) :
    (t.putMembership m).Governed := by
  refine ⟨h.toShaped.putMembership hp htenant hroom, fun projectId p' hp' userId => ?_⟩
  rw [roleOf_putMembership]
  split
  · next hkey =>
      obtain ⟨rfl, rfl⟩ := hkey
      obtain rfl := Option.some.inj (hp.symm.trans hp')
      simp [hrole, huser]
  · exact h.owned projectId p' hp' userId

/-- What a transfer does to the members: the old owner has the role it leaves, the new owner owns,
and everyone else keeps theirs. -/
theorem roleOf_promoted (h : t.Governed) (hfind : t.projects.find? projectId = some existing)
    (htenant : existing.tenantId = caller.tenantId) (target : Option ProjectRole)
    {newOwnerUserId : String} (hother : newOwnerUserId ≠ existing.ownerUserId)
    (hmember : (t.getMembership caller.tenantId projectId newOwnerUserId).isSome)
    (projectId' userId : String) :
    ((demoteOwner t caller projectId existing.ownerUserId target).updateMembershipRole
        caller.tenantId projectId newOwnerUserId .owner).2.roleOf projectId' userId =
      if projectId = projectId' then
        if userId = newOwnerUserId then some .owner
        else if userId = existing.ownerUserId then target
        else t.roleOf projectId' userId
      else t.roleOf projectId' userId := by
  have hold : (t.getMembership caller.tenantId projectId existing.ownerUserId).isSome := by
    have hrole := (h.owned projectId existing hfind existing.ownerUserId).mpr rfl
    obtain ⟨m, hm, -⟩ := Option.map_eq_some_iff.mp hrole
    rw [← htenant, h.getMembership_eq hfind, hm]
    rfl
  have hdemoted : ∀ projectId' userId,
      (demoteOwner t caller projectId existing.ownerUserId target).roleOf projectId' userId =
        if projectId = projectId' ∧ existing.ownerUserId = userId then target
        else t.roleOf projectId' userId := by
    intro projectId' userId
    cases target with
    | none => simp only [demoteOwner, roleOf_deleteMembership, hold, and_true]
    | some role => simp only [demoteOwner, roleOf_updateMembershipRole, hold, and_true]
  have hstill : ((demoteOwner t caller projectId existing.ownerUserId target).getMembership
      caller.tenantId projectId newOwnerUserId).isSome := by
    have hrole := hdemoted projectId newOwnerUserId
    rw [if_neg fun hboth => hother hboth.2.symm] at hrole
    obtain ⟨m, hm⟩ := Option.isSome_iff_exists.mp hmember
    have hshaped : (demoteOwner t caller projectId existing.ownerUserId target).Shaped := by
      cases target with
      | none => exact h.toShaped.deleteMembership _ _ _
      | some role => exact h.toShaped.updateMembershipRole _ _ _ role
    have hprojects :
        (demoteOwner t caller projectId existing.ownerUserId target).projects = t.projects := by
      cases target with
      | none => exact projects_deleteMembership _ _ _
      | some role => exact projects_updateMembershipRole _ _ _ role
    rw [← htenant, hshaped.getMembership_eq (hprojects ▸ hfind)]
    rw [roleOf, roleOf, find?_of_getMembership hm, Option.map_some] at hrole
    obtain ⟨m', hm', -⟩ := Option.map_eq_some_iff.mp hrole
    rw [hm']
    rfl
  rw [roleOf_updateMembershipRole, hdemoted]
  simp only [hstill, and_true]
  by_cases hproject : projectId = projectId'
  · by_cases huser : userId = newOwnerUserId
    · simp [hproject, huser]
    · by_cases hprevious : userId = existing.ownerUserId
      · simp [hproject, hprevious, hother, Ne.symm hother]
      · simp [hproject, Ne.symm huser, Ne.symm hprevious, huser, hprevious]
  · simp [hproject]

theorem shaped_promoted (h : t.Shaped) (caller : ProjectCaller)
    (projectId ownerUserId newOwnerUserId : String)
    (target : Option ProjectRole) :
    ((demoteOwner t caller projectId ownerUserId target).updateMembershipRole
      caller.tenantId projectId newOwnerUserId .owner).2.Shaped := by
  refine Shaped.updateMembershipRole ?_ _ _ _ _
  cases target with
  | none => exact h.deleteMembership _ _ _
  | some role => exact h.updateMembershipRole _ _ _ role

theorem projects_promoted (t : ProjectTables) (caller : ProjectCaller)
    (projectId ownerUserId newOwnerUserId : String)
    (target : Option ProjectRole) :
    ((demoteOwner t caller projectId ownerUserId target).updateMembershipRole
      caller.tenantId projectId newOwnerUserId .owner).2.projects = t.projects := by
  rw [projects_updateMembershipRole]
  cases target with
  | none => exact projects_deleteMembership _ _ _
  | some role => exact projects_updateMembershipRole _ _ _ role

section Governing
variable (h : t.Governed)
include h

theorem governed_doTransfer (adminForce : Bool)
    (projectId newOwnerUserId previousOwnerNewRole : String) :
    (doTransfer t caller memory ctx adminForce projectId newOwnerUserId
      previousOwnerNewRole).2.Governed := by
  unfold doTransfer
  split
  · exact h
  · next existing target hchecks =>
      obtain ⟨hfind, htenant, htarget, hother, hmember⟩ := transferChecks_ok hchecks
      have hid : existing.id = projectId := Table.key_of_find? hfind
      have hrole := roleOf_promoted h hfind htenant target hother hmember
      have hshaped := shaped_promoted h.toShaped caller projectId existing.ownerUserId
        newOwnerUserId target
      have hprojects := projects_promoted t caller projectId existing.ownerUserId
        newOwnerUserId target
      constructor
      · have hstripped := h.stripped projectId existing hfind
        have harchived := h.archived projectId existing hfind
        have hput := hfind
        rw [← hid, ← hprojects] at hput
        exact hshaped.putProject hput rfl hstripped harchived
      · intro projectId' p hp userId
        refine (congrArg (· = some ProjectRole.owner) (hrole projectId' userId)).to_iff.trans ?_
        rw [show (memory.updateProject _ _).projects = Table.put _ _ from rfl, hprojects,
          Table.find?_put] at hp
        dsimp only at hp
        by_cases hproject : existing.id = projectId'
        · rw [if_pos hproject] at hp
          obtain rfl := Option.some.inj hp
          rw [if_pos (hid.symm.trans hproject)]
          by_cases huser : userId = newOwnerUserId
          · simp [huser]
          · by_cases hprevious : userId = existing.ownerUserId
            · simp [hprevious, Ne.symm hother, htarget]
            · rw [if_neg huser, if_neg hprevious,
                h.owned projectId' existing (by rw [← hproject, hid]; exact hfind)]
              simp [huser, hprevious]
        · rw [if_neg hproject] at hp
          rw [if_neg fun heq => hproject (hid.trans heq)]
          exact h.owned projectId' p hp userId

theorem governed_createProject (hfresh : t.projects.find? ctx.newProjectId = none)
    (payload : Json) : (createProject lower t caller memory ctx payload).2.Governed := by
  unfold createProject
  split
  · exact h
  · next validated hchecks =>
      obtain ⟨hstripped, -⟩ := createChecks_ok hchecks
      exact governed_insertProject h (newProject caller ctx validated) hfresh hstripped rfl rfl
        ctx.now caller.userId

theorem governed_updateProject (projectId : String) (patch : List (String × Json)) :
    (updateProject lower t caller memory ctx projectId patch).2.Governed := by
  unfold updateProject
  split
  · exact h
  · next existing updates hchecks =>
      obtain ⟨howner, hnames, -⟩ := updateChecks_ok hchecks
      obtain ⟨hfind, -, -⟩ := requireRead_ok (requireOwner_ok howner).1
      obtain ⟨hid, htenant, howner', -, -, -⟩ := patched_keeps ctx existing updates
      have hold : t.projects.find? (patched ctx existing updates).id = some existing := by
        rw [hid, Table.key_of_find? hfind]
        exact hfind
      exact governed_putProject h hold htenant howner'
        (stripped_patched (h.stripped projectId existing hfind) hnames)
        (archived_patched updates (h.archived projectId existing hfind))

omit h in
theorem memory_softDeleteProject (h : requireOwner t caller projectId = .ok existing) :
    memory.softDeleteProject t caller.tenantId projectId ctx.now =
      { t with
        projects := t.projects.put { existing with
          deletedAt := some ctx.now
          updatedAt := ctx.now } } := by
  obtain ⟨hfind, htenant, hlive⟩ := requireRead_ok (requireOwner_ok h).1
  simp [InMemoryProjectsStore.store, InMemoryProjectsStore.softDeleteProject, hfind, htenant,
    hlive]

theorem governed_deleteProject (projectId : String) :
    (deleteProject t caller memory ctx projectId).2.Governed := by
  unfold deleteProject
  split
  · exact h
  · next existing howner =>
      obtain ⟨hfind, -, -⟩ := requireRead_ok (requireOwner_ok howner).1
      have hid : existing.id = projectId := Table.key_of_find? hfind
      rw [memory_softDeleteProject howner]
      have hold : t.projects.find? existing.id = some existing := by rwa [hid]
      have hstripped := h.stripped projectId existing hfind
      have harchived := h.archived projectId existing hfind
      exact governed_putProject h hold rfl rfl hstripped harchived

theorem governed_restoreProject (projectId : String) :
    (restoreProject t caller memory ctx projectId).2.Governed := by
  unfold restoreProject
  split
  · exact h
  · next existing hchecks =>
      split
      · exact h
      · obtain ⟨hfind, -⟩ := restoreChecks_ok hchecks
        have hid : existing.id = projectId := Table.key_of_find? hfind
        have hold : t.projects.find? existing.id = some existing := by rwa [hid]
        have hstripped := h.stripped projectId existing hfind
        have harchived := h.archived projectId existing hfind
        exact governed_putProject h hold rfl rfl hstripped harchived

theorem governed_addMember (projectId targetUserId role : String) :
    (addMember t caller memory ctx projectId targetUserId role).2.Governed := by
  unfold addMember
  split
  · exact h
  · next given hchecks =>
      obtain ⟨hrole, ⟨existing, howner⟩, hnone, hcap⟩ := addMemberChecks_ok hchecks
      obtain ⟨hfind, htenant, -⟩ := requireRead_ok (requireOwner_ok howner).1
      rw [← htenant] at hnone hcap
      rw [h.getMembership_eq hfind] at hnone
      have hlt := memberCount_lt_of_list h.toShaped hfind hcap
      refine governed_putMembership h hfind htenant hrole (fun huser => ?_) fun other => ?_
      · have hrole' := (h.owned projectId existing hfind targetUserId).mpr huser
        rw [roleOf, hnone] at hrole'
        cases hrole'
      · rw [memberCount_putMembership_of_none hnone]
        by_cases hother : projectId = other
        · simp only [hother, decide_true, Bool.toNat_true]
          rw [hother] at hlt
          exact hlt
        · simp only [hother, decide_false, Bool.toNat_false, Nat.add_zero]
          exact h.members other

theorem governed_removeMember (projectId targetUserId : String) :
    (removeMember t caller projectId targetUserId).2.Governed := by
  unfold removeMember
  split
  · exact h
  · next hchecks =>
      obtain ⟨existing, hread, hother⟩ := removeMemberChecks_ok hchecks
      obtain ⟨hfind, -, -⟩ := requireRead_ok hread
      refine ⟨h.toShaped.deleteMembership _ _ _, fun projectId' p hp userId => ?_⟩
      rw [projects_deleteMembership] at hp
      rw [roleOf_deleteMembership]
      split
      · next hkey =>
          obtain ⟨⟨rfl, rfl⟩, -⟩ := hkey
          obtain rfl := Option.some.inj (hfind.symm.trans hp)
          simp [hother]
      · exact h.owned projectId' p hp userId

theorem governed_changeMemberRole (projectId targetUserId role : String) :
    (changeMemberRole t caller projectId targetUserId role).2.Governed := by
  unfold changeMemberRole
  split
  · exact h
  · next given hchecks =>
      obtain ⟨hrole, existing, howner, hother⟩ := changeRoleChecks_ok hchecks
      obtain ⟨hfind, -, -⟩ := requireRead_ok (requireOwner_ok howner).1
      have hgoverned :
          (t.updateMembershipRole caller.tenantId projectId targetUserId given).2.Governed := by
        refine ⟨h.toShaped.updateMembershipRole _ _ _ _, fun projectId' p hp userId => ?_⟩
        rw [projects_updateMembershipRole] at hp
        rw [roleOf_updateMembershipRole]
        split
        · next hkey =>
            obtain ⟨⟨rfl, rfl⟩, -⟩ := hkey
            obtain rfl := Option.some.inj (hfind.symm.trans hp)
            simp [hother, hrole]
        · exact h.owned projectId' p hp userId
      split
      · next t' heq =>
          rw [heq] at hgoverned
          exact hgoverned
      · next updated t' heq =>
          rw [heq] at hgoverned
          exact hgoverned

/-- On the in-memory store every operation keeps the owners, the archiving times and the cap. -/
theorem governed_perform {call : ProjectCall}
    (hfresh : t.projects.find? call.ctx.newProjectId = none) :
    (perform lower memory t call).2.Governed := by
  unfold perform
  cases call.operation with
  | create payload => exact governed_createProject h hfresh payload
  | update projectId patch => exact governed_updateProject h projectId patch
  | delete projectId => exact governed_deleteProject h projectId
  | restore projectId => exact governed_restoreProject h projectId
  | addMember projectId targetUserId role => exact governed_addMember h projectId targetUserId role
  | removeMember projectId targetUserId => exact governed_removeMember h projectId targetUserId
  | changeMemberRole projectId targetUserId role =>
      exact governed_changeMemberRole h projectId targetUserId role
  | transferOwnership projectId newOwnerUserId previousOwnerNewRole =>
      exact governed_doTransfer h false projectId newOwnerUserId previousOwnerNewRole
  | forceTransferOwnership projectId newOwnerUserId previousOwnerNewRole =>
      dsimp only
      unfold forceTransferOwnership
      split
      · exact governed_doTransfer h true projectId newOwnerUserId previousOwnerNewRole
      · exact h

end Governing

/-! ### Names that are given away -/

/-- The call brings back a deleted project whose name a live project of the tenant has. -/
def TakesName (lower : String → String) (t : ProjectTables) (call : ProjectCall) : Prop :=
  match call.operation with
  | .restore projectId => ∃ existing, restoreChecks t call.caller projectId = .ok existing ∧
      existing.deletedAt ≠ none ∧ t.NameTaken lower existing
  | _ => False

theorem uniqueNames_congr (lower : String → String) {t' : ProjectTables}
    (h : t'.projects = t.projects) :
    t'.UniqueNames lower ↔ t.UniqueNames lower := by
  unfold UniqueNames
  rw [h]

section Names
variable (hunique : t.UniqueNames lower)
include hunique

/-- The name of a live project is not taken for a record that keeps it. -/
theorem not_nameTaken (record : ProjectRecord) {old : ProjectRecord}
    (hold : t.projects.find? record.id = some old) (hlive : old.deletedAt = none)
    (htenant : record.tenantId = old.tenantId) (hname : lower record.name = lower old.name) :
    ¬ t.NameTaken lower record := by
  rintro ⟨q, hq, hid, hqlive, hqtenant, hqname⟩
  have hid' : old.id = record.id := Table.key_of_find? hold
  have hmem : old ∈ t.projects.rows := by
    rw [Table.mem_rows_iff, hid']
    exact hold
  refine hid ((hunique q hq old hmem hqlive hlive ?_ ?_).trans hid')
  · exact hqtenant.trans htenant
  · exact hqname.trans hname

/-- A checked patch does not take the name of another live project. -/
theorem not_nameTaken_patched (h : t.Governed) {patch : List (String × Json)}
    {updates : ProjectUpdates}
    (hchecks : updateChecks lower t caller memory projectId patch = .ok (existing, updates)) :
    ¬ t.NameTaken lower (patched ctx existing updates) := by
  obtain ⟨howner, hnames, hfound⟩ := updateChecks_ok hchecks
  obtain ⟨hfind, htenant, hlive⟩ := requireRead_ok (requireOwner_ok howner).1
  obtain ⟨hid, htenant', -, -, -, hname⟩ := patched_keeps ctx existing updates
  have hold : t.projects.find? (patched ctx existing updates).id = some existing := by
    rw [hid, Table.key_of_find? hfind]
    exact hfind
  by_cases hsame : lower (patched ctx existing updates).name = lower existing.name
  · exact not_nameTaken hunique _ hold hlive htenant' hsame
  · rintro ⟨q, hq, hqid, hqlive, hqtenant, hqname⟩
    rw [hname] at hsame hqname
    cases hupdate : updates.name with
    | none => exact hsame (by rw [hupdate, Option.getD_none])
    | some name =>
        rw [hupdate, Option.getD_some] at hsame hqname
        obtain ⟨hspec, hnone⟩ := getProjectByName_spec h.toShaped lower caller.tenantId
          (hnames name hupdate)
        cases hlookup : InMemoryProjectsStore.getProjectByName lower t caller.tenantId name with
        | none =>
            exact hnone hlookup q hq ((hqtenant.trans htenant').trans htenant) hqlive hqname
        | some found =>
            obtain ⟨hmem, hsamename⟩ := hspec found hlookup
            have hfoundid := hfound name hupdate hsame found hlookup
            have hexisting : found = existing := by
              have hfindfound := Table.mem_rows_iff.mp hmem
              rw [hfoundid, Table.key_of_find? hfind, hfind] at hfindfound
              exact (Option.some.inj hfindfound).symm
            exact hsame (by rw [← hsamename, hexisting])

theorem uniqueNames_createProject (h : t.Governed) (payload : Json) :
    (createProject lower t caller memory ctx payload).2.UniqueNames lower := by
  unfold createProject
  split
  · exact hunique
  · next validated hchecks =>
      obtain ⟨hstripped, hname⟩ := createChecks_ok hchecks
      have hfree : ¬ t.NameTaken lower (newProject caller ctx validated) := by
        rintro ⟨q, hq, -, hqlive, hqtenant, hqname⟩
        exact (getProjectByName_spec h.toShaped lower caller.tenantId hstripped).2 hname q hq
          hqtenant hqlive hqname
      exact (uniqueNames_put_iff hunique _ rfl).mpr hfree

theorem uniqueNames_updateProject (h : t.Governed) (projectId : String)
    (patch : List (String × Json)) :
    (updateProject lower t caller memory ctx projectId patch).2.UniqueNames lower := by
  unfold updateProject
  split
  · exact hunique
  · next existing updates hchecks =>
      obtain ⟨-, -, hlive⟩ := requireRead_ok (requireOwner_ok (updateChecks_ok hchecks).1).1
      have hstill : (patched ctx existing updates).deletedAt = none :=
        (patched_keeps ctx existing updates).2.2.2.2.1.trans hlive
      exact (uniqueNames_put_iff hunique _ hstill).mpr (not_nameTaken_patched hunique h hchecks)

theorem uniqueNames_deleteProject (projectId : String) :
    (deleteProject t caller memory ctx projectId).2.UniqueNames lower := by
  unfold deleteProject
  split
  · exact hunique
  · next existing howner =>
      rw [memory_softDeleteProject howner]
      exact hunique.put_deleted (by simp)

theorem uniqueNames_restoreProject_iff (projectId : String) :
    (restoreProject t caller memory ctx projectId).2.UniqueNames lower ↔
      ¬ ∃ existing, restoreChecks t caller projectId = .ok existing ∧ existing.deletedAt ≠ none ∧
        t.NameTaken lower existing := by
  unfold restoreProject
  cases hchecks : restoreChecks t caller projectId with
  | error e =>
      refine iff_of_true hunique ?_
      rintro ⟨existing, hok, -⟩
      cases hok
  | ok existing =>
      dsimp only
      by_cases hlive : existing.deletedAt = none
      · rw [if_pos hlive]
        refine iff_of_true hunique ?_
        rintro ⟨_, hok, hdeleted, -⟩
        obtain rfl := Except.ok.inj hok
        exact hdeleted hlive
      · rw [if_neg hlive]
        have hput := uniqueNames_put_iff hunique
          { existing with deletedAt := none, updatedAt := ctx.now } rfl
        refine hput.trans (not_congr ⟨fun htaken => ⟨existing, rfl, hlive, htaken⟩, ?_⟩)
        rintro ⟨_, hok, -, htaken⟩
        obtain rfl := Except.ok.inj hok
        exact htaken

end Names

theorem projects_changeMemberRole (projectId targetUserId role : String) :
    (changeMemberRole t caller projectId targetUserId role).2.projects = t.projects := by
  unfold changeMemberRole
  split
  · rfl
  · next given _ =>
      have hprojects := projects_updateMembershipRole (t := t) caller.tenantId projectId
        targetUserId given
      split
      · next t' heq =>
          rw [heq] at hprojects
          exact hprojects
      · next updated t' heq =>
          rw [heq] at hprojects
          exact hprojects

theorem uniqueNames_doTransfer (hunique : t.UniqueNames lower) (adminForce : Bool)
    (projectId newOwnerUserId previousOwnerNewRole : String) :
    (doTransfer t caller memory ctx adminForce projectId newOwnerUserId
      previousOwnerNewRole).2.UniqueNames lower := by
  unfold doTransfer
  split
  · exact hunique
  · next existing target hchecks =>
      obtain ⟨hfind, -, -, -, -⟩ := transferChecks_ok hchecks
      have hprojects := projects_promoted t caller projectId existing.ownerUserId
        newOwnerUserId target
      have hpromoted := (uniqueNames_congr lower hprojects).mpr hunique
      have hold := hfind
      rw [← Table.key_of_find? hfind, ← hprojects] at hold
      let updatedRecord := { existing with ownerUserId := newOwnerUserId, updatedAt := ctx.now }
      by_cases hlive : existing.deletedAt = none
      · have hfree := not_nameTaken hpromoted updatedRecord hold hlive rfl rfl
        exact (uniqueNames_put_iff hpromoted updatedRecord hlive).mpr hfree
      · exact hpromoted.put_deleted hlive

/-- On the in-memory store an operation keeps the names apart unless it takes one back. -/
theorem uniqueNames_perform_iff (h : t.Governed) (hunique : t.UniqueNames lower)
    (call : ProjectCall) :
    (perform lower memory t call).2.UniqueNames lower ↔ ¬ TakesName lower t call := by
  unfold perform TakesName
  cases call.operation with
  | create payload => exact iff_of_true (uniqueNames_createProject hunique h payload) not_false
  | update projectId patch =>
      exact iff_of_true (uniqueNames_updateProject hunique h projectId patch) not_false
  | delete projectId => exact iff_of_true (uniqueNames_deleteProject hunique projectId) not_false
  | restore projectId => exact uniqueNames_restoreProject_iff hunique projectId
  | addMember projectId targetUserId role =>
      refine iff_of_true ?_ not_false
      dsimp only
      unfold addMember
      split
      · exact hunique
      · exact hunique
  | removeMember projectId targetUserId =>
      refine iff_of_true ?_ not_false
      dsimp only
      unfold removeMember
      split
      · exact hunique
      · exact (uniqueNames_congr lower (projects_deleteMembership _ _ _)).mpr hunique
  | changeMemberRole projectId targetUserId role =>
      exact iff_of_true
        ((uniqueNames_congr lower
          (projects_changeMemberRole projectId targetUserId role)).mpr hunique)
        not_false
  | transferOwnership projectId newOwnerUserId previousOwnerNewRole =>
      exact iff_of_true (uniqueNames_doTransfer hunique false projectId newOwnerUserId
        previousOwnerNewRole) not_false
  | forceTransferOwnership projectId newOwnerUserId previousOwnerNewRole =>
      refine iff_of_true ?_ not_false
      dsimp only
      unfold forceTransferOwnership
      split
      · exact uniqueNames_doTransfer hunique true projectId newOwnerUserId previousOwnerNewRole
      · exact hunique

end CopilotRuntime.Projects
