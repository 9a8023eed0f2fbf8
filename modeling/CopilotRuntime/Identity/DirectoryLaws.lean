import CopilotRuntime.Identity.Requests

/-!
# What requests leave of the identity store

A new row is refused and nothing changes, or it is stored beside the rows with other
keys. A row of an organisation that has none of its kind yet is not refused.
-/

namespace CopilotRuntime.Identity

open Foundation

/-! ### Entries of the indexes -/

theorem UserRecord.orgId_of_activeEmail {u : UserRecord} {i : String × String}
    (h : u.activeEmail = some i) : u.orgId = i.1 := by
  rw [activeEmail] at h
  split at h
  · exact congrArg Prod.fst (Option.some.inj h)
  · cases h

theorem OrganizationMemberRecord.orgId_of_activeMember {m : OrganizationMemberRecord}
    {i : String × String} (h : m.activeMember = some i) : m.orgId = i.1 := by
  rw [activeMember] at h
  split at h
  · exact congrArg Prod.fst (Option.some.inj h)
  · cases h

theorem RoleAssignmentRecord.orgId_of_activeRole {a : RoleAssignmentRecord}
    {i : String × String × String} (h : a.activeRole = some i) : a.orgId = i.1 := by
  rw [activeRole] at h
  split at h
  · exact congrArg Prod.fst (Option.some.inj h)
  · cases h

namespace Directory
variable {d : Directory}

/-! ### Organisations -/

theorem createOrganization_cases (d : Directory) (record : OrganizationRecord) :
    (∃ message, d.createOrganization record = (.error message, d)) ∨
    ∃ organizations, d.createOrganization record =
        (.ok record, { d with organizations := organizations }) ∧
      ∀ o, o ∈ organizations.rows ↔
        o = record ∨ o ∈ d.organizations.rows ∧ o.orgId ≠ record.orgId := by
  rw [createOrganization]
  cases hinsert : d.organizations.insert? record with
  | none => exact .inl ⟨_, rfl⟩
  | some organizations =>
      exact .inr ⟨_, rfl, fun o => IndexedTable.mem_rows_of_insert? hinsert⟩

/-! ### Users -/

theorem ensurePrincipal_cases (d : Directory) (record : UserRecord) :
    ∃ principalId principals, d.ensurePrincipal record =
      ({ record with principalId := principalId }, { d with principals := principals }) := by
  rw [ensurePrincipal]
  split
  · exact ⟨record.principalId, d.principals, rfl⟩
  · refine ⟨some (defaultPrincipalId record.userId), ?_⟩
    dsimp only
    split
    · exact ⟨d.principals, rfl⟩
    · exact ⟨_, rfl⟩

theorem createUser_cases (d : Directory) (record : UserRecord) :
    (∃ message, d.createUser record = (.error message, d)) ∨
    ∃ user principals users, d.createUser record =
        (.ok user, { d with principals := principals, users := users }) ∧
      user.userId = record.userId ∧ user.orgId = record.orgId ∧
      ∀ u, u ∈ users.rows ↔ u = user ∨ u ∈ d.users.rows ∧ u.userId ≠ user.userId := by
  obtain ⟨principalId, principals, hensured⟩ := ensurePrincipal_cases d record
  rw [createUser, hensured]
  dsimp only
  split
  · exact .inl ⟨_, rfl⟩
  · next users hinsert =>
      refine .inr ⟨_, principals, users, rfl, rfl, rfl, ?_⟩
      exact fun u => IndexedTable.mem_rows_of_insert? hinsert

theorem createUser_accepted {record : UserRecord}
    (h : ∀ u ∈ d.users.rows, u.orgId ≠ record.orgId) (message : String) :
    (d.createUser record).1 ≠ .error message := by
  obtain ⟨principalId, principals, hensured⟩ := ensurePrincipal_cases d record
  obtain ⟨users, hinsert⟩ : ∃ users,
      d.users.insert? { record with principalId := principalId } = some users := by
    refine IndexedTable.insert?_of_free fun u hu i hi hi' => h u hu ?_
    exact (UserRecord.orgId_of_activeEmail hi').trans (UserRecord.orgId_of_activeEmail hi).symm
  rw [createUser, hensured]
  dsimp only
  rw [hinsert]
  exact nofun

/-! ### Memberships -/

theorem addMember_cases (d : Directory) (record : OrganizationMemberRecord) :
    (∃ message, d.addMember record = (.error message, d)) ∨
    ∃ members, d.addMember record = (.ok record, { d with members := members }) ∧
      ∀ m, m ∈ members.rows ↔ m = record ∨ m ∈ d.members.rows ∧ m.memberId ≠ record.memberId := by
  rw [addMember]
  cases hinsert : d.members.insert? record with
  | none => exact .inl ⟨_, rfl⟩
  | some members => exact .inr ⟨_, rfl, fun m => IndexedTable.mem_rows_of_insert? hinsert⟩

theorem addMember_accepted {record : OrganizationMemberRecord}
    (h : ∀ m ∈ d.members.rows, m.orgId ≠ record.orgId) (message : String) :
    (d.addMember record).1 ≠ .error message := by
  obtain ⟨members, hinsert⟩ : ∃ members, d.members.insert? record = some members := by
    refine IndexedTable.insert?_of_free fun m hm i hi hi' => h m hm ?_
    exact (OrganizationMemberRecord.orgId_of_activeMember hi').trans
      (OrganizationMemberRecord.orgId_of_activeMember hi).symm
  rw [addMember, hinsert]
  exact nofun

/-! ### Role assignments -/

theorem assignRole_cases (d : Directory) (record : RoleAssignmentRecord) :
    (∃ message, d.assignRole record = (.error message, d)) ∨
    ∃ assignments, d.assignRole record = (.ok record, { d with roleAssignments := assignments }) ∧
      ∀ a, a ∈ assignments.rows ↔
        a = record ∨ a ∈ d.roleAssignments.rows ∧ a.assignmentId ≠ record.assignmentId := by
  rw [assignRole]
  cases hinsert : d.roleAssignments.insert? record with
  | none => exact .inl ⟨_, rfl⟩
  | some assignments => exact .inr ⟨_, rfl, fun a => IndexedTable.mem_rows_of_insert? hinsert⟩

theorem assignRole_accepted {record : RoleAssignmentRecord}
    (h : ∀ a ∈ d.roleAssignments.rows, a.orgId ≠ record.orgId) (message : String) :
    (d.assignRole record).1 ≠ .error message := by
  obtain ⟨assignments, hinsert⟩ : ∃ assignments,
      d.roleAssignments.insert? record = some assignments := by
    refine IndexedTable.insert?_of_free fun a ha i hi hi' => h a ha ?_
    exact (RoleAssignmentRecord.orgId_of_activeRole hi').trans
      (RoleAssignmentRecord.orgId_of_activeRole hi).symm
  rw [assignRole, hinsert]
  exact nofun

end Directory

end CopilotRuntime.Identity
