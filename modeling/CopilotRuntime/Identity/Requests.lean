import CopilotRuntime.Identity.Directory

/-!
# Requests to the identity store

Each request happens at one instant. A new row is given as a function of the id
drawn for it and the time at which it is stored.
-/

namespace CopilotRuntime.Identity

open Foundation AccountMerge

inductive IdentityOp : Type
  | createOrganization (record : String → Int → OrganizationRecord)
  | getOrganization (orgId : String)
  | getOrganizationBySlug (slug : String)
  | createUser (record : String → Int → UserRecord)
  | getUser (orgId userId : String)
  | getUserByEmail (orgId email : String)
  | listUsersByEmail (email : String)
  | addMember (record : String → Int → OrganizationMemberRecord)
  | listMembers (orgId : String)
  | getRole (roleId : String)
  | getRoleByName (orgId : Option String) (name : String)
  | assignRole (record : String → Int → RoleAssignmentRecord)
  | listRoleAssignments (orgId userId : String)

@[reducible] def IdentityOp.Reply : IdentityOp → Type
  | createOrganization _ => Except String OrganizationRecord
  | getOrganization _ | getOrganizationBySlug _ => Option OrganizationRecord
  | createUser _ => Except String UserRecord
  | getUser _ _ | getUserByEmail _ _ => Option UserRecord
  | listUsersByEmail _ => List UserRecord
  | addMember _ => Except String OrganizationMemberRecord
  | listMembers _ => List OrganizationMemberRecord
  | getRole _ | getRoleByName _ _ => Option RoleRecord
  | assignRole _ => Except String RoleAssignmentRecord
  | listRoleAssignments _ _ => List RoleAssignmentRecord

namespace Directory

/-- No row of the table that the request adds to has the id. -/
def Unused (d : Directory) (id : String) : IdentityOp → Prop
  | .createOrganization _ => d.organizations.find? id = none
  | .createUser _ => d.users.find? id = none
  | .addMember _ => d.members.find? id = none
  | .assignRole _ => d.roleAssignments.find? id = none
  | _ => True

/-- What a request gives and does, with the id of a new row. -/
def answer (id : String) (clock : Int) : (op : IdentityOp) → Directory → op.Reply × Directory
  | .createOrganization record, d => d.createOrganization (record id clock)
  | .getOrganization orgId, d => (d.getOrganization orgId, d)
  | .getOrganizationBySlug slug, d => (d.getOrganizationBySlug slug, d)
  | .createUser record, d => d.createUser (record id clock)
  | .getUser orgId userId, d => (d.getUser orgId userId, d)
  | .getUserByEmail orgId email, d => (d.getUserByEmail orgId email, d)
  | .listUsersByEmail email, d => (d.listUsersByEmail email, d)
  | .addMember record, d => d.addMember (record id clock)
  | .listMembers orgId, d => (d.listMembers orgId, d)
  | .getRole roleId, d => (d.getRole roleId, d)
  | .getRoleByName orgId name, d => (d.getRoleByName orgId name, d)
  | .assignRole record, d => d.assignRole (record id clock)
  | .listRoleAssignments orgId userId, d => (d.listRoleAssignments orgId userId, d)

/-- An id that a request may draw. -/
def newId (d : Directory) : IdentityOp → String
  | .createOrganization _ => d.organizations.table.newKey
  | .createUser _ => d.users.table.newKey
  | .addMember _ => d.members.table.newKey
  | .assignRole _ => d.roleAssignments.table.newKey
  | _ => ""

theorem unused_newId (d : Directory) (op : IdentityOp) : d.Unused (d.newId op) op := by
  cases op with
  | createOrganization record => exact d.organizations.table.find?_newKey
  | createUser record => exact d.users.table.find?_newKey
  | addMember record => exact d.members.table.find?_newKey
  | assignRole record => exact d.roleAssignments.table.find?_newKey
  | _ => exact trivial

end Directory

end CopilotRuntime.Identity

/-!
# Sessions

What the sign-in services store of a new session. The bearer token is a function of
the row and is left out.
-/

namespace CopilotRuntime.Identity

open Foundation

structure SessionRecord where
  sessionId : String
  orgId : String
  userId : String
  roles : List String
  permissionScopes : List String
  authProviderId : Option String := none
  deviceLabel : String
  createdAt : Int
  expiresAt : Int

abbrev Sessions := Table SessionRecord.sessionId

end CopilotRuntime.Identity
