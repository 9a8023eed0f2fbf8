import CopilotRuntime.AccountMerge.Stores

/-!
# The identity store

Organisations, users with their principals, memberships, roles and the roles that
are assigned. Rows that were deleted, removed or revoked stay in their tables and
are no longer found.

## Implementation notes

An email is in its normal form once it is in a record or a request, so lookups
compare it as it is. A new row comes as a function of its id, which is drawn when
the row is stored. Of each record the fields are kept that the sign-in services
read or fill in.
-/

namespace CopilotRuntime.Identity

open Foundation AccountMerge

/-! ### Records -/

structure OrganizationRecord where
  orgId : String
  displayName : String
  slug : String
  deletedAt : Option Int := none
  deriving DecidableEq

structure PrincipalRecord where
  principalId : String
  displayName : String

structure UserRecord where
  userId : String
  orgId : String
  principalId : Option String := none
  primaryEmail : String
  emailVerifiedAt : Option Int := none
  displayName : String
  status : UserStatus := .active
  createdAt : Int
  deletedAt : Option Int := none

inductive OrganizationMemberSource
  | local | oidc | saml | scim | bootstrap | invite | siwe
  deriving DecidableEq

structure OrganizationMemberRecord where
  memberId : String
  orgId : String
  userId : String
  joinedAt : Int
  invitedByUserId : Option String := none
  removedAt : Option Int := none
  source : OrganizationMemberSource := .local

structure RoleRecord where
  roleId : String
  orgId : Option String
  name : String
  displayName : String
  permissionScopes : List String := []
  deletedAt : Option Int := none

structure RoleAssignmentRecord where
  assignmentId : String
  orgId : String
  userId : String
  roleId : String
  grantedByUserId : Option String := none
  grantedAt : Int
  revokedAt : Option Int := none

/-! ### Tables -/

def OrganizationRecord.activeSlug (o : OrganizationRecord) : Option String :=
  if o.deletedAt.isNone then some o.slug else none

def UserRecord.activeEmail (u : UserRecord) : Option (String × String) :=
  if u.deletedAt.isNone then some (u.orgId, u.primaryEmail) else none

def OrganizationMemberRecord.activeMember (m : OrganizationMemberRecord) :
    Option (String × String) :=
  if m.removedAt.isNone then some (m.orgId, m.userId) else none

def RoleAssignmentRecord.activeRole (a : RoleAssignmentRecord) :
    Option (String × String × String) :=
  if a.revokedAt.isNone then some (a.orgId, a.userId, a.roleId) else none

structure Directory where
  organizations : IndexedTable OrganizationRecord.orgId OrganizationRecord.activeSlug
  principals : Table PrincipalRecord.principalId
  users : IndexedTable UserRecord.userId UserRecord.activeEmail
  members : IndexedTable OrganizationMemberRecord.memberId OrganizationMemberRecord.activeMember
  roles : Table RoleRecord.roleId
  roleAssignments : IndexedTable RoleAssignmentRecord.assignmentId RoleAssignmentRecord.activeRole

namespace Directory
variable (d : Directory)

def empty : Directory := ⟨.empty, .empty, .empty, .empty, .empty, .empty⟩

/-! ### Operations -/

def createOrganization (record : OrganizationRecord) :
    Except String OrganizationRecord × Directory :=
  match d.organizations.insert? record with
  | none => (.error ("organization slug already exists: " ++ record.slug), d)
  | some organizations => (.ok record, { d with organizations := organizations })

def getOrganization (orgId : String) : Option OrganizationRecord :=
  (d.organizations.find? orgId).filter fun o => o.deletedAt.isNone

def getOrganizationBySlug (slug : String) : Option OrganizationRecord :=
  d.organizations.lookup slug

def defaultPrincipalId (userId : String) : String := "prn_" ++ userId

/-- Give a user the principal of its own, unless it has one. -/
def ensurePrincipal (record : UserRecord) : UserRecord × Directory :=
  if record.principalId.isSome then (record, d)
  else
    let principalId := defaultPrincipalId record.userId
    ({ record with principalId := some principalId },
      if (d.principals.find? principalId).isSome then d
      else { d with principals := d.principals.put ⟨principalId, record.displayName⟩ })

def createUser (record : UserRecord) : Except String UserRecord × Directory :=
  let ensured := d.ensurePrincipal record
  match d.users.insert? ensured.1 with
  | none => (.error ("user with email already exists in org: " ++ record.primaryEmail), d)
  | some users => (.ok ensured.1, { ensured.2 with users := users })

def getUser (orgId userId : String) : Option UserRecord :=
  (d.users.find? userId).filter fun u => u.orgId = orgId && u.deletedAt.isNone

def getUserByEmail (orgId email : String) : Option UserRecord := d.users.lookup (orgId, email)

/-- The users with an email in whatever organisation, the first created first. -/
def listUsersByEmail (email : String) : List UserRecord :=
  (d.users.rows.filter fun u => u.deletedAt.isNone && u.primaryEmail = email).insertionSort
    fun a b => a.createdAt ≤ b.createdAt

def addMember (record : OrganizationMemberRecord) :
    Except String OrganizationMemberRecord × Directory :=
  match d.members.insert? record with
  | none => (.error "user is already an active member of this org", d)
  | some members => (.ok record, { d with members := members })

def listMembers (orgId : String) : List OrganizationMemberRecord :=
  (d.members.rows.filter fun m => m.orgId = orgId && m.removedAt.isNone).insertionSort
    fun a b => a.joinedAt ≤ b.joinedAt

def getRole (roleId : String) : Option RoleRecord :=
  (d.roles.find? roleId).filter fun r => r.deletedAt.isNone

def getRoleByName (orgId : Option String) (name : String) : Option RoleRecord :=
  d.roles.rows.find? fun r => r.orgId = orgId && r.name = name && r.deletedAt.isNone

def assignRole (record : RoleAssignmentRecord) : Except String RoleAssignmentRecord × Directory :=
  match d.roleAssignments.insert? record with
  | none => (.error "role already assigned and active", d)
  | some roleAssignments => (.ok record, { d with roleAssignments := roleAssignments })

def listRoleAssignments (orgId userId : String) : List RoleAssignmentRecord :=
  (d.roleAssignments.rows.filter fun a =>
    a.orgId = orgId && a.userId = userId && a.revokedAt.isNone).insertionSort
      fun a b => a.grantedAt ≤ b.grantedAt

/-! ### Uniqueness -/

/-- An email has at most one user in an organisation, who has at most one membership. -/
structure OnePerEmail : Prop where
  user : ∀ u ∈ d.users.rows, ∀ u' ∈ d.users.rows, u.deletedAt = none → u'.deletedAt = none →
    u.orgId = u'.orgId → u.primaryEmail = u'.primaryEmail → u = u'
  membership : ∀ m ∈ d.members.rows, ∀ m' ∈ d.members.rows, m.removedAt = none →
    m'.removedAt = none → ∀ u ∈ d.users.rows, ∀ u' ∈ d.users.rows, u.deletedAt = none →
      u'.deletedAt = none → u.primaryEmail = u'.primaryEmail → m.userId = u.userId →
        m'.userId = u'.userId → m.orgId = u.orgId → m'.orgId = u'.orgId → m.orgId = m'.orgId →
          m = m'

theorem onePerEmail : d.OnePerEmail := by
  have huser : ∀ u ∈ d.users.rows, ∀ u' ∈ d.users.rows, u.deletedAt = none →
      u'.deletedAt = none → u.orgId = u'.orgId → u.primaryEmail = u'.primaryEmail → u = u' := by
    intro u hu u' hu' hdeleted hdeleted' horg hemail
    apply d.users.unique u hu u' hu' (u.orgId, u.primaryEmail)
    · simp [UserRecord.activeEmail, hdeleted]
    · simp [UserRecord.activeEmail, hdeleted', horg, hemail]
  refine ⟨huser, ?_⟩
  intro m hm m' hm' hremoved hremoved' u hu u' hu' hdeleted hdeleted' hemail hid hid' horg horg'
    hsame
  obtain rfl := huser u hu u' hu' hdeleted hdeleted' (horg ▸ horg' ▸ hsame) hemail
  apply d.members.unique m hm m' hm' (m.orgId, m.userId)
  · simp [OrganizationMemberRecord.activeMember, hremoved]
  · simp [OrganizationMemberRecord.activeMember, hremoved', hsame, hid, hid']

end Directory

end CopilotRuntime.Identity
