import CopilotRuntime.Invitations.Store

/-!
# The invitations service

An admin mints an invitation and may revoke it; who holds its token accepts it and
gets a user, a membership and a role in the organisation.

## Implementation notes

The in-memory transaction undoes nothing, so each request to a store stands alone.
How texts are folded to lower case and how a token is hashed are parameters. Text
of instants in audit events is written as a number.
-/

namespace CopilotRuntime.Invitations

open Foundation Identity
open AccountMerge (IdentityAuditEventRecord)

inductive InvitationError
  | badRequest (code : String)
  | conflict (code : String)
  | notFound (code : String)
  | gone (code : String)
  | valueError (message : String)
  deriving DecidableEq

def InvitationError.statusCode : InvitationError → Option Nat
  | .badRequest _ => some 422
  | .conflict _ => some 409
  | .notFound _ => some 404
  | .gone _ => some 410
  | .valueError _ => none

def second : Int := 1000000

def defaultTtlSeconds : Int := 7 * 24 * 3600
def minTtlSeconds : Int := 60
def maxTtlSeconds : Int := 30 * 24 * 3600

structure InvitationMintResult where
  inviteId : String
  tokenPlaintext : String
  tokenPrefix : String
  expiresAt : Int
  createdAt : Int
  deriving DecidableEq

structure InvitationAcceptResult where
  inviteId : String
  orgId : String
  orgDisplayName : String
  userId : String
  roleName : String
  deriving DecidableEq

abbrev InvitationProgram := Program InvitationOp InvitationOp.Reply InvitationError

def perform (op : InvitationOp) : InvitationProgram op.Reply := Program.request op

/-- Raise the failure of a store as a value error. -/
def orValueError {α : Type} (reply : Except String α) : InvitationProgram α :=
  .ofExcept (reply.mapError .valueError)

def auditEvent (orgId actorUserId : String) (action : String) (metadata : List (String × Json)) :
    IdentityAuditEventRecord where
  orgId := orgId
  actorUserId := some actorUserId
  subjectUserId := none
  action := action
  metadata := .obj metadata
  requestIp := none
  userAgent := none
  createdAt := 0

/-! ### Create -/

section Create
variable (lower sha256 : String → String)

/-- Names of roles in the design and in the seeded rows. -/
def roleAliases : List (String × String) :=
  [("admin", "admin"), ("member", "employee"), ("employee", "employee"), ("viewer", "auditor"),
    ("auditor", "auditor")]

def requireRole (roleName : String) : InvitationProgram RoleRecord := do
  let canonical := (roleAliases.lookup (lower roleName)).getD (lower roleName)
  let role ← perform (.identity (.getRoleByName none canonical))
  match role with
  | none => .raised (.badRequest "unknown_role")
  | some role => return role

structure CreateRequest where
  orgId : String
  email : String
  roleName : String
  createdByUserId : String
  ttlSeconds : Option Int := none

/-- Refuse an email that belongs to an active member. -/
def refuseMember (orgId email : String) : InvitationProgram Unit := do
  let existing ← perform (.identity (.getUserByEmail orgId email))
  match existing with
  | none => return
  | some user => do
      let members ← perform (.identity (.listMembers orgId))
      if members.any fun m => m.userId = user.userId && m.removedAt.isNone then
        .raised (.conflict "already_a_member")
      else
        return

/-- Store the invitation and hand out its token. -/
def mint (request : CreateRequest) (email : String) (ttl : Int) (role : RoleRecord) :
    InvitationProgram InvitationMintResult := do
  let plaintext ← perform .tokenUrlsafe
  let now ← perform .now
  let created ← perform (.create {
    orgId := request.orgId
    email := email
    roleId := role.roleId
    tokenHash := sha256 plaintext
    tokenPrefix := (plaintext.take 8).toString
    createdByUserId := request.createdByUserId
    expiresAt := now + ttl * second })
  let record ← orValueError created
  perform (.appendIdentityAudit (auditEvent request.orgId request.createdByUserId
    "invitation.create"
    [("invite_id", .str record.inviteId), ("email", .str email), ("role", .str role.name),
      ("expires_at", .int record.expiresAt)]))
  return ⟨record.inviteId, plaintext, record.tokenPrefix, record.expiresAt, record.createdAt⟩

def createChecked (request : CreateRequest) (email : String) (ttl : Int) :
    InvitationProgram InvitationMintResult := do
  let role ← requireRole lower request.roleName
  refuseMember request.orgId email
  let active ← perform (.getActiveForEmail request.orgId email)
  if active.isSome then
    .raised (.conflict "active_invitation_exists")
  else
    mint sha256 request email ttl role

def create (request : CreateRequest) : InvitationProgram InvitationMintResult :=
  let email := lower (Text.strip request.email)
  let ttl := request.ttlSeconds.getD defaultTtlSeconds
  if !email.contains '@' then
    .raised (.badRequest "invalid_email")
  else if ttl < minTtlSeconds ∨ maxTtlSeconds < ttl then
    .raised (.badRequest "invalid_ttl_seconds")
  else
    createChecked lower sha256 request email ttl

end Create

/-! ### Revoke -/

def revokeOpen (orgId inviteId actorUserId : String) : InvitationProgram Bool := do
  let ok ← perform (.revoke inviteId actorUserId)
  if ok then do
    perform (.appendIdentityAudit
      (auditEvent orgId actorUserId "invitation.revoke" [("invite_id", .str inviteId)]))
    return true
  else
    return false

def revoke (orgId inviteId actorUserId : String) : InvitationProgram Bool := do
  let record ← perform (.get orgId inviteId)
  match record with
  | none => return false
  | some record =>
      if record.isOpen then revokeOpen orgId inviteId actorUserId else return false

/-! ### Accept -/

/-- Raise unless the invitation, as it was read, can be accepted. -/
def checkAcceptable (invitation : InvitationRecord) : InvitationProgram Unit :=
  if invitation.revokedAt.isSome then
    .raised (.gone "invitation_revoked")
  else if invitation.acceptedAt.isSome then
    .raised (.conflict "invitation_already_accepted")
  else do
    let now ← perform .now
    if invitation.expiresAt ≤ now then .raised (.gone "invitation_expired") else return

def invitedUser (invitation : InvitationRecord) (userId : String) (createdAt : Int) :
    UserRecord where
  userId := userId
  orgId := invitation.orgId
  primaryEmail := invitation.email
  displayName := invitation.email
  status := .pendingInvite
  createdAt := createdAt

def invitedMember (invitation : InvitationRecord) (userId memberId : String) (joinedAt : Int) :
    OrganizationMemberRecord where
  memberId := memberId
  orgId := invitation.orgId
  userId := userId
  joinedAt := joinedAt
  source := .invite
  invitedByUserId := some invitation.createdByUserId

def invitedRole (invitation : InvitationRecord) (userId roleId assignmentId : String)
    (grantedAt : Int) : RoleAssignmentRecord where
  assignmentId := assignmentId
  orgId := invitation.orgId
  userId := userId
  roleId := roleId
  grantedByUserId := some invitation.createdByUserId
  grantedAt := grantedAt

/-- The user with the invited email, who is created when there is none. -/
def ensureUser (invitation : InvitationRecord) : InvitationProgram UserRecord := do
  let user ← perform (.identity (.getUserByEmail invitation.orgId invitation.email))
  match user with
  | some user => return user
  | none => do
      let created ← perform (.identity (.createUser (invitedUser invitation)))
      orValueError created

def ensureMember (invitation : InvitationRecord) (userId : String) : InvitationProgram Unit := do
  let members ← perform (.identity (.listMembers invitation.orgId))
  if members.any fun m => m.userId = userId && m.removedAt.isNone then
    return
  else do
    let added ← perform (.identity (.addMember (invitedMember invitation userId)))
    let _ ← orValueError added
    return

def ensureRole (invitation : InvitationRecord) (userId roleId : String) :
    InvitationProgram Unit := do
  let assignments ← perform (.identity (.listRoleAssignments invitation.orgId userId))
  if assignments.any fun a => a.roleId = roleId then
    return
  else do
    let assigned ← perform (.identity (.assignRole (invitedRole invitation userId roleId)))
    let _ ← orValueError assigned
    return

structure AcceptRequest where
  tokenPlaintext : String
  requestIp : Option String := none
  userAgent : Option String := none

def acceptEvent (request : AcceptRequest) (invitation : InvitationRecord) (userId : String)
    (role : RoleRecord) : IdentityAuditEventRecord :=
  { auditEvent invitation.orgId userId "invitation.accept"
      [("invite_id", .str invitation.inviteId), ("accepted_user_id", .str userId),
        ("role", .str role.name)] with
    subjectUserId := some userId
    requestIp := request.requestIp
    userAgent := request.userAgent }

/-- Mark the invitation and record it; whether the mark was made is not looked at. -/
def finishAccept (request : AcceptRequest) (invitation : InvitationRecord)
    (org : OrganizationRecord) (role : RoleRecord) (userId : String) :
    InvitationProgram InvitationAcceptResult := do
  let _ ← perform (.markAccepted invitation.inviteId userId)
  perform (.appendIdentityAudit (acceptEvent request invitation userId role))
  return ⟨invitation.inviteId, invitation.orgId, org.displayName, userId, role.name⟩

/-- Give the invited user what the invitation promises. -/
def takeEffect (request : AcceptRequest) (invitation : InvitationRecord)
    (org : OrganizationRecord) (role : RoleRecord) : InvitationProgram InvitationAcceptResult := do
  let user ← ensureUser invitation
  ensureMember invitation user.userId
  ensureRole invitation user.userId role.roleId
  finishAccept request invitation org role user.userId

def acceptInvitation (request : AcceptRequest) (invitation : InvitationRecord) :
    InvitationProgram InvitationAcceptResult := do
  checkAcceptable invitation
  let org ← perform (.identity (.getOrganization invitation.orgId))
  match org with
  | none => .raised (.gone "invitation_gone")
  | some org => do
      let role ← perform (.identity (.getRole invitation.roleId))
      match role with
      | none => .raised (.gone "role_unavailable")
      | some role => takeEffect request invitation org role

def accept (sha256 : String → String) (request : AcceptRequest) :
    InvitationProgram InvitationAcceptResult :=
  if request.tokenPlaintext = "" then
    .raised (.badRequest "missing token")
  else do
    let found ← perform (.getByTokenHash (sha256 request.tokenPlaintext))
    match found with
    | none => .raised (.notFound "invitation_not_found")
    | some invitation => acceptInvitation request invitation

/-! ### Calls -/

inductive InvitationCall
  | create (request : CreateRequest)
  | revoke (orgId inviteId actorUserId : String)
  | accept (request : AcceptRequest)

inductive InvitationResult
  | created (result : InvitationMintResult)
  | revoked (ok : Bool)
  | accepted (result : InvitationAcceptResult)
  deriving DecidableEq

def InvitationCall.body (lower sha256 : String → String) :
    InvitationCall → InvitationProgram InvitationResult
  | .create request => do
      let result ← Invitations.create lower sha256 request
      return .created result
  | .revoke orgId inviteId actorUserId => do
      let ok ← Invitations.revoke orgId inviteId actorUserId
      return .revoked ok
  | .accept request => do
      let result ← Invitations.accept sha256 request
      return .accepted result

end CopilotRuntime.Invitations
