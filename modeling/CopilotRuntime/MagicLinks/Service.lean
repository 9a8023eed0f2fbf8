import CopilotRuntime.Foundation.Base64Url
import CopilotRuntime.MagicLinks.Store

/-!
# Sign in with a link

A link is sent to an email that has users, and following it signs in. When the email
has users in several organisations, following it gives a signed token instead, which
is exchanged together with the organisation that was picked.

## Implementation notes

How JSON is written and read is a parameter, and so are the hashes, the key of the
signatures and how `int` reads a value. A text is encoded in ASCII before it is hashed
or signed.
-/

namespace CopilotRuntime.MagicLinks

open Foundation Identity
open AccountMerge (IdentityAuditEventRecord UserStatus)
open Lockout (LoginAttemptRecord LoginAttemptOutcome second)

inductive LinkError
  | rateLimited (retryAfterSeconds : Int)
  | invalidToken (reason : String)
  | pickTokenInvalid (reason : String)
  | membershipDenied (reason : String)
  | valueError (message : String)
  | unicodeEncodeError
  | typeError
  | indexError
  deriving DecidableEq

structure LinkLibrary where
  /-- The compact JSON text of a value in ASCII, with sorted keys. -/
  dumps : Json → List UInt8
  /-- The value of the base64 text of a JSON text. -/
  readSegment : String → Option Json
  hmac : String → List UInt8
  toInt : Json → Except String Int
  sha256 : String → String
  emailHash : String → String

structure LinkConfig where
  magicLinkGloballyEnabled : Bool := true
  baseUrl : String
  defaultTtlSeconds : Int

structure ClientInfo where
  ip : Option String := none
  userAgent : Option String := none

abbrev LinkProgram := Program LinkOp LinkOp.Reply LinkError

def perform (op : LinkOp) : LinkProgram op.Reply := Program.request op

def isAscii (s : String) : Bool := s.toList.all fun c => c.toNat < 128

variable (config : LinkConfig) (library : LinkLibrary)

/-! ### Pick tokens -/

def pickTokenTtlSeconds : Int := 300

structure PickClaims where
  userId : String
  orgs : List String
  tid : Json

/-- The claims of a token that expires the time to live after the second of its stamp. -/
def pickPayload (userId : String) (candidateOrgs : List String) (stamp : Int × String) : Json :=
  .obj [("user_id", .str userId), ("orgs", .strings candidateOrgs),
    ("exp", .int (stamp.1.tdiv second + pickTokenTtlSeconds)), ("tid", .str ("pick_" ++ stamp.2))]

def b64urlEncode (bytes : List UInt8) : String := String.ofList (Base64Url.encode bytes)

def signed (payload : Json) : String :=
  let segment := b64urlEncode (library.dumps payload)
  segment ++ "." ++ b64urlEncode (library.hmac segment)

def encodePickToken (userId : String) (candidateOrgs : List String) : LinkProgram String := do
  let stamp ← perform .pickStamp
  return signed library (pickPayload userId candidateOrgs stamp)

/-- The texts before and after the first separator. -/
def splitOnce (sep : Char) : List Char → Option (List Char × List Char)
  | [] => none
  | c :: rest =>
      if c = sep then some ([], rest)
      else (splitOnce sep rest).map fun (before, after) => (c :: before, after)

/-- The claims of a token with a valid signature. -/
def verified (token : String) : Except LinkError (List (String × Json)) :=
  match splitOnce '.' token.toList with
  | none => .error (.pickTokenInvalid "malformed pick_token")
  | some (payload, signature) =>
      if !isAscii (String.ofList payload) then .error .unicodeEncodeError
      else if !isAscii (String.ofList signature) then .error .typeError
      else if String.ofList signature ≠ b64urlEncode (library.hmac (String.ofList payload)) then
        .error (.pickTokenInvalid "invalid pick_token signature")
      else
        match library.readSegment (String.ofList payload) with
        | none => .error (.pickTokenInvalid "invalid pick_token payload")
        | some (.obj fields) => .ok fields
        | some _ => .error (.pickTokenInvalid "invalid pick_token payload shape")

def claimedExp (fields : List (String × Json)) : Except LinkError Int :=
  (library.toInt ((Json.lookup fields "exp").getD (.int 0))).mapError .valueError

def readText : Json → Option String
  | .str s => some s
  | _ => none

def readClaims (fields : List (String × Json)) : Except LinkError PickClaims :=
  match Json.lookup fields "user_id", Json.lookup fields "orgs" with
  | some (.str userId), some (.arr items) =>
      match items.mapM readText with
      | some orgs => .ok ⟨userId, orgs, (Json.lookup fields "tid").getD .null⟩
      | none => .error (.pickTokenInvalid "invalid pick_token payload shape")
  | _, _ => .error (.pickTokenInvalid "invalid pick_token payload shape")

def decodePickToken (token : String) : LinkProgram PickClaims := do
  let fields ← Program.ofExcept (verified library token)
  let exp ← Program.ofExcept (claimedExp library fields)
  let now ← perform .now
  if exp < now.tdiv second then .raised (.pickTokenInvalid "expired_pick_token")
  else Program.ofExcept (readClaims fields)

/-! ### What the services share -/

def enforceLimit (scope key : String) (windowSeconds limit : Int) : LinkProgram Unit := do
  let retry ← perform (.rateLimit scope key windowSeconds limit)
  if retry = 0 then return else .raised (.rateLimited retry)

def ipKey (client : ClientInfo) : String := (client.ip.filter (· ≠ "")).getD "anon"

def recordAttempt (orgId email userId : Option String) (outcome : LoginAttemptOutcome) :
    LinkProgram Unit :=
  perform (.appendLoginAttempt fun createdAt => ⟨orgId, email, userId, outcome, createdAt⟩)

def audit (client : ClientInfo) (orgId userId action : String) (metadata : List (String × Json)) :
    LinkProgram Unit :=
  perform (.appendIdentityAudit {
    orgId := orgId
    actorUserId := some userId
    subjectUserId := some userId
    action := action
    metadata := .obj metadata
    requestIp := client.ip
    userAgent := client.userAgent
    createdAt := 0 })

def mintSession (orgId userId deviceLabel : String) : LinkProgram SessionRecord :=
  perform (.createSession fun sessionId createdAt => {
    sessionId := sessionId
    orgId := orgId
    userId := userId
    roles := ["employee"]
    permissionScopes := ["runtime:use"]
    deviceLabel := deviceLabel
    createdAt := createdAt
    expiresAt := createdAt + config.defaultTtlSeconds * second })

/-- The user, if it is active. -/
def getActiveUser (orgId userId : String) : LinkProgram (Option UserRecord) := do
  let user ← perform (.identity (.getUser orgId userId))
  return user.filter fun u => u.status = .active

/-! ### Request -/

def magicLinkTtlSeconds : Int := 900

structure MagicLinkStartResponse where
  status : String := "queued"
  expiresInSeconds : Int := 900
  deriving DecidableEq

/-- The name of the first role that still exists. -/
def firstRoleName : List RoleAssignmentRecord → LinkProgram String
  | [] => return "Member"
  | assignment :: rest => do
      let role ← perform (.identity (.getRole assignment.roleId))
      match role with
      | none => firstRoleName rest
      | some role =>
          return if role.displayName ≠ "" then role.displayName
            else if role.name ≠ "" then role.name else "Member"

def candidateFor (user : UserRecord) : LinkProgram WorkspaceCandidate := do
  let org ← perform (.identity (.getOrganization user.orgId))
  let members ← perform (.identity (.listMembers user.orgId))
  let assignments ← perform (.identity (.listRoleAssignments user.orgId user.userId))
  let role ← firstRoleName assignments
  return {
    orgId := user.orgId
    displayName := (org.map OrganizationRecord.displayName).getD user.orgId
    role := role
    memberCount := members.length }

def candidates : List UserRecord → LinkProgram (List WorkspaceCandidate)
  | [] => return []
  | user :: rest => do
      let candidate ← candidateFor user
      let more ← candidates rest
      return candidate :: more

def loginUrl (token : String) : String :=
  config.baseUrl ++ "/auth/magic-link/callback" ++
    (if Text.hasChar config.baseUrl '?' then "&" else "?") ++ "token=" ++ token

def orgDisplayName : Option String → LinkProgram (Option String)
  | none => return none
  | some orgId => do
      let org ← perform (.identity (.getOrganization orgId))
      return org.map OrganizationRecord.displayName

/-- Store a link for the users with an email and send it. -/
def sendLink (client : ClientInfo) (email : String) (returnTo : Option String)
    (primary : UserRecord) (others : List UserRecord) : LinkProgram MagicLinkStartResponse := do
  let candidateOrgs ← candidates (primary :: others)
  let plaintext ← perform .tokenUrlsafe
  let orgId := if others.isEmpty then some primary.orgId else none
  let created ← perform (.createLink fun tokenId createdAt => {
    tokenId := tokenId
    orgId := orgId
    userId := primary.userId
    emailLower := email
    tokenHash := library.sha256 plaintext
    candidateOrgs := candidateOrgs
    returnTo := returnTo
    requestedIp := client.ip
    requestedUa := client.userAgent
    createdAt := createdAt
    expiresAt := createdAt + magicLinkTtlSeconds * second })
  let _ ← Program.ofExcept (created.mapError .valueError)
  recordAttempt (some primary.orgId) (some email) (some primary.userId) .magicLinkRequested
  audit client primary.orgId primary.userId "auth.magic_link.requested"
    [("email_hash", .str (library.emailHash email)),
      ("candidate_orgs", .strings (candidateOrgs.map WorkspaceCandidate.orgId)),
      ("return_to_present", .bool returnTo.isSome)]
  let displayName ← orgDisplayName orgId
  perform (.sendMagicLink email displayName (loginUrl config plaintext)
    (magicLinkTtlSeconds / 60))
  return {}

def requestEnabled (client : ClientInfo) (email : String) (returnTo : Option String) :
    LinkProgram MagicLinkStartResponse := do
  enforceLimit "auth.magic_link.start.ip" (ipKey client) 60 5
  enforceLimit "auth.magic_link.start.email" email 3600 3
  let found ← perform (.identity (.listUsersByEmail email))
  match found.filter fun u => u.status = .active with
  | [] => do
      recordAttempt none (some email) none .unknownUser
      return {}
  | primary :: others => sendLink config library client email returnTo primary others

def request (client : ClientInfo) (email : String) (returnTo : Option String) :
    LinkProgram MagicLinkStartResponse :=
  if config.magicLinkGloballyEnabled then requestEnabled config library client email returnTo
  else do
    recordAttempt none (some email) none .rateLimited
    return {}

/-! ### Consume -/

inductive MagicLinkCallbackResult
  | sessionMinted (userId sessionId orgId : String) (returnTo : Option String) (expiresAt : Int)
  | workspacePickRequired (userId pickToken : String) (workspaces : List WorkspaceCandidate)
      (returnTo : Option String)
  deriving DecidableEq

/-- Consume the link of a user that is no longer active. -/
def refuseInactive (record : MagicLinkTokenRecord) : LinkProgram MagicLinkCallbackResult := do
  let _ ← perform (.markConsumed record.tokenId none)
  .raised (.invalidToken "invalid_token")

/-- Sign the only user of a link in: the session comes first, and whether the link could then be
marked as consumed is not looked at. -/
def mintForLink (client : ClientInfo) (record : MagicLinkTokenRecord)
    (only : WorkspaceCandidate) : LinkProgram MagicLinkCallbackResult := do
  let user ← getActiveUser only.orgId record.userId
  match user with
  | none => refuseInactive record
  | some user => do
      let session ← mintSession config only.orgId user.userId "magic_link"
      let _ ← perform (.markConsumed record.tokenId (some session.sessionId))
      recordAttempt (some only.orgId) (some record.emailLower) (some user.userId)
        .magicLinkConsumed
      audit client only.orgId user.userId "auth.magic_link.consumed"
        [("token_id", .str record.tokenId), ("outcome", .str "session_minted"),
          ("candidate_orgs", .strings (record.candidateOrgs.map WorkspaceCandidate.orgId))]
      return .sessionMinted user.userId session.sessionId only.orgId record.returnTo
        session.expiresAt

/-- Give a token to pick one of the organisations with. -/
def issuePickToken (client : ClientInfo) (record : MagicLinkTokenRecord) (primary : UserRecord) :
    LinkProgram MagicLinkCallbackResult := do
  let candidateOrgs := record.candidateOrgs.map WorkspaceCandidate.orgId
  let pickToken ← encodePickToken library record.userId candidateOrgs
  let _ ← perform (.markConsumed record.tokenId none)
  recordAttempt none (some record.emailLower) (some record.userId) .workspacePickerIssued
  audit client primary.orgId record.userId "auth.workspace_pick.issued"
    [("token_id", .str record.tokenId), ("candidate_orgs", .strings candidateOrgs)]
  return .workspacePickRequired record.userId pickToken record.candidateOrgs record.returnTo

def consumeOpen (client : ClientInfo) (record : MagicLinkTokenRecord)
    (first : WorkspaceCandidate) (others : List WorkspaceCandidate) :
    LinkProgram MagicLinkCallbackResult := do
  let primary ← getActiveUser first.orgId record.userId
  match primary with
  | none => do
      let _ ← perform (.markConsumed record.tokenId none)
      recordAttempt record.orgId (some record.emailLower) (some record.userId) .invalidToken
      .raised (.invalidToken "invalid_token")
  | some primary =>
      if others.isEmpty then mintForLink config client record first
      else issuePickToken library client record primary

def refuseLink (record : Option MagicLinkTokenRecord) (outcome : LoginAttemptOutcome)
    (reason : String) : LinkProgram MagicLinkCallbackResult := do
  recordAttempt (record.bind MagicLinkTokenRecord.orgId)
    (record.map MagicLinkTokenRecord.emailLower) (record.map MagicLinkTokenRecord.userId) outcome
  .raised (.invalidToken reason)

def consumeRecord (client : ClientInfo) (record : MagicLinkTokenRecord) :
    LinkProgram MagicLinkCallbackResult :=
  if record.consumedAt.isSome then refuseLink (some record) .consumedToken "consumed_token"
  else do
    let now ← perform .now
    if record.expiresAt < now then refuseLink (some record) .expiredToken "expired_token"
    else
      match record.candidateOrgs with
      | [] => .raised .indexError
      | first :: others => consumeOpen config library client record first others

def tokenHash (token : String) : Except LinkError String :=
  if isAscii token then .ok (library.sha256 token) else .error .unicodeEncodeError

def consume (client : ClientInfo) (token : String) : LinkProgram MagicLinkCallbackResult := do
  enforceLimit "auth.magic_link.callback" (ipKey client) 60 20
  let tokenHash ← Program.ofExcept (tokenHash library token)
  let record ← perform (.getByHash tokenHash)
  match record with
  | none => refuseLink none .invalidToken "invalid_token"
  | some record => consumeRecord config library client record

/-! ### Select -/

structure SessionSelectResult where
  sessionId : String
  userId : String
  orgId : String
  expiresAt : Int
  deriving DecidableEq

def denyMembership (orgId : String) (claims : PickClaims) : LinkProgram SessionSelectResult := do
  recordAttempt (some orgId) none (some claims.userId) .providerRejected
  .raised (.membershipDenied "not_a_member")

/-- Sign the user of a token in to the organisation that was picked. -/
def selectOrg (client : ClientInfo) (orgId : String) (claims : PickClaims) :
    LinkProgram SessionSelectResult := do
  let user ← getActiveUser orgId claims.userId
  match user with
  | none => .raised (.membershipDenied "not_a_member")
  | some user => do
      let session ← mintSession config orgId claims.userId "magic_link_workspace_select"
      recordAttempt (some orgId) (some user.primaryEmail) (some claims.userId) .workspaceSelected
      audit client orgId claims.userId "auth.workspace_pick.consumed"
        [("pick_token_id", claims.tid), ("candidate_orgs", .strings claims.orgs)]
      return ⟨session.sessionId, claims.userId, orgId, session.expiresAt⟩

def select (client : ClientInfo) (pickToken orgId : String) : LinkProgram SessionSelectResult := do
  enforceLimit "auth.workspace_pick.select" (String.ofList (pickToken.toList.take 24)) 60 10
  let claims ← decodePickToken library pickToken
  if orgId ∈ claims.orgs then selectOrg config client orgId claims
  else denyMembership orgId claims

/-! ### Calls -/

inductive LinkCall
  | request (client : ClientInfo) (email : String) (returnTo : Option String)
  | consume (client : ClientInfo) (token : String)
  | select (client : ClientInfo) (pickToken orgId : String)

inductive LinkResult
  | started (response : MagicLinkStartResponse)
  | followed (result : MagicLinkCallbackResult)
  | selected (result : SessionSelectResult)
  deriving DecidableEq

def LinkCall.body : LinkCall → LinkProgram LinkResult
  | .request client email returnTo => do
      let response ← MagicLinks.request config library client email returnTo
      return .started response
  | .consume client token => do
      let result ← MagicLinks.consume config library client token
      return .followed result
  | .select client pickToken orgId => do
      let result ← MagicLinks.select config library client pickToken orgId
      return .selected result

end CopilotRuntime.MagicLinks
