import CopilotRuntime.Siwe.Message
import CopilotRuntime.Siwe.Store

/-!
# Sign in with a wallet

A nonce is issued for an address and a chain. A signed message with that nonce signs
its wallet in, with a personal organisation at the first time, or links the wallet to
the account of the caller.

## Implementation notes

The in-memory transaction undoes nothing, so each request to a store stands alone. A
failed signature is no failure of any user, so the lockouts do not count it.
-/

namespace CopilotRuntime.Siwe

open Foundation Identity Lockout
open AccountMerge (Account IdentityAuditEventRecord)

inductive SiweError
  | addressInvalid (message : String)
  | chainNotAllowed (message : String)
  | messageInvalid (message : String)
  | domainMismatch (message : String)
  | expiredMessage (message : String)
  | nonceInvalid (message : String)
  | nonceExpired (message : String)
  | signatureInvalid (message : String)
  | selfSignupDisabled (message : String)
  | userNotProvisioned (message : String)
  | walletAlreadyLinked (orgId userId walletId address : String) (chainId : Int)
  | rateLimited (retryAfterSeconds : Int)
  | slugExhausted (message : String)
  | valueError (message : String)
  | accountLocked (locked : AccountLocked)
  deriving DecidableEq

structure SiweConfig where
  expectedScheme : String
  expectedAuthority : String
  allowedChainIds : List Int
  allowSelfSignup : Bool := false
  hasRateLimiter : Bool := false
  hasLockout : Bool := false
  hasMfa : Bool := false
  nonceTtlSeconds : Int := 300
  sessionTtlSeconds : Int

structure ClientInfo where
  ip : Option String := none
  userAgent : Option String := none

abbrev SiweProgram := Program SiweOp SiweOp.Reply SiweError

def perform (op : SiweOp) : SiweProgram op.Reply := Program.request op

/-- Raise the failure of a store as a value error. -/
def orValueError {α : Type} (reply : Except String α) : SiweProgram α :=
  .ofExcept (reply.mapError .valueError)

/-- A part that the lockout service does. -/
def ofLockout {α : Type} (p : LockoutProgram α) : SiweProgram α :=
  p.lift SiweOp.lockout (fun _ reply => reply) SiweError.accountLocked

def now : SiweProgram Int := perform (.lockout .now)

def recordAttempt (orgId userId : Option String) (outcome : LoginAttemptOutcome) :
    SiweProgram Unit := do
  let createdAt ← now
  perform (.lockout (.appendLoginAttempt ⟨orgId, none, userId, outcome, createdAt⟩))

def auditEvent (client : ClientInfo) (orgId : String) (user : UserRecord) (action : String)
    (metadata : List (String × Json)) : IdentityAuditEventRecord where
  orgId := orgId
  actorUserId := some user.userId
  subjectUserId := some user.userId
  action := action
  metadata := .obj (metadata ++ [("provider_id", .str "siwe"), ("provider_kind", .str "siwe")])
  requestIp := client.ip
  userAgent := client.userAgent
  createdAt := 0

def audit (event : IdentityAuditEventRecord) : SiweProgram Unit :=
  perform (.lockout (.appendIdentityAudit event))

variable (config : SiweConfig) (library : SiweLibrary)

/-! ### Nonces -/

def notAllowlisted (chainId : Int) : String := "chain " ++ toString chainId ++ " is not allowlisted"

def enforceLimit (scope key : String) (windowSeconds limit : Int) : SiweProgram Unit := do
  let retry ← perform (.rateLimit scope key windowSeconds limit)
  if retry = 0 then return else .raised (.rateLimited retry)

def enforceNonceRateLimit (address : String) (ip : Option String) : SiweProgram Unit :=
  if config.hasRateLimiter then do
    enforceLimit "auth.siwe.nonce.ip" ((ip.filter (· ≠ "")).getD "anon") 60 30
    enforceLimit "auth.siwe.nonce.address" address 3600 60
  else
    return

structure SiweNonceResult where
  nonce : String
  expiresAt : Int
  deriving DecidableEq

def issueNonce (client : ClientInfo) (address : String) (chainId : Int) :
    SiweProgram SiweNonceResult := do
  enforceNonceRateLimit config address client.ip
  let nonce ← perform .tokenHex
  let issued ← now
  let created ← perform (.createNonce fun nonceId issuedAt => {
    nonceId := nonceId
    nonce := nonce
    address := address
    chainId := chainId
    issuedAt := issuedAt
    expiresAt := issued + min config.nonceTtlSeconds 600 * second
    ip := client.ip
    userAgent := client.userAgent })
  let record ← orValueError created
  return ⟨record.nonce, record.expiresAt⟩

def mintNonce (client : ClientInfo) (address : String) (chainId : Int) :
    SiweProgram SiweNonceResult :=
  match normalizeWalletAddress library address with
  | .error message => .raised (.addressInvalid message)
  | .ok normalized =>
      if chainId ∈ config.allowedChainIds then issueNonce config client normalized chainId
      else .raised (.chainNotAllowed (notAllowlisted chainId))

/-! ### Checks of a message -/

def siweStatement : String := "Sign in to Copilot"

/-- The message if it has the right form and statement. -/
def readMessage (message : String) : Except SiweError SiweMessage :=
  match parseSiweMessage library message with
  | .error text => .error (.messageInvalid text)
  | .ok parsed =>
      if parsed.statement = siweStatement then .ok parsed
      else .error (.messageInvalid ("statement must be exactly '" ++ siweStatement ++ "'"))

def domainBound (parsed : SiweMessage) : Bool :=
  library.lower parsed.domain = config.expectedAuthority &&
    library.lower (library.urlsplit parsed.uri).1 = config.expectedScheme &&
    library.lower (library.urlsplit parsed.uri).2 = config.expectedAuthority

def checkDomainBinding (parsed : SiweMessage) : SiweProgram Unit :=
  if domainBound config library parsed then return
  else do
    recordAttempt none none .providerRejected
    .raised (.domainMismatch ("message bound to " ++ library.repr parsed.domain ++ " / " ++
      library.repr parsed.uri ++ "; this deployment serves " ++ config.expectedScheme ++ "://" ++
      config.expectedAuthority))

def issuedAtMaxSkew : Int := 300 * second

/-- Whether the instants of a message allow it to be used. -/
def inTimeWindow (parsed : SiweMessage) (now : Int) : Except String Bool := do
  let issuedAt ← parseTimestamp library parsed.issuedAt "Issued At"
  let expiration ← parseTimestamp library parsed.expirationTime "Expiration Time"
  let notBefore ← parsed.notBefore.toList.mapM fun value =>
    parseTimestamp library value "Not Before"
  return now < expiration && issuedAt ≤ now + issuedAtMaxSkew && notBefore.all (· ≤ now)

def checkTimeWindow (parsed : SiweMessage) : SiweProgram Unit := do
  let now ← now
  let inside ← Program.ofExcept ((inTimeWindow library parsed now).mapError SiweError.messageInvalid)
  if inside then return
  else do
    recordAttempt none none .expiredToken
    .raised (.expiredMessage "message is outside its validity window")

def rejectSignature {α : Type} (message : String) : SiweProgram α := do
  recordAttempt none none .providerRejected
  .raised (.signatureInvalid message)

/-- The address whose key has signed the message, which must be the one that it names. -/
def recoverSigner (message signature : String) (parsed : SiweMessage) : SiweProgram String :=
  match library.recoverMessage message signature with
  | .error text => rejectSignature ("signature does not recover: " ++ text)
  | .ok recovered =>
      if library.lower recovered = parsed.addressLower library then
        return library.lower recovered
      else
        rejectSignature "signature recovers a different address than the message claims"

def refuseNonce {α : Type} (outcome : LoginAttemptOutcome) (error : SiweError) :
    SiweProgram α := do
  recordAttempt none none outcome
  .raised error

/-- Consume the nonce of a message; only afterwards its expiry and what it is bound to are
checked. -/
def consumeNonce (parsed : SiweMessage) : SiweProgram SiweNonceRecord := do
  let record ← perform (.consumeNonce parsed.nonce)
  match record.filter fun r => r.nonce = parsed.nonce with
  | none => refuseNonce .invalidToken (.nonceInvalid "nonce is unknown or already used")
  | some record => do
      let now ← now
      if record.expiresAt ≤ now then
        refuseNonce .expiredToken (.nonceExpired "nonce has expired; request a fresh one")
      else if record.address ≠ parsed.addressLower library ∨ record.chainId ≠ parsed.chainId then
        refuseNonce .invalidToken
          (.nonceInvalid "nonce was issued for a different address or chain")
      else
        return record

/-- The checks that signing in and linking share, from the domain on. -/
def proveOwnership (message signature : String) (parsed : SiweMessage) : SiweProgram String := do
  checkDomainBinding config library parsed
  checkTimeWindow library parsed
  let recovered ← recoverSigner library message signature parsed
  let _ ← consumeNonce library parsed
  return recovered

/-! ### Provisioning -/

def slugChar (c : Char) : Bool :=
  ('a' ≤ c && c ≤ 'z') || ('0' ≤ c && c ≤ '9') || c = '_' || c = '-'

/-- Put one dash for each run of characters that a slug may not have. -/
def dashRuns (inRun : Bool) : List Char → List Char
  | [] => []
  | c :: rest =>
      if slugChar c then c :: dashRuns false rest
      else if inRun then dashRuns true rest
      else '-' :: dashRuns true rest

def slugBase (base : String) : String :=
  let candidate := Text.stripWhere (fun c => c = '-' || c = '_')
    (dashRuns false (library.lower base).toList)
  if (candidate.head?.filter Char.isAlphanum).isSome then String.ofList candidate else "workspace"

/-- Try the candidate and then as many with a random suffix as there are tries left. -/
def freePersonalOrgSlug (base : String) (candidate : String) : Nat → SiweProgram String
  | 0 => .raised (.slugExhausted ("could not derive a free org slug from " ++ library.repr base))
  | tries + 1 => do
      let taken ← perform (.identity (.getOrganizationBySlug candidate))
      match taken with
      | none => return candidate
      | some _ => do
          let suffix ← perform .tokenHex
          freePersonalOrgSlug base (slugBase library base ++ "-" ++ suffix) tries

structure Profile where
  orgDisplayName : String
  slugBase : String
  primaryEmail : String
  userDisplayName : String
  memberSource : OrganizationMemberSource

def createOrganization (profile : Profile) (slug : String) : SiweProgram OrganizationRecord := do
  let created ← perform (.identity (.createOrganization fun orgId _ => {
    orgId := orgId
    displayName := profile.orgDisplayName
    slug := slug }))
  orValueError created

def createUser (profile : Profile) (org : OrganizationRecord) : SiweProgram UserRecord := do
  let created ← perform (.identity (.createUser fun userId createdAt => {
    userId := userId
    orgId := org.orgId
    primaryEmail := profile.primaryEmail
    displayName := profile.userDisplayName
    createdAt := createdAt }))
  orValueError created

def addMember (profile : Profile) (org : OrganizationRecord) (user : UserRecord) :
    SiweProgram OrganizationMemberRecord := do
  let added ← perform (.identity (.addMember fun memberId joinedAt => {
    memberId := memberId
    orgId := org.orgId
    userId := user.userId
    joinedAt := joinedAt
    source := profile.memberSource }))
  orValueError added

/-- Give the user the role of an administrator, if there is one. -/
def assignAdmin (org : OrganizationRecord) (user : UserRecord) : SiweProgram Unit := do
  let adminRole ← perform (.identity (.getRoleByName none "admin"))
  match adminRole with
  | none => return
  | some adminRole => do
      let assigned ← perform (.identity (.assignRole fun assignmentId grantedAt => {
        assignmentId := assignmentId
        orgId := org.orgId
        userId := user.userId
        roleId := adminRole.roleId
        grantedAt := grantedAt }))
      let _ ← orValueError assigned
      return

def auditAll : List IdentityAuditEventRecord → SiweProgram Unit
  | [] => return
  | event :: rest => do
      audit event
      auditAll rest

def provisionPersonalOrg (profile : Profile)
    (auditEvents : OrganizationRecord → UserRecord → List IdentityAuditEventRecord) :
    SiweProgram (OrganizationRecord × UserRecord) := do
  let slug ← freePersonalOrgSlug library profile.slugBase (slugBase library profile.slugBase) 32
  let org ← createOrganization profile slug
  let user ← createUser profile org
  let _ ← addMember profile org user
  assignAdmin org user
  auditAll (auditEvents org user)
  return (org, user)

/-! ### Verify -/

def walletProfile (address : String) : Profile where
  orgDisplayName := truncatedDisplayAddress library address ++ "'s Workspace"
  slugBase := String.ofList (address.toList.take 6) ++ "-" ++
    String.ofList (address.toList.drop (address.length - 4))
  primaryEmail := address ++ "@wallet.invalid"
  userDisplayName := truncatedDisplayAddress library address
  memberSource := .siwe

def signupAuditEvents (client : ClientInfo) (address : String) (chainId : Int)
    (org : OrganizationRecord) (user : UserRecord) : List IdentityAuditEventRecord :=
  let checksummed := library.toChecksumAddress address
  [auditEvent client org.orgId user "siwe.self_signup_org_created"
      [("org_slug", .str org.slug), ("address", .str checksummed), ("chain_id", .int chainId)],
    auditEvent client org.orgId user "siwe.user_provisioned"
      [("address", .str checksummed), ("chain_id", .int chainId)]]

/-- Sign up a wallet that nobody has: an account first, and then the link to it. -/
def signUp (client : ClientInfo) (address : String) (chainId : Int) : SiweProgram UserRecord := do
  let (org, user) ← provisionPersonalOrg library (walletProfile library address)
    (signupAuditEvents library client address chainId)
  let created ← perform (.createWalletIdentity fun walletId createdAt => {
    walletId := walletId
    address := address
    orgId := org.orgId
    userId := user.userId
    chainId := chainId
    createdAt := createdAt })
  let _ ← orValueError created
  return user

/-- The user whom a wallet signs in, and whether it was made for that. -/
def linkOrProvision (client : ClientInfo) (address : String) (chainId : Int) :
    SiweProgram (UserRecord × Bool) := do
  let existing ← perform (.getWalletIdentity address)
  match existing with
  | some existing => do
      let user ← perform (.identity (.getUser existing.orgId existing.userId))
      match user with
      | some user => return (user, false)
      | none => do
          recordAttempt (some existing.orgId) none .unknownUser
          .raised (.userNotProvisioned "linked wallet identity points at a deleted user")
  | none =>
      if config.allowSelfSignup then do
        let user ← signUp library client address chainId
        return (user, true)
      else do
        recordAttempt (some "org_global_siwe") none .unknownUser
        .raised (.selfSignupDisabled
          "wallet not linked and self-signup is disabled for this deployment")

/-- The names and the scopes of the roles that still exist. -/
def collectRoles : List RoleAssignmentRecord → SiweProgram (List String × List String)
  | [] => return ([], [])
  | assignment :: rest => do
      let role ← perform (.identity (.getRole assignment.roleId))
      let (names, scopes) ← collectRoles rest
      match role with
      | none => return (names, scopes)
      | some role => return (role.name :: names, role.permissionScopes ++ scopes)

def employeeRole : SiweProgram (List String × List String) := do
  let employee ← perform (.identity (.getRoleByName none "employee"))
  return (["employee"], (employee.map RoleRecord.permissionScopes).getD [])

def mfaRequired (user : UserRecord) : SiweProgram Bool :=
  if config.hasMfa then do
    let required ← perform (.policyRequiresMfa user.orgId)
    if required then perform (.hasEnabledFactor ⟨user.orgId, user.userId⟩) else return false
  else
    return false

/-- Nobody signs in without a role. -/
def sessionRoles (user : UserRecord) : SiweProgram (List String × List String) := do
  let assignments ← perform (.identity (.listRoleAssignments user.orgId user.userId))
  let collected ← collectRoles assignments
  if collected.1.isEmpty then employeeRole else return collected

def mintSession (user : UserRecord) : SiweProgram (SessionRecord × Bool) := do
  let (roles, scopes) ← sessionRoles user
  let mfaRequired ← mfaRequired config user
  let now ← now
  let session ← perform (.createSession fun sessionId createdAt => {
    sessionId := sessionId
    orgId := user.orgId
    userId := user.userId
    roles := roles
    permissionScopes :=
      if mfaRequired then ["mfa:pending"] else scopes.dedup.insertionSort fun a b => a ≤ b
    authProviderId := some "siwe"
    deviceLabel := "siwe"
    createdAt := createdAt
    expiresAt := now + config.sessionTtlSeconds * second })
  return (session, mfaRequired)

structure SiweVerifyResult where
  userId : String
  sessionId : String
  expiresAt : Int
  requiresMfa : Bool
  deriving DecidableEq

def checkLockout (user : UserRecord) : SiweProgram Unit :=
  if config.hasLockout then ofLockout (checkOrRaise user.orgId (some user.userId)) else return

def recordLockoutSuccess (user : UserRecord) : SiweProgram Unit :=
  if config.hasLockout then ofLockout (recordSuccess user.orgId user.userId) else return

/-- A wallet that was known before leaves an audit event of its own. -/
def auditSignIn (client : ClientInfo) (address : String) (chainId : Int) (user : UserRecord)
    (provisioned : Bool) : SiweProgram Unit :=
  if provisioned then return
  else
    audit (auditEvent client user.orgId user "siwe.verify_succeeded"
      [("address", .str (library.toChecksumAddress address)), ("chain_id", .int chainId),
        ("provisioned", .bool false)])

def completeSignIn (client : ClientInfo) (address : String) (chainId : Int) (user : UserRecord)
    (provisioned : Bool) : SiweProgram SiweVerifyResult := do
  let (session, mfaRequired) ← mintSession config user
  auditSignIn library client address chainId user provisioned
  recordAttempt (some user.orgId) (some user.userId) .success
  recordLockoutSuccess config user
  return ⟨user.userId, session.sessionId, session.expiresAt, mfaRequired⟩

/-- Sign the user in, unless the user is locked. -/
def signIn (client : ClientInfo) (address : String) (chainId : Int) (user : UserRecord)
    (provisioned : Bool) : SiweProgram SiweVerifyResult := do
  checkLockout config user
  completeSignIn config library client address chainId user provisioned

def verifyParsed (client : ClientInfo) (message signature : String) (parsed : SiweMessage) :
    SiweProgram SiweVerifyResult := do
  let recovered ← proveOwnership config library message signature parsed
  let (user, provisioned) ← linkOrProvision config library client recovered parsed.chainId
  signIn config library client recovered parsed.chainId user provisioned

def verify (client : ClientInfo) (message signature : String) : SiweProgram SiweVerifyResult :=
  match readMessage library message with
  | .error error => .raised error
  | .ok parsed =>
      if parsed.chainId ∈ config.allowedChainIds then
        verifyParsed config library client message signature parsed
      else do
        recordAttempt none none .providerRejected
        .raised (.chainNotAllowed (notAllowlisted parsed.chainId))

/-! ### Link -/

def chainNames : List (Int × String) :=
  [(1, "Ethereum"), (8453, "Base"), (42161, "Arbitrum One"), (4663, "Robinhood Chain")]

def chainDisplayName (chainId : Int) : String :=
  (chainNames.lookup chainId).getD ("Chain " ++ toString chainId)

structure SiweLinkWalletResult where
  status : String
  walletId : String
  address : String
  chainId : Int
  chainName : String
  deriving DecidableEq

/-- Store the link of a wallet that nobody had a moment ago. -/
def linkNew (client : ClientInfo) (orgId userId address : String) (chainId : Int)
    (caller : UserRecord) : SiweProgram SiweLinkWalletResult := do
  let created ← perform (.createWalletIdentity fun walletId createdAt => {
    walletId := walletId
    address := address
    orgId := orgId
    userId := userId
    chainId := chainId
    createdAt := createdAt })
  let record ← orValueError created
  audit (auditEvent client orgId caller "siwe.wallet_linked"
    [("address", .str (library.toChecksumAddress address)), ("chain_id", .int chainId),
      ("wallet_id", .str record.walletId)])
  return ⟨"linked", record.walletId, library.toChecksumAddress address, chainId,
    chainDisplayName chainId⟩

def linkProven (client : ClientInfo) (orgId userId address : String) (chainId : Int) :
    SiweProgram SiweLinkWalletResult := do
  let caller ← perform (.identity (.getUser orgId userId))
  match caller with
  | none => .raised (.userNotProvisioned "caller identity not found")
  | some caller => do
      let existing ← perform (.getWalletIdentity address)
      match existing with
      | none => linkNew library client orgId userId address chainId caller
      | some existing =>
          if existing.orgId = orgId ∧ existing.userId = userId then
            return ⟨"already_linked", existing.walletId, library.toChecksumAddress address,
              existing.chainId, chainDisplayName existing.chainId⟩
          else
            .raised (.walletAlreadyLinked existing.orgId existing.userId existing.walletId
              (library.toChecksumAddress address) existing.chainId)

def linkParsed (client : ClientInfo) (orgId userId message signature : String)
    (parsed : SiweMessage) : SiweProgram SiweLinkWalletResult := do
  let recovered ← proveOwnership config library message signature parsed
  linkProven library client orgId userId recovered parsed.chainId

def linkWallet (client : ClientInfo) (orgId userId message signature : String) :
    SiweProgram SiweLinkWalletResult :=
  match readMessage library message with
  | .error error => .raised error
  | .ok parsed =>
      if parsed.chainId ∈ config.allowedChainIds then
        linkParsed config library client orgId userId message signature parsed
      else
        .raised (.chainNotAllowed (notAllowlisted parsed.chainId))

/-! ### Calls -/

inductive SiweCall
  | mintNonce (client : ClientInfo) (address : String) (chainId : Int)
  | verify (client : ClientInfo) (message signature : String)
  | linkWallet (client : ClientInfo) (orgId userId message signature : String)

inductive SiweResult
  | nonce (result : SiweNonceResult)
  | verified (result : SiweVerifyResult)
  | linked (result : SiweLinkWalletResult)
  deriving DecidableEq

def SiweCall.body : SiweCall → SiweProgram SiweResult
  | .mintNonce client address chainId => do
      let result ← Siwe.mintNonce config library client address chainId
      return .nonce result
  | .verify client message signature => do
      let result ← Siwe.verify config library client message signature
      return .verified result
  | .linkWallet client orgId userId message signature => do
      let result ← Siwe.linkWallet config library client orgId userId message signature
      return .linked result

end CopilotRuntime.Siwe
