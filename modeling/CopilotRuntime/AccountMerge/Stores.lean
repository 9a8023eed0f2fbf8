import CopilotRuntime.Foundation.Interruption
import CopilotRuntime.Foundation.Json
import CopilotRuntime.Foundation.Table
import Mathlib.Data.List.Sort

/-!
# Stores of an account merge

The rows that a merge moves from one account to another, the sessions it revokes,
the users it disables, the audit trail it writes and the record in which it keeps
how far it got. Each operation on them happens at one instant.

## Implementation notes

Of a row a merge reads its owner and, for an identity, whether it was unlinked;
the other fields come along as one value. Times are numbers of microseconds, read
from a clock when an operation happens. The service that holds the runtime's rows
is a parameter; a merge that is repeated there leaves them as they are.
-/

namespace CopilotRuntime.AccountMerge

open Foundation

structure Account where
  orgId : String
  userId : String
  deriving DecidableEq

/-! ### Rows that are moved -/

inductive MergeTable
  | walletIdentities | oidcIdentities | providerApiKeys | userProfiles | userPreferences
  deriving DecidableEq

def MergeTable.text : MergeTable → String
  | .walletIdentities => "wallet_identities"
  | .oidcIdentities => "oidc_identities"
  | .providerApiKeys => "provider_api_keys"
  | .userProfiles => "user_profiles"
  | .userPreferences => "user_preferences"

/-- Identities are kept under an id, profiles under an account, keys under an account's provider. -/
inductive RowKey
  | id (rowId : String)
  | account (owner : Account)
  | provider (owner : Account) (provider : String)
  deriving DecidableEq

structure OwnedRow where
  owner : Account
  unlinkedAt : Option Int
  rest : Json

def OwnedRow.movedTo (row : OwnedRow) (account : Account) : OwnedRow :=
  { row with owner := account }

/-! ### Sessions, users and the audit trail -/

structure SessionRecord where
  sessionId : String
  owner : Account
  createdAt : Int
  expiresAt : Int
  revokedAt : Option Int
  revocationReason : Option String
  rest : Json

def SessionRecord.activeAt (s : SessionRecord) (account : Account) (now : Int) : Bool :=
  s.owner = account && s.revokedAt.isNone && now < s.expiresAt

def SessionRecord.revoked (s : SessionRecord) (reason : String) (now : Int) : SessionRecord :=
  { s with revokedAt := some now, revocationReason := some reason }

inductive UserStatus
  | active | disabled | pendingInvite
  deriving DecidableEq

structure UserRecord where
  userId : String
  orgId : String
  status : UserStatus
  deletedAt : Option Int
  absorbedIntoUserId : Option String
  mergedAt : Option Int
  rest : Json

structure OrganizationMemberRecord where
  orgId : String
  userId : String
  joinedAt : Int
  removedAt : Option Int

structure IdentityAuditEventRecord where
  orgId : String
  actorUserId : Option String
  subjectUserId : Option String
  action : String
  metadata : Json
  requestIp : Option String
  userAgent : Option String
  createdAt : Int

/-! ### Merge records -/

inductive AccountMergeState
  | pending | backendDone | runtimeDone | sessionsRevoked | completed
  deriving DecidableEq

def AccountMergeState.text : AccountMergeState → String
  | .pending => "pending"
  | .backendDone => "backend_done"
  | .runtimeDone => "runtime_done"
  | .sessionsRevoked => "sessions_revoked"
  | .completed => "completed"

/-- The account that is absorbed and the one that survives. -/
structure AccountPair where
  absorbed : Account
  survivor : Account
  deriving DecidableEq

structure AccountMergeRecord where
  mergeId : String
  accounts : AccountPair
  state : AccountMergeState
  proofRef : String
  error : Option String
  counts : List (String × Json)
  startedAt : Int
  updatedAt : Int
  completedAt : Option Int

/-! ### The runtime -/

structure RuntimeMergeRequest where
  mergeId : String
  accounts : AccountPair

/-- The rows of the runtime, which a merge moves once however often it is repeated. -/
structure RuntimePort (ρ : Type) where
  merge : RuntimeMergeRequest → ρ → ρ × Json
  merge_idempotent : ∀ request rows,
    (merge request (merge request rows).1).1 = (merge request rows).1

/-! ### Operations -/

structure MergeWorld (ρ : Type) where
  tables : MergeTable → Dict RowKey OwnedRow
  runtime : ρ
  sessions : Table SessionRecord.sessionId
  users : Table UserRecord.userId
  members : List OrganizationMemberRecord
  audits : List IdentityAuditEventRecord
  merges : Table AccountMergeRecord.mergeId

/-- The errors of a merge, and any other exception with its text. -/
inductive MergeException
  | mergeNotAllowed (reason : String)
  | mergeRuntimeFailed (message : String)
  | other (text : String)
  deriving DecidableEq

inductive MergeOp : Type
  | now
  | tableItems (table : MergeTable)
  | tableRow (table : MergeTable) (key : RowKey)
  | setTableRow (table : MergeTable) (key : RowKey) (row : OwnedRow)
  | deleteTableRow (table : MergeTable) (key : RowKey)
  | runtimeMerge (request : RuntimeMergeRequest)
  | listActiveSessions (account : Account)
  | revokeSession (orgId sessionId reason : String)
  | getUser (account : Account)
  | putUser (user : UserRecord)
  | listMembers (orgId : String)
  | appendIdentityAudit (event : IdentityAuditEventRecord)
  | createMerge (record : AccountMergeRecord)
  | getMerge (mergeId : String)
  | updateMerge (record : AccountMergeRecord)
  | findByAbsorbed (account : Account)

def MergeOp.Value : MergeOp → Type
  | now => Int
  | tableItems _ => List (RowKey × OwnedRow)
  | tableRow _ _ => Option OwnedRow
  | setTableRow _ _ _ | deleteTableRow _ _ | putUser _ | appendIdentityAudit _ => Unit
  | runtimeMerge _ => Json
  | listActiveSessions _ => List SessionRecord
  | revokeSession _ _ _ => Bool
  | getUser _ => Option UserRecord
  | listMembers _ => List OrganizationMemberRecord
  | createMerge _ => Except MergeException AccountMergeRecord
  | getMerge _ => Option AccountMergeRecord
  | updateMerge _ => AccountMergeRecord
  | findByAbsorbed _ => List AccountMergeRecord

namespace MergeWorld
variable {ρ : Type} (w : MergeWorld ρ)

def setTable (table : MergeTable) (rows : Dict RowKey OwnedRow) : MergeWorld ρ :=
  { w with tables := Function.update w.tables table rows }

def getUser (account : Account) : Option UserRecord :=
  (w.users.find? account.userId).filter fun user =>
    user.orgId = account.orgId && user.deletedAt.isNone

/-- The sessions of an account that are neither revoked nor expired, newest first. -/
def listActiveSessions (account : Account) (now : Int) : List SessionRecord :=
  (w.sessions.rows.filter fun s => s.activeAt account now).insertionSort
    fun a b => b.createdAt ≤ a.createdAt

def putSession (s : SessionRecord) : MergeWorld ρ := { w with sessions := w.sessions.put s }

/-- Revoke a session of an organisation; one that is revoked stays as it is. -/
def revokeSession (orgId sessionId reason : String) (now : Int) : Bool × MergeWorld ρ :=
  match w.sessions.find? sessionId with
  | none => (false, w)
  | some s =>
      if s.owner.orgId ≠ orgId then (false, w)
      else if s.revokedAt.isSome then (true, w)
      else (true, w.putSession (s.revoked reason now))

def listMembers (orgId : String) : List OrganizationMemberRecord :=
  (w.members.filter fun m => m.orgId = orgId && m.removedAt.isNone).insertionSort
    fun a b => a.joinedAt ≤ b.joinedAt

/-- The merges of an absorbed account, newest first. -/
def findByAbsorbed (account : Account) : List AccountMergeRecord :=
  (w.merges.rows.filter fun r => r.accounts.absorbed = account).insertionSort
    fun a b => b.startedAt ≤ a.startedAt

def createMerge (record : AccountMergeRecord) :
    Except MergeException AccountMergeRecord × MergeWorld ρ :=
  if w.merges.rows.any fun r =>
      r.accounts.absorbed = record.accounts.absorbed && r.state ≠ .completed then
    (.error (.other "a merge for this absorbed account is already active"), w)
  else (.ok record, { w with merges := w.merges.put record })

def updateMerge (record : AccountMergeRecord) (now : Int) : AccountMergeRecord × MergeWorld ρ :=
  ({ record with updatedAt := now },
    { w with merges := w.merges.put { record with updatedAt := now } })

/-- What an operation gives and does when the clock shows a time. -/
def answer (runtime : RuntimePort ρ) (now : Int) :
    (op : MergeOp) → MergeWorld ρ → op.Value × MergeWorld ρ
  | .now, w => (now, w)
  | .tableItems table, w => ((w.tables table).entries, w)
  | .tableRow table key, w => ((w.tables table).get? key, w)
  | .setTableRow table key row, w => ((), w.setTable table ((w.tables table).set key row))
  | .deleteTableRow table key, w => ((), w.setTable table ((w.tables table).erase key))
  | .runtimeMerge request, w =>
      ((runtime.merge request w.runtime).2,
        { w with runtime := (runtime.merge request w.runtime).1 })
  | .listActiveSessions account, w => (w.listActiveSessions account now, w)
  | .revokeSession orgId sessionId reason, w => w.revokeSession orgId sessionId reason now
  | .getUser account, w => (w.getUser account, w)
  | .putUser user, w => ((), { w with users := w.users.put user })
  | .listMembers orgId, w => (w.listMembers orgId, w)
  | .appendIdentityAudit event, w =>
      ((), { w with audits := w.audits ++ [{ event with createdAt := now }] })
  | .createMerge record, w => w.createMerge record
  | .getMerge mergeId, w => (w.merges.find? mergeId, w)
  | .updateMerge record, w => w.updateMerge record now
  | .findByAbsorbed account, w => (w.findByAbsorbed account, w)

end MergeWorld

end CopilotRuntime.AccountMerge
