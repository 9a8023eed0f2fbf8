import CopilotRuntime.AccountMerge.Stores

/-!
# The account-merge saga

A merge moves the rows of the absorbed account, has the runtime move its own,
revokes the account's sessions and disables its user. After each of these steps
the merge record takes note of it. A merge that was interrupted goes on with the
step after the last one its record knows of.

## Implementation notes

Any operation may raise an exception in place of happening. The call of the
runtime may also raise when it has happened. A process that dies stops between
two operations.
-/

namespace CopilotRuntime.AccountMerge

open Foundation

/-- The reply to an operation that may raise. -/
abbrev MergeOp.Reply (op : MergeOp) : Type := Except MergeException op.Value

abbrev SagaProgram (α : Type) : Type := Program MergeOp MergeOp.Reply MergeException α

def perform (op : MergeOp) : SagaProgram op.Value := do
  let reply ← Program.request op
  Program.ofExcept reply

def raiseError {α : Type} (e : MergeException) : SagaProgram α := .raised e

/-! ### Moving rows -/

section Rows
variable (accounts : AccountPair) (table : MergeTable)

/-- Give the rows that satisfy a condition to the survivor. -/
def retenant (isMoved : OwnedRow → Bool) : List (RowKey × OwnedRow) → SagaProgram Nat
  | [] => pure 0
  | (key, row) :: rest => do
      if isMoved row then
        let _ ← perform (.setTableRow table key (row.movedTo accounts.survivor))
        let moved ← retenant isMoved rest
        return moved + 1
      else retenant isMoved rest

/-- Move a row to the survivor's key, or drop it if there is a row under that key. -/
def moveRow (source target : RowKey) (row : OwnedRow) : SagaProgram Nat := do
  let held ← perform (.tableRow table target)
  if held.isNone then
    let _ ← perform (.setTableRow table target (row.movedTo accounts.survivor))
    let _ ← perform (.deleteTableRow table source)
    return 1
  else
    let _ ← perform (.deleteTableRow table source)
    return 0

def moveProviderRows : List (RowKey × OwnedRow) → SagaProgram Nat
  | [] => pure 0
  | (.provider owner provider, row) :: rest => do
      if owner = accounts.absorbed then
        let moved ← moveRow accounts table (.provider owner provider)
          (.provider accounts.survivor provider) row
        let more ← moveProviderRows rest
        return moved + more
      else moveProviderRows rest
  | _ :: rest => moveProviderRows rest

def moveAccountRow : SagaProgram Nat := do
  let found ← perform (.tableRow table (.account accounts.absorbed))
  match found with
  | none => return 0
  | some row =>
      moveRow accounts table (.account accounts.absorbed) (.account accounts.survivor) row

end Rows

def rekeyTable (accounts : AccountPair) (table : MergeTable) : SagaProgram Nat :=
  match table with
  | .walletIdentities => do
      let rows ← perform (.tableItems table)
      retenant accounts table (fun row => row.owner = accounts.absorbed) rows
  | .oidcIdentities => do
      let rows ← perform (.tableItems table)
      retenant accounts table
        (fun row => row.owner = accounts.absorbed && row.unlinkedAt.isNone) rows
  | .providerApiKeys => do
      let rows ← perform (.tableItems table)
      moveProviderRows accounts table rows
  | .userProfiles | .userPreferences => moveAccountRow accounts table

/-- The tables in the order in which their rows are moved. -/
def MergeTable.all : List MergeTable :=
  [.walletIdentities, .oidcIdentities, .providerApiKeys, .userProfiles, .userPreferences]

/-- A service that runs merges: the tables whose stores it has, and the runtime. -/
structure MergeService (ρ : Type) where
  wired : MergeTable → Bool
  runtime : RuntimePort ρ

section Service
variable {ρ : Type} (service : MergeService ρ)

/-- Move the rows of tables, with the number of rows that were moved in each. -/
def rekeyTables (accounts : AccountPair) : List MergeTable → SagaProgram (List (String × Json))
  | [] => pure []
  | table :: rest => do
      if service.wired table then
        let moved ← rekeyTable accounts table
        let counts ← rekeyTables accounts rest
        return (table.text, .int moved) :: counts
      else rekeyTables accounts rest

def rekey (accounts : AccountPair) : SagaProgram (List (String × Json)) :=
  rekeyTables service accounts MergeTable.all

/-! ### The steps of a merge -/

def rekeyStep (r : AccountMergeRecord) : SagaProgram AccountMergeRecord := do
  let counts ← rekey service r.accounts
  perform (.updateMerge { r with
    state := .backendDone
    counts := setEntries r.counts "backend" (.obj counts)
    error := none })

def runtimeStep (r : AccountMergeRecord) : SagaProgram AccountMergeRecord := do
  let runtimeResult ← perform (.runtimeMerge ⟨r.mergeId, r.accounts⟩)
  perform (.updateMerge { r with
    state := .runtimeDone
    counts := setEntries r.counts "runtime" runtimeResult
    error := none })

def revokeSessions (account : Account) : List SessionRecord → SagaProgram Nat
  | [] => pure 0
  | s :: rest => do
      let done : Bool ← perform (.revokeSession account.orgId s.sessionId "account_merged")
      let revoked ← revokeSessions account rest
      return if done then revoked + 1 else revoked

def sessionsStep (r : AccountMergeRecord) : SagaProgram AccountMergeRecord := do
  let sessions ← perform (.listActiveSessions r.accounts.absorbed)
  let revoked ← revokeSessions r.accounts.absorbed sessions
  perform (.updateMerge { r with
    state := .sessionsRevoked
    counts := setEntries r.counts "sessions_revoked" (.int revoked)
    error := none })

/-- The user of an absorbed account, disabled in favour of the survivor. -/
def disabled (user : UserRecord) (survivorUserId : String) (deletedAt mergedAt : Int) :
    UserRecord :=
  { user with
    status := .disabled
    deletedAt := some (user.deletedAt.getD deletedAt)
    absorbedIntoUserId := some survivorUserId
    mergedAt := some mergedAt }

def disableAbsorbedUser (accounts : AccountPair) : SagaProgram Bool := do
  let found ← perform (.getUser accounts.absorbed)
  match found with
  | none => return false
  | some user =>
      if user.absorbedIntoUserId = some accounts.survivor.userId then return true
      else
        let deletedAt ← perform .now
        let mergedAt ← perform .now
        let _ ← perform (.putUser (disabled user accounts.survivor.userId deletedAt mergedAt))
        return true

/-- What the call that runs a merge says of where it comes from. -/
structure RequestOrigin where
  ip : Option String
  userAgent : Option String

/-- The audit row of a merge on the trail of an organisation. -/
def mergeAudit (r : AccountMergeRecord) (origin : RequestOrigin) (orgId : String) :
    IdentityAuditEventRecord where
  orgId := orgId
  actorUserId := some r.accounts.survivor.userId
  subjectUserId := some r.accounts.absorbed.userId
  action := "account.merged"
  metadata := .obj [
    ("merge_id", .str r.mergeId),
    ("absorbed_org_id", .str r.accounts.absorbed.orgId),
    ("absorbed_user_id", .str r.accounts.absorbed.userId),
    ("survivor_org_id", .str r.accounts.survivor.orgId),
    ("survivor_user_id", .str r.accounts.survivor.userId),
    ("proof_ref", .str r.proofRef),
    ("counts", .obj r.counts)]
  requestIp := origin.ip
  userAgent := origin.userAgent
  createdAt := 0

def appendMergeAudit (r : AccountMergeRecord) (origin : RequestOrigin) : SagaProgram Unit := do
  let _ ← perform (.appendIdentityAudit (mergeAudit r origin r.accounts.survivor.orgId))
  let _ ← perform (.appendIdentityAudit (mergeAudit r origin r.accounts.absorbed.orgId))
  return ()

def completeStep (origin : RequestOrigin) (r : AccountMergeRecord) :
    SagaProgram AccountMergeRecord := do
  let _ ← disableAbsorbedUser r.accounts
  appendMergeAudit r origin
  let completedAt ← perform .now
  perform (.updateMerge { r with
    state := .completed
    completedAt := some completedAt
    error := none })

/-! ### Running a merge -/

/-- Record an exception on the merge it interrupts, and raise it as a failed merge. -/
def recordFailure (r : AccountMergeRecord) : MergeException → SagaProgram AccountMergeRecord
  | .other text => do
      let _ ← perform (.updateMerge { r with error := some text })
      raiseError (.mergeRuntimeFailed
        ("merge " ++ r.mergeId ++ " failed at " ++ r.state.text ++ ": " ++ text))
  | e => raiseError e

/-- Take a step from the state before it; a record in another state is left to later steps. -/
def stepFrom (state : AccountMergeState)
    (step : AccountMergeRecord → SagaProgram AccountMergeRecord) (r : AccountMergeRecord) :
    SagaProgram AccountMergeRecord :=
  if r.state = state then (step r).tryCatch (recordFailure r) else pure r

def run (origin : RequestOrigin) (r : AccountMergeRecord) : SagaProgram AccountMergeRecord := do
  let r ← stepFrom .pending (rekeyStep service) r
  let r ← stepFrom .backendDone runtimeStep r
  let r ← stepFrom .runtimeDone sessionsStep r
  stepFrom .sessionsRevoked (completeStep origin) r

/-! ### Beginning a merge -/

/-- A merge that is asked for, with the id that a new record is given. -/
structure MergeRequest where
  accounts : AccountPair
  proofRef : String
  origin : RequestOrigin
  newMergeId : String

/-- The record of a merge that begins. -/
def MergeRequest.record (request : MergeRequest) (startedAt : Int) : AccountMergeRecord where
  mergeId := request.newMergeId
  accounts := request.accounts
  state := .pending
  proofRef := request.proofRef
  error := none
  counts := []
  startedAt := startedAt
  updatedAt := startedAt
  completedAt := none

def checkPersonalOrg (account : Account) (side : String) : SagaProgram Unit := do
  let user ← perform (.getUser account)
  if user.isNone then
    raiseError (.mergeNotAllowed (side ++ " user does not exist"))
  else
    let listed ← perform (.listMembers account.orgId)
    let members := listed.filter fun m => m.removedAt.isNone
    if members.length ≠ 1 ∨ (members.head?.map (·.userId)) ≠ some account.userId then
      raiseError (.mergeNotAllowed (side ++ " org is not a single-member personal org"))
    else return ()

def beginMerge (request : MergeRequest) : SagaProgram AccountMergeRecord := do
  checkPersonalOrg request.accounts.absorbed "absorbed"
  checkPersonalOrg request.accounts.survivor "survivor"
  let startedAt ← perform .now
  let created ← perform (.createMerge (request.record startedAt))
  Program.ofExcept created

/-- Merge an account into the caller's. The first of the earlier merges decides if there is one. -/
def mergeForConflict (request : MergeRequest) : SagaProgram AccountMergeRecord :=
  if request.accounts.absorbed = request.accounts.survivor then
    raiseError (.mergeNotAllowed "cannot merge an account into itself")
  else do
    let prior ← perform (.findByAbsorbed request.accounts.absorbed)
    match prior with
    | [] => do
        let r ← beginMerge request
        run service request.origin r
    | r :: _ =>
        if r.state = .completed then
          if r.accounts.survivor.userId = request.accounts.survivor.userId then return r
          else
            raiseError (.mergeNotAllowed
              "absorbed account was already merged into a different account")
        else if r.accounts.survivor.userId = request.accounts.survivor.userId then
          run service request.origin r
        else
          raiseError (.mergeNotAllowed "another merge is in progress for this account")

def resume (mergeId : String) (origin : RequestOrigin) : SagaProgram AccountMergeRecord := do
  let found ← perform (.getMerge mergeId)
  match found with
  | none => raiseError (.mergeNotAllowed ("unknown merge " ++ mergeId))
  | some r => run service origin r

end Service

/-! ### Calls and what becomes of them -/

inductive MergeCall
  | mergeForConflict (request : MergeRequest)
  | resume (mergeId : String) (origin : RequestOrigin)

variable {ρ : Type}

def MergeCall.program (service : MergeService ρ) : MergeCall → SagaProgram AccountMergeRecord
  | .mergeForConflict request => AccountMerge.mergeForConflict service request
  | .resume mergeId origin => AccountMerge.resume service mergeId origin

/-- What a saga runs among: the runtime, the times its clock may show, and whether operations may
raise. -/
structure Surroundings (ρ : Type) where
  runtime : RuntimePort ρ
  clock : Int → Prop
  fails : Prop

/-- An operation happens at some time, or raises. The runtime may also raise when it has moved its
rows. -/
def Surroundings.effect (around : Surroundings ρ) (op : MergeOp) (w : MergeWorld ρ)
    (reply : op.Reply) (w' : MergeWorld ρ) : Prop :=
  ∃ now, around.clock now ∧
    ((reply = .ok (MergeWorld.answer around.runtime now op w).1 ∧
        w' = (MergeWorld.answer around.runtime now op w).2) ∨
      around.fails ∧ (∃ e, reply = .error e) ∧
        (w' = w ∨ (∃ request, op = .runtimeMerge request) ∧
          w' = (MergeWorld.answer around.runtime now op w).2))

/-- Answer every operation when the clock shows a time. -/
def answerAt (runtime : RuntimePort ρ) (now : Int) (op : MergeOp) (w : MergeWorld ρ) :
    op.Reply × MergeWorld ρ :=
  (.ok (MergeWorld.answer runtime now op w).1, (MergeWorld.answer runtime now op w).2)

theorem answerAt_sound {around : Surroundings ρ} {now : Int} (h : around.clock now) (op : MergeOp)
    (w : MergeWorld ρ) :
    around.effect op w (answerAt around.runtime now op w).1
      (answerAt around.runtime now op w).2 :=
  ⟨now, h, .inl ⟨rfl, rfl⟩⟩

end CopilotRuntime.AccountMerge
