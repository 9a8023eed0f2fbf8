import CopilotRuntime.AccountMerge.Stores
import CopilotRuntime.Foundation.Interleaving

/-!
# The lockout store

Lockouts of users, the policy of each organisation, and the login attempts in
which failures are counted. Each operation on them happens at one instant.

## Implementation notes

Times are numbers of microseconds. The clock never goes back and may advance
before any operation. The id of a lockout is drawn when its row is stored. How
texts are folded to lower case is a parameter.
-/

namespace CopilotRuntime.Lockout

open Foundation AccountMerge

def second : Int := 1000000

structure LockoutPolicyRecord where
  orgId : String
  enforceLockout : Bool := false
  maxFailures : Int := 5
  failureWindowSeconds : Int := 300
  lockoutDurationSeconds : Int := 900
  permanentAfterNLockouts : Int := 0

structure AccountLockoutRecord where
  lockoutId : String
  orgId : String
  userId : String
  lockedAt : Int
  lockReason : String
  autoUnlockAt : Option Int := none
  unlockedAt : Option Int := none
  unlockedByUserId : Option String := none
  unlockReason : Option String := none

def AccountLockoutRecord.ofUser (r : AccountLockoutRecord) (orgId userId : String) : Bool :=
  r.orgId = orgId && r.userId = userId

/-- The user whom an active lockout locks. -/
def AccountLockoutRecord.locks (r : AccountLockoutRecord) : Option (String × String) :=
  if r.unlockedAt.isNone then some (r.orgId, r.userId) else none

def AccountLockoutRecord.unlocked (r : AccountLockoutRecord) (clock : Int)
    (unlockedByUserId : Option String) (reason : String) : AccountLockoutRecord :=
  { r with
    unlockedAt := some clock
    unlockedByUserId := unlockedByUserId
    unlockReason := some reason }

/-- Lockouts, of which each user has at most one that is active. -/
abbrev Lockouts := IndexedTable AccountLockoutRecord.lockoutId AccountLockoutRecord.locks

theorem Lockouts.admits_unlocked (t : Lockouts) (r : AccountLockoutRecord) (clock : Int)
    (unlockedByUserId : Option String) (reason : String) :
    t.Admits (r.unlocked clock unlockedByUserId reason) :=
  IndexedTable.admits_of_index_none rfl

inductive LoginAttemptOutcome
  | success | badPassword | unknownUser | lockedOut | mfaFailed | providerRejected
  | magicLinkRequested | magicLinkConsumed | invalidToken | expiredToken | consumedToken
  | rateLimited | workspacePickerIssued | workspaceSelected
  deriving DecidableEq

structure LoginAttemptRecord where
  orgId : Option String
  emailAttempted : Option String
  userId : Option String
  outcome : LoginAttemptOutcome
  createdAt : Int

/-! ### Operations -/

structure LockoutWorld where
  clock : Int
  policies : Dict String LockoutPolicyRecord
  lockouts : Lockouts
  loginAttempts : List LoginAttemptRecord
  audits : List IdentityAuditEventRecord

/-- A lockout that has no id yet. -/
structure LockoutCandidate where
  orgId : String
  userId : String
  lockedAt : Int
  lockReason : String
  autoUnlockAt : Option Int

def LockoutCandidate.record (c : LockoutCandidate) (lockoutId : String) : AccountLockoutRecord where
  lockoutId := lockoutId
  orgId := c.orgId
  userId := c.userId
  lockedAt := c.lockedAt
  lockReason := c.lockReason
  autoUnlockAt := c.autoUnlockAt

inductive LockoutOp : Type
  | now
  | getPolicy (orgId : String)
  | getActiveLockout (orgId userId : String)
  | createLockout (candidate : LockoutCandidate)
  | unlock (orgId userId : String) (unlockedByUserId : Option String) (reason : String)
  | countLockoutsSince (orgId userId : String) (since : Int)
  | listLoginAttempts (orgId : String) (email userId : Option String) (limit : Nat)
  | appendLoginAttempt (record : LoginAttemptRecord)
  | appendIdentityAudit (event : IdentityAuditEventRecord)
  | verifyCredential (orgId : String) (userId : Option String) (correct : Bool)

@[reducible] def LockoutOp.Reply : LockoutOp → Type
  | now => Int
  | getPolicy _ => Option LockoutPolicyRecord
  | getActiveLockout _ _ | createLockout _ | unlock _ _ _ _ => Option AccountLockoutRecord
  | countLockoutsSince _ _ _ => Nat
  | listLoginAttempts _ _ _ _ => List LoginAttemptRecord
  | appendLoginAttempt _ | appendIdentityAudit _ => Unit
  | verifyCredential _ _ _ => Bool

namespace LockoutWorld
variable (lower : String → String) (w : LockoutWorld)

def getActiveLockout (orgId userId : String) : Option AccountLockoutRecord :=
  w.lockouts.lookup (orgId, userId)

/-- Store a lockout, unless the user has an active one. -/
def createLockout (c : LockoutCandidate) (lockoutId : String) :
    Option AccountLockoutRecord × LockoutWorld :=
  match w.lockouts.insert? (c.record lockoutId) with
  | some lockouts => (some (c.record lockoutId), { w with lockouts := lockouts })
  | none => (none, w)

/-- End the active lockout of a user, whichever it is. -/
def unlock (orgId userId : String) (unlockedByUserId : Option String) (reason : String) :
    Option AccountLockoutRecord × LockoutWorld :=
  match w.getActiveLockout orgId userId with
  | none => (none, w)
  | some active =>
      let admits := Lockouts.admits_unlocked w.lockouts active w.clock unlockedByUserId reason
      (some (active.unlocked w.clock unlockedByUserId reason),
        { w with lockouts := w.lockouts.put _ admits })

def countLockoutsSince (orgId userId : String) (since : Int) : Nat :=
  w.lockouts.rows.countP fun r => r.ofUser orgId userId && since ≤ r.lockedAt

/-- The attempts that match every given field, the newest ones first. -/
def listLoginAttempts (orgId : String) (email userId : Option String) (limit : Nat) :
    List LoginAttemptRecord :=
  let email := (email.filter (· ≠ "")).map fun email => lower (Text.strip email)
  let rows := w.loginAttempts.filter fun r =>
    r.orgId = some orgId && (email.isNone || r.emailAttempted = email) &&
      (userId.isNone || r.userId = userId)
  (rows.insertionSort fun a b => b.createdAt ≤ a.createdAt).take limit

/-- What an operation gives and does, with the id that a new lockout gets. -/
def answer (lockoutId : String) : (op : LockoutOp) → LockoutWorld → op.Reply × LockoutWorld
  | .now, w => (w.clock, w)
  | .getPolicy orgId, w => (w.policies.get? orgId, w)
  | .getActiveLockout orgId userId, w => (w.getActiveLockout orgId userId, w)
  | .createLockout candidate, w => w.createLockout candidate lockoutId
  | .unlock orgId userId unlockedBy reason, w => w.unlock orgId userId unlockedBy reason
  | .countLockoutsSince orgId userId since, w => (w.countLockoutsSince orgId userId since, w)
  | .listLoginAttempts orgId email userId limit, w =>
      (w.listLoginAttempts lower orgId email userId limit, w)
  | .appendLoginAttempt record, w => ((), { w with loginAttempts := w.loginAttempts ++ [record] })
  | .appendIdentityAudit event, w =>
      ((), { w with audits := w.audits ++ [{ event with createdAt := w.clock }] })
  | .verifyCredential _ _ correct, w => (correct, w)

/-- Which reply an operation may get, and what it leaves behind. -/
def env (op : LockoutOp) (w : LockoutWorld) (reply : op.Reply) (w' : LockoutWorld) : Prop :=
  ∃ clock lockoutId, w.clock ≤ clock ∧ w.lockouts.find? lockoutId = none ∧
    (reply, w') = answer lower lockoutId op { w with clock := clock }

/-- An answer given at once. -/
def atOnce (op : LockoutOp) (w : LockoutWorld) : op.Reply × LockoutWorld :=
  answer lower w.lockouts.table.newKey op w

theorem atOnce_sound (op : LockoutOp) (w : LockoutWorld) :
    env lower op w (atOnce lower op w).1 (atOnce lower op w).2 :=
  ⟨w.clock, w.lockouts.table.newKey, Int.le_refl _, w.lockouts.table.find?_newKey, rfl⟩

end LockoutWorld

end CopilotRuntime.Lockout

/-!
# The lockout service

A login attempt asks whether the user is locked, verifies the credential, and
records the failure or the success. Failures within a window lock the user.

## Implementation notes

A call of the attempt says whether its credential is right, so that both results
of the verification are covered. The user of an attempt may be unknown. Instants in
audit events are written as numbers.
-/

namespace CopilotRuntime.Lockout

open Foundation AccountMerge

/-- Raised when the user is locked; no seconds mean that an administrator must unlock. -/
structure AccountLocked where
  orgId : String
  userId : String
  retryAfterSeconds : Int
  reason : String
  deriving DecidableEq

abbrev LockoutProgram := Program LockoutOp LockoutOp.Reply AccountLocked

def perform (op : LockoutOp) : LockoutProgram op.Reply := Program.request op

def auditEvent (orgId : String) (actorUserId : Option String) (subjectUserId action : String)
    (metadata : List (String × Json)) : IdentityAuditEventRecord where
  orgId := orgId
  actorUserId := actorUserId
  subjectUserId := some subjectUserId
  action := action
  metadata := .obj metadata
  requestIp := none
  userAgent := none
  createdAt := 0

/-! ### Policy and check -/

def policyFor (orgId : String) : LockoutProgram LockoutPolicyRecord := do
  let existing ← perform (.getPolicy orgId)
  return existing.getD { orgId := orgId }

/-- The seconds to wait; a fraction of a second counts as none. -/
def retryAfter (autoUnlockAt now : Int) : Int := max 0 ((autoUnlockAt - now).tdiv second)

theorem lt_of_retryAfter_le {autoUnlockAt now : Int} (h : retryAfter autoUnlockAt now ≤ 0) :
    autoUnlockAt < now + second := by
  by_contra hlate
  rw [second, Int.not_lt] at hlate
  have hdiv : (autoUnlockAt - now).tdiv second = (autoUnlockAt - now) / 1000000 :=
    Int.tdiv_eq_ediv_of_nonneg (by omega)
  rw [retryAfter, hdiv] at h
  omega

/-- Unlock the user whose lockout has come to its time. -/
def clearLapsed (orgId userId : String) (active : AccountLockoutRecord) : LockoutProgram Unit := do
  let _ ← perform (.unlock orgId userId none "auto_unlock_window_elapsed")
  perform (.appendIdentityAudit (auditEvent orgId none userId "lockout.auto_unlocked"
    [("lockout_id", .str active.lockoutId)]))

/-- Raise for an active lockout, or clear it when its time is up. -/
def checkActive (orgId userId : String) (active : AccountLockoutRecord) : LockoutProgram Unit :=
  match active.autoUnlockAt with
  | none => .raised ⟨orgId, userId, 0, active.lockReason⟩
  | some autoUnlockAt => do
      let now ← perform .now
      if retryAfter autoUnlockAt now ≤ 0 then
        clearLapsed orgId userId active
      else
        .raised ⟨orgId, userId, retryAfter autoUnlockAt now, active.lockReason⟩

def checkOrRaise (orgId : String) : Option String → LockoutProgram Unit
  | none => return
  | some userId => do
      let policy ← policyFor orgId
      if policy.enforceLockout then do
        let active ← perform (.getActiveLockout orgId userId)
        match active with
        | none => return
        | some active => checkActive orgId userId active
      else
        return

/-! ### Failure and success -/

def isFailure (outcome : LoginAttemptOutcome) : Bool :=
  outcome = .badPassword || outcome = .mfaFailed || outcome = .providerRejected

def failureCountForWindow (orgId userId : String) (email : Option String) (windowSeconds : Int) :
    LockoutProgram Nat := do
  let now ← perform .now
  let cutoff := now - max 1 windowSeconds * second
  let attempts ← perform (.listLoginAttempts orgId none (some userId) 1024)
  let count := attempts.countP fun a => isFailure a.outcome && cutoff ≤ a.createdAt
  match email.filter (· ≠ "") with
  | none => return count
  | some email => do
      let emailAttempts ← perform (.listLoginAttempts orgId (some email) none 1024)
      return count + emailAttempts.countP fun a =>
        a.userId.isNone && isFailure a.outcome && cutoff ≤ a.createdAt

def timedUnlock (policy : LockoutPolicyRecord) : LockoutProgram (Option Int) := do
  if 0 < policy.lockoutDurationSeconds then do
    let now ← perform .now
    return some (now + policy.lockoutDurationSeconds * second)
  else
    return none

/-- The lockout is permanent when it has no time of its own or follows too many others. -/
def autoUnlockFor (orgId userId : String) (policy : LockoutPolicyRecord) :
    LockoutProgram (Option Int) := do
  let autoUnlock ← timedUnlock policy
  if 0 < policy.permanentAfterNLockouts then do
    let now ← perform .now
    let prior ← perform (.countLockoutsSince orgId userId (now - 30 * 86400 * second))
    return if policy.permanentAfterNLockouts ≤ (prior : Int) + 1 then none else autoUnlock
  else
    return autoUnlock

def lock (orgId userId : String) (policy : LockoutPolicyRecord) :
    LockoutProgram (Option AccountLockoutRecord) := do
  let autoUnlock ← autoUnlockFor orgId userId policy
  let lockedAt ← perform .now
  let created ← perform (.createLockout {
    orgId := orgId
    userId := userId
    lockedAt := lockedAt
    lockReason :=
      if autoUnlock.isNone then "permanent_after_repeat_lockouts" else "max_failures_exceeded"
    autoUnlockAt := autoUnlock })
  match created with
  | none => return none
  | some record => do
      perform (.appendIdentityAudit (auditEvent orgId none userId "lockout.locked"
        [("lockout_id", .str record.lockoutId),
          ("auto_unlock_at", (record.autoUnlockAt.map Json.int).getD .null),
          ("lock_reason", .str record.lockReason)]))
      return some record

/-- Count a failure, and lock a known user when the threshold is reached. -/
def recordFailure (orgId : String) (userId email : Option String) :
    LockoutProgram (Option AccountLockoutRecord) :=
  match userId with
  | none => return none
  | some userId => do
      let policy ← policyFor orgId
      let recent ← failureCountForWindow orgId userId email policy.failureWindowSeconds
      if (recent : Int) < policy.maxFailures then
        return none
      else
        lock orgId userId policy

/-- Clear the active lockout of the user, whichever it is. -/
def recordSuccess (orgId userId : String) : LockoutProgram Unit := do
  let active ← perform (.getActiveLockout orgId userId)
  match active with
  | none => return
  | some active => do
      let unlocked ← perform (.unlock orgId userId none "successful_login")
      match unlocked with
      | none => return
      | some _ =>
          perform (.appendIdentityAudit (auditEvent orgId (some userId) userId
            "lockout.cleared_on_success" [("lockout_id", .str active.lockoutId)]))

/-! ### Calls -/

def forceUnlock (orgId userId unlockedByUserId : String) (reason : Option String) :
    LockoutProgram (Option AccountLockoutRecord) := do
  let reason := (reason.filter (· ≠ "")).getD "admin_unlock"
  let unlocked ← perform (.unlock orgId userId (some unlockedByUserId) reason)
  perform (.appendIdentityAudit (auditEvent orgId (some unlockedByUserId) userId
    "lockout.admin_unlocked"
    [("lockout_id", (unlocked.map fun r => Json.str r.lockoutId).getD .null),
      ("reason", .str reason)]))
  return unlocked

/-- A login, with what verifying its credential shows. -/
structure LoginAttempt where
  orgId : String
  userId : Option String
  email : Option String
  credentialOk : Bool

/-- The steps of a login around the credential; a failed one gives the lockout it led to. -/
def login (attempt : LoginAttempt) : LockoutProgram (Option AccountLockoutRecord) := do
  checkOrRaise attempt.orgId attempt.userId
  let verified ← perform (.verifyCredential attempt.orgId attempt.userId attempt.credentialOk)
  let createdAt ← perform .now
  perform (.appendLoginAttempt {
    orgId := some attempt.orgId
    emailAttempted := attempt.email
    userId := attempt.userId
    outcome := if verified then .success else .badPassword
    createdAt := createdAt })
  if verified then
    match attempt.userId with
    | none => return none
    | some userId => do
        recordSuccess attempt.orgId userId
        return none
  else
    recordFailure attempt.orgId attempt.userId attempt.email

inductive LockoutCall
  | login (attempt : LoginAttempt)
  | forceUnlock (orgId userId unlockedByUserId : String) (reason : Option String)

def LockoutCall.body : LockoutCall → LockoutProgram (Option AccountLockoutRecord)
  | .login attempt => Lockout.login attempt
  | .forceUnlock orgId userId unlockedBy reason =>
      Lockout.forceUnlock orgId userId unlockedBy reason

abbrev LockoutEvent := Event LockoutOp LockoutOp.Reply LockoutCall

abbrev LockoutPool :=
  Pool LockoutOp LockoutOp.Reply AccountLocked (Option AccountLockoutRecord) LockoutWorld

end CopilotRuntime.Lockout
