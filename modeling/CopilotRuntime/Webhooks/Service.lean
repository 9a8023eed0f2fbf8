import CopilotRuntime.Foundation.Interleaving
import CopilotRuntime.Foundation.Table
import Mathlib.Data.List.Sort

/-!
# The webhook store

Outbound webhooks, whose secrets are kept in a vault, and the audit trail of their
changes. A deleted webhook keeps its row.

## Implementation notes

Entering and leaving a transaction are operations of their own: while some
transaction is open, a webhook is claimed for rotation at most once. Nothing is
undone when a transaction is left. Times are numbers of microseconds on a clock that
never goes back.
-/

namespace CopilotRuntime.Webhooks

open Foundation

structure WebhookRecord where
  id : String
  tenantId : String
  ownerUserId : String
  url : String
  secretStrategy : String := "rotating"
  hmacAlgo : String := "hmac-sha256"
  ipAllowlist : List String := []
  status : String := "active"
  lastFireAt : Option Int := none
  lastStatusCode : Option Int := none
  routineId : Option String := none
  vaultRef : String
  previousVaultRef : Option String := none
  previousExpiresAt : Option Int := none
  rotatesAt : Option Int := none
  createdAt : Int
  updatedAt : Int
  deletedAt : Option Int := none
  deriving DecidableEq

structure WebhookAuditRecord where
  tenantId : String
  actorUserId : String
  action : String
  targetId : String
  beforeState : Option WebhookRecord := none
  afterState : Option WebhookRecord := none

structure WebhookWorld where
  clock : Int
  webhooks : Table WebhookRecord.id
  audits : List WebhookAuditRecord
  claimed : List String
  inTransaction : Nat

/-! ### Operations -/

inductive WebhookOp : Type
  | now
  | tokenUrlsafe
  | encrypt (plaintext : String)
  | decrypt (ciphertext : String)
  | enterTransaction
  | exitTransaction
  | getWebhook (tenantId webhookId : String)
  | updateWebhook (record : WebhookRecord)
  | softDeleteWebhook (tenantId webhookId : String)
  | claimDueForRotation (now : Int) (limit : Int)
  | appendAudit (record : WebhookAuditRecord)

@[reducible] def WebhookOp.Reply : WebhookOp → Type
  | now => Int
  | tokenUrlsafe => String
  | encrypt _ | decrypt _ => Except String String
  | enterTransaction | exitTransaction | appendAudit _ => Unit
  | getWebhook _ _ => Option WebhookRecord
  | updateWebhook _ => WebhookRecord
  | softDeleteWebhook _ _ => Bool
  | claimDueForRotation _ _ => Except String (List WebhookRecord)

/-- What the random source and the vault answer. -/
structure Draw where
  token : String
  encrypted : Except String String
  decrypted : Except String String

namespace WebhookWorld
variable (w : WebhookWorld)

def exitTransaction : WebhookWorld :=
  { w with
    inTransaction := w.inTransaction - 1
    claimed := if w.inTransaction - 1 = 0 then [] else w.claimed }

def getWebhook (tenantId webhookId : String) : Option WebhookRecord :=
  (w.webhooks.find? webhookId).filter fun r => r.tenantId = tenantId && r.deletedAt.isNone

def updateWebhook (record : WebhookRecord) : WebhookRecord × WebhookWorld :=
  (record, { w with webhooks := w.webhooks.put record })

/-- Mark the row as deleted; deleting it again changes nothing. -/
def softDeleteWebhook (tenantId webhookId : String) : Bool × WebhookWorld :=
  match (w.webhooks.find? webhookId).filter fun r => r.tenantId = tenantId with
  | none => (false, w)
  | some record =>
      if record.deletedAt.isSome then (true, w)
      else (true, { w with webhooks := w.webhooks.put { record with deletedAt := some w.clock } })

def isDue (now : Int) (r : WebhookRecord) : Bool :=
  !w.claimed.contains r.id && r.deletedAt.isNone && r.status = "active" &&
    r.secretStrategy = "rotating" && r.rotatesAt.any fun rotatesAt => rotatesAt ≤ now

/-- Claim the due webhooks that come first, one of them at least. -/
def claimDueForRotation (now limit : Int) : Except String (List WebhookRecord) × WebhookWorld :=
  if w.inTransaction = 0 then
    (.error "claim_due_for_rotation must be called inside store.transaction()", w)
  else
    let due := (w.webhooks.rows.insertionSort fun a b => a.id ≤ b.id).filter (w.isDue now)
    let claimed := due.take (max 1 limit).toNat
    (.ok claimed, { w with claimed := w.claimed ++ claimed.map WebhookRecord.id })

/-- What an operation gives and does. -/
def answer (draw : Draw) : (op : WebhookOp) → WebhookWorld → op.Reply × WebhookWorld
  | .now, w => (w.clock, w)
  | .tokenUrlsafe, w => (draw.token, w)
  | .encrypt _, w => (draw.encrypted, w)
  | .decrypt _, w => (draw.decrypted, w)
  | .enterTransaction, w => ((), { w with inTransaction := w.inTransaction + 1 })
  | .exitTransaction, w => ((), w.exitTransaction)
  | .getWebhook tenantId webhookId, w => (w.getWebhook tenantId webhookId, w)
  | .updateWebhook record, w => w.updateWebhook record
  | .softDeleteWebhook tenantId webhookId, w => w.softDeleteWebhook tenantId webhookId
  | .claimDueForRotation now limit, w => w.claimDueForRotation now limit
  | .appendAudit record, w => ((), { w with audits := w.audits ++ [record] })

/-- Which reply an operation may get, and what it leaves behind. -/
def env (op : WebhookOp) (w : WebhookWorld) (reply : op.Reply) (w' : WebhookWorld) : Prop :=
  ∃ clock draw, w.clock ≤ clock ∧ (reply, w') = answer draw op { w with clock := clock }

/-- A vault whose references show their secrets, beside a source that draws one token. -/
def plainDraw : WebhookOp → Draw
  | .encrypt plaintext => ⟨"new-secret", .ok ("vault:" ++ plaintext), .error ""⟩
  | .decrypt ciphertext => ⟨"new-secret", .error "", .ok (ciphertext.drop 6).toString⟩
  | _ => ⟨"new-secret", .error "", .error ""⟩

/-- An answer given at once. -/
def atOnce (op : WebhookOp) (w : WebhookWorld) : op.Reply × WebhookWorld :=
  answer (plainDraw op) op w

theorem atOnce_sound (op : WebhookOp) (w : WebhookWorld) :
    env op w (atOnce op w).1 (atOnce op w).2 :=
  ⟨w.clock, plainDraw op, Int.le_refl _, rfl⟩

end WebhookWorld

end CopilotRuntime.Webhooks

/-!
# The webhook service

Webhooks are updated, deleted, and given new secrets, by hand or when they are due.

## Implementation notes

Each of these calls reads a row and later writes it back whole. A failure of the
vault is handed up as a result, so that an open transaction is left in any case.
Which texts are IP networks is a parameter.
-/

namespace CopilotRuntime.Webhooks

open Foundation

def second : Int := 1000000

def rotationInterval : Int := 90 * 86400 * second
def rotationGrace : Int := 14 * 86400 * second

inductive WebhookError
  | notFound (webhookId : String)
  | forbidden (webhookId : String)
  | invalidRequest (reason : String)
  | vault (message : String)
  | runtime (message : String)
  deriving DecidableEq

structure WebhookRotated where
  record : WebhookRecord
  secretPlaintext : String
  graceSecretPlaintext : Option String
  deriving DecidableEq

abbrev WebhookProgram := Program WebhookOp WebhookOp.Reply WebhookError

def perform (op : WebhookOp) : WebhookProgram op.Reply := Program.request op

/-! ### Access -/

structure Caller where
  tenantId : String
  userId : String
  roles : List String
  deriving DecidableEq

def Caller.isAdmin (caller : Caller) : Bool :=
  caller.roles.any fun role => role = "admin" || role = "tenant_admin"

def canRead (record : WebhookRecord) (caller : Caller) : Bool :=
  record.ownerUserId = caller.userId || caller.isAdmin

/-- The row, unless it must stay hidden from the caller or untouched by it. -/
def writable (caller : Caller) (webhookId : String) :
    Option WebhookRecord → Except WebhookError WebhookRecord
  | none => .error (.notFound webhookId)
  | some record =>
      if !canRead record caller then .error (.notFound webhookId)
      else if record.ownerUserId ≠ caller.userId ∧ !caller.isAdmin then
        .error (.forbidden webhookId)
      else .ok record

theorem eq_some_of_writable {caller : Caller} {webhookId : String} {found : Option WebhookRecord}
    {record : WebhookRecord} (h : writable caller webhookId found = .ok record) :
    found = some record := by
  cases found with
  | none => cases h
  | some r =>
      rw [writable] at h
      split at h
      · cases h
      · split at h
        · cases h
        · exact congrArg some (Except.ok.inj h)

def authorizeWrite (caller : Caller) (webhookId : String) : WebhookProgram WebhookRecord := do
  let found ← perform (.getWebhook caller.tenantId webhookId)
  .ofExcept (writable caller webhookId found)

/-- A row without what refers to its secrets. -/
def safeDump (record : WebhookRecord) : WebhookRecord :=
  { record with
    vaultRef := "<redacted>"
    previousVaultRef := record.previousVaultRef.map fun _ => "<redacted>" }

/-- Write a row back and record the change. -/
def writeBack (actorUserId action : String) (existing record : WebhookRecord) :
    WebhookProgram WebhookRecord := do
  perform .enterTransaction
  let stored ← perform (.updateWebhook record)
  perform (.appendAudit {
    tenantId := existing.tenantId
    actorUserId := actorUserId
    action := action
    targetId := stored.id
    beforeState := some (safeDump existing)
    afterState := some (safeDump record) })
  perform .exitTransaction
  return stored

/-! ### Update -/

structure WebhookChanges where
  url : Option String := none
  ipAllowlist : Option (List String) := none
  status : Option String := none
  deriving DecidableEq

def WebhookChanges.isEmpty (changes : WebhookChanges) : Bool :=
  changes.url.isNone && changes.ipAllowlist.isNone && changes.status.isNone

def WebhookChanges.apply (changes : WebhookChanges) (updatedAt : Int) (r : WebhookRecord) :
    WebhookRecord :=
  { r with
    url := changes.url.getD r.url
    ipAllowlist := changes.ipAllowlist.getD r.ipAllowlist
    status := changes.status.getD r.status
    updatedAt := updatedAt }

def validateUrl (url : String) : Option WebhookError :=
  if !url.startsWith "https://" then some (.invalidRequest "url_must_be_https")
  else if 2048 < url.length then some (.invalidRequest "url_too_long")
  else none

def validateCidrs (isNetwork : String → Bool) (allowlist : List String) : Option WebhookError :=
  (allowlist.find? fun entry => !isNetwork entry).map fun entry =>
    .invalidRequest ("invalid_cidr:" ++ entry)

def validateStatus (status : String) : Option WebhookError :=
  if status = "active" ∨ status = "paused" then none
  else some (.invalidRequest ("invalid_status:" ++ status))

/-- The first field that is refused. -/
def WebhookChanges.refused (isNetwork : String → Bool) (changes : WebhookChanges) :
    Option WebhookError :=
  (changes.url.bind validateUrl).orElse fun _ =>
    (changes.ipAllowlist.bind (validateCidrs isNetwork)).orElse fun _ =>
      changes.status.bind validateStatus

/-- Write the changes, when there are any, into the row as it was read. -/
def writeChanges (caller : Caller) (existing : WebhookRecord) (changes : WebhookChanges) :
    WebhookProgram WebhookRecord :=
  if changes.isEmpty then
    return existing
  else do
    let updatedAt ← perform .now
    writeBack caller.userId "webhook.updated" existing (changes.apply updatedAt existing)

def updateWebhook (isNetwork : String → Bool) (caller : Caller) (webhookId : String)
    (changes : WebhookChanges) : WebhookProgram WebhookRecord := do
  let existing ← authorizeWrite caller webhookId
  match changes.refused isNetwork with
  | some error => .raised error
  | none => writeChanges caller existing changes

/-! ### Rotation -/

/-- The row with a new secret, beside the old one for the time of grace. -/
def rotated (r : WebhookRecord) (vaultRef : String) (now : Int) : WebhookRecord :=
  { r with
    vaultRef := vaultRef
    previousVaultRef := some r.vaultRef
    previousExpiresAt := some (now + rotationGrace)
    rotatesAt := some (now + rotationInterval)
    updatedAt := now }

/-- The old secret, when there is one that can be decrypted. -/
def graceSecret (existing : WebhookRecord) : WebhookProgram (Option String) :=
  if existing.vaultRef = "" then
    return none
  else do
    let decrypted ← perform (.decrypt existing.vaultRef)
    return decrypted.toOption

def rotateLocked (actorUserId : String) (existing : WebhookRecord) (now : Int) :
    WebhookProgram (Except WebhookError WebhookRotated) := do
  let plaintext ← perform .tokenUrlsafe
  let encrypted ← perform (.encrypt plaintext)
  match encrypted with
  | .error message => return .error (.vault message)
  | .ok vaultRef => do
      let grace ← graceSecret existing
      let stored ← writeBack actorUserId "webhook.rotated" existing (rotated existing vaultRef now)
      return .ok ⟨stored, plaintext, grace⟩

def rotateWebhook (caller : Caller) (webhookId : String) : WebhookProgram WebhookRotated := do
  let existing ← authorizeWrite caller webhookId
  if existing.secretStrategy = "static" then
    .raised (.invalidRequest "rotate_unsupported_for_static_strategy")
  else do
    let now ← perform .now
    let result ← rotateLocked caller.userId existing now
    .ofExcept result

/-- Rotate one row after the other, until the vault fails. -/
def rotateEach (now : Int) :
    List WebhookRecord → WebhookProgram (Except WebhookError (List WebhookRotated))
  | [] => return .ok []
  | existing :: rest => do
      let result ← rotateLocked "system:rotation_worker" existing now
      match result with
      | .error error => return .error error
      | .ok first => do
          let others ← rotateEach now rest
          return others.map (first :: ·)

def rotateDue (now limit : Int) : WebhookProgram (List WebhookRotated) := do
  perform .enterTransaction
  let claimed ← perform (.claimDueForRotation now limit)
  match claimed with
  | .error message => do
      perform .exitTransaction
      .raised (.runtime message)
  | .ok due => do
      let rotations ← rotateEach now due
      perform .exitTransaction
      .ofExcept rotations

/-! ### Delete -/

def deleteWebhook (caller : Caller) (webhookId : String) : WebhookProgram Unit := do
  let existing ← authorizeWrite caller webhookId
  perform .enterTransaction
  let _ ← perform (.softDeleteWebhook caller.tenantId existing.id)
  perform (.appendAudit {
    tenantId := caller.tenantId
    actorUserId := caller.userId
    action := "webhook.deleted"
    targetId := existing.id
    beforeState := some (safeDump existing) })
  perform .exitTransaction

/-! ### Calls -/

inductive WebhookCall
  | update (caller : Caller) (webhookId : String) (changes : WebhookChanges)
  | rotate (caller : Caller) (webhookId : String)
  | rotateDue (now limit : Int)
  | delete (caller : Caller) (webhookId : String)
  deriving DecidableEq

inductive WebhookResult
  | updated (record : WebhookRecord)
  | rotated (results : List WebhookRotated)
  | deleted
  deriving DecidableEq

def WebhookCall.body (isNetwork : String → Bool) : WebhookCall → WebhookProgram WebhookResult
  | .update caller webhookId changes => do
      let record ← updateWebhook isNetwork caller webhookId changes
      return .updated record
  | .rotate caller webhookId => do
      let result ← rotateWebhook caller webhookId
      return .rotated [result]
  | .rotateDue now limit => do
      let results ← Webhooks.rotateDue now limit
      return .rotated results
  | .delete caller webhookId => do
      deleteWebhook caller webhookId
      return .deleted

end CopilotRuntime.Webhooks
