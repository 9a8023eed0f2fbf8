import CopilotRuntime.Foundation.Interleaving
import CopilotRuntime.Identity.Requests

/-!
# The invitation store

Invitations to an organisation. An invitation is settled when it is accepted or
revoked, and its row never goes away.

## Implementation notes

The token of an invitation is kept as its hash. The id of a new invitation is drawn
when its row is stored. Times are numbers of microseconds on a clock that never
goes back.
-/

namespace CopilotRuntime.Invitations

open Foundation Identity
open AccountMerge (IdentityAuditEventRecord)

structure InvitationRecord where
  inviteId : String
  orgId : String
  email : String
  roleId : String
  tokenHash : String
  tokenPrefix : String
  createdByUserId : String
  createdAt : Int
  expiresAt : Int
  acceptedAt : Option Int := none
  acceptedUserId : Option String := none
  revokedAt : Option Int := none
  revokedByUserId : Option String := none

/-- An invitation that has no id yet. -/
structure InvitationCandidate where
  orgId : String
  email : String
  roleId : String
  tokenHash : String
  tokenPrefix : String
  createdByUserId : String
  expiresAt : Int

def InvitationCandidate.record (c : InvitationCandidate) (inviteId : String) (createdAt : Int) :
    InvitationRecord where
  inviteId := inviteId
  orgId := c.orgId
  email := c.email
  roleId := c.roleId
  tokenHash := c.tokenHash
  tokenPrefix := c.tokenPrefix
  createdByUserId := c.createdByUserId
  createdAt := createdAt
  expiresAt := c.expiresAt

/-- An invitation that was neither accepted nor revoked. -/
def InvitationRecord.isOpen (r : InvitationRecord) : Bool :=
  r.acceptedAt.isNone && r.revokedAt.isNone

abbrev InvitationTable := Table InvitationRecord.inviteId

namespace InvitationTable
variable (t : InvitationTable)

def get (orgId inviteId : String) : Option InvitationRecord :=
  (t.find? inviteId).filter fun r => r.orgId = orgId

def getByTokenHash (tokenHash : String) : Option InvitationRecord :=
  t.rows.find? fun r => r.tokenHash = tokenHash

def getActiveForEmail (orgId email : String) : Option InvitationRecord :=
  t.rows.find? fun r => r.orgId = orgId && r.email = email && r.isOpen

def create (record : InvitationRecord) : Except String InvitationRecord × InvitationTable :=
  if (getActiveForEmail t record.orgId record.email).isSome then
    (.error "an active invitation for this email already exists", t)
  else if (getByTokenHash t record.tokenHash).isSome then
    (.error "invitation token_hash collision", t)
  else
    (.ok record, t.put record)

/-- Change the open invitation with the id, and say whether there was one. -/
def settle (inviteId : String) (change : InvitationRecord → InvitationRecord) :
    Bool × InvitationTable :=
  match (t.find? inviteId).filter InvitationRecord.isOpen with
  | none => (false, t)
  | some record => (true, t.put (change record))

def revoke (inviteId revokedByUserId : String) (clock : Int) : Bool × InvitationTable :=
  settle t inviteId fun r =>
    { r with revokedAt := some clock, revokedByUserId := some revokedByUserId }

def markAccepted (inviteId acceptedUserId : String) (clock : Int) : Bool × InvitationTable :=
  settle t inviteId fun r =>
    { r with acceptedAt := some clock, acceptedUserId := some acceptedUserId }

end InvitationTable

/-! ### Operations -/

structure InvitationWorld where
  clock : Int
  directory : Directory
  invitations : InvitationTable
  audits : List IdentityAuditEventRecord

inductive InvitationOp : Type
  | now
  | tokenUrlsafe
  | identity (op : IdentityOp)
  | create (candidate : InvitationCandidate)
  | get (orgId inviteId : String)
  | getByTokenHash (tokenHash : String)
  | getActiveForEmail (orgId email : String)
  | revoke (inviteId revokedByUserId : String)
  | markAccepted (inviteId acceptedUserId : String)
  | appendIdentityAudit (event : IdentityAuditEventRecord)

@[reducible] def InvitationOp.Reply : InvitationOp → Type
  | now => Int
  | tokenUrlsafe => String
  | identity op => op.Reply
  | create _ => Except String InvitationRecord
  | get _ _ | getByTokenHash _ | getActiveForEmail _ _ => Option InvitationRecord
  | revoke _ _ | markAccepted _ _ => Bool
  | appendIdentityAudit _ => Unit

namespace InvitationWorld

/-- What an operation gives and does, with the id of a new row or the token that is drawn. -/
def answer (drawn : String) : (op : InvitationOp) → InvitationWorld → op.Reply × InvitationWorld
  | .now, w => (w.clock, w)
  | .tokenUrlsafe, w => (drawn, w)
  | .identity op, w =>
      let answered := Directory.answer drawn w.clock op w.directory
      (answered.1, { w with directory := answered.2 })
  | .create candidate, w =>
      let answered := InvitationTable.create w.invitations (candidate.record drawn w.clock)
      (answered.1, { w with invitations := answered.2 })
  | .get orgId inviteId, w => (InvitationTable.get w.invitations orgId inviteId, w)
  | .getByTokenHash tokenHash, w => (InvitationTable.getByTokenHash w.invitations tokenHash, w)
  | .getActiveForEmail orgId email, w =>
      (InvitationTable.getActiveForEmail w.invitations orgId email, w)
  | .revoke inviteId revokedByUserId, w =>
      let answered := InvitationTable.revoke w.invitations inviteId revokedByUserId w.clock
      (answered.1, { w with invitations := answered.2 })
  | .markAccepted inviteId acceptedUserId, w =>
      let answered := InvitationTable.markAccepted w.invitations inviteId acceptedUserId w.clock
      (answered.1, { w with invitations := answered.2 })
  | .appendIdentityAudit event, w =>
      ((), { w with audits := w.audits ++ [{ event with createdAt := w.clock }] })

/-- No row of the table that the operation adds to has the id. -/
def Unused (w : InvitationWorld) (drawn : String) : InvitationOp → Prop
  | .identity op => w.directory.Unused drawn op
  | .create _ => w.invitations.find? drawn = none
  | _ => True

/-- Which reply an operation may get, and what it leaves behind. -/
def env (op : InvitationOp) (w : InvitationWorld) (reply : op.Reply) (w' : InvitationWorld) :
    Prop :=
  ∃ clock drawn, w.clock ≤ clock ∧ w.Unused drawn op ∧
    (reply, w') = answer drawn op { w with clock := clock }

/-- A text that an operation may draw. -/
def newDraw (w : InvitationWorld) : InvitationOp → String
  | .identity op => w.directory.newId op
  | .tokenUrlsafe | .create _ => w.invitations.newKey
  | _ => ""

/-- An answer given at once. -/
def atOnce (op : InvitationOp) (w : InvitationWorld) : op.Reply × InvitationWorld :=
  answer (w.newDraw op) op w

theorem unused_newDraw (w : InvitationWorld) (op : InvitationOp) :
    w.Unused (w.newDraw op) op := by
  cases op with
  | identity op => exact w.directory.unused_newId op
  | create candidate => exact w.invitations.find?_newKey
  | _ => exact trivial

theorem atOnce_sound (op : InvitationOp) (w : InvitationWorld) :
    env op w (atOnce op w).1 (atOnce op w).2 :=
  ⟨w.clock, w.newDraw op, Int.le_refl _, w.unused_newDraw op, rfl⟩

end InvitationWorld

end CopilotRuntime.Invitations
