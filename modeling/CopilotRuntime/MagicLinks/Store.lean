import CopilotRuntime.Identity.Requests
import CopilotRuntime.Lockout.Service

/-!
# Links and what signing in by email shares

Single-use links beside the identity store, the sessions and the log of attempts.

## Implementation notes

Each operation happens at some time of a clock that may show anything. A drawn id
occurs nowhere in the links and the sessions. What the rate limiter says is left open,
as it goes by a clock of its own. A candidate workspace keeps what the identity store
says of it; its logo and the last activity in it are left out.
-/

namespace CopilotRuntime.MagicLinks

open Foundation Identity
open AccountMerge (IdentityAuditEventRecord)
open Lockout (LoginAttemptRecord LoginAttemptOutcome)

structure WorkspaceCandidate where
  orgId : String
  displayName : String
  role : String
  memberCount : Nat
  deriving DecidableEq

structure MagicLinkTokenRecord where
  tokenId : String
  orgId : Option String
  userId : String
  emailLower : String
  tokenHash : String
  candidateOrgs : List WorkspaceCandidate
  returnTo : Option String
  requestedIp : Option String
  requestedUa : Option String
  createdAt : Int
  expiresAt : Int
  consumedAt : Option Int := none
  consumedSessionId : Option String := none
  deriving DecidableEq

def MagicLinkTokenRecord.hash (r : MagicLinkTokenRecord) : Option String := some r.tokenHash

/-- Links, of which no two have the same hash. -/
abbrev Links := IndexedTable MagicLinkTokenRecord.tokenId MagicLinkTokenRecord.hash

def MagicLinkTokenRecord.consumed (r : MagicLinkTokenRecord) (clock : Int)
    (sessionId : Option String) : MagicLinkTokenRecord :=
  { r with consumedAt := some clock, consumedSessionId := sessionId }

theorem Links.admits_consumed {t : Links} {r : MagicLinkTokenRecord} {tokenId : String}
    (h : t.find? tokenId = some r) (clock : Int) (sessionId : Option String) :
    t.Admits (r.consumed clock sessionId) := by
  have hkey : r.tokenId = tokenId := Table.key_of_find? h
  have hfound : t.find? (r.consumed clock sessionId).tokenId = some r := hkey ▸ h
  exact IndexedTable.admits_of_find? hfound rfl

/-! ### Operations -/

structure LinkWorld where
  clock : Int
  directory : Directory
  links : Links
  sessions : Sessions
  loginAttempts : List LoginAttemptRecord
  audits : List IdentityAuditEventRecord

inductive LinkOp : Type
  | rateLimit (scope key : String) (windowSeconds limit : Int)
  | now
  | tokenUrlsafe
  | pickStamp
  | identity (request : IdentityOp)
  | appendLoginAttempt (record : Int → LoginAttemptRecord)
  | appendIdentityAudit (event : IdentityAuditEventRecord)
  | createLink (record : String → Int → MagicLinkTokenRecord)
  | getByHash (tokenHash : String)
  | markConsumed (tokenId : String) (consumedSessionId : Option String)
  | sendMagicLink (toEmail : String) (orgDisplayName : Option String) (loginUrl : String)
      (expiresMinutes : Int)
  | createSession (record : String → Int → SessionRecord)

@[reducible] def LinkOp.Reply : LinkOp → Type
  | rateLimit _ _ _ _ | now => Int
  | tokenUrlsafe => String
  | pickStamp => Int × String
  | identity request => request.Reply
  | appendLoginAttempt _ | appendIdentityAudit _ | sendMagicLink _ _ _ _ => Unit
  | createLink _ => Except String MagicLinkTokenRecord
  | getByHash _ => Option MagicLinkTokenRecord
  | markConsumed _ _ => Bool
  | createSession _ => SessionRecord

/-- What is drawn for an operation: an id, a random text, and an answer of the rate limiter. -/
structure LinkDraw where
  id : String
  text : String
  retryAfter : Int

namespace LinkWorld
variable (w : LinkWorld)

def createLink (record : MagicLinkTokenRecord) :
    Except String MagicLinkTokenRecord × LinkWorld :=
  match w.links.insert? record with
  | none => (.error "magic_link token_hash collision", w)
  | some links => (.ok record, { w with links := links })

/-- Mark a link as consumed, unless it is, and say whether it was marked. -/
def markConsumed (tokenId : String) (consumedSessionId : Option String) : Bool × LinkWorld :=
  match h : w.links.find? tokenId with
  | none => (false, w)
  | some record =>
      if record.consumedAt.isSome then (false, w)
      else
        let admits := Links.admits_consumed h w.clock consumedSessionId
        (true, { w with links := w.links.put _ admits })

/-- What an operation gives and does, with what is drawn for it. -/
def answer (draw : LinkDraw) : (op : LinkOp) → LinkWorld → op.Reply × LinkWorld
  | .rateLimit _ _ _ _, w => (draw.retryAfter, w)
  | .now, w => (w.clock, w)
  | .tokenUrlsafe, w => (draw.text, w)
  | .pickStamp, w => ((w.clock, draw.text), w)
  | .identity request, w =>
      let answered := Directory.answer draw.id w.clock request w.directory
      (answered.1, { w with directory := answered.2 })
  | .appendLoginAttempt record, w =>
      ((), { w with loginAttempts := w.loginAttempts ++ [record w.clock] })
  | .appendIdentityAudit event, w =>
      ((), { w with audits := w.audits ++ [{ event with createdAt := w.clock }] })
  | .createLink record, w => w.createLink (record draw.id w.clock)
  | .getByHash tokenHash, w => (w.links.lookup tokenHash, w)
  | .markConsumed tokenId sessionId, w => w.markConsumed tokenId sessionId
  | .sendMagicLink _ _ _ _, w => ((), w)
  | .createSession record, w =>
      let session := record draw.id w.clock
      (session, { w with sessions := w.sessions.put session })

/-- The ids of links and sessions. -/
def ids : List String :=
  w.links.rows.map MagicLinkTokenRecord.tokenId ++ w.sessions.rows.map SessionRecord.sessionId

def atTime (clock : Int) : LinkWorld := { w with clock := clock }

/-- Which reply an operation may get, and what it leaves behind. -/
def env (op : LinkOp) (w : LinkWorld) (reply : op.Reply) (w' : LinkWorld) : Prop :=
  ∃ clock draw, draw.id ∉ w.ids ∧ (reply, w') = answer draw op (w.atTime clock)

/-- New texts and an open rate limiter. -/
def newDraw : LinkDraw :=
  ⟨Table.newText w.ids, Table.newText (w.links.rows.map MagicLinkTokenRecord.tokenHash), 0⟩

def atOnce (op : LinkOp) (w : LinkWorld) : op.Reply × LinkWorld := answer w.newDraw op w

theorem atOnce_sound (op : LinkOp) (w : LinkWorld) :
    env op w (atOnce op w).1 (atOnce op w).2 := by
  refine ⟨w.clock, w.newDraw, Table.newText_not_mem w.ids, ?_⟩
  have htime : w.atTime w.clock = w := rfl
  rw [htime, atOnce]

end LinkWorld

end CopilotRuntime.MagicLinks
