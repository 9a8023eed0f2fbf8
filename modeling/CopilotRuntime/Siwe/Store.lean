import CopilotRuntime.Identity.Requests
import CopilotRuntime.Lockout.Service

/-!
# The sign-in stores

Single-use nonces and the wallets that are linked to users, beside the identity
store, the lockouts and the sessions.

## Implementation notes

A drawn id occurs nowhere in the stores. What the rate limiter says is left open, as
it goes by a clock of its own. Times are numbers of microseconds on a clock that
never goes back, which the lockouts share. Multi-factor policies and factors do not
change here.
-/

namespace CopilotRuntime.Siwe

open Foundation Identity Lockout
open AccountMerge (Account)

structure SiweNonceRecord where
  nonceId : String
  nonce : String
  address : String
  chainId : Int
  issuedAt : Int
  expiresAt : Int
  consumedAt : Option Int := none
  ip : Option String := none
  userAgent : Option String := none

structure WalletIdentityRecord where
  walletId : String
  address : String
  orgId : String
  userId : String
  principalId : Option String := none
  chainId : Int
  createdAt : Int

def SiweNonceRecord.text (r : SiweNonceRecord) : Option String := some r.nonce

def WalletIdentityRecord.wallet (r : WalletIdentityRecord) : Option String := some r.address

/-- Nonces, of which no two are the same text. -/
abbrev Nonces := IndexedTable SiweNonceRecord.nonceId SiweNonceRecord.text

/-- Wallets, of which no two have the same address. -/
abbrev Wallets := IndexedTable WalletIdentityRecord.walletId WalletIdentityRecord.wallet

def SiweNonceRecord.consumed (r : SiweNonceRecord) (clock : Int) : SiweNonceRecord :=
  { r with consumedAt := some clock }

theorem Nonces.admits_consumed {t : Nonces} {r : SiweNonceRecord} (h : r ∈ t.rows) (clock : Int) :
    t.Admits (r.consumed clock) := by
  have hfound : t.find? (r.consumed clock).nonceId = some r := IndexedTable.mem_rows_iff.mp h
  exact IndexedTable.admits_of_find? hfound rfl

/-- Fill in the principal of the user that the wallet belongs to. -/
def WalletIdentityRecord.withDefaultPrincipal (r : WalletIdentityRecord) : WalletIdentityRecord :=
  if r.principalId.isNone then
    { r with principalId := some (Directory.defaultPrincipalId r.userId) }
  else r

/-! ### Operations -/

structure SiweWorld where
  lockout : LockoutWorld
  directory : Directory
  nonces : Nonces
  wallets : Wallets
  sessions : Sessions
  requiresMfa : String → Bool
  hasFactor : Account → Bool

inductive SiweOp : Type
  | rateLimit (scope key : String) (windowSeconds limit : Int)
  | tokenHex
  | createNonce (record : String → Int → SiweNonceRecord)
  | consumeNonce (nonce : String)
  | identity (request : IdentityOp)
  | lockout (request : LockoutOp)
  | getWalletIdentity (address : String)
  | createWalletIdentity (record : String → Int → WalletIdentityRecord)
  | policyRequiresMfa (orgId : String)
  | hasEnabledFactor (owner : Account)
  | createSession (record : String → Int → SessionRecord)

@[reducible] def SiweOp.Reply : SiweOp → Type
  | rateLimit _ _ _ _ => Int
  | tokenHex => String
  | createNonce _ => Except String SiweNonceRecord
  | consumeNonce _ => Option SiweNonceRecord
  | identity request => request.Reply
  | lockout request => request.Reply
  | getWalletIdentity _ => Option WalletIdentityRecord
  | createWalletIdentity _ => Except String WalletIdentityRecord
  | policyRequiresMfa _ | hasEnabledFactor _ => Bool
  | createSession _ => SessionRecord

/-- What is drawn for an operation: an id, a random text, and an answer of the rate limiter. -/
structure SiweDraw where
  id : String
  text : String
  retryAfter : Int

namespace SiweWorld
variable (w : SiweWorld)

def createNonce (record : SiweNonceRecord) : Except String SiweNonceRecord × SiweWorld :=
  match w.nonces.insert? record with
  | none => (.error "SIWE nonce already exists", w)
  | some nonces => (.ok record, { w with nonces := nonces })

/-- Consume a nonce, whether it has expired or not, unless it was consumed before. -/
def consumeNonce (nonce : String) : Option SiweNonceRecord × SiweWorld :=
  match h : w.nonces.lookup nonce with
  | none => (none, w)
  | some row =>
      if row.consumedAt.isSome then (none, w)
      else
        let admits := Nonces.admits_consumed (IndexedTable.lookup_eq_some_iff.mp h).1
          w.lockout.clock
        (some (row.consumed w.lockout.clock), { w with nonces := w.nonces.put _ admits })

def createWalletIdentity (record : WalletIdentityRecord) :
    Except String WalletIdentityRecord × SiweWorld :=
  match w.wallets.insert? record.withDefaultPrincipal with
  | none => (.error "wallet identity already linked for this address", w)
  | some wallets => (.ok record.withDefaultPrincipal, { w with wallets := wallets })

/-- What an operation gives and does, with what is drawn for it. -/
def answer (lower : String → String) (draw : SiweDraw) :
    (op : SiweOp) → SiweWorld → op.Reply × SiweWorld
  | .rateLimit _ _ _ _, w => (draw.retryAfter, w)
  | .tokenHex, w => (draw.text, w)
  | .createNonce record, w => w.createNonce (record draw.id w.lockout.clock)
  | .consumeNonce nonce, w => w.consumeNonce nonce
  | .identity request, w =>
      let answered := Directory.answer draw.id w.lockout.clock request w.directory
      (answered.1, { w with directory := answered.2 })
  | .lockout request, w =>
      let answered := LockoutWorld.answer lower draw.id request w.lockout
      (answered.1, { w with lockout := answered.2 })
  | .getWalletIdentity address, w => (w.wallets.lookup (lower address), w)
  | .createWalletIdentity record, w => w.createWalletIdentity (record draw.id w.lockout.clock)
  | .policyRequiresMfa orgId, w => (w.requiresMfa orgId, w)
  | .hasEnabledFactor owner, w => (w.hasFactor owner, w)
  | .createSession record, w =>
      let session := record draw.id w.lockout.clock
      (session, { w with sessions := w.sessions.put session })

/-- The ids in the stores. -/
def ids : List String :=
  w.directory.organizations.rows.map OrganizationRecord.orgId ++
    w.directory.users.rows.flatMap (fun u => [u.userId, u.orgId]) ++
    w.directory.members.rows.flatMap (fun m => [m.memberId, m.orgId, m.userId]) ++
    w.directory.roleAssignments.rows.flatMap (fun a => [a.assignmentId, a.orgId, a.userId]) ++
    w.lockout.lockouts.rows.flatMap (fun l => [l.lockoutId, l.orgId, l.userId]) ++
    w.nonces.rows.map SiweNonceRecord.nonceId ++
    w.wallets.rows.flatMap (fun r => [r.walletId, r.orgId, r.userId]) ++
    w.sessions.rows.flatMap (fun s => [s.sessionId, s.orgId, s.userId])

def atTime (clock : Int) : SiweWorld := { w with lockout := { w.lockout with clock := clock } }

/-- Which reply an operation may get, and what it leaves behind. -/
def env (lower : String → String) (op : SiweOp) (w : SiweWorld) (reply : op.Reply)
    (w' : SiweWorld) : Prop :=
  ∃ clock draw, w.lockout.clock ≤ clock ∧ draw.id ∉ w.ids ∧
    (reply, w') = answer lower draw op (w.atTime clock)

/-- New texts and an open rate limiter. -/
def newDraw : SiweDraw :=
  ⟨Table.newText w.ids, Table.newText (w.nonces.rows.map SiweNonceRecord.nonce), 0⟩

def atOnce (lower : String → String) (op : SiweOp) (w : SiweWorld) : op.Reply × SiweWorld :=
  answer lower w.newDraw op w

theorem atOnce_sound (lower : String → String) (op : SiweOp) (w : SiweWorld) :
    env lower op w (atOnce lower op w).1 (atOnce lower op w).2 := by
  refine ⟨w.lockout.clock, w.newDraw, Int.le_refl _, Table.newText_not_mem w.ids, ?_⟩
  have htime : w.atTime w.lockout.clock = w := rfl
  rw [htime, atOnce]

end SiweWorld

end CopilotRuntime.Siwe
