import CopilotRuntime.AccountMerge.Stores
import CopilotRuntime.Foundation.Interleaving

/-!
# The MFA store

Second factors with their TOTP secrets and passkeys, the challenges they answer, and
recovery codes. A verification changes rows in their place and makes no new ones.

## Implementation notes

A passkey is found by the id that its authenticator gave it, a secret by its
factor, and a recovery code by its hash: the first row counts. Times are numbers of
microseconds on a clock that never goes back. What the vault makes of a ciphertext
is left open.
-/

namespace CopilotRuntime.Mfa

open Foundation
open AccountMerge (Account IdentityAuditEventRecord)

/-! ### Records -/

inductive MfaFactorKind
  | totp | webauthn
  deriving DecidableEq

inductive MfaChallengeKind
  | totp | webauthn | recovery
  deriving DecidableEq

structure MfaFactorRecord where
  factorId : String
  owner : Account
  kind : MfaFactorKind
  displayName : String
  enabled : Bool := false
  enrolledAt : Int
  lastUsedAt : Option Int := none
  disabledAt : Option Int := none
  deriving DecidableEq

structure TotpSecretRecord where
  secretId : String
  factorId : String
  encryptedSecret : String
  lastStep : Option Int := none

structure WebAuthnCredentialRecord where
  credentialId : String
  factorId : String
  credentialIdB64 : String
  publicKeyCose : String
  signCount : Int := 0
  rpId : String
  lastUsedAt : Option Int := none

structure MfaChallengeRecord where
  challengeId : String
  owner : Account
  kind : MfaChallengeKind
  nonce : String
  expectedFactorId : Option String := none
  payload : List (String × Json) := []
  expiresAt : Int
  consumedAt : Option Int := none

structure MfaRecoveryCodeRecord where
  codeId : String
  owner : Account
  codeHash : String
  consumedAt : Option Int := none
  deriving DecidableEq

/-! ### Operations -/

structure MfaWorld where
  clock : Int
  factors : Table MfaFactorRecord.factorId
  totpSecrets : Table TotpSecretRecord.secretId
  webauthn : Table WebAuthnCredentialRecord.credentialId
  challenges : Table MfaChallengeRecord.challengeId
  recoveryCodes : Table MfaRecoveryCodeRecord.codeId
  audits : List IdentityAuditEventRecord

inductive MfaOp : Type
  | now
  | decrypt (ciphertext : String)
  | getFactor (factorId : String)
  | listEnabledFactors (owner : Account)
  | enableFactor (factorId : String)
  | touchFactor (factorId : String) (usedAt : Int)
  | getTotpSecretForFactor (factorId : String)
  | updateTotpLastStep (secretId : String) (lastStep : Int)
  | getWebauthnCredentialByB64 (credentialIdB64 : String)
  | listWebauthnCredentialsForUser (owner : Account)
  | updateWebauthnSignCount (credentialIdB64 : String) (newSignCount usedAt : Int)
  | consumeChallenge (challengeId : String) (now : Int)
  | consumeRecoveryCode (codeHash : String) (now : Int)
  | appendIdentityAudit (event : IdentityAuditEventRecord)

@[reducible] def MfaOp.Reply : MfaOp → Type
  | now => Int
  | decrypt _ => Except String String
  | getFactor _ | enableFactor _ => Option MfaFactorRecord
  | listEnabledFactors _ => List MfaFactorRecord
  | touchFactor _ _ | updateTotpLastStep _ _ | appendIdentityAudit _ => Unit
  | getTotpSecretForFactor _ => Option TotpSecretRecord
  | getWebauthnCredentialByB64 _ => Option WebAuthnCredentialRecord
  | listWebauthnCredentialsForUser _ => List WebAuthnCredentialRecord
  | updateWebauthnSignCount _ _ _ => Bool
  | consumeChallenge _ _ => Option MfaChallengeRecord
  | consumeRecoveryCode _ _ => Option MfaRecoveryCodeRecord

namespace MfaWorld
variable (w : MfaWorld)

def listEnabledFactors (owner : Account) : List MfaFactorRecord :=
  (w.factors.rows.filter fun f =>
    f.owner = owner && f.disabledAt.isNone && f.enabled).insertionSort
      fun a b => a.enrolledAt ≤ b.enrolledAt

def enabling (f : MfaFactorRecord) : MfaFactorRecord := { f with enabled := true }

def enableFactor (factorId : String) : Option MfaFactorRecord × MfaWorld :=
  match (w.factors.find? factorId).filter fun f => f.disabledAt.isNone with
  | none => (none, w)
  | some f =>
      (some (enabling f), { w with factors := w.factors.modify factorId enabling fun _ => rfl })

def touchFactor (factorId : String) (usedAt : Int) : MfaWorld :=
  { w with
    factors := w.factors.modify factorId (fun f => { f with lastUsedAt := some usedAt }) fun _ => rfl }

def getTotpSecretForFactor (factorId : String) : Option TotpSecretRecord :=
  w.totpSecrets.rows.find? fun s => s.factorId = factorId

def updateTotpLastStep (secretId : String) (lastStep : Int) : MfaWorld :=
  { w with
    totpSecrets :=
      w.totpSecrets.modify secretId (fun s => { s with lastStep := some lastStep }) fun _ => rfl }

def getWebauthnCredentialByB64 (credentialIdB64 : String) : Option WebAuthnCredentialRecord :=
  w.webauthn.rows.find? fun c => c.credentialIdB64 = credentialIdB64

/-- The passkeys of the user's factors that are not disabled. -/
def listWebauthnCredentialsForUser (owner : Account) : List WebAuthnCredentialRecord :=
  w.webauthn.rows.filter fun c => w.factors.rows.any fun f =>
    f.factorId = c.factorId && f.owner = owner && f.kind = .webauthn && f.disabledAt.isNone

/-- Store a sign count that is above the stored one. -/
def updateWebauthnSignCount (credentialIdB64 : String) (newSignCount usedAt : Int) :
    Bool × MfaWorld :=
  match w.getWebauthnCredentialByB64 credentialIdB64 with
  | none => (false, w)
  | some c =>
      if newSignCount ≤ c.signCount then (false, w)
      else
        let change := fun (c : WebAuthnCredentialRecord) =>
          { c with signCount := newSignCount, lastUsedAt := some usedAt }
        (true, { w with webauthn := w.webauthn.modify c.credentialId change fun _ => rfl })

/-- A challenge that can still be consumed. -/
def consumable (now : Int) (c : MfaChallengeRecord) : Bool :=
  c.consumedAt.isNone && now < c.expiresAt

def consuming (now : Int) (c : MfaChallengeRecord) : MfaChallengeRecord :=
  { c with consumedAt := some now }

def consumeChallenge (challengeId : String) (now : Int) : Option MfaChallengeRecord × MfaWorld :=
  match (w.challenges.find? challengeId).filter (consumable now) with
  | none => (none, w)
  | some c =>
      (some (consuming now c),
        { w with challenges := w.challenges.modify challengeId (consuming now) fun _ => rfl })

/-- The unused recovery code with the hash. -/
def unusedCode (codeHash : String) : Option MfaRecoveryCodeRecord :=
  w.recoveryCodes.rows.find? fun r => r.codeHash = codeHash && r.consumedAt.isNone

def spending (now : Int) (r : MfaRecoveryCodeRecord) : MfaRecoveryCodeRecord :=
  { r with consumedAt := some now }

def consumeRecoveryCode (codeHash : String) (now : Int) :
    Option MfaRecoveryCodeRecord × MfaWorld :=
  match w.unusedCode codeHash with
  | none => (none, w)
  | some r =>
      (some (spending now r),
        { w with recoveryCodes := w.recoveryCodes.modify r.codeId (spending now) fun _ => rfl })

/-- What an operation gives and does, with what the vault makes of a ciphertext. -/
def answer (decrypted : Except String String) : (op : MfaOp) → MfaWorld → op.Reply × MfaWorld
  | .now, w => (w.clock, w)
  | .decrypt _, w => (decrypted, w)
  | .getFactor factorId, w => (w.factors.find? factorId, w)
  | .listEnabledFactors owner, w => (w.listEnabledFactors owner, w)
  | .enableFactor factorId, w => w.enableFactor factorId
  | .touchFactor factorId usedAt, w => ((), w.touchFactor factorId usedAt)
  | .getTotpSecretForFactor factorId, w => (w.getTotpSecretForFactor factorId, w)
  | .updateTotpLastStep secretId lastStep, w => ((), w.updateTotpLastStep secretId lastStep)
  | .getWebauthnCredentialByB64 b64, w => (w.getWebauthnCredentialByB64 b64, w)
  | .listWebauthnCredentialsForUser owner, w => (w.listWebauthnCredentialsForUser owner, w)
  | .updateWebauthnSignCount b64 newSignCount usedAt, w =>
      w.updateWebauthnSignCount b64 newSignCount usedAt
  | .consumeChallenge challengeId now, w => w.consumeChallenge challengeId now
  | .consumeRecoveryCode codeHash now, w => w.consumeRecoveryCode codeHash now
  | .appendIdentityAudit event, w =>
      ((), { w with audits := w.audits ++ [{ event with createdAt := w.clock }] })

/-- Which reply an operation may get, and what it leaves behind. -/
def env (op : MfaOp) (w : MfaWorld) (reply : op.Reply) (w' : MfaWorld) : Prop :=
  ∃ clock decrypted, w.clock ≤ clock ∧ (reply, w') = answer decrypted op { w with clock := clock }

/-- A vault whose ciphertexts are their own plaintexts, at an unmoved clock. -/
def atOnce (op : MfaOp) (w : MfaWorld) : op.Reply × MfaWorld :=
  match op with
  | .decrypt ciphertext => answer (.ok ciphertext) (.decrypt ciphertext) w
  | op => answer (.error "") op w

theorem atOnce_sound (op : MfaOp) (w : MfaWorld) : env op w (atOnce op w).1 (atOnce op w).2 := by
  cases op with
  | decrypt ciphertext => exact ⟨w.clock, .ok ciphertext, Int.le_refl _, rfl⟩
  | _ => exact ⟨w.clock, .error "", Int.le_refl _, rfl⟩

end MfaWorld

end CopilotRuntime.Mfa
