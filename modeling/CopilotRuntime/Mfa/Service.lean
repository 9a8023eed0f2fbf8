import CopilotRuntime.Mfa.Store

/-!
# MFA verification

A challenge is answered with a TOTP code or a passkey; a recovery code stands for
itself. A TOTP code also confirms a factor that was just enrolled.

## Implementation notes

The algorithms of TOTP and passkeys and the hash of recovery codes are parameters:
which code a secret shows in a time step, and what becomes of an assertion.
-/

namespace CopilotRuntime.Mfa

open Foundation
open AccountMerge (Account IdentityAuditEventRecord)

inductive MfaError
  | factorNotFound (message : String)
  | factorDisabled (message : String)
  | challengeInvalid (message : String)
  | codeRejected (message : String)
  | webAuthnRejected (message : String)
  | vault (message : String)
  | typeError
  deriving DecidableEq

structure MfaConfig where
  totpStepSeconds : Int := 30
  totpWindowSteps : Nat := 1

structure MfaLibrary where
  totpAt : String → Int → String
  rawId : Json → Except String String
  /-- The new sign count of an assertion for a nonce, an origin, a relying party, a public key
  and the current sign count. -/
  verifyAuthentication : Json → String → String → String → String → Int → Except String Int
  sha256 : String → String

abbrev MfaProgram := Program MfaOp MfaOp.Reply MfaError

def perform (op : MfaOp) : MfaProgram op.Reply := Program.request op

def second : Int := 1000000

def audit (owner : Account) (action : String) (metadata : List (String × Json)) :
    MfaProgram Unit :=
  perform (.appendIdentityAudit {
    orgId := owner.orgId
    actorUserId := some owner.userId
    subjectUserId := some owner.userId
    action := action
    metadata := .obj metadata
    requestIp := none
    userAgent := none
    createdAt := 0 })

/-! ### TOTP -/

section Totp
variable (config : MfaConfig) (library : MfaLibrary)

/-- The time steps whose codes are accepted, the oldest one first. -/
def windowSteps (now : Int) : List Int :=
  (List.range (2 * config.totpWindowSteps + 1)).map fun i =>
    now / (config.totpStepSeconds * second) - config.totpWindowSteps + i

/-- The first accepted time step that shows the code; codes are compared as ASCII text. -/
def verifyTotpWithWindow (secret code : String) (now : Int) : Except MfaError (Option Int) :=
  if code.toList.all fun c => c.toNat < 128 then
    .ok ((windowSteps config now).find? fun step => library.totpAt secret step = code)
  else
    .error .typeError

/-- The time step of a code under a stored secret. -/
def matchCode (secret : TotpSecretRecord) (code : String) : MfaProgram (Option Int) := do
  let decrypted ← perform (.decrypt secret.encryptedSecret)
  let plaintext ← Program.ofExcept (decrypted.mapError MfaError.vault)
  let now ← perform .now
  .ofExcept (verifyTotpWithWindow config library plaintext code now)

def replayed (secret : TotpSecretRecord) (step : Int) : Bool :=
  secret.lastStep.any fun lastStep => step ≤ lastStep

def factorMetadata (factorId : String) : List (String × Json) :=
  [("factor_id", .str factorId), ("kind", .str "totp")]

/-- Take the time step and report success. -/
def acceptStep (owner : Account) (factor : MfaFactorRecord) (secretId : String) (step : Int) :
    MfaProgram MfaFactorRecord := do
  perform (.updateTotpLastStep secretId step)
  let now ← perform .now
  perform (.touchFactor factor.factorId now)
  audit owner "mfa.verify.succeeded" (factorMetadata factor.factorId)
  return factor

/-- Try the factors in turn. -/
def tryFactors (owner : Account) (code : String) :
    List MfaFactorRecord → MfaProgram MfaFactorRecord
  | [] => do
      audit owner "mfa.verify.failed" [("kind", .str "totp")]
      .raised (.codeRejected "invalid TOTP code")
  | factor :: rest => do
      let secret ← perform (.getTotpSecretForFactor factor.factorId)
      match secret with
      | none => tryFactors owner code rest
      | some secret => do
          let matched ← matchCode config library secret code
          match matched with
          | none => tryFactors owner code rest
          | some step =>
              if replayed secret step then tryFactors owner code rest
              else acceptStep owner factor secret.secretId step

/-- Consume a challenge; only afterwards it is looked at. -/
def consumeFor (owner : Account) (kind : MfaChallengeKind) (challengeId : String) :
    MfaProgram MfaChallengeRecord := do
  let now ← perform .now
  let challenge ← perform (.consumeChallenge challengeId now)
  match challenge with
  | none => .raised (.challengeInvalid "challenge not found / expired / wrong kind")
  | some challenge =>
      if challenge.owner = owner ∧ challenge.kind = kind then return challenge
      else .raised (.challengeInvalid "challenge not found / expired / wrong kind")

/-- The TOTP factors that may answer a challenge. -/
def answering (challenge : MfaChallengeRecord) (factors : List MfaFactorRecord) :
    List MfaFactorRecord :=
  factors.filter fun f => f.kind = .totp &&
    challenge.expectedFactorId.all fun expected => f.factorId = expected

def verifyTotpChallenge (owner : Account) (challengeId code : String) :
    MfaProgram MfaFactorRecord := do
  let challenge ← consumeFor owner .totp challengeId
  let factors ← perform (.listEnabledFactors owner)
  if (answering challenge factors).isEmpty then
    .raised (.factorNotFound "no enabled TOTP factor")
  else
    tryFactors config library owner code (answering challenge factors)

def requireFactorForUser (owner : Account) (kind : MfaFactorKind) (factorId : String) :
    MfaProgram MfaFactorRecord := do
  let factor ← perform (.getFactor factorId)
  match factor.filter fun f => f.owner = owner && f.disabledAt.isNone with
  | none => .raised (.factorNotFound "factor not found")
  | some factor =>
      if factor.kind = kind then return factor
      else .raised (.factorNotFound "factor kind mismatch")

def confirmMetadata (factorId : String) : List (String × Json) :=
  factorMetadata factorId ++ [("stage", .str "confirm")]

/-- Take the time step and enable the factor. -/
def confirmStep (owner : Account) (factorId secretId : String) (step : Int) :
    MfaProgram MfaFactorRecord := do
  perform (.updateTotpLastStep secretId step)
  let enabled ← perform (.enableFactor factorId)
  match enabled with
  | none => .raised (.factorDisabled "factor was disabled before confirm")
  | some enabled => do
      let now ← perform .now
      perform (.touchFactor factorId now)
      audit owner "mfa.verify.succeeded" (confirmMetadata factorId)
      return enabled

def confirmSecret (owner : Account) (factorId code : String) (secret : TotpSecretRecord) :
    MfaProgram MfaFactorRecord := do
  let matched ← matchCode config library secret code
  match matched with
  | none => do
      audit owner "mfa.verify.failed" (confirmMetadata factorId)
      .raised (.codeRejected "invalid TOTP code")
  | some step =>
      if replayed secret step then .raised (.codeRejected "TOTP code replayed")
      else confirmStep owner factorId secret.secretId step

def confirmTotp (owner : Account) (factorId code : String) : MfaProgram MfaFactorRecord := do
  let _ ← requireFactorForUser owner .totp factorId
  let secret ← perform (.getTotpSecretForFactor factorId)
  match secret with
  | none => .raised (.factorNotFound "TOTP secret missing")
  | some secret => confirmSecret config library owner factorId code secret

end Totp

/-! ### Passkeys -/

section WebAuthn
variable (library : MfaLibrary)

/-- The relying party that a challenge names. -/
def relyingParty (challenge : MfaChallengeRecord) : Except MfaError String :=
  match Json.lookup challenge.payload "rp_id" with
  | some (.str rpId) => .ok rpId
  | _ => .error (.challengeInvalid "challenge missing rp_id")

def rejectAssertion (owner : Account) (reason message : String) : MfaProgram MfaFactorRecord := do
  audit owner "mfa.verify.failed"
    [("kind", .str "webauthn"), ("reason", .str (reason.take 120).toString)]
  .raised (.webAuthnRejected message)

/-- Store the new sign count and report success. -/
def acceptAssertion (owner : Account) (stored : WebAuthnCredentialRecord) (newSignCount : Int) :
    MfaProgram MfaFactorRecord := do
  let now ← perform .now
  let ok ← perform (.updateWebauthnSignCount stored.credentialIdB64 newSignCount now)
  if !ok then
    rejectAssertion owner "sign_count_regression" "sign_count regression — possible cloned key"
  else do
    let factor ← perform (.getFactor stored.factorId)
    match factor with
    | none => .raised (.factorNotFound "factor missing")
    | some factor => do
        let now ← perform .now
        perform (.touchFactor factor.factorId now)
        audit owner "mfa.verify.succeeded"
          [("factor_id", .str factor.factorId), ("kind", .str "webauthn")]
        return factor

/-- Check an assertion against a passkey of the user. -/
def checkAssertion (owner : Account) (challenge : MfaChallengeRecord) (rpId : String)
    (assertion : Json) (expectedOrigin : String) (stored : WebAuthnCredentialRecord) :
    MfaProgram MfaFactorRecord := do
  let owned ← perform (.listWebauthnCredentialsForUser owner)
  if owned.any fun c => c.credentialId = stored.credentialId then
    match library.verifyAuthentication assertion challenge.nonce expectedOrigin rpId
        stored.publicKeyCose stored.signCount with
    | .error message => rejectAssertion owner message message
    | .ok newSignCount => acceptAssertion owner stored newSignCount
  else
    .raised (.webAuthnRejected "credential not owned by user")

def verifyWebauthnChallenge (owner : Account) (challengeId : String) (assertion : Json)
    (expectedOrigin : String) : MfaProgram MfaFactorRecord := do
  let challenge ← consumeFor owner .webauthn challengeId
  let rpId ← Program.ofExcept (relyingParty challenge)
  let rawId ← Program.ofExcept ((library.rawId assertion).mapError fun message =>
    MfaError.webAuthnRejected ("malformed assertion: " ++ message))
  let stored ← perform (.getWebauthnCredentialByB64 rawId)
  match stored with
  | none => .raised (.webAuthnRejected "unknown credential")
  | some stored => checkAssertion library owner challenge rpId assertion expectedOrigin stored

end WebAuthn

/-! ### Recovery codes -/

/-- Consume a recovery code; only afterwards its owner is looked at. -/
def consumeRecoveryCode (library : MfaLibrary) (owner : Account) (code : String) :
    MfaProgram MfaRecoveryCodeRecord := do
  let now ← perform .now
  let record ← perform (.consumeRecoveryCode (library.sha256 code) now)
  match record.filter fun r => r.owner = owner with
  | none => do
      audit owner "mfa.recovery.failed" []
      .raised (.codeRejected "invalid or already-used recovery code")
  | some record => do
      audit owner "mfa.recovery.consumed" [("code_id", .str record.codeId)]
      return record

/-! ### Calls -/

inductive MfaCall
  | verifyTotp (owner : Account) (challengeId code : String)
  | verifyWebauthn (owner : Account) (challengeId : String) (assertion : Json)
      (expectedOrigin : String)
  | consumeRecoveryCode (owner : Account) (code : String)
  | confirmTotp (owner : Account) (factorId code : String)
  deriving DecidableEq

/-- The user who makes the call. -/
def MfaCall.owner : MfaCall → Account
  | verifyTotp owner _ _ | verifyWebauthn owner _ _ _ | consumeRecoveryCode owner _
  | confirmTotp owner _ _ => owner

inductive MfaResult
  | factor (record : MfaFactorRecord)
  | recoveryCode (record : MfaRecoveryCodeRecord)
  deriving DecidableEq

def MfaCall.body (config : MfaConfig) (library : MfaLibrary) : MfaCall → MfaProgram MfaResult
  | .verifyTotp owner challengeId code => do
      let factor ← verifyTotpChallenge config library owner challengeId code
      return .factor factor
  | .verifyWebauthn owner challengeId assertion expectedOrigin => do
      let factor ← verifyWebauthnChallenge library owner challengeId assertion expectedOrigin
      return .factor factor
  | .consumeRecoveryCode owner code => do
      let record ← Mfa.consumeRecoveryCode library owner code
      return .recoveryCode record
  | .confirmTotp owner factorId code => do
      let factor ← Mfa.confirmTotp config library owner factorId code
      return .factor factor

end CopilotRuntime.Mfa
