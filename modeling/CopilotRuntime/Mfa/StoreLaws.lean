import CopilotRuntime.Mfa.Service

/-!
# What operations leave of the MFA store

No operation makes rows or changes whose they are; it marks single rows.
-/

namespace CopilotRuntime.Mfa

open Foundation
open AccountMerge (Account IdentityAuditEventRecord)

variable {w₀ w w' w'' : MfaWorld}

/-! ### What never changes -/

def MfaFactorRecord.fixed (f : MfaFactorRecord) : String × Account × MfaFactorKind :=
  (f.factorId, f.owner, f.kind)

def TotpSecretRecord.fixed (s : TotpSecretRecord) : String × String := (s.secretId, s.factorId)

def WebAuthnCredentialRecord.fixed (c : WebAuthnCredentialRecord) : String × String × String :=
  (c.credentialId, c.factorId, c.credentialIdB64)

/-- The factors, secrets and passkeys are the same ones, of the same owners. -/
structure Fixed (w w' : MfaWorld) : Prop where
  factors : w'.factors.rows.map MfaFactorRecord.fixed = w.factors.rows.map MfaFactorRecord.fixed
  totpSecrets : w'.totpSecrets.rows.map TotpSecretRecord.fixed =
    w.totpSecrets.rows.map TotpSecretRecord.fixed
  webauthn : w'.webauthn.rows.map WebAuthnCredentialRecord.fixed =
    w.webauthn.rows.map WebAuthnCredentialRecord.fixed

theorem Fixed.refl (w : MfaWorld) : Fixed w w := ⟨rfl, rfl, rfl⟩

theorem Fixed.trans (h : Fixed w w') (h' : Fixed w' w'') : Fixed w w'' :=
  ⟨h'.factors.trans h.factors, h'.totpSecrets.trans h.totpSecrets, h'.webauthn.trans h.webauthn⟩

theorem Fixed.symm (h : Fixed w w') : Fixed w' w :=
  ⟨h.factors.symm, h.totpSecrets.symm, h.webauthn.symm⟩

theorem fixed_of_env {op : MfaOp} {reply : op.Reply} (henv : MfaWorld.env op w reply w') :
    Fixed w w' := by
  obtain ⟨clock, decrypted, -, hanswer⟩ := henv
  obtain rfl : w' = _ := congrArg Prod.snd hanswer
  cases op with
  | enableFactor factorId =>
      change Fixed w (MfaWorld.enableFactor _ factorId).2
      rw [MfaWorld.enableFactor]
      split
      · exact ⟨rfl, rfl, rfl⟩
      · refine ⟨?_, rfl, rfl⟩
        apply Table.map_rows_modify
        · intro v
          rfl
        · intro v
          rfl
  | touchFactor factorId usedAt =>
      refine ⟨?_, rfl, rfl⟩
      apply Table.map_rows_modify
      exact fun _ => rfl
  | updateTotpLastStep secretId lastStep =>
      refine ⟨rfl, ?_, rfl⟩
      apply Table.map_rows_modify
      exact fun _ => rfl
  | updateWebauthnSignCount b64 newSignCount usedAt =>
      change Fixed w (MfaWorld.updateWebauthnSignCount _ b64 newSignCount usedAt).2
      rw [MfaWorld.updateWebauthnSignCount]
      split
      · exact ⟨rfl, rfl, rfl⟩
      · split
        · exact ⟨rfl, rfl, rfl⟩
        · refine ⟨rfl, rfl, ?_⟩
          apply Table.map_rows_modify
          exact fun _ => rfl
  | consumeChallenge challengeId now =>
      change Fixed w (MfaWorld.consumeChallenge _ challengeId now).2
      rw [MfaWorld.consumeChallenge]
      split
      · exact ⟨rfl, rfl, rfl⟩
      · exact ⟨rfl, rfl, rfl⟩
  | consumeRecoveryCode codeHash now =>
      change Fixed w (MfaWorld.consumeRecoveryCode _ codeHash now).2
      rw [MfaWorld.consumeRecoveryCode]
      split
      · exact ⟨rfl, rfl, rfl⟩
      · exact ⟨rfl, rfl, rfl⟩
  | _ => exact ⟨rfl, rfl, rfl⟩

/-! ### Owners -/

/-- The factor with the id belongs to the user. -/
def OwnsFactor (w : MfaWorld) (owner : Account) (factorId : String) : Prop :=
  ∃ f, w.factors.find? factorId = some f ∧ f.owner = owner

/-- The secret is the one that is found for a factor of the user. -/
def OwnsSecret (w : MfaWorld) (owner : Account) (secretId : String) : Prop :=
  ∃ factorId s, OwnsFactor w owner factorId ∧
    w.getTotpSecretForFactor factorId = some s ∧ s.secretId = secretId

/-- The passkey that is found under the id belongs to a factor of the user. -/
def OwnsPasskey (w : MfaWorld) (owner : Account) (b64 : String) : Prop :=
  ∃ c, w.getWebauthnCredentialByB64 b64 = some c ∧ OwnsFactor w owner c.factorId

section Lists
variable {α β : Type} {g : α → β} {xs ys : List α}

/-- Lists that agree under a function agree in what they find by it. -/
theorem map_find?_of_map_eq (h : xs.map g = ys.map g) {p : α → Bool} (q : β → Bool)
    (hp : ∀ a, p a = q (g a)) : (xs.find? p).map g = (ys.find? p).map g := by
  have hcomp : p = q ∘ g := funext hp
  rw [hcomp, ← List.find?_map, ← List.find?_map, h]

end Lists

theorem Fixed.find?_factor (h : Fixed w w') (factorId : String) :
    (w'.factors.find? factorId).map MfaFactorRecord.fixed =
      (w.factors.find? factorId).map MfaFactorRecord.fixed := by
  rw [Table.find?_eq_find?_rows, Table.find?_eq_find?_rows]
  exact map_find?_of_map_eq h.factors (fun x => x.1 = factorId) fun _ => rfl

theorem Fixed.totpSecret (h : Fixed w w') (factorId : String) :
    (w'.getTotpSecretForFactor factorId).map TotpSecretRecord.fixed =
      (w.getTotpSecretForFactor factorId).map TotpSecretRecord.fixed :=
  map_find?_of_map_eq h.totpSecrets (fun x => x.2 = factorId) fun _ => rfl

theorem Fixed.passkey (h : Fixed w w') (b64 : String) :
    (w'.getWebauthnCredentialByB64 b64).map WebAuthnCredentialRecord.fixed =
      (w.getWebauthnCredentialByB64 b64).map WebAuthnCredentialRecord.fixed :=
  map_find?_of_map_eq h.webauthn (fun x => x.2.2 = b64) fun _ => rfl

theorem Fixed.ownsFactor_iff (h : Fixed w w') (owner : Account) (factorId : String) :
    OwnsFactor w' owner factorId ↔ OwnsFactor w owner factorId := by
  have hfixed := h.find?_factor factorId
  constructor
  · rintro ⟨f, hf, rfl⟩
    rw [hf] at hfixed
    obtain ⟨f₀, hf₀, heq⟩ := Option.map_eq_some_iff.mp hfixed.symm
    exact ⟨f₀, hf₀, congrArg (fun x => x.2.1) heq⟩
  · rintro ⟨f, hf, rfl⟩
    rw [hf] at hfixed
    obtain ⟨f₀, hf₀, heq⟩ := Option.map_eq_some_iff.mp hfixed
    exact ⟨f₀, hf₀, congrArg (fun x => x.2.1) heq⟩

theorem OwnsFactor.unique {owner owner' : Account} {factorId : String}
    (h : OwnsFactor w owner factorId) (h' : OwnsFactor w owner' factorId) : owner = owner' := by
  obtain ⟨f, hf, rfl⟩ := h
  obtain ⟨f', hf', rfl⟩ := h'
  rw [hf] at hf'
  rw [Option.some.inj hf']

/-! ### What reads show -/

theorem ownsFactor_of_list {owner : Account} {f : MfaFactorRecord}
    (h : f ∈ w.listEnabledFactors owner) : OwnsFactor w owner f.factorId := by
  rw [MfaWorld.listEnabledFactors, List.mem_insertionSort, List.mem_filter] at h
  obtain ⟨hmem, howner⟩ := h
  simp only [Bool.and_eq_true, decide_eq_true_eq] at howner
  exact ⟨f, Table.mem_rows_iff.mp hmem, howner.1.1⟩

theorem ownsPasskey_of_list {owner : Account} {c owned : WebAuthnCredentialRecord} {b64 : String}
    (hfound : w.getWebauthnCredentialByB64 b64 = some c)
    (hmem : owned ∈ w.listWebauthnCredentialsForUser owner)
    (hid : owned.credentialId = c.credentialId) : OwnsPasskey w owner b64 := by
  rw [MfaWorld.listWebauthnCredentialsForUser, List.mem_filter, List.any_eq_true] at hmem
  obtain ⟨howned, f, hf, hmatch⟩ := hmem
  obtain rfl := Table.eq_of_mem_rows howned (List.mem_of_find?_eq_some hfound) hid
  simp only [Bool.and_eq_true, decide_eq_true_eq] at hmatch
  obtain ⟨⟨⟨hfactor, howner⟩, -⟩, -⟩ := hmatch
  exact ⟨owned, hfound, f, hfactor ▸ Table.mem_rows_iff.mp hf, howner⟩

theorem Fixed.ownsSecret_iff (h : Fixed w w') (owner : Account) (secretId : String) :
    OwnsSecret w' owner secretId ↔ OwnsSecret w owner secretId := by
  constructor
  · rintro ⟨factorId, s, howns, hs, rfl⟩
    have hfixed := h.totpSecret factorId
    rw [hs] at hfixed
    obtain ⟨s₀, hs₀, heq⟩ := Option.map_eq_some_iff.mp hfixed.symm
    exact ⟨factorId, s₀, (h.ownsFactor_iff owner factorId).mp howns, hs₀, congrArg Prod.fst heq⟩
  · rintro ⟨factorId, s, howns, hs, rfl⟩
    have hfixed := h.totpSecret factorId
    rw [hs] at hfixed
    obtain ⟨s', hs', heq⟩ := Option.map_eq_some_iff.mp hfixed
    exact ⟨factorId, s', (h.ownsFactor_iff owner factorId).mpr howns, hs', congrArg Prod.fst heq⟩

theorem Fixed.ownsPasskey_iff (h : Fixed w w') (owner : Account) (b64 : String) :
    OwnsPasskey w' owner b64 ↔ OwnsPasskey w owner b64 := by
  have hfixed := h.passkey b64
  constructor
  · rintro ⟨c, hc, howns⟩
    rw [hc] at hfixed
    obtain ⟨c₀, hc₀, heq⟩ := Option.map_eq_some_iff.mp hfixed.symm
    have hfactor : c₀.factorId = c.factorId := congrArg (fun x => x.2.1) heq
    exact ⟨c₀, hc₀, hfactor ▸ (h.ownsFactor_iff owner c.factorId).mp howns⟩
  · rintro ⟨c, hc, howns⟩
    rw [hc] at hfixed
    obtain ⟨c', hc', heq⟩ := Option.map_eq_some_iff.mp hfixed
    have hfactor : c'.factorId = c.factorId := congrArg (fun x => x.2.1) heq
    exact ⟨c', hc', hfactor ▸ (h.ownsFactor_iff owner c.factorId).mpr howns⟩

/-- A passkey that was found belongs to the user who later has one with its credential id. -/
theorem ownsPasskey_of_fixed {owner : Account} {c owned : WebAuthnCredentialRecord} {b64 : String}
    (hfixed : Fixed w w') (hfound : w.getWebauthnCredentialByB64 b64 = some c)
    (hmem : owned ∈ w'.listWebauthnCredentialsForUser owner)
    (hid : owned.credentialId = c.credentialId) :
    OwnsPasskey w' owner c.credentialIdB64 ∧ OwnsFactor w' owner c.factorId := by
  have hmap := hfixed.passkey b64
  rw [hfound] at hmap
  obtain ⟨c', hfound', heq⟩ := Option.map_eq_some_iff.mp hmap
  have hkey : c.credentialIdB64 = b64 := by simpa using List.find?_some hfound
  obtain ⟨d, hd, howns⟩ := ownsPasskey_of_list hfound' hmem (hid.trans (congrArg Prod.fst heq).symm)
  obtain rfl := Option.some.inj (hfound'.symm.trans hd)
  have hfactor : c'.factorId = c.factorId := congrArg (fun x => x.2.1) heq
  exact ⟨⟨c', hkey ▸ hd, howns⟩, hfactor ▸ howns⟩

/-! ### Rows of other users -/

/-- The rows an operation may change belong to the user. -/
def Entitled (w : MfaWorld) (owner : Account) : MfaOp → Prop
  | .touchFactor factorId _ | .enableFactor factorId => OwnsFactor w owner factorId
  | .updateTotpLastStep secretId _ => OwnsSecret w owner secretId
  | .updateWebauthnSignCount b64 _ _ => OwnsPasskey w owner b64
  | .consumeChallenge challengeId now => ∀ c, w.challenges.find? challengeId = some c →
      MfaWorld.consumable now c = true → c.owner = owner
  | .consumeRecoveryCode codeHash _ => ∀ r, w.unusedCode codeHash = some r → r.owner = owner
  | _ => True

/-- The rows of all other users stay as they are. -/
structure SparesOthers (owner : Account) (w w' : MfaWorld) : Prop where
  factors : ∀ id f, w.factors.find? id = some f → f.owner ≠ owner → w'.factors.find? id = some f
  totpSecrets : ∀ id s, w.totpSecrets.find? id = some s → ¬ OwnsFactor w owner s.factorId →
    w'.totpSecrets.find? id = some s
  webauthn : ∀ id c, w.webauthn.find? id = some c → ¬ OwnsFactor w owner c.factorId →
    w'.webauthn.find? id = some c
  challenges : ∀ id c, w.challenges.find? id = some c → c.owner ≠ owner →
    w'.challenges.find? id = some c
  recoveryCodes : ∀ id r, w.recoveryCodes.find? id = some r → r.owner ≠ owner →
    w'.recoveryCodes.find? id = some r

theorem SparesOthers.of_same {owner : Account} (hfactors : w'.factors = w.factors)
    (hsecrets : w'.totpSecrets = w.totpSecrets) (hwebauthn : w'.webauthn = w.webauthn)
    (hchallenges : w'.challenges = w.challenges) (hcodes : w'.recoveryCodes = w.recoveryCodes) :
    SparesOthers owner w w' where
  factors _ _ h _ := hfactors ▸ h
  totpSecrets _ _ h _ := hsecrets ▸ h
  webauthn _ _ h _ := hwebauthn ▸ h
  challenges _ _ h _ := hchallenges ▸ h
  recoveryCodes _ _ h _ := hcodes ▸ h

/-- A change in place of one row leaves the rows that are not it. -/
theorem find?_modify_of_imp {ν : Type} {key : ν → String} {t : Table key} {k : String} {f : ν → ν}
    (hf : ∀ v, key (f v) = key v) {id : String} {v : ν} (hfound : t.find? id = some v)
    (hne : t.find? k ≠ some v) : (t.modify k f hf).find? id = some v := by
  rw [Table.find?_modify, if_neg, hfound]
  rintro rfl
  exact hne hfound

theorem sparesOthers_of_env {op : MfaOp} {reply : op.Reply} {owner : Account}
    (henv : MfaWorld.env op w reply w') (hentitled : Entitled w owner op) :
    SparesOthers owner w w' := by
  obtain ⟨clock, decrypted, -, hanswer⟩ := henv
  obtain rfl : w' = _ := congrArg Prod.snd hanswer
  cases op with
  | enableFactor factorId =>
      change SparesOthers owner w (MfaWorld.enableFactor _ factorId).2
      rw [MfaWorld.enableFactor]
      split
      · exact .of_same rfl rfl rfl rfl rfl
      · refine { SparesOthers.of_same rfl rfl rfl rfl rfl with factors := ?_ }
        intro id f hf hother
        refine find?_modify_of_imp (by intro v; rfl) hf fun heq => hother ?_
        exact OwnsFactor.unique ⟨f, heq, rfl⟩ hentitled
  | touchFactor factorId usedAt =>
      refine { SparesOthers.of_same rfl rfl rfl rfl rfl with factors := ?_ }
      intro id f hf hother
      refine find?_modify_of_imp (by intro v; rfl) hf fun heq => hother ?_
      exact OwnsFactor.unique ⟨f, heq, rfl⟩ hentitled
  | updateTotpLastStep secretId lastStep =>
      refine { SparesOthers.of_same rfl rfl rfl rfl rfl with totpSecrets := ?_ }
      intro id s hs hother
      obtain ⟨factorId, s', howns, hs', hid⟩ := hentitled
      refine find?_modify_of_imp (by intro v; rfl) hs fun heq => hother ?_
      have hfound := Table.mem_rows_iff.mp (List.mem_of_find?_eq_some hs')
      rw [hid, heq] at hfound
      obtain rfl := Option.some.inj hfound
      have hfactor : s.factorId = factorId := by simpa using List.find?_some hs'
      rwa [hfactor]
  | updateWebauthnSignCount b64 newSignCount usedAt =>
      change SparesOthers owner w (MfaWorld.updateWebauthnSignCount _ b64 newSignCount usedAt).2
      rw [MfaWorld.updateWebauthnSignCount]
      obtain ⟨c, hc, howns⟩ := hentitled
      split
      · exact .of_same rfl rfl rfl rfl rfl
      · next c' hc' =>
          obtain rfl := Option.some.inj (hc.symm.trans hc')
          split
          · exact .of_same rfl rfl rfl rfl rfl
          · refine { SparesOthers.of_same rfl rfl rfl rfl rfl with webauthn := ?_ }
            intro id d hd hother
            refine find?_modify_of_imp (by intro v; rfl) hd fun heq => hother ?_
            have hfound := Table.mem_rows_iff.mp (List.mem_of_find?_eq_some hc)
            rw [hfound] at heq
            obtain rfl := Option.some.inj heq
            exact howns
  | consumeChallenge challengeId now =>
      change SparesOthers owner w (MfaWorld.consumeChallenge _ challengeId now).2
      rw [MfaWorld.consumeChallenge]
      split
      · exact .of_same rfl rfl rfl rfl rfl
      · next c hc =>
          obtain ⟨hfound, hconsumable⟩ := Option.filter_eq_some_iff.mp hc
          refine { SparesOthers.of_same rfl rfl rfl rfl rfl with challenges := ?_ }
          intro id d hd hother
          refine find?_modify_of_imp (by intro v; rfl) hd fun heq => hother ?_
          obtain rfl := Option.some.inj (hfound.symm.trans heq)
          exact hentitled c hfound hconsumable
  | consumeRecoveryCode codeHash now =>
      change SparesOthers owner w (MfaWorld.consumeRecoveryCode _ codeHash now).2
      rw [MfaWorld.consumeRecoveryCode]
      split
      · exact .of_same rfl rfl rfl rfl rfl
      · next r hr =>
          refine { SparesOthers.of_same rfl rfl rfl rfl rfl with recoveryCodes := ?_ }
          intro id d hd hother
          refine find?_modify_of_imp (by intro v; rfl) hd fun heq => hother ?_
          have hfound := Table.mem_rows_iff.mp (List.mem_of_find?_eq_some hr)
          rw [hfound] at heq
          obtain rfl := Option.some.inj heq
          exact hentitled r hr
  | _ => exact .of_same rfl rfl rfl rfl rfl

/-! ### Consumed rows -/

section Consumption
variable {op : MfaOp} {reply : op.Reply} {id codeHash : String} {now : Int}
  {c : MfaChallengeRecord} {r : MfaRecoveryCodeRecord}

/-- An operation changes the tables that it is about only. -/
structure Untouched (op : MfaOp) (w w' : MfaWorld) : Prop where
  challenges : (∀ id now, op ≠ .consumeChallenge id now) → w'.challenges = w.challenges
  recoveryCodes : (∀ codeHash now, op ≠ .consumeRecoveryCode codeHash now) →
    w'.recoveryCodes = w.recoveryCodes
  totpSecrets : (∀ secretId step, op ≠ .updateTotpLastStep secretId step) →
    w'.totpSecrets = w.totpSecrets

theorem Untouched.of_same {op : MfaOp} (hchallenges : w'.challenges = w.challenges)
    (hcodes : w'.recoveryCodes = w.recoveryCodes) (hsecrets : w'.totpSecrets = w.totpSecrets) :
    Untouched op w w' :=
  ⟨fun _ => hchallenges, fun _ => hcodes, fun _ => hsecrets⟩

theorem untouched_of_env {op : MfaOp} {reply : op.Reply} (henv : MfaWorld.env op w reply w') :
    Untouched op w w' := by
  obtain ⟨clock, decrypted, -, hanswer⟩ := henv
  obtain rfl : w' = _ := congrArg Prod.snd hanswer
  cases op with
  | enableFactor factorId =>
      change Untouched _ w (MfaWorld.enableFactor _ factorId).2
      rw [MfaWorld.enableFactor]
      split
      · exact .of_same rfl rfl rfl
      · exact .of_same rfl rfl rfl
  | updateTotpLastStep secretId step =>
      exact ⟨fun _ => rfl, fun _ => rfl, fun h => absurd rfl (h secretId step)⟩
  | updateWebauthnSignCount b64 newSignCount usedAt =>
      change Untouched _ w (MfaWorld.updateWebauthnSignCount _ b64 newSignCount usedAt).2
      rw [MfaWorld.updateWebauthnSignCount]
      split
      · exact .of_same rfl rfl rfl
      · split
        · exact .of_same rfl rfl rfl
        · exact .of_same rfl rfl rfl
  | consumeChallenge id now =>
      change Untouched _ w (MfaWorld.consumeChallenge _ id now).2
      rw [MfaWorld.consumeChallenge]
      split
      · exact .of_same rfl rfl rfl
      · exact ⟨fun h => absurd rfl (h id now), fun _ => rfl, fun _ => rfl⟩
  | consumeRecoveryCode codeHash now =>
      change Untouched _ w (MfaWorld.consumeRecoveryCode _ codeHash now).2
      rw [MfaWorld.consumeRecoveryCode]
      split
      · exact .of_same rfl rfl rfl
      · exact ⟨fun _ => rfl, fun h => absurd rfl (h codeHash now), fun _ => rfl⟩
  | _ => exact .of_same rfl rfl rfl

/-- A challenge is consumed when its row is not, and its row is marked. -/
theorem consumed_of_env (henv : MfaWorld.env (.consumeChallenge id now) w (some c) w') :
    ∃ stored, w.challenges.find? id = some stored ∧ stored.consumedAt = none ∧
      c = MfaWorld.consuming now stored ∧ w'.challenges.find? id = some c := by
  obtain ⟨clock, decrypted, -, hanswer⟩ := henv
  change (some c, w') = MfaWorld.consumeChallenge _ id now at hanswer
  rw [MfaWorld.consumeChallenge] at hanswer
  split at hanswer
  · cases hanswer
  · next stored hstored =>
      obtain ⟨hfound, hconsumable⟩ := Option.filter_eq_some_iff.mp hstored
      cases hanswer
      refine ⟨stored, hfound, ?_, rfl, ?_⟩
      · rw [MfaWorld.consumable, Bool.and_eq_true] at hconsumable
        exact Option.isNone_iff_eq_none.mp hconsumable.1
      · have hput := Table.find?_modify w.challenges id (MfaWorld.consuming now) (fun _ => rfl) id
        rw [if_pos rfl, hfound] at hput
        exact hput

/-- A consumed challenge stays as it is. -/
theorem find?_consumed_of_env (henv : MfaWorld.env op w reply w')
    (hfound : w.challenges.find? id = some c) (hconsumed : c.consumedAt.isSome = true) :
    w'.challenges.find? id = some c := by
  cases op with
  | consumeChallenge id' now =>
      obtain ⟨clock, decrypted, -, hanswer⟩ := henv
      obtain rfl : w' = _ := congrArg Prod.snd hanswer
      change (MfaWorld.consumeChallenge _ id' now).2.challenges.find? id = some c
      rw [MfaWorld.consumeChallenge]
      split
      · exact hfound
      · next stored hstored =>
          obtain ⟨hstored, hconsumable⟩ := Option.filter_eq_some_iff.mp hstored
          refine find?_modify_of_imp (by intro v; rfl) hfound ?_
          intro heq
          obtain rfl := Option.some.inj (hstored.symm.trans heq)
          rw [MfaWorld.consumable, Bool.and_eq_true, Option.isNone_iff_eq_none] at hconsumable
          rw [hconsumable.1] at hconsumed
          cases hconsumed
  | _ =>
      rw [(untouched_of_env henv).challenges nofun]
      exact hfound

theorem find?_of_unusedCode (h : w.unusedCode codeHash = some r) :
    w.recoveryCodes.find? r.codeId = some r ∧ r.consumedAt = none := by
  refine ⟨Table.mem_rows_iff.mp (List.mem_of_find?_eq_some h), ?_⟩
  have hmatch := List.find?_some h
  rw [Bool.and_eq_true] at hmatch
  exact Option.isNone_iff_eq_none.mp hmatch.2

/-- A recovery code is consumed when its row is not, and its row is marked. -/
theorem spent_of_env (henv : MfaWorld.env (.consumeRecoveryCode codeHash now) w (some r) w') :
    ∃ stored, w.recoveryCodes.find? r.codeId = some stored ∧ stored.consumedAt = none ∧
      r = MfaWorld.spending now stored ∧ w'.recoveryCodes.find? r.codeId = some r := by
  obtain ⟨clock, decrypted, -, hanswer⟩ := henv
  change (some r, w') = MfaWorld.consumeRecoveryCode _ codeHash now at hanswer
  rw [MfaWorld.consumeRecoveryCode] at hanswer
  split at hanswer
  · cases hanswer
  · next stored hstored =>
      obtain ⟨hfound, hunused⟩ := find?_of_unusedCode hstored
      cases hanswer
      refine ⟨stored, hfound, hunused, rfl, ?_⟩
      have hput := Table.find?_modify w.recoveryCodes stored.codeId (MfaWorld.spending now)
        (fun _ => rfl) stored.codeId
      rw [if_pos rfl, hfound] at hput
      exact hput

/-- A consumed recovery code stays as it is. -/
theorem find?_spent_of_env (henv : MfaWorld.env op w reply w')
    (hfound : w.recoveryCodes.find? id = some r) (hconsumed : r.consumedAt.isSome = true) :
    w'.recoveryCodes.find? id = some r := by
  cases op with
  | consumeRecoveryCode codeHash now =>
      obtain ⟨clock, decrypted, -, hanswer⟩ := henv
      obtain rfl : w' = _ := congrArg Prod.snd hanswer
      change (MfaWorld.consumeRecoveryCode _ codeHash now).2.recoveryCodes.find? id = some r
      rw [MfaWorld.consumeRecoveryCode]
      split
      · exact hfound
      · next stored hstored =>
          obtain ⟨hstored, hunused⟩ := find?_of_unusedCode hstored
          refine find?_modify_of_imp (by intro v; rfl) hfound ?_
          intro heq
          obtain rfl := Option.some.inj (hstored.symm.trans heq)
          rw [hunused] at hconsumed
          cases hconsumed
  | _ =>
      rw [(untouched_of_env henv).recoveryCodes nofun]
      exact hfound

end Consumption

/-! ### Time steps -/

/-- A write of a time step shows in the secret it is for. -/
theorem getTotpSecret_update (w : MfaWorld) (secretId factorId : String) (step : Int) :
    (w.updateTotpLastStep secretId step).getTotpSecretForFactor factorId =
      (w.getTotpSecretForFactor factorId).map fun s =>
        if s.secretId = secretId then { s with lastStep := some step } else s := by
  rw [MfaWorld.getTotpSecretForFactor, MfaWorld.updateTotpLastStep, Table.rows_modify,
    List.find?_map]
  refine congrArg _ (congrArg (List.find? · _) (funext fun s => ?_))
  rw [Function.comp_apply]
  split
  · rfl
  · rfl

/-- An operation keeps the last step of a factor's secret unless it writes it. -/
theorem getTotpSecret_of_env {op : MfaOp} {reply : op.Reply} (henv : MfaWorld.env op w reply w')
    {factorId : String} {s : TotpSecretRecord}
    (hs : w.getTotpSecretForFactor factorId = some s) :
    ∃ s', w'.getTotpSecretForFactor factorId = some s' ∧ s'.secretId = s.secretId ∧
      ((s'.lastStep = s.lastStep ∧ ∀ step, op ≠ .updateTotpLastStep s.secretId step) ∨
        ∃ step, op = .updateTotpLastStep s.secretId step ∧ s'.lastStep = some step) := by
  cases op with
  | updateTotpLastStep secretId step =>
      obtain ⟨clock, decrypted, -, hanswer⟩ := henv
      obtain rfl : w' = _ := congrArg Prod.snd hanswer
      have hread := getTotpSecret_update { w with clock := clock } secretId factorId step
      change _ = (w.getTotpSecretForFactor factorId).map _ at hread
      rw [hs, Option.map_some] at hread
      refine ⟨_, hread, ?_⟩
      split
      · next heq => exact ⟨rfl, .inr ⟨step, heq ▸ rfl, rfl⟩⟩
      · next hne =>
          refine ⟨rfl, .inl ⟨rfl, ?_⟩⟩
          rintro step' ⟨⟩
          exact hne rfl
  | _ =>
      refine ⟨s, ?_, rfl, .inl ⟨rfl, nofun⟩⟩
      rw [MfaWorld.getTotpSecretForFactor, (untouched_of_env henv).totpSecrets nofun]
      exact hs

end CopilotRuntime.Mfa
