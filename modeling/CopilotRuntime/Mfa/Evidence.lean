import CopilotRuntime.Mfa.Runs

/-!
# Evidence in a run

A challenge and a recovery code are consumed at most once. As long as users present
their own evidence and nobody stores the same or a later time step of a secret
between a verification's read and its write, so is a time step.
-/

namespace CopilotRuntime.Mfa

open Foundation
open AccountMerge (Account IdentityAuditEventRecord)

variable {config : MfaConfig} {library : MfaLibrary} {w₀ w w' : MfaWorld} {trace : List MfaEvent}
  {n : Nat} {owner : Account}

/-! ### Passkeys and recovery codes -/

section Parts
variable {own : List MfaEvent} {call : MfaCall}

theorem rejectAssertion_keeps (hstarted : .started n call ∈ own) (reason message : String) :
    Keeps w₀ n (fun result _ => ∀ f, result ≠ .ok f)
      (rejectAssertion call.owner reason message) own := by
  refine keeps_bind hstarted (audit_keeps hstarted _ _ _) ?_ fun _ _ _ => nofun
  exact fun _ _ _ _ _ => .raised fun _ => nofun

theorem acceptAssertion_keeps {stored : WebAuthnCredentialRecord} (newSignCount : Int)
    (hstarted : .started n call ∈ own)
    (howns : OwnsPasskey w₀ call.owner stored.credentialIdB64)
    (hfactor : OwnsFactor w₀ call.owner stored.factorId) :
    Keeps w₀ n (fun result _ => ∀ f, result = .ok f → OwnsFactor w₀ call.owner f.factorId)
      (acceptAssertion call.owner stored newSignCount) own := by
  refine keeps_await hstarted trivial fun _ now _ _ _ => ?_
  replace hstarted := List.mem_append_left [.performed n .now now] hstarted
  refine keeps_await hstarted howns fun _ ok _ _ _ => ?_
  replace hstarted := List.mem_append_left [.performed n
    (.updateWebauthnSignCount stored.credentialIdB64 newSignCount now) ok] hstarted
  cases ok with
  | false =>
      refine (rejectAssertion_keeps hstarted _ _).mono ?_
      exact fun result _ hrejected f hf => absurd hf (hrejected f)
  | true =>
      refine keeps_await hstarted trivial fun w factor w' _ henv => ?_
      replace hstarted := List.mem_append_left
        [.performed n (.getFactor stored.factorId) factor] hstarted
      cases factor with
      | none => exact .raised nofun
      | some factor =>
          obtain ⟨clock, decrypted, -, hanswer⟩ := henv
          have hfound : w.factors.find? stored.factorId = some factor :=
            (congrArg Prod.fst hanswer).symm
          have hid : factor.factorId = stored.factorId := Table.key_of_find? hfound
          rw [← hid] at hfactor
          refine keeps_await hstarted trivial fun _ now _ _ _ => ?_
          replace hstarted := List.mem_append_left [.performed n .now now] hstarted
          refine keeps_await hstarted hfactor fun _ touched _ _ _ => ?_
          change Keeps w₀ n _ (audit _ _ _ >>= fun _ => .done factor) _
          refine keeps_bind (List.mem_append_left _ hstarted)
            (audit_keeps (List.mem_append_left _ hstarted) _ _ _) ?_ fun _ _ => nofun
          intro _ _ _ _ _
          refine .done fun f hf => ?_
          obtain rfl := Except.ok.inj hf
          exact hfactor

theorem checkAssertion_keeps {stored : WebAuthnCredentialRecord} {b64 : String}
    (hstarted : .started n call ∈ own) (hfixed : Fixed w₀ w)
    (hfound : w.getWebauthnCredentialByB64 b64 = some stored) (challenge : MfaChallengeRecord)
    (rpId : String) (assertion : Json) (expectedOrigin : String) :
    Keeps w₀ n (fun result _ => ∀ f, result = .ok f → OwnsFactor w₀ call.owner f.factorId)
      (checkAssertion library call.owner challenge rpId assertion expectedOrigin stored) own := by
  refine keeps_await hstarted trivial fun w' owned w'' hfixed' henv => ?_
  replace hstarted := List.mem_append_left
    [.performed n (.listWebauthnCredentialsForUser call.owner) owned] hstarted
  change Keeps w₀ n _ (ite (owned.any _ = true) _ _) _
  split
  · next hany =>
      obtain ⟨c, hmem, hid⟩ := List.any_eq_true.mp hany
      rw [decide_eq_true_eq] at hid
      obtain ⟨clock, decrypted, -, hanswer⟩ := henv
      obtain rfl : owned = _ := congrArg Prod.fst hanswer
      obtain ⟨hpasskey, hfactor⟩ := ownsPasskey_of_fixed (hfixed.symm.trans hfixed') hfound hmem hid
      rw [hfixed'.ownsPasskey_iff] at hpasskey
      rw [hfixed'.ownsFactor_iff] at hfactor
      split
      · refine (rejectAssertion_keeps hstarted _ _).mono ?_
        exact fun result _ hrejected f hf => absurd hf (hrejected f)
      · exact acceptAssertion_keeps _ hstarted hpasskey hfactor
  · exact .raised nofun

theorem verifyWebauthnChallenge_keeps (hstarted : .started n call ∈ own) (challengeId : String)
    (assertion : Json) (expectedOrigin : String) :
    Keeps w₀ n
      (fun result events => ∀ f, result = .ok f →
        HasConsumed n call.owner .webauthn challengeId events ∧
          OwnsFactor w₀ call.owner f.factorId)
      (verifyWebauthnChallenge library call.owner challengeId assertion expectedOrigin) own := by
  refine keeps_bind hstarted (consumeFor_keeps hstarted .webauthn challengeId) ?_ fun _ _ => nofun
  intro challenge events hstarted _ hconsumed
  replace hconsumed := hconsumed challenge rfl
  cases relyingParty challenge with
  | error e => exact .raised nofun
  | ok rpId =>
      cases library.rawId assertion with
      | error message => exact .raised nofun
      | ok rawId =>
          refine keeps_await hstarted trivial fun w stored w' hfixed henv => ?_
          replace hstarted := List.mem_append_left
            [.performed n (.getWebauthnCredentialByB64 rawId) stored] hstarted
          replace hconsumed := hconsumed.mono (List.subset_append_left events
            [.performed n (.getWebauthnCredentialByB64 rawId) stored])
          cases stored with
          | none => exact .raised nofun
          | some stored =>
              obtain ⟨clock, decrypted, -, hanswer⟩ := henv
              have hfound : w.getWebauthnCredentialByB64 rawId = some stored :=
                (congrArg Prod.fst hanswer).symm
              refine (checkAssertion_keeps hstarted hfixed hfound challenge rpId assertion
                expectedOrigin).and_extends.mono ?_
              rintro result later ⟨hpost, hlater⟩ f rfl
              exact ⟨hconsumed.mono hlater.subset, hpost f rfl⟩

theorem consumeRecoveryCode_keeps (hstarted : .started n call ∈ own) (code : String) :
    Keeps w₀ n
      (fun result events => ∀ r, result = .ok r → r.owner = call.owner ∧
        ∃ now, .performed n (.consumeRecoveryCode (library.sha256 code) now) (some r) ∈ events)
      (consumeRecoveryCode library call.owner code) own := by
  refine keeps_await hstarted trivial fun _ now _ _ _ => ?_
  replace hstarted := List.mem_append_left [.performed n .now now] hstarted
  refine keeps_await hstarted trivial fun _ record _ _ _ => ?_
  replace hstarted := List.mem_append_left
    [.performed n (.consumeRecoveryCode (library.sha256 code) now) record] hstarted
  have hmem : Event.performed n (MfaOp.consumeRecoveryCode (library.sha256 code) now) record ∈
      own ++ [Event.performed n MfaOp.now now] ++
        [Event.performed n (MfaOp.consumeRecoveryCode (library.sha256 code) now) record] :=
    List.mem_append_right _ (List.mem_singleton.mpr rfl)
  rw [Program.bind]
  split
  · refine keeps_bind hstarted (audit_keeps hstarted _ _ _) ?_ fun _ _ _ h => by cases h
    exact fun _ _ _ _ _ => .raised fun _ h => by cases h
  · next r hr =>
      obtain ⟨rfl, howner⟩ := Option.filter_eq_some_iff.mp hr
      refine keeps_bind hstarted (audit_keeps hstarted _ _ _) ?_ fun _ _ _ h => by cases h
      intro _ later _ hlater _
      refine .done fun r' hr' => ?_
      obtain rfl := Except.ok.inj hr'
      exact ⟨of_decide_eq_true howner, now, hlater.subset hmem⟩

end Parts

/-! ### Whole calls -/

/-- What the events of a call say about the value it returns. -/
def Confirmed (library : MfaLibrary) (w₀ : MfaWorld) (n : Nat) (events : List MfaEvent) :
    MfaCall → MfaResult → Prop
  | .verifyTotp owner challengeId _, .factor f =>
      HasConsumed n owner .totp challengeId events ∧ OwnsFactor w₀ owner f.factorId ∧
        ∃ step, UsesStep n f.factorId step events
  | .verifyWebauthn owner challengeId _ _, .factor f =>
      HasConsumed n owner .webauthn challengeId events ∧ OwnsFactor w₀ owner f.factorId
  | .consumeRecoveryCode owner code, .recoveryCode r => r.owner = owner ∧
      ∃ now, .performed n (.consumeRecoveryCode (library.sha256 code) now) (some r) ∈ events
  | .confirmTotp owner factorId _, .factor _ =>
      OwnsFactor w₀ owner factorId ∧ ∃ step, UsesStep n factorId step events
  | _, _ => False

/-- A call that returns has events that say what they do about the value. -/
def Ending (library : MfaLibrary) (w₀ : MfaWorld) (n : Nat) (result : Except MfaError MfaResult)
    (events : List MfaEvent) : Prop :=
  ∀ value, result = .ok value → ∃ call, .started n call ∈ events ∧
    Confirmed library w₀ n events call value

theorem body_keeps (call : MfaCall) :
    Keeps w₀ n (Ending library w₀ n) (call.body config library) [.started n call] := by
  have hstarted : .started n call ∈ [(.started n call : MfaEvent)] := List.mem_cons_self
  cases call with
  | verifyTotp owner challengeId code =>
      refine keeps_bind hstarted (verifyTotpChallenge_keeps hstarted challengeId code) ?_
        fun _ _ _ => nofun
      intro f events hstarted _ hpost
      refine .done fun value hvalue => ⟨_, hstarted, ?_⟩
      obtain rfl := Except.ok.inj hvalue
      exact hpost f rfl
  | verifyWebauthn owner challengeId assertion expectedOrigin =>
      refine keeps_bind hstarted (verifyWebauthnChallenge_keeps hstarted challengeId assertion
        expectedOrigin) ?_ fun _ _ _ => nofun
      intro f events hstarted _ hpost
      refine .done fun value hvalue => ⟨_, hstarted, ?_⟩
      obtain rfl := Except.ok.inj hvalue
      exact hpost f rfl
  | consumeRecoveryCode owner code =>
      refine keeps_bind hstarted (consumeRecoveryCode_keeps hstarted code) ?_ fun _ _ _ => nofun
      intro r events hstarted _ hpost
      refine .done fun value hvalue => ⟨_, hstarted, ?_⟩
      obtain rfl := Except.ok.inj hvalue
      exact hpost r rfl
  | confirmTotp owner factorId code =>
      refine keeps_bind hstarted (confirmTotp_keeps hstarted factorId code) ?_ fun _ _ _ => nofun
      intro f events hstarted _ hpost
      refine .done fun value hvalue => ⟨_, hstarted, ?_⟩
      obtain rfl := Except.ok.inj hvalue
      exact hpost f rfl

theorem mfaVerified (w₀ : MfaWorld) :
    Verified (MfaCall.body config library) MfaWorld.env (Kept w₀) (Ending library w₀) w₀ where
  init := kept_nil w₀
  started _ _ _ _ h _ := h.other fun _ _ _ => Event.started_ne_performed
  body_safe _ call := body_keeps call
  stopped _ _ _ h := h.other fun _ _ _ => Event.stopped_ne_performed

theorem Confirmed.mono {events : List MfaEvent} {call : MfaCall} {value : MfaResult}
    (h : Confirmed library w₀ n events call value) (hsub : events ⊆ trace) :
    Confirmed library w₀ n trace call value := by
  cases value with
  | factor f =>
      cases call with
      | verifyTotp owner challengeId code =>
          obtain ⟨hconsumed, howns, step, huses⟩ := h
          exact ⟨hconsumed.mono hsub, howns, step, huses.mono hsub⟩
      | verifyWebauthn owner challengeId assertion expectedOrigin =>
          exact ⟨h.1.mono hsub, h.2⟩
      | consumeRecoveryCode owner code => exact h.elim
      | confirmTotp owner factorId code =>
          obtain ⟨howns, step, huses⟩ := h
          exact ⟨howns, step, huses.mono hsub⟩
  | recoveryCode r =>
      cases call with
      | consumeRecoveryCode owner code =>
          obtain ⟨howner, now, hspent⟩ := h
          exact ⟨howner, now, hsub hspent⟩
      | _ => exact h.elim

/-! ### Clean steps -/

/-- A user presents no challenge and no recovery code of another user, and a verification stores a
step that is past all that were stored in the secret since it has read it. -/
def Clean (trace : List MfaEvent) (w : MfaWorld) : MfaEvent → Prop
  | .performed n (.consumeChallenge challengeId now) _ => ∀ call, .started n call ∈ trace →
      Entitled w call.owner (.consumeChallenge challengeId now)
  | .performed n (.consumeRecoveryCode codeHash now) _ => ∀ call, .started n call ∈ trace →
      Entitled w call.owner (.consumeRecoveryCode codeHash now)
  | .performed n (.updateTotpLastStep secretId step) _ => ∀ before factorId s after,
      trace = before ++ ReadsSecret n factorId s :: after → s.secretId = secretId →
        ∀ event ∈ after, ∀ step', Takes secretId step' event → step' < step
  | _ => True

section Steps
variable {op : MfaOp} {reply : op.Reply} {factorId : String} {step : Int}

/-- The last step of a factor's secret is at the step or past it. -/
def Reached (w : MfaWorld) (factorId : String) (step : Int) : Prop :=
  ∃ s last, w.getTotpSecretForFactor factorId = some s ∧ s.lastStep = some last ∧ step ≤ last

theorem eq_of_secretId {factorId' : String} {s s' : TotpSecretRecord}
    (h : w.getTotpSecretForFactor factorId = some s)
    (h' : w.getTotpSecretForFactor factorId' = some s') (hid : s.secretId = s'.secretId) : s = s' :=
  Table.eq_of_mem_rows (List.mem_of_find?_eq_some h) (List.mem_of_find?_eq_some h') hid

/-- A step is stored in a secret whose last step lies before it. -/
theorem lastStep_lt {secretId : String} {reply : Unit} (hkept : Kept w₀ trace w)
    (hbacked : Backed w₀ trace (.performed n (.updateTotpLastStep secretId step) reply))
    (hclean : Clean trace w (.performed n (.updateTotpLastStep secretId step) reply))
    {s : TotpSecretRecord} (hs : w.getTotpSecretForFactor factorId = some s)
    (hid : s.secretId = secretId) : ∀ last, s.lastStep = some last → last < step := by
  obtain ⟨call, -, -, factorId', read, hread, hreadId, hreplayed⟩ := hbacked
  obtain ⟨before, after, rfl⟩ := List.append_of_mem hread
  obtain ⟨s', hs', hid', hlast⟩ := hkept.tracked before n factorId' read after rfl
  obtain rfl := eq_of_secretId hs hs' (hid.trans (hid'.trans hreadId).symm)
  intro last hsome
  obtain hsame | ⟨step', hstep', event, hevent, htakes⟩ := hlast
  · rw [replayed, ← hsame, hsome] at hreplayed
    have hlt : ¬ step ≤ last := of_decide_eq_false hreplayed
    omega
  · obtain rfl : step' = last := Option.some.inj (hstep'.symm.trans hsome)
    exact hclean before factorId' read after rfl hreadId event hevent step' (hreadId ▸ htakes)

/-- The last step of a secret does not decrease. -/
theorem lastStep_le_of_env (henv : MfaWorld.env op w reply w') (hkept : Kept w₀ trace w)
    (hbacked : Backed w₀ trace (.performed n op reply))
    (hclean : Clean trace w (.performed n op reply)) {s : TotpSecretRecord}
    (hs : w.getTotpSecretForFactor factorId = some s) :
    ∃ s', w'.getTotpSecretForFactor factorId = some s' ∧
      ∀ last, s.lastStep = some last → ∃ last', s'.lastStep = some last' ∧ last ≤ last' := by
  obtain ⟨s', hs', -, hlast⟩ := getTotpSecret_of_env henv hs
  refine ⟨s', hs', fun last hsome => ?_⟩
  obtain ⟨hsame, -⟩ | ⟨step, rfl, hstep⟩ := hlast
  · exact ⟨last, hsame.trans hsome, Int.le_refl last⟩
  · exact ⟨step, hstep, Int.le_of_lt (lastStep_lt hkept hbacked hclean hs rfl last hsome)⟩

theorem reached_of_env (henv : MfaWorld.env op w reply w') (hkept : Kept w₀ trace w)
    (hbacked : Backed w₀ trace (.performed n op reply))
    (hclean : Clean trace w (.performed n op reply)) (h : Reached w factorId step) :
    Reached w' factorId step := by
  obtain ⟨s, last, hs, hsome, hle⟩ := h
  obtain ⟨s', hs', hmono⟩ := lastStep_le_of_env henv hkept hbacked hclean hs
  obtain ⟨last', hsome', hle'⟩ := hmono last hsome
  exact ⟨s', last', hs', hsome', hle.trans hle'⟩

/-- A step that is stored is reached from then on and was not before. -/
theorem reached_of_takes {s : TotpSecretRecord} {reply : Unit}
    (henv : MfaWorld.env (.updateTotpLastStep s.secretId step) w reply w')
    (hkept : Kept w₀ trace w)
    (hbacked : Backed w₀ trace (.performed n (.updateTotpLastStep s.secretId step) reply))
    (hclean : Clean trace w (.performed n (.updateTotpLastStep s.secretId step) reply))
    (hs : w.getTotpSecretForFactor factorId = some s) :
    ¬ Reached w factorId step ∧ Reached w' factorId step := by
  constructor
  · rintro ⟨t, last, ht, hsome, hle⟩
    obtain rfl := Option.some.inj (hs.symm.trans ht)
    have hlt := lastStep_lt hkept hbacked hclean hs rfl last hsome
    omega
  · obtain ⟨s', hs', -, ⟨-, hother⟩ | ⟨step', heq, hstep'⟩⟩ := getTotpSecret_of_env henv hs
    · exact absurd rfl (hother step)
    · obtain rfl : step = step' := by
        injection heq
      exact ⟨s', step, hs', hstep', Int.le_refl step⟩

/-- A clean operation leaves the rows of other users as they are. -/
theorem sparesOthers_of_clean {call : MfaCall} (henv : MfaWorld.env op w reply w')
    (hkept : Kept w₀ trace w) (hrests : Rests w₀ n call.owner trace op)
    (hstarted : .started n call ∈ trace) (hclean : Clean trace w (.performed n op reply)) :
    SparesOthers call.owner w w' := by
  apply sparesOthers_of_env henv
  cases op with
  | consumeChallenge challengeId now => exact hclean call hstarted
  | consumeRecoveryCode codeHash now => exact hclean call hstarted
  | updateTotpLastStep secretId step =>
      exact (hkept.fixed.ownsSecret_iff call.owner secretId).mpr hrests.1
  | touchFactor factorId usedAt =>
      exact (hkept.fixed.ownsFactor_iff call.owner factorId).mpr hrests
  | enableFactor factorId =>
      exact (hkept.fixed.ownsFactor_iff call.owner factorId).mpr hrests
  | updateWebauthnSignCount b64 newSignCount usedAt =>
      exact (hkept.fixed.ownsPasskey_iff call.owner b64).mpr hrests
  | _ => exact trivial

end Steps

end CopilotRuntime.Mfa
