import CopilotRuntime.Mfa.Evidence

/-!
# Single use of evidence

What one step preserves gives what whole runs preserve: a consumption is a mark on
a row that is never taken back, and in clean runs so is a time step.
-/

namespace CopilotRuntime.Mfa

open Foundation
open AccountMerge (Account IdentityAuditEventRecord)

variable {config : MfaConfig} {library : MfaLibrary} {w₀ : MfaWorld} {n : Nat}
  {c c' : List MfaEvent × MfaPool}

/-- A step of a run in which users present their own evidence and no verification stores a step
after another one stored the same or a later step since it read the secret. -/
abbrev CleanStep (config : MfaConfig) (library : MfaLibrary) :
    List MfaEvent × MfaPool → List MfaEvent × MfaPool → Prop :=
  Advances (MfaCall.body config library) MfaWorld.env Clean

/-- The runs whose steps are all clean. -/
abbrev CleanRun (config : MfaConfig) (library : MfaLibrary) :
    List MfaEvent × MfaPool → List MfaEvent × MfaPool → Prop :=
  Relation.ReflTransGen (CleanStep config library)

section Kept

theorem kept_of_cleanRun (h : CleanRun config library ([], Pool.initial w₀) c) :
    Kept w₀ c.1 c.2.shared :=
  (Run.nil.of_advances h).invariant (mfaVerified w₀)

/-- What a task has returned is confirmed by the events. -/
theorem confirmed_of_done (h : CleanRun config library ([], Pool.initial w₀) c) {call : MfaCall}
    {value : MfaResult} (hstarted : .started n call ∈ c.1)
    (hdone : c.2.tasks n = some (.done value)) : Confirmed library w₀ n c.1 call value := by
  have hrun := Run.nil.of_advances h
  have hsafe := (hrun.safe (mfaVerified w₀)).2 n _ hdone
  have hsub : ownEvents n c.1 ⊆ c.1 := fun event hevent => (mem_ownEvents.mp hevent).1
  cases hsafe with
  | done holds =>
      obtain ⟨call', hstarted', hconfirmed⟩ := holds value rfl
      obtain rfl := hrun.started_unique hstarted (hsub hstarted')
      exact hconfirmed.mono hsub

end Kept

/-! ### Consumptions -/

section Consumptions
variable (h : CleanRun config library ([], Pool.initial w₀) c)
include h

theorem challenge_consumed_once (challengeId : String) :
    AtMostOnce (fun e => ∃ n now record,
      e = .performed n (.consumeChallenge challengeId now) (some record)) c.1 := by
  refine atMostOnce_of_advances (D := fun w => ∃ record,
    w.challenges.find? challengeId = some record ∧ record.consumedAt.isSome = true) ?_ h
  intro trace pool event next _ step _
  cases step with
  | start call => exact ⟨nofun, id⟩
  | stop running => exact ⟨nofun, id⟩
  | perform running effect =>
      refine ⟨?_, fun ⟨record, hfound, hconsumed⟩ => ?_⟩
      · rintro ⟨m, now, record, heq⟩
        cases heq
        obtain ⟨stored, hstored, hopen, rfl, hfound⟩ := consumed_of_env effect
        refine ⟨?_, MfaWorld.consuming now stored, hfound, rfl⟩
        rintro ⟨record, hrecord, hconsumed⟩
        obtain rfl := Option.some.inj (hstored.symm.trans hrecord)
        rw [hopen] at hconsumed
        cases hconsumed
      · exact ⟨record, find?_consumed_of_env effect hfound hconsumed, hconsumed⟩

theorem recoveryCode_consumed_once (codeId : String) :
    AtMostOnce (fun e => ∃ n codeHash now record,
      e = .performed n (.consumeRecoveryCode codeHash now) (some record) ∧
        record.codeId = codeId) c.1 := by
  refine atMostOnce_of_advances (D := fun w => ∃ record,
    w.recoveryCodes.find? codeId = some record ∧ record.consumedAt.isSome = true) ?_ h
  intro trace pool event next _ step _
  cases step with
  | start call => exact ⟨nofun, id⟩
  | stop running => exact ⟨nofun, id⟩
  | perform running effect =>
      refine ⟨?_, fun ⟨record, hfound, hconsumed⟩ => ?_⟩
      · rintro ⟨m, codeHash, now, record, heq, rfl⟩
        cases heq
        obtain ⟨stored, hstored, hopen, hspent, hfound⟩ := spent_of_env effect
        refine ⟨?_, record, hfound, hspent ▸ rfl⟩
        rintro ⟨record', hrecord, hconsumed⟩
        obtain rfl := Option.some.inj (hstored.symm.trans hrecord)
        rw [hopen] at hconsumed
        cases hconsumed
      · exact ⟨record, find?_spent_of_env effect hfound hconsumed, hconsumed⟩

/-- No two tasks have consumed one challenge, and its stored row belongs to the user. -/
theorem hasConsumed_unique {owner : Account} {kind : MfaChallengeKind} {challengeId : String}
    (hconsumed : HasConsumed n owner kind challengeId c.1) :
    (∃ stored, c.2.shared.challenges.find? challengeId = some stored ∧ stored.owner = owner) ∧
      ∀ n' owner' kind', HasConsumed n' owner' kind' challengeId c.1 → n' = n := by
  obtain ⟨now, record, hmem, howner, -⟩ := hconsumed
  refine ⟨⟨record, ((kept_of_cleanRun h).spent.challenges n _ _ _ hmem).1, howner⟩, ?_⟩
  rintro n' owner' kind' ⟨now', record', hmem', -⟩
  have heq := (challenge_consumed_once h challengeId).eq hmem' hmem ⟨n', now', record', rfl⟩
    ⟨n, now, record, rfl⟩
  exact congrArg Event.task heq

end Consumptions

/-! ### Time steps -/

section TimeSteps
variable (h : CleanRun config library ([], Pool.initial w₀) c)
include h

theorem step_taken_once {factorId : String} {s₀ : TotpSecretRecord}
    (hs₀ : w₀.getTotpSecretForFactor factorId = some s₀) (step : Int) :
    AtMostOnce (Takes s₀.secretId step) c.1 := by
  refine atMostOnce_of_advances (D := fun w => Reached w factorId step) ?_ h
  intro trace pool event next run hstep hclean
  have hkept := run.invariant (mfaVerified w₀)
  have hbacked := ((run.snoc hstep).invariant (mfaVerified w₀)).backed
  rw [eachAfter_snoc] at hbacked
  cases hstep with
  | start call => exact ⟨nofun, id⟩
  | stop running => exact ⟨nofun, id⟩
  | perform running effect =>
      refine ⟨?_, reached_of_env effect hkept hbacked.2 hclean⟩
      rintro ⟨m, reply, heq⟩
      cases heq
      have hfixed := hkept.fixed.totpSecret factorId
      rw [hs₀] at hfixed
      obtain ⟨s, hs, hsame⟩ := Option.map_eq_some_iff.mp hfixed
      have hid : s.secretId = s₀.secretId := congrArg Prod.fst hsame
      rw [← hid] at effect hbacked hclean
      exact reached_of_takes effect hkept hbacked.2 hclean hs

/-- A secret that was read for a factor is the one that it had from the beginning. -/
theorem secret_of_read {factorId : String} {s : TotpSecretRecord}
    (hread : ReadsSecret n factorId s ∈ c.1) :
    (∃ s₀, w₀.getTotpSecretForFactor factorId = some s₀ ∧ s₀.secretId = s.secretId) ∧
      ∃ s', c.2.shared.getTotpSecretForFactor factorId = some s' ∧ s'.secretId = s.secretId := by
  have hkept := kept_of_cleanRun h
  obtain ⟨before, after, hsplit⟩ := List.append_of_mem hread
  obtain ⟨s', hs', hid, -⟩ := hkept.tracked before n factorId s after hsplit
  have hfixed := hkept.fixed.totpSecret factorId
  rw [hs'] at hfixed
  obtain ⟨s₀, hs₀, hsame⟩ := Option.map_eq_some_iff.mp hfixed.symm
  have hid₀ : s₀.secretId = s'.secretId := congrArg Prod.fst hsame
  exact ⟨⟨s₀, hs₀, hid₀.trans hid⟩, s', hs', hid⟩

/-- No two tasks have taken one step of a factor, and the factor belongs to the user. -/
theorem usesStep_unique {call : MfaCall} (hstarted : .started n call ∈ c.1) {factorId : String}
    {step : Int} (huses : UsesStep n factorId step c.1) :
    OwnsFactor c.2.shared call.owner factorId ∧
      ∀ n', UsesStep n' factorId step c.1 → n' = n := by
  have hkept := kept_of_cleanRun h
  obtain ⟨s, reply, hread, htaken⟩ := huses
  obtain ⟨⟨s₀, hs₀, hid₀⟩, s', hs', hid'⟩ := secret_of_read h hread
  constructor
  · obtain ⟨earlier, later, hsplit⟩ := List.append_of_mem htaken
    obtain ⟨call', hstarted', howns, -⟩ := hkept.backed earlier _ later hsplit
    have hmem : .started n call' ∈ c.1 := hsplit ▸ List.mem_append_left _ hstarted'
    obtain rfl := (Run.nil.of_advances h).started_unique hstarted hmem
    obtain ⟨factorId', t, hfactor, ht, hidt⟩ :=
      (hkept.fixed.ownsSecret_iff call.owner s.secretId).mpr howns
    obtain rfl := eq_of_secretId hs' ht (hid'.trans hidt.symm)
    have hkey : s'.factorId = factorId := by simpa using List.find?_some hs'
    have hkey' : s'.factorId = factorId' := by simpa using List.find?_some ht
    rwa [← hkey, hkey']
  · rintro n' ⟨r, reply', hread', htaken'⟩
    obtain ⟨⟨r₀, hr₀, hidr⟩, -⟩ := secret_of_read h hread'
    obtain rfl := Option.some.inj (hs₀.symm.trans hr₀)
    rw [← hidr] at htaken'
    rw [← hid₀] at htaken
    have heq := (step_taken_once h hs₀ step).eq htaken' htaken ⟨n', reply', rfl⟩ ⟨n, reply, rfl⟩
    exact congrArg Event.task heq

/-- The last step of a factor does not decrease over any number of clean steps. -/
theorem lastStep_le_of_cleanRun (hlater : CleanRun config library c c') {factorId : String}
    {s : TotpSecretRecord} (hs : c.2.shared.getTotpSecretForFactor factorId = some s) :
    ∃ s', c'.2.shared.getTotpSecretForFactor factorId = some s' ∧
      ∀ last, s.lastStep = some last → ∃ last', s'.lastStep = some last' ∧ last ≤ last' := by
  induction hlater with
  | refl => exact ⟨s, hs, fun last hsome => ⟨last, hsome, Int.le_refl last⟩⟩
  | @tail d d' hsteps hstep ih =>
      obtain ⟨s₁, hs₁, hmono₁⟩ := ih
      obtain ⟨trace', next⟩ := d'
      obtain ⟨event, htrace, step, hclean⟩ := hstep
      have hrun := Run.nil.of_advances (h.trans hsteps)
      have hkept := hrun.invariant (mfaVerified w₀)
      have hbacked := ((hrun.snoc step).invariant (mfaVerified w₀)).backed
      rw [eachAfter_snoc] at hbacked
      cases step with
      | start call => exact ⟨s₁, hs₁, hmono₁⟩
      | stop running => exact ⟨s₁, hs₁, hmono₁⟩
      | perform running effect =>
          obtain ⟨s₂, hs₂, hmono₂⟩ := lastStep_le_of_env effect hkept hbacked.2 hclean hs₁
          refine ⟨s₂, hs₂, fun last hsome => ?_⟩
          obtain ⟨last₁, hsome₁, hle₁⟩ := hmono₁ last hsome
          obtain ⟨last₂, hsome₂, hle₂⟩ := hmono₂ last₁ hsome₁
          exact ⟨last₂, hsome₂, hle₁.trans hle₂⟩

/-- A clean step of a user's call leaves the rows of other users as they are. -/
theorem sparesOthers_of_cleanStep (hstep : CleanStep config library c c') {event : MfaEvent}
    {call : MfaCall} (htrace : c'.1 = c.1 ++ [event]) (hstarted : .started event.task call ∈ c.1) :
    SparesOthers call.owner c.2.shared c'.2.shared := by
  obtain ⟨trace', next⟩ := c'
  obtain ⟨event', htrace', step, hclean⟩ := hstep
  obtain rfl : event = event' := by
    have heq := htrace.symm.trans htrace'
    rw [List.append_cancel_left_eq] at heq
    exact List.singleton_inj.mp heq
  have hrun := Run.nil.of_advances h
  have hbacked := ((hrun.snoc step).invariant (mfaVerified w₀)).backed
  rw [eachAfter_snoc] at hbacked
  cases step with
  | start call' => exact .of_same rfl rfl rfl rfl rfl
  | stop running => exact .of_same rfl rfl rfl rfl rfl
  | perform running effect =>
      obtain ⟨call', hstarted', hrests⟩ := hbacked.2
      obtain rfl := hrun.started_unique hstarted hstarted'
      exact sparesOthers_of_clean effect (kept_of_cleanRun h) hrests hstarted hclean

end TimeSteps

/-! ### Single use -/

/-- The challenge that a call answers. -/
def MfaCall.challenge? : MfaCall → Option String
  | verifyTotp _ challengeId _ | verifyWebauthn _ challengeId _ _ => some challengeId
  | _ => none

/-- Whether a call is about a TOTP code. -/
def MfaCall.isTotp : MfaCall → Bool
  | verifyTotp _ _ _ | confirmTotp _ _ _ => true
  | _ => false

/-- The task of a call has returned the value. -/
def Succeeds (c : List MfaEvent × MfaPool) (n : Nat) (call : MfaCall) (value : MfaResult) : Prop :=
  .started n call ∈ c.1 ∧ c.2.tasks n = some (.done value)

section Successes
variable (h : CleanRun config library ([], Pool.initial w₀) c) {call : MfaCall} {value : MfaResult}
  (hsucceeds : Succeeds c n call value)
include h hsucceeds

theorem hasConsumed_of_succeeds {challengeId : String}
    (hchallenge : call.challenge? = some challengeId) :
    ∃ kind, HasConsumed n call.owner kind challengeId c.1 := by
  have hconfirmed := confirmed_of_done h hsucceeds.1 hsucceeds.2
  cases call with
  | verifyTotp owner id code =>
      obtain rfl := Option.some.inj hchallenge
      cases value with
      | factor f => exact ⟨_, hconfirmed.1⟩
      | recoveryCode r => exact hconfirmed.elim
  | verifyWebauthn owner id assertion expectedOrigin =>
      obtain rfl := Option.some.inj hchallenge
      cases value with
      | factor f => exact ⟨_, hconfirmed.1⟩
      | recoveryCode r => exact hconfirmed.elim
  | consumeRecoveryCode owner code => cases hchallenge
  | confirmTotp owner factorId code => cases hchallenge

theorem usesStep_of_succeeds (htotp : call.isTotp = true) :
    ∃ factorId step, UsesStep n factorId step c.1 := by
  have hconfirmed := confirmed_of_done h hsucceeds.1 hsucceeds.2
  cases call with
  | verifyTotp owner id code =>
      cases value with
      | factor f => exact ⟨_, hconfirmed.2.2⟩
      | recoveryCode r => exact hconfirmed.elim
  | confirmTotp owner factorId code =>
      cases value with
      | factor f => exact ⟨_, hconfirmed.2⟩
      | recoveryCode r => exact hconfirmed.elim
  | verifyWebauthn owner id assertion expectedOrigin => cases htotp
  | consumeRecoveryCode owner code => cases htotp

end Successes

theorem recoveryCode_of_succeeds (h : CleanRun config library ([], Pool.initial w₀) c)
    {owner : Account} {code : String} {value : MfaResult}
    (hsucceeds : Succeeds c n (.consumeRecoveryCode owner code) value) :
    ∃ r, value = .recoveryCode r ∧ r.owner = owner ∧
      c.2.shared.recoveryCodes.find? r.codeId = some r ∧
      ∀ n' owner' code' r', Succeeds c n' (.consumeRecoveryCode owner' code') (.recoveryCode r') →
        r'.codeId = r.codeId → n' = n := by
  have hconfirmed := confirmed_of_done h hsucceeds.1 hsucceeds.2
  cases value with
  | factor f => exact hconfirmed.elim
  | recoveryCode r =>
      obtain ⟨howner, now, hspent⟩ := hconfirmed
      refine ⟨r, rfl, howner, ((kept_of_cleanRun h).spent.recoveryCodes n _ _ _ hspent).1, ?_⟩
      intro n' owner' code' r' hsucceeds' hid
      obtain ⟨-, now', hspent'⟩ := confirmed_of_done h hsucceeds'.1 hsucceeds'.2
      have heq := (recoveryCode_consumed_once h r.codeId).eq hspent' hspent
        ⟨n', _, now', r', rfl, hid⟩ ⟨n, _, now, r, rfl, rfl⟩
      exact congrArg Event.task heq

namespace Sample

def alice : Account := ⟨"org-1", "alice"⟩

def mallory : Account := ⟨"org-1", "mallory"⟩

def factor : MfaFactorRecord where
  factorId := "factor-1"
  owner := alice
  kind := .totp
  displayName := "phone"
  enabled := true
  enrolledAt := 0

def secret : TotpSecretRecord where
  secretId := "secret-1"
  factorId := "factor-1"
  encryptedSecret := "seed"

def challenge (challengeId : String) : MfaChallengeRecord where
  challengeId := challengeId
  owner := alice
  kind := .totp
  nonce := "nonce"
  expiresAt := 300 * second

def recoveryCode : MfaRecoveryCodeRecord where
  codeId := "code-1"
  owner := alice
  codeHash := "hash"

/-- A user with one TOTP factor, two challenges and one recovery code. -/
def world : MfaWorld where
  clock := 0
  factors := Table.empty.put factor
  totpSecrets := Table.empty.put secret
  webauthn := Table.empty
  challenges := (Table.empty.put (challenge "ch-1")).put (challenge "ch-2")
  recoveryCodes := Table.empty.put recoveryCode
  audits := []

/-- Two time steps show a code; texts are their own hashes. -/
def algorithms : MfaLibrary where
  totpAt _ step := if step = 0 then "000000" else if step = 1 then "111111" else ""
  rawId _ := .error "malformed"
  verifyAuthentication _ _ _ _ _ _ := .error "rejected"
  sha256 := id

def verify (owner : Account) (challengeId code : String) : MfaCall :=
  .verifyTotp owner challengeId code

def play (moves : List (Move MfaCall)) : List MfaEvent × MfaPool :=
  Pool.play MfaWorld.atOnce (MfaCall.body {} algorithms) world moves

/-- One verification alone. -/
def alone : List (Move MfaCall) :=
  .start (verify alice "ch-1" "000000") :: List.replicate 10 (.perform 0)

/-- Another verification runs to its end when one is about to store its step. -/
def overtaken (code : String) : List (Move MfaCall) :=
  .start (verify alice "ch-1" "000000") :: .start (verify alice "ch-2" code) ::
    List.replicate 6 (.perform 0) ++ List.replicate 10 (.perform 1)

/-- Another user presents the evidence of a user. -/
def stolen (call : MfaCall) : List (Move MfaCall) :=
  .start call :: List.replicate 3 (.perform 0)

/-- How a task has ended. -/
def result (run : List MfaEvent × MfaPool) (n : Nat) : Option (Except MfaError MfaResult) :=
  match run.2.tasks n with
  | some (.done value) => some (.ok value)
  | some (.raised error) => some (.error error)
  | _ => none

/-- The steps that were stored, with the task and the secret. -/
def taken : MfaEvent → Option (Nat × String × Int)
  | .performed n (.updateTotpLastStep secretId step) _ => some (n, secretId, step)
  | _ => none

def lastStep (run : List MfaEvent × MfaPool) : Option Int :=
  (run.2.shared.getTotpSecretForFactor "factor-1").bind TotpSecretRecord.lastStep

def ownsChallenge (w : MfaWorld) (owner : Account) (challengeId : String) (now : Int) : Bool :=
  ((w.challenges.find? challengeId).filter (MfaWorld.consumable now)).all fun c => c.owner = owner

def callOf (n : Nat) : MfaEvent → Option MfaCall
  | .started m call => if m = n then some call else none
  | _ => none

/-- A check of the condition for runs without recovery codes and with one stored step. -/
def isClean (trace : List MfaEvent) (w : MfaWorld) : MfaEvent → Bool
  | .performed n (.consumeChallenge challengeId now) _ =>
      (trace.filterMap (callOf n)).all fun call => ownsChallenge w call.owner challengeId now
  | .performed _ (.consumeRecoveryCode _ _) _ => false
  | .performed _ (.updateTotpLastStep _ _) _ => (trace.filterMap taken).isEmpty
  | _ => true

theorem clean_of_isClean (trace : List MfaEvent) (w : MfaWorld) (event : MfaEvent)
    (h : isClean trace w event = true) : Clean trace w event := by
  cases event with
  | performed n op reply =>
      cases op with
      | consumeChallenge challengeId now =>
          intro call hstarted c hfound hconsumable
          have hmem : call ∈ trace.filterMap (callOf n) :=
            List.mem_filterMap.mpr ⟨_, hstarted, if_pos rfl⟩
          have howns := List.all_eq_true.mp h call hmem
          rw [ownsChallenge, hfound, Option.filter_some, if_pos hconsumable] at howns
          exact of_decide_eq_true howns
      | consumeRecoveryCode codeHash now => cases h
      | updateTotpLastStep secretId step =>
          rintro before factorId s after rfl - _ hevent step' ⟨m, reply', rfl⟩
          have hmem : (m, secretId, step') ∈
              (before ++ ReadsSecret n factorId s :: after).filterMap taken := by
            refine List.mem_filterMap.mpr
              ⟨.performed m (.updateTotpLastStep secretId step') reply', ?_, rfl⟩
            exact List.mem_append_right _ (List.mem_cons_of_mem _ hevent)
          rw [List.isEmpty_iff.mp h] at hmem
          cases hmem
      | _ => exact trivial
  | started n call => exact trivial
  | stopped n => exact trivial

theorem cleanRun_alone : CleanRun {} algorithms ([], Pool.initial world) (play alone) := by
  apply advances_play MfaWorld.atOnce_sound clean_of_isClean
  decide

theorem run_play (moves : List (Move MfaCall)) :
    Run (MfaCall.body {} algorithms) MfaWorld.env world (play moves).1 (play moves).2 :=
  Run.play MfaWorld.atOnce_sound moves

end Sample

end CopilotRuntime.Mfa
