import CopilotRuntime.Mfa.StoreLaws

/-!
# Runs of MFA verifications

A call changes factors, secrets and passkeys of its own user only, and it takes a
time step that the secret had not reached when it read it.
-/

namespace CopilotRuntime.Mfa

open Foundation
open AccountMerge (Account IdentityAuditEventRecord)

abbrev MfaEvent := Event MfaOp MfaOp.Reply MfaCall
abbrev MfaPool := Pool MfaOp MfaOp.Reply MfaError MfaResult MfaWorld

variable {config : MfaConfig} {library : MfaLibrary} {w₀ w w' : MfaWorld} {trace : List MfaEvent}
  {n : Nat} {owner : Account}

/-! ### What the traces say -/

/-- A task has read the secret of the factor. -/
abbrev ReadsSecret (n : Nat) (factorId : String) (s : TotpSecretRecord) : MfaEvent :=
  .performed n (.getTotpSecretForFactor factorId) (some s)

/-- The event stores the step in the secret. -/
def Takes (secretId : String) (step : Int) (event : MfaEvent) : Prop :=
  ∃ n reply, event = .performed n (.updateTotpLastStep secretId step) reply

/-- What consumptions gave is what the store holds. -/
structure Spent (trace : List MfaEvent) (w : MfaWorld) : Prop where
  challenges : ∀ n id now c, .performed n (.consumeChallenge id now) (some c) ∈ trace →
    w.challenges.find? id = some c ∧ c.consumedAt.isSome = true
  recoveryCodes : ∀ n codeHash now r,
    .performed n (.consumeRecoveryCode codeHash now) (some r) ∈ trace →
      w.recoveryCodes.find? r.codeId = some r ∧ r.consumedAt.isSome = true

/-- The secret of a factor has the last step that was read or one that was stored since. -/
def Tracked (trace : List MfaEvent) (w : MfaWorld) : Prop :=
  ∀ before n factorId s after, trace = before ++ ReadsSecret n factorId s :: after →
    ∃ s', w.getTotpSecretForFactor factorId = some s' ∧ s'.secretId = s.secretId ∧
      (s'.lastStep = s.lastStep ∨
        ∃ step, s'.lastStep = some step ∧ ∃ event ∈ after, Takes s.secretId step event)

theorem spent_nil (w : MfaWorld) : Spent [] w :=
  ⟨fun _ _ _ _ h => absurd h List.not_mem_nil, fun _ _ _ _ h => absurd h List.not_mem_nil⟩

theorem tracked_nil (w : MfaWorld) : Tracked [] w := by
  intro before n factorId s after hsplit
  simp at hsplit

theorem Spent.performed (h : Spent trace w) {op : MfaOp} {reply : op.Reply}
    (henv : MfaWorld.env op w reply w') : Spent (trace ++ [Event.performed n op reply]) w' where
  challenges m id now c hmem := by
    obtain hold | hnew := List.mem_append.mp hmem
    · obtain ⟨hfound, hconsumed⟩ := h.challenges m id now c hold
      exact ⟨find?_consumed_of_env henv hfound hconsumed, hconsumed⟩
    · cases List.mem_singleton.mp hnew
      obtain ⟨stored, -, -, rfl, hfound⟩ := consumed_of_env henv
      exact ⟨hfound, rfl⟩
  recoveryCodes m codeHash now r hmem := by
    obtain hold | hnew := List.mem_append.mp hmem
    · obtain ⟨hfound, hconsumed⟩ := h.recoveryCodes m codeHash now r hold
      exact ⟨find?_spent_of_env henv hfound hconsumed, hconsumed⟩
    · cases List.mem_singleton.mp hnew
      obtain ⟨stored, -, -, hspent, hfound⟩ := spent_of_env henv
      refine ⟨hfound, ?_⟩
      rw [hspent]
      rfl

theorem Spent.other (h : Spent trace w) {event : MfaEvent}
    (hother : ∀ m op reply, event ≠ .performed m op reply) : Spent (trace ++ [event]) w where
  challenges m id now c hmem := by
    obtain hold | hnew := List.mem_append.mp hmem
    · exact h.challenges m id now c hold
    · exact absurd (List.mem_singleton.mp hnew).symm (hother _ _ _)
  recoveryCodes m codeHash now r hmem := by
    obtain hold | hnew := List.mem_append.mp hmem
    · exact h.recoveryCodes m codeHash now r hold
    · exact absurd (List.mem_singleton.mp hnew).symm (hother _ _ _)

theorem Tracked.performed (h : Tracked trace w) {op : MfaOp} {reply : op.Reply}
    (henv : MfaWorld.env op w reply w') : Tracked (trace ++ [Event.performed n op reply]) w' := by
  intro before m factorId s after hsplit
  obtain ⟨-, heq, -⟩ | ⟨after', rfl, hold⟩ := snoc_eq_append_cons_iff.mp hsplit
  · -- the read itself
    cases heq
    obtain ⟨clock, decrypted, -, hanswer⟩ := henv
    obtain rfl : w' = _ := congrArg Prod.snd hanswer
    exact ⟨s, (congrArg Prod.fst hanswer).symm, rfl, .inl rfl⟩
  · obtain ⟨s₁, hs₁, hid₁, hlast₁⟩ := h before m factorId s after' hold
    obtain ⟨s₂, hs₂, hid₂, hlast₂⟩ := getTotpSecret_of_env henv hs₁
    refine ⟨s₂, hs₂, hid₂.trans hid₁, ?_⟩
    obtain ⟨hsame, -⟩ | ⟨step, rfl, hstep⟩ := hlast₂
    · rw [hsame]
      obtain hread | ⟨step, hstep, event, hevent, htakes⟩ := hlast₁
      · exact .inl hread
      · exact .inr ⟨step, hstep, event, List.mem_append_left _ hevent, htakes⟩
    · refine .inr ⟨step, hstep, _, List.mem_append_right _ (List.mem_singleton.mpr rfl), n, reply, ?_⟩
      rw [hid₁]

theorem Tracked.other (h : Tracked trace w) {event : MfaEvent}
    (hother : ∀ m op reply, event ≠ .performed m op reply) : Tracked (trace ++ [event]) w := by
  intro before m factorId s after hsplit
  obtain ⟨-, heq, -⟩ | ⟨after', rfl, hold⟩ := snoc_eq_append_cons_iff.mp hsplit
  · exact absurd heq.symm (hother _ _ _)
  · obtain ⟨s', hs', hid, hlast⟩ := h before m factorId s after' hold
    refine ⟨s', hs', hid, hlast.imp_right ?_⟩
    rintro ⟨step, hstep, e, he, htakes⟩
    exact ⟨step, hstep, e, List.mem_append_left _ he, htakes⟩

/-! ### What an operation rests on -/

/-- The task has read that the secret's last step, if any, lies before the step. -/
def HasChecked (n : Nat) (secretId : String) (step : Int) (trace : List MfaEvent) : Prop :=
  ∃ factorId s, ReadsSecret n factorId s ∈ trace ∧ s.secretId = secretId ∧
    replayed s step = false

/-- What a user's call rests on when it performs an operation. -/
def Rests (w₀ : MfaWorld) (n : Nat) (owner : Account) (trace : List MfaEvent) : MfaOp → Prop
  | .consumeChallenge _ _ | .consumeRecoveryCode _ _ => True
  | .updateTotpLastStep secretId step =>
      OwnsSecret w₀ owner secretId ∧ HasChecked n secretId step trace
  | op => Entitled w₀ owner op

def Backed (w₀ : MfaWorld) (earlier : List MfaEvent) : MfaEvent → Prop
  | .performed n op _ => ∃ call, .started n call ∈ earlier ∧ Rests w₀ n call.owner earlier op
  | _ => True

structure Kept (w₀ : MfaWorld) (trace : List MfaEvent) (w : MfaWorld) : Prop where
  fixed : Fixed w₀ w
  spent : Spent trace w
  tracked : Tracked trace w
  backed : EachAfter (Backed w₀) trace

theorem kept_nil (w₀ : MfaWorld) : Kept w₀ [] w₀ :=
  ⟨.refl w₀, spent_nil w₀, tracked_nil w₀, eachAfter_nil⟩

theorem Kept.performed (h : Kept w₀ trace w) {op : MfaOp} {reply : op.Reply}
    (henv : MfaWorld.env op w reply w') (hbacked : Backed w₀ trace (.performed n op reply)) :
    Kept w₀ (trace ++ [Event.performed n op reply]) w' :=
  ⟨h.fixed.trans (fixed_of_env henv), h.spent.performed henv, h.tracked.performed henv,
    eachAfter_snoc.mpr ⟨h.backed, hbacked⟩⟩

theorem Kept.other (h : Kept w₀ trace w) {event : MfaEvent}
    (hother : ∀ m op reply, event ≠ .performed m op reply) : Kept w₀ (trace ++ [event]) w := by
  refine ⟨h.fixed, h.spent.other hother, h.tracked.other hother,
    eachAfter_snoc.mpr ⟨h.backed, ?_⟩⟩
  cases event with
  | performed m op reply => exact absurd rfl (hother m op reply)
  | started m call => exact trivial
  | stopped m => exact trivial

/-! ### Parts of a call -/

section Parts
variable {α : Type} {own : List MfaEvent} {call : MfaCall} (hstarted : .started n call ∈ own)

/-- The program keeps what the traces say and ends with the postcondition. -/
abbrev Keeps (w₀ : MfaWorld) (n : Nat) (post : Except MfaError α → List MfaEvent → Prop)
    (p : MfaProgram α) (own : List MfaEvent) : Prop :=
  Safe MfaWorld.env (Kept w₀) n post p own

theorem Rests.mono {trace' : List MfaEvent} {op : MfaOp} (h : Rests w₀ n owner trace op)
    (hsub : ∀ event ∈ trace, event ∈ trace') : Rests w₀ n owner trace' op := by
  cases op with
  | updateTotpLastStep secretId step =>
      obtain ⟨howns, factorId, s, hread, hid, hreplayed⟩ := h
      exact ⟨howns, factorId, s, hsub _ hread, hid, hreplayed⟩
  | _ => exact h

include hstarted

/-- An operation of a started call is safe if what it rests on holds and the rest is safe. -/
theorem keeps_await {post : Except MfaError α → List MfaEvent → Prop} {op : MfaOp}
    {resume : op.Reply → MfaProgram α} (hrests : Rests w₀ n call.owner own op)
    (h : ∀ w reply w', Fixed w₀ w → MfaWorld.env op w reply w' →
      Keeps w₀ n post (resume reply) (own ++ [Event.performed n op reply])) :
    Keeps w₀ n post (.await op resume) own := by
  refine .of_await fun trace w reply w' hkept hown henv => ⟨?_, h w reply w' hkept.fixed henv⟩
  have hsub : ∀ event ∈ own, event ∈ trace := fun event hevent =>
    (mem_ownEvents.mp (hown ▸ hevent)).1
  exact hkept.performed henv ⟨call, hsub _ hstarted, hrests.mono hsub⟩

/-- The first of two parts leaves the start of the call in place. -/
theorem keeps_bind {β : Type} {first : Except MfaError α → List MfaEvent → Prop}
    {post : Except MfaError β → List MfaEvent → Prop} {p : MfaProgram α} {f : α → MfaProgram β}
    (h : Keeps w₀ n first p own)
    (hok : ∀ a events, .started n call ∈ events → own <+: events → first (.ok a) events →
      Keeps w₀ n post (f a) events) (herror : ∀ e events, post (.error e) events) :
    Keeps w₀ n post (p >>= f) own := by
  refine h.and_extends.bind ?_ fun e events _ => herror e events
  rintro a events ⟨hfirst, hown⟩
  exact hok a events (hown.subset hstarted) hown hfirst

theorem audit_keeps (owner : Account) (action : String) (metadata : List (String × Json)) :
    Keeps w₀ n (fun _ _ => True) (audit owner action metadata) own :=
  keeps_await hstarted trivial fun _ _ _ _ _ => .done trivial

end Parts

/-! ### TOTP -/

/-- The task has taken the step with the secret that it read for the factor. -/
def UsesStep (n : Nat) (factorId : String) (step : Int) (events : List MfaEvent) : Prop :=
  ∃ s reply, ReadsSecret n factorId s ∈ events ∧
    .performed n (.updateTotpLastStep s.secretId step) reply ∈ events

theorem UsesStep.mono {factorId : String} {step : Int} {events events' : List MfaEvent}
    (h : UsesStep n factorId step events) (hsub : events ⊆ events') :
    UsesStep n factorId step events' := by
  obtain ⟨s, reply, hread, htaken⟩ := h
  exact ⟨s, reply, hsub hread, hsub htaken⟩

section Totp
variable {own : List MfaEvent} {call : MfaCall} (hstarted : .started n call ∈ own)

/-- The secret that is found for a factor of the user is one of the user. -/
theorem ownsSecret_of_read {factorId : String} {s : TotpSecretRecord} (hfixed : Fixed w₀ w)
    (henv : MfaWorld.env (.getTotpSecretForFactor factorId) w (some s) w')
    (howns : OwnsFactor w₀ owner factorId) : OwnsSecret w₀ owner s.secretId := by
  obtain ⟨clock, decrypted, -, hanswer⟩ := henv
  refine (hfixed.ownsSecret_iff owner s.secretId).mp ⟨factorId, s, ?_, ?_, rfl⟩
  · exact (hfixed.ownsFactor_iff owner factorId).mpr howns
  · exact (congrArg Prod.fst hanswer).symm

include hstarted

theorem matchCode_keeps (secret : TotpSecretRecord) (code : String) :
    Keeps w₀ n (fun _ _ => True) (matchCode config library secret code) own := by
  refine keeps_await hstarted trivial fun _ decrypted _ _ _ => ?_
  cases decrypted with
  | error message => exact .raised trivial
  | ok plaintext =>
      refine keeps_await (List.mem_append_left _ hstarted) trivial fun _ now _ _ _ => ?_
      change Keeps w₀ n _ (.ofExcept _) _
      cases verifyTotpWithWindow config library plaintext code now with
      | error e => exact .raised trivial
      | ok matched => exact .done trivial

/-- The step is taken, and the rest of the call ends as it does. -/
theorem takeStep_keeps {α : Type} {factorId : String} {s : TotpSecretRecord} {step : Int}
    {post : Except MfaError α → List MfaEvent → Prop} {resume : Unit → MfaProgram α}
    (hread : ReadsSecret n factorId s ∈ own) (howns : OwnsSecret w₀ call.owner s.secretId)
    (hreplayed : replayed s step = false)
    (h : ∀ events, .started n call ∈ events → UsesStep n factorId step events →
      Keeps w₀ n post (resume ()) events) :
    Keeps w₀ n post (.await (.updateTotpLastStep s.secretId step) resume) own := by
  refine keeps_await hstarted ⟨howns, factorId, s, hread, rfl, hreplayed⟩ fun _ reply _ _ _ => ?_
  apply h
  · exact List.mem_append_left _ hstarted
  · refine ⟨s, reply, List.mem_append_left _ hread, ?_⟩
    exact List.mem_append_right _ (List.mem_singleton.mpr rfl)

theorem acceptStep_keeps {factor : MfaFactorRecord} {s : TotpSecretRecord} {step : Int}
    (hread : ReadsSecret n factor.factorId s ∈ own)
    (hfactor : OwnsFactor w₀ call.owner factor.factorId)
    (howns : OwnsSecret w₀ call.owner s.secretId) (hreplayed : replayed s step = false) :
    Keeps w₀ n
      (fun result events => ∀ f, result = .ok f →
        f = factor ∧ UsesStep n factor.factorId step events)
      (acceptStep call.owner factor s.secretId step) own := by
  refine takeStep_keeps hstarted hread howns hreplayed fun events hstarted huses => ?_
  refine keeps_await hstarted trivial fun _ now _ _ _ => ?_
  replace hstarted := List.mem_append_left [.performed n .now now] hstarted
  refine keeps_await hstarted hfactor fun _ touched _ _ _ => ?_
  change Keeps w₀ n _ (audit _ _ _ >>= fun _ => .done factor) _
  refine keeps_bind (List.mem_append_left _ hstarted)
    (audit_keeps (List.mem_append_left _ hstarted) _ _ _) ?_ fun _ _ => nofun
  intro _ later _ hlater _
  refine .done fun f hf => ?_
  obtain rfl := Except.ok.inj hf
  refine ⟨rfl, huses.mono fun event hevent => hlater.subset ?_⟩
  exact List.mem_append_left _ (List.mem_append_left _ hevent)

omit hstarted in
/-- The factors are tried in turn: the induction is on those that are left. -/
theorem tryFactors_keeps (code : String) (factors : List MfaFactorRecord)
    (hstarted : .started n call ∈ own)
    (hfactors : ∀ f ∈ factors, OwnsFactor w₀ call.owner f.factorId) :
    Keeps w₀ n
      (fun result events => ∀ f, result = .ok f →
        OwnsFactor w₀ call.owner f.factorId ∧ ∃ step, UsesStep n f.factorId step events)
      (tryFactors config library call.owner code factors) own := by
  induction factors generalizing own with
  | nil =>
      refine keeps_bind hstarted (audit_keeps hstarted _ _ _) ?_ fun _ _ => nofun
      exact fun _ _ _ _ _ => .raised nofun
  | cons factor rest ih =>
      have hfactor := hfactors factor List.mem_cons_self
      replace ih {own : List MfaEvent} (hstarted : .started n call ∈ own) :=
        ih hstarted fun f hf => hfactors f (List.mem_cons_of_mem _ hf)
      refine keeps_await hstarted trivial fun w found w' hfixed henv => ?_
      replace hstarted := List.mem_append_left
        [.performed n (.getTotpSecretForFactor factor.factorId) found] hstarted
      cases found with
      | none => exact ih hstarted
      | some secret =>
          have howns := ownsSecret_of_read hfixed henv hfactor
          change Keeps w₀ n _ (matchCode config library secret code >>= _) _
          refine keeps_bind hstarted (matchCode_keeps hstarted secret code) ?_ fun _ _ => nofun
          intro matched events hstarted hown _
          cases matched with
          | none => exact ih hstarted
          | some step =>
              change Keeps w₀ n _ (ite (replayed secret step = true) _ _) _
              split
              · exact ih hstarted
              · next hreplayed =>
                  refine (acceptStep_keeps hstarted ?_ hfactor howns ?_).mono ?_
                  · refine hown.subset ?_
                    exact List.mem_append_right _ (List.mem_singleton.mpr rfl)
                  · exact Bool.eq_false_iff.mpr hreplayed
                  · rintro result later hpost f rfl
                    obtain ⟨rfl, huses⟩ := hpost f rfl
                    exact ⟨hfactor, step, huses⟩

end Totp

/-! ### Challenges -/

/-- The task has consumed the challenge, which is one of the user. -/
def HasConsumed (n : Nat) (owner : Account) (kind : MfaChallengeKind) (challengeId : String)
    (events : List MfaEvent) : Prop :=
  ∃ now c, .performed n (.consumeChallenge challengeId now) (some c) ∈ events ∧
    c.owner = owner ∧ c.kind = kind

theorem HasConsumed.mono {kind : MfaChallengeKind} {challengeId : String}
    {events events' : List MfaEvent} (h : HasConsumed n owner kind challengeId events)
    (hsub : events ⊆ events') : HasConsumed n owner kind challengeId events' := by
  obtain ⟨now, c, hconsumed, hkind⟩ := h
  exact ⟨now, c, hsub hconsumed, hkind⟩

section Challenges
variable {own : List MfaEvent} {call : MfaCall} (hstarted : .started n call ∈ own)
include hstarted

theorem consumeFor_keeps (kind : MfaChallengeKind) (challengeId : String) :
    Keeps w₀ n
      (fun result events => ∀ c, result = .ok c → HasConsumed n owner kind challengeId events)
      (consumeFor owner kind challengeId) own := by
  refine keeps_await hstarted trivial fun _ now _ _ _ => ?_
  refine keeps_await (List.mem_append_left _ hstarted) trivial fun _ challenge _ _ _ => ?_
  cases challenge with
  | none => exact .raised nofun
  | some challenge =>
      change Keeps w₀ n _ (ite (challenge.owner = owner ∧ challenge.kind = kind) _ _) _
      split
      · next hmatch =>
          refine .done fun _ _ => ⟨now, challenge, ?_, hmatch⟩
          exact List.mem_append_right _ (List.mem_singleton.mpr rfl)
      · exact .raised nofun

theorem verifyTotpChallenge_keeps (challengeId code : String) :
    Keeps w₀ n
      (fun result events => ∀ f, result = .ok f →
        HasConsumed n call.owner .totp challengeId events ∧
          OwnsFactor w₀ call.owner f.factorId ∧ ∃ step, UsesStep n f.factorId step events)
      (verifyTotpChallenge config library call.owner challengeId code) own := by
  refine keeps_bind hstarted (consumeFor_keeps hstarted .totp challengeId) ?_ fun _ _ => nofun
  intro challenge events hstarted _ hconsumed
  replace hconsumed := hconsumed challenge rfl
  refine keeps_await hstarted trivial fun w factors w' hfixed henv => ?_
  replace hstarted := List.mem_append_left
    [.performed n (.listEnabledFactors call.owner) factors] hstarted
  replace hconsumed := hconsumed.mono (List.subset_append_left events
    [.performed n (.listEnabledFactors call.owner) factors])
  change Keeps w₀ n _ (ite ((answering challenge factors).isEmpty = true) _ _) _
  split
  · exact .raised nofun
  · refine (tryFactors_keeps code _ hstarted fun f hf => ?_).and_extends.mono ?_
    · obtain ⟨clock, decrypted, -, hanswer⟩ := henv
      obtain rfl : factors = _ := congrArg Prod.fst hanswer
      refine (hfixed.ownsFactor_iff _ _).mp (ownsFactor_of_list ?_)
      exact (List.mem_filter.mp hf).1
    · rintro result later ⟨hpost, hlater⟩ f rfl
      exact ⟨hconsumed.mono hlater.subset, hpost f rfl⟩

end Challenges

/-! ### Confirming a factor -/

section Confirm
variable {own : List MfaEvent} {call : MfaCall} (hstarted : .started n call ∈ own)
include hstarted

theorem requireFactorForUser_keeps (kind : MfaFactorKind) (factorId : String) :
    Keeps w₀ n (fun result _ => ∀ f, result = .ok f → OwnsFactor w₀ call.owner factorId)
      (requireFactorForUser call.owner kind factorId) own := by
  refine keeps_await hstarted trivial fun w factor w' hfixed henv => ?_
  rw [Program.bind]
  split
  · exact .raised nofun
  · next f hf =>
      obtain ⟨rfl, hmatch⟩ := Option.filter_eq_some_iff.mp hf
      rw [Bool.and_eq_true, decide_eq_true_eq] at hmatch
      split
      · refine .done fun _ _ => (hfixed.ownsFactor_iff _ _).mp ⟨f, ?_, hmatch.1⟩
        obtain ⟨clock, decrypted, -, hanswer⟩ := henv
        exact (congrArg Prod.fst hanswer).symm
      · exact .raised nofun

theorem confirmStep_keeps {factorId : String} {s : TotpSecretRecord} {step : Int}
    (hread : ReadsSecret n factorId s ∈ own) (hfactor : OwnsFactor w₀ call.owner factorId)
    (howns : OwnsSecret w₀ call.owner s.secretId) (hreplayed : replayed s step = false) :
    Keeps w₀ n (fun result events => ∀ f, result = .ok f → UsesStep n factorId step events)
      (confirmStep call.owner factorId s.secretId step) own := by
  refine takeStep_keeps hstarted hread howns hreplayed fun events hstarted huses => ?_
  refine keeps_await hstarted hfactor fun _ enabled _ _ _ => ?_
  replace hstarted := List.mem_append_left [.performed n (.enableFactor factorId) enabled] hstarted
  replace huses := huses.mono (List.subset_append_left events
    [.performed n (.enableFactor factorId) enabled])
  cases enabled with
  | none => exact .raised nofun
  | some enabled =>
      refine keeps_await hstarted trivial fun _ now _ _ _ => ?_
      replace hstarted := List.mem_append_left [.performed n .now now] hstarted
      refine keeps_await hstarted hfactor fun _ touched _ _ _ => ?_
      change Keeps w₀ n _ (audit _ _ _ >>= fun _ => .done enabled) _
      refine keeps_bind (List.mem_append_left _ hstarted)
        (audit_keeps (List.mem_append_left _ hstarted) _ _ _) ?_ fun _ _ => nofun
      intro _ later _ hlater _
      refine .done fun _ _ => huses.mono fun event hevent => hlater.subset ?_
      exact List.mem_append_left _ (List.mem_append_left _ hevent)

theorem confirmTotp_keeps (factorId code : String) :
    Keeps w₀ n
      (fun result events => ∀ f, result = .ok f →
        OwnsFactor w₀ call.owner factorId ∧ ∃ step, UsesStep n factorId step events)
      (confirmTotp config library call.owner factorId code) own := by
  refine keeps_bind hstarted (requireFactorForUser_keeps hstarted .totp factorId) ?_ fun _ _ =>
    nofun
  intro factor events hstarted _ hfactor
  replace hfactor := hfactor factor rfl
  refine keeps_await hstarted trivial fun w found w' hfixed henv => ?_
  replace hstarted := List.mem_append_left
    [.performed n (.getTotpSecretForFactor factorId) found] hstarted
  cases found with
  | none => exact .raised nofun
  | some secret =>
      have howns := ownsSecret_of_read hfixed henv hfactor
      change Keeps w₀ n _ (matchCode config library secret code >>= _) _
      refine keeps_bind hstarted (matchCode_keeps hstarted secret code) ?_ fun _ _ => nofun
      intro matched events hstarted hown _
      cases matched with
      | none =>
          refine keeps_bind hstarted (audit_keeps hstarted _ _ _) ?_ fun _ _ => nofun
          exact fun _ _ _ _ _ => .raised nofun
      | some step =>
          change Keeps w₀ n _ (ite (replayed secret step = true) _ _) _
          split
          · exact .raised nofun
          · next hreplayed =>
              refine (confirmStep_keeps hstarted ?_ hfactor howns ?_).mono ?_
              · exact hown.subset (List.mem_append_right _ (List.mem_singleton.mpr rfl))
              · exact Bool.eq_false_iff.mpr hreplayed
              · exact fun result later hpost f hf => ⟨hfactor, step, hpost f hf⟩

end Confirm

end CopilotRuntime.Mfa
