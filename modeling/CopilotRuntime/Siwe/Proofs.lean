import CopilotRuntime.Siwe.Runs

/-!
# Proof of a wallet

A call that proves a wallet has consumed the nonce of its message in time, and has
created nothing so far.
-/

namespace CopilotRuntime.Siwe

open Foundation Identity Lockout
open AccountMerge (Account IdentityAuditEventRecord)

variable {config : SiweConfig} {library : SiweLibrary} {lower : String → String}
  {w w' : SiweWorld} {trace own : List SiweEvent} {n : Nat} {α : Type}

/-! ### Consumption of the nonce -/

/-- The task has consumed the nonce of the message before it expired, and it was issued for the
address and the chain of the message. -/
def HasConsumed (library : SiweLibrary) (n : Nat) (parsed : SiweMessage)
    (events : List SiweEvent) : Prop :=
  ∃ r t, .performed n (.consumeNonce parsed.nonce) (some r) ∈ events ∧
    r.consumedAt = some t ∧ t < r.expiresAt ∧
      r.address = parsed.addressLower library ∧ r.chainId = parsed.chainId

theorem HasConsumed.mono {parsed : SiweMessage} {events events' : List SiweEvent}
    (h : HasConsumed library n parsed events) (hsub : events ⊆ events') :
    HasConsumed library n parsed events' := by
  obtain ⟨r, t, hmem, hrest⟩ := h
  exact ⟨r, t, hsub hmem, hrest⟩

theorem refuseNonce_plain (outcome : LoginAttemptOutcome) (error : SiweError) :
    (refuseNonce outcome error : SiweProgram α).OnlyAwaits Plain :=
  (recordAttempt_smooth _ _ _).1.bind fun _ => .raised error

theorem consumeNonce_keeps (parsed : SiweMessage) (hsilent : Silent n own) :
    Keeps lower n
      (fun result events => Silent n events ∧
        ∀ r, result = .ok r → HasConsumed library n parsed events)
      (consumeNonce library parsed) own := by
  refine keeps_await trivial fun _ _ record _ _ _ _ => ?_
  replace hsilent : Silent n (own ++
      [Event.performed n (SiweOp.consumeNonce parsed.nonce) record]) :=
    hsilent.plain trivial
  have refused (outcome : LoginAttemptOutcome) (error : SiweError) {events : List SiweEvent}
      (hsilent : Silent n events) :
      Keeps lower n
        (fun result events => Silent n events ∧
          ∀ r, result = .ok r → HasConsumed library n parsed events)
        (refuseNonce outcome error : SiweProgram SiweNonceRecord) events := by
    have hends : (refuseNonce outcome error : SiweProgram SiweNonceRecord).Ends
        fun result => ∀ r, result ≠ .ok r :=
      (recordAttempt_smooth none none outcome).2.bind (fun _ _ => .raised nofun) nofun
    refine ((keeps_plain (refuseNonce_plain outcome error) hsilent).and_ends hends).mono ?_
    exact fun result events hpost => ⟨hpost.1, fun r hr => absurd hr (hpost.2 r)⟩
  have hmem : Event.performed n (SiweOp.consumeNonce parsed.nonce) record ∈
      own ++ [Event.performed n (SiweOp.consumeNonce parsed.nonce) record] :=
    List.mem_append_right _ (List.mem_singleton.mpr rfl)
  rw [Program.bind]
  split
  · exact refused _ _ hsilent
  · next r hr =>
      obtain ⟨rfl, -⟩ := Option.filter_eq_some_iff.mp hr
      change Keeps lower n _ (.await (.lockout .now) _) _
      refine keeps_await trivial fun trace w now w' hkept hown henv => ?_
      obtain ⟨-, -, t, hle, ht⟩ := hkept.spent n _ r (mem_trace_of_own hown hmem)
      have hreading : t ≤ now := by
        rw [now_of_env henv]
        exact hle.trans (clock_le_of_env henv)
      replace hsilent : Silent n (_ ++
          [Event.performed n (SiweOp.lockout .now) now]) := hsilent.plain trivial
      change Keeps lower n _ (ite (r.expiresAt ≤ now) _ _) _
      split
      · exact refused _ _ hsilent
      · split
        · exact refused _ _ hsilent
        · next hfuture hbound =>
            obtain ⟨haddress, hchain⟩ := not_or.mp hbound
            refine .done ⟨hsilent, fun _ _ => ⟨r, t, List.mem_append_left _ hmem, ht, ?_, ?_, ?_⟩⟩
            · omega
            · exact not_not.mp haddress
            · exact not_not.mp hchain

theorem checkDomainBinding_plain (parsed : SiweMessage) :
    (checkDomainBinding config library parsed).OnlyAwaits Plain := by
  rw [checkDomainBinding]
  split
  · exact .done ()
  · exact (recordAttempt_smooth _ _ _).1.bind fun _ => .raised _

theorem checkTimeWindow_plain (parsed : SiweMessage) :
    (checkTimeWindow library parsed).OnlyAwaits Plain := by
  refine .await trivial fun now => (Program.onlyAwaits_ofExcept _).bind fun inside => ?_
  split
  · exact .done ()
  · exact (recordAttempt_smooth _ _ _).1.bind fun _ => .raised _

theorem recoverSigner_plain (message signature : String) (parsed : SiweMessage) :
    (recoverSigner library message signature parsed).OnlyAwaits Plain ∧
      (recoverSigner library message signature parsed).Ends fun result =>
        ∀ a, result = .ok a → a = parsed.addressLower library := by
  have hrejected (text : String) :
      (rejectSignature text : SiweProgram String).OnlyAwaits Plain ∧
        (rejectSignature text : SiweProgram String).Ends fun result =>
          ∀ a, result = .ok a → a = parsed.addressLower library := by
    refine ⟨(recordAttempt_smooth _ _ _).1.bind fun _ => .raised _, ?_⟩
    exact (recordAttempt_smooth none none .providerRejected).2.bind (fun _ _ => .raised nofun)
      fun _ _ => nofun
  rw [recoverSigner]
  split
  · exact hrejected _
  · split
    · next h =>
        refine ⟨.done _, .done fun a ha => ?_⟩
        obtain rfl := Except.ok.inj ha
        exact h
    · exact hrejected _

/-- What the shared checks establish of a message whose signer they give. -/
theorem proveOwnership_keeps (message signature : String) (parsed : SiweMessage)
    (hsilent : Silent n own) :
    Keeps lower n
      (fun result events => Silent n events ∧ ∀ a, result = .ok a →
        a = parsed.addressLower library ∧ HasConsumed library n parsed events)
      (proveOwnership config library message signature parsed) own := by
  refine (keeps_plain (checkDomainBinding_plain parsed) hsilent).bind ?_
    fun _ _ hsilent => ⟨hsilent, nofun⟩
  intro _ events hsilent
  refine (keeps_plain (checkTimeWindow_plain parsed) hsilent).bind ?_
    fun _ _ hsilent => ⟨hsilent, nofun⟩
  intro _ events hsilent
  obtain ⟨hplain, hends⟩ := @recoverSigner_plain library message signature parsed
  refine ((keeps_plain hplain hsilent).and_ends hends).bind ?_
    fun _ _ hpost => ⟨hpost.1, nofun⟩
  rintro recovered events ⟨hsilent, hrecovered⟩
  refine (consumeNonce_keeps parsed hsilent).bind ?_ fun _ _ hpost => ⟨hpost.1, nofun⟩
  rintro r events ⟨hsilent, hconsumed⟩
  refine .done ⟨hsilent, fun a ha => ?_⟩
  obtain rfl := Except.ok.inj ha
  exact ⟨hrecovered recovered rfl, hconsumed r rfl⟩

end CopilotRuntime.Siwe
