import CopilotRuntime.Siwe.Founding

/-!
# Calls of the wallet sign-in

A call that returns has consumed the nonce of its message. A call that raises has
created nothing, unless its new link of a wallet was refused after it had founded an
organisation.
-/

namespace CopilotRuntime.Siwe

open Foundation Identity Lockout
open AccountMerge (Account IdentityAuditEventRecord)

variable {config : SiweConfig} {library : SiweLibrary} {lower : String → String}
  {w w' : SiweWorld} {trace : List SiweEvent} {n : Nat}

/-! ### What the traces say -/

/-- Consumed nonces are in the store as they were given. -/
def Spent (trace : List SiweEvent) (w : SiweWorld) : Prop :=
  ∀ n nonce r, .performed n (.consumeNonce nonce) (some r) ∈ trace →
    r ∈ w.nonces.rows ∧ r.nonce = nonce ∧ ∃ t ≤ w.lockout.clock, r.consumedAt = some t

def Backed (earlier : List SiweEvent) : SiweEvent → Prop
  | .performed n op _ => Rests n earlier op
  | _ => True

structure Kept (trace : List SiweEvent) (w : SiweWorld) : Prop where
  founding : Private trace w
  spent : Spent trace w
  backed : EachAfter Backed trace

theorem kept_nil (w : SiweWorld) : Kept [] w :=
  ⟨private_nil w, fun _ _ _ h => absurd h List.not_mem_nil, eachAfter_nil⟩

theorem nonceId_of_rests {op : SiweOp} (h : Rests n trace op) :
    ∀ record, op = .createNonce record → ∀ id clock, (record id clock).nonceId = id := by
  rintro record rfl
  exact h

theorem Kept.performed (h : Kept trace w) {op : SiweOp} {reply : op.Reply}
    (henv : SiweWorld.env lower op w reply w') (hrests : Rests n trace op) :
    Kept (trace ++ [Event.performed n op reply]) w' := by
  refine ⟨h.founding.performed henv hrests, fun m nonce r hmem => ?_,
    eachAfter_snoc.mpr ⟨h.backed, hrests⟩⟩
  obtain hold | hnew := List.mem_append.mp hmem
  · obtain ⟨hrow, hnonce, t, hle, ht⟩ := h.spent m nonce r hold
    refine ⟨?_, hnonce, t, hle.trans (clock_le_of_env henv), ht⟩
    exact mem_consumed_of_env henv hrow (ht ▸ rfl) (nonceId_of_rests hrests)
  · cases List.mem_singleton.mp hnew
    obtain ⟨-, hnonce, hconsumed, hrow⟩ := consumed_of_env henv
    exact ⟨hrow, hnonce, _, Int.le_refl _, hconsumed⟩

theorem Kept.other (h : Kept trace w) {event : SiweEvent}
    (hother : ∀ m op reply, event ≠ .performed m op reply) : Kept (trace ++ [event]) w := by
  refine ⟨h.founding.other hother, fun m nonce r hmem => ?_, eachAfter_snoc.mpr ⟨h.backed, ?_⟩⟩
  · obtain hold | hnew := List.mem_append.mp hmem
    · exact h.spent m nonce r hold
    · exact absurd (List.mem_singleton.mp hnew).symm (hother _ _ _)
  · cases event with
    | performed m op reply => exact absurd rfl (hother m op reply)
    | started m call => exact trivial
    | stopped m => exact trivial

/-! ### What events create -/

/-- The event stores an organisation, a user, a membership or a role assignment. -/
def Creates (n : Nat) (event : SiweEvent) : Prop :=
  (∃ org, Founded n org [event]) ∨ (∃ u, MadeUser n u [event]) ∨
    (∃ m, AddedMember n m [event]) ∨ ∃ a, AssignedRole n a [event]

theorem Creates.task {event : SiweEvent} (h : Creates n event) : event.task = n := by
  obtain ⟨_, _, h⟩ | ⟨_, _, h⟩ | ⟨_, _, h⟩ | ⟨_, _, h⟩ := h
  all_goals
    rw [← List.mem_singleton.mp h]
    rfl

/-- The task has created nothing. -/
def Silent (n : Nat) (events : List SiweEvent) : Prop := ∀ event ∈ events, ¬ Creates n event

theorem Silent.append {events more : List SiweEvent} (h : Silent n events)
    (hmore : Silent n more) : Silent n (events ++ more) := by
  intro event hevent
  obtain hevent | hevent := List.mem_append.mp hevent
  · exact h event hevent
  · exact hmore event hevent

theorem silent_started (call : SiweCall) : Silent n [.started n call] := by
  rintro event hevent (⟨_, _, h⟩ | ⟨_, _, h⟩ | ⟨_, _, h⟩ | ⟨_, _, h⟩)
  all_goals
    rw [List.mem_singleton.mp hevent] at h
    cases List.mem_singleton.mp h

/-- An operation that stores no row of those that a call could leave behind. -/
def Plain : SiweOp → Prop
  | .identity (.createOrganization _) | .identity (.createUser _) | .identity (.addMember _)
  | .identity (.assignRole _) | .lockout (.createLockout _) | .createNonce _ => False
  | _ => True

theorem rests_of_plain {op : SiweOp} (h : Plain op) : Rests n trace op := by
  cases op with
  | identity request =>
      cases request with
      | createOrganization record => exact h.elim
      | createUser record => exact h.elim
      | addMember record => exact h.elim
      | assignRole record => exact h.elim
      | _ => exact trivial
  | lockout request =>
      cases request with
      | createLockout candidate => exact h.elim
      | _ => exact trivial
  | createNonce record => exact h.elim
  | _ => exact trivial

theorem silent_of_plain {op : SiweOp} {reply : op.Reply} (h : Plain op) :
    Silent n [.performed n op reply] := by
  rintro event hevent (⟨_, _, hmem⟩ | ⟨_, _, hmem⟩ | ⟨_, _, hmem⟩ | ⟨_, _, hmem⟩)
  all_goals
    rw [List.mem_singleton.mp hevent] at hmem
    cases List.mem_singleton.mp hmem
    exact h

theorem Silent.plain {events : List SiweEvent} (h : Silent n events) {op : SiweOp}
    {reply : op.Reply} (hplain : Plain op) :
    Silent n (events ++ [Event.performed n op reply]) :=
  h.append (silent_of_plain hplain)

theorem silent_of_mem {events more : List SiweEvent}
    (h : ∀ event ∈ more, ∃ op reply, Plain op ∧ event = .performed n op reply)
    (hsilent : Silent n events) : Silent n (events ++ more) := by
  refine hsilent.append fun event hevent => ?_
  obtain ⟨op, reply, hplain, rfl⟩ := h event hevent
  exact silent_of_plain hplain _ (List.mem_singleton.mpr rfl)

/-! ### Parts of a call -/

section Parts
variable {α β : Type} {own : List SiweEvent}

/-- The program keeps what the traces say and ends with the postcondition. -/
abbrev Keeps (lower : String → String) (n : Nat)
    (post : Except SiweError α → List SiweEvent → Prop) (p : SiweProgram α)
    (own : List SiweEvent) : Prop :=
  Safe (SiweWorld.env lower) Kept n post p own

theorem mem_trace_of_own {event : SiweEvent} (hown : ownEvents n trace = own)
    (h : event ∈ own) : event ∈ trace :=
  (mem_ownEvents.mp (hown ▸ h)).1

theorem keeps_await {post : Except SiweError α → List SiweEvent → Prop} {op : SiweOp}
    {resume : op.Reply → SiweProgram α} (hplain : Plain op)
    (h : ∀ trace w reply w', Kept trace w → ownEvents n trace = own →
      SiweWorld.env lower op w reply w' →
        Keeps lower n post (resume reply) (own ++ [Event.performed n op reply])) :
    Keeps lower n post (.await op resume) own := by
  refine .of_await fun trace w reply w' hkept hown henv => ⟨?_, h trace w reply w' hkept hown henv⟩
  exact hkept.performed henv (rests_of_plain hplain)

/-- A program of plain operations creates nothing. -/
theorem keeps_plain {p : SiweProgram α} (h : p.OnlyAwaits Plain) (hsilent : Silent n own) :
    Keeps lower n (fun _ events => Silent n events) p own := by
  refine (Safe.of_onlyAwaits (fun trace s op reply s' hplain _ hkept henv => ?_) h).mono ?_
  · exact hkept.performed henv (rests_of_plain hplain)
  · rintro result events ⟨more, rfl, hmore⟩
    exact silent_of_mem hmore hsilent

/-- The program awaits plain operations and does not raise. -/
def Smooth (p : SiweProgram α) : Prop :=
  p.OnlyAwaits Plain ∧ p.Ends fun result => ∃ a, result = .ok a

theorem smooth_done (a : α) : Smooth (.done a : SiweProgram α) := ⟨.done a, .done ⟨a, rfl⟩⟩

theorem smooth_await {op : SiweOp} {resume : op.Reply → SiweProgram α} (hplain : Plain op)
    (h : ∀ reply, Smooth (resume reply)) : Smooth (.await op resume) :=
  ⟨.await hplain fun reply => (h reply).1, .await fun reply => (h reply).2⟩

theorem Smooth.bind {p : SiweProgram α} {f : α → SiweProgram β} (h : Smooth p)
    (hf : ∀ a, Smooth (f a)) : Smooth (p >>= f) := by
  refine ⟨h.1.bind fun a => (hf a).1, h.2.bind (fun a _ => (hf a).2) ?_⟩
  rintro e ⟨a, ha⟩
  cases ha

theorem keeps_smooth {p : SiweProgram α} (h : Smooth p) :
    Keeps lower n (fun result _ => ∃ a, result = .ok a) p own := by
  refine ((Safe.of_onlyAwaits (fun trace s op reply s' hplain _ hkept henv => ?_) h.1).and_ends
    h.2).mono fun _ _ hpost => hpost.2
  exact hkept.performed henv (rests_of_plain hplain)

end Parts

theorem recordAttempt_smooth (orgId userId : Option String) (outcome : LoginAttemptOutcome) :
    Smooth (recordAttempt orgId userId outcome) :=
  smooth_await trivial fun _ => smooth_await trivial fun _ => smooth_done _

theorem audit_smooth (event : IdentityAuditEventRecord) : Smooth (audit event) :=
  smooth_await trivial fun _ => smooth_done _

end CopilotRuntime.Siwe
