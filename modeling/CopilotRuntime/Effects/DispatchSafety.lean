import CopilotRuntime.Effects.Coordinator

/-!
# At most one external application per idempotency key

Any number of dispatch and reconcile calls interleave over one claim store,
and any of them may stop at any await point. The invariant ties the right to
apply to the event that created the claim: a key is created once, the creating
task applies at most once, and no other task applies under that key.
-/

namespace CopilotRuntime.Effects

open Foundation

/-- The calls that share one claim store. -/
inductive DispatchCall
  | dispatch (scope : EffectExecutionScope) (request : EffectDispatchRequest)
      (executor : EffectExecutor) (expectedPreconditionDigest : Option String)
      (cancellable observed : Bool) (mint : Minted)
  | reconcile (command : EffectReconcileCommand) (now : String)

def DispatchCall.body (sha256 : String → String) : DispatchCall → EffectProgram Unit
  | dispatch scope request executor expected cancellable observed mint => do
      let _ ← Effects.dispatch scope request executor (callerOptions expected cancellable observed) mint
      pure ()
  | reconcile command now => do
      let _ ← Effects.reconcile sha256 command now
      pure ()

/-- The idempotency identity a dispatch call works under. -/
def DispatchCall.key? : DispatchCall → Option ClaimKey
  | dispatch scope request _ _ _ _ _ =>
      some ⟨scope.orgId, request.executor, request.idempotencyKey⟩
  | reconcile _ _ => none

abbrev DispatchEvent := Event EffectOp EffectOp.Reply DispatchCall

/-- The event created the claim of the given key. -/
def Creates (key : ClaimKey) : DispatchEvent → Prop
  | .performed _ (.claimCreate claim) (.ok acquisition) =>
      acquisition.created = true ∧ claim.key = key
  | _ => False

/-- The event is an invocation of an executor's apply by the given task. -/
def AppliedBy (n : Nat) : DispatchEvent → Prop
  | .performed m (.apply _ _) _ => m = n
  | _ => False

/-- The event applies an effect on behalf of a dispatch call with the given key. -/
def AppliesUnder (trace : List DispatchEvent) (key : ClaimKey) (event : DispatchEvent) : Prop :=
  ∃ n call, AppliedBy n event ∧ .started n call ∈ trace ∧ call.key? = some key

/-- The events entitle a dispatch to apply: it created the claim of its own request and then
got an allowing verdict. -/
def Entitled (n : Nat) (executor : EffectExecutor) (prepared : PreparedEffect)
    (events : List DispatchEvent) : Prop :=
  ∃ scope request expected cancellable observed mint claim authorization,
    .started n (.dispatch scope request executor expected cancellable observed mint) ∈ events ∧
    prepared.request = .dispatch request ∧
    .performed n (.claimCreate claim) (.ok ⟨true, claim⟩) ∈ events ∧
    claimMatches claim scope request = true ∧
    .performed n (.authorize executor prepared) (.ok (some authorization)) ∈ events ∧
    authorization.allowed = true

/-- An apply event comes after everything that entitles its task to apply. -/
def ApplyIsCovered (earlier : List DispatchEvent) : DispatchEvent → Prop
  | .performed n (.apply executor prepared) _ => Entitled n executor prepared earlier
  | _ => True

theorem Entitled.mono {n : Nat} {executor : EffectExecutor} {prepared : PreparedEffect}
    {events more : List DispatchEvent} (h : Entitled n executor prepared events)
    (hsub : ∀ event ∈ events, event ∈ more) : Entitled n executor prepared more := by
  obtain ⟨scope, request, expected, cancellable, observed, mint, claim, authorization,
    hstart, hrequest, hcreated, hmatches, hverdict, hallowed⟩ := h
  exact ⟨scope, request, expected, cancellable, observed, mint, claim, authorization,
    hsub _ hstart, hrequest, hsub _ hcreated, hmatches, hsub _ hverdict, hallowed⟩

/-- What every reachable trace and claim store satisfy. -/
structure DispatchInvariant (trace : List DispatchEvent) (w : EffectWorld) : Prop where
  stored : ∀ event ∈ trace, ∀ key, Creates key event → (w.claims.get key).isSome
  createdOnce : ∀ key, AtMostOnce (Creates key) trace
  covered : EachAfter ApplyIsCovered trace
  appliedOnce : ∀ n, AtMostOnce (AppliedBy n) trace

/-- Operations that neither create a claim nor apply an effect. -/
def Inert : EffectOp → Prop
  | .claimCreate _ => False
  | .apply _ _ => False
  | _ => True

variable {op : EffectOp} {w w' : EffectWorld}

/-- An operation other than a claim acquisition keeps every acquired key. -/
theorem stored_of_inert (h : Inert op) {reply : op.Reply} (env : EffectWorld.env op w reply w')
    {key : ClaimKey} (stored : (w.claims.get key).isSome) :
    (w'.claims.get key).isSome := by
  cases op with
  | claimCreate claim => exact h.elim
  | claimUpdate claim =>
      rw [env.2]
      exact InMemoryEffectClaimStore.isSome_get_update stored claim
  | appendStageEvent scope draft =>
      obtain ⟨l, _, rfl⟩ := env
      exact stored
  | enqueueAfterDecision command =>
      rcases env with ⟨_, rfl⟩ | ⟨_, _, rfl | rfl⟩ <;> exact stored
  | claimGet key => rw [env.2]; exact stored
  | claimGetByClaimId orgId claimId => rw [env.2]; exact stored
  | listStageEvents scope stageId => rw [env.2]; exact stored
  | prepare executor request => obtain rfl := env; exact stored
  | authorize executor prepared => obtain rfl := env; exact stored
  | apply executor prepared => exact h.elim
  | reconcile executor claim => obtain rfl := env; exact stored
  | abort executor prepared => obtain rfl := env; exact stored
  | observe scope claim => obtain rfl := env; exact stored
  | cancellation scope request => obtain rfl := env; exact stored
  | isCancelled scope command => obtain rfl := env; exact stored
  | resolveScope runId => obtain rfl := env; exact stored
  | resolveExecutor kind scope => obtain rfl := env; exact stored
  | digestReference scope reference => obtain rfl := env; exact stored
  | audit action facts => obtain rfl := env; exact stored
  | getRun orgId runId => rw [env.2]; exact stored
  | listWriteEvents orgId runId => rw [env.2]; exact stored
  | emitWriteEvent run draft => rcases env with ⟨_, _, _, _, _, rfl, _⟩ | ⟨_, rfl⟩ <;> exact stored
  | enqueueStageCommit command => rcases env with ⟨_, rfl⟩ | ⟨_, _, rfl | rfl⟩ <;> exact stored

theorem not_creates_of_inert (h : Inert op) (n : Nat) (reply : op.Reply) (key : ClaimKey) :
    ¬Creates key (.performed n op reply) := by
  cases op with
  | claimCreate claim => exact h.elim
  | _ => exact fun hc => hc

theorem not_appliedBy_of_inert (h : Inert op) (n m : Nat) (reply : op.Reply) :
    ¬AppliedBy m (.performed n op reply) := by
  cases op with
  | apply executor prepared => exact h.elim
  | _ => exact fun hc => hc

theorem covered_of_inert (h : Inert op) (n : Nat) (reply : op.Reply)
    (earlier : List DispatchEvent) : ApplyIsCovered earlier (.performed n op reply) := by
  cases op with
  | apply executor prepared => exact h.elim
  | _ => trivial

variable {trace : List DispatchEvent}

/-- An inert operation keeps the invariant. -/
theorem DispatchInvariant.inert {reply : op.Reply} (hinert : Inert op)
    (inv : DispatchInvariant trace w) (env : EffectWorld.env op w reply w') (n : Nat) :
    DispatchInvariant (trace ++ [Event.performed n op reply]) w' where
  stored := by
    intro event hevent key hcreates
    rcases List.mem_append.mp hevent with hevent | hevent
    · exact stored_of_inert hinert env (inv.stored event hevent key hcreates)
    · obtain rfl := List.mem_singleton.mp hevent
      exact (not_creates_of_inert hinert n reply key hcreates).elim
  createdOnce key := atMostOnce_snoc.mpr
    ⟨inv.createdOnce key, fun hc => (not_creates_of_inert hinert n reply key hc).elim⟩
  covered := eachAfter_snoc.mpr ⟨inv.covered, covered_of_inert hinert n reply trace⟩
  appliedOnce m := atMostOnce_snoc.mpr
    ⟨inv.appliedOnce m, fun hc => (not_appliedBy_of_inert hinert n m reply hc).elim⟩

/-- Acquiring a claim keeps the invariant: it creates only keys that were free. -/
theorem DispatchInvariant.create {claim : EffectClaim}
    {reply : (EffectOp.claimCreate claim).Reply} (inv : DispatchInvariant trace w)
    (env : EffectWorld.env (.claimCreate claim) w reply w') (n : Nat) :
    DispatchInvariant (trace ++ [Event.performed n (EffectOp.claimCreate claim) reply]) w' := by
  obtain ⟨hreply, hw⟩ := env
  have hkept (key : ClaimKey) (h : (w.claims.get key).isSome) : (w'.claims.get key).isSome := by
    rw [hw]
    exact InMemoryEffectClaimStore.isSome_get_claim h claim
  have hnew (key : ClaimKey)
      (h : Creates key (.performed n (.claimCreate claim) reply : DispatchEvent)) :
      w.claims.get key = none ∧ (w'.claims.get key).isSome := by
    rcases InMemoryEffectClaimStore.claim_cases w.claims claim with
      ⟨hfree, heq⟩ | ⟨existing, _, _, heq⟩ | ⟨e, heq⟩
    · rw [heq] at hreply hw
      subst hreply hw
      obtain ⟨_, rfl⟩ := h
      exact ⟨hfree, by simp [InMemoryEffectClaimStore.get_put]⟩
    · rw [heq] at hreply
      subst hreply
      exact absurd h.1 (by simp)
    · rw [heq] at hreply
      subst hreply
      exact h.elim
  refine ⟨?_, fun key => ?_, ?_, fun m => ?_⟩
  · intro event hevent key hcreates
    rcases List.mem_append.mp hevent with hevent | hevent
    · exact hkept key (inv.stored event hevent key hcreates)
    · obtain rfl := List.mem_singleton.mp hevent
      exact (hnew key hcreates).2
  · refine atMostOnce_snoc.mpr ⟨inv.createdOnce key, fun hc event hevent hcreates => ?_⟩
    have hstored := inv.stored event hevent key hcreates
    rw [(hnew key hc).1] at hstored
    cases hstored
  · exact eachAfter_snoc.mpr ⟨inv.covered, trivial⟩
  · exact atMostOnce_snoc.mpr ⟨inv.appliedOnce m, fun hc => hc.elim⟩

/-- An entitled first apply of a task keeps the invariant. -/
theorem DispatchInvariant.apply {executor : EffectExecutor} {prepared : PreparedEffect}
    {reply : (EffectOp.apply executor prepared).Reply} (inv : DispatchInvariant trace w)
    (env : EffectWorld.env (.apply executor prepared) w reply w') {n : Nat}
    (first : ∀ event ∈ trace, ¬AppliedBy n event)
    (covered : ApplyIsCovered trace (.performed n (.apply executor prepared) reply)) :
    DispatchInvariant (trace ++
        [Event.performed n (EffectOp.apply executor prepared) reply]) w' := by
  obtain rfl : w' = w := env
  refine ⟨?_, fun key => ?_, ?_, fun m => ?_⟩
  · intro event hevent key hcreates
    rcases List.mem_append.mp hevent with hevent | hevent
    · exact inv.stored event hevent key hcreates
    · obtain rfl := List.mem_singleton.mp hevent
      exact hcreates.elim
  · exact atMostOnce_snoc.mpr ⟨inv.createdOnce key, fun hc => hc.elim⟩
  · exact eachAfter_snoc.mpr ⟨inv.covered, covered⟩
  · refine atMostOnce_snoc.mpr ⟨inv.appliedOnce m, fun hm => ?_⟩
    obtain rfl : n = m := hm
    exact first

section Footprints

/-- Operations that record how an attempt ended or release what it reserved. -/
def Recording : EffectOp → Prop
  | .claimUpdate _ => True
  | .abort _ _ => True
  | _ => False

theorem Recording.inert {op : EffectOp} (h : Recording op) : Inert op := by
  cases op with
  | claimUpdate claim => trivial
  | abort executor prepared => trivial
  | _ => exact h.elim

theorem onlyAwaits_abortSafely (executor : EffectExecutor) (prepared : PreparedEffect) :
    (abortSafely executor prepared).OnlyAwaits Recording :=
  onlyAwaits_perform_bind (by trivial) fun _ => .done _

theorem onlyAwaits_settle (claim : EffectClaim) (result : EffectExecutionResult)
    (state : EffectClaimState) (updatedAt : String) :
    (settle claim result state updatedAt).OnlyAwaits Recording := by
  unfold settle
  split
  · exact .raised _
  · exact onlyAwaits_perform_bind (by trivial) onlyAwaits_unwrapClaim

theorem onlyAwaits_settleIndeterminate (claim : EffectClaim) (result : EffectExecutionResult)
    (mint : Minted) : (settleIndeterminate claim result mint).OnlyAwaits Recording := by
  unfold settleIndeterminate
  exact (onlyAwaits_settle claim result _ _).bind_pure _

/-- Whatever an apply reports, what follows only records it. -/
theorem onlyAwaits_recordApplied (claim : EffectClaim) (mint : Minted)
    (reply : Except EffectError EffectExecutionResult) :
    (recordApplied claim mint reply).OnlyAwaits Recording := by
  cases reply with
  | error e => exact onlyAwaits_settleIndeterminate _ _ _
  | ok result =>
      dsimp only [recordApplied]
      split
      · exact onlyAwaits_settleIndeterminate _ _ _
      · exact (onlyAwaits_settle _ _ _ _).bind_pure _

/-- A denied effect is only released and recorded. -/
theorem onlyAwaits_refuseDenied (request : EffectDispatchRequest) (executor : EffectExecutor)
    (prepared : PreparedEffect) (claim : EffectClaim)
    (authorization : EffectExecutionAuthorization) (mint : Minted) :
    (refuseDenied request executor prepared claim authorization mint).OnlyAwaits Recording := by
  unfold refuseDenied
  refine (onlyAwaits_abortSafely _ _).bind fun _ => ?_
  exact (onlyAwaits_settle _ _ _ _).bind_pure _

theorem onlyAwaits_dispatchLost (scope : EffectExecutionScope) (request : EffectDispatchRequest)
    (executor : EffectExecutor) (prepared : PreparedEffect) (claim : EffectClaim) :
    (dispatchLost scope request executor prepared claim).OnlyAwaits Recording := by
  unfold dispatchLost
  split
  · exact (onlyAwaits_abortSafely _ _).bind_pure _
  · exact .done _

theorem onlyAwaits_prepareRequest (executor : EffectExecutor) (request : EffectDispatchRequest) :
    (prepareRequest executor request).OnlyAwaits Inert := by
  unfold prepareRequest
  split
  · exact .done _
  · refine onlyAwaits_perform_bind (by trivial) fun reply => ?_
    cases reply <;> exact .done _

theorem onlyAwaits_checkCancelled (scope : EffectExecutionScope) (request : EffectDispatchRequest)
    (expected : Option String) (cancellable observed : Bool) :
    (checkCancelled scope request
      (callerOptions expected cancellable observed)).OnlyAwaits Inert := by
  cases cancellable with
  | false => exact .done _
  | true => exact onlyAwaits_perform_bind (by trivial) onlyAwaits_unwrap

theorem onlyAwaits_publishClaim (scope : EffectExecutionScope) (claim : EffectClaim)
    (expected : Option String) (cancellable observed : Bool) :
    (publishClaim scope (callerOptions expected cancellable observed) claim).OnlyAwaits Inert := by
  cases observed with
  | false => exact .done _
  | true => exact onlyAwaits_perform_bind (by trivial) onlyAwaits_unwrap

variable (sha256 : String → String)

variable (scope : EffectStageScope)

theorem onlyAwaits_appendPhase (phase : String) (claim : EffectClaim) (eventType : String)
    (payload : Payload) :
    (appendPhase sha256 scope phase claim eventType payload).OnlyAwaits Inert := by
  unfold appendPhase
  refine onlyAwaits_perform_bind (by trivial) fun reply => ?_
  exact (onlyAwaits_unwrap reply).bind_pure _

theorem onlyAwaits_recordCompletion (claim : EffectClaim) :
    (recordCompletion sha256 scope claim).OnlyAwaits Inert := by
  unfold recordCompletion
  split
  · exact onlyAwaits_appendPhase sha256 _ _ _ _ _
  · split
    · exact .done _
    · exact onlyAwaits_appendPhase sha256 _ _ _ _ _

theorem onlyAwaits_recordReconciled (claim : EffectClaim) :
    (recordReconciled sha256 scope claim).OnlyAwaits Inert := by
  unfold recordReconciled
  split
  · exact .done _
  · exact onlyAwaits_appendPhase sha256 _ _ _ _ _

theorem onlyAwaits_persistClaim (fields : EffectClaimFields) :
    (persistClaim fields).OnlyAwaits Inert := by
  unfold persistClaim
  split
  · exact .raised _
  · exact onlyAwaits_perform_bind (by trivial) onlyAwaits_unwrapClaim

theorem onlyAwaits_markReconcileIndeterminate (claim : EffectClaim) (safeMessage : Option String)
    (now : String) :
    (markReconcileIndeterminate sha256 scope claim safeMessage now).OnlyAwaits Inert := by
  unfold markReconcileIndeterminate
  split
  · exact (onlyAwaits_recordCompletion sha256 _ _).bind_pure _
  · refine (onlyAwaits_persistClaim _).bind fun stored => ?_
    exact (onlyAwaits_recordCompletion sha256 _ _).bind_pure _

theorem onlyAwaits_reconcileUnresolved (executor : EffectExecutor) (claim : EffectClaim)
    (now : String) : (reconcileUnresolved sha256 scope executor claim now).OnlyAwaits Inert := by
  unfold reconcileUnresolved
  split
  · exact onlyAwaits_markReconcileIndeterminate sha256 _ _ _ _
  · refine onlyAwaits_perform_bind (by trivial) fun reply => ?_
    cases reply with
    | error e => exact onlyAwaits_markReconcileIndeterminate sha256 _ _ _ _
    | ok result =>
        dsimp only
        split
        · exact onlyAwaits_markReconcileIndeterminate sha256 _ _ _ _
        · refine (onlyAwaits_persistClaim _).bind fun stored => ?_
          refine (onlyAwaits_recordReconciled sha256 _ _).bind fun _ => ?_
          exact (onlyAwaits_recordCompletion sha256 _ _).bind_pure _

/-- Reconciliation neither acquires a claim nor applies an effect. -/
theorem onlyAwaits_reconcile (command : EffectReconcileCommand) (now : String) :
    (reconcile sha256 command now).OnlyAwaits Inert := by
  unfold reconcile
  refine onlyAwaits_perform_bind (by trivial) fun found => ?_
  cases found with
  | none => exact .done _
  | some claim =>
      dsimp only
      refine onlyAwaits_perform_bind (by trivial) fun reply => ?_
      refine (onlyAwaits_unwrap reply).bind fun resolved => ?_
      cases resolved with
      | none => exact .done _
      | some scope =>
          dsimp only
          split
          · exact .done _
          · split
            · exact .raised _
            · split
              · exact (onlyAwaits_recordCompletion sha256 _ _).bind_pure _
              · refine onlyAwaits_perform_bind (by trivial) fun reply => ?_
                refine (onlyAwaits_unwrap reply).bind fun executor => ?_
                exact onlyAwaits_reconcileUnresolved sha256 _ _ _ _

end Footprints

section Safety

/-- The program keeps the invariant from the given own events of its task on. -/
abbrev KeepsInvariant {α : Type} (n : Nat) (p : EffectProgram α) (own : List DispatchEvent) :
    Prop :=
  Safe EffectWorld.env DispatchInvariant n (fun _ _ => True) p own

/-- The own events hold the call's start and no apply. -/
structure Unapplied (n : Nat) (call : DispatchCall) (own : List DispatchEvent) : Prop where
  start : .started n call ∈ own
  fresh : ∀ event ∈ own, ¬AppliedBy n event

variable {n : Nat} {call : DispatchCall} {own : List DispatchEvent}

theorem Unapplied.snoc (h : Unapplied n call own) {event : DispatchEvent}
    (hevent : ¬AppliedBy n event) : Unapplied n call (own ++ [event]) where
  start := List.mem_append_left _ h.start
  fresh := by
    intro other hother
    rcases List.mem_append.mp hother with hother | hother
    · exact h.fresh other hother
    · obtain rfl := List.mem_singleton.mp hother
      exact hevent

theorem Unapplied.append_inert (h : Unapplied n call own) {more : List DispatchEvent}
    (hmore : ∀ event ∈ more, ∃ op reply, Inert op ∧ event = .performed n op reply) :
    Unapplied n call (own ++ more) where
  start := List.mem_append_left _ h.start
  fresh := by
    intro other hother
    rcases List.mem_append.mp hother with hother | hother
    · exact h.fresh other hother
    · obtain ⟨op, reply, hinert, rfl⟩ := hmore other hother
      exact not_appliedBy_of_inert hinert n n reply

theorem keepsInvariant_of_inert {α : Type} {p : EffectProgram α} (h : p.OnlyAwaits Inert)
    (own : List DispatchEvent) : KeepsInvariant n p own :=
  (Safe.of_onlyAwaits (fun _ _ _ _ _ hinert _ inv env => inv.inert hinert env n) h).mono
    fun _ _ _ => trivial

theorem keepsInvariant_bind_inert {α β : Type} {p : EffectProgram α} (h : p.OnlyAwaits Inert)
    {f : α → EffectProgram β} (started : Unapplied n call own)
    (hf : ∀ a more, (∀ event ∈ more, ∃ op reply, Inert op ∧ event = .performed n op reply) →
      Unapplied n call (own ++ more) → KeepsInvariant n (f a) (own ++ more)) :
    KeepsInvariant n (p >>= f) own :=
  Safe.bind_onlyAwaits (fun _ _ _ _ _ hinert _ inv env => inv.inert hinert env n) h
    (fun a more hmore => hf a more hmore (started.append_inert hmore)) fun _ _ _ => trivial

/-- After an inert operation it remains to verify the continuation. -/
theorem keepsInvariant_perform {α : Type} {op : EffectOp} {f : op.Reply → EffectProgram α}
    (h : Inert op) (started : Unapplied n call own)
    (hf : ∀ reply, Unapplied n call (own ++ [Event.performed n op reply]) →
      KeepsInvariant n (f reply) (own ++ [Event.performed n op reply])) :
    KeepsInvariant n (perform op >>= f) own := by
  refine .of_await fun trace w reply w' inv _ env => ?_
  exact ⟨inv.inert h env n, hf reply (started.snoc (not_appliedBy_of_inert h n n reply))⟩

/-- Only a dispatch that created the claim has more than inert operations left. -/
theorem keepsInvariant_claimCreate {α : Type} {proposed : EffectClaim}
    {f : (EffectOp.claimCreate proposed).Reply → EffectProgram α} (started : Unapplied n call own)
    (hcreated : ∀ own', Unapplied n call own' →
      .performed n (.claimCreate proposed) (.ok ⟨true, proposed⟩) ∈ own' →
      KeepsInvariant n (f (.ok ⟨true, proposed⟩)) own')
    (hexisting : ∀ existing, (f (.ok ⟨false, existing⟩)).OnlyAwaits Inert)
    (hraised : ∀ e, (f (.error e)).OnlyAwaits Inert) :
    KeepsInvariant n (perform (.claimCreate proposed) >>= f) own := by
  refine .of_await fun trace w reply w' inv _ env => ?_
  refine ⟨inv.create env n, ?_⟩
  have hreply := env.1
  rcases InMemoryEffectClaimStore.claim_cases w.claims proposed with
    ⟨_, heq⟩ | ⟨existing, _, _, heq⟩ | ⟨e, heq⟩
  · rw [heq] at hreply
    subst hreply
    exact hcreated _ (started.snoc fun h => h) (List.mem_append_right _ (List.mem_singleton.mpr rfl))
  · rw [heq] at hreply
    subst hreply
    exact keepsInvariant_of_inert (hexisting existing) _
  · rw [heq] at hreply
    subst hreply
    exact keepsInvariant_of_inert (hraised e) _

theorem keepsInvariant_apply {α : Type} {executor : EffectExecutor} {prepared : PreparedEffect}
    {f : (EffectOp.apply executor prepared).Reply → EffectProgram α}
    (started : Unapplied n call own) (entitled : Entitled n executor prepared own)
    (hf : ∀ reply, (f reply).OnlyAwaits Inert) :
    KeepsInvariant n (perform (.apply executor prepared) >>= f) own := by
  refine .of_await fun trace w reply w' inv hown env => ?_
  have hsub : ∀ event ∈ own, event ∈ trace := by
    intro event hevent
    rw [← hown] at hevent
    exact (mem_ownEvents.mp hevent).1
  refine ⟨inv.apply env ?_ (entitled.mono hsub), keepsInvariant_of_inert (hf reply) _⟩
  intro event hevent happlied
  have htask : event.task = n := by
    cases event with
    | performed m op reply => cases op <;> first | exact happlied | exact happlied.elim
    | _ => exact happlied.elim
  exact started.fresh event (hown ▸ mem_ownEvents.mpr ⟨hevent, htask⟩) happlied

theorem ok_of_verdict_allowed {reply : Except EffectError (Option EffectExecutionAuthorization)}
    (h : (verdict reply).allowed = true) : reply = .ok (some (verdict reply)) := by
  rcases reply with e | _ | authorization
  · cases h
  · cases h
  · rfl

/-- Only an allowing verdict, recorded as such, may be followed by an apply. -/
theorem keepsInvariant_authorizePrepared {α : Type} {executor : EffectExecutor}
    {prepared : PreparedEffect} {f : EffectExecutionAuthorization → EffectProgram α}
    (started : Unapplied n call own)
    (hallowed : ∀ authorization own', authorization.allowed = true → Unapplied n call own' →
      (∀ event ∈ own, event ∈ own') →
      .performed n (.authorize executor prepared) (.ok (some authorization)) ∈ own' →
      KeepsInvariant n (f authorization) own')
    (hdenied : ∀ authorization, authorization.allowed = false →
      (f authorization).OnlyAwaits Inert) :
    KeepsInvariant n (authorizePrepared executor prepared >>= f) own := by
  unfold authorizePrepared
  rw [perform_bind, Program.await_bind, ← perform_bind]
  refine keepsInvariant_perform trivial started fun reply started' => ?_
  rw [Program.pure_eq_done, Program.done_bind]
  cases hverdict : (verdict reply).allowed with
  | false => exact keepsInvariant_of_inert (hdenied _ hverdict) _
  | true =>
      refine hallowed _ _ hverdict started' (fun event hevent => List.mem_append_left _ hevent) ?_
      rw [← ok_of_verdict_allowed hverdict]
      exact List.mem_append_right _ (List.mem_singleton.mpr rfl)

variable {scope : EffectExecutionScope} {request : EffectDispatchRequest}
  {executor : EffectExecutor} {expected : Option String} {cancellable observed : Bool}
  {mint : Minted} {prepared : PreparedEffect} {claim : EffectClaim}
  (started : Unapplied n (.dispatch scope request executor expected cancellable observed mint) own)
include started

/-- With the claim created, the task may apply once after an allowing verdict. -/
theorem keepsInvariant_dispatchUncancelled (hprepared : prepared.request = .dispatch request)
    (hcreated : .performed n (.claimCreate claim) (.ok ⟨true, claim⟩) ∈ own)
    (hmatches : claimMatches claim scope request = true) :
    KeepsInvariant n (dispatchUncancelled request executor prepared claim mint) own := by
  unfold dispatchUncancelled
  refine keepsInvariant_authorizePrepared started ?_ ?_
  · intro authorization own' hallowed started' hsub hverdict
    rw [if_pos hallowed]
    unfold applyAuthorized
    refine keepsInvariant_apply started' ?_ fun reply => ?_
    · exact ⟨scope, request, expected, cancellable, observed, mint, claim, authorization,
        started'.start, hprepared, hsub _ hcreated, hmatches, hverdict, hallowed⟩
    · exact (onlyAwaits_recordApplied claim mint reply).mono fun _ => Recording.inert
  · intro authorization hdenied
    rw [if_neg (by simp [hdenied])]
    exact (onlyAwaits_refuseDenied _ _ _ _ _ _).mono fun _ => Recording.inert

theorem keepsInvariant_dispatchClaimed (hprepared : prepared.request = .dispatch request)
    (hcreated : .performed n (.claimCreate claim) (.ok ⟨true, claim⟩) ∈ own)
    (hmatches : claimMatches claim scope request = true) :
    KeepsInvariant n
      (dispatchClaimed scope request executor (callerOptions expected cancellable observed)
        prepared claim mint) own := by
  unfold dispatchClaimed
  refine keepsInvariant_bind_inert (onlyAwaits_publishClaim _ _ _ _ _) started ?_
  intro _ more _ started'
  refine keepsInvariant_bind_inert (onlyAwaits_checkCancelled _ _ _ _ _) started' ?_
  intro cancelled more' _ started''
  have hcreated' := List.mem_append_left more' (List.mem_append_left more hcreated)
  cases cancelled with
  | true =>
      have hrecorded := (onlyAwaits_abortSafely executor prepared).bind fun _ =>
        (onlyAwaits_settle claim cancelledResult .cancelled mint.updatedAt).bind_pure
          fun stored => fromClaim stored .cancelled
      exact keepsInvariant_of_inert (hrecorded.mono fun _ => Recording.inert) _
  | false => exact keepsInvariant_dispatchUncancelled started'' hprepared hcreated' hmatches

omit started in
/-- The claim proposed for a request matches that request. -/
theorem claimMatches_of_modelValidate {proposed : EffectClaim}
    (h : EffectClaim.modelValidate (claimFields scope request prepared mint) = .ok proposed) :
    claimMatches proposed scope request = true := by
  have hfields := EffectClaim.modelValidate_eq_ok_iff.mp h
  simp [claimMatches, hfields, claimFields]

theorem keepsInvariant_dispatchPrepared (hprepared : prepared.request = .dispatch request) :
    KeepsInvariant n
      (dispatchPrepared scope request executor (callerOptions expected cancellable observed)
        prepared mint) own := by
  unfold dispatchPrepared
  split
  · exact keepsInvariant_of_inert (.raised _) _
  · next proposed hclaim =>
      refine keepsInvariant_claimCreate started ?_ ?_ fun e => .raised _
      · intro own' started' hcreated
        exact keepsInvariant_dispatchClaimed started' hprepared hcreated
          (claimMatches_of_modelValidate hclaim)
      · exact fun existing => (onlyAwaits_dispatchLost _ _ _ _ _).mono fun _ => Recording.inert

theorem keepsInvariant_dispatchUnclaimed :
    KeepsInvariant n
      (dispatchUnclaimed scope request executor (callerOptions expected cancellable observed) mint)
      own := by
  unfold dispatchUnclaimed
  refine keepsInvariant_bind_inert (onlyAwaits_prepareRequest _ _) started ?_
  intro found more _ started'
  cases found with
  | none => exact keepsInvariant_of_inert (.done _) _
  | some prepared =>
      dsimp only
      by_cases hprepared : prepared.request = .dispatch request
      · rw [if_neg (not_not.mpr hprepared)]
        by_cases hdrift : preconditionDrifted prepared expected
        · rw [expectedPreconditionDigest_callerOptions, if_pos hdrift]
          exact keepsInvariant_of_inert
            (((onlyAwaits_abortSafely _ _).bind_pure _).mono fun _ => Recording.inert) _
        · rw [expectedPreconditionDigest_callerOptions, if_neg hdrift]
          exact keepsInvariant_dispatchPrepared started' hprepared
      · rw [if_pos hprepared]
        exact keepsInvariant_of_inert
          (((onlyAwaits_abortSafely _ _).bind_pure _).mono fun _ => Recording.inert) _

theorem keepsInvariant_dispatch :
    KeepsInvariant n
      (dispatch scope request executor (callerOptions expected cancellable observed) mint) own := by
  unfold dispatch
  split
  · exact keepsInvariant_of_inert (.done _) _
  · refine keepsInvariant_perform trivial started fun reply started' => ?_
    cases reply with
    | none => exact keepsInvariant_dispatchUnclaimed started'
    | some existing => exact keepsInvariant_of_inert (.done _) _

end Safety

section Runs
variable {trace : List DispatchEvent} {w : EffectWorld}

theorem DispatchInvariant.started (inv : DispatchInvariant trace w) (n : Nat)
    (call : DispatchCall) :
    DispatchInvariant (trace ++ [Event.started n call]) w where
  stored := by
    intro event hevent key hcreates
    rcases List.mem_append.mp hevent with hevent | hevent
    · exact inv.stored event hevent key hcreates
    · obtain rfl := List.mem_singleton.mp hevent
      exact hcreates.elim
  createdOnce key := atMostOnce_snoc.mpr ⟨inv.createdOnce key, fun hc => hc.elim⟩
  covered := eachAfter_snoc.mpr ⟨inv.covered, trivial⟩
  appliedOnce m := atMostOnce_snoc.mpr ⟨inv.appliedOnce m, fun hc => hc.elim⟩

theorem DispatchInvariant.stopped (inv : DispatchInvariant trace w) (n : Nat) :
    DispatchInvariant (trace ++ [Event.stopped n]) w where
  stored := by
    intro event hevent key hcreates
    rcases List.mem_append.mp hevent with hevent | hevent
    · exact inv.stored event hevent key hcreates
    · obtain rfl := List.mem_singleton.mp hevent
      exact hcreates.elim
  createdOnce key := atMostOnce_snoc.mpr ⟨inv.createdOnce key, fun hc => hc.elim⟩
  covered := eachAfter_snoc.mpr ⟨inv.covered, trivial⟩
  appliedOnce m := atMostOnce_snoc.mpr ⟨inv.appliedOnce m, fun hc => hc.elim⟩

/-- Dispatches and reconciliations keep the invariant from any initial world. -/
theorem dispatchVerified (sha256 : String → String) (w₀ : EffectWorld) :
    Verified (DispatchCall.body sha256) EffectWorld.env DispatchInvariant (fun _ _ _ => True) w₀
    where
  init := {
    stored := fun _ h => by cases h
    createdOnce := fun _ => atMostOnce_nil
    covered := eachAfter_nil
    appliedOnce := fun _ => atMostOnce_nil }
  started _ _ n call inv _ := inv.started n call
  body_safe n call := by
    cases call with
    | dispatch scope request executor expected cancellable observed mint =>
        refine Safe.bind (keepsInvariant_dispatch ⟨List.mem_singleton.mpr rfl, ?_⟩) ?_ ?_
        · intro event hevent
          obtain rfl := List.mem_singleton.mp hevent
          exact fun h => h
        · exact fun _ _ _ => .done trivial
        · exact fun _ _ _ => trivial
    | reconcile command now =>
        exact keepsInvariant_of_inert ((onlyAwaits_reconcile sha256 command now).bind_pure _) _
  stopped _ _ n inv := inv.stopped n

/-- A task that applied was started as a dispatch and created the claim of its key. -/
theorem DispatchInvariant.created_of_applied (inv : DispatchInvariant trace w) {n : Nat}
    {event : DispatchEvent} (hevent : event ∈ trace) (happlied : AppliedBy n event) :
    ∃ call key, .started n call ∈ trace ∧ call.key? = some key ∧
      ∃ created ∈ trace, Creates key created ∧ created.task = n := by
  obtain ⟨earlier, later, rfl⟩ := List.append_of_mem hevent
  have hcovered := inv.covered earlier event later rfl
  cases event with
  | performed m op reply =>
      cases op with
      | apply executor prepared =>
          obtain rfl : m = n := happlied
          obtain ⟨scope, request, expected, cancellable, observed, mint, claim, authorization,
            hstart, _, hcreated, hmatches, _⟩ := hcovered
          refine ⟨_, _, List.mem_append_left _ hstart, rfl, _, List.mem_append_left _ hcreated,
            ⟨rfl, ?_⟩, rfl⟩
          simp only [claimMatches, Bool.and_eq_true, beq_iff_eq] at hmatches
          simp [EffectClaimFields.key, hmatches]
      | _ => exact happlied.elim
  | _ => exact happlied.elim

/-- Two applies under one key are the same event of the same task. -/
theorem DispatchInvariant.applies_once (inv : DispatchInvariant trace w)
    (unique : ∀ n call call', .started n call ∈ trace → .started n call' ∈ trace → call = call')
    (key : ClaimKey) :
    AtMostOnce (AppliesUnder trace key) trace := by
  rw [AtMostOnce, List.pairwise_iff_getElem]
  rintro i j hi hj hij ⟨⟨n, call, hn, hcall, hkey⟩, ⟨m, call', hm, hcall', hkey'⟩⟩
  have hcreated {k : Nat} {c : DispatchCall} {event : DispatchEvent} (hevent : event ∈ trace)
      (happlied : AppliedBy k event) (hc : .started k c ∈ trace) (hk : c.key? = some key) :
      ∃ created ∈ trace, Creates key created ∧ created.task = k := by
    obtain ⟨c', key', hc', hk', rest⟩ := inv.created_of_applied hevent happlied
    obtain rfl := unique k c c' hc hc'
    obtain rfl : key = key' := Option.some.inj (hk.symm.trans hk')
    exact rest
  obtain ⟨e, he, hce, hte⟩ := hcreated (List.getElem_mem hi) hn hcall hkey
  obtain ⟨e', he', hce', hte'⟩ := hcreated (List.getElem_mem hj) hm hcall' hkey'
  obtain rfl := (inv.createdOnce key).eq he he' hce hce'
  obtain rfl : n = m := hte.symm.trans hte'
  exact List.pairwise_iff_getElem.mp (inv.appliedOnce n) i j hi hj hij ⟨hn, hm⟩

/-- In every interleaving an idempotency key is applied at most once, each apply follows the
creation of a matching claim and an allowing verdict, and no reconciliation applies. -/
theorem dispatch_applies_at_most_once (sha256 : String → String) {w₀ : EffectWorld}
    {trace : List DispatchEvent} {pool : Pool EffectOp EffectOp.Reply EffectError Unit EffectWorld}
    (run : Run (DispatchCall.body sha256) EffectWorld.env w₀ trace pool) :
    (∀ key, AtMostOnce (AppliesUnder trace key) trace) ∧
      EachAfter ApplyIsCovered trace ∧
      ∀ n command now, .started n (.reconcile command now) ∈ trace →
        ∀ event ∈ trace, ¬AppliedBy n event := by
  have inv := run.invariant (dispatchVerified sha256 w₀)
  refine ⟨inv.applies_once fun n call call' => run.started_unique, inv.covered, fun n command now hstart event hevent happlied => ?_⟩
  obtain ⟨call, key, hcall, hkey, _⟩ := inv.created_of_applied hevent happlied
  obtain rfl := run.started_unique hstart hcall
  cases hkey

/-- Two deliveries of one approved write interleave up to their acquisitions. The first to
acquire applies; a reconciliation follows. -/
def sampleRun : List DispatchEvent × Pool EffectOp EffectOp.Reply EffectError Unit EffectWorld :=
  let deliver := DispatchCall.dispatch Sample.scope Sample.request Sample.executor none true true
  Pool.play (EffectWorld.answer (Sample.replies Sample.request true (.plain .applied "Done.")).external)
    (DispatchCall.body id) EffectWorld.empty
    ([.start (deliver Sample.mint), .start (deliver Sample.mint)] ++
      [0, 1, 0, 1, 0, 1, 0, 0, 0, 0, 1, 0].map .perform ++
      [.start (.reconcile ⟨"org-1", "claim-1"⟩ "t2"), .perform 2, .perform 2])

theorem dispatch_applies_at_most_once_sample :
    (∀ key, AtMostOnce (AppliesUnder sampleRun.1 key) sampleRun.1) ∧
      EachAfter ApplyIsCovered sampleRun.1 ∧
      ∀ n command now, .started n (.reconcile command now) ∈ sampleRun.1 →
        ∀ event ∈ sampleRun.1, ¬AppliedBy n event :=
  dispatch_applies_at_most_once id (Run.play (EffectWorld.answer_sound _) _)

end Runs

end CopilotRuntime.Effects
