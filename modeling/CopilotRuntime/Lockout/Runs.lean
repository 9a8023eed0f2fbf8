import CopilotRuntime.Lockout.StoreLaws

/-!
# Lockouts over runs of the service

Any number of logins and forced unlocks take turns at every operation. A lockout
that ends was forced to, had come to its time, or was stored after the login that
ends it had made its check; no other login verifies a credential under it.

## Implementation notes

What an event says about a lockout that is still active is kept for every event
of the trace, so a login's own check can be used at any later step of it.
-/

namespace CopilotRuntime.Lockout

open Foundation

variable {lower : String → String} {w₀ w w' : LockoutWorld} {trace : List LockoutEvent}
  {n : Nat} {orgId userId : String} {r : AccountLockoutRecord}

def Enforced (w : LockoutWorld) (orgId : String) : Prop :=
  ∃ policy, w.policies.get? orgId = some policy ∧ policy.enforceLockout = true

/-- The lockout was stored by one of the events. -/
def StoredIn (events : List LockoutEvent) (r : AccountLockoutRecord) : Prop :=
  ∃ event ∈ events, Stores event r

theorem StoredIn.mono {events later : List LockoutEvent} (h : StoredIn events r)
    (hsub : ∀ event ∈ events, event ∈ later) : StoredIn later r := by
  obtain ⟨event, hevent, hstores⟩ := h
  exact ⟨event, hsub event hevent, hstores⟩

/-- A lockout stored before the event may be active after it. -/
structure Permits (event : LockoutEvent) (r : AccountLockoutRecord) : Prop where
  kept : ¬ Unlocks event r.orgId r.userId
  seen : ∀ n reply, event = .performed n (.getActiveLockout r.orgId r.userId) reply →
    reply = some r

/-- What the events so far say about the state. -/
structure Recorded (w₀ : LockoutWorld) (trace : List LockoutEvent) (w : LockoutWorld) : Prop where
  policies : w.policies = w₀.policies
  clock : ∀ n (t : Int), .performed n .now t ∈ trace → t ≤ w.clock
  since : ∀ earlier event later, trace = earlier ++ event :: later → ∀ r,
    w.Locked r.orgId r.userId r → Permits event r ∨ StoredIn later r

theorem recorded_nil (w : LockoutWorld) : Recorded w [] w where
  policies := rfl
  clock _ _ h := by cases h
  since _ _ _ h := by simp at h

variable {event : LockoutEvent}

/-- One more event keeps what the earlier ones say, if it keeps the lockouts it did not store. -/
theorem Recorded.snoc (h : Recorded w₀ trace w) (hpolicies : w'.policies = w.policies) (hclock : w.clock ≤ w'.clock)
    (hnow : ∀ n (t : Int), event = .performed n .now t → t ≤ w'.clock)
    (hlocked : ∀ r, w'.Locked r.orgId r.userId r →
      (w.Locked r.orgId r.userId r ∧ Permits event r) ∨ (Stores event r ∧ Permits event r)) :
    Recorded w₀ (trace ++ [event]) w' where
  policies := hpolicies.trans h.policies
  clock n t hmem := by
    obtain hold | hlast := List.mem_append.mp hmem
    · exact (h.clock n t hold).trans hclock
    · exact hnow n t (List.mem_singleton.mp hlast).symm
  since earlier e later hsplit r hr := by
    obtain ⟨rfl, rfl, rfl⟩ | ⟨later', rfl, htrace⟩ := snoc_eq_append_cons_iff.mp hsplit
    · obtain ⟨-, hpermits⟩ | ⟨-, hpermits⟩ := hlocked r hr
      · exact .inl hpermits
      · exact .inl hpermits
    · obtain ⟨hold, -⟩ | ⟨hstores, -⟩ := hlocked r hr
      · obtain hpermits | hstored := h.since earlier e later' htrace r hold
        · exact .inl hpermits
        · exact .inr (hstored.mono fun _ hmem => List.mem_append_left _ hmem)
      · exact .inr ⟨event, List.mem_append_right _ List.mem_cons_self, hstores⟩

variable {op : LockoutOp}

theorem Recorded.performed (h : Recorded w₀ trace w) {reply : op.Reply}
    (henv : LockoutWorld.env lower op w reply w') :
    Recorded w₀ (trace ++ [Event.performed n op reply]) w' := by
  obtain ⟨hpolicies, hclock⟩ := frame_of_env henv
  refine h.snoc hpolicies hclock (fun m t hevent => ?_) fun r hr => ?_
  · cases hevent
    exact (now_of_env henv).le
  · obtain ⟨hold, hkept⟩ | hstores := locked_of_env (n := n) henv hr
    · refine .inl ⟨hold, hkept, fun m active hevent => ?_⟩
      cases hevent
      exact lookup_of_env henv hr
    · refine .inr ⟨hstores, ?_, fun m active hevent => ?_⟩
      · rintro ⟨_, _, _, _, hunlock⟩
        obtain ⟨_, _, hstore⟩ := hstores
        cases hunlock.symm.trans hstore
      · obtain ⟨_, _, hstore⟩ := hstores
        cases hevent.symm.trans hstore

/-- An event that is no operation says nothing. -/
theorem Recorded.other (h : Recorded w₀ trace w)
    (hevent : ∀ n op reply, event ≠ .performed n op reply) : Recorded w₀ (trace ++ [event]) w := by
  refine h.snoc rfl (Int.le_refl _) (fun n t heq => absurd heq (hevent n _ _)) fun r hr => ?_
  refine .inl ⟨hr, ?_, fun n reply heq => absurd heq (hevent n _ _)⟩
  rintro ⟨n, _, _, _, heq⟩
  exact hevent n _ _ heq

/-! ### What a login has done -/

def Looks (n : Nat) (orgId userId : String) (event : LockoutEvent) : Prop :=
  ∃ reply, event = .performed n (.getActiveLockout orgId userId) reply

/-- The first lookup of a task, what it found, and the events after it. -/
def FirstLookup (n : Nat) (orgId userId : String) (events : List LockoutEvent)
    (found : Option AccountLockoutRecord) (after : List LockoutEvent) : Prop :=
  ∃ before, events = before ++ .performed n (.getActiveLockout orgId userId) found :: after ∧
    ∀ event ∈ before, ¬ Looks n orgId userId event

/-- The check found no lockout, or cleared the one it found. -/
def Passed (n : Nat) (orgId userId : String) (own : List LockoutEvent) : Prop :=
  ∃ found after, FirstLookup n orgId userId own found after ∧
    (found = none ∨ ∃ event ∈ after, Unlocks event orgId userId)

/-- The check found a lockout with less than a second to go. -/
def Lapsed (n : Nat) (orgId userId : String) (own : List LockoutEvent) : Prop :=
  ∃ r after, FirstLookup n orgId userId own (some r) after ∧
    ∃ (now autoUnlockAt : Int), .performed n .now now ∈ after ∧
      r.autoUnlockAt = some autoUnlockAt ∧ autoUnlockAt < now + second

/-- The task is a forced unlock of the user. -/
def Forced (n : Nat) (orgId userId : String) (trace : List LockoutEvent) : Prop :=
  ∃ unlockedBy reason, .started n (.forceUnlock orgId userId unlockedBy reason) ∈ trace

/-- What comes before an unlock or a verification. -/
def Backed (w₀ : LockoutWorld) (earlier : List LockoutEvent) : LockoutEvent → Prop
  | .performed n (.verifyCredential orgId (some userId) _) _ =>
      Enforced w₀ orgId → Passed n orgId userId (ownEvents n earlier)
  | .performed n (.unlock orgId userId _ _) _ =>
      Enforced w₀ orgId → Forced n orgId userId earlier ∨
        Passed n orgId userId (ownEvents n earlier) ∨ Lapsed n orgId userId (ownEvents n earlier)
  | _ => True

/-- The task's check looked before the lockout was stored. -/
def CheckedBefore (trace : List LockoutEvent) (n : Nat) (r : AccountLockoutRecord) : Prop :=
  ∃ found after, FirstLookup n r.orgId r.userId trace found after ∧ StoredIn after r

theorem FirstLookup.of_own {found : Option AccountLockoutRecord} {after : List LockoutEvent}
    (h : FirstLookup n orgId userId (ownEvents n trace) found after) :
    ∃ later, FirstLookup n orgId userId trace found later ∧ ownEvents n later = after := by
  obtain ⟨before, hown, hfirst⟩ := h
  obtain ⟨earlier, later, htrace, hbefore, hafter⟩ := exists_split_of_ownEvents hown
  refine ⟨later, ⟨earlier, htrace, fun event hevent hlooks => ?_⟩, hafter⟩
  obtain ⟨reply, rfl⟩ := hlooks
  exact hfirst _ (hbefore ▸ mem_ownEvents.mpr ⟨hevent, rfl⟩) ⟨reply, rfl⟩

/-- A lockout active after a passed check was stored after the check looked. -/
theorem Recorded.checkedBefore (h : Recorded w₀ trace w)
    (hpassed : Passed n r.orgId r.userId (ownEvents n trace))
    (hr : w.Locked r.orgId r.userId r) : CheckedBefore trace n r := by
  obtain ⟨found, after, hfirst, hcleared⟩ := hpassed
  obtain ⟨later, hlookup, rfl⟩ := hfirst.of_own
  refine ⟨found, later, hlookup, ?_⟩
  obtain ⟨earlier, htrace, -⟩ := hlookup
  obtain hpermits | hstored := h.since _ _ _ htrace r hr
  · obtain rfl | ⟨event, hevent, hunlocks⟩ := hcleared
    · cases hpermits.seen _ _ rfl
    · obtain ⟨first, rest, rfl⟩ := List.append_of_mem (mem_ownEvents.mp hevent).1
      rw [← List.cons_append, ← List.append_assoc] at htrace
      obtain hpermits' | hstored := h.since _ _ _ htrace r hr
      · exact absurd hunlocks hpermits'.kept
      · refine hstored.mono fun e he => ?_
        exact List.mem_append_right _ (List.mem_cons_of_mem _ he)
  · exact hstored

/-- A lockout active after a check that found one at its time is that one or a later one. -/
theorem Recorded.lapsed (h : Recorded w₀ trace w)
    (hlapsed : Lapsed n r.orgId r.userId (ownEvents n trace)) (hr : w.Locked r.orgId r.userId r) :
    CheckedBefore trace n r ∨ ∃ autoUnlockAt, r.autoUnlockAt = some autoUnlockAt ∧
      autoUnlockAt < w.clock + second := by
  obtain ⟨r', after, hfirst, now, autoUnlockAt, hnow, hauto, hless⟩ := hlapsed
  obtain ⟨later, hlookup, rfl⟩ := hfirst.of_own
  have hsplit := hlookup
  obtain ⟨earlier, htrace, -⟩ := hsplit
  obtain hpermits | hstored := h.since _ _ _ htrace r hr
  · obtain rfl := Option.some.inj (hpermits.seen _ _ rfl)
    have hmem := (mem_ownEvents.mp hnow).1
    have hle := h.clock n now (htrace ▸ List.mem_append_right _ (List.mem_cons_of_mem _ hmem))
    exact .inr ⟨autoUnlockAt, hauto, by omega⟩
  · exact .inl ⟨_, later, hlookup, hstored⟩

/-! ### Programs keep what the events say -/

/-- The events say what they should about the state and about each other. -/
def Kept (w₀ : LockoutWorld) (trace : List LockoutEvent) (w : LockoutWorld) : Prop :=
  Recorded w₀ trace w ∧ EachAfter (Backed w₀) trace

/-- An operation that neither unlocks nor verifies. -/
def Plain : LockoutOp → Prop
  | .unlock _ _ _ _ | .verifyCredential _ _ _ => False
  | _ => True

theorem backed_of_plain {reply : op.Reply} (h : Plain op) :
    Backed w₀ trace (.performed n op reply) := by
  cases op with
  | unlock => exact h.elim
  | verifyCredential => exact h.elim
  | _ => exact trivial

theorem Kept.performed (h : Kept w₀ trace w) {reply : op.Reply}
    (henv : LockoutWorld.env lower op w reply w')
    (hbacked : Backed w₀ trace (.performed n op reply)) :
    Kept w₀ (trace ++ [Event.performed n op reply]) w' :=
  ⟨h.1.performed henv, eachAfter_snoc.mpr ⟨h.2, hbacked⟩⟩

theorem Kept.other (h : Kept w₀ trace w) (hevent : ∀ n op reply, event ≠ .performed n op reply) :
    Kept w₀ (trace ++ [event]) w := by
  refine ⟨h.1.other hevent, eachAfter_snoc.mpr ⟨h.2, ?_⟩⟩
  cases event with
  | started => exact trivial
  | stopped => exact trivial
  | performed m op reply => exact absurd rfl (hevent m op reply)

abbrev Keeps (lower : String → String) (w₀ : LockoutWorld) (n : Nat) {α : Type}
    (post : Except AccountLocked α → List LockoutEvent → Prop) :
    LockoutProgram α → List LockoutEvent → Prop :=
  Safe (LockoutWorld.env lower) (Kept w₀) n post

theorem keeps_plain {α : Type} {p : LockoutProgram α} (h : p.OnlyAwaits Plain)
    (own : List LockoutEvent) :
    Keeps lower w₀ n (fun _ events => ∃ more, events = own ++ more) p own := by
  refine (Safe.of_onlyAwaits (fun trace s op reply s' hplain _ hkept henv => ?_) h).mono ?_
  · exact hkept.performed henv (backed_of_plain hplain)
  · rintro _ _ ⟨more, rfl, -⟩
    exact ⟨more, rfl⟩

theorem policyFor_plain (orgId : String) : (policyFor orgId).OnlyAwaits Plain :=
  .await trivial fun _ => .done _

variable {own : List LockoutEvent}

/-- Clearing a lapsed lockout passes the check. -/
theorem clearLapsed_keeps {before : List LockoutEvent} {now autoUnlockAt : Int}
    (hown : own = before ++ [Event.performed n (LockoutOp.getActiveLockout orgId userId) (some r),
      .performed n .now now])
    (hfirst : ∀ event ∈ before, ¬ Looks n orgId userId event)
    (hauto : r.autoUnlockAt = some autoUnlockAt) (hlapsed : autoUnlockAt < now + second) :
    Keeps lower w₀ n (fun _ events => Passed n orgId userId events)
      (clearLapsed orgId userId r) own := by
  refine .of_await fun trace s reply s' hkept hevents henv => ?_
  refine ⟨hkept.performed henv fun _ => .inr (.inr ?_), ?_⟩
  · refine ⟨r, [.performed n .now now], ⟨before, hevents.trans hown, hfirst⟩, ?_⟩
    exact ⟨now, autoUnlockAt, List.mem_cons_self, hauto, hlapsed⟩
  · refine .of_await fun trace s done s' hkept _ henv => ⟨hkept.performed henv trivial, .done ?_⟩
    rw [hown, List.append_assoc, List.append_assoc]
    refine ⟨some r, _, ⟨before, rfl, hfirst⟩, .inr ⟨_, ?_, n, _, _, reply, rfl⟩⟩
    exact List.mem_cons_of_mem _ List.mem_cons_self

/-- A check that found a lockout and returns was passed. -/
theorem checkActive_keeps {before : List LockoutEvent}
    (hown : own = before ++ [Event.performed n (LockoutOp.getActiveLockout orgId userId) (some r)])
    (hfirst : ∀ event ∈ before, ¬ Looks n orgId userId event) :
    Keeps lower w₀ n (fun result events => result = .ok () → Passed n orgId userId events)
      (checkActive orgId userId r) own := by
  rw [checkActive]
  cases hauto : r.autoUnlockAt with
  | none => exact .raised nofun
  | some autoUnlockAt =>
      refine .of_await fun trace s now s' hkept _ henv => ⟨hkept.performed henv trivial, ?_⟩
      change Keeps lower w₀ n _ (ite (retryAfter autoUnlockAt now ≤ 0) _ _) _
      split
      · next hlapsed =>
          have hevents : own ++ [Event.performed n LockoutOp.now now] = before ++
              [.performed n (.getActiveLockout orgId userId) (some r), .performed n .now now] := by
            rw [hown, List.append_assoc]
            rfl
          refine Safe.mono ?_ (clearLapsed_keeps hevents hfirst hauto (lt_of_retryAfter_le hlapsed))
          exact fun _ _ hpassed _ => hpassed
      · exact .raised nofun

theorem not_looks_of_length_le_two {call : LockoutCall} {reply : op.Reply}
    (hop : ∀ o u, op ≠ .getActiveLockout o u) :
    ∀ event ∈ [.started n call, .performed n op reply], ¬ Looks n orgId userId event := by
  rintro event hevent ⟨found, rfl⟩
  simp only [List.mem_cons, List.not_mem_nil, or_false, reduceCtorEq, false_or] at hevent
  injection hevent with _ heq
  exact hop _ _ heq.symm

/-- A login of an enforcing organisation that gets through the check passed it. -/
theorem checkOrRaise_keeps (orgId : String) (userId : Option String) (call : LockoutCall) :
    Keeps lower w₀ n
      (fun result events => result = .ok () → ∀ u, userId = some u → Enforced w₀ orgId →
        Passed n orgId u events)
      (checkOrRaise orgId userId) [.started n call] := by
  cases userId with
  | none => exact .done nofun
  | some userId =>
      refine .of_await fun trace s policy s' hkept _ henv => ⟨hkept.performed henv trivial, ?_⟩
      have hpolicy : policy = w₀.policies.get? orgId := by
        rw [policy_of_env henv, hkept.1.policies]
      change Keeps lower w₀ n _ (ite ((policy.getD _).enforceLockout = true) _ _) _
      split
      · refine .of_await fun trace s active s' hkept _ henv => ?_
        refine ⟨hkept.performed henv trivial, ?_⟩
        have hfirst : ∀ event ∈ [.started n call, .performed n (.getPolicy orgId) policy],
            ¬ Looks n orgId userId event := not_looks_of_length_le_two fun _ _ => nofun
        cases active with
        | none =>
            refine .done fun _ u huser _ => ?_
            obtain rfl := Option.some.inj huser
            exact ⟨none, [], ⟨_, rfl, hfirst⟩, .inl rfl⟩
        | some active =>
            refine Safe.mono ?_ (checkActive_keeps rfl hfirst)
            intro result events hpassed hresult u huser _
            exact Option.some.inj huser ▸ hpassed hresult
      · next hoff =>
          refine .done fun _ u _ henforced => ?_
          obtain ⟨record, hrecord, hon⟩ := henforced
          rw [hpolicy, hrecord] at hoff
          exact absurd hon hoff

/-! ### Whole calls -/

theorem failureCountForWindow_plain (orgId userId : String) (email : Option String)
    (windowSeconds : Int) :
    (failureCountForWindow orgId userId email windowSeconds).OnlyAwaits Plain := by
  rw [failureCountForWindow]
  cases email.filter (· ≠ "") with
  | none => exact .await trivial fun _ => .await trivial fun _ => .done _
  | some email =>
      exact .await trivial fun _ => .await trivial fun _ => .await trivial fun _ => .done _

theorem autoUnlockFor_plain (orgId userId : String) (policy : LockoutPolicyRecord) :
    (autoUnlockFor orgId userId policy).OnlyAwaits Plain := by
  refine Program.OnlyAwaits.bind (p := timedUnlock policy) ?_ fun autoUnlock => ?_
  · rw [timedUnlock]
    split
    · exact .await trivial fun _ => .done _
    · exact .done _
  · split
    · exact .await trivial fun _ => .await trivial fun _ => .done _
    · exact .done _

theorem lock_plain (orgId userId : String) (policy : LockoutPolicyRecord) :
    (lock orgId userId policy).OnlyAwaits Plain := by
  refine (autoUnlockFor_plain orgId userId policy).bind fun autoUnlock => ?_
  refine .await trivial fun lockedAt => .await trivial fun created => ?_
  cases created with
  | none => exact .done _
  | some record => exact .await trivial fun _ => .done _

theorem recordFailure_plain (orgId : String) (userId email : Option String) :
    (recordFailure orgId userId email).OnlyAwaits Plain := by
  cases userId with
  | none => exact .done _
  | some userId =>
      refine (policyFor_plain orgId).bind fun policy => ?_
      refine (failureCountForWindow_plain orgId userId email _).bind fun recent => ?_
      split
      · exact .done _
      · exact lock_plain orgId userId policy

theorem Passed.append (h : Passed n orgId userId own) (more : List LockoutEvent) :
    Passed n orgId userId (own ++ more) := by
  obtain ⟨found, after, ⟨before, rfl, hfirst⟩, hcleared⟩ := h
  refine ⟨found, after ++ more, ⟨before, by simp, hfirst⟩, hcleared.imp_right ?_⟩
  rintro ⟨event, hevent, hunlocks⟩
  exact ⟨event, List.mem_append_left _ hevent, hunlocks⟩

/-- A success may be recorded after a passed check. -/
theorem recordSuccess_keeps (hpassed : Enforced w₀ orgId → Passed n orgId userId own) :
    Keeps lower w₀ n (fun _ _ => True) (recordSuccess orgId userId) own := by
  refine .of_await fun trace s active s' hkept _ henv => ⟨hkept.performed henv trivial, ?_⟩
  cases active with
  | none => exact .done trivial
  | some active =>
      refine .of_await fun trace s unlocked s' hkept hevents henv => ⟨hkept.performed henv ?_, ?_⟩
      · intro henforced
        rw [hevents]
        exact .inr (.inl ((hpassed henforced).append _))
      · cases unlocked with
        | none => exact .done trivial
        | some _ =>
            refine .of_await fun trace s _ s' hkept _ henv => ⟨hkept.performed henv trivial, ?_⟩
            exact .done trivial

theorem login_keeps (attempt : LoginAttempt) (call : LockoutCall) :
    Keeps lower w₀ n (fun _ _ => True) (login attempt) [.started n call] := by
  refine (checkOrRaise_keeps attempt.orgId attempt.userId call).bind ?_ fun _ _ _ => trivial
  intro _ own hpassed
  replace hpassed := hpassed rfl
  refine .of_await fun trace s verified s' hkept hevents henv => ⟨hkept.performed henv ?_, ?_⟩
  · cases huser : attempt.userId with
    | none => exact trivial
    | some userId => exact fun henforced => hevents ▸ hpassed userId huser henforced
  · refine .of_await fun trace s createdAt s' hkept _ henv => ⟨hkept.performed henv trivial, ?_⟩
    refine .of_await fun trace s _ s' hkept _ henv => ⟨hkept.performed henv trivial, ?_⟩
    change Keeps lower w₀ n _ (ite (verified = true) _ _) _
    split
    · cases huser : attempt.userId with
      | none => exact .done trivial
      | some userId =>
          refine (recordSuccess_keeps fun henforced => ?_).bind (fun _ _ _ => .done trivial)
            fun _ _ _ => trivial
          exact (((hpassed userId huser henforced).append _).append _).append _
    · exact (keeps_plain (recordFailure_plain _ _ _) _).mono fun _ _ _ => trivial

theorem forceUnlock_keeps (orgId userId unlockedBy : String) (reason : Option String) :
    Keeps lower w₀ n (fun _ _ => True) (forceUnlock orgId userId unlockedBy reason)
      [.started n (.forceUnlock orgId userId unlockedBy reason)] := by
  refine .of_await fun trace s unlocked s' hkept hevents henv => ⟨hkept.performed henv ?_, ?_⟩
  · refine fun _ => .inl ⟨unlockedBy, reason, ?_⟩
    exact (mem_ownEvents.mp (hevents ▸ List.mem_cons_self)).1
  · refine .of_await fun trace s _ s' hkept _ henv => ⟨hkept.performed henv trivial, .done trivial⟩

theorem lockoutVerified (w₀ : LockoutWorld) :
    Verified LockoutCall.body (LockoutWorld.env lower) (Kept w₀) (fun _ _ _ => True) w₀ where
  init := ⟨recorded_nil w₀, eachAfter_nil⟩
  started _ _ _ _ h _ := h.other fun _ _ _ => Event.started_ne_performed
  body_safe n call := by
    cases call with
    | login attempt => exact login_keeps attempt _
    | forceUnlock orgId userId unlockedBy reason => exact forceUnlock_keeps _ _ _ _
  stopped _ _ _ h := h.other fun _ _ _ => Event.stopped_ne_performed

/-! ### Lockouts that end -/

/-- A step that ends a lockout is an unlock of its user. -/
theorem unlocks_of_step {pool next : LockoutPool}
    (step : Step LockoutCall.body (LockoutWorld.env lower) pool event next)
    (hbefore : pool.shared.Locked orgId userId r) (hafter : ¬ next.shared.Locked orgId userId r) :
    Unlocks event orgId userId := by
  cases step with
  | start call => exact absurd hbefore hafter
  | perform running effect => exact unlocks_of_not_locked effect hbefore hafter
  | stop running => exact absurd hbefore hafter

namespace Sample

/-- One failure locks a user, for some seconds or, with none, for good. -/
def policy (seconds : Int) : LockoutPolicyRecord where
  orgId := "org-1"
  enforceLockout := true
  maxFailures := 1
  lockoutDurationSeconds := seconds

def world (seconds : Int) : LockoutWorld :=
  ⟨0, Dict.empty.set "org-1" (policy seconds), .empty, [], []⟩

def attempt (credentialOk : Bool) : LockoutCall :=
  .login ⟨"org-1", some "user-1", none, credentialOk⟩

def play (seconds : Int) (moves : List (Move LockoutCall)) : List LockoutEvent × LockoutPool :=
  Pool.play (LockoutWorld.atOnce id) LockoutCall.body (world seconds) moves

/-- A login makes its check, another one fails and locks the user, and the first finds that out
when it records its success. -/
def slowSuccess : List (Move LockoutCall) :=
  [.start (attempt true), .perform 0, .perform 0, .start (attempt false)] ++
    List.replicate 11 (.perform 1) ++ List.replicate 4 (.perform 0)

end Sample

end CopilotRuntime.Lockout
