import CopilotRuntime.Siwe.Proofs

/-!
# Signing a wallet up

A sign-up founds an organisation, and nothing that it puts into it is refused. Only
its link of the wallet may be.
-/

namespace CopilotRuntime.Siwe

open Foundation Identity Lockout
open AccountMerge (Account IdentityAuditEventRecord)

variable {config : SiweConfig} {library : SiweLibrary} {lower : String → String}
  {w w' : SiweWorld} {trace own : List SiweEvent} {n : Nat}

/-- The task has founded an organisation and was then refused its link of a wallet. -/
def Refused (n : Nat) (events : List SiweEvent) : Prop :=
  ∃ before record message, events =
      before ++ [Event.performed n (SiweOp.createWalletIdentity record) (.error message)] ∧
    ∃ org, Founded n org before

/-- What a call has done that raises. -/
def Fails (n : Nat) (events : List SiweEvent) : Prop := Silent n events ∨ Refused n events

theorem freePersonalOrgSlug_plain (base candidate : String) (tries : Nat) :
    (freePersonalOrgSlug library base candidate tries).OnlyAwaits Plain := by
  induction tries generalizing candidate with
  | zero => exact .raised _
  | succ tries ih =>
      refine .await trivial fun taken => ?_
      cases taken with
      | none => exact .done candidate
      | some org => exact .await trivial fun suffix => ih _

theorem auditAll_smooth (events : List IdentityAuditEventRecord) : Smooth (auditAll events) := by
  induction events with
  | nil => exact smooth_done ()
  | cons event rest ih => exact (audit_smooth event).bind fun _ => ih

/-- None of the events stores a row of the kind. -/
def Lacks {ρ : Type} (made : ρ → List SiweEvent → Prop) (events : List SiweEvent) : Prop :=
  ∀ event ∈ events, ∀ r, ¬ made r [event]

theorem Lacks.snoc {ρ : Type} {made : ρ → List SiweEvent → Prop} {event : SiweEvent}
    (h : Lacks made own) (hevent : ∀ r, ¬ made r [event]) : Lacks made (own ++ [event]) := by
  intro e he
  obtain hold | hnew := List.mem_append.mp he
  · exact h e hold
  · obtain rfl := List.mem_singleton.mp hnew
    exact hevent

/-- The task has founded the organisation and put nothing into it yet. -/
structure Opened (n : Nat) (org : OrganizationRecord) (events : List SiweEvent) : Prop where
  founded : Founded n org events
  users : Lacks (MadeUser n) events
  members : Lacks (AddedMember n) events
  assignments : Lacks (AssignedRole n) events

theorem Founded.of_own {org : OrganizationRecord} (h : Founded n org own)
    (hown : ownEvents n trace = own) : Founded n org trace :=
  h.mono fun _ hevent => mem_trace_of_own hown hevent

theorem mem_own_of_performed {op : SiweOp} {reply : op.Reply} (hown : ownEvents n trace = own)
    (h : .performed n op reply ∈ trace) : .performed n op reply ∈ own :=
  hown ▸ mem_ownEvents.mpr ⟨h, Event.task_performed n op reply⟩

theorem createOrganization_keeps (profile : Profile) (slug : String) (hsilent : Silent n own) :
    Keeps lower n
      (fun result events => (∀ e, result = .error e → Silent n events) ∧
        ∀ org, result = .ok org → Opened n org events)
      (createOrganization profile slug) own := by
  refine .of_await fun trace w reply w' hkept hown henv =>
    ⟨hkept.performed henv fun _ _ => rfl, ?_⟩
  cases reply with
  | error message =>
      refine .raised ⟨fun _ _ => hsilent.append ?_, fun _ hx => absurd hx error_ne_ok⟩
      rintro event hevent (⟨_, _, h⟩ | ⟨_, _, h⟩ | ⟨_, _, h⟩ | ⟨_, _, h⟩)
      all_goals
        rw [List.mem_singleton.mp hevent] at h
        cases List.mem_singleton.mp h
  | ok org =>
      refine .done ⟨fun _ he => absurd he ok_ne_error, fun org' horg' => ?_⟩
      obtain rfl := Except.ok.inj horg'
      refine ⟨⟨_, List.mem_append_right _ (List.mem_singleton.mpr rfl)⟩, ?_, ?_, ?_⟩
      · refine Lacks.snoc (fun e he u hu => hsilent e he (.inr (.inl ⟨u, hu⟩))) ?_
        rintro u ⟨record, hmem⟩
        cases List.mem_singleton.mp hmem
      · refine Lacks.snoc (fun e he m hm => hsilent e he (.inr (.inr (.inl ⟨m, hm⟩)))) ?_
        rintro m ⟨record, hmem⟩
        cases List.mem_singleton.mp hmem
      · refine Lacks.snoc (fun e he a ha => hsilent e he (.inr (.inr (.inr ⟨a, ha⟩)))) ?_
        rintro a ⟨record, hmem⟩
        cases List.mem_singleton.mp hmem

theorem createUser_keeps (profile : Profile) {org : OrganizationRecord} (h : Opened n org own) :
    Keeps lower n
      (fun result events => ∃ user, result = .ok user ∧ MadeUser n user events ∧
        Lacks (AddedMember n) events ∧ Lacks (AssignedRole n) events)
      (createUser profile org) own := by
  refine .of_await fun trace w reply w' hkept hown henv =>
    ⟨hkept.performed henv ⟨fun _ _ => rfl, org, h.founded.of_own hown, fun _ _ => rfl⟩, ?_⟩
  cases reply with
  | error message =>
      obtain ⟨u, record, hmem⟩ := madeUser_of_error hkept.founding (h.founded.of_own hown) henv
        fun _ _ => rfl
      have hmem' := mem_own_of_performed hown hmem
      exact absurd ⟨record, List.mem_singleton.mpr rfl⟩ (h.users _ hmem' u)
  | ok user =>
      refine .done ⟨user, rfl, ⟨_, List.mem_append_right _ (List.mem_singleton.mpr rfl)⟩, ?_, ?_⟩
      · apply h.members.snoc
        rintro m ⟨record, hmem⟩
        cases List.mem_singleton.mp hmem
      · apply h.assignments.snoc
        rintro a ⟨record, hmem⟩
        cases List.mem_singleton.mp hmem

theorem addMember_keeps (profile : Profile) {org : OrganizationRecord} (user : UserRecord)
    (hfounded : Founded n org own) (hmembers : Lacks (AddedMember n) own)
    (hassignments : Lacks (AssignedRole n) own) :
    Keeps lower n
      (fun result events => ∃ member, result = .ok member ∧ Lacks (AssignedRole n) events)
      (addMember profile org user) own := by
  refine .of_await fun trace w reply w' hkept hown henv =>
    ⟨hkept.performed henv ⟨fun _ _ => rfl, org, hfounded.of_own hown, fun _ _ => rfl⟩, ?_⟩
  cases reply with
  | error message =>
      obtain ⟨m, record, hmem⟩ := addedMember_of_error hkept.founding (hfounded.of_own hown) henv
        fun _ _ => rfl
      have hmem' := mem_own_of_performed hown hmem
      exact absurd ⟨record, List.mem_singleton.mpr rfl⟩ (hmembers _ hmem' m)
  | ok member =>
      refine .done ⟨member, rfl, hassignments.snoc ?_⟩
      rintro a ⟨record, hmem⟩
      cases List.mem_singleton.mp hmem

theorem assignAdmin_keeps {org : OrganizationRecord} (user : UserRecord)
    (hfounded : Founded n org own) (hassignments : Lacks (AssignedRole n) own) :
    Keeps lower n (fun result _ => result = .ok ()) (assignAdmin org user) own := by
  refine keeps_await trivial fun _ _ adminRole _ _ _ _ => ?_
  have hlacks : Lacks (AssignedRole n)
      (own ++ [Event.performed n (SiweOp.identity (.getRoleByName none "admin")) adminRole]) := by
    apply hassignments.snoc
    rintro a ⟨record, hmem⟩
    cases List.mem_singleton.mp hmem
  replace hfounded := hfounded.mono (List.subset_append_left own
    [.performed n (.identity (.getRoleByName none "admin")) adminRole])
  cases adminRole with
  | none => exact .done rfl
  | some adminRole =>
      refine .of_await fun trace w reply w' hkept hown henv =>
        ⟨hkept.performed henv ⟨fun _ _ => rfl, org, hfounded.of_own hown, fun _ _ => rfl⟩, ?_⟩
      cases reply with
      | error message =>
          obtain ⟨a, record, hmem⟩ := assignedRole_of_error hkept.founding
            (hfounded.of_own hown) henv fun _ _ => rfl
          have hmem' := mem_own_of_performed hown hmem
          exact absurd ⟨record, List.mem_singleton.mpr rfl⟩ (hlacks _ hmem' a)
      | ok assignment => exact .done rfl

/-- Once its slug is found, a personal organisation is founded with its user. -/
theorem provisionPersonalOrg_keeps (profile : Profile)
    (auditEvents : OrganizationRecord → UserRecord → List IdentityAuditEventRecord)
    (hsilent : Silent n own) :
    Keeps lower n
      (fun result events => (∀ e, result = .error e → Silent n events) ∧
        ∀ x, result = .ok x → Founded n x.1 events ∧ MadeUser n x.2 events)
      (provisionPersonalOrg library profile auditEvents) own := by
  refine (keeps_plain (freePersonalOrgSlug_plain _ _ _) hsilent).bind ?_
    fun _ _ hsilent => ⟨fun _ _ => hsilent, fun _ hx => absurd hx error_ne_ok⟩
  intro slug events hsilent
  refine (createOrganization_keeps profile slug hsilent).bind ?_
    fun e _ hpost => ⟨fun _ _ => hpost.1 e rfl, fun _ hx => absurd hx error_ne_ok⟩
  intro org events hpost
  have hopened := hpost.2 org rfl
  refine (createUser_keeps profile hopened).and_extends.bind ?_
    fun _ _ ⟨⟨_, h, _⟩, _⟩ => nomatch h
  rintro user events ⟨⟨_, heq, hmade, hmembers, hassignments⟩, hextends⟩
  obtain rfl := Except.ok.inj heq
  have hfounded := hopened.founded.mono hextends.subset
  refine (addMember_keeps profile user hfounded hmembers hassignments).and_extends.bind ?_
    fun _ _ ⟨⟨_, h, _⟩, _⟩ => nomatch h
  rintro member events ⟨⟨_, -, hassignments⟩, hextends⟩
  replace hfounded := hfounded.mono hextends.subset
  replace hmade := hmade.mono hextends.subset
  refine (assignAdmin_keeps user hfounded hassignments).and_extends.bind ?_
    fun _ _ ⟨h, _⟩ => nomatch h
  rintro ⟨⟩ events ⟨-, hextends⟩
  replace hfounded := hfounded.mono hextends.subset
  replace hmade := hmade.mono hextends.subset
  refine (keeps_smooth (auditAll_smooth _)).and_extends.bind ?_
    fun _ _ ⟨⟨_, h⟩, _⟩ => nomatch h
  rintro ⟨⟩ events ⟨-, hextends⟩
  refine .done ⟨fun _ he => absurd he ok_ne_error, fun x hx => ?_⟩
  obtain rfl := Except.ok.inj hx
  exact ⟨hfounded.mono hextends.subset, hmade.mono hextends.subset⟩

theorem signUp_keeps (client : ClientInfo) (address : String) (chainId : Int)
    (hsilent : Silent n own) :
    Keeps lower n
      (fun result events => (∀ e, result = .error e → Fails n events) ∧
        ∀ user, result = .ok user → MadeUser n user events)
      (signUp library client address chainId) own := by
  refine (provisionPersonalOrg_keeps _ _ hsilent).bind ?_
    fun e _ hpost => ⟨fun _ _ => .inl (hpost.1 e rfl), fun _ hx => absurd hx error_ne_ok⟩
  rintro ⟨org, user⟩ events hpost
  obtain ⟨hfounded, hmade⟩ := hpost.2 _ rfl
  refine keeps_await trivial fun _ _ reply _ _ _ _ => ?_
  cases reply with
  | error message => exact .raised ⟨fun _ _ => .inr ⟨_, _, message, rfl, org, hfounded⟩, fun _ hx => absurd hx error_ne_ok⟩
  | ok wallet =>
      refine .done ⟨fun _ he => absurd he ok_ne_error, fun u hu => ?_⟩
      obtain rfl := Except.ok.inj hu
      exact hmade.mono (List.subset_append_left _ _)

/-- Whom a wallet signs in was made for that, or nothing was. -/
theorem linkOrProvision_keeps (client : ClientInfo) (address : String) (chainId : Int)
    (hsilent : Silent n own) :
    Keeps lower n
      (fun result events => (∀ e, result = .error e → Fails n events) ∧
        ∀ x, result = .ok x → Silent n events ∨ MadeUser n x.1 events)
      (linkOrProvision config library client address chainId) own := by
  refine keeps_await trivial fun _ _ existing _ _ _ _ => ?_
  replace hsilent : Silent n (own ++
      [Event.performed n (SiweOp.getWalletIdentity address) existing]) :=
    hsilent.plain trivial
  have quiet {p : SiweProgram (UserRecord × Bool)} {events : List SiweEvent}
      (h : p.OnlyAwaits Plain) (hsilent : Silent n events) :
      Keeps lower n
        (fun result events => (∀ e, result = .error e → Fails n events) ∧
          ∀ x, result = .ok x → Silent n events ∨ MadeUser n x.1 events) p events :=
    (keeps_plain h hsilent).mono fun _ _ hsilent => ⟨fun _ _ => .inl hsilent, fun _ _ => .inl hsilent⟩
  cases existing with
  | some existing =>
      refine quiet (.await trivial fun user => ?_) hsilent
      cases user with
      | some user => exact .done _
      | none => exact (recordAttempt_smooth _ _ _).1.bind fun _ => .raised _
  | none =>
      change Keeps lower n _ (ite (config.allowSelfSignup = true) _ _) _
      split
      · refine (signUp_keeps client address chainId hsilent).bind ?_ fun e _ hpost =>
          ⟨fun _ _ => hpost.1 e rfl, fun _ hx => absurd hx error_ne_ok⟩
        intro user events hpost
        refine .done ⟨fun _ he => absurd he ok_ne_error, fun x hx => ?_⟩
        obtain rfl := Except.ok.inj hx
        exact .inr (hpost.2 user rfl)
      · exact quiet ((recordAttempt_smooth _ _ _).1.bind fun _ => .raised _) hsilent

end CopilotRuntime.Siwe

/-!
# Whole calls of the wallet sign-in

What a call has done that returns, and what one has done that raises.
-/

namespace CopilotRuntime.Siwe

open Foundation Identity Lockout
open AccountMerge (Account IdentityAuditEventRecord)

variable {config : SiweConfig} {library : SiweLibrary} {lower : String → String}
  {trace own : List SiweEvent} {n : Nat}

/-! ### Signing in -/

theorem collectRoles_smooth (assignments : List RoleAssignmentRecord) :
    Smooth (collectRoles assignments) := by
  induction assignments with
  | nil => exact smooth_done _
  | cons assignment rest ih =>
      refine smooth_await trivial fun role => ih.bind fun _ => ?_
      cases role with
      | none => exact smooth_done _
      | some role => exact smooth_done _

theorem mfaRequired_smooth (user : UserRecord) : Smooth (mfaRequired config user) := by
  rw [mfaRequired]
  split
  · refine smooth_await trivial fun required => ?_
    change Smooth (ite (required = true) _ _)
    split
    · exact smooth_await trivial fun _ => smooth_done _
    · exact smooth_done _
  · exact smooth_done _

theorem sessionRoles_smooth (user : UserRecord) : Smooth (sessionRoles user) := by
  refine smooth_await trivial fun assignments => (collectRoles_smooth assignments).bind ?_
  intro collected
  split
  · exact smooth_await trivial fun _ => smooth_done _
  · exact smooth_done _

theorem mintSession_smooth (user : UserRecord) : Smooth (mintSession config user) := by
  refine (sessionRoles_smooth user).bind fun _ => (mfaRequired_smooth user).bind fun _ => ?_
  exact smooth_await trivial fun _ => smooth_await trivial fun _ => smooth_done _

variable (client : ClientInfo)

theorem auditSignIn_smooth (address : String) (chainId : Int) (user : UserRecord)
    (provisioned : Bool) :
    Smooth (auditSignIn library client address chainId user provisioned) := by
  rw [auditSignIn]
  split
  · exact smooth_done ()
  · exact audit_smooth _

theorem recordLockoutSuccess_smooth (user : UserRecord) :
    Smooth (recordLockoutSuccess config user) := by
  rw [recordLockoutSuccess]
  split
  · refine smooth_await trivial fun active => ?_
    cases active with
    | none => exact smooth_done ()
    | some active =>
        refine smooth_await trivial fun unlocked => ?_
        cases unlocked with
        | none => exact smooth_done ()
        | some unlocked => exact smooth_await trivial fun _ => smooth_done ()
  · exact smooth_done ()

theorem completeSignIn_smooth (address : String) (chainId : Int) (user : UserRecord)
    (provisioned : Bool) :
    Smooth (completeSignIn config library client address chainId user provisioned) := by
  refine (mintSession_smooth user).bind fun _ => ?_
  refine (auditSignIn_smooth client address chainId user provisioned).bind fun _ => ?_
  refine (recordAttempt_smooth _ _ _).bind fun _ => ?_
  exact (recordLockoutSuccess_smooth user).bind fun _ => smooth_done _

/-- The check of a lockout locks nobody. -/
theorem checkOrRaise_locksNobody (orgId : String) (userId : Option String) :
    (checkOrRaise orgId userId).OnlyAwaits fun op => ∀ candidate, op ≠ .createLockout candidate := by
  cases userId with
  | none => exact .done ()
  | some userId =>
      refine .await nofun fun policy => ?_
      change Program.OnlyAwaits _ (ite _ _ _)
      split
      · refine .await nofun fun active => ?_
        cases active with
        | none => exact .done ()
        | some active =>
            change (checkActive orgId userId active).OnlyAwaits _
            rw [checkActive]
            split
            · exact .raised _
            · refine .await nofun fun now => ?_
              change Program.OnlyAwaits _ (ite _ _ _)
              split
              · exact .await nofun fun _ => .await nofun fun _ => .done ()
              · exact .raised _
      · exact .done ()

theorem checkLockout_plain (user : UserRecord) :
    (checkLockout config user).OnlyAwaits Plain := by
  rw [checkLockout]
  split
  · refine (checkOrRaise_locksNobody _ _).lift.mono ?_
    rintro op ⟨request, hrequest, rfl⟩
    cases request with
    | createLockout candidate => exact absurd rfl (hrequest candidate)
    | _ => exact trivial
  · exact .done ()

/-- A user that the task has made passes the check. -/
theorem checkLockout_keeps {user : UserRecord} (hmade : MadeUser n user own) :
    Keeps lower n (fun result _ => result = .ok ()) (checkLockout config user) own := by
  rw [checkLockout]
  split
  · refine keeps_await trivial fun _ _ policy _ _ _ _ => ?_
    replace hmade := hmade.mono (List.subset_append_left own
      [.performed n (.lockout (.getPolicy user.orgId)) policy])
    change Keeps lower n _ (Program.lift _ _ _ (ite _ _ _)) _
    split
    · refine keeps_await trivial fun trace w active w' hkept hown henv => ?_
      have hfree := not_locked_of_madeUser hkept.founding
        (hmade.mono fun _ hevent => mem_trace_of_own hown hevent) henv
      subst hfree
      exact .done rfl
    · exact .done rfl
  · exact .done rfl

theorem signIn_keeps (address : String) (chainId : Int) (user : UserRecord) (provisioned : Bool)
    (h : Silent n own ∨ MadeUser n user own) :
    Keeps lower n (fun result events => ∀ e, result = .error e → Silent n events)
      (signIn config library client address chainId user provisioned) own := by
  have hsmooth := @completeSignIn_smooth config library client address chainId user provisioned
  obtain hsilent | hmade := h
  · refine (keeps_plain ?_ hsilent).mono fun _ _ hsilent _ _ => hsilent
    exact (checkLockout_plain user).bind fun _ => hsmooth.1
  · refine (checkLockout_keeps hmade).bind ?_ fun _ _ => nofun
    intro _ events _
    refine (keeps_smooth hsmooth).mono ?_
    rintro result events ⟨a, rfl⟩
    exact nofun

/-! ### Whole calls -/

/-- The signed message that a call presents. -/
def SiweCall.message? : SiweCall → Option String
  | mintNonce _ _ _ => none
  | verify _ message _ => some message
  | linkWallet _ _ _ message _ => some message

/-- The task has consumed the nonce of the message that its call presents, if any. -/
def Proven (library : SiweLibrary) (n : Nat) (call : SiweCall) (events : List SiweEvent) : Prop :=
  ∀ message, call.message? = some message → ∃ parsed, readMessage library message = .ok parsed ∧
    HasConsumed library n parsed events

def Ending (library : SiweLibrary) (n : Nat) (result : Except SiweError SiweResult)
    (events : List SiweEvent) : Prop :=
  (∀ e, result = .error e → Fails n events) ∧
    ∀ value, result = .ok value → ∃ call, .started n call ∈ events ∧ Proven library n call events

theorem silent_of_createNonce (record : String → Int → SiweNonceRecord)
    (created : Except String SiweNonceRecord) :
    Silent n [.performed n (.createNonce record) created] := by
  rintro event hevent (⟨_, _, h⟩ | ⟨_, _, h⟩ | ⟨_, _, h⟩ | ⟨_, _, h⟩)
  all_goals
    rw [List.mem_singleton.mp hevent] at h
    cases List.mem_singleton.mp h

theorem enforceNonceRateLimit_plain (address : String) (ip : Option String) :
    (enforceNonceRateLimit config address ip).OnlyAwaits Plain := by
  have hlimit (scope key : String) (windowSeconds limit : Int) :
      (enforceLimit scope key windowSeconds limit).OnlyAwaits Plain := by
    refine .await trivial fun retry => ?_
    change Program.OnlyAwaits _ (ite (retry = 0) _ _)
    split
    · exact .done ()
    · exact .raised _
  rw [enforceNonceRateLimit]
  split
  · exact (hlimit _ _ _ _).bind fun _ => hlimit _ _ _ _
  · exact .done ()

theorem issueNonce_keeps (address : String) (chainId : Int) (hsilent : Silent n own) :
    Keeps lower n (fun _ events => Silent n events)
      (issueNonce config client address chainId) own := by
  refine (keeps_plain (enforceNonceRateLimit_plain address client.ip) hsilent).bind ?_
    fun _ _ hsilent => hsilent
  intro _ events hsilent
  refine keeps_await trivial fun _ _ nonce _ _ _ _ => ?_
  replace hsilent : Silent n (events ++
      [Event.performed n SiweOp.tokenHex nonce]) := hsilent.plain trivial
  refine keeps_await trivial fun _ _ issued _ _ _ _ => ?_
  replace hsilent : Silent n (_ ++
      [Event.performed n (SiweOp.lockout .now) issued]) := hsilent.plain trivial
  refine .of_await fun trace w created w' hkept _ henv =>
    ⟨hkept.performed henv fun _ _ => rfl, ?_⟩
  cases created with
  | error message => exact .raised (hsilent.append (silent_of_createNonce _ _))
  | ok record => exact .done (hsilent.append (silent_of_createNonce _ _))

theorem mintNonce_keeps (address : String) (chainId : Int) (hsilent : Silent n own) :
    Keeps lower n (fun _ events => Silent n events)
      (mintNonce config library client address chainId) own := by
  rw [mintNonce]
  split
  · exact .raised hsilent
  · split
    · exact issueNonce_keeps client _ chainId hsilent
    · exact .raised hsilent

theorem verify_keeps (message signature : String) (hsilent : Silent n own) :
    Keeps lower n
      (fun result events => (∀ e, result = .error e → Fails n events) ∧
        ∀ value, result = .ok value → ∃ parsed, readMessage library message = .ok parsed ∧
          HasConsumed library n parsed events)
      (verify config library client message signature) own := by
  rw [verify]
  cases hparsed : readMessage library message with
  | error error => exact .raised ⟨fun _ _ => .inl hsilent, nofun⟩
  | ok parsed =>
      dsimp only
      split
      · refine (proveOwnership_keeps message signature parsed hsilent).bind ?_
          fun _ _ hpost => ⟨fun _ _ => .inl hpost.1, nofun⟩
        rintro recovered events ⟨hsilent, hproven⟩
        obtain ⟨-, hconsumed⟩ := hproven recovered rfl
        refine (linkOrProvision_keeps client recovered parsed.chainId hsilent).and_extends.bind ?_
          fun e _ hpost => ⟨fun _ _ => hpost.1.1 e rfl, nofun⟩
        rintro ⟨user, provisioned⟩ events ⟨hpost, hextends⟩
        replace hconsumed := hconsumed.mono hextends.subset
        refine (signIn_keeps client recovered parsed.chainId user provisioned
          (hpost.2 _ rfl)).and_extends.mono ?_
        rintro result events ⟨hsilent, hextends⟩
        refine ⟨fun e he => .inl (hsilent e he), fun _ _ => ?_⟩
        exact ⟨parsed, rfl, hconsumed.mono hextends.subset⟩
      · refine (keeps_plain (recordAttempt_smooth _ _ _).1 hsilent).bind ?_
          fun _ _ hsilent => ⟨fun _ _ => .inl hsilent, nofun⟩
        exact fun _ _ hsilent => .raised ⟨fun _ _ => .inl hsilent, nofun⟩

theorem linkProven_plain (orgId userId address : String) (chainId : Int) :
    (linkProven library client orgId userId address chainId).OnlyAwaits Plain := by
  refine .await trivial fun caller => ?_
  cases caller with
  | none => exact .raised _
  | some caller =>
      refine .await trivial fun existing => ?_
      cases existing with
      | none =>
          refine .await trivial fun created => (Program.onlyAwaits_ofExcept _).bind fun record => ?_
          exact .await trivial fun _ => .done _
      | some existing =>
          change Program.OnlyAwaits _ (ite _ _ _)
          split
          · exact .done _
          · exact .raised _

theorem linkWallet_keeps (orgId userId message signature : String) (hsilent : Silent n own) :
    Keeps lower n
      (fun result events => Silent n events ∧
        ∀ value, result = .ok value → ∃ parsed, readMessage library message = .ok parsed ∧
          HasConsumed library n parsed events)
      (linkWallet config library client orgId userId message signature) own := by
  rw [linkWallet]
  cases hparsed : readMessage library message with
  | error error => exact .raised ⟨hsilent, nofun⟩
  | ok parsed =>
      dsimp only
      split
      · refine (proveOwnership_keeps message signature parsed hsilent).bind ?_
          fun _ _ hpost => ⟨hpost.1, nofun⟩
        rintro recovered events ⟨hsilent, hproven⟩
        obtain ⟨-, hconsumed⟩ := hproven recovered rfl
        refine (keeps_plain (linkProven_plain client orgId userId recovered parsed.chainId)
          hsilent).and_extends.mono ?_
        rintro result events ⟨hsilent, hextends⟩
        exact ⟨hsilent, fun _ _ => ⟨parsed, rfl, hconsumed.mono hextends.subset⟩⟩
      · exact .raised ⟨hsilent, nofun⟩

theorem body_keeps (call : SiweCall) :
    Keeps lower n (Ending library n) (call.body config library) [.started n call] := by
  have hsilent : Silent n [(.started n call : SiweEvent)] := silent_started call
  have hstarted : .started n call ∈ [(.started n call : SiweEvent)] := List.mem_cons_self
  cases call with
  | mintNonce client address chainId =>
      refine (mintNonce_keeps client address chainId hsilent).and_extends.bind ?_
        fun _ _ hpost => ⟨fun _ _ => .inl hpost.1, nofun⟩
      rintro result events ⟨-, hextends⟩
      exact .done ⟨nofun, fun _ _ => ⟨_, hextends.subset hstarted, nofun⟩⟩
  | verify client message signature =>
      refine (verify_keeps client message signature hsilent).and_extends.bind ?_
        fun e _ hpost => ⟨fun _ _ => hpost.1.1 e rfl, nofun⟩
      rintro result events ⟨hpost, hextends⟩
      refine .done ⟨nofun, fun _ _ => ⟨_, hextends.subset hstarted, fun message' hmessage => ?_⟩⟩
      obtain rfl := Option.some.inj hmessage
      exact hpost.2 result rfl
  | linkWallet client orgId userId message signature =>
      refine (linkWallet_keeps client orgId userId message signature hsilent).and_extends.bind ?_
        fun _ _ hpost => ⟨fun _ _ => .inl hpost.1.1, nofun⟩
      rintro result events ⟨hpost, hextends⟩
      refine .done ⟨nofun, fun _ _ => ⟨_, hextends.subset hstarted, fun message' hmessage => ?_⟩⟩
      obtain rfl := Option.some.inj hmessage
      exact hpost.2 result rfl

theorem siweVerified (w₀ : SiweWorld) :
    Verified (SiweCall.body config library) (SiweWorld.env lower) Kept (Ending library) w₀ where
  init := kept_nil w₀
  started _ _ _ _ h _ := h.other fun _ _ _ => nofun
  body_safe _ call := body_keeps call
  stopped _ _ _ h := h.other fun _ _ _ => nofun

end CopilotRuntime.Siwe
