import CopilotRuntime.Invitations.StoreLaws

/-!
# Runs of the invitations service

What an accept does follows a check of the invitation that it read first. As long
as nobody settles an invitation between that read and the writes of the accept, an
invitation is accepted at most once and never after it was revoked.
-/

namespace CopilotRuntime.Invitations

open Foundation Identity
open AccountMerge (IdentityAuditEventRecord)

variable {lower sha256 : String → String} {w₀ : InvitationWorld} {trace : List InvitationEvent}
  {n : Nat} {r : InvitationRecord}

/-! ### Effects of an accept -/

/-- The writes of an accept. -/
def TakesEffect : InvitationOp → Prop
  | .identity (.createUser _) | .identity (.addMember _) | .identity (.assignRole _) => True
  | .markAccepted _ _ => True
  | .appendIdentityAudit event => event.action = "invitation.accept"
  | _ => False

/-- The task has read the invitation, which was open, and the time, which was before its expiry. -/
def Admitted (n : Nat) (r : InvitationRecord) (trace : List InvitationEvent) : Prop :=
  r.isOpen = true ∧ (∃ event ∈ trace, Reads event n r) ∧
    ∃ now, .performed n .now now ∈ trace ∧ now < r.expiresAt

/-- What an event of an accept rests on. -/
def Backed (earlier : List InvitationEvent) : InvitationEvent → Prop
  | .performed n (.getByTokenHash _) _ => ∃ call, ownEvents n earlier = [.started n call]
  | .performed n (.identity (.createUser _)) _ | .performed n (.identity (.addMember _)) _
  | .performed n (.identity (.assignRole _)) _ => ∃ r, Admitted n r earlier
  | .performed n (.markAccepted inviteId _) _ => ∃ r, Admitted n r earlier ∧ r.inviteId = inviteId
  | .performed n (.appendIdentityAudit event) _ => event.action = "invitation.accept" →
      ∃ r, Admitted n r earlier ∧ ∃ e ∈ earlier, Marks e n r.inviteId
  | _ => True

structure Kept (trace : List InvitationEvent) (w : InvitationWorld) : Prop where
  recorded : Recorded trace w
  lawful : EachAfter Lawful trace
  backed : EachAfter Backed trace

theorem kept_nil (w : InvitationWorld) : Kept [] w :=
  ⟨recorded_nil w, eachAfter_nil, eachAfter_nil⟩

variable {op : InvitationOp}

theorem Kept.performed {w w' : InvitationWorld} (h : Kept trace w) {reply : op.Reply}
    (henv : InvitationWorld.env op w reply w') (hbacked : Backed trace (.performed n op reply)) :
    Kept (trace ++ [Event.performed n op reply]) w' :=
  ⟨h.recorded.performed henv, eachAfter_snoc.mpr ⟨h.lawful, h.recorded.lawful henv⟩,
    eachAfter_snoc.mpr ⟨h.backed, hbacked⟩⟩

theorem Kept.other {w : InvitationWorld} (h : Kept trace w) {event : InvitationEvent}
    (hother : ∀ m op reply, event ≠ .performed m op reply) : Kept (trace ++ [event]) w := by
  have hreads : ∀ n r, ¬ Reads event n r := by
    rintro n r ⟨tokenHash, heq⟩
    exact hother _ _ _ heq
  have hrevokes : ∀ i, ¬ Settles event i := by
    rintro i (⟨m, user, heq⟩ | ⟨m, user, heq⟩)
    · exact hother _ _ _ heq
    · exact hother _ _ _ heq
  refine ⟨h.recorded.other hreads hrevokes, eachAfter_snoc.mpr ⟨h.lawful, ?_⟩,
    eachAfter_snoc.mpr ⟨h.backed, ?_⟩⟩
  · exact ⟨fun i hi => absurd hi (hrevokes i), fun n r hr => absurd hr (hreads n r),
      fun m i user heq => absurd heq (hother _ _ _)⟩
  · cases event with
    | performed m op reply => exact absurd rfl (hother m op reply)
    | started m call => exact trivial
    | stopped m => exact trivial

/-! ### Parts of a call -/

/-- The program keeps what the traces say and ends with the postcondition. -/
abbrev Keeps {α : Type} (n : Nat)
    (post : Except InvitationError α → List InvitationEvent → Prop)
    (p : InvitationProgram α) (own : List InvitationEvent) : Prop :=
  Safe InvitationWorld.env Kept n post p own

/-- An operation that rests on nothing. -/
def Plain : InvitationOp → Prop
  | .getByTokenHash _ | .markAccepted _ _ => False
  | .identity (.createUser _) | .identity (.addMember _) | .identity (.assignRole _) => False
  | .appendIdentityAudit event => event.action ≠ "invitation.accept"
  | _ => True

/-- An operation that rests on an admitted invitation at most. -/
def Grants (op : InvitationOp) : Prop :=
  Plain op ∨ ∃ request, op = .identity request

theorem backed_of_plain {reply : op.Reply} (h : Plain op) :
    Backed trace (.performed n op reply) := by
  cases op with
  | getByTokenHash tokenHash => exact h.elim
  | markAccepted inviteId user => exact h.elim
  | identity request =>
      cases request with
      | createUser record => exact h.elim
      | addMember record => exact h.elim
      | assignRole record => exact h.elim
      | _ => exact trivial
  | appendIdentityAudit event => exact fun haction => absurd haction h
  | _ => exact trivial

theorem backed_of_grants {reply : op.Reply} (h : Grants op) (hadmitted : Admitted n r trace) :
    Backed trace (.performed n op reply) := by
  obtain hplain | ⟨request, rfl⟩ := h
  · exact backed_of_plain hplain
  · cases request with
    | createUser record => exact ⟨r, hadmitted⟩
    | addMember record => exact ⟨r, hadmitted⟩
    | assignRole record => exact ⟨r, hadmitted⟩
    | _ => exact trivial

theorem Admitted.mono {trace' : List InvitationEvent} (h : Admitted n r trace)
    (hsub : ∀ event ∈ trace, event ∈ trace') : Admitted n r trace' := by
  obtain ⟨hopen, ⟨event, hevent, hreads⟩, now, hnow, hlt⟩ := h
  exact ⟨hopen, ⟨event, hsub event hevent, hreads⟩, now, hsub _ hnow, hlt⟩

variable {own : List InvitationEvent}

theorem admitted_of_own (h : Admitted n r own) (hown : ownEvents n trace = own) :
    Admitted n r trace :=
  h.mono fun _ hevent => (mem_ownEvents.mp (hown ▸ hevent)).1

theorem keeps_plain {α : Type} {p : InvitationProgram α} (h : p.OnlyAwaits Plain)
    (own : List InvitationEvent) :
    Keeps n (fun _ events => ∃ more, events = own ++ more) p own := by
  refine (Safe.of_onlyAwaits (fun trace s op reply s' hplain _ hkept henv => ?_) h).mono ?_
  · exact hkept.performed henv (backed_of_plain hplain)
  · rintro _ _ ⟨more, rfl, -⟩
    exact ⟨more, rfl⟩

theorem keeps_grants {α : Type} {p : InvitationProgram α} (h : p.OnlyAwaits Grants)
    (hadmitted : Admitted n r own) :
    Keeps n (fun _ events => ∃ more, events = own ++ more) p own := by
  refine (Safe.of_onlyAwaits (fun trace s op reply s' hgrants hsub hkept henv => ?_) h).mono ?_
  · exact hkept.performed henv (backed_of_grants hgrants (hadmitted.mono hsub))
  · rintro _ _ ⟨more, rfl, -⟩
    exact ⟨more, rfl⟩

/-! ### Accept -/

theorem onlyAwaits_orValueError {α : Type} {allowed : InvitationOp → Prop}
    (reply : Except String α) : (orValueError reply).OnlyAwaits allowed :=
  Program.onlyAwaits_ofExcept _

theorem ensureUser_grants (invitation : InvitationRecord) :
    (ensureUser invitation).OnlyAwaits Grants := by
  refine .await (.inl trivial) fun user => ?_
  cases user with
  | some user => exact .done _
  | none => exact .await (.inr ⟨_, rfl⟩) fun created => onlyAwaits_orValueError created

theorem ensureMember_grants (invitation : InvitationRecord) (userId : String) :
    (ensureMember invitation userId).OnlyAwaits Grants := by
  refine .await (.inl trivial) fun members => ?_
  change Program.OnlyAwaits Grants (ite _ _ _)
  split
  · exact .done _
  · refine .await (.inr ⟨_, rfl⟩) fun added => ?_
    exact (onlyAwaits_orValueError added).bind fun _ => .done _

theorem ensureRole_grants (invitation : InvitationRecord) (userId roleId : String) :
    (ensureRole invitation userId roleId).OnlyAwaits Grants := by
  refine .await (.inl trivial) fun assignments => ?_
  change Program.OnlyAwaits Grants (ite _ _ _)
  split
  · exact .done _
  · refine .await (.inr ⟨_, rfl⟩) fun assigned => ?_
    exact (onlyAwaits_orValueError assigned).bind fun _ => .done _

/-- An accept that returns has marked its invitation. -/
def HasMarked (n : Nat) (result : Except InvitationError InvitationAcceptResult)
    (events : List InvitationEvent) : Prop :=
  ∀ accepted, result = .ok accepted → ∃ e ∈ events, Marks e n accepted.inviteId

theorem finishAccept_keeps {invitation : InvitationRecord} (hadmitted : Admitted n invitation own)
    (request : AcceptRequest) (org : OrganizationRecord) (role : RoleRecord) (userId : String) :
    Keeps n (HasMarked n) (finishAccept request invitation org role userId) own := by
  refine .of_await fun trace s marked s' hkept hown henv => ⟨hkept.performed henv ?_, ?_⟩
  · exact ⟨invitation, admitted_of_own hadmitted hown, rfl⟩
  refine .of_await fun trace s _ s' hkept hown henv => ⟨hkept.performed henv ?_, ?_⟩
  · refine fun _ => ⟨invitation, ?_, _, ?_, userId, marked, rfl⟩
    · exact admitted_of_own (hadmitted.mono fun _ => List.mem_append_left _) hown
    · exact (mem_ownEvents.mp (hown ▸ List.mem_append_right _ (List.mem_singleton.mpr rfl))).1
  · refine .done fun accepted haccepted => ?_
    obtain rfl := Except.ok.inj haccepted
    refine ⟨_, ?_, userId, marked, rfl⟩
    exact List.mem_append_left _ (List.mem_append_right _ (List.mem_singleton.mpr rfl))

theorem takeEffect_keeps {invitation : InvitationRecord} (hadmitted : Admitted n invitation own)
    (request : AcceptRequest) (org : OrganizationRecord) (role : RoleRecord) :
    Keeps n (HasMarked n) (takeEffect request invitation org role) own := by
  refine (keeps_grants (ensureUser_grants invitation) hadmitted).bind ?_ fun _ _ _ => nofun
  rintro user _ ⟨first, rfl⟩
  replace hadmitted := hadmitted.mono fun _ => List.mem_append_left first
  refine (keeps_grants (ensureMember_grants invitation user.userId) hadmitted).bind ?_
    fun _ _ _ => nofun
  rintro _ _ ⟨second, rfl⟩
  replace hadmitted := hadmitted.mono fun _ => List.mem_append_left second
  refine (keeps_grants (ensureRole_grants invitation user.userId role.roleId) hadmitted).bind ?_
    fun _ _ _ => nofun
  rintro _ _ ⟨third, rfl⟩
  exact finishAccept_keeps (hadmitted.mono fun _ => List.mem_append_left third) _ _ _ _

/-- An invitation that passes the check is admitted. -/
theorem checkAcceptable_keeps {invitation : InvitationRecord}
    (hreads : ∃ event ∈ own, Reads event n invitation) :
    Keeps n (fun result events => result = .ok () → Admitted n invitation events)
      (checkAcceptable invitation) own := by
  rw [checkAcceptable]
  split
  · exact .raised nofun
  · next hrevoked =>
      split
      · exact .raised nofun
      · next haccepted =>
          refine .of_await fun trace s now s' hkept _ henv => ⟨hkept.performed henv trivial, ?_⟩
          change Keeps n _ (ite (invitation.expiresAt ≤ now) _ _) _
          split
          · exact .raised nofun
          · next hexpired =>
              refine .done fun _ => ⟨?_, ?_, now, ?_, by omega⟩
              · rw [Option.not_isSome_iff_eq_none] at haccepted hrevoked
                rw [InvitationRecord.isOpen, haccepted, hrevoked]
                rfl
              · obtain ⟨event, hevent, hread⟩ := hreads
                exact ⟨event, List.mem_append_left _ hevent, hread⟩
              · exact List.mem_append_right _ (List.mem_singleton.mpr rfl)

theorem acceptInvitation_keeps {invitation : InvitationRecord}
    (hreads : ∃ event ∈ own, Reads event n invitation) (request : AcceptRequest) :
    Keeps n (HasMarked n) (acceptInvitation request invitation) own := by
  refine (checkAcceptable_keeps hreads).bind ?_ fun _ _ _ => nofun
  intro _ events hadmitted
  replace hadmitted := hadmitted rfl
  refine .of_await fun trace s org s' hkept _ henv => ⟨hkept.performed henv trivial, ?_⟩
  cases org with
  | none => exact .raised nofun
  | some org =>
      refine .of_await fun trace s role s' hkept _ henv => ⟨hkept.performed henv trivial, ?_⟩
      cases role with
      | none => exact .raised nofun
      | some role =>
          apply takeEffect_keeps
          exact (hadmitted.mono fun _ => List.mem_append_left _).mono fun _ => List.mem_append_left _

theorem accept_keeps (request : AcceptRequest) :
    Keeps n (HasMarked n) (accept sha256 request) [.started n (.accept request)] := by
  rw [accept]
  split
  · exact .raised nofun
  · refine .of_await fun trace s found s' hkept hown henv => ⟨hkept.performed henv ⟨_, hown⟩, ?_⟩
    cases found with
    | none => exact .raised nofun
    | some invitation =>
        apply acceptInvitation_keeps
        exact ⟨_, List.mem_append_right _ (List.mem_singleton.mpr rfl), _, rfl⟩

/-! ### Create and revoke -/

theorem requireRole_plain (roleName : String) : (requireRole lower roleName).OnlyAwaits Plain := by
  refine .await trivial fun role => ?_
  cases role with
  | none => exact .raised _
  | some role => exact .done _

theorem refuseMember_plain (orgId email : String) : (refuseMember orgId email).OnlyAwaits Plain := by
  refine .await trivial fun existing => ?_
  cases existing with
  | none => exact .done _
  | some user =>
      refine .await trivial fun members => ?_
      change Program.OnlyAwaits Plain (ite _ _ _)
      split
      · exact .raised _
      · exact .done _

theorem mint_plain (request : CreateRequest) (email : String) (ttl : Int) (role : RoleRecord) :
    (mint sha256 request email ttl role).OnlyAwaits Plain := by
  refine .await trivial fun plaintext => .await trivial fun now => .await trivial fun created => ?_
  refine (onlyAwaits_orValueError created).bind fun record => ?_
  refine .await ?_ fun _ => .done _
  change "invitation.create" ≠ "invitation.accept"
  decide

theorem create_plain (request : CreateRequest) :
    (create lower sha256 request).OnlyAwaits Plain := by
  rw [create]
  split
  · exact .raised _
  · split
    · exact .raised _
    · refine (requireRole_plain _).bind fun role => (refuseMember_plain _ _).bind fun _ => ?_
      refine .await trivial fun active => ?_
      change Program.OnlyAwaits Plain (ite _ _ _)
      split
      · exact .raised _
      · exact mint_plain _ _ _ _

/-- A revoke that returns success has revoked its invitation. -/
def HasRevoked (inviteId : String) (result : Except InvitationError Bool)
    (events : List InvitationEvent) : Prop :=
  result = .ok true → ∃ e ∈ events, Revokes e inviteId

theorem revokeOpen_keeps (orgId inviteId actor : String) (own : List InvitationEvent) :
    Keeps n (HasRevoked inviteId) (revokeOpen orgId inviteId actor) own := by
  refine .of_await fun trace s ok s' hkept _ henv => ⟨hkept.performed henv trivial, ?_⟩
  cases ok with
  | false => exact .done nofun
  | true =>
      refine .of_await fun trace s _ s' hkept _ henv => ⟨hkept.performed henv ?_, .done fun _ => ?_⟩
      · change "invitation.revoke" = "invitation.accept" → _
        exact fun heq => absurd heq (by decide)
      · refine ⟨_, List.mem_append_left _ (List.mem_append_right _ ?_), n, actor, rfl⟩
        exact List.mem_singleton.mpr rfl

theorem revoke_keeps (orgId inviteId actor : String) (own : List InvitationEvent) :
    Keeps n (HasRevoked inviteId) (revoke orgId inviteId actor) own := by
  refine .of_await fun trace s found s' hkept _ henv => ⟨hkept.performed henv trivial, ?_⟩
  cases found with
  | none => exact .done nofun
  | some record =>
      change Keeps n _ (ite (record.isOpen = true) _ _) _
      split
      · exact revokeOpen_keeps orgId inviteId actor _
      · exact .done nofun

/-! ### Whole calls -/

/-- What the events of a call say about its result. -/
def Confirmed (n : Nat) (result : Except InvitationError InvitationResult)
    (events : List InvitationEvent) : Prop :=
  (∀ accepted, result = .ok (.accepted accepted) → ∃ e ∈ events, Marks e n accepted.inviteId) ∧
    (result = .ok (.revoked true) → ∃ orgId inviteId actor,
      .started n (.revoke orgId inviteId actor) ∈ events ∧ ∃ e ∈ events, Revokes e inviteId)

theorem confirmed_of_error (e : InvitationError) (events : List InvitationEvent) :
    Confirmed n (.error e) events :=
  ⟨nofun, nofun⟩

theorem body_keeps (call : InvitationCall) :
    Keeps n (Confirmed n) (call.body lower sha256) [.started n call] := by
  cases call with
  | create request =>
      refine (keeps_plain (create_plain request) _).bind ?_ fun _ _ _ => confirmed_of_error _ _
      exact fun _ _ _ => .done ⟨nofun, nofun⟩
  | revoke orgId inviteId actor =>
      refine (revoke_keeps orgId inviteId actor _).and_extends.bind ?_ fun _ _ _ =>
        confirmed_of_error _ _
      rintro ok events ⟨hrevoked, hown⟩
      refine .done ⟨nofun, fun heq => ⟨orgId, inviteId, actor, ?_, hrevoked ?_⟩⟩
      · exact hown.subset List.mem_cons_self
      · exact congrArg Except.ok (InvitationResult.revoked.inj (Except.ok.inj heq))
  | accept request =>
      refine (accept_keeps request).bind ?_ fun _ _ _ => confirmed_of_error _ _
      intro result events hmarked
      refine .done ⟨fun accepted heq => hmarked accepted ?_, nofun⟩
      exact congrArg Except.ok (InvitationResult.accepted.inj (Except.ok.inj heq))

theorem invitationsVerified (w₀ : InvitationWorld) :
    Verified (InvitationCall.body lower sha256) InvitationWorld.env Kept Confirmed w₀ where
  init := kept_nil w₀
  started _ _ _ _ h _ := h.other fun _ _ _ => Event.started_ne_performed
  body_safe _ call := body_keeps call
  stopped _ _ _ h := h.other fun _ _ _ => Event.stopped_ne_performed

/-! ### Undisturbed accepts -/

/-- Since a task read an invitation, nobody has revoked it when the task writes, and nobody has
settled it when the task marks it as accepted. -/
def Undisturbed (earlier : List InvitationEvent) (event : InvitationEvent) : Prop :=
  ∀ n op reply, event = .performed n op reply → TakesEffect op →
    ∀ before e between r, earlier = before ++ e :: between → Reads e n r →
      (∀ e' ∈ between, ¬ Revokes e' r.inviteId) ∧
        ((∃ user, op = .markAccepted r.inviteId user) → ∀ e' ∈ between, ¬ Settles e' r.inviteId)

section Effects
variable (hlawful : EachAfter Lawful trace) (hbacked : EachAfter Backed trace)
  (hundisturbed : EachAfter Undisturbed trace)
include hlawful

theorem settled_once (inviteId : String) : AtMostOnce (fun e => Settles e inviteId) trace := by
  apply atMostOnce_of_eachAfter
  intro earlier event later hsplit
  exact (hlawful earlier event later hsplit).settles_once inviteId

omit hlawful in
theorem not_settles_of_reads {event : InvitationEvent} (h : Reads event n r) (inviteId : String) :
    ¬ Settles event inviteId := by
  obtain ⟨tokenHash, rfl⟩ := h
  apply not_settles
  · exact nofun
  · exact nofun

omit hlawful in
theorem read_once (hbacked : EachAfter Backed trace) (n : Nat) :
    AtMostOnce (fun e => ∃ r, Reads e n r) trace := by
  apply atMostOnce_of_eachAfter
  rintro earlier event later hsplit ⟨r, tokenHash, rfl⟩ e he ⟨r', tokenHash', rfl⟩
  obtain ⟨call, hown⟩ := hbacked earlier _ later hsplit
  have hmem := mem_ownEvents.mpr ⟨he, Event.task_performed _ _ _⟩
  rw [hown] at hmem
  cases List.mem_singleton.mp hmem

include hundisturbed

/-- An invitation that a task was admitted with is not revoked when the task writes. -/
theorem not_revoked_of_admitted {earlier later : List InvitationEvent} {op : InvitationOp}
    {reply : op.Reply} (hsplit : trace = earlier ++ .performed n op reply :: later)
    (hop : TakesEffect op) (hadmitted : Admitted n r earlier) :
    ∀ e ∈ earlier, ¬ Revokes e r.inviteId := by
  obtain ⟨hopen, ⟨read, hread, hreads⟩, -⟩ := hadmitted
  obtain ⟨before, between, rfl⟩ := List.append_of_mem hread
  have hbetween := (hundisturbed _ _ later hsplit n op reply rfl hop before read between r rfl
    hreads).1
  have hbefore := (hlawful before read (between ++ .performed n op reply :: later)
    (by simp [hsplit])).reads_unsettled n r hreads hopen
  intro e he hrevokes
  obtain he | he := List.mem_append.mp he
  · exact hbefore e he (.inl hrevokes)
  · obtain rfl | he := List.mem_cons.mp he
    · exact not_settles_of_reads hreads _ (.inl hrevokes)
    · exact hbetween e he hrevokes

include hbacked

/-- The mark of an accept finds its invitation open. -/
theorem marks_settle {event : InvitationEvent} {inviteId : String} (hmem : event ∈ trace)
    (hmarks : Marks event n inviteId) : Settles event inviteId := by
  obtain ⟨user, ok, rfl⟩ := hmarks
  obtain ⟨earlier, later, hsplit⟩ := List.append_of_mem hmem
  obtain ⟨r, ⟨hopen, ⟨read, hread, hreads⟩, -⟩, rfl⟩ := hbacked earlier _ later hsplit
  obtain ⟨before, between, rfl⟩ := List.append_of_mem hread
  have hbetween := (hundisturbed _ _ later hsplit n _ ok rfl trivial before read between r rfl
    hreads).2 ⟨user, rfl⟩
  cases ok with
  | true => exact .inr ⟨n, user, rfl⟩
  | false =>
      obtain ⟨e, he, hsettles⟩ := (hlawful _ _ later hsplit).fails_settled n r.inviteId user rfl
        before read between rfl n r hreads rfl hopen
      exact absurd hsettles (hbetween e he)

/-- Every effect of an accept is on an invitation that was open and not expired when it was
checked, and that no revoke has taken back. -/
theorem effects_of_undisturbed {earlier later : List InvitationEvent} {op : InvitationOp}
    {reply : op.Reply} (hsplit : trace = earlier ++ .performed n op reply :: later)
    (hop : TakesEffect op) :
    ∃ r, Admitted n r earlier ∧ (∀ i user, op = .markAccepted i user → i = r.inviteId) ∧
      ∀ e ∈ earlier, ¬ Revokes e r.inviteId := by
  have hnone {r : InvitationRecord} (hadmitted : Admitted n r earlier) :=
    not_revoked_of_admitted hlawful hundisturbed hsplit hop hadmitted
  have hback := hbacked earlier _ later hsplit
  cases op with
  | identity request =>
      have hsome : ∃ r, Admitted n r earlier := by
        cases request with
        | createUser record => exact hback
        | addMember record => exact hback
        | assignRole record => exact hback
        | _ => exact hop.elim
      obtain ⟨r, hadmitted⟩ := hsome
      exact ⟨r, hadmitted, nofun, hnone hadmitted⟩
  | markAccepted inviteId user =>
      obtain ⟨r, hadmitted, rfl⟩ := hback
      refine ⟨r, hadmitted, fun i user' heq => ?_, hnone hadmitted⟩
      exact (InvitationOp.markAccepted.inj heq).1.symm
  | appendIdentityAudit event =>
      obtain ⟨r, hadmitted, -⟩ := hback hop
      exact ⟨r, hadmitted, nofun, hnone hadmitted⟩
  | _ => exact hop.elim

end Effects

namespace Sample

def role : RoleRecord where
  roleId := "role-1"
  orgId := none
  name := "employee"
  displayName := "Employee"

def organization : OrganizationRecord where
  orgId := "org-1"
  displayName := "Org"
  slug := "org"

def invitation : InvitationRecord where
  inviteId := "inv-1"
  orgId := "org-1"
  email := "a@b.c"
  roleId := "role-1"
  tokenHash := "token"
  tokenPrefix := "token"
  createdByUserId := "admin"
  createdAt := 0
  expiresAt := 60 * second

def directory : Directory :=
  let d := (Directory.empty.createOrganization organization).2
  { d with roles := d.roles.put role }

/-- An organisation with one open invitation. -/
def world : InvitationWorld := ⟨0, directory, Table.empty.put invitation, []⟩

def accept : InvitationCall := .accept ⟨"token", none, none⟩

def revoke : InvitationCall := .revoke "org-1" "inv-1" "admin"

/-- Texts are their own folds and hashes. -/
def play (moves : List (Move InvitationCall)) : List InvitationEvent × InvitationPool :=
  Pool.play InvitationWorld.atOnce (InvitationCall.body id id) world moves

/-- What a task has returned. -/
def result (run : List InvitationEvent × InvitationPool) (n : Nat) : Option InvitationResult :=
  (run.2.tasks n).bind Program.returned

/-- One accept alone. -/
def alone : List (Move InvitationCall) := .start accept :: List.replicate 12 (.perform 0)

/-- Another call comes in when an accept has read its invitation. -/
def disturbed (call : InvitationCall) : List (Move InvitationCall) :=
  [.start accept, .perform 0, .start call] ++ List.replicate 12 (.perform 1) ++
    List.replicate 12 (.perform 0)

/-- Whether an event is a mark, with success or not, or a revocation. -/
def outcome : InvitationEvent → Option Bool
  | .performed _ (.markAccepted _ _) _ => some true
  | .performed _ (.revoke _ _) ok => if ok then some false else none
  | _ => none

theorem isSome_outcome_of_settles {e : InvitationEvent} {i : String} (h : Settles e i) :
    (outcome e).isSome = true := by
  obtain ⟨m, user, rfl⟩ | ⟨m, user, rfl⟩ := h
  · rfl
  · rfl

/-- A mark without other marks and revocations is not disturbed. -/
theorem undisturbed_of_outcomes (h : trace.filterMap outcome = [true]) :
    EachAfter Undisturbed trace := by
  rintro earlier event later hsplit n op reply rfl - before e between r rfl -
  refine ⟨?_, ?_⟩
  · rintro e' he' ⟨m, actor, rfl⟩
    have hmem : false ∈ trace.filterMap outcome := by
      refine List.mem_filterMap.mpr ⟨.performed m (.revoke r.inviteId actor) true, ?_, rfl⟩
      rw [hsplit]
      exact List.mem_append_left _ (List.mem_append_right _ (List.mem_cons_of_mem _ he'))
    rw [h, List.mem_singleton] at hmem
    cases hmem
  · rintro ⟨user, rfl⟩ e' he' hsettles
    rw [hsplit, List.filterMap_append] at h
    change _ ++ true :: later.filterMap outcome = [true] at h
    have hlength := congrArg List.length h
    obtain ⟨b, hb⟩ := Option.isSome_iff_exists.mp (isSome_outcome_of_settles hsettles)
    have hmem : b ∈ (before ++ e :: between).filterMap outcome :=
      List.mem_filterMap.mpr ⟨e', List.mem_append_right _ (List.mem_cons_of_mem _ he'), hb⟩
    have hpos := List.length_pos_of_mem hmem
    simp only [List.length_append, List.length_cons, List.length_nil] at hlength
    omega

theorem run_play (moves : List (Move InvitationCall)) :
    Run (InvitationCall.body id id) InvitationWorld.env world (play moves).1 (play moves).2 :=
  Run.play InvitationWorld.atOnce_sound moves

end Sample

end CopilotRuntime.Invitations
