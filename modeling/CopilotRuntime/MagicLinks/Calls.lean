import CopilotRuntime.MagicLinks.Runs

/-!
# What each call keeps

Each call performs its operations in the order that the checks need, and an exchange
of a pick token that is refused says why.
-/

namespace CopilotRuntime.MagicLinks

open Foundation Identity
open Lockout (LoginAttemptOutcome second)

variable {config : LinkConfig} {library : LinkLibrary} {d : Directory} {w w' : LinkWorld}
  {trace own : List LinkEvent} {n : Nat} {α : Type}

/-! ### Plain operations -/

/-- An operation that neither looks a link up nor writes, but to the logs. -/
def Plain : LinkOp → Prop
  | .identity request => ReadsOnly request
  | .createLink _ | .getByHash _ | .markConsumed _ _ | .pickStamp | .createSession _ => False
  | _ => True

theorem rests_of_plain {op : LinkOp} (h : Plain op) : Rests library n trace op := by
  cases op with
  | identity request => exact h
  | createLink record => exact h.elim
  | getByHash tokenHash => exact h.elim
  | markConsumed tokenId sessionId => exact h.elim
  | pickStamp => exact h.elim
  | createSession record => exact h.elim
  | _ => exact trivial

/-- The program keeps what the traces say and ends with the postcondition. -/
abbrev Keeps (d : Directory) (library : LinkLibrary) (n : Nat)
    (post : Except LinkError α → List LinkEvent → Prop) (p : LinkProgram α)
    (own : List LinkEvent) : Prop :=
  Safe LinkWorld.env (Kept d library) n post p own

theorem keeps_await {post : Except LinkError α → List LinkEvent → Prop} {op : LinkOp}
    {resume : op.Reply → LinkProgram α} (hrests : Rests library n own op)
    (h : ∀ w reply w', w.directory = d → LinkWorld.env op w reply w' →
      Keeps d library n post (resume reply) (own ++ [Event.performed n op reply])) :
    Keeps d library n post (.await op resume) own := by
  refine .of_await fun trace w reply w' hkept hown henv => ⟨?_, ?_⟩
  · exact hkept.performed henv (hrests.of_own hown)
  · exact h w reply w' hkept.directory henv

/-- A program of plain operations keeps everything. -/
theorem keeps_plain {p : LinkProgram α} (h : p.OnlyAwaits Plain) :
    Keeps d library n
      (fun _ events => ∃ more, events = own ++ more ∧
        ∀ e ∈ more, ∃ op reply, Plain op ∧ e = .performed n op reply) p own :=
  Safe.of_onlyAwaits (fun _ _ _ _ _ hplain _ hkept henv =>
    hkept.performed henv (rests_of_plain hplain)) h

/-- The task has used nothing yet. -/
def Idle (n : Nat) (own : List LinkEvent) : Prop := ∀ e ∈ own, ¬ Uses n e

/-- The task has neither used anything nor looked a link up. -/
def Fresh (n : Nat) (own : List LinkEvent) : Prop := Idle n own ∧ ∀ e ∈ own, ¬ Looks n e

theorem Idle.snoc {e : LinkEvent} (h : Idle n own) (he : ¬ Uses n e) : Idle n (own ++ [e]) :=
  fun e' hmem => (List.mem_append.mp hmem).elim (h e') fun hlast =>
    List.mem_singleton.mp hlast ▸ he

theorem not_uses_of_plain {op : LinkOp} {reply : op.Reply} (h : Plain op) :
    ¬ Uses n (.performed n op reply) := by
  intro huses
  cases op with
  | pickStamp => exact h
  | createSession record => exact h
  | _ => exact huses

theorem not_looks_of_plain {op : LinkOp} {reply : op.Reply} (h : Plain op) :
    ¬ Looks n (.performed n op reply) := by
  intro hlooks
  cases op with
  | getByHash tokenHash => exact h
  | _ => exact hlooks

theorem Idle.plain {op : LinkOp} {reply : op.Reply} (h : Idle n own) (hplain : Plain op) :
    Idle n (own ++ [Event.performed n op reply]) :=
  h.snoc (not_uses_of_plain hplain)

theorem Fresh.plain {op : LinkOp} {reply : op.Reply} (h : Fresh n own) (hplain : Plain op) :
    Fresh n (own ++ [Event.performed n op reply]) := by
  refine ⟨h.1.plain hplain, fun e he => ?_⟩
  obtain hold | hnew := List.mem_append.mp he
  · exact h.2 e hold
  · rw [List.mem_singleton.mp hnew]
    exact not_looks_of_plain hplain

theorem fresh_started (call : LinkCall) : Fresh n [.started n call] := by
  refine ⟨fun e he huses => ?_, fun e he hlooks => ?_⟩
  · rw [List.mem_singleton.mp he] at huses
    exact huses
  · rw [List.mem_singleton.mp he] at hlooks
    exact hlooks

theorem recordAttempt_plain (orgId email userId : Option String) (outcome : LoginAttemptOutcome) :
    (recordAttempt orgId email userId outcome).OnlyAwaits Plain :=
  .await trivial fun _ => .done ()

variable (client : ClientInfo)

theorem audit_plain (orgId userId action : String) (metadata : List (String × Json)) :
    (audit client orgId userId action metadata).OnlyAwaits Plain :=
  .await trivial fun _ => .done ()

/-- Only an active user is let through. -/
theorem keeps_active {post : Except LinkError α → List LinkEvent → Prop}
    {user : Option UserRecord} {refuse : LinkProgram α} {proceed : UserRecord → LinkProgram α}
    (hrefuse : (∀ u, user = some u → u.status ≠ .active) → Keeps d library n post refuse own)
    (hproceed : ∀ u, user = some u → u.status = .active →
      Keeps d library n post (proceed u) own) :
    Keeps d library n post
      (match user.filter fun u => u.status = .active with
        | none => refuse
        | some u => proceed u) own := by
  cases hactive : user.filter fun u => u.status = .active with
  | none =>
      refine hrefuse fun u hu => ?_
      exact mt decide_eq_true (Option.filter_eq_none_iff.mp hactive u hu)
  | some u =>
      obtain ⟨hu, htrue⟩ := Option.filter_eq_some_iff.mp hactive
      exact hproceed u hu (of_decide_eq_true htrue)

/-! ### Request -/

theorem firstRoleName_plain (assignments : List RoleAssignmentRecord) :
    (firstRoleName assignments).OnlyAwaits Plain := by
  induction assignments with
  | nil => exact .done _
  | cons assignment rest ih =>
      refine .await trivial fun role => ?_
      cases role with
      | none => exact ih
      | some role => exact .done _

theorem candidates_plain (users : List UserRecord) : (candidates users).OnlyAwaits Plain := by
  induction users with
  | nil => exact .done []
  | cons user rest ih =>
      refine Program.OnlyAwaits.bind ?_ fun _ => ih.bind fun _ => .done _
      refine .await trivial fun _ => .await trivial fun _ => .await trivial fun assignments => ?_
      exact (firstRoleName_plain assignments).bind fun _ => .done _

theorem orgDisplayName_plain (orgId : Option String) :
    (orgDisplayName orgId).OnlyAwaits Plain := by
  cases orgId with
  | none => exact .done none
  | some orgId => exact .await trivial fun _ => .done _

theorem sendLink_keeps {email : String} (returnTo : Option String) {primary : UserRecord}
    {others users : List UserRecord}
    (hlisted : .performed n (.identity (.listUsersByEmail email)) users ∈ own)
    (hprimary : primary ∈ users) :
    Keeps d library n (fun _ _ => True)
      (sendLink config library client email returnTo primary others) own := by
  refine (keeps_plain (candidates_plain _)).bind ?_ fun _ _ _ => trivial
  rintro candidateOrgs events ⟨more, rfl, -⟩
  refine keeps_await trivial fun _ plaintext _ _ _ => ?_
  replace hlisted : Event.performed n (LinkOp.identity (.listUsersByEmail email)) users ∈
      own ++ more ++ [Event.performed n LinkOp.tokenUrlsafe plaintext] :=
    List.mem_append_left _ (List.mem_append_left _ hlisted)
  refine keeps_await ⟨fun _ _ => rfl, email, users, primary, hlisted, hprimary, fun _ _ =>
    ⟨rfl, rfl⟩⟩ fun _ created _ _ _ => ?_
  refine (keeps_plain ?_).mono fun _ _ _ => trivial
  refine (Program.onlyAwaits_ofExcept _).bind fun _ => ?_
  refine (recordAttempt_plain _ _ _ _).bind fun _ => (audit_plain _ _ _ _ _).bind fun _ => ?_
  exact (orgDisplayName_plain _).bind fun _ => .await trivial fun _ => .done _

/-! ### Limits -/

theorem enforceLimit_plain (scope key : String) (windowSeconds limit : Int) :
    (enforceLimit scope key windowSeconds limit).OnlyAwaits Plain := by
  refine .await trivial fun retry => ?_
  change Program.OnlyAwaits _ (ite (retry = 0) _ _)
  split
  · exact .done ()
  · exact .raised _

theorem request_keeps (email : String) (returnTo : Option String) :
    Keeps d library n (fun _ _ => True) (request config library client email returnTo) own := by
  rw [request]
  split
  · refine (keeps_plain (enforceLimit_plain _ _ _ _)).bind ?_ fun _ _ _ => trivial
    rintro _ events -
    refine (keeps_plain (enforceLimit_plain _ _ _ _)).bind ?_ fun _ _ _ => trivial
    rintro _ events -
    refine keeps_await trivial fun _ found _ _ _ => ?_
    rw [Program.bind]
    split
    · refine (keeps_plain ?_).mono fun _ _ _ => trivial
      exact (recordAttempt_plain _ _ _ _).bind fun _ => .done _
    · next primary others hfound =>
        refine sendLink_keeps client returnTo
          (List.mem_append_right _ (List.mem_singleton.mpr rfl)) ?_
        have hmem : primary ∈ found.filter fun u => u.status = .active :=
          hfound ▸ List.mem_cons_self
        exact (List.mem_filter.mp hmem).1
  · refine (keeps_plain ?_).mono fun _ _ _ => trivial
    exact (recordAttempt_plain _ _ _ _).bind fun _ => .done _

/-! ### Consume -/

theorem getUser_eq_some_iff {orgId userId : String} {u : UserRecord} :
    d.getUser orgId userId = some u ↔
      u ∈ d.users.rows ∧ u.userId = userId ∧ u.orgId = orgId ∧ u.deletedAt = none := by
  rw [Directory.getUser, Option.filter_eq_some_iff, Bool.and_eq_true, decide_eq_true_iff,
    Option.isNone_iff_eq_none]
  constructor
  · rintro ⟨hsome, hactive⟩
    exact ⟨IndexedTable.mem_of_find? hsome, Table.key_of_find? hsome, hactive⟩
  · rintro ⟨hrow, rfl, hactive⟩
    exact ⟨IndexedTable.mem_rows_iff.mp hrow, hactive⟩

theorem refuseLink_plain (record : Option MagicLinkTokenRecord) (outcome : LoginAttemptOutcome)
    (reason : String) : (refuseLink record outcome reason).OnlyAwaits Plain :=
  (recordAttempt_plain _ _ _ _).bind fun _ => .raised _

section Link
variable {r : MagicLinkTokenRecord}

theorem Usable.snoc {e : LinkEvent} (h : Usable n r own) : Usable n r (own ++ [e]) := by
  obtain ⟨⟨tokenHash, hread⟩, hopen, t, hnow, hle⟩ := h
  exact ⟨⟨tokenHash, List.mem_append_left _ hread⟩, hopen, t, List.mem_append_left _ hnow, hle⟩

/-- A mark, and then plain operations. -/
theorem keeps_mark {sessionId : Option String} {rest : Bool → LinkProgram α}
    (hreads : Reads n r own) (hrest : ∀ marked, (rest marked).OnlyAwaits Plain) :
    Keeps d library n (fun _ _ => True) (.await (.markConsumed r.tokenId sessionId) rest) own :=
  keeps_await ⟨r, hreads, rfl⟩ fun _ marked _ _ _ =>
    (keeps_plain (hrest marked)).mono fun _ _ _ => trivial

theorem mintForLink_keeps (only : WorkspaceCandidate) (husable : Usable n r own)
    (hidle : Idle n own) :
    Keeps d library n (fun _ _ => True) (mintForLink config client r only) own := by
  refine keeps_await trivial fun _ user _ _ henv => ?_
  replace husable : Usable n r
      (own ++
          [Event.performed n (LinkOp.identity (.getUser only.orgId r.userId)) user]) := husable.snoc
  replace hidle : Idle n (own ++
      [Event.performed n (LinkOp.identity (.getUser only.orgId r.userId)) user]) :=
    hidle.plain trivial
  refine keeps_active (fun _ => ?_) fun u hu hactive => ?_
  · exact keeps_mark husable.1 fun _ => .raised _
  · subst hu
    obtain ⟨id, clock, hanswer⟩ := reply_of_identity henv
    obtain ⟨-, huser, -⟩ := getUser_eq_some_iff.mp hanswer.symm
    have hfound : FoundActive n only.orgId r.userId
        (own ++ [Event.performed n (LinkOp.identity (.getUser only.orgId r.userId)) (some u)]) :=
      ⟨u, List.mem_append_right _ (List.mem_singleton.mpr rfl), hactive⟩
    refine keeps_await ⟨⟨only.orgId, r.userId, hfound, .inl ⟨r, husable, rfl⟩,
      fun _ _ => ⟨rfl, huser⟩⟩, hidle⟩ fun _ session _ _ _ => ?_
    refine keeps_mark husable.snoc.1 fun _ => ?_
    exact (recordAttempt_plain _ _ _ _).bind fun _ => (audit_plain _ _ _ _ _).bind fun _ =>
      .done _

theorem issuePickToken_keeps (primary : UserRecord) (husable : Usable n r own)
    (hidle : Idle n own) :
    Keeps d library n (fun _ _ => True) (issuePickToken library client r primary) own := by
  refine keeps_await ⟨⟨r, husable⟩, hidle⟩ fun _ stamp _ _ _ => ?_
  refine keeps_mark husable.snoc.1 fun _ => ?_
  exact (recordAttempt_plain _ _ _ _).bind fun _ => (audit_plain _ _ _ _ _).bind fun _ => .done _

theorem consumeOpen_keeps (first : WorkspaceCandidate) (others : List WorkspaceCandidate)
    (husable : Usable n r own) (hidle : Idle n own) :
    Keeps d library n (fun _ _ => True) (consumeOpen config library client r first others) own := by
  refine keeps_await trivial fun _ user _ _ henv => ?_
  replace husable : Usable n r
      (own ++
          [Event.performed n (LinkOp.identity (.getUser first.orgId r.userId)) user]) := husable.snoc
  replace hidle : Idle n
      (own ++ [Event.performed n (LinkOp.identity (.getUser first.orgId r.userId)) user]) :=
    hidle.plain trivial
  refine keeps_active (fun _ => ?_) fun u hu hactive => ?_
  · exact keeps_mark husable.1 fun _ => (recordAttempt_plain _ _ _ _).bind fun _ => .raised _
  · split
    · exact mintForLink_keeps client first husable hidle
    · exact issuePickToken_keeps client _ husable hidle

theorem consumeRecord_keeps (hreads : Reads n r own) (hidle : Idle n own) :
    Keeps d library n (fun _ _ => True) (consumeRecord config library client r) own := by
  rw [consumeRecord]
  split
  · exact (keeps_plain (refuseLink_plain _ _ _)).mono fun _ _ _ => trivial
  · next hopen =>
      refine keeps_await trivial fun _ now _ _ _ => ?_
      change Keeps d library n _ (ite (r.expiresAt < now) _ _) _
      split
      · exact (keeps_plain (refuseLink_plain _ _ _)).mono fun _ _ _ => trivial
      · next hlive =>
          obtain ⟨tokenHash, hread⟩ := hreads
          have husable : Usable n r (own ++ [Event.performed n LinkOp.now now]) :=
            ⟨⟨tokenHash, List.mem_append_left _ hread⟩, Option.not_isSome_iff_eq_none.mp hopen,
              now, List.mem_append_right _ (List.mem_singleton.mpr rfl), Int.not_lt.mp hlive⟩
          split
          · exact .raised trivial
          · exact consumeOpen_keeps client _ _ husable (hidle.plain trivial)

end Link

theorem consume_keeps (token : String) (hstarted : .started n (.consume client token) ∈ own)
    (hfresh : Fresh n own) :
    Keeps d library n (fun _ _ => True) (consume config library client token) own := by
  refine keeps_await trivial fun _ retry _ _ _ => ?_
  replace hstarted : Event.started n (LinkCall.consume client token) ∈
      own ++ [Event.performed n (LinkOp.rateLimit _ _ _ _) retry] := List.mem_append_left _ hstarted
  replace hfresh : Fresh n (own ++ [Event.performed n (LinkOp.rateLimit _ _ _ _) retry]) :=
    hfresh.plain trivial
  change Keeps d library n _ (ite (retry = 0) _ _ >>= _) _
  split
  · change Keeps d library n _ (Program.ofExcept _ >>= _) _
    cases tokenHash library token with
    | error e => exact .raised trivial
    | ok hash =>
        refine keeps_await ⟨⟨client, token, hstarted⟩, hfresh.2⟩ fun _ record _ _ _ => ?_
        have hidle : Idle n (_ ++
            [Event.performed n (LinkOp.getByHash hash) record]) := hfresh.1.snoc id
        cases record with
        | none => exact (keeps_plain (refuseLink_plain _ _ _)).mono fun _ _ _ => trivial
        | some r =>
            refine consumeRecord_keeps client ⟨hash, ?_⟩ hidle
            exact List.mem_append_right _ (List.mem_singleton.mpr rfl)
  · exact .raised trivial

/-! ### Select -/

/-- Why the exchange of a pick token for a session of the organisation is refused. -/
inductive Refusal (library : LinkLibrary) (n : Nat) (token orgId : String)
    (events : List LinkEvent) : LinkError → Prop
  | limited (retry : Int) : Refusal library n token orgId events (.rateLimited retry)
  | unverified {e : LinkError} (h : verified library token = .error e) :
      Refusal library n token orgId events e
  | unreadExp {fields : List (String × Json)} {e : LinkError}
      (h : verified library token = .ok fields) (hexp : claimedExp library fields = .error e) :
      Refusal library n token orgId events e
  | expired {fields : List (String × Json)} {exp t : Int}
      (h : verified library token = .ok fields) (hexp : claimedExp library fields = .ok exp)
      (hnow : .performed n .now t ∈ events) (hlate : exp < t.tdiv second) :
      Refusal library n token orgId events (.pickTokenInvalid "expired_pick_token")
  | unreadClaims {fields : List (String × Json)} {e : LinkError}
      (h : verified library token = .ok fields) (hclaims : readClaims fields = .error e) :
      Refusal library n token orgId events e
  | notOffered {fields : List (String × Json)} {claims : PickClaims}
      (h : verified library token = .ok fields) (hclaims : readClaims fields = .ok claims)
      (horg : orgId ∉ claims.orgs) :
      Refusal library n token orgId events (.membershipDenied "not_a_member")
  | inactive {fields : List (String × Json)} {claims : PickClaims} {reply : Option UserRecord}
      (h : verified library token = .ok fields) (hclaims : readClaims fields = .ok claims)
      (hread : .performed n (.identity (.getUser orgId claims.userId)) reply ∈ events)
      (hreply : ∀ u, reply = some u → u.status ≠ .active) :
      Refusal library n token orgId events (.membershipDenied "not_a_member")

section Select
variable {client : ClientInfo} {token orgId : String} {fields : List (String × Json)} {exp t : Int}
  {claims : PickClaims}

theorem selectOrg_keeps (hstarted : .started n (.select client token orgId) ∈ own)
    (hidle : Idle n own) (hverified : verified library token = .ok fields)
    (hexp : claimedExp library fields = .ok exp) (hclaims : readClaims fields = .ok claims)
    (hnow : .performed n .now t ∈ own) (hlive : t.tdiv second ≤ exp) :
    Keeps d library n
      (fun result events => ∀ e, result = .error e → Refusal library n token orgId events e)
      (selectOrg config client orgId claims) own := by
  refine keeps_await trivial fun _ user _ _ _ => ?_
  have hread : Event.performed n (LinkOp.identity (.getUser orgId claims.userId)) user ∈
      own ++ [Event.performed n (LinkOp.identity (.getUser orgId claims.userId)) user] :=
    List.mem_append_right _ (List.mem_singleton.mpr rfl)
  replace hidle : Idle n (own ++
      [Event.performed n (LinkOp.identity (.getUser orgId claims.userId)) user]) :=
    hidle.plain trivial
  refine keeps_active (fun hinactive => ?_) fun u hu hactive => ?_
  · refine .raised fun e he => ?_
    cases he
    exact .inactive hverified hclaims hread hinactive
  · subst hu
    have hpicked : Picked library n orgId claims.userId
        (own ++ [Event.performed n (LinkOp.identity (.getUser orgId claims.userId)) (some u)]) :=
      ⟨client, token, fields, exp, claims, t, List.mem_append_left _ hstarted, hverified, hexp,
        hclaims, rfl, List.mem_append_left _ hnow, hlive⟩
    refine keeps_await ⟨⟨orgId, claims.userId, ⟨u, hread, hactive⟩,
      .inr hpicked, fun _ _ => ⟨rfl, rfl⟩⟩, hidle⟩ fun _ session _ _ _ => ?_
    refine keeps_await trivial fun _ _ _ _ _ => ?_
    exact keeps_await trivial fun _ _ _ _ _ => .done nofun

end Select

/-- The task has read the claims of a token that is signed and has not expired. -/
def Decoded (library : LinkLibrary) (n : Nat) (token : String) (claims : PickClaims)
    (events : List LinkEvent) : Prop :=
  ∃ fields exp t, verified library token = .ok fields ∧ claimedExp library fields = .ok exp ∧
    readClaims fields = .ok claims ∧ .performed n .now t ∈ events ∧ t.tdiv second ≤ exp

theorem decodePickToken_keeps (token orgId : String) (hidle : Idle n own) :
    Keeps d library n
      (fun result events => Idle n events ∧
        (∀ e, result = .error e → Refusal library n token orgId events e) ∧
        ∀ claims, result = .ok claims → Decoded library n token claims events)
      (decodePickToken library token) own := by
  rw [decodePickToken]
  cases hverified : verified library token with
  | error e =>
      refine .raised ⟨hidle, fun e' he' => ?_, nofun⟩
      obtain rfl := Except.error.inj he'
      exact .unverified hverified
  | ok fields =>
      change Keeps d library n _ (Program.ofExcept (claimedExp library fields) >>= _) _
      cases hexp : claimedExp library fields with
      | error e =>
          refine .raised ⟨hidle, fun e' he' => ?_, nofun⟩
          obtain rfl := Except.error.inj he'
          exact .unreadExp hverified hexp
      | ok exp =>
          refine keeps_await trivial fun _ t _ _ _ => ?_
          replace hidle : Idle n (own ++ [Event.performed n LinkOp.now t]) := hidle.plain trivial
          have hnow : Event.performed n LinkOp.now t ∈ own ++ [Event.performed n LinkOp.now t] :=
            List.mem_append_right _ (List.mem_singleton.mpr rfl)
          change Keeps d library n _ (ite (exp < t.tdiv second) _ _) _
          split
          · next hlate =>
              refine .raised ⟨hidle, fun e he => ?_, nofun⟩
              obtain rfl := Except.error.inj he
              exact .expired hverified hexp hnow hlate
          · next hlive =>
              cases hclaims : readClaims fields with
              | error e =>
                  refine .raised ⟨hidle, fun e' he' => ?_, nofun⟩
                  obtain rfl := Except.error.inj he'
                  exact .unreadClaims hverified hclaims
              | ok claims =>
                  refine .done ⟨hidle, nofun, fun claims' heq => ?_⟩
                  obtain rfl := Except.ok.inj heq
                  exact ⟨fields, exp, t, hverified, hexp, hclaims, hnow, Int.not_lt.mp hlive⟩

theorem select_keeps (token orgId : String)
    (hstarted : .started n (.select client token orgId) ∈ own) (hidle : Idle n own) :
    Keeps d library n
      (fun result events => ∀ e, result = .error e → Refusal library n token orgId events e)
      (select config library client token orgId) own := by
  refine keeps_await trivial fun _ retry _ _ _ => ?_
  replace hstarted : Event.started n (LinkCall.select client token orgId) ∈
      own ++ [Event.performed n (LinkOp.rateLimit _ _ _ _) retry] := List.mem_append_left _ hstarted
  replace hidle : Idle n (own ++
      [Event.performed n (LinkOp.rateLimit _ _ _ _) retry]) := hidle.plain trivial
  change Keeps d library n _ (ite (retry = 0) _ _ >>= _) _
  split
  · refine (decodePickToken_keeps token orgId hidle).and_extends.bind ?_ ?_
    · rintro claims events ⟨⟨hidle, -, hdecoded⟩, hextends⟩
      obtain ⟨fields, exp, t, hverified, hexp, hclaims, hnow, hlive⟩ := hdecoded claims rfl
      change Keeps d library n _ (ite (orgId ∈ claims.orgs) _ _) _
      split
      · exact selectOrg_keeps (hextends.subset hstarted) hidle hverified hexp hclaims hnow hlive
      · next horg =>
          refine keeps_await trivial fun _ _ _ _ _ => ?_
          refine .raised fun e he => ?_
          obtain rfl := Except.error.inj he
          exact .notOffered hverified hclaims horg
    · rintro e events ⟨⟨-, hrefused, -⟩, -⟩ e' he'
      obtain rfl := Except.error.inj he'
      exact hrefused e rfl
  · refine .raised fun e he => ?_
    obtain rfl := Except.error.inj he
    exact .limited retry

/-! ### Whole calls -/

/-- A call that does not exchange its pick token says why. -/
def Ending (library : LinkLibrary) (n : Nat) (result : Except LinkError LinkResult)
    (events : List LinkEvent) : Prop :=
  ∃ call, .started n call ∈ events ∧ ∀ client token orgId e, call = .select client token orgId →
    result = .error e → Refusal library n token orgId events e

theorem body_keeps (call : LinkCall) :
    Keeps d library n (Ending library n) (call.body config library) [.started n call] := by
  have hstarted : .started n call ∈ [(.started n call : LinkEvent)] := List.mem_cons_self
  cases call with
  | request client email returnTo =>
      refine (request_keeps client email returnTo).and_extends.bind ?_ ?_
      · rintro result events ⟨-, hextends⟩
        exact .done ⟨_, hextends.subset hstarted, nofun⟩
      · rintro e events ⟨-, hextends⟩
        exact ⟨_, hextends.subset hstarted, nofun⟩
  | consume client token =>
      refine (consume_keeps client token hstarted (fresh_started _)).and_extends.bind ?_ ?_
      · rintro result events ⟨-, hextends⟩
        exact .done ⟨_, hextends.subset hstarted, nofun⟩
      · rintro e events ⟨-, hextends⟩
        exact ⟨_, hextends.subset hstarted, nofun⟩
  | select client token orgId =>
      refine (select_keeps client token orgId hstarted (fresh_started _).1).and_extends.bind ?_ ?_
      · rintro result events ⟨-, hextends⟩
        exact .done ⟨_, hextends.subset hstarted, fun _ _ _ _ _ => nofun⟩
      · rintro e events ⟨hrefusal, hextends⟩
        refine ⟨_, hextends.subset hstarted, fun client' token' orgId' e' hcall he' => ?_⟩
        cases hcall
        obtain rfl := Except.error.inj he'
        exact hrefusal e rfl

theorem linkVerified (w₀ : LinkWorld) (hlinks : w₀.links.rows = []) :
    Verified (LinkCall.body config library) LinkWorld.env (Kept w₀.directory library)
      (Ending library) w₀ where
  init := kept_nil hlinks
  started _ _ _ _ h _ := h.other fun _ _ _ => nofun
  body_safe _ call := body_keeps call
  stopped _ _ _ h := h.other fun _ _ _ => nofun

end CopilotRuntime.MagicLinks
