import CopilotRuntime.MagicLinks.Calls
import CopilotRuntime.MagicLinks.PickTokens

/-!
# Single use of links

A link leads to one session at most while no call overtakes another between its use
of the link and its mark, and no pick token is exchanged twice.
-/

namespace CopilotRuntime.MagicLinks

open Foundation Identity
open Lockout (second)

variable {config : LinkConfig} {library : LinkLibrary} {w₀ : LinkWorld} {trace : List LinkEvent}
  {n m : Nat} {c : List LinkEvent × LinkPool}

/-! ### What a link leads to -/

/-- The token was stamped by a call that had read the link. -/
def Issues (library : LinkLibrary) (m : Nat) (r : MagicLinkTokenRecord) (stamp : Int × String)
    (token : String) (trace : List LinkEvent) : Prop :=
  Reads m r trace ∧ .performed m .pickStamp stamp ∈ trace ∧ token = signed library
    (pickPayload r.userId (r.candidateOrgs.map WorkspaceCandidate.orgId) stamp)

def Mints (n : Nat) (session : SessionRecord) (trace : List LinkEvent) : Prop :=
  ∃ record, .performed n (.createSession record) session ∈ trace

def Presents (n : Nat) (token : String) (trace : List LinkEvent) : Prop :=
  ∃ client orgId, .started n (.select client token orgId) ∈ trace

/-- The link leads to a session, directly or through a pick token that was issued for it. -/
def LeadsTo (library : LinkLibrary) (tokenId : String) (n : Nat) (session : SessionRecord)
    (trace : List LinkEvent) : Prop :=
  Mints n session trace ∧ ∃ r, r.tokenId = tokenId ∧
    (Reads n r trace ∨
      ∃ m stamp token, Presents n token trace ∧ Issues library m r stamp token trace)

/-! ### Clean steps -/

/-- The link is open, and no other call stands between its use of the link and its mark. -/
def Settled (trace : List LinkEvent) (w : LinkWorld) (n : Nat) (tokenId : String) : Prop :=
  (∀ row ∈ w.links.rows, row.tokenId = tokenId → row.consumedAt = none) ∧
    ∀ m r, m ≠ n → Reads m r trace → r.tokenId = tokenId → ∀ e ∈ trace, Uses m e →
      ∃ sessionId reply, .performed m (.markConsumed tokenId sessionId) reply ∈ trace

/-- The active users of the organisation with the email of the user are the user. -/
def SameUser (d : Directory) (orgId userId : String) : Prop :=
  ∀ u ∈ d.users.rows, ∀ v ∈ d.users.rows, v.userId = userId → u.orgId = orgId →
    u.deletedAt = none → u.status = .active → u.primaryEmail = v.primaryEmail → u.userId = userId

/-- Only tokens that were issued are signed, a link is settled when it is used, a pick token has
led to no session when it is exchanged, neither expires after it has been checked, and the user of
the email in the organisation that is picked is the one of the token. -/
def Clean (library : LinkLibrary) (trace : List LinkEvent) (w : LinkWorld) : LinkEvent → Prop
  | .started _ (.select _ token _) => ∀ fields, verified library token = .ok fields →
      ∃ m r stamp, Issues library m r stamp token trace
  | .performed n .pickStamp _ => ∀ r, Reads n r trace → Settled trace w n r.tokenId
  | .performed n (.createSession _) session =>
      (∀ r, Reads n r trace → Settled trace w n r.tokenId ∧
        ∀ t, .performed n .now t ∈ trace → t ≤ r.expiresAt → session.createdAt ≤ r.expiresAt) ∧
      ∀ token, Presents n token trace →
        (∀ m, m ≠ n → Presents m token trace → ∀ session', ¬ Mints m session' trace) ∧
        ∀ fields exp t, verified library token = .ok fields → claimedExp library fields = .ok exp →
          .performed n .now t ∈ trace → t.tdiv second ≤ exp → session.createdAt.tdiv second ≤ exp
  | .performed n (.identity (.getUser orgId userId)) _ =>
      (∃ token, Presents n token trace) → SameUser w.directory orgId userId
  | _ => True

/-- The runs whose steps are all clean. -/
abbrev CleanRun (config : LinkConfig) (library : LinkLibrary) :
    List LinkEvent × LinkPool → List LinkEvent × LinkPool → Prop :=
  Relation.ReflTransGen (Advances (LinkCall.body config library) LinkWorld.env (Clean library))

/-! ### Tasks -/

section Backed
variable (hbacked : EachAfter (Backed library) trace)
include hbacked

theorem looks_once (n : Nat) : AtMostOnce (Looks n) trace := by
  refine atMostOnce_of_eachAfter fun earlier event later hsplit hlooks => ?_
  have hrests := hbacked earlier event later hsplit
  cases event with
  | performed m op reply =>
      cases op with
      | getByHash tokenHash =>
          obtain rfl : m = n := hlooks
          exact hrests.2
      | _ => exact hlooks.elim
  | started m call => exact hlooks.elim
  | stopped m => exact hlooks.elim

theorem not_uses_before (n : Nat) :
    EachAfter (fun earlier event => Uses n event → ∀ e ∈ earlier, ¬ Uses n e) trace := by
  intro earlier event later hsplit huses
  have hrests := hbacked earlier event later hsplit
  cases event with
  | performed m op reply =>
      cases op with
      | createSession record =>
          obtain rfl : m = n := huses
          exact hrests.2
      | pickStamp =>
          obtain rfl : m = n := huses
          exact hrests.2
      | _ => exact huses.elim
  | started m call => exact huses.elim
  | stopped m => exact huses.elim

/-- A task reads one link. -/
theorem reads_unique {r r' : MagicLinkTokenRecord} (h : Reads n r trace) (h' : Reads n r' trace) :
    r = r' := by
  obtain ⟨tokenHash, hmem⟩ := h
  obtain ⟨tokenHash', hmem'⟩ := h'
  have heq := (looks_once hbacked n).eq hmem hmem' rfl rfl
  cases heq
  rfl

theorem consumes_of_reads {r : MagicLinkTokenRecord} (h : Reads n r trace) :
    ∃ client token, .started n (.consume client token) ∈ trace := by
  obtain ⟨tokenHash, hmem⟩ := h
  obtain ⟨earlier, later, rfl, ⟨client, token, hstarted⟩, -⟩ :=
    hbacked.split hmem
  exact ⟨client, token, List.mem_append_left _ hstarted⟩

end Backed

theorem Reads.mono {trace' : List LinkEvent} {r : MagicLinkTokenRecord} (h : Reads n r trace)
    (hsub : trace ⊆ trace') : Reads n r trace' :=
  h.imp fun _ => @hsub _

theorem presents_unique {client : ClientInfo} {token token' orgId : String}
    (h : CleanRun config library ([], Pool.initial w₀) c)
    (hstarted : .started n (.select client token orgId) ∈ c.1) (h' : Presents n token' c.1) :
    token = token' := by
  obtain ⟨client', orgId', hstarted'⟩ := h'
  have heq := (Run.nil.of_advances h).started_unique hstarted hstarted'
  cases heq
  rfl

theorem FoundActive.mono {trace' : List LinkEvent} {orgId userId : String}
    (h : FoundActive n orgId userId trace) (hsub : trace ⊆ trace') :
    FoundActive n orgId userId trace' := by
  obtain ⟨u, hmem, hactive⟩ := h
  exact ⟨u, hsub hmem, hactive⟩

section Runs
variable (hlinks : w₀.links.rows = [])
  (h : CleanRun config library ([], Pool.initial w₀) c)
include hlinks h

theorem kept_of_cleanRun : Kept w₀.directory library c.1 c.2.shared := by
  have hrun := Run.nil.of_advances h
  exact hrun.invariant (linkVerified w₀ hlinks)

/-- A call that exchanges a pick token reads no link. -/
theorem not_reads_of_presents {token : String} {r : MagicLinkTokenRecord}
    (hpresents : Presents n token c.1) : ¬ Reads n r c.1 := by
  intro hreads
  obtain ⟨client, orgId, hstarted⟩ := hpresents
  obtain ⟨client', token', hstarted'⟩ :=
    consumes_of_reads (kept_of_cleanRun hlinks h).backed hreads
  cases (Run.nil.of_advances h).started_unique hstarted hstarted'

/-! ### Uses -/

/-- When a call uses a link, no other call has used it. -/
theorem not_used_before :
    EachAfter (fun trace event => ∀ n r, Reads n r trace → Uses n event →
      ∀ m r', m ≠ n → Reads m r' trace → r'.tokenId = r.tokenId → ∀ e ∈ trace, ¬ Uses m e)
      c.1 := by
  refine eachAfter_of_step (fun trace pool event next run step hclean => ?_) h
  intro n r hreads huses m r' hne hreads' hsame e he huses'
  have hkept := run.invariant (linkVerified w₀ hlinks)
  have hsettled : Settled trace pool.shared n r.tokenId := by
    cases event with
    | performed k op reply =>
        cases op with
        | createSession record =>
            obtain rfl : k = n := huses
            exact (hclean.1 r hreads).1
        | pickStamp =>
            obtain rfl : k = n := huses
            exact hclean r hreads
        | _ => exact huses.elim
    | started k call => exact huses.elim
    | stopped k => exact huses.elim
  obtain ⟨hopen, hmarked⟩ := hsettled
  obtain ⟨sessionId, reply, hmark⟩ := hmarked m r' hne hreads' hsame e he huses'
  obtain ⟨row, hrow, hissued⟩ := hkept.read n r hreads
  have hid : row.tokenId = r.tokenId := (eq_of_issued hissued).1
  have hconsumed := hkept.marked m r.tokenId sessionId reply hmark row hrow hid
  rw [hopen row hrow hid] at hconsumed
  cases hconsumed

/-- The link that a task reads before it uses it. -/
theorem reads_before_uses {r : MagicLinkTokenRecord} {e : LinkEvent}
    {earlier later : List LinkEvent}
    (hsplit : c.1 = earlier ++ e :: later) (hreads : Reads n r c.1) (huses : Uses n e) :
    Reads n r earlier := by
  have hbacked := (kept_of_cleanRun hlinks h).backed
  have hrests := hbacked earlier e later hsplit
  have hsub : earlier ⊆ c.1 := hsplit ▸ List.subset_append_left _ _
  have husable : ∃ r', Usable n r' earlier := by
    cases e with
    | performed k op reply =>
        cases op with
        | createSession record =>
            obtain rfl : k = n := huses
            obtain ⟨⟨orgId, userId, -, ⟨r', husable, -⟩ | hpicked, -⟩, -⟩ := hrests
            · exact ⟨r', husable⟩
            · obtain ⟨client, token, -, -, -, -, hstarted, -⟩ := hpicked
              have hpresents : Presents k token c.1 := ⟨client, orgId, hsub hstarted⟩
              exact absurd hreads (not_reads_of_presents hlinks h hpresents)
        | pickStamp =>
            obtain rfl : k = n := huses
            exact hrests.1
        | _ => exact huses.elim
    | started k call => exact huses.elim
    | stopped k => exact huses.elim
  obtain ⟨r', husable⟩ := husable
  rw [reads_unique hbacked hreads (husable.1.mono hsub)]
  exact husable.1

/-- A link is used once. -/
theorem link_used_once (tokenId : String) :
    AtMostOnce (fun e => ∃ n r, Reads n r c.1 ∧ r.tokenId = tokenId ∧ Uses n e) c.1 := by
  have hbacked := (kept_of_cleanRun hlinks h).backed
  refine atMostOnce_of_eachAfter fun earlier event later hsplit => ?_
  rintro ⟨n, r, hreads, rfl, huses⟩ e he ⟨m, r', hreads', hsame, huses'⟩
  have hearlier := reads_before_uses hlinks h hsplit hreads huses
  obtain rfl | hne := eq_or_ne m n
  · exact not_uses_before hbacked m earlier event later hsplit huses e he huses'
  · obtain ⟨before, after, hbefore⟩ := List.append_of_mem he
    have hsplit' : c.1 = before ++ e :: (after ++ event :: later) := by
      rw [hsplit, hbefore, List.append_assoc, List.cons_append]
    have hearlier' := reads_before_uses hlinks h hsplit' hreads' huses'
    have hsub : before ⊆ earlier := hbefore ▸ List.subset_append_left _ _
    exact not_used_before hlinks h earlier event later hsplit n r hearlier huses m r' hne
      (hearlier'.mono hsub) hsame e he huses'

/-! ### Sessions -/

/-- What a task had done that creates a session. -/
theorem minted_of_mints {session : SessionRecord} (hmints : Mints n session c.1) :
    ∃ earlier later record, c.1 = earlier ++ .performed n (.createSession record) session :: later ∧
      FoundActive n session.orgId session.userId earlier ∧
      ((∃ r, Usable n r earlier ∧ r.userId = session.userId) ∨
        Picked library n session.orgId session.userId earlier) ∧
      ∃ w, Clean library earlier w (.performed n (.createSession record) session) := by
  have hkept := kept_of_cleanRun hlinks h
  obtain ⟨record, hmem⟩ := hmints
  obtain ⟨earlier, later, hsplit, ⟨orgId, userId, hfound, hchecked, hrecord⟩, -⟩ :=
    hkept.backed.split hmem
  obtain ⟨id, clock, hsession⟩ := hkept.minted n record session hmem
  obtain ⟨horg, huser⟩ := hrecord id clock
  rw [← hsession] at horg huser
  subst horg huser
  exact ⟨earlier, later, record, hsplit, hfound, hchecked,
    eachAfter_of_advances h eachAfter_nil earlier _ later hsplit⟩

/-- A pick token is exchanged for one session. -/
theorem token_exchanged_once (token : String) :
    AtMostOnce (fun e => ∃ n record session, e = .performed n (.createSession record) session ∧
      Presents n token c.1) c.1 := by
  have hkept := kept_of_cleanRun hlinks h
  refine atMostOnce_of_eachAfter fun earlier event later hsplit => ?_
  rintro ⟨n, record, session, rfl, hpresents⟩ e he ⟨m, record', session', rfl, hpresents'⟩
  obtain rfl | hne := eq_or_ne m n
  · exact not_uses_before hkept.backed m earlier _ later hsplit rfl _ he rfl
  · -- Both calls had been started with the token by then.
    have started_before {k : Nat} {rec : String → Int → SessionRecord} {s : SessionRecord}
        {before after : List LinkEvent}
        (hk : c.1 = before ++ .performed k (.createSession rec) s :: after)
        (hpk : Presents k token c.1) : Presents k token before := by
      have hsub : before ⊆ c.1 := hk ▸ List.subset_append_left _ _
      obtain ⟨⟨orgId, userId, -, ⟨r, husable, -⟩ | hpicked, -⟩, -⟩ := hkept.backed before _ after hk
      · exact absurd (husable.1.mono hsub) (not_reads_of_presents hlinks h hpk)
      · obtain ⟨client, token', -, -, -, -, hstarted, -⟩ := hpicked
        obtain rfl := presents_unique h (hsub hstarted) hpk
        exact ⟨client, orgId, hstarted⟩
    obtain ⟨before, after, hbefore⟩ := List.append_of_mem he
    have hsplit' : c.1 = before ++ .performed m (.createSession record') session' ::
        (after ++ .performed n (.createSession record) session :: later) := by
      rw [hsplit, hbefore, List.append_assoc, List.cons_append]
    have hsub : before ⊆ earlier := hbefore ▸ List.subset_append_left _ _
    obtain ⟨client, orgId, hstarted⟩ := started_before hsplit' hpresents'
    obtain ⟨w, hclean⟩ := eachAfter_of_advances h eachAfter_nil earlier _ later hsplit
    exact (hclean.2 token (started_before hsplit hpresents)).1 m hne
      ⟨client, orgId, hsub hstarted⟩ session' ⟨record', he⟩

/-- A link leads to one session. -/
theorem leadsTo_unique {tokenId : String} {session session' : SessionRecord} {n' : Nat}
    (hleads : LeadsTo library tokenId n session c.1)
    (hleads' : LeadsTo library tokenId n' session' c.1) : n = n' ∧ session = session' := by
  have honce := link_used_once hlinks h tokenId
  have hbacked := (kept_of_cleanRun hlinks h).backed
  obtain ⟨⟨record, hmem⟩, r, hr, hcase⟩ := hleads
  obtain ⟨⟨record', hmem'⟩, r', hr', hcase'⟩ := hleads'
  obtain hreads | ⟨m, stamp, token, hpresents, hreads, hstamp, htoken⟩ := hcase
  · obtain hreads' | ⟨m', stamp', token', hpresents', hreads', hstamp', htoken'⟩ := hcase'
    · have heq := honce.eq hmem hmem' ⟨n, r, hreads, hr, rfl⟩ ⟨n', r', hreads', hr', rfl⟩
      cases heq
      exact ⟨rfl, rfl⟩
    · have heq := honce.eq hmem hstamp' ⟨n, r, hreads, hr, rfl⟩ ⟨m', r', hreads', hr', rfl⟩
      cases heq
  · obtain hreads' | ⟨m', stamp', token', hpresents', hreads', hstamp', htoken'⟩ := hcase'
    · have heq := honce.eq hstamp hmem' ⟨m, r, hreads, hr, rfl⟩ ⟨n', r', hreads', hr', rfl⟩
      cases heq
    · have heq := honce.eq hstamp hstamp' ⟨m, r, hreads, hr, rfl⟩ ⟨m', r', hreads', hr', rfl⟩
      cases heq
      obtain rfl := reads_unique hbacked hreads hreads'
      subst htoken htoken'
      have heq := (token_exchanged_once hlinks h _).eq hmem hmem'
        ⟨n, record, session, rfl, hpresents⟩ ⟨n', record', session', rfl, hpresents'⟩
      cases heq
      exact ⟨rfl, rfl⟩

/-- A link leads to one session at most. -/
theorem link_leads_once (tokenId : String) :
    AtMostOnce (fun e => ∃ n record session, e = .performed n (.createSession record) session ∧
      LeadsTo library tokenId n session c.1) c.1 := by
  have hbacked := (kept_of_cleanRun hlinks h).backed
  refine atMostOnce_of_eachAfter fun earlier event later hsplit => ?_
  rintro ⟨n, record, session, rfl, hleads⟩ e he ⟨m, record', session', rfl, hleads'⟩
  obtain ⟨rfl, -⟩ := leadsTo_unique hlinks h hleads' hleads
  exact not_uses_before hbacked m earlier _ later hsplit rfl _ he rfl

end Runs

end CopilotRuntime.MagicLinks
