import CopilotRuntime.MagicLinks.StoreLaws

/-!
# Calls of the link sign-in

A call uses a link or a pick token once at most, and only after it has checked it. It
refuses a pick token for one of a few reasons.
-/

namespace CopilotRuntime.MagicLinks

open Foundation Identity
open AccountMerge (IdentityAuditEventRecord)
open Lockout (LoginAttemptOutcome second)

variable {config : LinkConfig} {library : LinkLibrary} {d : Directory} {w w' : LinkWorld}
  {trace own : List LinkEvent} {n : Nat} {α : Type}

/-! ### What the traces say -/

/-- The task has looked the link up. -/
def Reads (n : Nat) (r : MagicLinkTokenRecord) (trace : List LinkEvent) : Prop :=
  ∃ tokenHash, .performed n (.getByHash tokenHash) (some r) ∈ trace

def Looks (n : Nat) : LinkEvent → Prop
  | .performed m (.getByHash _) _ => m = n
  | _ => False

/-- The event creates a session or stamps a pick token. -/
def Uses (n : Nat) : LinkEvent → Prop
  | .performed m (.createSession _) _ | .performed m .pickStamp _ => m = n
  | _ => False

/-- The task has found the link open and not expired. -/
def Usable (n : Nat) (r : MagicLinkTokenRecord) (trace : List LinkEvent) : Prop :=
  Reads n r trace ∧ r.consumedAt = none ∧ ∃ t, .performed n .now t ∈ trace ∧ t ≤ r.expiresAt

/-- The task has found the user active in the organisation. -/
def FoundActive (n : Nat) (orgId userId : String) (trace : List LinkEvent) : Prop :=
  ∃ u, .performed n (.identity (.getUser orgId userId)) (some u) ∈ trace ∧ u.status = .active

/-- The task has checked the pick token that it is to exchange for a session of the user. -/
def Picked (library : LinkLibrary) (n : Nat) (orgId userId : String) (trace : List LinkEvent) :
    Prop :=
  ∃ client token fields exp claims t, .started n (.select client token orgId) ∈ trace ∧
    verified library token = .ok fields ∧ claimedExp library fields = .ok exp ∧
    readClaims fields = .ok claims ∧ claims.userId = userId ∧
    .performed n .now t ∈ trace ∧ t.tdiv second ≤ exp

/-- What a task has done before it performs an operation. -/
def Rests (library : LinkLibrary) (n : Nat) (trace : List LinkEvent) : LinkOp → Prop
  | .identity request => ReadsOnly request
  | .createLink record => (∀ id clock, (record id clock).tokenId = id) ∧
      ∃ email users u, .performed n (.identity (.listUsersByEmail email)) users ∈ trace ∧
        u ∈ users ∧ ∀ id clock, (record id clock).userId = u.userId ∧
          (record id clock).emailLower = email
  | .getByHash _ => (∃ client token, .started n (.consume client token) ∈ trace) ∧
      ∀ e ∈ trace, ¬ Looks n e
  | .markConsumed tokenId _ => ∃ r, Reads n r trace ∧ r.tokenId = tokenId
  | .pickStamp => (∃ r, Usable n r trace) ∧ ∀ e ∈ trace, ¬ Uses n e
  | .createSession record => (∃ orgId userId, FoundActive n orgId userId trace ∧
      ((∃ r, Usable n r trace ∧ r.userId = userId) ∨ Picked library n orgId userId trace) ∧
      ∀ id clock, (record id clock).orgId = orgId ∧ (record id clock).userId = userId) ∧
      ∀ e ∈ trace, ¬ Uses n e
  | _ => True

def Backed (library : LinkLibrary) (earlier : List LinkEvent) : LinkEvent → Prop
  | .performed n op _ => Rests library n earlier op
  | _ => True

section Own
variable (hown : ownEvents n trace = own)
include hown

theorem mem_of_own {e : LinkEvent} (h : e ∈ own) : e ∈ trace := (mem_ownEvents.mp (hown ▸ h)).1

theorem Reads.of_own {r : MagicLinkTokenRecord} (h : Reads n r own) : Reads n r trace :=
  h.imp fun _ => mem_of_own hown

theorem Usable.of_own {r : MagicLinkTokenRecord} (h : Usable n r own) : Usable n r trace := by
  obtain ⟨hreads, hopen, t, hnow, hle⟩ := h
  exact ⟨hreads.of_own hown, hopen, t, mem_of_own hown hnow, hle⟩

theorem not_uses_of_own (h : ∀ e ∈ own, ¬ Uses n e) : ∀ e ∈ trace, ¬ Uses n e := by
  intro e he huses
  refine h e (hown ▸ mem_ownEvents.mpr ⟨he, ?_⟩) huses
  cases e with
  | performed m op reply =>
      cases op with
      | createSession record => exact huses
      | pickStamp => exact huses
      | _ => exact huses.elim
  | started m call => exact huses.elim
  | stopped m => exact huses.elim

theorem not_looks_of_own (h : ∀ e ∈ own, ¬ Looks n e) : ∀ e ∈ trace, ¬ Looks n e := by
  intro e he hlooks
  refine h e (hown ▸ mem_ownEvents.mpr ⟨he, ?_⟩) hlooks
  cases e with
  | performed m op reply =>
      cases op with
      | getByHash tokenHash => exact hlooks
      | _ => exact hlooks.elim
  | started m call => exact hlooks.elim
  | stopped m => exact hlooks.elim

theorem FoundActive.of_own {orgId userId : String} (h : FoundActive n orgId userId own) :
    FoundActive n orgId userId trace := by
  obtain ⟨u, hmem, hactive⟩ := h
  exact ⟨u, mem_of_own hown hmem, hactive⟩

theorem Picked.of_own {orgId userId : String} (h : Picked library n orgId userId own) :
    Picked library n orgId userId trace := by
  obtain ⟨client, token, fields, exp, claims, t, hstarted, hverified, hexp, hclaims, huser, hnow,
    hle⟩ := h
  exact ⟨client, token, fields, exp, claims, t, mem_of_own hown hstarted, hverified, hexp, hclaims,
    huser, mem_of_own hown hnow, hle⟩

/-- What the events of a task say of it, a trace with these events says. -/
theorem Rests.of_own {op : LinkOp} (h : Rests library n own op) : Rests library n trace op := by
  cases op with
  | identity request => exact h
  | createLink record =>
      obtain ⟨hid, email, users, u, hmem, hrest⟩ := h
      exact ⟨hid, email, users, u, mem_of_own hown hmem, hrest⟩
  | getByHash tokenHash =>
      obtain ⟨⟨client, token, hstarted⟩, hlooks⟩ := h
      exact ⟨⟨client, token, mem_of_own hown hstarted⟩, not_looks_of_own hown hlooks⟩
  | markConsumed tokenId sessionId =>
      obtain ⟨r, hreads, hid⟩ := h
      exact ⟨r, hreads.of_own hown, hid⟩
  | pickStamp =>
      obtain ⟨⟨r, husable⟩, huses⟩ := h
      exact ⟨⟨r, husable.of_own hown⟩, not_uses_of_own hown huses⟩
  | createSession record =>
      obtain ⟨⟨orgId, userId, hfound, hchecked, hrecord⟩, huses⟩ := h
      refine ⟨⟨orgId, userId, hfound.of_own hown, ?_, hrecord⟩, not_uses_of_own hown huses⟩
      obtain ⟨r, husable, huser⟩ | hpicked := hchecked
      · exact .inl ⟨r, husable.of_own hown, huser⟩
      · exact .inr (hpicked.of_own hown)
  | _ => exact trivial

end Own

/-! ### What is kept -/

/-- The link is for the email of its user. -/
def Addressed (d : Directory) (r : MagicLinkTokenRecord) : Prop :=
  ∃ u ∈ d.users.rows, u.userId = r.userId ∧ u.primaryEmail = r.emailLower

structure Kept (d : Directory) (library : LinkLibrary) (trace : List LinkEvent) (w : LinkWorld) :
    Prop where
  directory : w.directory = d
  answered : ∀ n request reply, .performed n (.identity request) reply ∈ trace →
    ∃ id clock, reply = (Directory.answer id clock request d).1
  addressed : ∀ r ∈ w.links.rows, Addressed d r
  read : ∀ n r, Reads n r trace → ∃ row ∈ w.links.rows, row.issued = r.issued
  marked : ∀ n tokenId sessionId reply,
    .performed n (.markConsumed tokenId sessionId) reply ∈ trace →
      ∀ row ∈ w.links.rows, row.tokenId = tokenId → row.consumedAt.isSome = true
  minted : ∀ n record session, .performed n (.createSession record) session ∈ trace →
    ∃ id clock, session = record id clock
  backed : EachAfter (Backed library) trace

theorem Addressed.of_issued {r r' : MagicLinkTokenRecord} (h : Addressed d r)
    (hissued : r.issued = r'.issued) : Addressed d r' := by
  obtain ⟨u, hu, huser, hemail⟩ := h
  obtain ⟨-, huser', hemail'⟩ := eq_of_issued hissued
  exact ⟨u, hu, huser.trans huser', hemail.trans hemail'⟩

theorem kept_nil (hlinks : w.links.rows = []) : Kept w.directory library [] w where
  directory := rfl
  answered _ _ _ h := absurd h List.not_mem_nil
  addressed _ hr := absurd (hlinks ▸ hr) List.not_mem_nil
  read _ _ h := absurd h.choose_spec List.not_mem_nil
  marked _ _ _ _ h := absurd h List.not_mem_nil
  minted _ _ _ h := absurd h List.not_mem_nil
  backed := eachAfter_nil

theorem mem_listUsersByEmail {email : String} {u : UserRecord} (h : u ∈ d.listUsersByEmail email) :
    u ∈ d.users.rows ∧ u.deletedAt = none ∧ u.primaryEmail = email := by
  rw [Directory.listUsersByEmail, List.mem_insertionSort, List.mem_filter, Bool.and_eq_true] at h
  obtain ⟨hmem, hdeleted, hemail⟩ := h
  exact ⟨hmem, Option.isNone_iff_eq_none.mp hdeleted, of_decide_eq_true hemail⟩

theorem reads_snoc {m : Nat} {r : MagicLinkTokenRecord} {e : LinkEvent}
    (h : Reads m r (trace ++ [e])) :
    Reads m r trace ∨ ∃ tokenHash, e = .performed m (.getByHash tokenHash) (some r) := by
  obtain ⟨tokenHash, hmem⟩ := h
  obtain hold | hnew := List.mem_append.mp hmem
  · exact .inl ⟨tokenHash, hold⟩
  · exact .inr ⟨tokenHash, (List.mem_singleton.mp hnew).symm⟩

theorem Kept.performed (h : Kept d library trace w) {op : LinkOp} {reply : op.Reply}
    (henv : LinkWorld.env op w reply w') (hrests : Rests library n trace op) :
    Kept d library (trace ++ [Event.performed n op reply]) w' := by
  have hcreate : ∀ record, op = .createLink record →
      ∀ id clock, (record id clock).tokenId = id := by
    rintro record rfl
    exact hrests.1
  have hdirectory : w'.directory = w.directory := by
    refine directory_of_env henv ?_
    rintro request rfl
    exact hrests
  refine ⟨hdirectory.trans h.directory, fun m request answer hmem => ?_, fun r hr => ?_,
    fun m r hreads => ?_, fun m tokenId sessionId answer hmem row hrow hid => ?_,
    fun m record session hmem => ?_, eachAfter_snoc.mpr ⟨h.backed, hrests⟩⟩
  · obtain hold | hnew := List.mem_append.mp hmem
    · exact h.answered m request answer hold
    · cases List.mem_singleton.mp hnew
      rw [← h.directory]
      exact reply_of_identity henv
  · obtain ⟨row, hrow, hissued, -⟩ | ⟨record, id, clock, rfl, rfl, -⟩ := mem_links_of_env henv hr
    · exact (h.addressed row hrow).of_issued hissued
    · obtain ⟨-, email, users, u, hmem, hu, hrecord⟩ := hrests
      obtain ⟨id', clock', hanswer⟩ := h.answered n (.listUsersByEmail email) users hmem
      rw [hanswer] at hu
      obtain ⟨hrow, -, hemail⟩ := mem_listUsersByEmail hu
      obtain ⟨huser, hrecordEmail⟩ := hrecord id clock
      exact ⟨u, hrow, huser.symm, hemail.trans hrecordEmail.symm⟩
  · obtain hold | ⟨tokenHash, heq⟩ := reads_snoc hreads
    · obtain ⟨row, hrow, hissued⟩ := h.read m r hold
      obtain ⟨row', hrow', hissued', -⟩ := exists_links_of_env henv hrow hcreate
      exact ⟨row', hrow', hissued'.trans hissued⟩
    · cases heq
      obtain ⟨row', hrow', hissued', -⟩ :=
        exists_links_of_env henv (reply_of_getByHash henv) hcreate
      exact ⟨row', hrow', hissued'⟩
  · obtain hold | hnew := List.mem_append.mp hmem
    · obtain ⟨row', hrow', hissued, hmono⟩ | ⟨record, id, clock, rfl, rfl, hfresh⟩ :=
        mem_links_of_env henv hrow
      · refine hmono (h.marked m tokenId sessionId answer hold row' hrow' ?_)
        exact (eq_of_issued hissued).1.trans hid
      · -- A new id is not that of a link which was marked, as that one is in the store.
        obtain ⟨before, after, hsplit⟩ := List.append_of_mem hold
        obtain ⟨r, hreads, hrid⟩ := h.backed before _ after hsplit
        obtain ⟨stored, hstored, hissued⟩ := h.read m r (hreads.imp fun _ hmem' => by
          rw [hsplit]
          exact List.mem_append_left _ hmem')
        refine absurd ?_ hfresh
        rw [hcreate record rfl] at hid
        rw [hid, ← hrid, ← (eq_of_issued hissued).1]
        exact List.mem_append_left _ (List.mem_map_of_mem hstored)
    · cases List.mem_singleton.mp hnew
      exact consumed_of_markConsumed henv row hrow hid
  · obtain hold | hnew := List.mem_append.mp hmem
    · exact h.minted m record session hold
    · cases List.mem_singleton.mp hnew
      obtain ⟨clock, draw, -, hanswer⟩ := henv
      exact ⟨draw.id, clock, congrArg Prod.fst hanswer⟩

theorem Kept.other (h : Kept d library trace w) {event : LinkEvent}
    (hother : ∀ m op reply, event ≠ .performed m op reply) :
    Kept d library (trace ++ [event]) w := by
  have hold {m : Nat} {op : LinkOp} {reply : op.Reply}
      (hmem : .performed m op reply ∈ trace ++ [event]) : .performed m op reply ∈ trace := by
    obtain hmem | hnew := List.mem_append.mp hmem
    · exact hmem
    · exact absurd (List.mem_singleton.mp hnew).symm (hother m op reply)
  refine ⟨h.directory, fun m request reply hmem => h.answered m request reply (hold hmem),
    h.addressed, fun m r hreads => h.read m r (hreads.imp fun _ => hold),
    fun m tokenId sessionId reply hmem => h.marked m tokenId sessionId reply (hold hmem),
    fun m record session hmem => h.minted m record session (hold hmem),
    eachAfter_snoc.mpr ⟨h.backed, ?_⟩⟩
  cases event with
  | performed m op reply => exact absurd rfl (hother m op reply)
  | started m call => exact trivial
  | stopped m => exact trivial

end CopilotRuntime.MagicLinks
