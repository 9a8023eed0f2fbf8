import CopilotRuntime.Invitations.Service

/-!
# What a trace says about the invitations

An invitation is settled at most once, and between the read of an invitation and
an attempt to settle it that fails, the invitation was settled.
-/

namespace CopilotRuntime.Invitations

open Foundation Identity
open AccountMerge (IdentityAuditEventRecord)

abbrev InvitationEvent := Event InvitationOp InvitationOp.Reply InvitationCall

abbrev InvitationPool := Pool InvitationOp InvitationOp.Reply InvitationError InvitationResult
  InvitationWorld

/-! ### Events -/

/-- The task finds the invitation of its token. -/
def Reads (event : InvitationEvent) (n : Nat) (r : InvitationRecord) : Prop :=
  ∃ tokenHash, event = .performed n (.getByTokenHash tokenHash) (some r)

/-- The invitation is revoked successfully. -/
def Revokes (event : InvitationEvent) (inviteId : String) : Prop :=
  ∃ n actor, event = .performed n (.revoke inviteId actor) true

/-- The task marks the invitation as accepted, with success or not. -/
def Marks (event : InvitationEvent) (n : Nat) (inviteId : String) : Prop :=
  ∃ user ok, event = .performed n (.markAccepted inviteId user) ok

/-- The invitation is accepted or revoked successfully. -/
def Settles (event : InvitationEvent) (inviteId : String) : Prop :=
  Revokes event inviteId ∨ ∃ n user, event = .performed n (.markAccepted inviteId user) true

section Store
variable {t : InvitationTable} {w w' : InvitationWorld} {n m : Nat} {i : String}
  {r : InvitationRecord}

theorem mem_of_getByTokenHash {tokenHash : String}
    (h : InvitationTable.getByTokenHash t tokenHash = some r) : t.find? r.inviteId = some r :=
  Table.mem_rows_iff.mp (List.mem_of_find?_eq_some h)

/-- An open invitation is changed; any other one is left as it is. -/
theorem settle_eq (t : InvitationTable) (i : String)
    (change : InvitationRecord → InvitationRecord) :
    (InvitationTable.settle t i change = (false, t) ∧
      ∀ r, t.find? i = some r → r.isOpen = false) ∨
    ∃ r, t.find? i = some r ∧ r.isOpen = true ∧
      InvitationTable.settle t i change = (true, t.put (change r)) := by
  cases hfound : t.find? i with
  | none => exact .inl ⟨by rw [InvitationTable.settle, hfound]; rfl, nofun⟩
  | some r =>
      cases hopen : r.isOpen with
      | false =>
          refine .inl ⟨by simp [InvitationTable.settle, hfound, Option.filter, hopen], ?_⟩
          intro r' hr'
          obtain rfl := Option.some.inj hr'
          exact hopen
      | true =>
          exact .inr ⟨r, rfl, hopen, by simp [InvitationTable.settle, hfound, Option.filter, hopen]⟩

/-! ### One operation -/

/-- What an operation does to the invitations. -/
inductive Changes (n : Nat) (op : InvitationOp) (reply : op.Reply) (t t' : InvitationTable) : Prop
  | nothing (same : t' = t) (spares : ∀ i, ¬ Settles (.performed n op reply) i)
  | creates (r : InvitationRecord) (new : t.find? r.inviteId = none) (stored : t' = t.put r)
      (spares : ∀ i, ¬ Settles (.performed n op reply) i)
  | settles (r r' : InvitationRecord) (found : t.find? r'.inviteId = some r) (opened : r.isOpen)
      (closed : r'.isOpen = false) (stored : t' = t.put r')
      (only : ∀ i, Settles (.performed n op reply) i ↔ i = r'.inviteId)

theorem not_settles {op : InvitationOp} {reply : op.Reply}
    (hrevoke : ∀ i user, op ≠ .revoke i user) (hmark : ∀ i user, op ≠ .markAccepted i user) :
    ∀ i, ¬ Settles (.performed n op reply) i := by
  rintro i (⟨m, user, heq⟩ | ⟨m, user, heq⟩)
  · injection heq with _ hop
    exact hrevoke i user hop
  · injection heq with _ hop
    exact hmark i user hop

theorem changes_of_settle {t' : InvitationTable} {op : InvitationOp} {reply : op.Reply}
    {change : InvitationRecord → InvitationRecord}
    (hstored : t' = (InvitationTable.settle t i change).2)
    (hkey : ∀ r, (change r).inviteId = r.inviteId) (hclosed : ∀ r, (change r).isOpen = false)
    (honly : ∀ j, Settles (.performed n op reply) j ↔
      j = i ∧ (InvitationTable.settle t i change).1 = true) : Changes n op reply t t' := by
  obtain ⟨heq, -⟩ | ⟨r, hfound, hopen, heq⟩ := settle_eq t i change
  · refine .nothing (hstored.trans (congrArg Prod.snd heq)) fun j hj => ?_
    have htrue := ((honly j).mp hj).2
    rw [heq] at htrue
    cases htrue
  · obtain rfl := Table.key_of_find? hfound
    refine .settles r (change r) ((hkey r).symm ▸ hfound) hopen (hclosed r)
      (hstored.trans (congrArg Prod.snd heq)) fun j => ?_
    rw [honly, heq, hkey]
    exact and_iff_left rfl

theorem changes_of_env {op : InvitationOp} {reply : op.Reply}
    (henv : InvitationWorld.env op w reply w') (n : Nat) :
    Changes n op reply w.invitations w'.invitations := by
  obtain ⟨clock, drawn, -, hunused, hanswer⟩ := henv
  obtain rfl : w' = _ := congrArg Prod.snd hanswer
  have hreply : reply = _ := congrArg Prod.fst hanswer
  cases op with
  | create candidate =>
      change Changes n _ _ _ (InvitationTable.create _ _).2
      rw [InvitationTable.create]
      split
      · exact .nothing rfl (not_settles nofun nofun)
      · split
        · exact .nothing rfl (not_settles nofun nofun)
        · exact .creates (candidate.record drawn clock) hunused rfl (not_settles nofun nofun)
  | revoke i user =>
      refine changes_of_settle (i := i) rfl (fun _ => rfl) (fun r => ?_) fun j => ⟨?_, ?_⟩
      · simp [InvitationRecord.isOpen]
      · rintro (⟨m, user', hevent⟩ | ⟨m, user', hevent⟩)
        · injection hevent with _ hop htrue
          exact ⟨(InvitationOp.revoke.inj hop).1.symm, hreply.symm.trans htrue⟩
        · cases hevent
      · rintro ⟨rfl, htrue⟩
        obtain rfl : reply = true := hreply.trans htrue
        exact .inl ⟨n, user, rfl⟩
  | markAccepted i user =>
      refine changes_of_settle (i := i) rfl (fun _ => rfl) (fun r => ?_) fun j => ⟨?_, ?_⟩
      · simp [InvitationRecord.isOpen]
      · rintro (⟨m, user', hevent⟩ | ⟨m, user', hevent⟩)
        · cases hevent
        · injection hevent with _ hop htrue
          exact ⟨(InvitationOp.markAccepted.inj hop).1.symm, hreply.symm.trans htrue⟩
      · rintro ⟨rfl, htrue⟩
        obtain rfl : reply = true := hreply.trans htrue
        exact .inr ⟨n, user, rfl⟩
  | _ => exact .nothing rfl (not_settles nofun nofun)

section Changes
variable {t' : InvitationTable} {op : InvitationOp} {reply : op.Reply}

/-- An invitation that is not settled by an operation stays as it is. -/
theorem Changes.keeps (h : Changes n op reply t t') (hfound : t.find? i = some r)
    (hspared : ¬ Settles (.performed n op reply) i) : t'.find? i = some r := by
  cases h with
  | nothing same _ => rw [same, hfound]
  | creates s new stored _ =>
      rw [stored, Table.find?_put_of_ne t fun hkey => ?_, hfound]
      rw [hkey, hfound] at new
      cases new
  | settles s s' _ _ _ stored only =>
      rw [stored, Table.find?_put_of_ne t fun hkey => ?_, hfound]
      exact hspared ((only i).mpr hkey.symm)

/-- An operation settles only an open invitation. -/
theorem Changes.opened (h : Changes n op reply t t')
    (hsettles : Settles (.performed n op reply) i) :
    (∃ r, t.find? i = some r ∧ r.isOpen = true) ∧ ∃ r, t'.find? i = some r ∧ r.isOpen = false := by
  cases h with
  | nothing _ spares => exact absurd hsettles (spares i)
  | creates _ _ _ spares => exact absurd hsettles (spares i)
  | settles s s' found opened closed stored only =>
      obtain rfl := (only i).mp hsettles
      exact ⟨⟨s, found, opened⟩, s', by rw [stored, Table.find?_put_self], closed⟩

/-- An invitation that is not open stays as it is. -/
theorem Changes.keeps_closed (h : Changes n op reply t t') (hfound : t.find? i = some r)
    (hclosed : r.isOpen = false) : t'.find? i = some r := by
  refine h.keeps hfound fun hsettles => ?_
  obtain ⟨⟨s, hs, hopen⟩, -⟩ := h.opened hsettles
  rw [hfound] at hs
  obtain rfl := Option.some.inj hs
  rw [hclosed] at hopen
  cases hopen

end Changes

theorem closed_of_markAccepted_false {user : String}
    (henv : InvitationWorld.env (.markAccepted i user) w false w')
    (hfound : w.invitations.find? i = some r) : r.isOpen = false := by
  obtain ⟨clock, drawn, -, -, hanswer⟩ := henv
  have hreply : false = _ := congrArg Prod.fst hanswer
  obtain ⟨-, hclosed⟩ | ⟨s, -, -, heq⟩ := settle_eq w.invitations i fun r =>
    { r with acceptedAt := some clock, acceptedUserId := some user }
  · exact hclosed r hfound
  · rw [Prod.ext_iff] at heq
    exact absurd (hreply.trans heq.1) Bool.false_ne_true

theorem reads_of_env {op : InvitationOp} {reply : op.Reply}
    (henv : InvitationWorld.env op w reply w') (h : Reads (.performed n op reply) m r) :
    w.invitations.find? r.inviteId = some r := by
  obtain ⟨tokenHash, heq⟩ := h
  injection heq with _ hop hreply
  subst hop
  obtain rfl := eq_of_heq hreply
  obtain ⟨clock, drawn, -, -, hanswer⟩ := henv
  have hfound : some r = _ := congrArg Prod.fst hanswer
  exact mem_of_getByTokenHash hfound.symm

end Store

/-! ### Traces -/

section Traces
variable {trace : List InvitationEvent} {w w' : InvitationWorld}

/-- What the trace says about the rows. -/
structure Recorded (trace : List InvitationEvent) (w : InvitationWorld) : Prop where
  unchanged : ∀ before event between, trace = before ++ event :: between → ∀ n r,
    Reads event n r → (∀ e ∈ between, ¬ Settles e r.inviteId) →
      w.invitations.find? r.inviteId = some r
  settled : ∀ event ∈ trace, ∀ i, Settles event i →
    ∃ r, w.invitations.find? i = some r ∧ r.isOpen = false

/-- What an event says about the ones before it. -/
structure Lawful (earlier : List InvitationEvent) (event : InvitationEvent) : Prop where
  settles_once : ∀ i, Settles event i → ∀ e ∈ earlier, ¬ Settles e i
  reads_unsettled : ∀ n r, Reads event n r → r.isOpen = true → ∀ e ∈ earlier, ¬ Settles e r.inviteId
  fails_settled : ∀ n i user, event = .performed n (.markAccepted i user) false →
    ∀ before e between, earlier = before ++ e :: between → ∀ m r, Reads e m r → r.inviteId = i →
      r.isOpen = true → ∃ e' ∈ between, Settles e' i

theorem recorded_nil (w : InvitationWorld) : Recorded [] w := by
  refine ⟨fun before event between heq => ?_, fun event hevent => absurd hevent List.not_mem_nil⟩
  simp at heq

theorem Recorded.lawful (h : Recorded trace w) {n : Nat} {op : InvitationOp} {reply : op.Reply}
    (henv : InvitationWorld.env op w reply w') : Lawful trace (.performed n op reply) where
  settles_once i hsettles e he hearlier := by
    obtain ⟨⟨r, hr, hopen⟩, -⟩ := (changes_of_env henv n).opened hsettles
    obtain ⟨s, hs, hclosed⟩ := h.settled e he i hearlier
    rw [hs] at hr
    obtain rfl := Option.some.inj hr
    rw [hclosed] at hopen
    cases hopen
  reads_unsettled m r hreads hopen e he hearlier := by
    obtain ⟨s, hs, hclosed⟩ := h.settled e he _ hearlier
    rw [reads_of_env henv hreads] at hs
    obtain rfl := Option.some.inj hs
    rw [hclosed] at hopen
    cases hopen
  fails_settled m i user hevent before e between htrace m' r hreads hid hopen := by
    injection hevent with _ hop hreply
    subst hop
    obtain rfl : reply = false := eq_of_heq hreply
    by_contra hnone
    have hfound := h.unchanged before e between htrace m' r hreads fun e' he' hsettles =>
      hnone ⟨e', he', hid ▸ hsettles⟩
    rw [closed_of_markAccepted_false henv (hid ▸ hfound)] at hopen
    cases hopen

theorem Recorded.performed (h : Recorded trace w) {n : Nat} {op : InvitationOp} {reply : op.Reply}
    (henv : InvitationWorld.env op w reply w') :
    Recorded (trace ++ [Event.performed n op reply]) w' where
  unchanged before event between hsplit m r hreads hspared := by
    have hchanges := changes_of_env henv n
    obtain ⟨rfl, rfl, rfl⟩ | ⟨between', rfl, htrace⟩ := snoc_eq_append_cons_iff.mp hsplit
    · refine hchanges.keeps (reads_of_env henv hreads) ?_
      obtain ⟨tokenHash, heq⟩ := hreads
      rw [heq]
      refine not_settles ?_ ?_ _
      · exact nofun
      · exact nofun
    · refine hchanges.keeps (h.unchanged before event between' htrace m r hreads ?_) ?_
      · exact fun e he => hspared e (List.mem_append_left _ he)
      · exact hspared _ (List.mem_append_right _ (List.mem_singleton.mpr rfl))
  settled event hmem i hsettles := by
    have hchanges := changes_of_env henv n
    obtain hold | hlast := List.mem_append.mp hmem
    · obtain ⟨r, hr, hclosed⟩ := h.settled event hold i hsettles
      exact ⟨r, hchanges.keeps_closed hr hclosed, hclosed⟩
    · obtain rfl := List.mem_singleton.mp hlast
      exact (hchanges.opened hsettles).2

/-- An event that performs nothing changes nothing of what the trace says. -/
theorem Recorded.other (h : Recorded trace w) {event : InvitationEvent}
    (hreads : ∀ n r, ¬ Reads event n r) (hsettles : ∀ i, ¬ Settles event i) :
    Recorded (trace ++ [event]) w where
  unchanged before e between hsplit m r hread hspared := by
    obtain ⟨-, rfl, -⟩ | ⟨between', rfl, htrace⟩ := snoc_eq_append_cons_iff.mp hsplit
    · exact absurd hread (hreads m r)
    · refine h.unchanged before e between' htrace m r hread ?_
      exact fun e' he' => hspared e' (List.mem_append_left _ he')
  settled e hmem i hsettle := by
    obtain hold | hlast := List.mem_append.mp hmem
    · exact h.settled e hold i hsettle
    · obtain rfl := List.mem_singleton.mp hlast
      exact absurd hsettle (hsettles i)

end Traces

end CopilotRuntime.Invitations
