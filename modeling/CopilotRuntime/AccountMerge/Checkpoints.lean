import CopilotRuntime.AccountMerge.Rekeying

/-!
# Checkpoints of a merge

At each state of its record a merge has left the stores in a certain way, up to
the times at which it worked. A step that is interrupted before it has done
anything that is counted leaves them so.
-/

namespace CopilotRuntime.AccountMerge

open Foundation

variable {ρ : Type}

/-! ### Up to times -/

def SessionRecord.timeless (s : SessionRecord) : SessionRecord :=
  { s with revokedAt := s.revokedAt.map fun _ => 0 }

def UserRecord.timeless (u : UserRecord) : UserRecord :=
  { u with deletedAt := u.deletedAt.map fun _ => 0, mergedAt := u.mergedAt.map fun _ => 0 }

def IdentityAuditEventRecord.timeless (e : IdentityAuditEventRecord) : IdentityAuditEventRecord :=
  { e with createdAt := 0 }

def AccountMergeRecord.timeless (r : AccountMergeRecord) : AccountMergeRecord :=
  { r with startedAt := 0, updatedAt := 0, completedAt := r.completedAt.map fun _ => 0 }

/-! ### Revoking sessions -/

/-- A session after a merge that finds it active at a time. -/
def SessionRecord.revokedFor (account : Account) (now : Int) (s : SessionRecord) : SessionRecord :=
  if s.activeAt account now then s.revoked "account_merged" 0 else s.timeless

/-- The sessions of an account that were active at a time have been revoked. -/
def SessionsRevoked (account : Account) (now : Int) (before after : MergeWorld ρ) : Prop :=
  ∀ id, (after.sessions.find? id).map (·.timeless) =
    (before.sessions.find? id).map (·.revokedFor account now)

section Sessions
variable {around : Surroundings ρ} {account : Account} {w w' : MergeWorld ρ}

/-- Only sessions have changed. -/
def OnlySessions (w w' : MergeWorld ρ) : Prop := w' = { w with sessions := w'.sessions }

theorem OnlySessions.refl (w : MergeWorld ρ) : OnlySessions w w := rfl

theorem OnlySessions.trans {w'' : MergeWorld ρ} (h : OnlySessions w w')
    (h' : OnlySessions w' w'') : OnlySessions w w'' := by
  unfold OnlySessions at h h' ⊢
  rw [h] at h'
  exact h'

theorem onlySessions_putSession (w : MergeWorld ρ) (s : SessionRecord) :
    OnlySessions w (w.putSession s) := rfl

theorem find?_putSession_self (w : MergeWorld ρ) (s : SessionRecord) (reason : String)
    (now : Int) :
    (w.putSession (s.revoked reason now)).sessions.find? s.sessionId =
      some (s.revoked reason now) :=
  w.sessions.find?_put_self (s.revoked reason now)

theorem find?_putSession_of_ne (w : MergeWorld ρ) {s : SessionRecord} {id : String}
    (h : s.sessionId ≠ id) (reason : String) (now : Int) :
    (w.putSession (s.revoked reason now)).sessions.find? id = w.sessions.find? id :=
  w.sessions.find?_put_of_ne h

theorem mem_listActiveSessions {s : SessionRecord} {now : Int} :
    s ∈ w.listActiveSessions account now ↔
      w.sessions.find? s.sessionId = some s ∧ s.activeAt account now = true := by
  rw [MergeWorld.listActiveSessions, List.mem_insertionSort, List.mem_filter, Table.mem_rows_iff]

theorem nodup_listActiveSessions (w : MergeWorld ρ) (account : Account) (now : Int) :
    ((w.listActiveSessions account now).map (·.sessionId)).Nodup := by
  rw [MergeWorld.listActiveSessions, ((List.perm_insertionSort _ _).map _).nodup_iff]
  exact w.sessions.nodup_keys.sublist (List.filter_sublist.map _)

/-- A session that is there, of the organisation and not revoked, is revoked. -/
theorem revokeSession_of_active {s : SessionRecord} {id : String} (now : Int)
    (hfind : w.sessions.find? id = some s)
    (hactive : s.owner = account ∧ s.revokedAt = none) :
    w.revokeSession account.orgId id "account_merged" now =
      (true, w.putSession (s.revoked "account_merged" now)) := by
  rw [MergeWorld.revokeSession, hfind]
  simp [hactive.1, hactive.2]

theorem endures_revokeSession {α : Type} {crash : MergeWorld ρ → Prop}
    {post : α → MergeWorld ρ → Prop} {s : SessionRecord} {f : Bool → SagaProgram α}
    (hfind : w.sessions.find? s.sessionId = some s)
    (hactive : s.owner = account ∧ s.revokedAt = none) (hkept : crash w)
    (hnext : ∀ now, Endures around crash post (f true)
      (w.putSession (s.revoked "account_merged" now))) :
    Endures around crash post
      (perform (.revokeSession account.orgId s.sessionId "account_merged") >>= f) w := by
  refine endures_perform hkept fun now _ => ?_
  change Endures around crash post
    (f (w.revokeSession account.orgId s.sessionId "account_merged" now).1)
    (w.revokeSession account.orgId s.sessionId "account_merged" now).2
  rw [revokeSession_of_active now hfind hactive]
  exact hnext now

/-- Revoking listed sessions revokes these and counts them. -/
theorem endures_revokeSessions (sessions : List SessionRecord) (w : MergeWorld ρ)
    (hnodup : (sessions.map (·.sessionId)).Nodup)
    (hlisted : ∀ s ∈ sessions, w.sessions.find? s.sessionId = some s ∧
      s.owner = account ∧ s.revokedAt = none) :
    Endures around (OnlySessions w)
      (fun revoked w' => revoked = sessions.length ∧ OnlySessions w w' ∧
        ∀ id, (w'.sessions.find? id).map (·.timeless) =
          if id ∈ sessions.map (·.sessionId) then
            (w.sessions.find? id).map (·.revoked "account_merged" 0)
          else (w.sessions.find? id).map (·.timeless))
      (revokeSessions account sessions) w := by
  induction sessions generalizing w with
  | nil => exact endures_pure (OnlySessions.refl w) ⟨rfl, OnlySessions.refl w, fun _ => rfl⟩
  | cons s rest ih =>
      obtain ⟨hfresh, hnodup⟩ := List.nodup_cons.mp hnodup
      obtain ⟨hfind, hactive⟩ := hlisted s List.mem_cons_self
      rw [revokeSessions]
      refine endures_revokeSession hfind hactive (OnlySessions.refl w) fun now => ?_
      have hfirst := onlySessions_putSession w (s.revoked "account_merged" now)
      refine Program.Withstands.bind (Endures.mono (ih _ hnodup ?_)
        (fun _ h => hfirst.trans h) fun _ _ h => h) ?_
      · intro other hmem
        have hother : s.sessionId ≠ other.sessionId := fun heq =>
          hfresh (List.mem_map.mpr ⟨other, hmem, heq.symm⟩)
        rw [find?_putSession_of_ne w hother]
        exact hlisted other (List.mem_cons_of_mem _ hmem)
      · rintro revoked w' ⟨rfl, honly, hdone⟩
        refine endures_pure (hfirst.trans honly) ⟨rfl, hfirst.trans honly, fun id => ?_⟩
        rw [hdone id, List.map_cons]
        by_cases hid : s.sessionId = id
        · subst hid
          rw [if_neg hfresh, if_pos List.mem_cons_self, find?_putSession_self, hfind]
          rfl
        · have hmem : id ∈ s.sessionId :: rest.map (·.sessionId) ↔
              id ∈ rest.map (·.sessionId) := by
            rw [List.mem_cons, or_iff_right (Ne.symm hid)]
          rw [find?_putSession_of_ne w hid]
          simp only [hmem]

/-- Revoking the sessions that are listed at a time leaves the account's sessions revoked. -/
theorem sessionsRevoked_of_listed {now : Int}
    (h : ∀ id, (w'.sessions.find? id).map (·.timeless) =
      if id ∈ (w.listActiveSessions account now).map (·.sessionId) then
        (w.sessions.find? id).map (·.revoked "account_merged" 0)
      else (w.sessions.find? id).map (·.timeless)) :
    SessionsRevoked account now w w' := by
  intro id
  rw [h id]
  cases hfind : w.sessions.find? id with
  | none => simp
  | some s =>
      have hid : s.sessionId = id := Table.key_of_find? hfind
      have hlisted : id ∈ (w.listActiveSessions account now).map (·.sessionId) ↔
          s.activeAt account now = true := by
        rw [List.mem_map]
        constructor
        · rintro ⟨other, hother, hsame⟩
          obtain ⟨hfound, hactive⟩ := mem_listActiveSessions.mp hother
          rw [hsame, hfind] at hfound
          rwa [Option.some.inj hfound]
        · intro hactive
          exact ⟨s, mem_listActiveSessions.mpr ⟨hid ▸ hfind, hactive⟩, hid⟩
      simp only [hlisted, Option.map_some]
      by_cases hactive : s.activeAt account now = true
      · rw [if_pos hactive, SessionRecord.revokedFor, if_pos hactive]
      · rw [if_neg hactive, SessionRecord.revokedFor, if_neg hactive]

end Sessions

/-! ### Disabling the user -/

section Users
variable {around : Surroundings ρ} {accounts : AccountPair} {w₀ w w' : MergeWorld ρ}

/-- The user of the absorbed account is disabled in favour of the survivor. -/
def UserDisabled (accounts : AccountPair) (before after : MergeWorld ρ) : Prop :=
  ∃ user, before.getUser accounts.absorbed = some user ∧
    (user.absorbedIntoUserId = some accounts.survivor.userId ∧ after.users = before.users ∨
      user.absorbedIntoUserId ≠ some accounts.survivor.userId ∧ ∃ deletedAt mergedAt,
        after.users =
          before.users.put (disabled user accounts.survivor.userId deletedAt mergedAt))

/-- Only users have changed: the absorbed account's is as it was, or disabled. -/
def Disabling (accounts : AccountPair) (w₀ w w' : MergeWorld ρ) : Prop :=
  w' = { w with users := w'.users } ∧ (w'.users = w₀.users ∨ UserDisabled accounts w₀ w')

theorem getUser_eq_some_iff {account : Account} {user : UserRecord} :
    w.getUser account = some user ↔ w.users.find? account.userId = some user ∧
      user.orgId = account.orgId ∧ user.deletedAt = none := by
  simp [MergeWorld.getUser, Option.filter_eq_some_iff]

/-- A user that was disabled is not got any more. -/
theorem getUser_of_disabled {user : UserRecord} {survivorUserId : String} {deletedAt mergedAt : Int}
    (hbefore : w₀.getUser accounts.absorbed = some user)
    (hafter : w.users = w₀.users.put (disabled user survivorUserId deletedAt mergedAt)) :
    w.getUser accounts.absorbed = none := by
  have hid : user.userId = accounts.absorbed.userId :=
    Table.key_of_find? (getUser_eq_some_iff.mp hbefore).1
  have hfind : w.users.find? accounts.absorbed.userId =
      some (disabled user survivorUserId deletedAt mergedAt) := by
    rw [hafter, ← hid]
    exact w₀.users.find?_put_self (disabled user survivorUserId deletedAt mergedAt)
  rw [MergeWorld.getUser, hfind]
  simp [disabled]

theorem getUser_congr {account : Account} (h : w.users = w₀.users) :
    w.getUser account = w₀.getUser account := by
  rw [MergeWorld.getUser, MergeWorld.getUser, h]

theorem endures_disableAbsorbedUser {user : UserRecord}
    (huser : w₀.getUser accounts.absorbed = some user)
    (hbefore : w.users = w₀.users ∨ UserDisabled accounts w₀ w) :
    Endures around (Disabling accounts w₀ w)
      (fun _ w' => Disabling accounts w₀ w w' ∧ UserDisabled accounts w₀ w')
      (disableAbsorbedUser accounts) w := by
  have hstart : Disabling accounts w₀ w w := ⟨rfl, hbefore⟩
  unfold disableAbsorbedUser
  obtain hsame | hdisabled := hbefore
  · have hgot : w.getUser accounts.absorbed = some user := (getUser_congr hsame).trans huser
    refine endures_read (some user) (fun _ _ => Prod.ext hgot rfl) ?_
    dsimp only
    by_cases hmerged : user.absorbedIntoUserId = some accounts.survivor.userId
    · rw [if_pos hmerged]
      exact endures_pure hstart ⟨hstart, user, huser, .inl ⟨hmerged, hsame⟩⟩
    · rw [if_neg hmerged]
      refine endures_perform hstart fun deletedAt _ => ?_
      refine endures_perform hstart fun mergedAt _ => ?_
      have hdone : UserDisabled accounts w₀ { w with
          users := w.users.put (disabled user accounts.survivor.userId deletedAt mergedAt) } :=
        ⟨user, huser, .inr ⟨hmerged, deletedAt, mergedAt, by rw [hsame]⟩⟩
      refine endures_perform hstart fun _ _ => ?_
      exact endures_pure ⟨rfl, .inr hdone⟩ ⟨⟨rfl, .inr hdone⟩, hdone⟩
  · obtain ⟨user', huser', hcase⟩ := hdisabled
    obtain rfl : user = user' := Option.some.inj (huser.symm.trans huser')
    obtain ⟨hmerged, hsame⟩ | ⟨hunmerged, deletedAt, mergedAt, hput⟩ := hcase
    · have hgot : w.getUser accounts.absorbed = some user := (getUser_congr hsame).trans huser
      refine endures_read (some user) (fun _ _ => Prod.ext hgot rfl) ?_
      dsimp only
      rw [if_pos hmerged]
      exact endures_pure hstart ⟨hstart, user, huser, .inl ⟨hmerged, hsame⟩⟩
    · have hgot := getUser_of_disabled huser hput
      refine endures_read none (fun _ _ => Prod.ext hgot rfl) ?_
      exact endures_pure hstart ⟨hstart, user, huser, .inr ⟨hunmerged, deletedAt, mergedAt, hput⟩⟩

theorem find?_putDisabled (users : Table UserRecord.userId) (user : UserRecord)
    (survivorUserId : String) (deletedAt mergedAt : Int) (id : String) :
    ((users.put (disabled user survivorUserId deletedAt mergedAt)).find? id) =
      if user.userId = id then some (disabled user survivorUserId deletedAt mergedAt)
      else users.find? id :=
  users.find?_put _ id

/-- The users that two merges leave differ in times only. -/
theorem UserDisabled.same {after after' : MergeWorld ρ} (h : UserDisabled accounts w₀ after)
    (h' : UserDisabled accounts w₀ after') (id : String) :
    (after.users.find? id).map (·.timeless) = (after'.users.find? id).map (·.timeless) := by
  obtain ⟨user, huser, hcase⟩ := h
  obtain ⟨user', huser', hcase'⟩ := h'
  obtain rfl : user = user' := Option.some.inj (huser.symm.trans huser')
  obtain ⟨hmerged, hsame⟩ | ⟨hunmerged, deletedAt, mergedAt, hput⟩ := hcase
  · obtain ⟨-, hsame'⟩ | ⟨hunmerged', -⟩ := hcase'
    · rw [hsame, hsame']
    · exact absurd hmerged hunmerged'
  · obtain ⟨hmerged', -⟩ | ⟨-, deletedAt', mergedAt', hput'⟩ := hcase'
    · exact absurd hmerged' hunmerged
    · rw [hput, hput', find?_putDisabled, find?_putDisabled]
      by_cases hid : user.userId = id
      · rw [if_pos hid, if_pos hid]
        simp [disabled, UserRecord.timeless]
      · rw [if_neg hid, if_neg hid]

end Users

/-! ### The audit trail -/

section Audits
variable {around : Surroundings ρ} {w : MergeWorld ρ}

/-- The two audit rows of a merge, up to their times. -/
def mergeAudits (r : AccountMergeRecord) (origin : RequestOrigin) :
    List IdentityAuditEventRecord :=
  [mergeAudit r origin r.accounts.survivor.orgId, mergeAudit r origin r.accounts.absorbed.orgId]

/-- Only audit rows have been added. -/
def Auditing (w w' : MergeWorld ρ) : Prop := w' = { w with audits := w'.audits }

theorem endures_appendMergeAudit (r : AccountMergeRecord) (origin : RequestOrigin) :
    Endures around (Auditing w)
      (fun _ w' => Auditing w w' ∧ ∃ rows, w'.audits = w.audits ++ rows ∧
        rows.map (·.timeless) = mergeAudits r origin)
      (appendMergeAudit r origin) w := by
  refine endures_perform rfl fun first _ => ?_
  refine endures_perform rfl fun second _ => ?_
  refine endures_pure rfl ⟨rfl, [
    { mergeAudit r origin r.accounts.survivor.orgId with createdAt := first },
    { mergeAudit r origin r.accounts.absorbed.orgId with createdAt := second }], ?_, rfl⟩
  exact List.append_assoc _ _ _

end Audits

end CopilotRuntime.AccountMerge
