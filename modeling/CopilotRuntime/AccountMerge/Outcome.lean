import CopilotRuntime.AccountMerge.Resumption

/-!
# What a completed merge leaves

The stores after a completed merge are those that an uninterrupted merge leaves.
Every row of the absorbed account is the survivor's, or was dropped for a row of
the survivor's, unless it is an identity that was unlinked; the rows of other
accounts are as they were.
-/

namespace CopilotRuntime.AccountMerge

open Foundation

variable {ρ : Type}

/-! ### Rows -/

section Rows
variable (accounts : AccountPair) (table : MergeTable)

/-- A row belongs to the account its key names, in a table that keeps its rows by owner, and to its
own owner otherwise. -/
def OwnedRow.Belongs (row : OwnedRow) (key : RowKey) (account : Account) : Prop :=
  match table with
  | .walletIdentities | .oidcIdentities => row.owner = account
  | .providerApiKeys | .userProfiles | .userPreferences => key.owner? table = some account

/-- The key a row is moved to: in a table that keeps its rows by owner, the survivor's. -/
def RowKey.target (key : RowKey) : RowKey :=
  if (key.owner? table).isSome then key.ofOwner accounts.survivor else key

/-- A row is the survivor's under the key it was moved to, or was dropped for the row that was
there. -/
def RowMoved (before after : Dict RowKey OwnedRow) (key : RowKey) (row : OwnedRow) : Prop :=
  if (key.owner? table).isSome then
    after.get? key = none ∧ after.get? (key.target accounts table) =
      some ((before.get? (key.target accounts table)).getD (row.movedTo accounts.survivor))
  else after.get? key = some (row.movedTo accounts.survivor)

/-- Each row of the absorbed account was moved once, and no other row has come in. -/
structure RowsMoved (before after : Dict RowKey OwnedRow) : Prop where
  moved : ∀ key row, before.get? key = some row → row.Belongs table key accounts.absorbed →
    RowMoved accounts table before after key row
  nothingElse : ∀ key row, after.get? key = some row → before.get? key = some row ∨
    ∃ source old, before.get? source = some old ∧ old.Belongs table source accounts.absorbed ∧
      key = source.target accounts table ∧ row = old.movedTo accounts.survivor

/-- Rows of accounts that are not merged are as they were. -/
def OthersKept (before after : Dict RowKey OwnedRow) : Prop :=
  ∀ key row account, row.Belongs table key account → account ≠ accounts.absorbed →
    account ≠ accounts.survivor → (after.get? key = some row ↔ before.get? key = some row)

variable {accounts table} {before after : Dict RowKey OwnedRow}

variable {key : RowKey}

theorem RowKey.target_of_owned {owner : Account} (h : key.owner? table = some owner) :
    key.target accounts table = key.ofOwner accounts.survivor := by
  rw [RowKey.target, h, if_pos (Option.isSome_some)]

theorem RowKey.target_of_unowned (h : key.owner? table = none) :
    key.target accounts table = key := by
  rw [RowKey.target, h]
  exact if_neg Bool.false_ne_true

theorem rowMoved_of_owned {owner : Account} (row : OwnedRow) (h : key.owner? table = some owner) :
    RowMoved accounts table before after key row ↔ after.get? key = none ∧
      after.get? (key.ofOwner accounts.survivor) =
        some ((before.get? (key.ofOwner accounts.survivor)).getD
          (row.movedTo accounts.survivor)) := by
  rw [RowMoved, RowKey.target_of_owned h, h, if_pos Option.isSome_some]

theorem rowMoved_of_unowned (row : OwnedRow) (h : key.owner? table = none) :
    RowMoved accounts table before after key row ↔
      after.get? key = some (row.movedTo accounts.survivor) := by
  rw [RowMoved, h]
  exact Iff.of_eq (if_neg Bool.false_ne_true)

section Identities
variable
  (hbelongs : ∀ (row : OwnedRow) key account, row.Belongs table key account ↔ row.owner = account)
  (howned : ∀ row, isMoved accounts table row = true → row.owner = accounts.absorbed)
  (hafter : ∀ key, after.get? key = (before.get? key).map fun row =>
    if isMoved accounts table row then row.movedTo accounts.survivor else row)
include hbelongs howned hafter

/-- In a table of identities the rows are moved if none of them is left out. -/
theorem rowsMoved_identities (hne : accounts.absorbed ≠ accounts.survivor)
    (hunkeyed : ∀ key : RowKey, key.owner? table = none) :
    RowsMoved accounts table before after ↔ ∀ key row, before.get? key = some row →
      row.owner = accounts.absorbed → isMoved accounts table row = true := by
  constructor
  · intro h key row hrow howner
    have hmoved := h.moved key row hrow ((hbelongs row key _).mpr howner)
    rw [rowMoved_of_unowned row (hunkeyed key), hafter, hrow, Option.map_some] at hmoved
    by_contra hleft
    rw [if_neg hleft] at hmoved
    exact hne (howner.symm.trans (congrArg OwnedRow.owner (Option.some.inj hmoved)))
  · intro h
    refine ⟨fun key row hrow hbelongs' => ?_, fun key row hrow => ?_⟩
    · rw [rowMoved_of_unowned row (hunkeyed key), hafter, hrow, Option.map_some,
        if_pos (h key row hrow ((hbelongs row key _).mp hbelongs'))]
    · rw [hafter, Option.map_eq_some_iff] at hrow
      obtain ⟨old, hold, rfl⟩ := hrow
      by_cases hmoved : isMoved accounts table old = true
      · rw [if_pos hmoved]
        exact .inr ⟨key, old, hold, (hbelongs old key _).mpr (howned old hmoved),
          (RowKey.target_of_unowned (hunkeyed key)).symm, rfl⟩
      · rw [if_neg hmoved]
        exact .inl hold

theorem othersKept_identities : OthersKept accounts table before after := by
  intro key row account haccount hnotAbsorbed hnotSurvivor
  rw [hbelongs] at haccount
  rw [hafter, Option.map_eq_some_iff]
  constructor
  · rintro ⟨old, hold, rfl⟩
    by_cases hmoved : isMoved accounts table old = true
    · rw [if_pos hmoved] at haccount
      exact absurd haccount.symm hnotSurvivor
    · rw [if_neg hmoved]
      exact hold
  · intro hrow
    have hstays : ¬isMoved accounts table row = true :=
      fun hmoved => hnotAbsorbed (haccount.symm.trans (howned row hmoved))
    exact ⟨row, hrow, if_neg hstays⟩

end Identities

section Keyed
variable (hbelongs : ∀ (row : OwnedRow) (key : RowKey) account, row.Belongs table key account ↔
    key.owner? table = some account)
  (hafter : ∀ key, after.get? key = rekeyedRow accounts table before key)
include hbelongs hafter

/-- In a table that keeps its rows by owner all rows are moved. -/
theorem rowsMoved_keyed (hne : accounts.absorbed ≠ accounts.survivor) {source : RowKey}
    (hsource : source.owner? table = some accounts.absorbed) :
    RowsMoved accounts table before after := by
  refine ⟨fun key row hrow hrowOwner => ?_, fun key row hrow => ?_⟩
  · have howner := (hbelongs row key _).mp hrowOwner
    have htarget := RowKey.owner?_ofOwner howner accounts.survivor
    rw [rowMoved_of_owned row howner, hafter, hafter,
      rekeyedRow_of_owner howner, if_pos rfl, rekeyedRow_of_owner htarget, if_neg hne.symm,
      if_pos rfl, ofOwner_target howner, hrow]
    refine ⟨rfl, ?_⟩
    cases before.get? (key.ofOwner accounts.survivor) with
    | none => rfl
    | some held => rfl
  · rw [hafter] at hrow
    cases howner : key.owner? table with
    | none =>
        rw [rekeyedRow_of_unowned hsource howner] at hrow
        exact .inl hrow
    | some owner =>
        rw [rekeyedRow_of_owner howner] at hrow
        by_cases habsorbed : owner = accounts.absorbed
        · rw [if_pos habsorbed] at hrow
          cases hrow
        rw [if_neg habsorbed] at hrow
        by_cases hkept : owner = accounts.survivor
        · rw [if_pos hkept, Option.or_eq_some_iff] at hrow
          obtain hheld | ⟨-, hmoved⟩ := hrow
          · exact .inl hheld
          · obtain ⟨old, hold, rfl⟩ := Option.map_eq_some_iff.mp hmoved
            have hfrom := RowKey.owner?_ofOwner howner accounts.absorbed
            refine .inr ⟨_, old, hold, (hbelongs old _ _).mpr hfrom, ?_, rfl⟩
            rw [RowKey.target_of_owned hfrom, RowKey.ofOwner_ofOwner,
              RowKey.ofOwner_self (hkept ▸ howner)]
        · rw [if_neg hkept] at hrow
          exact .inl hrow

theorem othersKept_keyed : OthersKept accounts table before after := by
  intro key row account haccount hnotAbsorbed hnotSurvivor
  have howner := (hbelongs row key account).mp haccount
  rw [hafter, rekeyedRow_of_owner howner, if_neg hnotAbsorbed, if_neg hnotSurvivor]

end Keyed

/-- No identity of the absorbed account was unlinked. -/
def AllLinked (accounts : AccountPair) (rows : Dict RowKey OwnedRow) : Prop :=
  ∀ key row, rows.get? key = some row → row.owner = accounts.absorbed → row.unlinkedAt = none

theorem owner_of_isMoved {row : OwnedRow} (h : isMoved accounts table row = true) :
    row.owner = accounts.absorbed := by
  cases table with
  | oidcIdentities => exact of_decide_eq_true (Bool.and_eq_true_iff.mp h).1
  | walletIdentities => exact of_decide_eq_true h
  | providerApiKeys => exact of_decide_eq_true h
  | userProfiles => exact of_decide_eq_true h
  | userPreferences => exact of_decide_eq_true h

/-- A rekeyed table has all its rows moved, but for identities that were unlinked. -/
theorem rowsMoved_iff (hne : accounts.absorbed ≠ accounts.survivor)
    (hafter : ∀ key, after.get? key = rekeyedRow accounts table before key) :
    RowsMoved accounts table before after ↔
      (table = .oidcIdentities → AllLinked accounts before) := by
  cases table with
  | walletIdentities =>
      rw [rowsMoved_identities (fun _ _ _ => Iff.rfl) (fun _ => owner_of_isMoved) hafter hne
        fun _ => rfl]
      exact iff_of_true (fun _ _ _ howner => decide_eq_true howner) nofun
  | oidcIdentities =>
      rw [rowsMoved_identities (fun _ _ _ => Iff.rfl) (fun _ => owner_of_isMoved) hafter hne
        fun _ => rfl, forall_prop_of_true rfl]
      refine forall₄_congr fun key row hrow howner => ?_
      rw [isMoved, decide_eq_true howner, Bool.true_and, Option.isNone_iff_eq_none]
  | providerApiKeys =>
      have hsource : (RowKey.provider accounts.absorbed "").owner? .providerApiKeys =
        some accounts.absorbed := rfl
      exact iff_of_true (rowsMoved_keyed (fun _ _ _ => Iff.rfl) hafter hne hsource) nofun
  | userProfiles =>
      have hsource : (RowKey.account accounts.absorbed).owner? .userProfiles =
        some accounts.absorbed := rfl
      exact iff_of_true (rowsMoved_keyed (fun _ _ _ => Iff.rfl) hafter hne hsource) nofun
  | userPreferences =>
      have hsource : (RowKey.account accounts.absorbed).owner? .userPreferences =
        some accounts.absorbed := rfl
      exact iff_of_true (rowsMoved_keyed (fun _ _ _ => Iff.rfl) hafter hne hsource) nofun

theorem othersKept_of_rekeyed
    (hafter : ∀ key, after.get? key = rekeyedRow accounts table before key) :
    OthersKept accounts table before after := by
  cases table with
  | walletIdentities =>
      exact othersKept_identities (fun _ _ _ => Iff.rfl) (fun _ => owner_of_isMoved) hafter
  | oidcIdentities =>
      exact othersKept_identities (fun _ _ _ => Iff.rfl) (fun _ => owner_of_isMoved) hafter
  | providerApiKeys => exact othersKept_keyed (fun _ _ _ => Iff.rfl) hafter
  | userProfiles => exact othersKept_keyed (fun _ _ _ => Iff.rfl) hafter
  | userPreferences => exact othersKept_keyed (fun _ _ _ => Iff.rfl) hafter

end Rows

/-! ### Stores -/

section Stores
variable {service : MergeService ρ} {accounts : AccountPair} {clock : Int → Prop}
  {origins : RequestOrigin → Prop} {w₀ w w' : MergeWorld ρ} {r r' : AccountMergeRecord}

/-- The stores are the same up to times. -/
structure SameStores (w w' : MergeWorld ρ) : Prop where
  tables : ∀ table key, (w.tables table).get? key = (w'.tables table).get? key
  runtime : w.runtime = w'.runtime
  sessions : ∀ id, (w.sessions.find? id).map (·.timeless) = (w'.sessions.find? id).map (·.timeless)
  users : ∀ id, (w.users.find? id).map (·.timeless) = (w'.users.find? id).map (·.timeless)
  members : w.members = w'.members
  audits : w.audits.map (·.timeless) = w'.audits.map (·.timeless)
  merges : ∀ id, (w.merges.find? id).map (·.timeless) = (w'.merges.find? id).map (·.timeless)

/-- What is not the merged accounts' is as it was. -/
structure OthersUntouched (accounts : AccountPair) (w₀ w : MergeWorld ρ) : Prop where
  rows : ∀ table, OthersKept accounts table (w₀.tables table) (w.tables table)
  sessions : ∀ id (s : SessionRecord), s.owner ≠ accounts.absorbed →
    ((w.sessions.find? id).map (·.timeless) = some s.timeless ↔
      (w₀.sessions.find? id).map (·.timeless) = some s.timeless)
  users : ∀ id, id ≠ accounts.absorbed.userId → w.users.find? id = w₀.users.find? id
  members : w.members = w₀.members

theorem Settled.atCompleted (h : Settled service w₀ clock origins 4 r w) :
    ∃ now origin, clock now ∧ origins origin ∧ AtCompleted service w₀ now origin r w := by
  have hat := h.checkpoint
  rwa [AtCheckpoint, h.completed] at hat

variable {now : Int} {origin : RequestOrigin}

/-- Two merges of the same record leave the same stores. -/
theorem AtCompleted.same (hid : r.mergeId = r'.mergeId) (haccounts : r.accounts = r'.accounts)
    (hproof : r.proofRef = r'.proofRef) (hstate : r.state = r'.state)
    (hunderway : Underway w₀ r w) (hunderway' : Underway w₀ r' w')
    (h : AtCompleted service w₀ now origin r w) (h' : AtCompleted service w₀ now origin r' w') :
    SameStores w w' := by
  obtain ⟨mergeId, accounts, state, proofRef, error, counts, startedAt, updatedAt, completedAt⟩ := r
  obtain ⟨mergeId', accounts', state', proofRef', error', counts', startedAt', updatedAt',
    completedAt'⟩ := r'
  obtain rfl : mergeId = mergeId' := hid
  obtain rfl : accounts = accounts' := haccounts
  obtain rfl : proofRef = proofRef' := hproof
  obtain rfl : state = state' := hstate
  obtain rfl : counts = counts' := h.counts.trans h'.counts.symm
  obtain rfl : error = error' := h.error.trans h'.error.symm
  refine ⟨fun table key => (h.rekeyed table key).trans (h'.rekeyed table key).symm,
    h.runtime.trans h'.runtime.symm, fun id => (h.sessions id).trans (h'.sessions id).symm,
    h.users.same h'.users, hunderway.members.trans hunderway'.members.symm, ?_, fun id => ?_⟩
  · obtain ⟨rows, haudits, hrows⟩ := h.audits
    obtain ⟨rows', haudits', hrows'⟩ := h'.audits
    rw [haudits, haudits', List.map_append, List.map_append, hrows, hrows']
    rfl
  · by_cases hid : id = mergeId
    · subst hid
      obtain ⟨at', hat⟩ := Option.isSome_iff_exists.mp h.completedAt
      obtain ⟨at'', hat'⟩ := Option.isSome_iff_exists.mp h'.completedAt
      obtain rfl : completedAt = some at' := hat
      obtain rfl : completedAt' = some at'' := hat'
      rw [show w.merges.find? id = _ from hunderway.stored,
        show w'.merges.find? id = _ from hunderway'.stored]
      rfl
    · rw [hunderway.others id hid, hunderway'.others id hid]

/-- An uninterrupted merge leaves a completed record. -/
theorem Uninterrupted.settled (hunmerged : Unmerged w₀ accounts.absorbed)
    (h : Uninterrupted service accounts clock origins w₀ w) :
    ∃ r, r.accounts = accounts ∧ Settled service w₀ clock origins 4 r w := by
  obtain ⟨request, ⟨rfl, hfresh⟩, horigin, r, hreaches⟩ := h
  let around : Surroundings ρ := ⟨service.runtime, clock, False⟩
  have hruntime : around.runtime = service.runtime := rfl
  have hattempts := attempts_mergeForConflict hruntime horigin hunmerged hfresh
  obtain ⟨haccounts, -, -, hsettled⟩ := (hattempts.reaches hreaches).returned
  exact ⟨r, haccounts, hsettled⟩

/-- A completed merge has an uninterrupted one that leaves the same stores. -/
theorem Settled.uninterrupted (hunmerged : Unmerged w₀ r.accounts.absorbed)
    (h : Settled service w₀ clock origins 4 r w) :
    ∃ w', Uninterrupted service r.accounts clock origins w₀ w' ∧ SameStores w w' := by
  obtain ⟨now, origin, hnow, horigin, hat⟩ := h.atCompleted
  let request : MergeRequest := ⟨r.accounts, r.proofRef, origin, r.mergeId⟩
  let around : Surroundings ρ := ⟨service.runtime, fun time => time = now, False⟩
  let callers : RequestOrigin → Prop := fun caller => caller = origin
  have hfresh : w₀.merges.find? request.newMergeId = none := h.underway.fresh
  have hruntime : around.runtime = service.runtime := rfl
  have hcaller : callers request.origin := rfl
  have hattempts := attempts_mergeForConflict hruntime hcaller hunmerged hfresh
  obtain ⟨r', w', hrun, haccounts, hid, hproof, hsettled⟩ := hattempts.runWith
    (fun _ hfailed => hfailed.elim id fun hnot => hnot h.underway.admissible)
    (answerAt_sound (show around.clock now from rfl))
  obtain ⟨now', origin', hnow', horigin', hat'⟩ := hsettled.atCompleted
  rw [show now' = now from hnow', show origin' = origin from horigin'] at hat'
  refine ⟨w', ⟨request, ⟨rfl, hfresh⟩, horigin, r', ?_⟩, ?_⟩
  · exact Program.reaches_runWith (answerAt_sound hnow) hrun
  · exact hat.same hid.symm haccounts.symm hproof.symm
      (h.completed.trans hsettled.completed.symm) h.underway hsettled.underway hat'

theorem UserDisabled.find?_of_ne {id : String} (h : UserDisabled accounts w₀ w)
    (hid : id ≠ accounts.absorbed.userId) : w.users.find? id = w₀.users.find? id := by
  obtain ⟨user, huser, ⟨-, hsame⟩ | ⟨-, deletedAt, mergedAt, hput⟩⟩ := h
  · rw [hsame]
  · have huserId : user.userId = accounts.absorbed.userId :=
      Table.key_of_find? (getUser_eq_some_iff.mp huser).1
    rw [hput, find?_putDisabled, if_neg]
    rw [huserId]
    exact hid.symm

/-- A session of another account is kept by a merge. -/
theorem SessionsRevoked.find?_other {account : Account} {id : String} {s : SessionRecord}
    (h : SessionsRevoked account now w₀ w) (hother : s.owner ≠ account) :
    (w.sessions.find? id).map (·.timeless) = some s.timeless ↔
      (w₀.sessions.find? id).map (·.timeless) = some s.timeless := by
  rw [h id, Option.map_eq_some_iff, Option.map_eq_some_iff]
  refine exists_congr fun old => and_congr_right fun _ => ?_
  rw [SessionRecord.revokedFor]
  by_cases hactive : old.activeAt account now = true
  · have howner : old.owner = account := by
      simp only [SessionRecord.activeAt, Bool.and_eq_true, decide_eq_true_eq] at hactive
      exact hactive.1.1
    rw [if_pos hactive]
    refine iff_of_false (fun heq => ?_) fun heq => ?_
    · exact hother ((congrArg SessionRecord.owner heq).symm.trans howner)
    · exact hother ((congrArg SessionRecord.owner heq).symm.trans howner)
  · rw [if_neg hactive]

theorem AtCompleted.othersUntouched (hunderway : Underway w₀ r w)
    (h : AtCompleted service w₀ now origin r w) :
    OthersUntouched r.accounts w₀ w where
  rows table := by
    by_cases hwired : service.wired table = true
    · refine othersKept_of_rekeyed fun key => (h.rekeyed table key).trans ?_
      rw [rekeyedAt, if_pos hwired]
    · intro key row account _ _ _
      rw [h.rekeyed, rekeyedAt, if_neg hwired]
  sessions _ _ hother := h.sessions.find?_other hother
  users _ hid := h.users.find?_of_ne hid
  members := hunderway.members

theorem AtCompleted.rowsMoved_iff (hne : r.accounts.absorbed ≠ r.accounts.survivor)
    (h : AtCompleted service w₀ now origin r w) :
    (∀ table, service.wired table = true →
        RowsMoved r.accounts table (w₀.tables table) (w.tables table)) ↔
      (service.wired .oidcIdentities = true →
        AllLinked r.accounts (w₀.tables .oidcIdentities)) := by
  have htable : ∀ table, service.wired table = true →
      (RowsMoved r.accounts table (w₀.tables table) (w.tables table) ↔
        (table = .oidcIdentities → AllLinked r.accounts (w₀.tables table))) := by
    intro table hwired
    refine AccountMerge.rowsMoved_iff hne fun key => (h.rekeyed table key).trans ?_
    rw [rekeyedAt, if_pos hwired]
  constructor
  · intro hmoved hwired
    exact (htable _ hwired).mp (hmoved _ hwired) rfl
  · intro hlinked table hwired
    refine (htable table hwired).mpr ?_
    rintro rfl
    exact hlinked hwired

/-- No account has been absorbed by two merges. -/
def UniqueMerges (w : MergeWorld ρ) : Prop :=
  ∀ id id' r r', w.merges.find? id = some r → w.merges.find? id' = some r' →
    r.accounts.absorbed = r'.accounts.absorbed → r = r'

theorem Underway.uniqueMerges (h : Underway w₀ r w) (hunmerged : Unmerged w₀ r.accounts.absorbed)
    (hunique : UniqueMerges w₀) : UniqueMerges w := by
  intro id id' r₁ r₂ hfind hfind' habsorbed
  have hstored : w.merges.find? r₁.mergeId = some r₁ := (Table.key_of_find? hfind).symm ▸ hfind
  have hstored' : w.merges.find? r₂.mergeId = some r₂ := (Table.key_of_find? hfind').symm ▸ hfind'
  by_cases hthis : r₁.accounts.absorbed = r.accounts.absorbed
  · rw [h.eq_of_absorbed hunmerged hstored hthis,
      h.eq_of_absorbed hunmerged hstored' (habsorbed.symm.trans hthis)]
  · have hold : ∀ r' : AccountMergeRecord, w.merges.find? r'.mergeId = some r' →
        r'.accounts.absorbed ≠ r.accounts.absorbed → w₀.merges.find? r'.mergeId = some r' := by
      intro r' hstored hother
      rwa [← h.others r'.mergeId]
      intro hid
      rw [hid, h.stored] at hstored
      exact hother (congrArg (·.accounts.absorbed) (Option.some.inj hstored)).symm
    exact hunique _ _ r₁ r₂ (hold r₁ hstored hthis)
      (hold r₂ hstored' fun hother => hthis (habsorbed.trans hother)) habsorbed

/-- Once a merge that was interrupted only quietly is completed, the stores are those of an
uninterrupted merge, other accounts' rows are untouched, and the absorbed account's are moved
exactly if none of its identities was unlinked. No account ever has two merges. -/
theorem resumed_merge_eq_uninterrupted (hunmerged : Unmerged w₀ accounts.absorbed)
    (hhistory : QuietHistory service accounts clock origins w₀ w) :
    (UniqueMerges w₀ → UniqueMerges w) ∧
    ∀ r, w.merges.find? r.mergeId = some r → r.accounts = accounts → r.state = .completed →
      (∃ w', Uninterrupted service accounts clock origins w₀ w' ∧ SameStores w w') ∧
      OthersUntouched accounts w₀ w ∧
      ((∀ table, service.wired table = true →
          RowsMoved accounts table (w₀.tables table) (w.tables table)) ↔
        (service.wired .oidcIdentities = true →
          AllLinked accounts (w₀.tables .oidcIdentities))) := by
  obtain rfl | ⟨r, rfl, hsettled⟩ := hhistory.standing hunmerged
  · refine ⟨id, fun r hstored haccounts _ => ?_⟩
    exact absurd (congrArg _ haccounts) (hunmerged _ r hstored)
  · refine ⟨hsettled.underway.uniqueMerges hunmerged, fun r' hstored haccounts hcompleted => ?_⟩
    obtain rfl := hsettled.underway.eq_of_absorbed hunmerged hstored (congrArg _ haccounts)
    have hlast : Settled service w₀ clock origins 4 r' w := by
      refine ⟨?_, hsettled.underway, hsettled.checkpoint⟩
      rw [hcompleted]
      exact le_rfl
    obtain ⟨now, origin, -, -, hat⟩ := hlast.atCompleted
    exact ⟨hlast.uninterrupted hunmerged, hat.othersUntouched hsettled.underway,
      hat.rowsMoved_iff hsettled.underway.admissible.apart⟩

end Stores

/-! ### A merge that dies and is resumed -/

section Sample

def oldAccount : Account := ⟨"org-old", "user-old"⟩

def newAccount : Account := ⟨"org-new", "user-new"⟩

def sampleAccounts : AccountPair := ⟨oldAccount, newAccount⟩

def sampleUser (account : Account) : UserRecord :=
  ⟨account.userId, account.orgId, .active, none, none, none, .null⟩

/-- The old account has a wallet, a key of a provider for which the new one has one, and a
session. -/
def sampleWorld : MergeWorld Nat where
  tables
    | .walletIdentities => Dict.empty.set (.id "wallet") ⟨oldAccount, none, .null⟩
    | .providerApiKeys =>
        (Dict.empty.set (.provider oldAccount "p") ⟨oldAccount, none, .null⟩).set
          (.provider newAccount "p") ⟨newAccount, none, .bool true⟩
    | _ => Dict.empty
  runtime := 3
  sessions := Table.empty.put ⟨"session", oldAccount, 10, 1000, none, none, .null⟩
  users := (Table.empty.put (sampleUser oldAccount)).put (sampleUser newAccount)
  members := [⟨"org-old", "user-old", 1, none⟩, ⟨"org-new", "user-new", 2, none⟩]
  audits := []
  merges := Table.empty

/-- A runtime that counts its rows when it moves them. -/
def sampleService : MergeService Nat where
  wired _ := true
  runtime := ⟨fun _ rows => (0, .int rows), fun _ _ => rfl⟩

def sampleRequest : MergeRequest := ⟨sampleAccounts, "proof", ⟨none, none⟩, "merge"⟩

/-- The stores when a merge has died after some operations. -/
def diedAfter (n : Nat) : MergeWorld Nat :=
  (Program.runFor (answerAt sampleService.runtime 100) n
    (mergeForConflict sampleService sampleRequest) sampleWorld).2

/-- The stores when that merge has been resumed. -/
def resumedAfter (n : Nat) : MergeWorld Nat :=
  (Program.runFor (answerAt sampleService.runtime 200) 50
    (resume sampleService "merge" ⟨none, none⟩) (diedAfter n)).2

theorem attempt_diedAfter (n : Nat) :
    Attempt sampleService sampleAccounts (fun _ => True) (fun _ => True) sampleWorld
      (diedAfter n) :=
  ⟨.mergeForConflict sampleRequest, ⟨rfl, rfl⟩, trivial, _,
    Program.reaches_runFor (answerAt_sound trivial) n _ sampleWorld⟩

/-- The merge of the example is resumed once its record is there. -/
theorem attempt_resumedAfter {n : Nat}
    (h : ((diedAfter n).merges.find? "merge").map (·.accounts) = some sampleAccounts) :
    Attempt sampleService sampleAccounts (fun _ => True) (fun _ => True) (diedAfter n)
      (resumedAfter n) := by
  refine ⟨.resume "merge" ⟨none, none⟩, fun r hfind => ?_, trivial, _,
    Program.reaches_runFor (answerAt_sound trivial) 50 _ (diedAfter n)⟩
  rw [hfind] at h
  exact Option.some.inj h

theorem quiet_of_rows {ρ : Type} {service : MergeService ρ} {accounts : AccountPair}
    {w₀ w : MergeWorld ρ} (h : ∀ r ∈ w.merges.rows, Unstarted service w₀ r w) :
    Quiet service accounts w₀ w :=
  fun r hstored _ => h r (Table.mem_rows_iff.mpr hstored)

theorem unmerged_sampleWorld (account : Account) : Unmerged sampleWorld account :=
  fun _ _ hfind => nomatch hfind

theorem resumed_merge_eq_uninterrupted_sample :
    (∃ w',
      Uninterrupted sampleService sampleAccounts (fun _ => True) (fun _ => True) sampleWorld w' ∧
        SameStores (resumedAfter 16) w') ∧
    RowsMoved sampleAccounts .walletIdentities (sampleWorld.tables .walletIdentities)
      ((resumedAfter 16).tables .walletIdentities) := by
  have hrecord : ((resumedAfter 16).merges.find? "merge").map
      (fun r => (r.accounts, r.state)) = some (sampleAccounts, .completed) := by decide
  have hhistory : QuietHistory sampleService sampleAccounts (fun _ => True) (fun _ => True)
      sampleWorld (resumedAfter 16) := by
    refine .tail (.single ⟨attempt_diedAfter 16, quiet_of_rows ?_⟩)
      ⟨attempt_resumedAfter (by decide), quiet_of_rows ?_⟩
    · intro r hmem
      have hstate := List.all_eq_true.mp (show (diedAfter 16).merges.rows.all
        (fun r => r.state = .backendDone) = true by decide) r hmem
      have hruntime : (diedAfter 16).runtime = 3 := by decide
      rw [Unstarted, of_decide_eq_true hstate, hruntime]
      rfl
    · intro r hmem
      have hstate := List.all_eq_true.mp (show (resumedAfter 16).merges.rows.all
        (fun r => r.state = .completed) = true by decide) r hmem
      rw [Unstarted, of_decide_eq_true hstate]
      trivial
  obtain ⟨r, hfind, hr⟩ := Option.map_eq_some_iff.mp hrecord
  obtain ⟨haccounts, hstate⟩ := Prod.mk.inj hr
  have hstored : (resumedAfter 16).merges.find? r.mergeId = some r :=
    (Table.key_of_find? hfind).symm ▸ hfind
  have hmain := (resumed_merge_eq_uninterrupted (unmerged_sampleWorld _) hhistory).2 r hstored
    haccounts hstate
  exact ⟨hmain.1, hmain.2.2.mpr (fun _ _ _ hrow => by cases hrow) _ rfl⟩

/-- A merge that dies when its audit rows are written writes them again when it is resumed. -/
theorem resumed_merge_repeats_audit : ∃ w,
    Relation.ReflTransGen
      (Attempt sampleService sampleAccounts (fun _ => True) (fun _ => True)) sampleWorld w ∧
    (∃ r, w.merges.find? r.mergeId = some r ∧ r.accounts = sampleAccounts ∧
      r.state = .completed) ∧
    ∀ w',
      Uninterrupted sampleService sampleAccounts (fun _ => True) (fun _ => True) sampleWorld w' →
      w'.audits.length < w.audits.length ∧ ¬SameStores w w' := by
  refine ⟨resumedAfter 27, .tail (.single (attempt_diedAfter 27))
    (attempt_resumedAfter (by decide)), ?_, fun w' huninterrupted => ?_⟩
  · have hrecord : ((resumedAfter 27).merges.find? "merge").map
        (fun r => (r.accounts, r.state)) = some (sampleAccounts, .completed) := by decide
    obtain ⟨r, hfind, hr⟩ := Option.map_eq_some_iff.mp hrecord
    obtain ⟨haccounts, hstate⟩ := Prod.mk.inj hr
    exact ⟨r, (Table.key_of_find? hfind).symm ▸ hfind, haccounts, hstate⟩
  · obtain ⟨r, -, hsettled⟩ := huninterrupted.settled (unmerged_sampleWorld _)
    obtain ⟨_, _, -, -, hat⟩ := hsettled.atCompleted
    obtain ⟨rows, haudits, hrows⟩ := hat.audits
    have htwice : w'.audits.length = 2 := by
      have hlength := congrArg List.length hrows
      rw [List.length_map] at hlength
      rw [haudits, List.length_append, hlength]
      rfl
    have hfour : (resumedAfter 27).audits.length = 4 := by decide
    refine ⟨by omega, fun hsame => ?_⟩
    have hlength := congrArg List.length hsame.audits
    rw [List.length_map, List.length_map] at hlength
    omega

end Sample

end CopilotRuntime.AccountMerge
