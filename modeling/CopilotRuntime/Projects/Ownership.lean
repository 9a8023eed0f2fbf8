import CopilotRuntime.Projects.Service
import CopilotRuntime.Foundation.Outcome
import CopilotRuntime.Foundation.History

/-!
# Who owns a project

A project has one member with the role of owner, and that member is the owner
its row names. The service keeps this, the names of live projects apart, the
time of archiving in step with the status and the members within the cap. A
restored project may bring back a name that was given away in the meantime, and
the database store does not write the new owner of a transferred project.
-/

namespace CopilotRuntime.Projects

open Foundation

namespace ProjectTables
variable {t : ProjectTables}

/-- The role a user has on a project. -/
def roleOf (t : ProjectTables) (projectId userId : String) : Option ProjectRole :=
  (t.memberships.find? (projectId, userId)).map (·.role)

def memberCount (t : ProjectTables) (projectId : String) : Nat :=
  t.memberships.count fun m => m.projectId = projectId

/-- Rows of members are of the tenant of their project; names are stripped, the time of archiving
goes with the status, and the members are within the cap. -/
structure Shaped (t : ProjectTables) : Prop where
  tenant : ∀ projectId userId m, t.memberships.find? (projectId, userId) = some m →
    ∃ p, t.projects.find? projectId = some p ∧ p.tenantId = m.tenantId
  stripped : ∀ projectId p, t.projects.find? projectId = some p → Text.strip p.name = p.name
  archived : ∀ projectId p, t.projects.find? projectId = some p →
    (p.archivedAt.isSome = true ↔ p.status = .archived)
  members : ∀ projectId, t.memberCount projectId ≤ maxMembersPerProject

/-- Every project has one member with the role of owner, the owner its row names. -/
def Owned (t : ProjectTables) : Prop :=
  ∀ projectId p, t.projects.find? projectId = some p → ∀ userId,
    t.roleOf projectId userId = some .owner ↔ userId = p.ownerUserId

/-- Two live projects of a tenant have names that differ by more than their case. -/
def UniqueNames (lower : String → String) (t : ProjectTables) : Prop :=
  ∀ p ∈ t.projects.rows, ∀ q ∈ t.projects.rows, p.deletedAt = none → q.deletedAt = none →
    p.tenantId = q.tenantId → lower p.name = lower q.name → p.id = q.id

/-- Another live project of the tenant has the name of the record. -/
def NameTaken (lower : String → String) (t : ProjectTables) (record : ProjectRecord) : Prop :=
  ∃ q ∈ t.projects.rows, q.id ≠ record.id ∧ q.deletedAt = none ∧ q.tenantId = record.tenantId ∧
    lower q.name = lower record.name

theorem shaped_empty : empty.Shaped where
  tenant projectId userId m h := by cases h
  stripped projectId p h := by cases h
  archived projectId p h := by cases h
  members projectId := Nat.zero_le _

theorem owned_empty : empty.Owned := by
  intro projectId p h
  cases h

theorem uniqueNames_empty (lower : String → String) : empty.UniqueNames lower := by
  intro p hp
  cases hp

/-! ### Reading -/

variable {projectId : String} {record : ProjectRecord}

theorem getProject_eq_some_iff {tenantId : String} {includeDeleted : Bool} :
    t.getProject tenantId projectId includeDeleted = some record ↔
      t.projects.find? projectId = some record ∧ record.tenantId = tenantId ∧
        (record.deletedAt = none ∨ includeDeleted = true) := by
  simp [getProject, Option.filter_eq_some_iff]

variable {p : ProjectRecord}

/-- A membership is found under the tenant of its project. -/
theorem Shaped.getMembership_eq (h : t.Shaped) (hp : t.projects.find? projectId = some p)
    (userId : String) :
    t.getMembership p.tenantId projectId userId = t.memberships.find? (projectId, userId) := by
  unfold getMembership
  cases hfind : t.memberships.find? (projectId, userId) with
  | none => rfl
  | some m =>
      obtain ⟨p', hp', htenant⟩ := h.tenant projectId userId m hfind
      obtain rfl := Option.some.inj (hp.symm.trans hp')
      simp [htenant]

variable {m : ProjectMembershipRecord}

theorem find?_of_getMembership {tenantId userId : String}
    (h : t.getMembership tenantId projectId userId = some m) :
    t.memberships.find? (projectId, userId) = some m := by
  unfold getMembership at h
  exact (Option.filter_eq_some_iff.mp h).1

/-! ### Rows of members -/

def putMembership (t : ProjectTables) (m : ProjectMembershipRecord) : ProjectTables :=
  { t with memberships := t.memberships.put m }

theorem roleOf_putMembership (m : ProjectMembershipRecord) (projectId userId : String) :
    (t.putMembership m).roleOf projectId userId =
      if m.projectId = projectId ∧ m.userId = userId then some m.role
      else t.roleOf projectId userId := by
  unfold roleOf putMembership
  dsimp only
  rw [Table.find?_put]
  simp only [ProjectMembershipRecord.key, Prod.mk.injEq]
  split
  · rfl
  · rfl

/-- A row that takes the place of another leaves the number of members. -/
theorem memberCount_putMembership_of_some {m' : ProjectMembershipRecord}
    (hfind : t.memberships.find? m.key = some m') (other : String) :
    (t.putMembership m).memberCount other = t.memberCount other := by
  have hput := Table.count_put (fun m => decide (m.projectId = other)) t.memberships m
  have hkey := Table.key_of_find? hfind
  have hproject : m'.projectId = m.projectId := (Prod.mk.inj hkey).1
  simp only [Table.countAt, hfind, Option.map_some, Option.getD_some, hproject] at hput
  exact Nat.add_right_cancel hput

theorem memberCount_putMembership_of_none (hfind : t.memberships.find? m.key = none)
    (other : String) :
    (t.putMembership m).memberCount other =
      t.memberCount other + (decide (m.projectId = other)).toNat := by
  have hput := Table.count_put (fun m => decide (m.projectId = other)) t.memberships m
  simp only [Table.countAt, hfind, Option.map_none, Option.getD_none, Nat.add_zero] at hput
  exact hput

/-- A project that does not exist has no members. -/
theorem Shaped.memberCount_of_fresh (h : t.Shaped) (hfresh : t.projects.find? projectId = none) :
    t.memberCount projectId = 0 := by
  refine List.countP_eq_zero.mpr fun m hm hproject => ?_
  have hproject' : m.projectId = projectId := by simpa using hproject
  obtain ⟨p, hp, -⟩ := h.tenant m.projectId m.userId m (Table.mem_rows_iff.mp hm)
  rw [hproject', hfresh] at hp
  cases hp

theorem Shaped.putMembership (h : t.Shaped) (hp : t.projects.find? m.projectId = some p)
    (htenant : p.tenantId = m.tenantId)
    (hroom : ∀ other, (t.putMembership m).memberCount other ≤ maxMembersPerProject) :
    (t.putMembership m).Shaped where
  tenant projectId userId m' hfind := by
    change (t.memberships.put m).find? (projectId, userId) = some m' at hfind
    rw [Table.find?_put] at hfind
    split at hfind
    · next hkey =>
        obtain rfl := Option.some.inj hfind
        obtain ⟨rfl, -⟩ := Prod.mk.inj hkey
        exact ⟨p, hp, htenant⟩
    · exact h.tenant projectId userId m' hfind
  stripped := h.stripped
  archived := h.archived
  members := hroom

/-! ### Roles that change and members who leave -/

theorem updateMembershipRole_snd (tenantId projectId userId : String) (role : ProjectRole) :
    (t.updateMembershipRole tenantId projectId userId role).2 =
      match t.getMembership tenantId projectId userId with
      | none => t
      | some m => t.putMembership { m with role := role } := by
  unfold updateMembershipRole
  cases t.getMembership tenantId projectId userId with
  | none => rfl
  | some m => rfl

theorem projects_updateMembershipRole (tenantId projectId userId : String) (role : ProjectRole) :
    (t.updateMembershipRole tenantId projectId userId role).2.projects = t.projects := by
  rw [updateMembershipRole_snd]
  split
  · rfl
  · rfl

theorem projects_deleteMembership (tenantId projectId userId : String) :
    (t.deleteMembership tenantId projectId userId).projects = t.projects := by
  unfold deleteMembership
  split
  · rfl
  · rfl

theorem Shaped.updateMembershipRole (h : t.Shaped) (tenantId projectId userId : String)
    (role : ProjectRole) : (t.updateMembershipRole tenantId projectId userId role).2.Shaped := by
  rw [updateMembershipRole_snd]
  split
  · exact h
  · next m hm =>
      have hfind := find?_of_getMembership hm
      have hkey := Table.key_of_find? hfind
      obtain ⟨hproject, -⟩ := Prod.mk.inj hkey
      obtain ⟨p, hp, htenant⟩ := h.tenant _ _ m hfind
      refine h.putMembership (by rw [← hproject] at hp; exact hp) htenant fun other => ?_
      have hrow : t.memberships.find? { m with role := role }.key = some m := by
        rw [← hkey] at hfind
        exact hfind
      rw [memberCount_putMembership_of_some hrow]
      exact h.members other

theorem Shaped.deleteMembership (h : t.Shaped) (tenantId projectId userId : String) :
    (t.deleteMembership tenantId projectId userId).Shaped := by
  unfold ProjectTables.deleteMembership
  split
  · exact h
  · exact {
      tenant := fun projectId' userId' m hfind => by
        change (t.memberships.delete (projectId, userId)).find? (projectId', userId') = some m
          at hfind
        rw [Table.find?_delete] at hfind
        split at hfind
        · cases hfind
        · exact h.tenant projectId' userId' m hfind
      stripped := h.stripped
      archived := h.archived
      members := fun other =>
        (Nat.le.intro (Table.count_delete _ t.memberships (projectId, userId))).trans
          (h.members other) }

/-- The role of a member who is there changes, and no other. -/
theorem roleOf_updateMembershipRole (tenantId projectId userId : String) (role : ProjectRole)
    (projectId' userId' : String) :
    (t.updateMembershipRole tenantId projectId userId role).2.roleOf projectId' userId' =
      if (projectId = projectId' ∧ userId = userId') ∧
          (t.getMembership tenantId projectId userId).isSome then some role
      else t.roleOf projectId' userId' := by
  rw [updateMembershipRole_snd]
  cases hm : t.getMembership tenantId projectId userId with
  | none => simp
  | some m =>
      have hkey : m.key = (projectId, userId) := Table.key_of_find? (find?_of_getMembership hm)
      obtain ⟨hproject, huser⟩ := Prod.mk.inj hkey
      simp only [roleOf_putMembership, Option.isSome_some, and_true]
      rw [hproject, huser]

theorem roleOf_deleteMembership (tenantId projectId userId projectId' userId' : String) :
    (t.deleteMembership tenantId projectId userId).roleOf projectId' userId' =
      if (projectId = projectId' ∧ userId = userId') ∧
          (t.getMembership tenantId projectId userId).isSome then none
      else t.roleOf projectId' userId' := by
  unfold deleteMembership
  cases t.getMembership tenantId projectId userId with
  | none => simp
  | some m =>
      simp only [roleOf, Table.find?_delete, Prod.mk.injEq, Option.isSome_some, and_true]
      split
      · rfl
      · rfl

/-! ### Rows of projects -/

/-- A project's row may be written anew for the same owner. -/
theorem Shaped.putProject (h : t.Shaped) {old : ProjectRecord}
    (hold : t.projects.find? record.id = some old) (htenant : record.tenantId = old.tenantId)
    (hstripped : Text.strip record.name = record.name)
    (harchived : record.archivedAt.isSome = true ↔ record.status = .archived) :
    Shaped { t with projects := t.projects.put record } where
  tenant projectId userId m hfind := by
    obtain ⟨p, hp, hp'⟩ := h.tenant projectId userId m hfind
    by_cases hid : record.id = projectId
    · subst hid
      obtain rfl := Option.some.inj (hold.symm.trans hp)
      exact ⟨record, Table.find?_put_self _ _, htenant.trans hp'⟩
    · exact ⟨p, (Table.find?_put_of_ne _ hid).trans hp, hp'⟩
  stripped projectId p hp := by
    change (t.projects.put record).find? projectId = some p at hp
    rw [Table.find?_put] at hp
    split at hp
    · obtain rfl := Option.some.inj hp
      exact hstripped
    · exact h.stripped projectId p hp
  archived projectId p hp := by
    change (t.projects.put record).find? projectId = some p at hp
    rw [Table.find?_put] at hp
    split at hp
    · obtain rfl := Option.some.inj hp
      exact harchived
    · exact h.archived projectId p hp
  members := h.members

theorem Owned.putProject (h : t.Owned) {old : ProjectRecord}
    (hold : t.projects.find? record.id = some old) (howner : record.ownerUserId = old.ownerUserId) :
    Owned { t with projects := t.projects.put record } := by
  intro projectId p hp userId
  change (t.projects.put record).find? projectId = some p at hp
  rw [Table.find?_put] at hp
  split at hp
  · next hid =>
      obtain rfl := Option.some.inj hp
      rw [howner]
      exact h projectId old (hid ▸ hold) userId
  · exact h projectId p hp userId

theorem mem_rows_put :
    p ∈ (t.projects.put record).rows ↔ p = record ∨ (p.id ≠ record.id ∧ p ∈ t.projects.rows) := by
  rw [Table.mem_rows_iff, Table.mem_rows_iff, Table.find?_put]
  constructor
  · intro h
    split at h
    · exact .inl (Option.some.inj h).symm
    · next hid => exact .inr ⟨Ne.symm hid, h⟩
  · rintro (rfl | ⟨hid, h⟩)
    · rw [if_pos rfl]
    · rw [if_neg (Ne.symm hid)]
      exact h

/-- A live record may be written exactly when no other live project has its name. -/
theorem uniqueNames_put_iff {lower : String → String} (h : t.UniqueNames lower)
    (record : ProjectRecord) (hlive : record.deletedAt = none) :
    UniqueNames lower { t with projects := t.projects.put record } ↔
      ¬ t.NameTaken lower record := by
  constructor
  · rintro hunique ⟨q, hq, hid, hqlive, htenant, hname⟩
    exact hid (hunique q (mem_rows_put.mpr (.inr ⟨hid, hq⟩)) record (mem_rows_put.mpr (.inl rfl))
      hqlive hlive htenant hname)
  · intro hfree p hp q hq hplive hqlive htenant hname
    obtain hprecord | ⟨hpid, hpold⟩ := mem_rows_put.mp hp
    · obtain hqrecord | ⟨hqid, hqold⟩ := mem_rows_put.mp hq
      · rw [hprecord, hqrecord]
      · subst hprecord
        exact absurd ⟨q, hqold, hqid, hqlive, htenant.symm, hname.symm⟩ hfree
    · obtain hqrecord | ⟨hqid, hqold⟩ := mem_rows_put.mp hq
      · subst hqrecord
        exact absurd ⟨p, hpold, hpid, hplive, htenant, hname⟩ hfree
      · exact h p hpold q hqold hplive hqlive htenant hname

theorem UniqueNames.put_deleted {lower : String → String} (h : t.UniqueNames lower)
    (hdeleted : record.deletedAt ≠ none) :
    UniqueNames lower { t with projects := t.projects.put record } := by
  intro p hp q hq hplive hqlive htenant hname
  obtain hprecord | ⟨-, hpold⟩ := mem_rows_put.mp hp
  · exact absurd (hprecord ▸ hplive) hdeleted
  · obtain hqrecord | ⟨-, hqold⟩ := mem_rows_put.mp hq
    · exact absurd (hqrecord ▸ hqlive) hdeleted
    · exact h p hpold q hqold hplive hqlive htenant hname

end ProjectTables

end CopilotRuntime.Projects
