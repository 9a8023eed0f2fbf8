import CopilotRuntime.Siwe.StoreLaws

/-!
# Organisations that a task has founded

Ids are drawn anew, and calls put users, memberships and roles only into
organisations that they have founded. So no insert into such an organisation is
refused, and its user is not locked.
-/

namespace CopilotRuntime.Siwe

open Foundation Identity Lockout
open AccountMerge (Account)

variable {lower : String → String} {w w' : SiweWorld} {trace : List SiweEvent} {n : Nat}

/-! ### What tasks have stored -/

/-- The task has stored the organisation. -/
def Founded (n : Nat) (org : OrganizationRecord) (trace : List SiweEvent) : Prop :=
  ∃ record, .performed n (.identity (.createOrganization record)) (.ok org) ∈ trace

def MadeUser (n : Nat) (user : UserRecord) (trace : List SiweEvent) : Prop :=
  ∃ record, .performed n (.identity (.createUser record)) (.ok user) ∈ trace

def AddedMember (n : Nat) (member : OrganizationMemberRecord) (trace : List SiweEvent) : Prop :=
  ∃ record, .performed n (.identity (.addMember record)) (.ok member) ∈ trace

def AssignedRole (n : Nat) (assignment : RoleAssignmentRecord) (trace : List SiweEvent) : Prop :=
  ∃ record, .performed n (.identity (.assignRole record)) (.ok assignment) ∈ trace

/-- An operation that gives its new row a drawn id, in an organisation of its task. -/
def Rests (n : Nat) (trace : List SiweEvent) : SiweOp → Prop
  | .identity (.createOrganization record) => ∀ id clock, (record id clock).orgId = id
  | .identity (.createUser record) => (∀ id clock, (record id clock).userId = id) ∧
      ∃ org, Founded n org trace ∧ ∀ id clock, (record id clock).orgId = org.orgId
  | .identity (.addMember record) => (∀ id clock, (record id clock).memberId = id) ∧
      ∃ org, Founded n org trace ∧ ∀ id clock, (record id clock).orgId = org.orgId
  | .identity (.assignRole record) => (∀ id clock, (record id clock).assignmentId = id) ∧
      ∃ org, Founded n org trace ∧ ∀ id clock, (record id clock).orgId = org.orgId
  | .lockout (.createLockout _) => False
  | .createNonce record => ∀ id clock, (record id clock).nonceId = id
  | _ => True

/-! ### Rows of founded organisations -/

section OwnedRows
variable {ρ : Type} {orgId : ρ → String} {rows rows' : List ρ} {made made' : Nat → ρ → Prop}
  {founded founded' : Nat → OrganizationRecord → Prop}

/-- The rows of an organisation that a task has founded were made by that task. -/
def OwnedRows (rows : List ρ) (orgId : ρ → String) (made : Nat → ρ → Prop)
    (founded : Nat → OrganizationRecord → Prop) : Prop :=
  ∀ n org, founded n org → ∀ r ∈ rows, orgId r = org.orgId → made n r

theorem OwnedRows.mono (h : OwnedRows rows orgId made founded)
    (hrows : ∀ r ∈ rows', r ∈ rows) (hmade : ∀ n r, made n r → made' n r)
    (hfounded : ∀ n org, founded' n org → founded n org) :
    OwnedRows rows' orgId made' founded' :=
  fun n org horg r hr heq => hmade n r (h n org (hfounded n org horg) r (hrows r hr) heq)

/-- A task may add a row to an organisation that it alone has founded. -/
theorem OwnedRows.add (h : OwnedRows rows orgId made founded) {r : ρ} {org : OrganizationRecord}
    (hfounder : ∀ m org', founded m org' → org.orgId = org'.orgId → n = m)
    (horg : orgId r = org.orgId) (hrows : ∀ r' ∈ rows', r' = r ∨ r' ∈ rows)
    (hmade : ∀ n r, made n r → made' n r) (hnew : made' n r)
    (hfounded : ∀ n org, founded' n org → founded n org) :
    OwnedRows rows' orgId made' founded' := by
  intro m org' horg' r' hr' heq
  obtain rfl | hold := hrows r' hr'
  · obtain rfl := hfounder m org' (hfounded m org' horg') (horg.symm.trans heq)
    exact hnew
  · exact hmade m r' (h m org' (hfounded m org' horg') r' hold heq)

/-- An organisation without rows may be founded. -/
theorem OwnedRows.found (h : OwnedRows rows orgId made founded) {org : OrganizationRecord}
    (hfresh : ∀ r ∈ rows, orgId r ≠ org.orgId) (hmade : ∀ n r, made n r → made' n r)
    (hfounded : ∀ n org', founded' n org' → founded n org' ∨ org' = org) :
    OwnedRows rows orgId made' founded' := by
  intro m org' horg' r hr heq
  obtain hold | rfl := hfounded m org' horg'
  · exact hmade m r (h m org' hold r hr heq)
  · exact absurd heq (hfresh r hr)

end OwnedRows

structure Private (trace : List SiweEvent) (w : SiweWorld) : Prop where
  stored : ∀ n org, Founded n org trace → org ∈ w.directory.organizations.rows
  founder : ∀ n n' org org', Founded n org trace → Founded n' org' trace →
    org.orgId = org'.orgId → n = n'
  users : OwnedRows w.directory.users.rows UserRecord.orgId (MadeUser · · trace)
    (Founded · · trace)
  members : OwnedRows w.directory.members.rows OrganizationMemberRecord.orgId
    (AddedMember · · trace) (Founded · · trace)
  assignments : OwnedRows w.directory.roleAssignments.rows RoleAssignmentRecord.orgId
    (AssignedRole · · trace) (Founded · · trace)
  unlocked : ∀ n u, MadeUser n u trace → ∀ l ∈ w.lockout.lockouts.rows, l.userId ≠ u.userId

theorem private_nil (w : SiweWorld) : Private [] w := by
  have hfounded : ∀ n org, ¬ Founded n org [] := fun n org h => by
    obtain ⟨record, hmem⟩ := h
    cases hmem
  refine ⟨fun n org h => absurd h (hfounded n org), fun n _ org _ h => absurd h (hfounded n org),
    fun n org h => absurd h (hfounded n org), fun n org h => absurd h (hfounded n org),
    fun n org h => absurd h (hfounded n org), ?_⟩
  rintro n u ⟨record, hmem⟩
  cases hmem

section Events
variable {event : SiweEvent}

theorem Founded.mono {org : OrganizationRecord} {trace' : List SiweEvent}
    (h : Founded n org trace) (hsub : trace ⊆ trace') : Founded n org trace' :=
  h.imp fun _ => @hsub _

theorem MadeUser.mono {u : UserRecord} {trace' : List SiweEvent} (h : MadeUser n u trace)
    (hsub : trace ⊆ trace') : MadeUser n u trace' :=
  h.imp fun _ => @hsub _

/-- What another event than this one is told by was told before. -/
theorem told_before {ρ : Type} {told : ρ → SiweEvent}
    (h : ∃ record, told record ∈ trace ++ [event]) (hother : ∀ record, event ≠ told record) :
    ∃ record, told record ∈ trace := by
  obtain ⟨record, hmem⟩ := h
  obtain hold | hnew := List.mem_append.mp hmem
  · exact ⟨record, hold⟩
  · exact absurd (List.mem_singleton.mp hnew).symm (hother record)

/-- Rows that stay are of organisations founded before. -/
theorem Private.kept (h : Private trace w) (event : SiweEvent) :
    OwnedRows w.directory.users.rows UserRecord.orgId (MadeUser · · (trace ++ [event]))
        (Founded · · trace) ∧
      OwnedRows w.directory.members.rows OrganizationMemberRecord.orgId
        (AddedMember · · (trace ++ [event])) (Founded · · trace) ∧
      OwnedRows w.directory.roleAssignments.rows RoleAssignmentRecord.orgId
        (AssignedRole · · (trace ++ [event])) (Founded · · trace) := by
  refine ⟨h.users.mono (fun _ => id) ?_ fun _ _ => id, h.members.mono (fun _ => id) ?_ fun _ _ => id,
    h.assignments.mono (fun _ => id) ?_ fun _ _ => id⟩ <;>
  exact fun _ _ hmade => hmade.imp fun _ => List.mem_append_left _

/-- An event that founds no organisation must keep the rows of those that are founded. -/
theorem Private.of_unfounded (h : Private trace w)
    (hfounded : ∀ n org, Founded n org (trace ++ [event]) → Founded n org trace)
    (horgs : w'.directory.organizations.rows = w.directory.organizations.rows)
    (husers : OwnedRows w'.directory.users.rows UserRecord.orgId (MadeUser · · (trace ++ [event]))
      (Founded · · trace))
    (hmembers : OwnedRows w'.directory.members.rows OrganizationMemberRecord.orgId
      (AddedMember · · (trace ++ [event])) (Founded · · trace))
    (hassignments : OwnedRows w'.directory.roleAssignments.rows RoleAssignmentRecord.orgId
      (AssignedRole · · (trace ++ [event])) (Founded · · trace))
    (hunlocked : ∀ n u, MadeUser n u (trace ++ [event]) →
      ∀ l ∈ w'.lockout.lockouts.rows, l.userId ≠ u.userId) :
    Private (trace ++ [event]) w' where
  stored m org horg := horgs ▸ h.stored m org (hfounded m org horg)
  founder m m' org org' horg horg' :=
    h.founder m m' org org' (hfounded m org horg) (hfounded m' org' horg')
  users := husers.mono (fun _ => id) (fun _ _ => id) hfounded
  members := hmembers.mono (fun _ => id) (fun _ _ => id) hfounded
  assignments := hassignments.mono (fun _ => id) (fun _ _ => id) hfounded
  unlocked := hunlocked

/-- An event that stores none of the rows in question leaves what tasks have stored. -/
theorem Private.of_same (h : Private trace w)
    (hdirectory : w'.directory = w.directory)
    (hlockouts : ∀ l' ∈ w'.lockout.lockouts.rows, ∃ l ∈ w.lockout.lockouts.rows,
      l'.userId = l.userId)
    (hfounded : ∀ n org, Founded n org (trace ++ [event]) → Founded n org trace)
    (hmade : ∀ n u, MadeUser n u (trace ++ [event]) → MadeUser n u trace) :
    Private (trace ++ [event]) w' := by
  refine h.of_unfounded hfounded (by rw [hdirectory]) ?_ ?_ ?_ ?_
  · rw [hdirectory]
    exact (h.kept event).1
  · rw [hdirectory]
    exact (h.kept event).2.1
  · rw [hdirectory]
    exact (h.kept event).2.2
  · intro m u hu l' hl'
    obtain ⟨l, hl, heq⟩ := hlockouts l' hl'
    rw [heq]
    exact h.unlocked m u (hmade m u hu) l hl

end Events

/-! ### Drawn ids -/

/-- No organisation has the id, and no row is of an organisation or a user with it. -/
structure Unmentioned (w : SiweWorld) (id : String) : Prop where
  organizations : ∀ o ∈ w.directory.organizations.rows, o.orgId ≠ id
  users : ∀ u ∈ w.directory.users.rows, u.orgId ≠ id
  members : ∀ m ∈ w.directory.members.rows, m.orgId ≠ id
  assignments : ∀ a ∈ w.directory.roleAssignments.rows, a.orgId ≠ id
  lockouts : ∀ l ∈ w.lockout.lockouts.rows, l.userId ≠ id

theorem unmentioned_of_fresh {id : String} (h : id ∉ w.ids) : Unmentioned w id := by
  simp only [SiweWorld.ids, List.mem_append, List.mem_map, List.mem_flatMap, not_or] at h
  obtain ⟨⟨⟨⟨⟨⟨⟨horgs, husers⟩, hmembers⟩, hassignments⟩, hlockouts⟩, -⟩, -⟩, -⟩ := h
  refine ⟨?_, ?_, ?_, ?_, ?_⟩
  · exact fun o ho heq => horgs ⟨o, ho, heq⟩
  · exact fun u hu heq => husers ⟨u, hu, by simp [heq]⟩
  · exact fun m hm heq => hmembers ⟨m, hm, by simp [heq]⟩
  · exact fun a ha heq => hassignments ⟨a, ha, by simp [heq]⟩
  · exact fun l hl heq => hlockouts ⟨l, hl, by simp [heq]⟩

/-! ### One step -/

/-- A request about lockouts that stores none keeps whom they are of. -/
theorem lockouts_of_env {request : LockoutOp} {reply : request.Reply}
    (henv : SiweWorld.env lower (.lockout request) w reply w')
    (hother : ∀ candidate, request ≠ .createLockout candidate) :
    ∀ l' ∈ w'.lockout.lockouts.rows, ∃ l ∈ w.lockout.lockouts.rows, l'.userId = l.userId := by
  obtain ⟨clock, draw, -, -, hanswer⟩ := henv
  obtain rfl : w' = _ := congrArg Prod.snd hanswer
  cases request with
  | createLockout candidate => exact absurd rfl (hother candidate)
  | unlock orgId userId unlockedBy reason =>
      change ∀ l' ∈ (LockoutWorld.unlock _ orgId userId unlockedBy reason).2.lockouts.rows, _
      rw [LockoutWorld.unlock]
      split
      · exact fun l hl => ⟨l, hl, rfl⟩
      · next active hactive =>
          have hadmits := Lockouts.admits_unlocked w.lockout.lockouts active clock unlockedBy reason
          intro l' hl'
          obtain rfl | ⟨hold, -⟩ := (IndexedTable.mem_rows_put hadmits).mp hl'
          · exact ⟨active, (IndexedTable.lookup_eq_some_iff.mp hactive).1, rfl⟩
          · exact ⟨l', hold, rfl⟩
  | _ => exact fun l hl => ⟨l, hl, rfl⟩

section Steps
variable {op : SiweOp} {reply : op.Reply}

theorem founded_before {m : Nat} {org : OrganizationRecord}
    (h : Founded m org (trace ++ [Event.performed n op reply]))
    (horg : ∀ record, op ≠ .identity (.createOrganization record)) : Founded m org trace := by
  refine told_before h fun record he => ?_
  injection he with _ hop
  exact horg record hop

theorem madeUser_before {m : Nat} {u : UserRecord}
    (h : MadeUser m u (trace ++ [Event.performed n op reply]))
    (huser : ∀ record, op ≠ .identity (.createUser record)) : MadeUser m u trace := by
  refine told_before h fun record he => ?_
  injection he with _ hop
  exact huser record hop

/-- An operation that stores neither an organisation nor a user, nor a lockout. -/
theorem private_of_other (h : Private trace w) (hdirectory : w'.directory = w.directory)
    (hlockouts : ∀ l' ∈ w'.lockout.lockouts.rows, ∃ l ∈ w.lockout.lockouts.rows,
      l'.userId = l.userId)
    (horg : ∀ record, op ≠ .identity (.createOrganization record))
    (huser : ∀ record, op ≠ .identity (.createUser record)) :
    Private (trace ++ [Event.performed n op reply]) w' :=
  h.of_same hdirectory hlockouts (fun _ _ h => founded_before h horg)
    fun _ _ h => madeUser_before h huser

/-- Founding an organisation. -/
theorem private_of_createOrganization {record : String → Int → OrganizationRecord}
    {reply : Except String OrganizationRecord} (h : Private trace w)
    (henv : SiweWorld.env lower (.identity (.createOrganization record)) w reply w')
    (hproper : ∀ id clock, (record id clock).orgId = id) :
    Private (trace ++
        [Event.performed n (SiweOp.identity (.createOrganization record)) reply]) w' := by
  obtain ⟨id, clock, hfresh, hanswer⟩ := identity_of_env henv
  have hlockouts := (untouched_of_env henv).lockouts fun _ h => SiweOp.noConfusion h
  obtain ⟨message, hcreate⟩ | ⟨organizations, hcreate, hrows⟩ :=
    Directory.createOrganization_cases w.directory (record id clock)
  · have hpair := hanswer.trans hcreate
    obtain rfl : reply = _ := congrArg Prod.fst hpair
    have hdirectory : w'.directory = w.directory := congrArg Prod.snd hpair
    refine h.of_same hdirectory (fun l hl => ⟨l, hlockouts ▸ hl, rfl⟩) ?_
      fun _ _ h => madeUser_before h nofun
    exact fun m org h => told_before h fun _ he => by cases he
  · have hpair := hanswer.trans hcreate
    obtain rfl : reply = _ := congrArg Prod.fst hpair
    have hdirectory : w'.directory = { w.directory with organizations := organizations } :=
      congrArg Prod.snd hpair
    have hunmentioned := unmentioned_of_fresh hfresh
    rw [← hproper id clock] at hunmentioned
    have hfounded : ∀ m org, Founded m org
        (trace ++
            [Event.performed n (SiweOp.identity (.createOrganization record)) (.ok (record id clock))]) →
          Founded m org trace ∨ m = n ∧ org = record id clock := by
      rintro m org ⟨record', hmem⟩
      obtain hold | hnew := List.mem_append.mp hmem
      · exact .inl ⟨record', hold⟩
      · cases List.mem_singleton.mp hnew
        exact .inr ⟨rfl, rfl⟩
    have hnew := fun m org horg => (hfounded m org horg).imp_right And.right
    refine ⟨fun m org horg => ?_, fun m m' org org' horg horg' heq => ?_, ?_, ?_, ?_, ?_⟩
    · rw [hdirectory]
      refine (hrows org).mpr ?_
      obtain hold | ⟨-, rfl⟩ := hfounded m org horg
      · have hstored := h.stored m org hold
        exact .inr ⟨hstored, hunmentioned.organizations org hstored⟩
      · exact .inl rfl
    · obtain hold | ⟨rfl, rfl⟩ := hfounded m org horg
      · obtain hold' | ⟨rfl, rfl⟩ := hfounded m' org' horg'
        · exact h.founder m m' org org' hold hold' heq
        · exact absurd heq (hunmentioned.organizations org (h.stored m org hold))
      · obtain hold' | ⟨rfl, -⟩ := hfounded m' org' horg'
        · exact absurd heq.symm (hunmentioned.organizations org' (h.stored m' org' hold'))
        · rfl
    · rw [hdirectory]
      exact h.users.found hunmentioned.users (fun _ _ hm => hm.imp fun _ => List.mem_append_left _)
        hnew
    · rw [hdirectory]
      exact h.members.found hunmentioned.members
        (fun _ _ hm => hm.imp fun _ => List.mem_append_left _) hnew
    · rw [hdirectory]
      exact h.assignments.found hunmentioned.assignments
        (fun _ _ hm => hm.imp fun _ => List.mem_append_left _) hnew
    · intro m u hu l hl
      exact h.unlocked m u (madeUser_before hu nofun) l (hlockouts ▸ hl)

/-- Storing a user in an organisation that the task has founded. -/
theorem private_of_createUser {record : String → Int → UserRecord}
    {reply : Except String UserRecord} (h : Private trace w)
    (henv : SiweWorld.env lower (.identity (.createUser record)) w reply w')
    (hrests : Rests n trace (.identity (.createUser record))) :
    Private (trace ++ [Event.performed n (SiweOp.identity (.createUser record)) reply]) w' := by
  obtain ⟨hproper, org, hfoundedOrg, horg⟩ := hrests
  obtain ⟨id, clock, hfresh, hanswer⟩ := identity_of_env henv
  have hlockouts := (untouched_of_env henv).lockouts fun _ h => SiweOp.noConfusion h
  obtain ⟨message, hcreate⟩ | ⟨user, principals, users, hcreate, huserId, huserOrg, hrows⟩ :=
    Directory.createUser_cases w.directory (record id clock)
  · have hpair := hanswer.trans hcreate
    obtain rfl : reply = _ := congrArg Prod.fst hpair
    refine h.of_same (congrArg Prod.snd hpair) (fun l hl => ⟨l, hlockouts ▸ hl, rfl⟩)
      (fun _ _ h => founded_before h nofun) ?_
    exact fun m u h => told_before h fun _ he => by cases he
  · have hpair := hanswer.trans hcreate
    obtain rfl : reply = _ := congrArg Prod.fst hpair
    have hdirectory : w'.directory =
        { w.directory with principals := principals, users := users } := congrArg Prod.snd hpair
    refine h.of_unfounded (fun _ _ h => founded_before h nofun) (by rw [hdirectory]) ?_ ?_ ?_ ?_
    · rw [hdirectory]
      refine h.users.add (fun m org' => h.founder n m org org' hfoundedOrg)
        (huserOrg.trans (horg id clock)) (fun u hu => ((hrows u).mp hu).imp_right And.left)
        (fun _ _ hm => hm.imp fun _ => List.mem_append_left _) ?_ fun _ _ hf => hf
      exact ⟨record, List.mem_append_right _ (List.mem_singleton.mpr rfl)⟩
    · rw [hdirectory]
      exact (h.kept _).2.1
    · rw [hdirectory]
      exact (h.kept _).2.2
    · rintro m u ⟨record', hmem⟩ l hl
      rw [hlockouts] at hl
      obtain hold | hnew := List.mem_append.mp hmem
      · exact h.unlocked m u ⟨record', hold⟩ l hl
      · cases List.mem_singleton.mp hnew
        rw [huserId, hproper]
        exact (unmentioned_of_fresh hfresh).lockouts l hl

/-- Storing a membership in an organisation that the task has founded. -/
theorem private_of_addMember {record : String → Int → OrganizationMemberRecord}
    {reply : Except String OrganizationMemberRecord} (h : Private trace w)
    (henv : SiweWorld.env lower (.identity (.addMember record)) w reply w')
    (hrests : Rests n trace (.identity (.addMember record))) :
    Private (trace ++ [Event.performed n (SiweOp.identity (.addMember record)) reply]) w' := by
  obtain ⟨-, org, hfoundedOrg, horg⟩ := hrests
  obtain ⟨id, clock, -, hanswer⟩ := identity_of_env henv
  have hlockouts := (untouched_of_env henv).lockouts fun _ h => SiweOp.noConfusion h
  obtain ⟨message, hcreate⟩ | ⟨members, hcreate, hrows⟩ :=
    Directory.addMember_cases w.directory (record id clock)
  · exact private_of_other h (congrArg Prod.snd (hanswer.trans hcreate))
      (fun l hl => ⟨l, hlockouts ▸ hl, rfl⟩) nofun nofun
  · have hpair := hanswer.trans hcreate
    obtain rfl : reply = _ := congrArg Prod.fst hpair
    have hdirectory : w'.directory = { w.directory with members := members } :=
      congrArg Prod.snd hpair
    refine h.of_unfounded (fun _ _ h => founded_before h nofun) (by rw [hdirectory]) ?_ ?_ ?_ ?_
    · rw [hdirectory]
      exact (h.kept _).1
    · rw [hdirectory]
      refine h.members.add (fun m org' => h.founder n m org org' hfoundedOrg) (horg id clock)
        (fun m hm => ((hrows m).mp hm).imp_right And.left)
        (fun _ _ hm => hm.imp fun _ => List.mem_append_left _) ?_ fun _ _ hf => hf
      exact ⟨record, List.mem_append_right _ (List.mem_singleton.mpr rfl)⟩
    · rw [hdirectory]
      exact (h.kept _).2.2
    · exact fun m u hu l hl => h.unlocked m u (madeUser_before hu nofun) l (hlockouts ▸ hl)

/-- Storing a role assignment in an organisation that the task has founded. -/
theorem private_of_assignRole {record : String → Int → RoleAssignmentRecord}
    {reply : Except String RoleAssignmentRecord} (h : Private trace w)
    (henv : SiweWorld.env lower (.identity (.assignRole record)) w reply w')
    (hrests : Rests n trace (.identity (.assignRole record))) :
    Private (trace ++ [Event.performed n (SiweOp.identity (.assignRole record)) reply]) w' := by
  obtain ⟨-, org, hfoundedOrg, horg⟩ := hrests
  obtain ⟨id, clock, -, hanswer⟩ := identity_of_env henv
  have hlockouts := (untouched_of_env henv).lockouts fun _ h => SiweOp.noConfusion h
  obtain ⟨message, hcreate⟩ | ⟨assignments, hcreate, hrows⟩ :=
    Directory.assignRole_cases w.directory (record id clock)
  · exact private_of_other h (congrArg Prod.snd (hanswer.trans hcreate))
      (fun l hl => ⟨l, hlockouts ▸ hl, rfl⟩) nofun nofun
  · have hpair := hanswer.trans hcreate
    obtain rfl : reply = _ := congrArg Prod.fst hpair
    have hdirectory : w'.directory = { w.directory with roleAssignments := assignments } :=
      congrArg Prod.snd hpair
    refine h.of_unfounded (fun _ _ h => founded_before h nofun) (by rw [hdirectory]) ?_ ?_ ?_ ?_
    · rw [hdirectory]
      exact (h.kept _).1
    · rw [hdirectory]
      exact (h.kept _).2.1
    · rw [hdirectory]
      refine h.assignments.add (fun m org' => h.founder n m org org' hfoundedOrg) (horg id clock)
        (fun a ha => ((hrows a).mp ha).imp_right And.left)
        (fun _ _ hm => hm.imp fun _ => List.mem_append_left _) ?_ fun _ _ hf => hf
      exact ⟨record, List.mem_append_right _ (List.mem_singleton.mpr rfl)⟩
    · exact fun m u hu l hl => h.unlocked m u (madeUser_before hu nofun) l (hlockouts ▸ hl)

theorem Private.performed {op : SiweOp} {reply : op.Reply} (h : Private trace w)
    (henv : SiweWorld.env lower op w reply w') (hrests : Rests n trace op) :
    Private (trace ++ [Event.performed n op reply]) w' := by
  have huntouched := untouched_of_env henv
  cases op with
  | identity request =>
      have hlockouts := huntouched.lockouts fun _ hop => SiweOp.noConfusion hop
      cases request with
      | createOrganization record => exact private_of_createOrganization h henv hrests
      | createUser record => exact private_of_createUser h henv hrests
      | addMember record => exact private_of_addMember h henv hrests
      | assignRole record => exact private_of_assignRole h henv hrests
      | _ =>
          obtain ⟨id, clock, -, hanswer⟩ := identity_of_env henv
          exact private_of_other h (congrArg Prod.snd hanswer)
            (fun l hl => ⟨l, hlockouts ▸ hl, rfl⟩) (fun _ hop => by cases hop)
            (fun _ hop => by cases hop)
  | lockout request =>
      refine private_of_other h (huntouched.directory fun _ hop => SiweOp.noConfusion hop)
        (lockouts_of_env henv ?_) (fun _ hop => SiweOp.noConfusion hop)
        fun _ hop => SiweOp.noConfusion hop
      rintro candidate rfl
      exact hrests
  | _ =>
      have hlockouts := huntouched.lockouts fun _ hop => SiweOp.noConfusion hop
      exact private_of_other h (huntouched.directory fun _ hop => SiweOp.noConfusion hop)
        (fun l hl => ⟨l, hlockouts ▸ hl, rfl⟩) (fun _ hop => SiweOp.noConfusion hop)
        fun _ hop => SiweOp.noConfusion hop

theorem Private.other (h : Private trace w) {event : SiweEvent}
    (hother : ∀ m op reply, event ≠ .performed m op reply) : Private (trace ++ [event]) w := by
  exact h.of_same rfl (fun l hl => ⟨l, hl, rfl⟩) (fun _ _ h => told_before h fun _ => hother _ _ _)
    fun _ _ h => told_before h fun _ => hother _ _ _

end Steps

/-! ### Replies about a founded organisation -/

section Replies
variable {org : OrganizationRecord} (h : Private trace w) (hfounded : Founded n org trace)
include h hfounded

theorem madeUser_of_error {record : String → Int → UserRecord} {message : String}
    (henv : SiweWorld.env lower (.identity (.createUser record)) w (.error message) w')
    (horg : ∀ id clock, (record id clock).orgId = org.orgId) : ∃ u, MadeUser n u trace := by
  by_contra hnone
  obtain ⟨id, clock, -, hanswer⟩ := identity_of_env henv
  refine Directory.createUser_accepted (fun u hu heq => hnone ⟨u, ?_⟩) message
    (congrArg Prod.fst hanswer).symm
  exact h.users n org hfounded u hu (heq.trans (horg id clock))

theorem addedMember_of_error {record : String → Int → OrganizationMemberRecord}
    {message : String}
    (henv : SiweWorld.env lower (.identity (.addMember record)) w (.error message) w')
    (horg : ∀ id clock, (record id clock).orgId = org.orgId) : ∃ m, AddedMember n m trace := by
  by_contra hnone
  obtain ⟨id, clock, -, hanswer⟩ := identity_of_env henv
  refine Directory.addMember_accepted (fun m hm heq => hnone ⟨m, ?_⟩) message
    (congrArg Prod.fst hanswer).symm
  exact h.members n org hfounded m hm (heq.trans (horg id clock))

theorem assignedRole_of_error {record : String → Int → RoleAssignmentRecord} {message : String}
    (henv : SiweWorld.env lower (.identity (.assignRole record)) w (.error message) w')
    (horg : ∀ id clock, (record id clock).orgId = org.orgId) : ∃ a, AssignedRole n a trace := by
  by_contra hnone
  obtain ⟨id, clock, -, hanswer⟩ := identity_of_env henv
  refine Directory.assignRole_accepted (fun a ha heq => hnone ⟨a, ?_⟩) message
    (congrArg Prod.fst hanswer).symm
  exact h.assignments n org hfounded a ha (heq.trans (horg id clock))

end Replies

/-- A user that a task has made is not locked. -/
theorem not_locked_of_madeUser {u : UserRecord} {orgId : String} {reply : Option AccountLockoutRecord}
    (h : Private trace w) (hmade : MadeUser n u trace)
    (henv : SiweWorld.env lower (.lockout (.getActiveLockout orgId u.userId)) w reply w') :
    reply = none := by
  obtain ⟨clock, draw, -, -, hanswer⟩ := henv
  obtain rfl : reply = _ := congrArg Prod.fst hanswer
  refine IndexedTable.lookup_eq_none_iff.mpr fun l hl hlocks => h.unlocked n u hmade l hl ?_
  rw [AccountLockoutRecord.locks] at hlocks
  split at hlocks
  · exact congrArg Prod.snd (Option.some.inj hlocks)
  · cases hlocks

end CopilotRuntime.Siwe
