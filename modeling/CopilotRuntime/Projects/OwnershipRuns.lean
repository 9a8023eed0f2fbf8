import CopilotRuntime.Projects.InMemoryLaws

/-!
# Runs of the projects service

The operations one after another on both stores. As long as no project is
transferred the database store does what the in-memory store does.
-/

namespace CopilotRuntime.Projects

open Foundation ProjectTables

variable {lower : String → String} {t : ProjectTables} {caller : ProjectCaller}
  {ctx : ProjectContext}

/-! ### The database store -/

abbrev postgres : ProjectsStore := PostgresProjectsStore.store

/-- The call transfers a project: it passes the checks of a transfer. -/
def AcceptsTransfer (t : ProjectTables) (call : ProjectCall) : Prop :=
  match call.operation with
  | .transferOwnership projectId newOwnerUserId previousOwnerNewRole =>
      ∃ found, transferChecks t call.caller false projectId newOwnerUserId previousOwnerNewRole =
        .ok found
  | .forceTransferOwnership projectId newOwnerUserId previousOwnerNewRole =>
      isAdmin call.caller.roles = true ∧
        ∃ found, transferChecks t call.caller true projectId newOwnerUserId previousOwnerNewRole =
          .ok found
  | _ => False

/-- The statement writes the whole record when the ids, the owner and the time of creation are
those of the row. -/
theorem postgres_updateProject {record row : ProjectRecord}
    (hrow : t.projects.find? record.id = some row) (htenant : record.tenantId = row.tenantId)
    (howner : record.ownerUserId = row.ownerUserId) (hcreated : record.createdAt = row.createdAt) :
    postgres.updateProject t record = memory.updateProject t record := by
  have hid : row.id = record.id := Table.key_of_find? hrow
  change PostgresProjectsStore.updateProject t record =
    { t with projects := t.projects.put record }
  unfold PostgresProjectsStore.updateProject
  rw [hrow]
  simp only [htenant, ne_eq, not_true_eq_false, if_false, hid, ← howner, ← hcreated]
  rw [← htenant]

theorem postgres_insertMembership {m : ProjectMembershipRecord}
    (hnone : t.memberships.find? m.key = none) :
    postgres.insertMembership t m = memory.insertMembership t m := by
  change PostgresProjectsStore.insertMembership t m = _
  unfold PostgresProjectsStore.insertMembership
  rw [hnone]
  rfl

theorem postgres_createProject (h : t.Governed)
    (hfresh : t.projects.find? ctx.newProjectId = none) (payload : Json) :
    createProject lower t caller postgres ctx payload =
      createProject lower t caller memory ctx payload := by
  have hchecks : createChecks lower t caller postgres payload =
      createChecks lower t caller memory payload := by
    unfold createChecks
    have hname : postgres.getProjectByName lower t = memory.getProjectByName lower t := by
      funext tenantId name
      exact getProjectByName_eq h.toShaped tenantId name
    rw [hname]
  unfold createProject
  rw [hchecks]
  split
  · rfl
  · next validated _ =>
      have hnone : t.memberships.find? (ctx.newProjectId, caller.userId) = none := by
        by_contra hsome
        obtain ⟨m, hm⟩ := Option.ne_none_iff_exists'.mp hsome
        obtain ⟨p, hp, -⟩ := h.tenant _ _ m hm
        rw [hfresh] at hp
        cases hp
      exact Prod.ext rfl (postgres_insertMembership hnone)

theorem postgres_updateProject_eq (h : t.Governed) (projectId : String)
    (patch : List (String × Json)) :
    updateProject lower t caller postgres ctx projectId patch =
      updateProject lower t caller memory ctx projectId patch := by
  have hchecks : updateChecks lower t caller postgres projectId patch =
      updateChecks lower t caller memory projectId patch := by
    unfold updateChecks
    have hname : postgres.getProjectByName lower t = memory.getProjectByName lower t := by
      funext tenantId name
      exact getProjectByName_eq h.toShaped tenantId name
    rw [hname]
  unfold updateProject
  rw [hchecks]
  split
  · rfl
  · next existing updates hok =>
      obtain ⟨hfind, -, -⟩ := requireRead_ok (requireOwner_ok (updateChecks_ok hok).1).1
      obtain ⟨hid, htenant, howner, hcreated, -, -⟩ := patched_keeps ctx existing updates
      have hrow : t.projects.find? (patched ctx existing updates).id = some existing := by
        rw [hid, Table.key_of_find? hfind]
        exact hfind
      exact Prod.ext rfl (postgres_updateProject hrow htenant howner hcreated)

theorem postgres_deleteProject (projectId : String) :
    deleteProject t caller postgres ctx projectId =
      deleteProject t caller memory ctx projectId := by
  unfold deleteProject
  split
  · rfl
  · next existing howner =>
      obtain ⟨hfind, htenant, -⟩ := requireRead_ok (requireOwner_ok howner).1
      rw [memory_softDeleteProject howner]
      refine Prod.ext rfl ?_
      change PostgresProjectsStore.softDeleteProject t caller.tenantId projectId ctx.now = _
      simp [PostgresProjectsStore.softDeleteProject, hfind, htenant]

theorem postgres_restoreProject (projectId : String) :
    restoreProject t caller postgres ctx projectId =
      restoreProject t caller memory ctx projectId := by
  unfold restoreProject
  split
  · rfl
  · next existing hchecks =>
      obtain ⟨hfind, -⟩ := restoreChecks_ok hchecks
      have hrow : t.projects.find? existing.id = some existing := by
        rw [Table.key_of_find? hfind]
        exact hfind
      split
      · rfl
      · refine Prod.ext rfl ?_
        dsimp only
        exact postgres_updateProject hrow rfl rfl rfl

theorem postgres_addMember (h : t.Governed) (projectId targetUserId role : String) :
    addMember t caller postgres ctx projectId targetUserId role =
      addMember t caller memory ctx projectId targetUserId role := by
  unfold addMember
  split
  · rfl
  · next given hchecks =>
      obtain ⟨-, ⟨existing, howner⟩, hnone, -⟩ := addMemberChecks_ok hchecks
      obtain ⟨hfind, htenant, -⟩ := requireRead_ok (requireOwner_ok howner).1
      rw [← htenant, h.getMembership_eq hfind] at hnone
      exact Prod.ext rfl (postgres_insertMembership hnone)

theorem doTransfer_of_refused {adminForce : Bool}
    {projectId newOwnerUserId previousOwnerNewRole : String}
    (h : ¬ ∃ found, transferChecks t caller adminForce projectId newOwnerUserId
      previousOwnerNewRole = .ok found) :
    doTransfer t caller postgres ctx adminForce projectId newOwnerUserId previousOwnerNewRole =
      doTransfer t caller memory ctx adminForce projectId newOwnerUserId previousOwnerNewRole := by
  unfold doTransfer
  split
  · rfl
  · next existing target hok => exact absurd ⟨(existing, target), hok⟩ h

/-- Where nothing is transferred the database store does what the in-memory store does. -/
theorem perform_postgres (h : t.Governed) {call : ProjectCall}
    (hfresh : t.projects.find? call.ctx.newProjectId = none) (hrefused : ¬ AcceptsTransfer t call) :
    perform lower postgres t call = perform lower memory t call := by
  unfold perform
  unfold AcceptsTransfer at hrefused
  cases hoperation : call.operation with
  | create payload => exact postgres_createProject h hfresh payload
  | update projectId patch => exact postgres_updateProject_eq h projectId patch
  | delete projectId => exact postgres_deleteProject projectId
  | restore projectId => exact postgres_restoreProject projectId
  | addMember projectId targetUserId role => exact postgres_addMember h projectId targetUserId role
  | removeMember projectId targetUserId => rfl
  | changeMemberRole projectId targetUserId role => rfl
  | transferOwnership projectId newOwnerUserId previousOwnerNewRole =>
      rw [hoperation] at hrefused
      exact doTransfer_of_refused hrefused
  | forceTransferOwnership projectId newOwnerUserId previousOwnerNewRole =>
      rw [hoperation] at hrefused
      dsimp only
      unfold forceTransferOwnership
      split
      · next hadmin => exact doTransfer_of_refused fun hfound => hrefused ⟨hadmin, hfound⟩
      · rfl

/-- A transfer on the database store leaves the old owner in the project's row. -/
theorem not_owned_doTransfer (h : t.Governed) {adminForce : Bool}
    {projectId newOwnerUserId previousOwnerNewRole : String}
    (haccepted : ∃ found, transferChecks t caller adminForce projectId newOwnerUserId
      previousOwnerNewRole = .ok found) :
    ¬ (doTransfer t caller postgres ctx adminForce projectId newOwnerUserId
      previousOwnerNewRole).2.Owned := by
  obtain ⟨⟨existing, target⟩, hchecks⟩ := haccepted
  obtain ⟨hfind, htenant, -, hother, hmember⟩ := transferChecks_ok hchecks
  dsimp only at hfind htenant hother
  have hid : existing.id = projectId := Table.key_of_find? hfind
  have hrole := roleOf_promoted h hfind htenant target hother hmember projectId newOwnerUserId
  have hprojects := projects_promoted t caller projectId existing.ownerUserId newOwnerUserId target
  rw [if_pos rfl, if_pos rfl] at hrole
  unfold doTransfer
  rw [hchecks]
  dsimp only
  generalize hpromoted : ((demoteOwner t caller projectId existing.ownerUserId
    target).updateMembershipRole caller.tenantId projectId newOwnerUserId .owner).2 = promoted
    at hrole hprojects ⊢
  intro howned
  change Owned (PostgresProjectsStore.updateProject promoted _) at howned
  unfold PostgresProjectsStore.updateProject at howned
  rw [hprojects] at howned
  simp only [hid, hfind] at howned
  rw [if_neg (by simp)] at howned
  have hrow := howned projectId _ (Table.find?_put_self _ _) newOwnerUserId
  exact hother (hrow.mp hrole)

theorem not_owned_perform (h : t.Governed) {call : ProjectCall}
    (haccepted : AcceptsTransfer t call) : ¬ (perform lower postgres t call).2.Owned := by
  unfold perform
  unfold AcceptsTransfer at haccepted
  cases hoperation : call.operation with
  | transferOwnership projectId newOwnerUserId previousOwnerNewRole =>
      rw [hoperation] at haccepted
      exact not_owned_doTransfer h haccepted
  | forceTransferOwnership projectId newOwnerUserId previousOwnerNewRole =>
      rw [hoperation] at haccepted
      dsimp only
      unfold forceTransferOwnership
      rw [if_pos haccepted.1]
      exact not_owned_doTransfer h haccepted.2
  | _ =>
      rw [hoperation] at haccepted
      exact haccepted.elim

/-! ### Histories -/

section Histories
variable (lower : String → String)

/-- What is to hold of the tables: one owner, whom the project names, names apart, the time of
archiving with the status, and at most 500 members. -/
structure OwnershipKept (t : ProjectTables) : Prop where
  owned : t.Owned
  names : t.UniqueNames lower
  archived : ∀ projectId p, t.projects.find? projectId = some p →
    (p.archivedAt.isSome = true ↔ p.status = .archived)
  members : ∀ projectId, t.memberCount projectId ≤ 500

/-- The call happens and brings back a name that was given away. -/
def Renames (t : ProjectTables) (call : ProjectCall) : Prop :=
  t.projects.find? call.ctx.newProjectId = none ∧ TakesName lower t call

/-- The call happens and transfers a project. -/
def Transfers (t : ProjectTables) (call : ProjectCall) : Prop :=
  t.projects.find? call.ctx.newProjectId = none ∧ AcceptsTransfer t call

/-- After every part of the history the tables of both stores are as they should be, and the
stores have given the same results. -/
def StoresAgree (history : List ProjectCall) : Prop :=
  ∀ earlier, earlier <+: history → OwnershipKept lower (after lower memory earlier).2 ∧
    OwnershipKept lower (after lower postgres earlier).2 ∧
    (after lower memory earlier).1 = (after lower postgres earlier).1

theorem after_snoc (store : ProjectsStore) (history : List ProjectCall) (call : ProjectCall) :
    after lower store (history ++ [call]) =
      ((after lower store history).1 ++ [(step lower store (after lower store history).2 call).1],
        (step lower store (after lower store history).2 call).2) := by
  simp [after]

theorem governed_empty : ProjectTables.empty.Governed := ⟨shaped_empty, owned_empty⟩

theorem governed_step (h : t.Governed) (call : ProjectCall) :
    (step lower memory t call).2.Governed := by
  unfold step
  split
  · exact h
  · next hfresh => exact governed_perform h (Option.not_isSome_iff_eq_none.mp hfresh)

theorem governed_after (history : List ProjectCall) :
    (after lower memory history).2.Governed := by
  induction history using List.reverseRecOn with
  | nil => exact governed_empty
  | append_singleton history call ih =>
      rw [after_snoc]
      exact governed_step lower ih call

theorem uniqueNames_step_iff (h : t.Governed) (hunique : t.UniqueNames lower)
    (call : ProjectCall) :
    (step lower memory t call).2.UniqueNames lower ↔ ¬ Renames lower t call := by
  unfold step Renames
  by_cases hfresh : t.projects.find? call.ctx.newProjectId = none
  · rw [if_neg (by simp [hfresh]), and_iff_right hfresh]
    exact uniqueNames_perform_iff h hunique call
  · rw [if_pos (Option.isSome_iff_ne_none.mpr hfresh)]
    exact iff_of_true hunique fun hboth => hfresh hboth.1

theorem ownershipKept_iff (h : t.Governed) : OwnershipKept lower t ↔ t.UniqueNames lower :=
  ⟨fun hkept => hkept.names, fun hnames => ⟨h.owned, hnames, h.archived, h.members⟩⟩

/-- Without a transfer the stores go the same way. -/
theorem step_postgres (h : t.Governed) {call : ProjectCall} (hrefused : ¬ Transfers t call) :
    step lower postgres t call = step lower memory t call := by
  unfold step
  by_cases hfresh : t.projects.find? call.ctx.newProjectId = none
  · have haccepts : ¬ AcceptsTransfer t call := fun haccepts => hrefused ⟨hfresh, haccepts⟩
    rw [perform_postgres h hfresh haccepts]
  · rw [if_pos (Option.isSome_iff_ne_none.mpr hfresh),
      if_pos (Option.isSome_iff_ne_none.mpr hfresh)]

theorem not_owned_step (h : t.Governed) {call : ProjectCall} (haccepted : Transfers t call) :
    ¬ (step lower postgres t call).2.Owned := by
  unfold step
  rw [if_neg (by simp [haccepted.1])]
  exact not_owned_perform h haccepted.2

theorem after_postgres {history : List ProjectCall}
    (h : EachStep (fun earlier call => ¬ Transfers (after lower memory earlier).2 call) history) :
    after lower postgres history = after lower memory history := by
  refine EachStep.throughout (Q := fun earlier =>
    after lower postgres earlier = after lower memory earlier) h rfl ?_ history List.prefix_rfl
  intro earlier call hsame hrefused
  rw [after_snoc, after_snoc, hsame, step_postgres lower (governed_after lower earlier) hrefused]

theorem storesAgree_snoc (history : List ProjectCall) (call : ProjectCall) :
    StoresAgree lower (history ++ [call]) ↔ StoresAgree lower history ∧
      OwnershipKept lower (after lower memory (history ++ [call])).2 ∧
      OwnershipKept lower (after lower postgres (history ++ [call])).2 ∧
      (after lower memory (history ++ [call])).1 =
        (after lower postgres (history ++ [call])).1 := by
  constructor
  · intro h
    refine ⟨fun earlier hle => h earlier (hle.trans (List.prefix_append _ _)), ?_⟩
    exact h _ List.prefix_rfl
  · rintro ⟨h, hlast⟩ earlier hle
    obtain rfl | hle' := List.prefix_concat_iff.mp hle
    · exact hlast
    · exact h earlier hle'

theorem storesAgree_iff (history : List ProjectCall) :
    StoresAgree lower history ↔
      EachStep (fun earlier call => ¬ Renames lower (after lower memory earlier).2 call ∧
        ¬ Transfers (after lower memory earlier).2 call) history := by
  induction history using List.reverseRecOn with
  | nil =>
      refine iff_of_true (fun earlier hle => ?_) eachStep_nil
      rw [List.prefix_nil] at hle
      subst hle
      have hkept : OwnershipKept lower ProjectTables.empty :=
        (ownershipKept_iff lower governed_empty).mpr (uniqueNames_empty lower)
      exact ⟨hkept, hkept, rfl⟩
  | append_singleton history call ih =>
      rw [storesAgree_snoc, eachStep_snoc, ih]
      refine and_congr_right fun heach => ?_
      have hgoverned := governed_after lower history
      have hsame : after lower postgres history = after lower memory history :=
        after_postgres lower fun earlier e later hsplit => (heach earlier e later hsplit).2
      have hnames : (after lower memory history).2.UniqueNames lower :=
        ((ih.mpr heach) history List.prefix_rfl).1.names
      rw [after_snoc, after_snoc, hsame]
      by_cases htransfers : Transfers (after lower memory history).2 call
      · refine iff_of_false ?_ fun hboth => hboth.2 htransfers
        rintro ⟨-, hpostgres, -⟩
        exact not_owned_step lower hgoverned htransfers hpostgres.owned
      · have hstep := governed_step lower hgoverned call
        rw [step_postgres lower hgoverned htransfers, and_iff_left htransfers,
          and_iff_left rfl, and_self_iff, ownershipKept_iff lower hstep]
        exact uniqueNames_step_iff lower hgoverned hnames call

theorem memory_kept_iff (history : List ProjectCall) :
    (∀ earlier, earlier <+: history → OwnershipKept lower (after lower memory earlier).2) ↔
      EachStep (fun earlier call => ¬ Renames lower (after lower memory earlier).2 call)
        history := by
  constructor
  · rintro h earlier call later rfl
    have hbefore := h earlier (List.prefix_append _ _)
    have hnext := h (earlier ++ [call]) ⟨later, by simp⟩
    have hgoverned := governed_after lower earlier
    rw [after_snoc, ownershipKept_iff lower (governed_step lower hgoverned call)] at hnext
    exact (uniqueNames_step_iff lower hgoverned hbefore.names call).mp hnext
  · intro h
    refine h.throughout ((ownershipKept_iff lower governed_empty).mpr (uniqueNames_empty lower)) ?_
    intro earlier call hbefore hfree
    have hgoverned := governed_after lower earlier
    rw [after_snoc, ownershipKept_iff lower (governed_step lower hgoverned call)]
    exact (uniqueNames_step_iff lower hgoverned hbefore.names call).mpr hfree

end Histories

/-- Both stores keep the owners, names, archiving times and member numbers and give the same results
in exactly the histories that bring back no name that was given away and transfer no project; the
in-memory store by itself keeps them whatever is transferred. -/
theorem project_ownership_kept_iff (lower : String → String) (history : List ProjectCall) :
    (StoresAgree lower history ↔
      EachStep (fun earlier call => ¬ Renames lower (after lower memory earlier).2 call ∧
        ¬ Transfers (after lower memory earlier).2 call) history) ∧
    ((∀ earlier, earlier <+: history → OwnershipKept lower (after lower memory earlier).2) ↔
      EachStep (fun earlier call => ¬ Renames lower (after lower memory earlier).2 call)
        history) :=
  ⟨storesAgree_iff lower history, memory_kept_iff lower history⟩

/-- A call of one user, with an id for a project it may create. -/
def sampleCall (operation : ProjectOperation) (newProjectId : String) : ProjectCall :=
  ⟨⟨"tenant", "alice", []⟩, ⟨0, fun _ _ => true, newProjectId⟩, operation⟩

/-- After a transfer the database names the old owner, and a restored project may have the name of a
newer one. -/
theorem transferred_and_restored_projects :
    (¬ ∀ history, StoresAgree Text.lower history) ∧
    ¬ ∀ history earlier, earlier <+: history →
      OwnershipKept Text.lower (after Text.lower memory earlier).2 := by
  refine ⟨fun h => ?_, fun h => ?_⟩
  · have howned := (h [sampleCall (.create (.obj [("name", .str "Plan")])) "a",
      sampleCall (.addMember "a" "bob" "editor") "b",
      sampleCall (.transferOwnership "a" "bob" "editor") "b"] _ List.prefix_rfl).2.1.owned
    have hrow := howned "a" ⟨"a", "tenant", "alice", "Plan", "", "📁", 210, .active, none, none, 0,
      0, none, none⟩ (by decide) "bob"
    exact absurd (hrow.mp (by decide)) (by decide)
  · have hnames := (h [sampleCall (.create (.obj [("name", .str "Plan")])) "a",
      sampleCall (.delete "a") "b",
      sampleCall (.create (.obj [("name", .str "PLAN")])) "b",
      sampleCall (.restore "a") "c"] _ List.prefix_rfl).names
    unfold UniqueNames at hnames
    revert hnames
    decide

end CopilotRuntime.Projects
