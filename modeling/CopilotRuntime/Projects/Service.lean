import CopilotRuntime.Projects.Store
import CopilotRuntime.Foundation.Json

/-!
# The projects service

Who may read a project, who may write it, and what a write does. Every operation
first makes its checks, which read the store only, and then its writes.

## Implementation notes

The membership port is the one backed by the store. What an operation reads of
its surroundings comes in with the call: the time, the users of the tenant and
the id a new project is given. Audit rows and rollup counts are left out.
-/

namespace CopilotRuntime.Projects

open Foundation

inductive ProjectError
  | projectNotFound (projectId : String)
  | projectForbidden (code : String)
  | projectInvalidRequest (code : String)
  | projectConflict (code : String)
  | typeError
  deriving DecidableEq

def maxMembersPerProject : Nat := 500

def isAdmin (callerRoles : List String) : Bool :=
  callerRoles.any fun role => role = "admin" || role = "owner"

/-! ### Validation -/

/-- The names a value lists, lower case and once each. -/
def connectorSlugs (lower : String → String) (seen : List String) :
    List Json → Except ProjectError (List String)
  | [] => .ok seen
  | .str item :: rest =>
      let slug := lower (Text.strip item)
      if slug = "" ∨ 64 < slug.length then
        .error (.projectInvalidRequest "default_connector_allowlist_invalid_entry")
      else if slug ∈ seen then connectorSlugs lower seen rest
      else connectorSlugs lower (seen ++ [slug]) rest
  | _ :: _ => .error (.projectInvalidRequest "default_connector_allowlist_invalid_entry")

def validateConnectorAllowlist (lower : String → String) :
    Json → Except ProjectError (Option (List String))
  | .null => .ok none
  | .arr items =>
      if 64 < items.length then
        .error (.projectInvalidRequest "default_connector_allowlist_too_long")
      else (connectorSlugs lower [] items).map some
  | _ => .error (.projectInvalidRequest "default_connector_allowlist_invalid")

def validateName : Option Json → Except ProjectError String
  | some (.str name) =>
      if Text.strip name = "" then .error (.projectInvalidRequest "name_required")
      else if 80 < (Text.strip name).length then .error (.projectInvalidRequest "name_too_long")
      else .ok (Text.strip name)
  | _ => .error (.projectInvalidRequest "name_required")

def validateDescription : Json → Except ProjectError String
  | .str description =>
      if 400 < description.length then .error (.projectInvalidRequest "description_too_long")
      else .ok description
  | _ => .error (.projectInvalidRequest "description_invalid")

/-- A hue; truth values are numbers here. -/
def validateHue : Json → Except ProjectError Int
  | .int hue =>
      if 0 ≤ hue ∧ hue ≤ 359 then .ok hue
      else .error (.projectInvalidRequest "color_hue_invalid")
  | .bool hue => .ok (if hue then 1 else 0)
  | _ => .error (.projectInvalidRequest "color_hue_invalid")

def validateStatus : Json → Except ProjectError ProjectStatus
  | .str "active" => .ok .active
  | .str "archived" => .ok .archived
  | .arr _ | .obj _ => .error .typeError -- a set cannot be asked for these
  | _ => .error (.projectInvalidRequest "status_invalid")

/-- The icon of a new project; a missing or empty one is the default. -/
def validateNewIcon : Option Json → Except ProjectError String
  | none | some .null => .ok "📁"
  | some (.str icon) =>
      if 16 < icon.length then .error (.projectInvalidRequest "icon_too_long")
      else .ok (if icon = "" then "📁" else icon)
  | _ => .error (.projectInvalidRequest "icon_invalid")

def validateIcon : Json → Except ProjectError String
  | .str icon =>
      if icon = "" then .error (.projectInvalidRequest "icon_invalid")
      else if 16 < icon.length then .error (.projectInvalidRequest "icon_too_long")
      else .ok icon
  | _ => .error (.projectInvalidRequest "icon_invalid")

structure ValidatedProject where
  name : String
  description : String
  iconEmoji : String
  colorHue : Int
  defaultConnectorAllowlist : Option (List String)

structure ProjectUpdates where
  name : Option String
  description : Option String
  iconEmoji : Option String
  colorHue : Option Int
  status : Option ProjectStatus
  defaultConnectorAllowlist : Option (Option (List String))

/-- Check a value that is there. -/
def checkField {α : Type} (validate : Json → Except ProjectError α) :
    Option Json → Except ProjectError (Option α)
  | none => .ok none
  | some value => (validate value).map some

section Service
variable (lower : String → String)

def validateCreatePayload : Json → Except ProjectError ValidatedProject
  | .obj payload => do
      let name ← validateName (Json.lookup payload "name")
      let description ← validateDescription ((Json.lookup payload "description").getD (.str ""))
      let iconEmoji ← validateNewIcon (Json.lookup payload "icon_emoji")
      let colorHue ← validateHue ((Json.lookup payload "color_hue").getD (.int 210))
      let allowlist ← checkField (validateConnectorAllowlist lower)
        (Json.lookup payload "default_connector_allowlist")
      return ⟨name, description, iconEmoji, colorHue, allowlist.join⟩
  | _ => .error (.projectInvalidRequest "invalid_payload")

/-- The changes a patch asks for; an explicit missing description is an empty one. -/
def validatePatchPayload (patch : List (String × Json)) : Except ProjectError ProjectUpdates := do
  let name ← checkField (fun value => validateName (some value)) (Json.lookup patch "name")
  let description ← checkField
    (fun value => validateDescription (if value = .null then .str "" else value))
    (Json.lookup patch "description")
  let iconEmoji ← checkField validateIcon (Json.lookup patch "icon_emoji")
  let colorHue ← checkField validateHue (Json.lookup patch "color_hue")
  let status ← checkField validateStatus (Json.lookup patch "status")
  let allowlist ← checkField (validateConnectorAllowlist lower)
    (Json.lookup patch "default_connector_allowlist")
  return ⟨name, description, iconEmoji, colorHue, status, allowlist⟩

/-! ### Access -/

/-- What a call is made with. -/
structure ProjectCaller where
  tenantId : String
  userId : String
  roles : List String

/-- What a call finds around it. -/
structure ProjectContext where
  now : Int
  isUser : String → String → Bool
  newProjectId : String

variable (t : ProjectTables) (caller : ProjectCaller)

def viewerRole (record : ProjectRecord) (userId : String) : Option ProjectRole :=
  if record.ownerUserId = userId then some .owner
  else (t.getMembership record.tenantId record.id userId).map (·.role)

/-- The project, for a caller who may read it. -/
def requireRead (projectId : String) : Except ProjectError ProjectRecord :=
  match t.getProject caller.tenantId projectId false with
  | none => .error (.projectNotFound projectId)
  | some record =>
      if viewerRole t record caller.userId = none ∧ isAdmin caller.roles = false then
        .error (.projectNotFound projectId)
      else .ok record

/-- The project, for a caller who may write it. -/
def requireOwner (projectId : String) : Except ProjectError ProjectRecord := do
  let existing ← requireRead t caller projectId
  if existing.ownerUserId ≠ caller.userId then
    throw (.projectForbidden projectId)
  return existing

/-! ### Lifecycle -/

inductive ProjectResult
  | project (record : ProjectRecord)
  | membership (record : ProjectMembershipRecord)
  | done

variable (store : ProjectsStore) (ctx : ProjectContext)

def createChecks (payload : Json) : Except ProjectError ValidatedProject := do
  let validated ← validateCreatePayload lower payload
  if (store.getProjectByName lower t caller.tenantId validated.name).isSome then
    throw (.projectConflict "duplicate_name")
  return validated

def newProject (validated : ValidatedProject) : ProjectRecord where
  id := ctx.newProjectId
  tenantId := caller.tenantId
  ownerUserId := caller.userId
  name := validated.name
  description := validated.description
  iconEmoji := validated.iconEmoji
  colorHue := validated.colorHue
  status := .active
  archivedAt := none
  lastActivityAt := none
  createdAt := ctx.now
  updatedAt := ctx.now
  deletedAt := none
  defaultConnectorAllowlist := validated.defaultConnectorAllowlist

def createProject (payload : Json) : Except ProjectError ProjectResult × ProjectTables :=
  match createChecks lower t caller store payload with
  | .error e => (.error e, t)
  | .ok validated =>
      let stored := newProject caller ctx validated
      (.ok (.project stored), store.insertMembership (t.insertProject stored)
        ⟨stored.id, caller.userId, caller.tenantId, .owner, ctx.now, caller.userId⟩)

/-- The record after a patch, with the time of archiving set by its status. -/
def patched (existing : ProjectRecord) (updates : ProjectUpdates) : ProjectRecord :=
  let newRecord := { existing with
    name := updates.name.getD existing.name
    description := updates.description.getD existing.description
    iconEmoji := updates.iconEmoji.getD existing.iconEmoji
    colorHue := updates.colorHue.getD existing.colorHue
    status := updates.status.getD existing.status
    defaultConnectorAllowlist :=
      updates.defaultConnectorAllowlist.getD existing.defaultConnectorAllowlist
    updatedAt := ctx.now }
  if existing.status = newRecord.status then newRecord
  else
    match newRecord.status with
    | .archived => { newRecord with archivedAt := some ctx.now }
    | .active => { newRecord with archivedAt := none }

def updateChecks (projectId : String) (patch : List (String × Json)) :
    Except ProjectError (ProjectRecord × ProjectUpdates) := do
  let existing ← requireOwner t caller projectId
  if existing.status = .archived ∧ Json.lookup patch "status" ≠ some (.str "active") then
    throw (.projectConflict "project_archived")
  let updates ← validatePatchPayload lower patch
  if updates.name.any fun newName => lower newName ≠ lower existing.name &&
      (store.getProjectByName lower t caller.tenantId newName).any (·.id ≠ existing.id) then
    throw (.projectConflict "duplicate_name")
  return (existing, updates)

def updateProject (projectId : String) (patch : List (String × Json)) :
    Except ProjectError ProjectResult × ProjectTables :=
  match updateChecks lower t caller store projectId patch with
  | .error e => (.error e, t)
  | .ok (existing, updates) =>
      let newRecord := patched ctx existing updates
      (.ok (.project newRecord), store.updateProject t newRecord)

def deleteProject (projectId : String) : Except ProjectError ProjectResult × ProjectTables :=
  match requireOwner t caller projectId with
  | .error e => (.error e, t)
  | .ok _ => (.ok .done, store.softDeleteProject t caller.tenantId projectId ctx.now)

/-- The project, deleted or not, for its owner; others do not learn of it. -/
def restoreChecks (projectId : String) : Except ProjectError ProjectRecord :=
  match t.getProject caller.tenantId projectId true with
  | none => .error (.projectNotFound projectId)
  | some existing =>
      if existing.ownerUserId ≠ caller.userId then .error (.projectNotFound projectId)
      else .ok existing

def restoreProject (projectId : String) : Except ProjectError ProjectResult × ProjectTables :=
  match restoreChecks t caller projectId with
  | .error e => (.error e, t)
  | .ok existing =>
      if existing.deletedAt = none then (.ok (.project existing), t)
      else
        let restored := { existing with deletedAt := none, updatedAt := ctx.now }
        (.ok (.project restored), store.updateProject t restored)

/-! ### Members -/

/-- A role that may be given to a member. -/
def memberRole : String → Except ProjectError ProjectRole
  | "editor" => .ok .editor
  | "viewer" => .ok .viewer
  | _ => .error (.projectInvalidRequest "role_invalid")

def addMemberChecks (projectId targetUserId role : String) : Except ProjectError ProjectRole := do
  let role ← memberRole role
  let existing ← requireOwner t caller projectId
  if existing.status = .archived then
    throw (.projectConflict "project_archived")
  if ctx.isUser caller.tenantId targetUserId = false then
    throw (.projectInvalidRequest "cross_tenant_user")
  if (t.getMembership caller.tenantId projectId targetUserId).isSome then
    throw (.projectConflict "membership_exists")
  if maxMembersPerProject ≤ (t.listMembershipsForProject caller.tenantId projectId
      (maxMembersPerProject + 1)).length then
    throw (.projectConflict "member_cap_exceeded")
  return role

def addMember (projectId targetUserId role : String) :
    Except ProjectError ProjectResult × ProjectTables :=
  match addMemberChecks t caller ctx projectId targetUserId role with
  | .error e => (.error e, t)
  | .ok role =>
      let record : ProjectMembershipRecord :=
        ⟨projectId, targetUserId, caller.tenantId, role, ctx.now, caller.userId⟩
      (.ok (.membership record), store.insertMembership t record)

def removeMemberChecks (projectId targetUserId : String) : Except ProjectError Unit := do
  let existing ← requireRead t caller projectId
  if targetUserId ≠ caller.userId ∧ existing.ownerUserId ≠ caller.userId then
    throw (.projectForbidden projectId)
  if targetUserId = existing.ownerUserId then
    throw (.projectConflict "owner_cannot_be_removed")
  if t.getMembership caller.tenantId projectId targetUserId = none then
    throw (.projectNotFound projectId)
  return ()

def removeMember (projectId targetUserId : String) :
    Except ProjectError ProjectResult × ProjectTables :=
  match removeMemberChecks t caller projectId targetUserId with
  | .error e => (.error e, t)
  | .ok _ => (.ok .done, t.deleteMembership caller.tenantId projectId targetUserId)

def changeRoleChecks (projectId targetUserId role : String) : Except ProjectError ProjectRole := do
  let role ← memberRole role
  let existing ← requireOwner t caller projectId
  if targetUserId = existing.ownerUserId then
    throw (.projectConflict "owner_role_via_transfer_only")
  if t.getMembership caller.tenantId projectId targetUserId = none then
    throw (.projectNotFound projectId)
  return role

def changeMemberRole (projectId targetUserId role : String) :
    Except ProjectError ProjectResult × ProjectTables :=
  match changeRoleChecks t caller projectId targetUserId role with
  | .error e => (.error e, t)
  | .ok role =>
      match t.updateMembershipRole caller.tenantId projectId targetUserId role with
      | (none, t') => (.error (.projectNotFound projectId), t')
      | (some updated, t') => (.ok (.membership updated), t')

/-! ### Transfer of ownership -/

/-- The role the previous owner is left with, if any. -/
def demotionTarget : String → Except ProjectError (Option ProjectRole)
  | "editor" => .ok (some .editor)
  | "viewer" => .ok (some .viewer)
  | "none" => .ok none
  | _ => .error (.projectInvalidRequest "previous_owner_new_role_invalid")

/-- The project that is transferred; an admin who forces it need not own it. -/
def transferable (adminForce : Bool) (projectId : String) : Except ProjectError ProjectRecord :=
  if adminForce then
    match t.getProject caller.tenantId projectId false with
    | none => .error (.projectNotFound projectId)
    | some existing => .ok existing
  else requireOwner t caller projectId

def transferChecks (adminForce : Bool) (projectId newOwnerUserId previousOwnerNewRole : String) :
    Except ProjectError (ProjectRecord × Option ProjectRole) := do
  let target ← demotionTarget previousOwnerNewRole
  let existing ← transferable t caller adminForce projectId
  if existing.status = .archived then
    throw (.projectConflict "project_archived")
  if newOwnerUserId = existing.ownerUserId then
    throw (.projectInvalidRequest "new_owner_is_current_owner")
  if t.getMembership caller.tenantId projectId newOwnerUserId = none then
    throw (.projectInvalidRequest "new_owner_not_member")
  return (existing, target)

/-- The previous owner loses the owner's role, or leaves the project. -/
def demoteOwner (projectId oldOwnerUserId : String) : Option ProjectRole → ProjectTables
  | none => t.deleteMembership caller.tenantId projectId oldOwnerUserId
  | some role => (t.updateMembershipRole caller.tenantId projectId oldOwnerUserId role).2

def doTransfer (adminForce : Bool) (projectId newOwnerUserId previousOwnerNewRole : String) :
    Except ProjectError ProjectResult × ProjectTables :=
  match transferChecks t caller adminForce projectId newOwnerUserId previousOwnerNewRole with
  | .error e => (.error e, t)
  | .ok (existing, target) =>
      let demoted := demoteOwner t caller projectId existing.ownerUserId target
      let promoted :=
        (demoted.updateMembershipRole caller.tenantId projectId newOwnerUserId .owner).2
      let updatedRecord := { existing with ownerUserId := newOwnerUserId, updatedAt := ctx.now }
      (.ok (.project updatedRecord), store.updateProject promoted updatedRecord)

def transferOwnership (projectId newOwnerUserId previousOwnerNewRole : String) :
    Except ProjectError ProjectResult × ProjectTables :=
  doTransfer t caller store ctx false projectId newOwnerUserId previousOwnerNewRole

def forceTransferOwnership (projectId newOwnerUserId previousOwnerNewRole : String) :
    Except ProjectError ProjectResult × ProjectTables :=
  if isAdmin caller.roles then
    doTransfer t caller store ctx true projectId newOwnerUserId previousOwnerNewRole
  else (.error (.projectForbidden "admin_required"), t)

end Service

end CopilotRuntime.Projects
