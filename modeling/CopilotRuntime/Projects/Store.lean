import CopilotRuntime.Foundation.Table
import CopilotRuntime.Foundation.Text
import Mathlib.Data.List.Sort
import Mathlib.Data.Prod.Lex
import Mathlib.Data.String.Basic

/-!
# Stores of projects

A project, its members and the stars users gave it are rows of three tables. The
in-memory store and the database store read them alike and differ in how they
look up a name, update a project, delete one and insert a member.

## Implementation notes

The database store is read as the row updates that its statements state; indexes
of its schema that would refuse some of them are left out. Lower case is a
parameter, the same for the program and the database. Times are numbers of
microseconds.
-/

namespace CopilotRuntime.Projects

open Foundation

inductive ProjectStatus
  | active | archived
  deriving DecidableEq

inductive ProjectRole
  | owner | editor | viewer
  deriving DecidableEq

structure ProjectRecord where
  id : String
  tenantId : String
  ownerUserId : String
  name : String
  description : String
  iconEmoji : String
  colorHue : Int
  status : ProjectStatus
  archivedAt : Option Int
  lastActivityAt : Option Int
  createdAt : Int
  updatedAt : Int
  deletedAt : Option Int
  defaultConnectorAllowlist : Option (List String)
  deriving DecidableEq

structure ProjectMembershipRecord where
  projectId : String
  userId : String
  tenantId : String
  role : ProjectRole
  addedAt : Int
  addedBy : String

structure ProjectStarRecord where
  tenantId : String
  userId : String
  projectId : String
  createdAt : Int

def ProjectMembershipRecord.key (m : ProjectMembershipRecord) : String × String :=
  (m.projectId, m.userId)

def ProjectStarRecord.key (s : ProjectStarRecord) : String × String × String :=
  (s.tenantId, s.userId, s.projectId)

structure ProjectTables where
  projects : Table ProjectRecord.id
  memberships : Table ProjectMembershipRecord.key
  stars : Table ProjectStarRecord.key

namespace ProjectTables

def empty : ProjectTables := ⟨.empty, .empty, .empty⟩

variable (t : ProjectTables)

/-! ### What both stores do alike -/

def insertProject (record : ProjectRecord) : ProjectTables :=
  { t with projects := t.projects.put record }

/-- The project of a tenant; a deleted one only if it is asked for. -/
def getProject (tenantId projectId : String) (includeDeleted : Bool) : Option ProjectRecord :=
  (t.projects.find? projectId).filter fun record =>
    record.tenantId = tenantId && (record.deletedAt.isNone || includeDeleted)

def getMembership (tenantId projectId userId : String) : Option ProjectMembershipRecord :=
  (t.memberships.find? (projectId, userId)).filter fun record => record.tenantId = tenantId

/-- Members are listed in the order they were added, and then by user. -/
def addedBefore (a b : ProjectMembershipRecord) : Prop :=
  toLex (a.addedAt, a.userId) ≤ toLex (b.addedAt, b.userId)

instance : DecidableRel addedBefore := fun a b =>
  inferInstanceAs (Decidable (toLex (a.addedAt, a.userId) ≤ toLex (b.addedAt, b.userId)))

/-- The first page of the members of a project. -/
def listMembershipsForProject (tenantId projectId : String) (limit : Nat) :
    List ProjectMembershipRecord :=
  ((t.memberships.rows.filter fun m => m.tenantId = tenantId && m.projectId = projectId)
    |>.insertionSort addedBefore).take limit

def updateMembershipRole (tenantId projectId userId : String) (role : ProjectRole) :
    Option ProjectMembershipRecord × ProjectTables :=
  match t.getMembership tenantId projectId userId with
  | none => (none, t)
  | some existing =>
      (some { existing with role := role },
        { t with memberships := t.memberships.put { existing with role := role } })

def deleteMembership (tenantId projectId userId : String) : ProjectTables :=
  match t.getMembership tenantId projectId userId with
  | none => t
  | some _ => { t with memberships := t.memberships.delete (projectId, userId) }

def isStarred (tenantId projectId userId : String) : Bool :=
  (t.stars.find? (tenantId, userId, projectId)).isSome

end ProjectTables

/-! ### The two stores -/

/-- The operations in which the stores differ. -/
structure ProjectsStore where
  getProjectByName : (String → String) → ProjectTables → String → String → Option ProjectRecord
  updateProject : ProjectTables → ProjectRecord → ProjectTables
  softDeleteProject : ProjectTables → String → String → Int → ProjectTables
  insertMembership : ProjectTables → ProjectMembershipRecord → ProjectTables

namespace InMemoryProjectsStore

def getProjectByName (lower : String → String) (t : ProjectTables) (tenantId name : String) :
    Option ProjectRecord :=
  t.projects.rows.find? fun record =>
    record.tenantId = tenantId && record.deletedAt.isNone &&
      lower (Text.strip record.name) = lower (Text.strip name)

def updateProject (t : ProjectTables) (record : ProjectRecord) : ProjectTables :=
  { t with projects := t.projects.put record }

def softDeleteProject (t : ProjectTables) (tenantId projectId : String) (now : Int) :
    ProjectTables :=
  match t.projects.find? projectId with
  | none => t
  | some record =>
      if record.tenantId ≠ tenantId || record.deletedAt.isSome then t
      else
        { t with
          projects := t.projects.put { record with deletedAt := some now, updatedAt := now } }

def insertMembership (t : ProjectTables) (record : ProjectMembershipRecord) : ProjectTables :=
  { t with memberships := t.memberships.put record }

def store : ProjectsStore := ⟨getProjectByName, updateProject, softDeleteProject, insertMembership⟩

end InMemoryProjectsStore

namespace PostgresProjectsStore

def getProjectByName (lower : String → String) (t : ProjectTables) (tenantId name : String) :
    Option ProjectRecord :=
  t.projects.rows.find? fun record =>
    record.tenantId = tenantId && lower record.name = lower (Text.strip name) &&
      record.deletedAt.isNone

/-- The statement sets every column but the ids, the owner and the time of creation. -/
def updateProject (t : ProjectTables) (record : ProjectRecord) : ProjectTables :=
  match t.projects.find? record.id with
  | none => t
  | some row =>
      if row.tenantId ≠ record.tenantId then t
      else
        { t with
          projects := t.projects.put { row with
            name := record.name
            description := record.description
            iconEmoji := record.iconEmoji
            colorHue := record.colorHue
            status := record.status
            archivedAt := record.archivedAt
            lastActivityAt := record.lastActivityAt
            updatedAt := record.updatedAt
            deletedAt := record.deletedAt
            defaultConnectorAllowlist := record.defaultConnectorAllowlist } }

def softDeleteProject (t : ProjectTables) (tenantId projectId : String) (now : Int) :
    ProjectTables :=
  match t.projects.find? projectId with
  | none => t
  | some row =>
      if row.tenantId ≠ tenantId then t
      else
        { t with projects := t.projects.put { row with deletedAt := some now, updatedAt := now } }

/-- A member who is there already gets the new role, and who added them. -/
def insertMembership (t : ProjectTables) (record : ProjectMembershipRecord) : ProjectTables :=
  match t.memberships.find? record.key with
  | none => { t with memberships := t.memberships.put record }
  | some row =>
      { t with
        memberships := t.memberships.put { row with
          role := record.role
          addedBy := record.addedBy } }

def store : ProjectsStore := ⟨getProjectByName, updateProject, softDeleteProject, insertMembership⟩

end PostgresProjectsStore

end CopilotRuntime.Projects
