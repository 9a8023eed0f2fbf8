import CopilotRuntime.Projects.Service
import CopilotRuntime.Foundation.Paging

/-!
# Listing projects

The store lists the projects of a tenant that pass the filters of a query, in
the order it asks for and page by page. The service shows a caller who is no
admin a page of them, joined with projects the caller is a member of.

## Implementation notes

The cursor of a page is the offset of the next one, written in decimal. Lower
case and the reading of a number are parameters; a number that was written is
read back. Rollup counts are left out of what a row shows.
-/

namespace CopilotRuntime.Projects

open Foundation

/-- The rules of text that a listing rests on. -/
structure TextRules where
  lower : String → String
  readInt : String → Option Int
  readInt_toString : ∀ n : Nat, readInt (toString n) = some (n : Int)

/-- The offset of the page a cursor asks for; one that is no number asks for the first page. -/
def decodeCursor (rules : TextRules) : Option String → Nat
  | none => 0
  | some cursor => ((rules.readInt cursor).getD 0).toNat

/-! ### The order of a listing -/

/-- The time before all others. -/
def datetimeMin : Int := -62135596800000000

def sortDescending (sort : String) : Bool := ":desc".toList.isSuffixOf sort.toList

/-- Whether a project sorts before another by the field that is asked for, and then by id. -/
def sortsBefore (rules : TextRules) (sort : String) (a b : ProjectRecord) : Prop :=
  match String.ofList (sort.toList.takeWhile fun c => c ≠ ':') with
  | "name" => toLex (rules.lower a.name, a.id) ≤ toLex (rules.lower b.name, b.id)
  | "created_at" => toLex (a.createdAt, a.id) ≤ toLex (b.createdAt, b.id)
  | "last_activity_at" =>
      toLex (a.lastActivityAt.getD datetimeMin, a.id) ≤
        toLex (b.lastActivityAt.getD datetimeMin, b.id)
  | _ => toLex (a.updatedAt, a.id) ≤ toLex (b.updatedAt, b.id)

instance (rules : TextRules) (sort : String) : DecidableRel (sortsBefore rules sort) :=
  fun a b => by
    unfold sortsBefore
    split <;> infer_instance

def sorted (rules : TextRules) (sort : String) (records : List ProjectRecord) :
    List ProjectRecord :=
  if sortDescending sort then records.insertionSort fun a b => sortsBefore rules sort b a
  else records.insertionSort (sortsBefore rules sort)

/-! ### The store -/

def ProjectStatus.text : ProjectStatus → String
  | .active => "active"
  | .archived => "archived"

/-- What a listing of the store is narrowed to. -/
structure ProjectFilter where
  ownerUserId : Option String
  memberUserId : Option String
  statuses : Option (List String)
  q : Option String
  starredByUserId : Option String

namespace InMemoryProjectsStore
variable (rules : TextRules) (t : ProjectTables) (tenantId : String) (filter : ProjectFilter)

def hasMember (projectId userId : String) : Bool :=
  t.memberships.rows.any fun m =>
    m.tenantId = tenantId && m.userId = userId && m.projectId = projectId

def hasStarOf (projectId userId : String) : Bool :=
  t.stars.rows.any fun s => s.tenantId = tenantId && s.userId = userId && s.projectId = projectId

/-- The text that is searched for, if any, appears in the name or the description. -/
def matchesText (record : ProjectRecord) (q : String) : Bool :=
  let normalized := rules.lower (Text.strip q)
  q = "" || normalized = "" ||
    Text.contains (rules.lower (record.name ++ " " ++ record.description)) normalized

def isCandidate (record : ProjectRecord) : Bool :=
  record.tenantId = tenantId && record.deletedAt.isNone &&
    filter.ownerUserId.all (fun owner => record.ownerUserId = owner) &&
    filter.memberUserId.all (hasMember t tenantId record.id) &&
    filter.statuses.all (fun statuses => record.status.text ∈ statuses) &&
    filter.starredByUserId.all (hasStarOf t tenantId record.id) &&
    filter.q.all (matchesText rules record)

/-- All the projects that pass the filters, in order. -/
def candidates (sort : String) : List ProjectRecord :=
  sorted rules sort (t.projects.rows.filter (isCandidate rules t tenantId filter))

/-- A page of the projects, and the cursor of the next page if there is one. -/
def listProjects (sort : String) (limit : Nat) (cursor : Option String) :
    List ProjectRecord × Option String :=
  let all := candidates rules t tenantId filter sort
  let start := decodeCursor rules cursor
  (Paging.slice all limit start,
    if start + limit < all.length then some (toString (start + limit)) else none)

end InMemoryProjectsStore

/-! ### The service -/

/-- What a caller asks a listing for. A page has room for a project. -/
structure ProjectQuery where
  statuses : Option (List String)
  ownerUserId : Option String
  q : Option String
  starred : Bool
  sort : String
  limit : Nat
  limit_pos : 0 < limit

/-- A project as its reader sees it. -/
structure ProjectView where
  record : ProjectRecord
  viewerRole : Option ProjectRole
  viewerStarred : Bool

section Service
variable (rules : TextRules) (t : ProjectTables) (caller : ProjectCaller) (query : ProjectQuery)

def view (record : ProjectRecord) : ProjectView :=
  ⟨record, viewerRole t record caller.userId, t.isStarred caller.tenantId record.id caller.userId⟩

def getProject (projectId : String) : Except ProjectError ProjectView := do
  let record ← requireRead t caller projectId
  return view t caller record

def isMember (projectId : String) : Bool :=
  (t.getMembership caller.tenantId projectId caller.userId).isSome

/-- The filter that both queries of a listing share. -/
def ProjectQuery.filter (memberUserId : Option String) : ProjectFilter where
  ownerUserId := query.ownerUserId
  memberUserId := memberUserId
  statuses := query.statuses
  q := query.q
  starredByUserId := if query.starred then some caller.userId else none

/-- The first projects that the caller is a member of. -/
def memberPage : List ProjectRecord :=
  (InMemoryProjectsStore.listProjects rules t caller.tenantId
    { query.filter caller (some caller.userId) with ownerUserId := none }
    query.sort query.limit none).1

/-- Those of them that a page does not hold and the caller does not own. -/
def memberOnly (page : List ProjectRecord) : List ProjectRecord :=
  (memberPage rules t caller query).filter fun record =>
    !(page.map (·.id)).contains record.id && record.ownerUserId ≠ caller.userId

def joinMemberPage (page : List ProjectRecord) : List ProjectRecord :=
  (page ++ memberOnly rules t caller query page).take query.limit

/-- What a caller is shown of a page of the store. -/
def shownOf (page : List ProjectRecord) : List ProjectRecord :=
  if isAdmin caller.roles then page
  else if query.ownerUserId.isNone then joinMemberPage rules t caller query page
  else
    page.filter fun record =>
      record.ownerUserId = caller.userId || isMember t caller record.id

def listProjects (memberUserId cursor : Option String) :
    Except ProjectError (List ProjectView × Option String) :=
  if !isAdmin caller.roles && memberUserId.any (· ≠ caller.userId) then
    .error (.projectForbidden "cross_user_membership_filter")
  else
    let (page, nextCursor) := InMemoryProjectsStore.listProjects rules t caller.tenantId
      (query.filter caller none) query.sort query.limit cursor
    .ok ((shownOf rules t caller query page).map (view t caller), nextCursor)

/-- The pages a caller is shown by following the cursors from one on. -/
inductive Followed : Option String → List (List ProjectView) → Prop
  | last {cursor : Option String} {rows : List ProjectView}
      (shown : listProjects rules t caller query none cursor = .ok (rows, none)) :
      Followed cursor [rows]
  | next {cursor : Option String} {rows : List ProjectView} {nextCursor : String}
      {pages : List (List ProjectView)}
      (shown : listProjects rules t caller query none cursor = .ok (rows, some nextCursor))
      (rest : Followed (some nextCursor) pages) : Followed cursor (rows :: pages)

end Service

end CopilotRuntime.Projects
