import CopilotRuntime.Foundation.Calendar
import CopilotRuntime.Foundation.Keyset
import CopilotRuntime.Foundation.Table
import Mathlib.Data.Prod.Lex

/-!
# Listing conversations

The conversations of a user, newest first and page by page, as the store in memory
lists them and as the file store does from its index.

## Implementation notes

The index compares the texts of times and leaves the order of equal texts open, so a
listing of the file store is a relation. Every caller asks for a bounded number of rows
that is not negative.
-/

namespace CopilotRuntime.Conversations

open Foundation

inductive ConversationStatus
  | active
  | archived
  deriving DecidableEq

inductive ConversationBucket
  | pinned
  | archived
  | recent
  deriving DecidableEq

structure ConversationRecord where
  conversationId : String
  orgId : String
  userId : String
  status : ConversationStatus
  updatedAt : Datetime
  archivedAt : Option Datetime
  projectId : Option String
  deletedAt : Option Datetime
  pinned : Bool

/-- The conversations of a store by their id. -/
abbrev ConversationTable := Table ConversationRecord.conversationId

def isArchived (record : ConversationRecord) : Bool :=
  record.status = .archived || record.archivedAt.isSome

def matchesConversationBucket (record : ConversationRecord) : ConversationBucket → Bool
  | .archived => isArchived record
  | .pinned => record.pinned && !isArchived record
  | .recent => !record.pinned && !isArchived record

/-- What a page is sorted by. -/
def ConversationRecord.key (record : ConversationRecord) : Int ×ₗ String :=
  toLex (record.updatedAt.instant, record.conversationId)

/-- What the index sorts by. -/
def ConversationRecord.updatedText (record : ConversationRecord) : String :=
  record.updatedAt.isoformat

/-- The arguments of a listing. -/
structure ListConversations where
  orgId : String
  userId : String
  limit : Nat
  includeArchived : Bool := false
  includeDeleted : Bool := false
  projectId : Option String := none
  bucket : Option ConversationBucket := none
  beforeUpdatedAt : Option Datetime := none
  beforeConversationId : Option String := none

variable (q : ListConversations)

/-- The key below which a page starts, if both of its parts are given. -/
def ListConversations.boundary : Option (Int ×ₗ String) :=
  match q.beforeUpdatedAt, q.beforeConversationId with
  | some updatedAt, some conversationId => some (toLex (updatedAt.instant, conversationId))
  | _, _ => none

/-- The rows of the caller, and of the project if one is named. -/
def inScope (record : ConversationRecord) : Bool :=
  record.orgId = q.orgId && record.userId = q.userId &&
    q.projectId.all fun projectId => record.projectId = some projectId

/-- Newest first; `xs.sort` of distinct keys. -/
def sorted (records : List ConversationRecord) : List ConversationRecord :=
  records.insertionSort fun a b => b.key ≤ a.key

/-- The first rows of a page below its boundary. -/
def page (records : List ConversationRecord) : List ConversationRecord :=
  (Keyset.after ConversationRecord.key (sorted records) q.boundary).take q.limit

namespace InMemoryRuntimeApiStore

def isListed (record : ConversationRecord) : Bool :=
  inScope q record &&
    match q.bucket with
    | some bucket => record.deletedAt.isNone && matchesConversationBucket record bucket
    | none =>
        (q.includeArchived || record.status ≠ .archived) &&
          (q.includeDeleted || record.deletedAt.isNone)

def listConversations (rows : List ConversationRecord) : List ConversationRecord :=
  page q (rows.filter (isListed q))

end InMemoryRuntimeApiStore

namespace CatalogIndex

/-- What the index is asked for. -/
structure Query where
  limit : Nat
  includeArchived : Bool
  includeDeleted : Bool

def isSelected (c : Query) (record : ConversationRecord) : Bool :=
  inScope q record && (c.includeArchived || record.status ≠ .archived) &&
    (c.includeDeleted || record.deletedAt.isNone)

/-- The index returns the first rows of some order by descending text. -/
def Lists (c : Query) (rows listed : List ConversationRecord) : Prop :=
  ∃ ordered, Keyset.Arrangement ConversationRecord.updatedText (rows.filter (isSelected q c)) ordered ∧
    listed = ordered.take c.limit

end CatalogIndex

namespace FileRuntimeApiStore

def bucketScanCeiling : Nat := 10000

def keysetMode : Bool := q.bucket.isSome || q.boundary.isSome

/-- How the index is asked when a section or a boundary is given. -/
def scanQuery : CatalogIndex.Query where
  limit := bucketScanCeiling
  includeArchived := true
  includeDeleted := if q.bucket.isNone then q.includeDeleted else false

def firstPageQuery : CatalogIndex.Query where
  limit := q.limit
  includeArchived := q.includeArchived
  includeDeleted := q.includeDeleted

def inBucket (record : ConversationRecord) : Bool :=
  q.bucket.all fun bucket => record.deletedAt.isNone && matchesConversationBucket record bucket

/-- The listings the store can return. -/
def Lists (rows listed : List ConversationRecord) : Prop :=
  if keysetMode q then
    ∃ scanned, CatalogIndex.Lists q (scanQuery q) rows scanned ∧
      listed = page q (scanned.filter (inBucket q))
  else CatalogIndex.Lists q (firstPageQuery q) rows listed

end FileRuntimeApiStore

end CopilotRuntime.Conversations
