import CopilotRuntime.Foundation.Dict
import Mathlib.Data.List.Infix
import Mathlib.Data.List.Sort
import Mathlib.Logic.Function.Basic

/-!
# The undo journal of host writes

Before a host write, edit or deletion lands, the journal of the run records
what was at the path. Reverting a selection restores, for each path, the
content its oldest selected record found there.

## Implementation notes

A path is the list of its segments and names one regular file; symbolic links
are left out. Every worker attempt and every approval resume builds a journal
of its own, with its own counter, over one store. What the backend makes of an
operation is part of the call. The store itself never fails.
-/

namespace CopilotRuntime.Desktop

open Foundation

/-- The segments of an absolute path. -/
abbrev HostPath := List String

structure HostFile where
  data : List UInt8
  mode : Nat
  deriving DecidableEq

/-- The regular files and the directories of the user's disk. -/
structure Disk where
  files : HostPath → Option HostFile
  dirs : HostPath → Bool

namespace Disk

/-- The directories a path lies in. -/
def ancestors (path : HostPath) : List HostPath := path.inits.filter (· ≠ path)

theorem mem_ancestors {path q : HostPath} : q ∈ ancestors path ↔ q <+: path ∧ q ≠ path := by
  simp [ancestors, List.mem_inits]

/-- Some directory of the path is a regular file. -/
def blocked (d : Disk) (path : HostPath) : Bool := (ancestors path).any fun q => (d.files q).isSome

/-- Put a file, with the directories it lies in. -/
def put (d : Disk) (path : HostPath) (file : HostFile) : Disk where
  files := Function.update d.files path (some file)
  dirs q := d.dirs q || (ancestors path).contains q

def unlink (d : Disk) (path : HostPath) : Disk :=
  { d with files := Function.update d.files path none }

/-- No file is a directory, and a file lies in directories. -/
def WellFormed (d : Disk) : Prop :=
  ∀ path file, d.files path = some file →
    d.dirs path = false ∧ ∀ q ∈ ancestors path, d.dirs q = true

end Disk

/-- What a backend operation on a path does; a failed one changes nothing. -/
inductive HostOp
  | write (result : Option HostFile)
  | delete (done : Bool)
  deriving DecidableEq

def HostOp.deleting : HostOp → Bool
  | .write _ => false
  | .delete _ => true

/-- A file can be put at the path: no directory is there and no file on the way. -/
def Disk.admits (d : Disk) (path : HostPath) : Bool := !d.dirs path && !d.blocked path

def Disk.perform (d : Disk) (path : HostPath) : HostOp → Disk
  | .write (some file) => if d.admits path then d.put path file else d
  | .delete true => d.unlink path
  | .write none | .delete false => d

/-- What the agent's operation did to a path that the journal must undo. -/
inductive HostWriteKind
  | created | modified | deleted
  deriving DecidableEq

/-- One captured pre-image, addressable down to a single tool call. -/
structure HostWriteRecord where
  entryId : String
  orgId : String
  conversationId : String
  runId : String
  toolCallId : Option String
  sequence : Nat
  path : HostPath
  authorizedRoot : HostPath
  kind : HostWriteKind
  priorSha256 : Option String
  priorSize : Nat
  priorMode : Option Nat
  capturedAt : Nat

/-- An honest record without a digest reads as changed, not revertible. -/
def HostWriteRecord.revertible (r : HostWriteRecord) : Bool :=
  r.kind = .created || r.priorSha256.isSome

/-- The durable side of the journal: content-addressed blobs and appended records. -/
structure HostWriteJournalStore where
  blobs : Dict String (List UInt8)
  rows : List HostWriteRecord

namespace HostWriteJournalStore

variable (sha256 : List UInt8 → String)

/-- Identical bytes are stored once. -/
def putBlob (s : HostWriteJournalStore) (data : List UInt8) : HostWriteJournalStore :=
  match s.blobs.get? (sha256 data) with
  | some _ => s
  | none => { s with blobs := s.blobs.set (sha256 data) data }

/-- The bytes of a digest, verified against it. -/
def getBlob (s : HostWriteJournalStore) (digest : String) : Option (List UInt8) :=
  (s.blobs.get? digest).filter fun data => sha256 data = digest

def append (s : HostWriteJournalStore) (record : HostWriteRecord) : HostWriteJournalStore :=
  { s with rows := s.rows ++ [record] }

/-- The records of one run, in the order of their numbers. -/
def recordsForRun (s : HostWriteJournalStore) (orgId runId : String) : List HostWriteRecord :=
  (s.rows.filter fun r => r.orgId = orgId ∧ r.runId = runId).insertionSort
    fun a b => a.sequence ≤ b.sequence

end HostWriteJournalStore

/-- The run a journal is bound to. -/
structure JournalRun where
  orgId : String
  conversationId : String
  runId : String

def maxCaptureBytes : Nat := 8 * 1024 * 1024

/-- One admitted host operation and the journal instance that captures it. -/
structure HostCall where
  journal : Nat
  toolCallId : Option String
  path : HostPath
  root : HostPath
  op : HostOp
  entryId : String
  capturedAt : Nat

/-- The disk, the journal store, and the counter of each journal instance. -/
structure JournalWorld where
  disk : Disk
  store : HostWriteJournalStore
  sequences : Nat → Nat

/-- The path is the root or lies beneath it, segment by segment. -/
def pathWithin (path root : HostPath) : Bool := !path.contains ".." && root.isPrefixOf path

section Capture
variable (sha256 : List UInt8 → String) (run : JournalRun)

/-- The next record of a journal instance. -/
def nextRecord (w : JournalWorld) (call : HostCall) (kind : HostWriteKind)
    (priorSha256 : Option String) (priorSize : Nat) (priorMode : Option Nat) :
    HostWriteRecord where
  entryId := call.entryId
  orgId := run.orgId
  conversationId := run.conversationId
  runId := run.runId
  toolCallId := call.toolCallId
  sequence := w.sequences call.journal + 1
  path := call.path
  authorizedRoot := call.root
  kind
  priorSha256
  priorSize
  priorMode
  capturedAt := call.capturedAt

def appendRecord (w : JournalWorld) (call : HostCall) (kind : HostWriteKind)
    (priorSha256 : Option String) (priorSize : Nat) (priorMode : Option Nat) : JournalWorld where
  disk := w.disk
  store := w.store.append (nextRecord run w call kind priorSha256 priorSize priorMode)
  sequences := Function.update w.sequences call.journal (w.sequences call.journal + 1)

/-- Record what is at the path before the operation lands. -/
def capture (w : JournalWorld) (call : HostCall) : JournalWorld :=
  if w.disk.dirs call.path then w
  else match w.disk.files call.path with
    | none =>
        if call.op.deleting then w else appendRecord run w call .created none 0 none
    | some file =>
        let kind : HostWriteKind := if call.op.deleting then .deleted else .modified
        if maxCaptureBytes < file.data.length then
          appendRecord run w call kind none file.data.length none
        else
          appendRecord run { w with store := w.store.putBlob sha256 file.data } call kind
            (some (sha256 file.data)) file.data.length (some file.mode)

/-- The floor captures an admitted operation and then delegates it. -/
def performCall (w : JournalWorld) (call : HostCall) : JournalWorld :=
  let captured := capture sha256 run w call
  { captured with disk := captured.disk.perform call.path call.op }

/-- The operations of a run, one after another. -/
def performAll (w : JournalWorld) (calls : List HostCall) : JournalWorld :=
  calls.foldl (performCall sha256 run) w

end Capture

inductive RevertStatus
  | restored | removed | notRevertible | refused | failed
  deriving DecidableEq

namespace HostWriteReverter

/-- Keep the record with the smallest number for each path. -/
def keepOldest (oldest : Dict HostPath HostWriteRecord) (record : HostWriteRecord) :
    Dict HostPath HostWriteRecord :=
  match oldest.get? record.path with
  | none => oldest.set record.path record
  | some current =>
      if record.sequence < current.sequence then oldest.set record.path record else oldest

/-- The oldest record of each path, narrowed to one tool call when asked. -/
def select (records : List HostWriteRecord) (toolCallId : Option String) : List HostWriteRecord :=
  let narrowed := records.filter fun r => toolCallId.all fun id => r.toolCallId = some id
  (narrowed.foldl keepOldest Dict.empty).values.insertionSort fun a b => a.sequence ≤ b.sequence

variable (sha256 : List UInt8 → String)

/-- Put the pre-image back, checking its digest. -/
def restore (store : HostWriteJournalStore) (d : Disk) (r : HostWriteRecord) :
    RevertStatus × Disk :=
  match r.priorSha256.bind (store.getBlob sha256) with
  | none => (.failed, d)
  | some data =>
      if d.admits r.path then (.restored, d.put r.path ⟨data, r.priorMode.getD 0⟩)
      else (.failed, d)

/-- Undo one record, unless its path has left the root that admitted it. -/
def revertOne (store : HostWriteJournalStore) (d : Disk) (r : HostWriteRecord) :
    RevertStatus × Disk :=
  if !pathWithin r.path r.authorizedRoot then (.refused, d)
  else if !r.revertible then (.notRevertible, d)
  else if r.kind = .created then
    if d.admits r.path then (.removed, d.unlink r.path) else (.failed, d)
  else restore sha256 store d r

/-- The disk after the selected records were reverted in turn. -/
def revert (store : HostWriteJournalStore) (d : Disk) (records : List HostWriteRecord) : Disk :=
  records.foldl (fun d r => (revertOne sha256 store d r).2) d

/-- The disk after the whole run was reverted. -/
def revertRun (run : JournalRun) (w : JournalWorld) : Disk :=
  revert sha256 w.store w.disk (select (w.store.recordsForRun run.orgId run.runId) none)

end HostWriteReverter

end CopilotRuntime.Desktop
