import CopilotRuntime.Workspace.Contracts

/-!
# The mutation engine of the workspace overlay

Every operation compiles a candidate manifest from the current one and leaves
the host alone. The candidate is then projected: what it changes is appended to
the current manifest in one revision, with the stage that was recorded for it.

## Implementation notes

The base workspace, the blob store and the clock are parameters of a call, and
the bytes of a file come with their number.
-/

namespace CopilotRuntime.Workspace

open Foundation

/-- Bytes with their number. -/
structure Body where
  bytes : ByteArray
  length : Nat
  size_bytes : bytes.size = length

def Body.ofText (text : String) : Body := ⟨text.toUTF8, text.toUTF8.size, rfl⟩

structure BlobWritten where
  blobKey : String
  contentDigest : String
  byteSize : Nat

/-- What an operation reads and writes besides the overlay. -/
structure Surroundings where
  unicode : UnicodeForms
  sha256 : ByteArray → String
  stat : String → Except WorkspaceError (Option WorkspaceBaseEntry)
  read : String → Except WorkspaceError Body
  putStream : String → Body → Except WorkspaceError BlobWritten
  openStream : String → Except WorkspaceError Body
  now : Nat
  /-- A stored blob has as many bytes as were sent. -/
  size_putStream : ∀ {digest body written}, putStream digest body = .ok written →
    written.byteSize = body.length

def maxEntries : Nat := 1000

def maxTotalResultBytes : Nat := 250 * 1024 * 1024

def maxFileBytes : Nat := 100 * 1024 * 1024

def contentRefForBlob (blobKey : String) : String := "artifact-blob://sha256/" ++ blobKey

def blobKeyFromContentRef (contentRef : String) : String :=
  String.ofList (contentRef.toList.drop "artifact-blob://sha256/".length)

def mustNotExist : BasePrecondition where
  existence := .mustNotExist

section Planning
variable (s : Surroundings) (m : OverlayManifest)

/-! ### The merged view -/

def mergedEntryExists (path : String) : Except WorkspaceError Bool :=
  match m.entryAt path with
  | some entry => .ok (entry.entryKind ≠ .tombstone)
  | none => do
      let base ← s.stat path
      return base.isSome

def preconditionForBase (path : String) (entry : WorkspaceBaseEntry) :
    Except WorkspaceError BasePrecondition := do
  if entry.entryKind = .file then
    let digest ←
      match entry.contentDigest with
      | some digest => pure digest
      | none => do
          let body ← s.read path
          if maxFileBytes < body.length then
            throw (.limit "Workspace base file exceeds the overlay file limit.")
          pure (s.sha256 body.bytes)
    return {
      existence := .mustExist
      entryKind := some .file
      opaqueGeneration := entry.opaqueGeneration
      contentDigest := some digest
      stableFileId := entry.stableFileId
      byteSize := entry.byteSize
      mtimeNs := entry.mtimeNs }
  else
    return {
      existence := .mustExist
      entryKind := some entry.entryKind
      opaqueGeneration := entry.opaqueGeneration
      stableFileId := entry.stableFileId
      byteSize := entry.byteSize
      mtimeNs := entry.mtimeNs }

/-- The directory a path lies in. -/
def dirname (path : String) : String :=
  String.intercalate "/" (Text.split path '/').dropLast

/-- A tombstone of the path or of a directory above it hides the path. -/
def isHidden (path : String) (ignoreTombstoneFor : Option String) : Nat → Bool
  | 0 => false
  | fuel + 1 =>
      if Text.startsWith path "/workspace/" then
        let hides := (m.entryAt path).any fun entry =>
          entry.entryKind = .tombstone && some path ≠ ignoreTombstoneFor
        hides || isHidden (dirname path) ignoreTombstoneFor fuel
      else false

/-- The bytes of a path. A move without content is read at its source, whose tombstone the move
has left, so the fuel of one read for each entry is not used up. -/
def readBytes (path : String) (ignoreTombstoneFor : Option String) :
    Nat → Except WorkspaceError Body
  | 0 => .error .storage
  | fuel + 1 =>
      let readBase : Except WorkspaceError Body :=
        if isHidden m path ignoreTombstoneFor path.length then .error .notFound
        else do
          match ← s.stat path with
          | none => throw .notFound
          | some base =>
              if base.entryKind ≠ .file then throw .isDirectory
              s.read path
      match m.entryAt path with
      | none => readBase
      | some entry =>
          match entry.entryKind with
          | .tombstone =>
              if some path ≠ ignoreTombstoneFor then .error .notFound else readBase
          | .file =>
              match entry.content with
              | some content => s.openStream (blobKeyFromContentRef content.contentRef)
              | none => .error .notFound
          | .directory => .error .isDirectory
          | .move =>
              match entry.content with
              | some content => s.openStream (blobKeyFromContentRef content.contentRef)
              | none =>
                  match entry.sourceVirtualPath with
                  | none => .error .notFound
                  | some source => readBytes source (some source) fuel

/-! ### Writing a file -/

/-- The bytes of an entry that the limit on bytes counts. -/
def fileBytes (entry : OverlayEntry) : Nat := if entry.entryKind = .file then entry.byteSize else 0

/-- Refuse a write that would leave too many entries or too many bytes in files. -/
def checkLimits (path : String) (byteSize : Nat) : Except WorkspaceError Unit :=
  let current := m.entryAt path
  let entryCount := m.entries.length + if current.isSome then 0 else 1
  if maxEntries < entryCount then
    .error (.limit "Workspace overlay entry limit was exceeded.")
  else
    let referenced := ((m.entries.filter (·.entryKind = .file)).map (·.byteSize)).sum
    let replaced := (current.map fileBytes).getD 0
    if maxTotalResultBytes < referenced - replaced + byteSize then
      .error (.limit "Workspace overlay byte limit was exceeded.")
    else .ok ()

def fileEntry (path : String) (operation : WorkspaceOperation) (baseline : BasePrecondition)
    (written : BlobWritten) (author : String) : OverlayEntry where
  virtualPath := path
  entryKind := .file
  operation := operation
  content := some {
    contentRef := contentRefForBlob written.blobKey
    contentDigest := written.contentDigest
    byteSize := written.byteSize }
  baseline := baseline
  stage := (m.entryAt path).bind (·.stage)
  author := author
  createdAt := s.now
  file_content _ := rfl
  content_carrier _ := .inl rfl

def write (path : String) (content : Body) (author : String) (operation : WorkspaceOperation)
    (baseline : BasePrecondition) : Except WorkspaceError OverlayManifest := do
  if maxFileBytes < content.length then
    throw (.limit "Workspace file exceeds the overlay file limit.")
  checkLimits m path content.length
  let written ← s.putStream (s.sha256 content.bytes) content
  return m.appendRevision [.upsert (fileEntry s m path operation baseline written author)] s.now

def proposeCreate (virtualPath : String) (content : Body) (author : String) :
    Except WorkspaceError OverlayManifest := do
  let path ← normalizeVirtualPath s.unicode virtualPath false
  if ← mergedEntryExists s m path then throw (.overlay "Workspace path already exists.")
  write s m path content author .create mustNotExist

/-- The operation and the base state that a replaced file keeps. -/
def replaceTerms (path : String) :
    Except WorkspaceError (WorkspaceOperation × BasePrecondition) :=
  match m.entryAt path with
  | some existing =>
      match existing.entryKind with
      | .directory => .error .isDirectory
      | .tombstone =>
          .ok (if existing.baseline.existence = .mustNotExist then .create else .replace,
            existing.baseline)
      | .file => .ok (existing.operation, existing.baseline)
      | .move => .ok (existing.operation, existing.baseline)
  | none => do
      match ← s.stat path with
      | none => return (.create, mustNotExist)
      | some base =>
          if base.entryKind = .directory then throw .isDirectory
          return (.replace, ← preconditionForBase s path base)

def proposeReplace (virtualPath : String) (content : Body) (author : String) :
    Except WorkspaceError OverlayManifest := do
  let path ← normalizeVirtualPath s.unicode virtualPath false
  let terms ← replaceTerms s m path
  write s m path content author terms.1 terms.2

/-! ### Editing a file -/

/-- The occurrences of a text, from the left and without overlaps. -/
def countText (sub : List Char) : Nat → List Char → Nat
  | 0, _ => 0
  | _ + 1, [] => 0
  | fuel + 1, c :: rest =>
      if sub.isPrefixOf (c :: rest) then
        countText sub fuel ((c :: rest).drop sub.length) + 1
      else countText sub fuel rest

/-- Replace the first occurrences of a text, at most so many. -/
def replaceText (old new : List Char) : Nat → Nat → List Char → List Char
  | 0, _, text => text
  | _, 0, text => text
  | _ + 1, _ + 1, [] => []
  | fuel + 1, count + 1, c :: rest =>
      if old.isPrefixOf (c :: rest) then
        new ++ replaceText old new fuel count ((c :: rest).drop old.length)
      else c :: replaceText old new fuel (count + 1) rest

/-- The text of a file after an edit. -/
def editedText (path oldString newString : String) (replaceAll : Bool) :
    Except WorkspaceError String := do
  if oldString = "" then throw (.edit "Workspace edit requires a non-empty old string.")
  let body ← readBytes s m path none (m.entries.length + 1)
  match String.fromUTF8? body.bytes with
  | none => throw (.edit "Workspace edit requires a UTF-8 text file.")
  | some current =>
      let text := current.toList
      let occurrences := countText oldString.toList text.length text
      if occurrences = 0 then throw (.edit "Workspace edit string was not found.")
      if 1 < occurrences && !replaceAll then throw (.edit "Workspace edit string is ambiguous.")
      return String.ofList (replaceText oldString.toList newString.toList text.length
        (if replaceAll then occurrences else 1) text)

def proposeEdit (virtualPath oldString newString : String) (replaceAll : Bool)
    (author : String) : Except WorkspaceError OverlayManifest := do
  let path ← normalizeVirtualPath s.unicode virtualPath false
  let updated ← editedText s m path oldString newString replaceAll
  proposeReplace s m path (Body.ofText updated) author

/-! ### Deleting, moving and making directories -/

def tombstone (path : String) (operation : WorkspaceOperation) (baseline : BasePrecondition)
    (author : String) : OverlayEntry where
  virtualPath := path
  entryKind := .tombstone
  operation := operation
  baseline := baseline
  stage := (m.entryAt path).bind (·.stage)
  author := author
  createdAt := s.now
  file_content h := by cases h
  content_carrier h := by cases h

/-- The base state of a path, from its entry or from the base itself. -/
def currentBaseline (path : String) : Except WorkspaceError BasePrecondition :=
  match m.entryAt path with
  | some existing => .ok existing.baseline
  | none => do
      match ← s.stat path with
      | none => throw .notFound
      | some base => preconditionForBase s path base

def proposeDelete (virtualPath author : String) : Except WorkspaceError OverlayManifest := do
  let path ← normalizeVirtualPath s.unicode virtualPath false
  let existing := m.entryAt path
  if existing.any (·.entryKind = .tombstone) then throw .notFound
  if existing.any (·.baseline.existence = .mustNotExist) then
    -- What was created and deleted again leaves nothing to apply.
    return m.appendRevision [.remove path] s.now
  let baseline ← currentBaseline s m path
  return m.appendRevision [.upsert (tombstone s m path .delete baseline author)] s.now

/-- The content that a moved path takes with it: that of a file, but not of a move. -/
def movedContent (source : String) : Option OverlayContent :=
  match m.entryAt source with
  | some entry => if entry.entryKind = .file then entry.content else none
  | none => none

def movedEntry (source destination author : String) : OverlayEntry where
  virtualPath := destination
  entryKind := .move
  operation := .move
  content := movedContent m source
  sourceVirtualPath := some source
  baseline := mustNotExist
  stage := (m.entryAt source).bind (·.stage)
  author := author
  createdAt := s.now
  file_content h := by cases h
  content_carrier _ := .inr rfl

def proposeMove (sourceVirtualPath destinationVirtualPath author : String) :
    Except WorkspaceError OverlayManifest := do
  let source ← normalizeVirtualPath s.unicode sourceVirtualPath false
  let destination ← normalizeVirtualPath s.unicode destinationVirtualPath false
  if source = destination || mountIdForPath source ≠ mountIdForPath destination then
    throw (.overlay "Workspace move must stay within one mount.")
  if !(← mergedEntryExists s m source) then throw .notFound
  if ← mergedEntryExists s m destination then
    throw (.overlay "Workspace move destination already exists.")
  let baseline ← currentBaseline s m source
  return m.appendRevision
    [.upsert (tombstone s m source .move baseline author),
      .upsert (movedEntry s m source destination author)] s.now

def directoryEntry (path author : String) : OverlayEntry where
  virtualPath := path
  entryKind := .directory
  operation := .mkdir
  baseline := mustNotExist
  author := author
  createdAt := s.now
  file_content h := by cases h
  content_carrier h := by cases h

def proposeMkdir (virtualPath author : String) : Except WorkspaceError OverlayManifest := do
  let path ← normalizeVirtualPath s.unicode virtualPath false
  if ← mergedEntryExists s m path then throw (.overlay "Workspace path already exists.")
  return m.appendRevision [.upsert (directoryEntry s path author)] s.now

/-! ### Operations -/

/-- An operation that a model may stage. -/
inductive WorkspaceRequest
  | create (virtualPath : String) (content : Body)
  | replace (virtualPath : String) (content : Body)
  | edit (virtualPath oldString newString : String) (replaceAll : Bool)
  | delete (virtualPath : String)
  | move (sourceVirtualPath destinationVirtualPath : String)
  | mkdir (virtualPath : String)

/-- Compile the candidate manifest of a request. -/
def plan (author : String) : WorkspaceRequest → Except WorkspaceError OverlayManifest
  | .create path content => proposeCreate s m path content author
  | .replace path content => proposeReplace s m path content author
  | .edit path oldString newString replaceAll =>
      proposeEdit s m path oldString newString replaceAll author
  | .delete path => proposeDelete s m path author
  | .move source destination => proposeMove s m source destination author
  | .mkdir path => proposeMkdir s m path author

end Planning

/-! ### Publishing a candidate -/

/-- The entry of a candidate with the stage that was recorded for it. -/
def staged (stage : Option StageBinding) (entry : OverlayEntry) : OverlayEntry :=
  match stage with
  | some binding => { entry with stage := some binding }
  | none => entry

/-- What a candidate changes of a manifest, path by path. -/
def projectedMutations (baseline candidate : OverlayManifest) (stage : Option StageBinding) :
    List OverlayMutation :=
  let paths := ((baseline.entries ++ candidate.entries).map (·.virtualPath)).dedup
  (paths.insertionSort (· ≤ ·)).filterMap fun path =>
    match candidate.entryAt path with
    | none => some (.remove path)
    | some entry =>
        if baseline.entryAt path = some (staged stage entry) then none
        else some (.upsert (staged stage entry))

/-- Publish a candidate over the manifest it was compiled from. -/
def project (baseline candidate : OverlayManifest) (stage : Option StageBinding) (now : Nat) :
    OverlayManifest :=
  match projectedMutations baseline candidate stage with
  | [] => baseline
  | mutations => baseline.appendRevision mutations now

end CopilotRuntime.Workspace
