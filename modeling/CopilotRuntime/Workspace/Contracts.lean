import CopilotRuntime.Foundation.Dict
import CopilotRuntime.Foundation.Text
import Mathlib.Data.List.Sort
import Mathlib.Data.String.Basic

/-!
# Records of the workspace overlay

One entry for a virtual path, and the manifest of a run that lists its entries
by path. A manifest is never changed: an append makes the next version.

## Implementation notes

The three content values of an entry are present together or not at all, so
they are one value here. A path that has been normalized is not normalized
again. Instants are numbers, and the patterns of digests and the lengths of
identifiers are left out.
-/

namespace CopilotRuntime.Workspace

open Foundation

inductive WorkspaceEntryKind
  | file | directory | tombstone | move
  deriving DecidableEq

inductive WorkspaceOperation
  | create | replace | delete | move | mkdir
  deriving DecidableEq

inductive BaseExistence
  | mustExist | mustNotExist | any
  deriving DecidableEq

/-- What an engine or store raises. -/
inductive WorkspaceError
  | overlay (message : String)
  | conflict
  | path (message : String)
  | notFound
  | isDirectory
  | edit (message : String)
  | limit (message : String)
  | storage
  deriving DecidableEq

/-! ### Virtual paths -/

/-- The normal forms of text, as the standard library computes them. -/
structure UnicodeForms where
  nfc : String → String
  nfkc : String → String

def windowsReserved (segment : String) : Bool :=
  let stem := segment.toList.takeWhile (· ≠ '.')
  let rest := segment.toList.dropWhile (· ≠ '.')
  ["con", "prn", "aux", "nul",
    "com1", "com2", "com3", "com4", "com5", "com6", "com7", "com8", "com9",
    "lpt1", "lpt2", "lpt3", "lpt4", "lpt5", "lpt6", "lpt7", "lpt8", "lpt9"].contains
      (Text.lower (String.ofList stem)) && !rest.contains '\n'

def isDriveLetter (segment : String) : Bool :=
  match segment.toList with
  | [letter, ':'] => letter.isAlpha
  | _ => false

def dotSegment (segment : String) : Bool := segment = "." || segment = ".."

/-- The path with its empty and dot segments resolved, as `posixpath.normpath` does it for a
path with one leading slash. -/
def normpath (path : String) : String :=
  let kept := (Text.split path '/').foldl (fun kept segment =>
    if segment = "" || segment = "." then kept
    else if segment = ".." then kept.dropLast
    else kept ++ [segment]) []
  "/" ++ String.intercalate "/" kept

/-- One canonical path of a mount, or what is wrong with the given one. -/
def normalizeVirtualPath (u : UnicodeForms) (rawPath : String) (allowMountRoot : Bool) :
    Except WorkspaceError String :=
  if rawPath = "" then .error (.path "Workspace path must be a non-empty virtual path.")
  else if 4096 < rawPath.length || Text.hasChar rawPath '\x00' then
    .error (.path "Workspace path is invalid.")
  else if Text.hasChar rawPath '\\' || Text.startsWith rawPath "//" then
    .error (.path "Workspace path is invalid.")
  else
    let normalizedUnicode := u.nfc rawPath
    if !Text.startsWith normalizedUnicode "/workspace/" then
      .error (.path "Workspace path must remain under /workspace.")
    else
      let rawSegments := (Text.split normalizedUnicode '/').drop 2
      if rawSegments.headD "" = "" then .error (.path "Workspace path must include a mount.")
      else if 64 < rawSegments.length then .error (.path "Workspace path is too deep.")
      else if rawSegments.any fun segment =>
          segment = "" || dotSegment segment || dotSegment (u.nfkc segment) ||
            decide (255 < segment.length) || windowsReserved segment || isDriveLetter segment then
        .error (.path "Workspace path is invalid.")
      else
        let normalized := normpath normalizedUnicode
        if normalized ≠ normalizedUnicode || normalized = "/workspace" then
          .error (.path "Workspace path must be canonical.")
        else if !allowMountRoot && decide (normalized.toList.count '/' < 3) then
          .error (.path "Workspace mutations require a path inside a mount.")
        else .ok normalized

def mountIdForPath (virtualPath : String) : String :=
  ((Text.split virtualPath '/').drop 2).headD ""

/-! ### Entries -/

structure WorkspaceBaseEntry where
  virtualPath : String
  entryKind : WorkspaceEntryKind
  opaqueGeneration : Option String
  contentDigest : Option String
  stableFileId : Option String
  byteSize : Option Nat
  mtimeNs : Option Nat

/-- The state of the base that the executor will check again. -/
structure BasePrecondition where
  existence : BaseExistence
  entryKind : Option WorkspaceEntryKind := none
  opaqueGeneration : Option String := none
  contentDigest : Option String := none
  stableFileId : Option String := none
  byteSize : Option Nat := none
  mtimeNs : Option Nat := none
  deriving DecidableEq

/-- A reference to immutable bytes, with their digest and number. -/
structure OverlayContent where
  contentRef : String
  contentDigest : String
  byteSize : Nat
  deriving DecidableEq

/-- The stage an entry is part of. -/
structure StageBinding where
  stageId : String
  stageRevision : Nat
  deriving DecidableEq

/-- The current entry of a path: a file has content, a move may carry it, nothing else does. -/
structure OverlayEntry where
  virtualPath : String
  entryKind : WorkspaceEntryKind
  operation : WorkspaceOperation
  content : Option OverlayContent := none
  sourceVirtualPath : Option String := none
  baseline : BasePrecondition
  stage : Option StageBinding := none
  overlayRevision : Nat := 0
  author : String
  createdAt : Nat
  file_content : entryKind = .file → content.isSome
  content_carrier : content.isSome → entryKind = .file ∨ entryKind = .move
  deriving DecidableEq

def OverlayEntry.byteSize (entry : OverlayEntry) : Nat :=
  (entry.content.map (·.byteSize)).getD 0

/-! ### Manifests -/

/-- The entries of a run, one for a path and in the order of the paths. -/
structure OverlayManifest where
  runId : String
  version : Nat
  entries : List OverlayEntry
  updatedAt : Nat
  sorted : (entries.map (·.virtualPath)).Pairwise (· < ·)
  revisions : ∀ entry ∈ entries, entry.overlayRevision ≤ version
  deriving DecidableEq

/-- A change of one path. -/
inductive OverlayMutation
  | upsert (entry : OverlayEntry)
  | remove (virtualPath : String)
  deriving DecidableEq

namespace OverlayManifest

/-- The overlay of a run that has changed nothing. -/
def empty (runId : String) (now : Nat) : OverlayManifest where
  runId := runId
  version := 0
  entries := []
  updatedAt := now
  sorted := .nil
  revisions := by simp

variable (m : OverlayManifest)

/-- The entries under their paths. -/
def byPath : Dict String OverlayEntry where
  entries := m.entries.map fun entry => (entry.virtualPath, entry)
  keys_nodup := by
    rw [List.map_map]
    exact m.sorted.imp ne_of_lt

def entryAt (virtualPath : String) : Option OverlayEntry := m.byPath.get? virtualPath

/-- Apply one change; a changed entry carries the new version. -/
def applyMutation (nextVersion : Nat) (entries : Dict String OverlayEntry) :
    OverlayMutation → Dict String OverlayEntry
  | .remove virtualPath => entries.erase virtualPath
  | .upsert entry => entries.set entry.virtualPath { entry with overlayRevision := nextVersion }

def mutatedEntries (mutations : List OverlayMutation) : Dict String OverlayEntry :=
  mutations.foldl (applyMutation (m.version + 1)) m.byPath

/-! ### The next manifest -/

/-- The entries stand under their own paths and are not newer than a version. -/
def Current (version : Nat) (entries : Dict String OverlayEntry) : Prop :=
  ∀ path entry, entries.get? path = some entry →
    entry.virtualPath = path ∧ entry.overlayRevision ≤ version

theorem files_byPath : Files (fun entry : OverlayEntry => entry.virtualPath) m.byPath m.entries :=
  rfl

theorem get?_byPath {path : String} {entry : OverlayEntry} :
    m.byPath.get? path = some entry ↔ entry ∈ m.entries ∧ entry.virtualPath = path :=
  m.files_byPath.get?_eq_some_iff

theorem current_byPath : Current m.version m.byPath := by
  intro path entry hentry
  obtain ⟨hmem, hpath⟩ := m.get?_byPath.mp hentry
  exact ⟨hpath, m.revisions entry hmem⟩

theorem Current.applyMutation {version : Nat} {entries : Dict String OverlayEntry}
    (h : Current version entries) (mutation : OverlayMutation) :
    Current version (applyMutation version entries mutation) := by
  intro path entry hentry
  cases mutation with
  | remove removed =>
      by_cases hpath : removed = path
      · simp [OverlayManifest.applyMutation, hpath] at hentry
      · rw [OverlayManifest.applyMutation, Dict.get?_erase_of_ne entries hpath] at hentry
        exact h path entry hentry
  | upsert changed =>
      rw [OverlayManifest.applyMutation, Dict.get?_set] at hentry
      split at hentry
      · next hpath =>
          cases hentry
          exact ⟨hpath, le_rfl⟩
      · exact h path entry hentry

theorem current_mutatedEntries (mutations : List OverlayMutation) :
    Current (m.version + 1) (m.mutatedEntries mutations) := by
  have hstart : Current (m.version + 1) m.byPath := by
    intro path entry hentry
    obtain ⟨hpath, hrevision⟩ := m.current_byPath path entry hentry
    exact ⟨hpath, hrevision.trans (Nat.le_succ _)⟩
  unfold mutatedEntries
  generalize m.byPath = entries at hstart
  induction mutations generalizing entries with
  | nil => exact hstart
  | cons mutation rest ih => exact ih _ (hstart.applyMutation mutation)

end OverlayManifest

/-- Values that stand under their own paths have distinct paths. -/
theorem nodup_paths {version : Nat} {entries : Dict String OverlayEntry}
    (h : OverlayManifest.Current version entries) :
    (entries.values.map (·.virtualPath)).Nodup := by
  have hkeys := entries.keys_nodup
  have hsame : entries.values.map (·.virtualPath) = entries.entries.map Prod.fst := by
    rw [Dict.values, List.map_map]
    refine List.map_congr_left fun entry hentry => ?_
    exact (h entry.1 entry.2 (Dict.mem_entries_iff.mp hentry)).1
  rwa [hsame]

namespace OverlayManifest
variable (m : OverlayManifest)

def pathOrder (a b : OverlayEntry) : Prop := a.virtualPath ≤ b.virtualPath

instance : DecidableRel pathOrder := fun a b =>
  inferInstanceAs (Decidable (a.virtualPath ≤ b.virtualPath))

instance : Std.Total pathOrder := ⟨fun a b => le_total a.virtualPath b.virtualPath⟩

instance : IsTrans OverlayEntry pathOrder := ⟨fun _ _ _ => le_trans⟩

/-- Apply the changes together and make the next version of them. -/
def appendRevision (mutations : List OverlayMutation) (now : Nat) : OverlayManifest where
  runId := m.runId
  version := m.version + 1
  entries := (m.mutatedEntries mutations).values.insertionSort pathOrder
  updatedAt := now
  sorted := by
    have hcurrent := m.current_mutatedEntries mutations
    have hperm := List.perm_insertionSort pathOrder (m.mutatedEntries mutations).values
    have hnodup := ((hperm.map (·.virtualPath)).nodup_iff).mpr (nodup_paths hcurrent)
    have hsorted := List.pairwise_insertionSort pathOrder (m.mutatedEntries mutations).values
    rw [List.pairwise_map]
    rw [List.Nodup, List.pairwise_map] at hnodup
    exact (hsorted.and hnodup).imp fun h => lt_of_le_of_ne h.1 h.2
  revisions := by
    intro entry hentry
    rw [List.mem_insertionSort, Dict.mem_values_iff] at hentry
    obtain ⟨path, hpath⟩ := hentry
    exact (m.current_mutatedEntries mutations path entry hpath).2

theorem perm_appendRevision (mutations : List OverlayMutation) (now : Nat) :
    (m.appendRevision mutations now).entries.Perm (m.mutatedEntries mutations).values :=
  List.perm_insertionSort pathOrder _

theorem get?_appendRevision (mutations : List OverlayMutation) (now : Nat) (path : String) :
    (m.appendRevision mutations now).byPath.get? path = (m.mutatedEntries mutations).get? path := by
  have hcurrent := m.current_mutatedEntries mutations
  refine Option.ext fun entry => ?_
  rw [get?_byPath, (m.perm_appendRevision mutations now).mem_iff, Dict.mem_values_iff]
  constructor
  · rintro ⟨⟨path', hentry⟩, rfl⟩
    rwa [(hcurrent path' entry hentry).1]
  · intro hentry
    exact ⟨⟨path, hentry⟩, (hcurrent path entry hentry).1⟩

end OverlayManifest

end CopilotRuntime.Workspace
