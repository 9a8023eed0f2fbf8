import CopilotRuntime.Workspace.Contracts
import Mathlib.Data.List.Induction

/-!
# Overlay manifests in files

A revision is two files: the current manifest of its run, which is replaced,
and one file for the version, which is only ever created. The current manifest
is replaced first. When the version file then cannot be written the append
raises, but it has happened.

## Implementation notes

A file is what its text decodes to, and a write that fails leaves no file
behind. The lock of the store makes every call one step, so the calls of all
writers are one sequence.
-/

namespace CopilotRuntime.Workspace

open Foundation

/-- The file write of a call that fails, if any does. -/
inductive WriteFault
  | none | pointer | version
  deriving DecidableEq

/-- The files of the store, under the digests of the run ids. -/
structure FileWorkspaceOverlayStore where
  pointers : Dict String OverlayManifest
  versionFiles : Dict (String × Nat) OverlayManifest

namespace FileWorkspaceOverlayStore

def empty : FileWorkspaceOverlayStore := ⟨Dict.empty, Dict.empty⟩

section Calls
variable (sha256 : String → String) (s : FileWorkspaceOverlayStore)

/-- A version of the run was written. -/
def hasRetainedHistory (runId : String) : Bool :=
  s.versionFiles.entries.any (·.1.1 = sha256 runId)

def read (runId : String) (now : Nat) : Except WorkspaceError OverlayManifest :=
  match s.pointers.get? (sha256 runId) with
  | none =>
      -- Without its current manifest a run with versions must be repaired first.
      if s.hasRetainedHistory sha256 runId then .error .conflict else .ok (.empty runId now)
  | some manifest => if manifest.runId ≠ runId then .error .storage else .ok manifest

def readVersion (runId : String) (version : Nat) :
    Except WorkspaceError (Option OverlayManifest) :=
  match s.versionFiles.get? (sha256 runId, version) with
  | none => .ok none
  | some manifest =>
      if manifest.runId ≠ runId then .error .storage
      else if manifest.version ≠ version then .error .storage
      else .ok (some manifest)

def getManifest (runId : String) (now : Nat) : Except WorkspaceError OverlayManifest :=
  s.read sha256 runId now

def getManifestVersion (runId : String) (version : Nat) :
    Except WorkspaceError (Option OverlayManifest) :=
  if version < 1 then .ok none else s.readVersion sha256 runId version

def write (runId : String) (manifest : OverlayManifest) (fault : WriteFault) :
    Except WorkspaceError FileWorkspaceOverlayStore :=
  if fault = .pointer then .error .storage
  else .ok { s with pointers := s.pointers.set (sha256 runId) manifest }

/-- Create the file of a version, or accept the same one that is there. -/
def writeVersion (runId : String) (manifest : OverlayManifest) (fault : WriteFault) :
    Except WorkspaceError FileWorkspaceOverlayStore :=
  match s.versionFiles.get? (sha256 runId, manifest.version) with
  | some _ =>
      match s.readVersion sha256 runId manifest.version with
      | .ok existing => if existing ≠ some manifest then .error .conflict else .ok s
      | .error e => .error e
  | none =>
      if fault = .version then .error .storage
      else .ok { s with
        versionFiles := s.versionFiles.set (sha256 runId, manifest.version) manifest }

/-- Write the current manifest and then its version; what was written before a write fails
stays. -/
def writeBoth (runId : String) (manifest : OverlayManifest) (withVersion : Bool)
    (fault : WriteFault) : Except WorkspaceError OverlayManifest × FileWorkspaceOverlayStore :=
  match s.write sha256 runId manifest fault with
  | .error e => (.error e, s)
  | .ok pointed =>
      if withVersion then
        match pointed.writeVersion sha256 runId manifest fault with
        | .error e => (.error e, pointed)
        | .ok written => (.ok manifest, written)
      else (.ok manifest, pointed)

def appendRevision (runId : String) (expectedVersion : Nat) (mutations : List OverlayMutation)
    (now : Nat) (fault : WriteFault) :
    Except WorkspaceError OverlayManifest × FileWorkspaceOverlayStore :=
  match s.read sha256 runId now with
  | .error e => (.error e, s)
  | .ok current =>
      if current.version ≠ expectedVersion then (.error .conflict, s)
      else s.writeBoth sha256 runId (current.appendRevision mutations now) true fault

def compact (runId : String) (now : Nat) (fault : WriteFault) :
    Except WorkspaceError OverlayManifest × FileWorkspaceOverlayStore :=
  match s.read sha256 runId now with
  | .error e => (.error e, s)
  | .ok manifest => s.writeBoth sha256 runId manifest (0 < manifest.version) fault

end Calls

end FileWorkspaceOverlayStore

/-! ### Histories -/

structure AppendRequest where
  runId : String
  expectedVersion : Nat
  mutations : List OverlayMutation
  now : Nat
  fault : WriteFault

/-- A call that may write; the other calls only read. -/
inductive StoreCall
  | append (request : AppendRequest)
  | compact (runId : String) (now : Nat) (fault : WriteFault)

/-- An append that returned. -/
structure Commit where
  request : AppendRequest
  updated : OverlayManifest

/-- The store with the appends that returned so far. -/
structure StoreRun where
  store : FileWorkspaceOverlayStore
  commits : List Commit

namespace StoreRun

def empty : StoreRun := ⟨.empty, []⟩

section Runs
variable (sha256 : String → String)

def answer (s : FileWorkspaceOverlayStore) (request : AppendRequest) :
    Except WorkspaceError OverlayManifest × FileWorkspaceOverlayStore :=
  s.appendRevision sha256 request.runId request.expectedVersion request.mutations request.now
    request.fault

def serve (r : StoreRun) : StoreCall → StoreRun
  | .append request =>
      let answered := answer sha256 r.store request
      { store := answered.2
        commits :=
          match answered.1 with
          | .ok updated => r.commits ++ [⟨request, updated⟩]
          | .error _ => r.commits }
  | .compact runId now fault => { r with store := (r.store.compact sha256 runId now fault).2 }

def after (history : List StoreCall) : StoreRun := history.foldl (serve sha256) empty

/-- The appends to a run that returned, in their order. -/
def commitsOf (r : StoreRun) (runId : String) : List Commit :=
  r.commits.filter (·.request.runId = runId)

end Runs

end StoreRun

/-- Each manifest was computed from the one before it, and the last one is given. -/
inductive Chain (runId : String) : List Commit → OverlayManifest → Prop
  | start (now : Nat) : Chain runId [] (.empty runId now)
  | commit {commits last} (h : Chain runId commits last) (c : Commit)
      (hrun : c.request.runId = runId)
      (hexpected : c.request.expectedVersion = last.version)
      (hupdated : c.updated = last.appendRevision c.request.mutations c.request.now) :
      Chain runId (commits ++ [c]) c.updated

end CopilotRuntime.Workspace
