import CopilotRuntime.Foundation.Outcome
import CopilotRuntime.Workspace.Overlay
import Mathlib.Data.List.Dedup
import Mathlib.Data.List.Induction

/-!
# The limits of an overlay over its history

Writing a file is checked against both limits before anything is stored. The
other operations add entries without a check, and the check of a write counts
the bytes of files only: a moved file still refers to its content.

## Implementation notes

An operation has room when what it adds fits. For a write that is what its own
check leaves open, the bytes that moves carry.
-/

namespace CopilotRuntime.Workspace

open Foundation

namespace OverlayManifest
variable (m : OverlayManifest)

/-- All bytes the entries refer to. -/
def contentBytes : Nat := (m.entries.map (·.byteSize)).sum

/-- The bytes that the entries of other paths refer to. -/
def otherBytes (path : String) : Nat :=
  ((m.entries.filter (·.virtualPath ≠ path)).map (·.byteSize)).sum

/-- The bytes in files at other paths. -/
def otherFileBytes (path : String) : Nat :=
  ((m.entries.filter fun entry => entry.virtualPath ≠ path && entry.entryKind = .file).map
    (·.byteSize)).sum

/-- The entries that a change of a path adds. -/
def addedAt (path : String) : Nat := if (m.entryAt path).isSome then 0 else 1

structure WithinLimits : Prop where
  entries : m.entries.length ≤ maxEntries
  bytes : m.contentBytes ≤ maxTotalResultBytes

/-! ### What an append adds -/

theorem weight_byPath (f : OverlayEntry → Nat) :
    m.byPath.weight f = (m.entries.map f).sum := by
  simp [Dict.weight, byPath, Function.comp_def]

theorem sum_appendRevision (f : OverlayEntry → Nat) (mutations : List OverlayMutation)
    (now : Nat) : ((m.appendRevision mutations now).entries.map f).sum =
      (m.mutatedEntries mutations).weight f := by
  rw [((m.perm_appendRevision mutations now).map f).sum_eq, Dict.values, List.map_map]
  rfl

theorem length_appendRevision (mutations : List OverlayMutation) (now : Nat) :
    (m.appendRevision mutations now).entries.length =
      (m.mutatedEntries mutations).weight fun _ => 1 := by
  rw [Dict.weight_one, (m.perm_appendRevision mutations now).length_eq, Dict.values,
    List.length_map]

theorem length_byPath : m.byPath.weight (fun _ => 1) = m.entries.length := by
  rw [Dict.weight_one]
  exact List.length_map _

theorem weightAt_one (path : String) : m.byPath.weightAt (fun _ => 1) path + m.addedAt path = 1 := by
  unfold Dict.weightAt addedAt entryAt
  cases m.byPath.get? path <;> rfl

/-- An upserted entry counts in the place of the one it replaces. -/
theorem upsert_spec (entry : OverlayEntry) (now : Nat) :
    (m.appendRevision [.upsert entry] now).entries.length =
        m.entries.length + m.addedAt entry.virtualPath ∧
      (m.appendRevision [.upsert entry] now).contentBytes +
          m.byPath.weightAt (·.byteSize) entry.virtualPath =
        m.contentBytes + entry.byteSize := by
  have hlength := Dict.weight_set (fun _ => 1) m.byPath entry.virtualPath
    { entry with overlayRevision := m.version + 1 }
  have hbytes := Dict.weight_set (·.byteSize) m.byPath entry.virtualPath
    { entry with overlayRevision := m.version + 1 }
  have hadded := m.weightAt_one entry.virtualPath
  rw [length_byPath] at hlength
  rw [weight_byPath] at hbytes
  constructor
  · rw [length_appendRevision]
    change (m.byPath.set entry.virtualPath _).weight _ = _
    omega
  · rw [contentBytes, sum_appendRevision]
    exact hbytes

/-- A removed entry no longer counts. -/
theorem remove_spec {path : String} (hsome : (m.entryAt path).isSome) (now : Nat) :
    (m.appendRevision [.remove path] now).entries.length + 1 = m.entries.length ∧
      (m.appendRevision [.remove path] now).contentBytes ≤ m.contentBytes := by
  have hlength := Dict.weight_erase (fun _ => 1) m.byPath path
  have hbytes := Dict.weight_erase (·.byteSize) m.byPath path
  have hadded := m.weightAt_one path
  rw [addedAt, if_pos hsome] at hadded
  rw [length_byPath] at hlength
  rw [weight_byPath] at hbytes
  constructor
  · rw [length_appendRevision]
    change (m.byPath.erase path).weight _ + 1 = _
    omega
  · rw [contentBytes, sum_appendRevision]
    change (m.byPath.erase path).weight _ ≤ _
    exact Nat.le.intro hbytes

/-- Two upserted entries of different paths count in the places of what they replace. -/
theorem upsert_upsert_spec (first second : OverlayEntry)
    (hne : first.virtualPath ≠ second.virtualPath) (now : Nat) :
    (m.appendRevision [.upsert first, .upsert second] now).entries.length =
        m.entries.length + m.addedAt first.virtualPath + m.addedAt second.virtualPath ∧
      (m.appendRevision [.upsert first, .upsert second] now).contentBytes +
          m.byPath.weightAt (·.byteSize) first.virtualPath +
          m.byPath.weightAt (·.byteSize) second.virtualPath =
        m.contentBytes + first.byteSize + second.byteSize := by
  have hlength := Dict.weight_set_set (fun _ => 1) m.byPath hne
    { first with overlayRevision := m.version + 1 }
    { second with overlayRevision := m.version + 1 }
  have hbytes := Dict.weight_set_set (·.byteSize) m.byPath hne
    { first with overlayRevision := m.version + 1 }
    { second with overlayRevision := m.version + 1 }
  have hadded := m.weightAt_one first.virtualPath
  have hadded' := m.weightAt_one second.virtualPath
  rw [length_byPath] at hlength
  rw [weight_byPath] at hbytes
  constructor
  · rw [length_appendRevision]
    change ((m.byPath.set first.virtualPath _).set second.virtualPath _).weight _ = _
    omega
  · rw [contentBytes, sum_appendRevision]
    exact hbytes

/-! ### What the write check counts -/

theorem weightAt_byPath (f : OverlayEntry → Nat) (path : String) :
    m.byPath.weightAt f path = ((m.entryAt path).map f).getD 0 := rfl

theorem otherBytes_add (path : String) :
    m.otherBytes path + m.byPath.weightAt (·.byteSize) path = m.contentBytes := by
  have hsum := Dict.weight_erase (·.byteSize) m.byPath path
  rw [weight_byPath] at hsum
  rw [contentBytes, ← hsum, otherBytes]
  simp [Dict.weight, Dict.erase, byPath, List.filter_map, Function.comp_def]

theorem sum_filter_file (entries : List OverlayEntry) :
    ((entries.filter (·.entryKind = .file)).map (·.byteSize)).sum =
      (entries.map fileBytes).sum := by
  induction entries with
  | nil => rfl
  | cons entry rest ih =>
      by_cases hfile : entry.entryKind = .file <;> simp [fileBytes, hfile, ih]

theorem otherFileBytes_add (path : String) :
    m.otherFileBytes path + m.byPath.weightAt fileBytes path =
      ((m.entries.filter (·.entryKind = .file)).map (·.byteSize)).sum := by
  have hsum := Dict.weight_erase fileBytes m.byPath path
  rw [weight_byPath] at hsum
  have hother : m.otherFileBytes path =
      ((m.entries.filter (·.virtualPath ≠ path)).map fileBytes).sum := by
    rw [← sum_filter_file, List.filter_filter, otherFileBytes]
    simp [Bool.and_comm]
  rw [sum_filter_file, ← hsum, hother]
  simp [Dict.weight, Dict.erase, byPath, List.filter_map, Function.comp_def]

theorem checkLimits_eq_ok_iff {path : String} {byteSize : Nat} :
    checkLimits m path byteSize = .ok () ↔
      m.entries.length + m.addedAt path ≤ maxEntries ∧
        m.otherFileBytes path + byteSize ≤ maxTotalResultBytes := by
  have hfiles := m.otherFileBytes_add path
  rw [weightAt_byPath] at hfiles
  unfold checkLimits
  simp only [← hfiles, Nat.add_sub_cancel]
  rw [← addedAt]
  by_cases hentries : maxEntries < m.entries.length + m.addedAt path
  · simp [hentries]
  · by_cases hbytes : maxTotalResultBytes < m.otherFileBytes path + byteSize
    · simp [hentries, hbytes]
    · simp [hentries, hbytes, Nat.le_of_not_lt]

end OverlayManifest

/-! ### What an accepted operation leaves -/

section Accepted
variable {s : Surroundings} {m c : OverlayManifest} {path author : String}

/-- A path that the merged view does not show has no content in the overlay. -/
theorem weightAt_of_not_exists (h : mergedEntryExists s m path = .ok false) :
    m.byPath.weightAt (·.byteSize) path = 0 := by
  rw [OverlayManifest.weightAt_byPath]
  unfold mergedEntryExists at h
  cases hentry : m.entryAt path with
  | none => rfl
  | some entry =>
      have htombstone : entry.entryKind = .tombstone := by simpa [hentry] using h
      have hcontent : entry.content = none := by
        by_contra hsome
        have hkind := entry.content_carrier (Option.isSome_iff_ne_none.mpr hsome)
        simp [htombstone] at hkind
      simp [OverlayEntry.byteSize, hcontent]

/-- An accepted write passed the check, and puts its bytes in the place of the old ones. -/
theorem write_spec {content : Body} {operation : WorkspaceOperation} {baseline : BasePrecondition}
    (h : write s m path content author operation baseline = .ok c) :
    m.entries.length + m.addedAt path ≤ maxEntries ∧
      m.otherFileBytes path + content.length ≤ maxTotalResultBytes ∧
      c.entries.length = m.entries.length + m.addedAt path ∧
      c.contentBytes = m.otherBytes path + content.length := by
  simp only [write, raiseIf_eq_ok_iff, bind_eq_ok_iff, pure_eq_ok_iff] at h
  obtain ⟨-, ⟨⟩, hcheck, written, hwritten, rfl⟩ := h
  obtain ⟨hentries, hfiles⟩ := m.checkLimits_eq_ok_iff.mp hcheck
  obtain ⟨hlength, hbytes⟩ :=
    m.upsert_spec (fileEntry s m path operation baseline written author) s.now
  refine ⟨hentries, hfiles, hlength, ?_⟩
  have hother := m.otherBytes_add path
  have hsize : (fileEntry s m path operation baseline written author).byteSize =
      content.length := s.size_putStream hwritten
  rw [hsize] at hbytes
  change _ + m.byPath.weightAt (·.byteSize) path = _ at hbytes
  omega

theorem proposeDelete_spec (h : proposeDelete s m path author = .ok c) :
    ∃ target, normalizeVirtualPath s.unicode path false = .ok target ∧
      c.entries.length ≤ m.entries.length + m.addedAt target ∧
      (m.addedAt target ≠ 0 → c.entries.length = m.entries.length + m.addedAt target) ∧
      c.contentBytes ≤ m.contentBytes := by
  simp only [proposeDelete, raiseIf_eq_ok_iff, bind_eq_ok_iff] at h
  obtain ⟨target, htarget, -, h⟩ := h
  refine ⟨target, htarget, ?_⟩
  split at h
  · next hcreated =>
      rw [pure_eq_ok_iff] at h
      obtain rfl := h
      have hsome : (m.entryAt target).isSome := by
        cases hentry : m.entryAt target with
        | none => simp [hentry] at hcreated
        | some entry => rfl
      obtain ⟨hlength, hbytes⟩ := m.remove_spec hsome s.now
      have hadded : m.addedAt target = 0 := if_pos hsome
      exact ⟨by omega, fun hne => absurd hadded hne, hbytes⟩
  · rw [bind_eq_ok_iff] at h
    obtain ⟨baseline, -, h⟩ := h
    rw [pure_eq_ok_iff] at h
    obtain rfl := h
    obtain ⟨hlength, hbytes⟩ :=
      m.upsert_spec (tombstone s m target .delete baseline author) s.now
    have hnothing : (tombstone s m target .delete baseline author).byteSize = 0 := rfl
    exact ⟨hlength.le, fun _ => hlength, by omega⟩

theorem proposeMkdir_spec (h : proposeMkdir s m path author = .ok c) :
    ∃ target, normalizeVirtualPath s.unicode path false = .ok target ∧
      c.entries.length = m.entries.length + m.addedAt target ∧
      c.contentBytes = m.contentBytes := by
  simp only [proposeMkdir, raiseIf_eq_ok_iff, bind_eq_ok_iff, pure_eq_ok_iff] at h
  obtain ⟨target, htarget, found, hfound, hnot, rfl⟩ := h
  obtain ⟨hlength, hbytes⟩ := m.upsert_spec (directoryEntry s target author) s.now
  have hnothing : (directoryEntry s target author).byteSize = 0 := rfl
  have hold : m.byPath.weightAt (·.byteSize) target = 0 :=
    weightAt_of_not_exists (by rw [hfound]; simpa using hnot)
  change _ + m.byPath.weightAt (·.byteSize) target = _ at hbytes
  exact ⟨target, htarget, hlength, by omega⟩

/-- A move takes along at most the bytes of its source. -/
theorem byteSize_movedEntry_le (source destination : String) :
    (movedEntry s m source destination author).byteSize ≤
      m.byPath.weightAt (·.byteSize) source := by
  rw [OverlayManifest.weightAt_byPath]
  unfold OverlayEntry.byteSize movedEntry movedContent
  dsimp only
  cases m.entryAt source with
  | none => exact Nat.le_refl _
  | some entry =>
      by_cases hfile : entry.entryKind = .file
      · simp [hfile]
      · simp [hfile]

theorem proposeMove_spec {destination : String}
    (h : proposeMove s m path destination author = .ok c) :
    ∃ source target, normalizeVirtualPath s.unicode path false = .ok source ∧
      normalizeVirtualPath s.unicode destination false = .ok target ∧
      c.entries.length = m.entries.length + m.addedAt source + m.addedAt target ∧
      c.contentBytes ≤ m.contentBytes := by
  simp only [proposeMove, raiseIf_eq_ok_iff, bind_eq_ok_iff, pure_eq_ok_iff] at h
  obtain ⟨source, hsource, target, htarget, hdistinct, found, hfound, -, taken, htaken, hnot,
    baseline, -, rfl⟩ := h
  have hne : source ≠ target := fun heq => hdistinct (by simp [heq])
  obtain ⟨hlength, hbytes⟩ := m.upsert_upsert_spec (tombstone s m source .move baseline author)
    (movedEntry s m source target author) hne s.now
  have hnothing : (tombstone s m source .move baseline author).byteSize = 0 := rfl
  have hmoved : (movedEntry s m source target author).byteSize ≤
      m.byPath.weightAt (·.byteSize) source := byteSize_movedEntry_le source target
  change _ + m.byPath.weightAt (·.byteSize) source +
    m.byPath.weightAt (·.byteSize) target = _ at hbytes
  exact ⟨source, target, hsource, htarget, hlength, by omega⟩

end Accepted

/-! ### What a projection keeps of its candidate -/

/-- The path a mutation changes. -/
def OverlayMutation.path : OverlayMutation → String
  | .upsert entry => entry.virtualPath
  | .remove virtualPath => virtualPath

/-- The entry a mutation leaves at its path. -/
def OverlayMutation.result (nextVersion : Nat) : OverlayMutation → Option OverlayEntry
  | .upsert entry => some { entry with overlayRevision := nextVersion }
  | .remove _ => none

theorem get?_applyMutation (version : Nat) (entries : Dict String OverlayEntry)
    (mutation : OverlayMutation) (path : String) :
    (OverlayManifest.applyMutation version entries mutation).get? path =
      if mutation.path = path then mutation.result version else entries.get? path := by
  cases mutation with
  | remove removed => exact Dict.get?_erase entries removed path
  | upsert entry => exact Dict.get?_set entries entry.virtualPath _ path

/-- Changes of distinct paths do not interfere. -/
theorem get?_foldl_applyMutation (version : Nat) (change : String → Option OverlayMutation)
    (hpath : ∀ path mutation, change path = some mutation → mutation.path = path)
    {paths : List String} (hnodup : paths.Nodup) (entries : Dict String OverlayEntry)
    (path : String) :
    ((paths.filterMap change).foldl (OverlayManifest.applyMutation version) entries).get? path =
      if path ∈ paths then
        (change path).elim (entries.get? path) (OverlayMutation.result version)
      else entries.get? path := by
  induction paths generalizing entries with
  | nil => simp
  | cons first rest ih =>
      obtain ⟨hnot, hrest⟩ := List.nodup_cons.mp hnodup
      cases hchange : change first with
      | none =>
          rw [List.filterMap_cons_none hchange, ih hrest]
          by_cases hfirst : path = first
          · simp [hfirst, hnot, hchange]
          · simp [hfirst]
      | some mutation =>
          have hmutation := hpath first mutation hchange
          rw [List.filterMap_cons_some hchange, List.foldl_cons, ih hrest, get?_applyMutation,
            hmutation]
          by_cases hfirst : path = first
          · simp [hfirst, hnot, hchange]
          · simp [hfirst, Ne.symm hfirst]

section Projection
variable {baseline candidate : OverlayManifest} {stage : Option StageBinding}

theorem entryAt_of_mem {m : OverlayManifest} {path : String} :
    (∃ entry, m.entryAt path = some entry) ↔ path ∈ m.entries.map (·.virtualPath) := by
  rw [List.mem_map]
  exact exists_congr fun entry => m.get?_byPath

/-- What a projection does at one path. -/
def projectedAt (baseline candidate : OverlayManifest) (stage : Option StageBinding)
    (path : String) : Option OverlayMutation :=
  match candidate.entryAt path with
  | none => some (.remove path)
  | some entry =>
      if baseline.entryAt path = some (staged stage entry) then none
      else some (.upsert (staged stage entry))

theorem path_projectedAt {path : String} {mutation : OverlayMutation}
    (h : projectedAt baseline candidate stage path = some mutation) : mutation.path = path := by
  unfold projectedAt at h
  split at h
  · cases h
    rfl
  · next entry hentry =>
      split at h
      · cases h
      · cases h
        have hpath : entry.virtualPath = path := (candidate.get?_byPath.mp hentry).2
        cases stage <;> exact hpath

theorem get?_project (now : Nat) (path : String) :
    (project baseline candidate stage now).byPath.get? path =
      (baseline.mutatedEntries (projectedMutations baseline candidate stage)).get? path := by
  unfold project
  split
  · next hnone =>
      rw [hnone]
      rfl
  · exact baseline.get?_appendRevision _ now path

/-- Up to its stage and revision the projected entry of a path is the candidate's. -/
theorem map_get?_project {α : Type} (f : OverlayEntry → α)
    (hstaged : ∀ entry, f (staged stage entry) = f entry)
    (hrevised : ∀ entry revision, f { entry with overlayRevision := revision } = f entry)
    (now : Nat) (path : String) :
    ((project baseline candidate stage now).byPath.get? path).map f =
      (candidate.byPath.get? path).map f := by
  have hmutations : projectedMutations baseline candidate stage =
      ((((baseline.entries ++ candidate.entries).map (·.virtualPath)).dedup).insertionSort
        (· ≤ ·)).filterMap (projectedAt baseline candidate stage) := rfl
  have hnodup : ((((baseline.entries ++ candidate.entries).map (·.virtualPath)).dedup).insertionSort
      (· ≤ ·)).Nodup :=
    (List.perm_insertionSort (· ≤ ·) _).nodup_iff.mpr (List.nodup_dedup _)
  rw [get?_project, hmutations, OverlayManifest.mutatedEntries,
    get?_foldl_applyMutation _ _ (fun _ _ => path_projectedAt) hnodup]
  split
  · cases hentry : candidate.entryAt path with
    | none =>
        have hlookup : candidate.byPath.get? path = none := hentry
        simp [projectedAt, hentry, hlookup, OverlayMutation.result]
    | some entry =>
        have hlookup : candidate.byPath.get? path = some entry := hentry
        by_cases hsame : baseline.entryAt path = some (staged stage entry)
        · have hold : baseline.byPath.get? path = some (staged stage entry) := hsame
          simp [projectedAt, hentry, hlookup, hsame, hold, hstaged]
        · simp [projectedAt, hentry, hlookup, hsame, OverlayMutation.result, hrevised, hstaged]
  · next hnot =>
      simp only [List.mem_insertionSort, List.mem_dedup, List.map_append, List.mem_append,
        not_or, ← entryAt_of_mem, not_exists] at hnot
      have hbase : baseline.byPath.get? path = none := Option.eq_none_iff_forall_not_mem.mpr hnot.1
      have hcandidate : candidate.byPath.get? path = none :=
        Option.eq_none_iff_forall_not_mem.mpr hnot.2
      rw [hbase, hcandidate]

theorem withinLimits_project_iff (now : Nat) :
    (project baseline candidate stage now).WithinLimits ↔ candidate.WithinLimits := by
  have hlength : (project baseline candidate stage now).entries.length =
      candidate.entries.length := by
    rw [← OverlayManifest.length_byPath, ← OverlayManifest.length_byPath]
    exact Dict.weight_congr (map_get?_project _ (fun _ => rfl) (fun _ _ => rfl) now)
  have hbytes : (project baseline candidate stage now).contentBytes = candidate.contentBytes := by
    rw [OverlayManifest.contentBytes, OverlayManifest.contentBytes,
      ← OverlayManifest.weight_byPath, ← OverlayManifest.weight_byPath]
    exact Dict.weight_congr (map_get?_project _ (fun _ => by cases stage <;> rfl)
      (fun _ _ => rfl) now)
  constructor
  · rintro ⟨hentries, hcontent⟩
    exact ⟨hlength ▸ hentries, hbytes ▸ hcontent⟩
  · rintro ⟨hentries, hcontent⟩
    exact ⟨hlength ▸ hentries, hbytes ▸ hcontent⟩

end Projection

/-! ### Room for an operation -/

/-- If the files at other paths leave room for a write, so do the moved files with them. -/
def WriteFits (m : OverlayManifest) (path : String) (byteSize : Nat) : Prop :=
  m.otherFileBytes path + byteSize ≤ maxTotalResultBytes →
    m.otherBytes path + byteSize ≤ maxTotalResultBytes

/-- The operation has room in the overlay for what it adds. -/
def HasRoom (s : Surroundings) (m : OverlayManifest) : WorkspaceRequest → Prop
  | .create path content => ∀ target, normalizeVirtualPath s.unicode path false = .ok target →
      WriteFits m target content.length
  | .replace path content => ∀ target, normalizeVirtualPath s.unicode path false = .ok target →
      WriteFits m target content.length
  | .edit path oldString newString replaceAll => ∀ edited text target,
      normalizeVirtualPath s.unicode path false = .ok edited →
      editedText s m edited oldString newString replaceAll = .ok text →
      normalizeVirtualPath s.unicode edited false = .ok target →
        WriteFits m target (Body.ofText text).length
  | .delete path => ∀ target, normalizeVirtualPath s.unicode path false = .ok target →
      m.entries.length + m.addedAt target ≤ maxEntries
  | .move path destination => ∀ source target,
      normalizeVirtualPath s.unicode path false = .ok source →
      normalizeVirtualPath s.unicode destination false = .ok target →
        m.entries.length + m.addedAt source + m.addedAt target ≤ maxEntries
  | .mkdir path => ∀ target, normalizeVirtualPath s.unicode path false = .ok target →
      m.entries.length + m.addedAt target ≤ maxEntries

section Room
variable {s : Surroundings} {m c : OverlayManifest} {author : String}

/-- An accepted write leaves the limits exactly when it fits. -/
theorem withinLimits_write_iff {path : String} {content : Body} {operation : WorkspaceOperation}
    {baseline : BasePrecondition}
    (h : write s m path content author operation baseline = .ok c) :
    c.WithinLimits ↔ WriteFits m path content.length := by
  obtain ⟨hentries, hfiles, hlength, hbytes⟩ := write_spec h
  constructor
  · intro hwithin _
    rw [← hbytes]
    exact hwithin.bytes
  · intro hfits
    exact ⟨by omega, by rw [hbytes]; exact hfits hfiles⟩

theorem proposeReplace_written {path : String} {content : Body}
    (h : proposeReplace s m path content author = .ok c) :
    ∃ (target : String) (terms : WorkspaceOperation × BasePrecondition),
      normalizeVirtualPath s.unicode path false = .ok target ∧
        write s m target content author terms.1 terms.2 = .ok c := by
  simp only [proposeReplace, bind_eq_ok_iff] at h
  obtain ⟨target, htarget, terms, -, hwritten⟩ := h
  exact ⟨target, terms, htarget, hwritten⟩

/-- An accepted operation leaves the limits exactly when it has room. -/
theorem withinLimits_plan_iff (hm : m.WithinLimits) {request : WorkspaceRequest}
    (h : plan s m author request = .ok c) : c.WithinLimits ↔ HasRoom s m request := by
  cases request with
  | create path content =>
      simp only [plan, proposeCreate, raiseIf_eq_ok_iff, bind_eq_ok_iff] at h
      obtain ⟨target, htarget, _, _, _, hwritten⟩ := h
      simp only [HasRoom, htarget, Except.ok.injEq, forall_eq']
      exact withinLimits_write_iff hwritten
  | replace path content =>
      obtain ⟨target, terms, htarget, hwritten⟩ := proposeReplace_written h
      simp only [HasRoom, htarget, Except.ok.injEq, forall_eq']
      exact withinLimits_write_iff hwritten
  | edit path oldString newString replaceAll =>
      simp only [plan, proposeEdit, bind_eq_ok_iff] at h
      obtain ⟨edited, hedited, text, htext, hreplaced⟩ := h
      obtain ⟨target, terms, htarget, hwritten⟩ := proposeReplace_written hreplaced
      have hiff := withinLimits_write_iff hwritten
      constructor
      · intro hwithin edited' text' target' hedited' htext' htarget'
        obtain rfl : edited = edited' := by simpa [hedited] using hedited'
        obtain rfl : text = text' := by simpa [htext] using htext'
        obtain rfl : target = target' := by simpa [htarget] using htarget'
        exact hiff.mp hwithin
      · intro hroom
        exact hiff.mpr (hroom edited text target hedited htext htarget)
  | delete path =>
      obtain ⟨target, htarget, hle, hadded, hbytes⟩ := proposeDelete_spec h
      simp only [HasRoom, htarget, Except.ok.injEq, forall_eq']
      have hentries := hm.entries
      constructor
      · intro hwithin
        have hc := hwithin.entries
        by_cases hnone : m.addedAt target = 0
        · omega
        · have hlength := hadded hnone
          omega
      · intro hroom
        exact ⟨hle.trans hroom, hbytes.trans hm.bytes⟩
  | move path destination =>
      obtain ⟨source, target, hsource, htarget, hlength, hbytes⟩ := proposeMove_spec h
      constructor
      · intro hwithin source' target' hsource' htarget'
        obtain rfl : source = source' := by simpa [hsource] using hsource'
        obtain rfl : target = target' := by simpa [htarget] using htarget'
        rw [← hlength]
        exact hwithin.entries
      · intro hroom
        exact ⟨hlength.le.trans (hroom source target hsource htarget), hbytes.trans hm.bytes⟩
  | mkdir path =>
      obtain ⟨target, htarget, hlength, hbytes⟩ := proposeMkdir_spec h
      simp only [HasRoom, htarget, Except.ok.injEq, forall_eq']
      rw [← hlength]
      exact ⟨fun hwithin => hwithin.entries, fun hroom => ⟨hroom, hbytes.le.trans hm.bytes⟩⟩

end Room

/-! ### Histories -/

/-- One request with what surrounds it, and the stage it is recorded for. -/
structure OverlayStep where
  surroundings : Surroundings
  author : String
  request : WorkspaceRequest
  stage : Option StageBinding

/-- Serve a request: an accepted one is projected, a refused one changes nothing. -/
def OverlayStep.serve (m : OverlayManifest) (step : OverlayStep) : OverlayManifest :=
  match plan step.surroundings m step.author step.request with
  | .ok candidate => project m candidate step.stage step.surroundings.now
  | .error _ => m

/-- The manifest of a run after a history. -/
def overlayAfter (runId : String) (now : Nat) (history : List OverlayStep) : OverlayManifest :=
  history.foldl OverlayStep.serve (.empty runId now)

/-- Every request of the history had room when it was served. -/
def EachHadRoom (runId : String) (now : Nat) (history : List OverlayStep) : Prop :=
  ∀ earlier step later, history = earlier ++ step :: later →
    HasRoom step.surroundings (overlayAfter runId now earlier) step.request

theorem overlayAfter_snoc (runId : String) (now : Nat) (history : List OverlayStep)
    (step : OverlayStep) : overlayAfter runId now (history ++ [step]) =
      step.serve (overlayAfter runId now history) := by
  simp [overlayAfter]

theorem withinLimits_serve {m : OverlayManifest} (hm : m.WithinLimits) {step : OverlayStep}
    (hroom : HasRoom step.surroundings m step.request) : (step.serve m).WithinLimits := by
  unfold OverlayStep.serve
  split
  · next candidate haccepted =>
      exact (withinLimits_project_iff _).mpr ((withinLimits_plan_iff hm haccepted).mpr hroom)
  · exact hm

theorem withinLimits_overlayAfter {runId : String} {now : Nat} {history : List OverlayStep}
    (hroom : EachHadRoom runId now history) : (overlayAfter runId now history).WithinLimits := by
  induction history using List.reverseRecOn with
  | nil => exact ⟨Nat.zero_le _, Nat.zero_le _⟩
  | append_singleton history step ih =>
      rw [overlayAfter_snoc]
      refine withinLimits_serve (ih fun earlier middle later hsplit => ?_)
        (hroom history step [] rfl)
      exact hroom earlier middle (later ++ [step]) (by simp [hsplit])

namespace Sample

/-- An empty workspace whose blobs are all stored. -/
def surroundings : Surroundings where
  unicode := ⟨id, id⟩
  sha256 _ := "2c26b46b68ffc68ff99b453c1d30413413422d706483bfa0f98a5e886266e7ae"
  stat _ := .ok none
  read _ := .error .notFound
  putStream digest body := .ok ⟨digest, digest, body.length⟩
  openStream _ := .error .notFound
  now := 0
  size_putStream h := by
    cases h
    rfl

/-- The largest file the overlay takes. -/
def largeFile : Body where
  bytes := ⟨Array.replicate 104857600 0⟩
  length := 104857600
  size_bytes := Array.size_replicate

def request (request : WorkspaceRequest) : OverlayStep := ⟨surroundings, "agent", request, none⟩

/-- The same path is written again each time its file has been moved away. -/
def history : List OverlayStep :=
  [request (.create "/workspace/m/a" largeFile),
    request (.move "/workspace/m/a" "/workspace/m/b"),
    request (.create "/workspace/m/a" largeFile),
    request (.move "/workspace/m/a" "/workspace/m/c"),
    request (.create "/workspace/m/a" largeFile)]

end Sample

def Sample.overLimit :
    PLift (¬ (overlayAfter "run" 0 Sample.history).contentBytes ≤ maxTotalResultBytes) :=
  ⟨by decide +kernel⟩

end CopilotRuntime.Workspace
