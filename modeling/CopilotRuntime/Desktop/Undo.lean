import CopilotRuntime.Desktop.WriteJournal

/-!
# Undoing a run

Reverting the whole run leaves the disk as the run found it, when every change
of a path is numbered no lower than the path's first record and no file the
run found is replaced by a directory.

## Implementation notes

The records of the run are kept in the order they were appended. The first
record of a path describes the disk before the run; the number decides which
record the selection keeps.
-/

namespace CopilotRuntime.Desktop

open Foundation

section FirstOfSorted
variable {α : Type} (key : α → Nat) (q : α → Bool)

variable {a : α}

theorem find?_orderedInsert_of_first {s : List α} (ha : q a = true)
    (hmin : ∀ b ∈ s, q b = true → key a ≤ key b) :
    (s.orderedInsert (fun x y => key x ≤ key y) a).find? q = some a := by
  induction s with
  | nil => simp [ha]
  | cons b rest ih =>
      rw [List.orderedInsert_cons]
      by_cases hab : key a ≤ key b
      · simp [hab, ha]
      · have hb : q b = false := by
          by_contra hq
          exact hab (hmin b List.mem_cons_self (by simpa using hq))
        rw [if_neg hab, List.find?_cons_of_neg (by simp [hb])]
        exact ih fun c hc => hmin c (List.mem_cons_of_mem b hc)

theorem find?_orderedInsert_of_not (s : List α) (ha : q a = false) :
    (s.orderedInsert (fun x y => key x ≤ key y) a).find? q = s.find? q := by
  induction s with
  | nil => simp [ha]
  | cons b rest ih =>
      rw [List.orderedInsert_cons]
      by_cases hab : key a ≤ key b
      · rw [if_pos hab, List.find?_cons_of_neg (by simp [ha])]
      · rw [if_neg hab, List.find?_cons, List.find?_cons, ih]

/-- Sorting is stable: the first match stays first when no match has a smaller key. -/
theorem find?_insertionSort {l : List α} (hfirst : l.find? q = some a)
    (hmin : ∀ b ∈ l, q b = true → key a ≤ key b) :
    (l.insertionSort fun x y => key x ≤ key y).find? q = some a := by
  induction l with
  | nil => cases hfirst
  | cons b rest ih =>
      rw [List.insertionSort_cons]
      cases hb : q b with
      | true =>
          obtain rfl : b = a := by simpa [List.find?_cons, hb] using hfirst
          apply find?_orderedInsert_of_first key q hb
          intro c hc
          exact hmin c (List.mem_cons_of_mem b ((List.mem_insertionSort _).mp hc))
      | false =>
          rw [find?_orderedInsert_of_not key q _ hb]
          apply ih
          · simpa [List.find?_cons, hb] using hfirst
          · exact fun c hc => hmin c (List.mem_cons_of_mem b hc)

end FirstOfSorted

namespace HostWriteReverter

/-- Over sorted records the first of each path is kept. -/
theorem get?_foldl_keepOldest {records : List HostWriteRecord}
    (hsorted : records.Pairwise fun a b => a.sequence ≤ b.sequence)
    {oldest : Dict HostPath HostWriteRecord}
    (hmin : ∀ q c, oldest.get? q = some c → ∀ r ∈ records, c.sequence ≤ r.sequence)
    (path : HostPath) :
    (records.foldl keepOldest oldest).get? path
      = (oldest.get? path).or (records.find? fun r => r.path = path) := by
  induction records generalizing oldest with
  | nil => simp
  | cons r rest ih =>
      obtain ⟨hhead, hrest⟩ := List.pairwise_cons.mp hsorted
      rw [List.foldl_cons]
      cases hr : oldest.get? r.path with
      | some current =>
          have hkeep : keepOldest oldest r = oldest := by
            have := hmin _ _ hr r List.mem_cons_self
            rw [keepOldest, hr]
            exact if_neg (by omega)
          rw [hkeep, ih hrest fun q c hc x hx => hmin q c hc x (List.mem_cons_of_mem r hx)]
          by_cases hp : r.path = path
          · subst hp
            simp [hr]
          · simp [hp]
      | none =>
          have hset : keepOldest oldest r = oldest.set r.path r := by rw [keepOldest, hr]
          rw [hset, ih hrest]
          · by_cases hp : r.path = path
            · subst hp
              simp [hr]
            · simp [hp, Dict.get?_set_of_ne _ _ hp]
          · intro q c hc x hx
            by_cases hp : r.path = q
            · rw [hp, Dict.get?_set_self, Option.some.injEq] at hc
              exact hc ▸ hhead x hx
            · rw [Dict.get?_set_of_ne _ _ hp] at hc
              exact hmin q c hc x (List.mem_cons_of_mem r hx)

/-- A whole-run selection holds the first record of each path, in the sorted order. -/
theorem mem_select_iff {records : List HostWriteRecord}
    (hsorted : records.Pairwise fun a b => a.sequence ≤ b.sequence) {r : HostWriteRecord} :
    r ∈ select records none ↔ records.find? (fun x => x.path = r.path) = some r := by
  have hall : records.filter (fun x => (none : Option String).all fun id =>
      x.toolCallId = some id) = records := List.filter_eq_self.mpr fun _ _ => rfl
  have hnone : ∀ q c, (Dict.empty : Dict HostPath HostWriteRecord).get? q = some c →
      ∀ r ∈ records, c.sequence ≤ r.sequence := by
    intro q c h
    cases h
  have hget := get?_foldl_keepOldest hsorted hnone
  simp only [Dict.get?_empty, Option.none_or] at hget
  rw [select, hall, List.mem_insertionSort, Dict.mem_values_iff]
  constructor
  · rintro ⟨path, hfirst⟩
    rw [hget] at hfirst
    obtain rfl : r.path = path := by simpa using List.find?_some hfirst
    exact hfirst
  · intro hfirst
    exact ⟨r.path, by rw [hget, hfirst]⟩

end HostWriteReverter

namespace Disk

/-- Directories are never taken away. -/
def Grows (d d' : Disk) : Prop := ∀ q, d.dirs q = true → d'.dirs q = true

variable {d : Disk} {path : HostPath}

theorem WellFormed.not_dir (h : d.WellFormed) {file : HostFile} (hfile : d.files path = some file) :
    d.dirs path = false := (h path file hfile).1

theorem WellFormed.not_file (h : d.WellFormed) (hdir : d.dirs path = true) :
    d.files path = none := by
  cases hfile : d.files path with
  | none => rfl
  | some file =>
      rw [h.not_dir hfile] at hdir
      cases hdir

theorem blocked_iff :
    d.blocked path = true ↔ ∃ q ∈ ancestors path, (d.files q).isSome = true :=
  List.any_eq_true

theorem admits_iff :
    d.admits path = true ↔ d.dirs path = false ∧ d.blocked path = false := by
  simp [admits]

theorem WellFormed.not_blocked (h : d.WellFormed) (hdirs : ∀ q ∈ ancestors path, d.dirs q = true) :
    d.blocked path = false := by
  by_contra hblocked
  obtain ⟨q, hq, hfile⟩ := blocked_iff.mp (Bool.eq_true_of_not_eq_false hblocked)
  rw [h.not_file (hdirs q hq)] at hfile
  cases hfile

/-- A path that admits no file holds none. -/
theorem WellFormed.not_file_of_not_admits (h : d.WellFormed) (hadmits : d.admits path = false) :
    d.files path = none := by
  cases hfile : d.files path with
  | none => rfl
  | some file =>
      obtain ⟨hdir, hanc⟩ := h path file hfile
      have : d.admits path = true := admits_iff.mpr ⟨hdir, h.not_blocked hanc⟩
      rw [this] at hadmits
      cases hadmits

@[simp] theorem put_files (d : Disk) (path : HostPath) (file : HostFile) :
    (d.put path file).files = Function.update d.files path (some file) := rfl

@[simp] theorem unlink_files (d : Disk) (path : HostPath) :
    (d.unlink path).files = Function.update d.files path none := rfl

theorem put_dirs_iff {q : HostPath} {file : HostFile} :
    (d.put path file).dirs q = true ↔ d.dirs q = true ∨ q ∈ ancestors path := by
  simp [put]

theorem WellFormed.put (h : d.WellFormed) (file : HostFile) (hadmits : d.admits path = true) :
    (d.put path file).WellFormed := by
  obtain ⟨hdir, hblocked⟩ := admits_iff.mp hadmits
  intro p f hf
  rw [put_files] at hf
  by_cases hp : p = path
  · subst hp
    constructor
    · refine Bool.eq_false_of_not_eq_true fun hmem => ?_
      rcases put_dirs_iff.mp hmem with hold | hanc
      · rw [hdir] at hold
        cases hold
      · exact (mem_ancestors.mp hanc).2 rfl
    · exact fun q hq => put_dirs_iff.mpr (Or.inr hq)
  · rw [Function.update_of_ne hp] at hf
    constructor
    · refine Bool.eq_false_of_not_eq_true fun hmem => ?_
      rcases put_dirs_iff.mp hmem with hold | hanc
      · rw [h.not_dir hf] at hold
        cases hold
      · have : d.blocked path = true := blocked_iff.mpr ⟨p, hanc, by rw [hf]; rfl⟩
        rw [hblocked] at this
        cases this
    · exact fun q hq => put_dirs_iff.mpr (Or.inl ((h p f hf).2 q hq))

theorem WellFormed.unlink (h : d.WellFormed) (path : HostPath) :
    (d.unlink path).WellFormed := by
  intro p f hf
  rw [unlink_files] at hf
  by_cases hp : p = path
  · subst hp
    rw [Function.update_self] at hf
    cases hf
  · rw [Function.update_of_ne hp] at hf
    exact h p f hf

theorem perform_write_of_admits (file : HostFile) (h : d.admits path = true) :
    d.perform path (.write (some file)) = d.put path file := if_pos h

theorem perform_write_of_not_admits (file : HostFile) (h : d.admits path = false) :
    d.perform path (.write (some file)) = d :=
  if_neg (by simp [h])

theorem WellFormed.perform (h : d.WellFormed) (path : HostPath) (op : HostOp) :
    (d.perform path op).WellFormed := by
  match op with
  | .write none => exact h
  | .write (some file) =>
      cases hadmits : d.admits path with
      | false => rwa [perform_write_of_not_admits file hadmits]
      | true => exact perform_write_of_admits file hadmits ▸ h.put file hadmits
  | .delete false => exact h
  | .delete true => exact h.unlink path

theorem perform_grows (d : Disk) (path : HostPath) (op : HostOp) :
    d.Grows (d.perform path op) := by
  match op with
  | .write none => exact fun _ h => h
  | .write (some file) =>
      cases hadmits : d.admits path with
      | false =>
          rw [perform_write_of_not_admits file hadmits]
          exact fun _ h => h
      | true =>
          rw [perform_write_of_admits file hadmits]
          exact fun q hq => put_dirs_iff.mpr (Or.inl hq)
  | .delete false => exact fun _ h => h
  | .delete true => exact fun _ h => h

/-- An operation touches the file at its own path only. -/
theorem perform_files_of_ne (d : Disk) {p : HostPath} (op : HostOp) (hp : p ≠ path) :
    (d.perform path op).files p = d.files p := by
  match op with
  | .write none => rfl
  | .write (some file) =>
      cases hadmits : d.admits path with
      | false => rw [perform_write_of_not_admits file hadmits]
      | true =>
          rw [perform_write_of_admits file hadmits]
          exact Function.update_of_ne hp _ _
  | .delete false => rfl
  | .delete true => exact Function.update_of_ne hp _ _

/-- Only a write that lands makes directories, and only those of its path. -/
theorem dirs_of_perform {q : HostPath} {op : HostOp} (h : (d.perform path op).dirs q = true) :
    d.dirs q = true ∨
      q ∈ ancestors path ∧ d.admits path = true ∧ ∃ file, op = .write (some file) := by
  match op with
  | .write none => exact Or.inl h
  | .write (some file) =>
      cases hadmits : d.admits path with
      | false =>
          rw [perform_write_of_not_admits file hadmits] at h
          exact Or.inl h
      | true =>
          rw [perform_write_of_admits file hadmits] at h
          exact (put_dirs_iff.mp h).imp_right fun hq => ⟨hq, rfl, file, rfl⟩
  | .delete false => exact Or.inl h
  | .delete true => exact Or.inl h

/-- Deleting nothing changes no file. -/
theorem perform_deleting_nothing {op : HostOp} (hdelete : op.deleting = true)
    (habsent : d.files path = none) :
    d.perform path op = d := by
  match op with
  | .write _ => cases hdelete
  | .delete false => rfl
  | .delete true =>
      rw [perform, unlink, ← habsent, Function.update_eq_self]

end Disk

/-- The record tells what was at its path, and the store still has the content. -/
structure HostWriteRecord.Describes (sha256 : List UInt8 → String)
    (store : HostWriteJournalStore) (d : Disk) (r : HostWriteRecord) : Prop where
  within : pathWithin r.path r.authorizedRoot = true
  created : r.kind = .created → d.files r.path = none
  found : r.kind ≠ .created → ∃ file, d.files r.path = some file ∧
    r.priorSha256 = some (sha256 file.data) ∧ r.priorMode = some file.mode ∧
    store.blobs.get? (sha256 file.data) = some file.data

/-- Every file the run found can be put back. -/
structure Disk.Restores (d₀ d : Disk) : Prop where
  wellFormed : d.WellFormed
  grows : d₀.Grows d
  clear : ∀ path file, d₀.files path = some file → d.dirs path = false

namespace HostWriteReverter

section Revert
variable {sha256 : List UInt8 → String} {store : HostWriteJournalStore} {d₀ d : Disk}

theorem getBlob_of_get? {data : List UInt8}
    (h : store.blobs.get? (sha256 data) = some data) :
    store.getBlob sha256 (sha256 data) = some data := by
  simp [HostWriteJournalStore.getBlob, h]

/-- Reverting one record brings its path back to what the run found. -/
theorem revertOne_restores (hwf : d₀.WellFormed) (hd : d₀.Restores d) {r : HostWriteRecord}
    (hr : r.Describes sha256 store d₀) :
    d₀.Restores (revertOne sha256 store d r).2 ∧
      (revertOne sha256 store d r).2.files
        = Function.update d.files r.path (d₀.files r.path) := by
  by_cases hkind : r.kind = .created
  · have habsent := hr.created hkind
    have hrev : r.revertible = true := by simp [HostWriteRecord.revertible, hkind]
    cases hadmits : d.admits r.path with
    | true =>
        have hone : (revertOne sha256 store d r).2 = d.unlink r.path := by
          simp [revertOne, hr.within, hrev, hkind, hadmits]
        rw [hone, habsent]
        exact ⟨⟨hd.wellFormed.unlink r.path, hd.grows, hd.clear⟩, rfl⟩
    | false =>
        have hone : (revertOne sha256 store d r).2 = d := by
          simp [revertOne, hr.within, hrev, hkind, hadmits]
        rw [hone, habsent]
        refine ⟨hd, ?_⟩
        rw [← hd.wellFormed.not_file_of_not_admits hadmits, Function.update_eq_self]
  · obtain ⟨file, hfile, hsha, hmode, hblob⟩ := hr.found hkind
    have hrev : r.revertible = true := by simp [HostWriteRecord.revertible, hsha]
    have hanc : ∀ q ∈ Disk.ancestors r.path, d₀.dirs q = true := (hwf _ _ hfile).2
    have hadmits : d.admits r.path = true :=
      Disk.admits_iff.mpr ⟨hd.clear _ _ hfile,
        hd.wellFormed.not_blocked fun q hq => hd.grows q (hanc q hq)⟩
    have hone : (revertOne sha256 store d r).2 = d.put r.path file := by
      simp [revertOne, hr.within, hrev, hkind, restore, hsha, hmode, hadmits,
        getBlob_of_get? hblob]
    rw [hone, hfile]
    refine ⟨⟨hd.wellFormed.put file hadmits, ?_, ?_⟩, rfl⟩
    · exact fun q hq => Disk.put_dirs_iff.mpr (Or.inl (hd.grows q hq))
    · intro path found hfound
      refine Bool.eq_false_of_not_eq_true fun hdir => ?_
      rcases Disk.put_dirs_iff.mp hdir with hold | hmem
      · rw [hd.clear _ _ hfound] at hold
        cases hold
      · have := hwf.not_dir hfound
        rw [hanc path hmem] at this
        cases this

/-- Reverting records that describe the run's start brings back each of their paths. -/
theorem revert_files (hwf : d₀.WellFormed) {records : List HostWriteRecord}
    (hrecords : ∀ r ∈ records, r.Describes sha256 store d₀) (hd : d₀.Restores d)
    (path : HostPath) :
    (revert sha256 store d records).files path
      = if path ∈ records.map (·.path) then d₀.files path else d.files path := by
  induction records generalizing d with
  | nil => simp [revert]
  | cons r rest ih =>
      obtain ⟨hnext, hfiles⟩ := revertOne_restores hwf hd (hrecords r List.mem_cons_self)
      have hstep := ih (fun x hx => hrecords x (List.mem_cons_of_mem r hx)) hnext
      have hcons : revert sha256 store d (r :: rest)
          = revert sha256 store (revertOne sha256 store d r).2 rest := rfl
      rw [hcons, hstep, hfiles]
      by_cases hp : path = r.path
      · subst hp
        simp
      · simp [hp]

end Revert
end HostWriteReverter

section Runs
variable (sha256 : List UInt8 → String) (run : JournalRun)

/-- The records of a run in the order they were appended. -/
def journaled (w : JournalWorld) : List HostWriteRecord :=
  w.store.rows.filter fun r => r.orgId = run.orgId ∧ r.runId = run.runId

def firstRecord (w : JournalWorld) (path : HostPath) : Option HostWriteRecord :=
  (journaled run w).find? fun r => r.path = path

/-- The floor admits an operation on a regular file whose pre-image fits the limit. -/
structure Admitted (w : JournalWorld) (call : HostCall) : Prop where
  within : pathWithin call.path call.root = true
  regular : w.disk.dirs call.path = false
  fits : ∀ file ∈ w.disk.files call.path, file.data.length ≤ maxCaptureBytes
  /-- The digest of the pre-image is not the digest of other stored bytes. -/
  addressed : ∀ file ∈ w.disk.files call.path,
    ∀ data ∈ w.store.blobs.get? (sha256 file.data), data = file.data

/-- The journal that takes a further change of a path is at or past the path's first
number, and no write lands beneath a path at which the run found a file. -/
structure Undoable (w : JournalWorld) (call : HostCall) : Prop where
  numbered : (call.op.deleting = true → w.disk.files call.path ≠ none) →
    ∀ r ∈ firstRecord run w call.path, r.sequence ≤ w.sequences call.journal + 1
  beneath : (∃ file, call.op = .write (some file)) → w.disk.admits call.path = true →
    ∀ q ∈ Disk.ancestors call.path, ∀ r ∈ firstRecord run w q, r.kind = .created

/-- Every operation of a run meets the condition where it is made. -/
def EachCall (P : JournalWorld → HostCall → Prop) : JournalWorld → List HostCall → Prop
  | _, [] => True
  | w, call :: rest => P w call ∧ EachCall P (performCall sha256 run w call) rest

/-- What the journal of a run knows about the disk the run found. -/
structure Undo (d₀ : Disk) (w : JournalWorld) : Prop where
  restores : d₀.Restores w.disk
  untouched : ∀ path, firstRecord run w path = none → w.disk.files path = d₀.files path
  describes : ∀ path r, firstRecord run w path = some r → r.Describes sha256 w.store d₀
  ordered : ∀ path r, firstRecord run w path = some r →
    ∀ r' ∈ journaled run w, r'.path = path → r.sequence ≤ r'.sequence

variable {sha256 run} {w : JournalWorld} {call : HostCall}

/-- A capture records what is at the path; only deleting nothing leaves no record. -/
theorem capture_cases (run : JournalRun) (hadm : Admitted sha256 w call) :
    (capture sha256 run w call = w ∧ call.op.deleting = true ∧
        w.disk.files call.path = none) ∨
      ∃ r, r.path = call.path ∧ r.orgId = run.orgId ∧ r.runId = run.runId ∧
        r.sequence = w.sequences call.journal + 1 ∧
        (call.op.deleting = true → w.disk.files call.path ≠ none) ∧
        (capture sha256 run w call).disk = w.disk ∧
        (capture sha256 run w call).store.rows = w.store.rows ++ [r] ∧
        r.Describes sha256 (capture sha256 run w call).store w.disk ∧
        ∀ h data, w.store.blobs.get? h = some data →
          (capture sha256 run w call).store.blobs.get? h = some data := by
  have hregular := hadm.regular
  unfold capture
  rw [if_neg (by simp [hregular])]
  cases hfile : w.disk.files call.path with
  | none =>
      cases hdelete : call.op.deleting with
      | true => exact Or.inl ⟨rfl, rfl, rfl⟩
      | false =>
          refine Or.inr ⟨nextRecord run w call .created none 0 none, rfl, rfl, rfl, rfl,
            (fun h => by cases h), rfl, rfl, ?_, fun _ _ h => h⟩
          exact ⟨hadm.within, fun _ => hfile, fun h => absurd rfl h⟩
  | some file =>
      have hfits : ¬ maxCaptureBytes < file.data.length := Nat.not_lt.mpr (hadm.fits file hfile)
      have hkept : ∀ h data, w.store.blobs.get? h = some data →
          (w.store.putBlob sha256 file.data).blobs.get? h = some data := by
        intro h data hdata
        unfold HostWriteJournalStore.putBlob
        split
        · exact hdata
        · next hnone =>
            by_cases hh : sha256 file.data = h
            · rw [← hh, hnone] at hdata
              cases hdata
            · rw [Dict.get?_set_of_ne _ _ hh, hdata]
      have hput : (w.store.putBlob sha256 file.data).blobs.get? (sha256 file.data)
          = some file.data := by
        unfold HostWriteJournalStore.putBlob
        split
        · next data hdata => rw [hdata, hadm.addressed file hfile data hdata]
        · exact Dict.get?_set_self _ _ _
      have hrows : (w.store.putBlob sha256 file.data).rows = w.store.rows := by
        unfold HostWriteJournalStore.putBlob
        split <;> rfl
      dsimp only
      rw [if_neg hfits]
      refine Or.inr ⟨nextRecord run w call (if call.op.deleting then .deleted else .modified)
        (some (sha256 file.data)) file.data.length (some file.mode), rfl, rfl, rfl, rfl,
        fun _ => Option.some_ne_none file, rfl, ?_, ?_, hkept⟩
      · exact congrArg (· ++ [_]) hrows
      · refine ⟨hadm.within, ?_, fun _ => ⟨file, hfile, rfl, rfl, hput⟩⟩
        intro hcreated
        cases hdelete : call.op.deleting <;> simp [nextRecord, hdelete] at hcreated

variable {r : HostWriteRecord}

theorem firstRecord_path {path : HostPath} (h : firstRecord run w path = some r) :
    r.path = path := by
  simpa using List.find?_some h

/-- A new record is the first of its path only when the path had none. -/
theorem firstRecord_append {w' : JournalWorld} (horg : r.orgId = run.orgId)
    (hrun : r.runId = run.runId) (hrows : w'.store.rows = w.store.rows ++ [r]) (path : HostPath) :
    journaled run w' = journaled run w ++ [r] ∧
      firstRecord run w' path
        = (firstRecord run w path).or (if r.path = path then some r else none) := by
  have hjournaled : journaled run w' = journaled run w ++ [r] := by
    simp [journaled, hrows, horg, hrun]
  refine ⟨hjournaled, ?_⟩
  rw [firstRecord, hjournaled, List.find?_append, List.find?_singleton]
  simp [firstRecord]

theorem HostWriteRecord.Describes.of_files {store store' : HostWriteJournalStore} {d d' : Disk}
    (h : r.Describes sha256 store d) (hfiles : d.files r.path = d'.files r.path)
    (hblobs : ∀ h data, store.blobs.get? h = some data → store'.blobs.get? h = some data) :
    r.Describes sha256 store' d' where
  within := h.within
  created hkind := hfiles ▸ h.created hkind
  found hkind := by
    obtain ⟨file, hfile, hsha, hmode, hblob⟩ := h.found hkind
    exact ⟨file, hfiles ▸ hfile, hsha, hmode, hblobs _ _ hblob⟩

variable {d₀ : Disk}

/-- An operation keeps the files the run found restorable. -/
theorem Undo.restores_performCall (h : Undo sha256 run d₀ w) (hcall : Undoable run w call) :
    d₀.Restores (w.disk.perform call.path call.op) where
  wellFormed := h.restores.wellFormed.perform call.path call.op
  grows q hq := Disk.perform_grows _ _ _ q (h.restores.grows q hq)
  clear path file hfound := by
    refine Bool.eq_false_of_not_eq_true fun hdir => ?_
    rcases Disk.dirs_of_perform hdir with hold | ⟨hanc, hadmits, hwrite⟩
    · rw [h.restores.clear path file hfound] at hold
      cases hold
    · -- the write lands, so the file the run found there is gone and was recorded
      have hgone : w.disk.files path = none := by
        have hblocked := (Disk.admits_iff.mp hadmits).2
        cases hfile : w.disk.files path with
        | none => rfl
        | some f =>
            rw [Disk.blocked_iff.mpr ⟨path, hanc, by rw [hfile]; rfl⟩] at hblocked
            cases hblocked
      cases hfirst : firstRecord run w path with
      | none =>
          rw [h.untouched path hfirst, hfound] at hgone
          cases hgone
      | some r =>
          have habsent := (h.describes path r hfirst).created
            (hcall.beneath hwrite hadmits path hanc r hfirst)
          rw [firstRecord_path hfirst, hfound] at habsent
          cases habsent

theorem Undo.performCall (h : Undo sha256 run d₀ w) (hadm : Admitted sha256 w call)
    (hcall : Undoable run w call) : Undo sha256 run d₀ (performCall sha256 run w call) := by
  have hrestores := h.restores_performCall hcall
  rcases capture_cases run hadm with ⟨hsame, hdelete, habsent⟩ |
    ⟨r, hpath, horg, hrun, hseq, hrecorded, hdisk, hrows, hdescribes, hblobs⟩
  · have hw : CopilotRuntime.Desktop.performCall sha256 run w call = w := by
      unfold CopilotRuntime.Desktop.performCall
      dsimp only
      rw [hsame, Disk.perform_deleting_nothing hdelete habsent]
    rwa [hw]
  · have hrows : (CopilotRuntime.Desktop.performCall sha256 run w call).store.rows
        = w.store.rows ++ [r] := hrows
    have hfirst := firstRecord_append horg hrun hrows
    have hnow : (CopilotRuntime.Desktop.performCall sha256 run w call).disk
        = w.disk.perform call.path call.op := by
      unfold CopilotRuntime.Desktop.performCall
      dsimp only
      rw [hdisk]
    refine ⟨hnow ▸ hrestores, ?_, ?_, ?_⟩
    · intro path hnone
      rw [(hfirst path).2, Option.or_eq_none_iff] at hnone
      have hne : path ≠ call.path := by
        rintro rfl
        simp [hpath] at hnone
      rw [hnow, Disk.perform_files_of_ne _ _ hne, h.untouched path hnone.1]
    · intro path x hx
      rw [(hfirst path).2] at hx
      cases hold : firstRecord run w path with
      | some first =>
          obtain rfl : first = x := by simpa [hold] using hx
          exact (h.describes path first hold).of_files rfl hblobs
      | none =>
          obtain ⟨rfl, rfl⟩ : r.path = path ∧ r = x := by simpa [hold] using hx
          exact hdescribes.of_files (h.untouched r.path hold) fun _ _ h => h
    · intro path x hx x' hx' hpath'
      rw [(hfirst path).2] at hx
      rw [(hfirst path).1, List.mem_append, List.mem_singleton] at hx'
      cases hold : firstRecord run w path with
      | some first =>
          obtain rfl : first = x := by simpa [hold] using hx
          rcases hx' with hmem | rfl
          · exact h.ordered path first hold x' hmem hpath'
          · rw [hseq]
            apply hcall.numbered hrecorded
            rw [← hpath, hpath']
            exact hold
      | none =>
          obtain ⟨-, rfl⟩ : r.path = path ∧ r = x := by simpa [hold] using hx
          rcases hx' with hmem | rfl
          · have := List.find?_eq_none.mp hold x' hmem
            simp [hpath'] at this
          · exact le_refl _

theorem Undo.performAll {calls : List HostCall} (h : Undo sha256 run d₀ w)
    (hadm : EachCall sha256 run (Admitted sha256) w calls)
    (hcalls : EachCall sha256 run (Undoable run) w calls) :
    Undo sha256 run d₀ (performAll sha256 run w calls) := by
  induction calls generalizing w with
  | nil => exact h
  | cons call rest ih => exact ih (h.performCall hadm.1 hcalls.1) hadm.2 hcalls.2

/-- The whole-run selection holds exactly the first record of each path. -/
theorem Undo.mem_select_iff (h : Undo sha256 run d₀ w) :
    r ∈ HostWriteReverter.select (w.store.recordsForRun run.orgId run.runId) none
      ↔ firstRecord run w r.path = some r := by
  have hsorted : (w.store.recordsForRun run.orgId run.runId).Pairwise
      fun a b => a.sequence ≤ b.sequence := List.pairwise_insertionSort _ _
  rw [HostWriteReverter.mem_select_iff hsorted]
  have hfind : ∀ path first, firstRecord run w path = some first →
      (w.store.recordsForRun run.orgId run.runId).find? (fun x => x.path = path)
        = some first := by
    intro path first hfirst
    apply find?_insertionSort HostWriteRecord.sequence _ hfirst
    intro b hb hpath
    exact h.ordered path first hfirst b hb (by simpa using hpath)
  constructor
  · intro hr
    cases hfirst : firstRecord run w r.path with
    | some first =>
        rw [hfind _ _ hfirst] at hr
        exact hr
    | none =>
        have hmem := (List.mem_insertionSort _).mp (List.mem_of_find?_eq_some hr)
        simpa using List.find?_eq_none.mp hfirst r hmem
  · exact hfind r.path r

theorem Undo.revertRun (hwf : d₀.WellFormed) (h : Undo sha256 run d₀ w) :
    (HostWriteReverter.revertRun sha256 run w).files = d₀.files := by
  funext path
  rw [HostWriteReverter.revertRun, HostWriteReverter.revert_files hwf _ h.restores]
  · split
    · rfl
    · next hnot =>
        apply h.untouched
        refine Option.eq_none_iff_forall_ne_some.mpr fun r hr => hnot ?_
        have hpath := firstRecord_path hr
        exact List.mem_map.mpr ⟨r, h.mem_select_iff.mpr (hpath ▸ hr), hpath⟩
  · intro r hr
    exact h.describes r.path r (h.mem_select_iff.mp hr)

theorem Undo.start (hwf : w.disk.WellFormed) (hnew : journaled run w = []) :
    Undo sha256 run w.disk w where
  restores := ⟨hwf, fun _ h => h, fun _ _ hfile => hwf.not_dir hfile⟩
  untouched _ _ := rfl
  describes path r hr := by
    rw [firstRecord, hnew] at hr
    cases hr
  ordered path r hr := by
    rw [firstRecord, hnew] at hr
    cases hr

/-- Reverting the whole run restores every path, content and absence alike, to what it
held before the run's first change to it. -/
theorem undo_restores_run (sha256 : List UInt8 → String) (run : JournalRun)
    (w : JournalWorld) (calls : List HostCall) (hwf : w.disk.WellFormed)
    (hnew : journaled run w = []) (hadm : EachCall sha256 run (Admitted sha256) w calls)
    (hcalls : EachCall sha256 run (Undoable run) w calls) :
    (HostWriteReverter.revertRun sha256 run (performAll sha256 run w calls)).files
      = w.disk.files := by
  have hundo : Undo sha256 run w.disk (performAll sha256 run w calls) :=
    (Undo.start hwf hnew).performAll hadm hcalls
  exact hundo.revertRun hwf

end Runs

namespace Sample

/-- A readable stand-in for the digest. -/
def spell (data : List UInt8) : String := String.ofList (data.map fun b => Char.ofNat b.toNat)

def run : JournalRun := ⟨"acme", "talk", "run"⟩

def planPath : HostPath := ["work", "plan"]

def emptyDisk : Disk := ⟨fun _ => none, fun _ => false⟩

/-- A fresh run over a disk with one file. -/
def world : JournalWorld where
  disk := emptyDisk.put planPath ⟨[0], 420⟩
  store := ⟨Dict.empty, []⟩
  sequences _ := 0

theorem world_wellFormed : world.disk.WellFormed := by
  have hempty : emptyDisk.WellFormed := nofun
  exact hempty.put _ rfl

/-- A call of one journal instance below the granted folder. -/
def call (journal : Nat) (name : String) (op : HostOp) : HostCall :=
  ⟨journal, none, ["work", name], ["work"], op, name, 0⟩

def write (byte : UInt8) : HostOp := .write (some ⟨[byte], 420⟩)

/-- The first attempt makes a draft and edits the plan, the second edits the plan again. -/
def interleaved : List HostCall :=
  [call 0 "draft" (write 1), call 0 "plan" (write 1), call 1 "plan" (write 2)]

/-- The first attempt edits the plan, the second edits and deletes it. -/
def aligned : List HostCall :=
  [call 0 "plan" (write 1), call 1 "plan" (write 2), call 1 "plan" (.delete true)]

theorem interleaved_admitted :
    EachCall spell run (Admitted spell) world interleaved :=
  ⟨⟨by decide, by decide, by decide, by decide⟩,
    ⟨by decide, by decide, by decide, by decide⟩,
    ⟨by decide, by decide, by decide, by decide⟩, trivial⟩

theorem aligned_admitted : EachCall spell run (Admitted spell) world aligned :=
  ⟨⟨by decide, by decide, by decide, by decide⟩,
    ⟨by decide, by decide, by decide, by decide⟩,
    ⟨by decide, by decide, by decide, by decide⟩, trivial⟩

theorem aligned_undoable : EachCall spell run (Undoable run) world aligned :=
  ⟨⟨by decide, fun _ _ => by decide⟩, ⟨by decide, fun _ _ => by decide⟩,
    ⟨by decide, fun _ _ => by decide⟩, trivial⟩

end Sample

open Sample in
theorem undo_restores_run_aligned :
    (HostWriteReverter.revertRun spell Sample.run
        (performAll spell Sample.run world aligned)).files planPath
      = some ⟨[0], 420⟩ :=
  congrFun (undo_restores_run spell Sample.run world aligned world_wellFormed rfl
    aligned_admitted aligned_undoable) planPath

open Sample in
/-- The second attempt counts from one again, so its pre-image of the plan looks older. -/
theorem undo_keeps_an_agent_version :
    world.disk.WellFormed ∧ journaled Sample.run world = [] ∧ (∀ i, world.sequences i = 0) ∧
      EachCall spell Sample.run (Admitted spell) world interleaved ∧
      world.disk.files planPath = some ⟨[0], 420⟩ ∧
      (HostWriteReverter.revertRun spell Sample.run
          (performAll spell Sample.run world interleaved)).files planPath
        = some ⟨[1], 420⟩ :=
  ⟨world_wellFormed, rfl, fun _ => rfl, interleaved_admitted, by decide, by decide⟩

end CopilotRuntime.Desktop
