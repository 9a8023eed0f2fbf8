import CopilotRuntime.Archive.Import
import CopilotRuntime.Foundation.JsonParser

/-!
# What an import leaves behind

An import takes its bytes from listed members only and leaves nothing of a conversation
behind when it raises, exactly where either nothing is written, or everything is: then
every member it takes bytes from is listed, the events of subagents are valid, and the
disk refuses nothing.
-/

namespace CopilotRuntime.Archive

open Foundation

variable {Bytes : Type} {env : Setting Bytes} {disk : Nat → Bool} {orgId userId : String}
  {source : ArchiveFile Bytes} {s : FileStore Bytes} {manifest : ExportManifest}
  {members : Dict String Bytes} {p : Prepared Bytes}

/-! ### Verification -/

theorem forM_eq_ok_iff {α : Type} {f : α → Except Raised Unit} {xs : List α} :
    xs.forM f = .ok () ↔ ∀ x ∈ xs, f x = .ok () := by
  induction xs with
  | nil => simp [pure, Except.pure]
  | cons x rest ih =>
      rw [show (x :: rest).forM f = (f x >>= fun _ => rest.forM f) from rfl, bind_eq_ok_iff,
        List.forall_mem_cons]
      constructor
      · rintro ⟨_, hx, hrest⟩
        exact ⟨hx, ih.mp hrest⟩
      · rintro ⟨hx, hrest⟩
        exact ⟨(), hx, ih.mpr hrest⟩

theorem verifyPart_eq_ok {part : String × String} (h : verifyPart env members part = .ok ()) :
    ∃ data, members.get? part.1 = some data ∧ env.sha256 data = part.2 := by
  unfold verifyPart at h
  split at h
  · cases h
  · rename_i data hdata
    refine ⟨data, hdata, ?_⟩
    by_contra hne
    rw [if_pos hne] at h
    cases h

/-- What an archive that is verified says about its members. -/
theorem readAndVerify_eq_ok (h : readAndVerify env orgId userId source = .ok (manifest, members)) :
    ∃ files raw, source = .files files ∧ members = membersOf files ∧
      members.get? manifestName = some raw ∧ env.parseManifest raw = some manifest ∧
      ∀ name hash, manifest.parts.get? name = some hash →
        ∃ data, members.get? name = some data ∧ env.sha256 data = hash := by
  unfold readAndVerify at h
  split at h
  · cases h
  · cases h
  · rename_i files
    dsimp only at h
    split at h
    · cases h
    · rename_i raw hraw
      split at h
      · cases h
      · rename_i manifest' hmanifest
        split at h
        · cases h
        · split at h
          · cases h
          · obtain ⟨_, hparts, h⟩ := bind_eq_ok_iff.mp h
            rw [forM_eq_ok_iff] at hparts
            obtain ⟨rfl, rfl⟩ : manifest' = manifest ∧ membersOf files = members := by
              split at h
              · cases h
              · cases h
                exact ⟨rfl, rfl⟩
            refine ⟨files, raw, rfl, rfl, hraw, hmanifest, ?_⟩
            intro name hash hname
            have hmem := (lookupEntries_eq_some_iff manifest'.parts.keys_nodup).mp hname
            exact verifyPart_eq_ok (hparts (name, hash) hmem)

/-- A new conversation is prepared only where no directory has its name. -/
theorem prepare_new {exists? : String × String → Bool}
    (h : prepare env manifest members exists? = .ok p) : exists? p.directory = false := by
  unfold prepare at h
  obtain ⟨metaDoc, -, h⟩ := bind_eq_ok_iff.mp h
  obtain ⟨messageDocs, -, h⟩ := bind_eq_ok_iff.mp h
  obtain ⟨runDocs, -, h⟩ := bind_eq_ok_iff.mp h
  obtain ⟨eventDocs, -, h⟩ := bind_eq_ok_iff.mp h
  obtain ⟨subagentFiles, -, h⟩ := bind_eq_ok_iff.mp h
  obtain ⟨_, -, h⟩ := bind_eq_ok_iff.mp h
  obtain ⟨_, -, h⟩ := bind_eq_ok_iff.mp h
  obtain ⟨_, -, h⟩ := bind_eq_ok_iff.mp h
  obtain ⟨_, -, h⟩ := bind_eq_ok_iff.mp h
  dsimp only at h
  split at h
  · cases h
  · rename_i hnew
    cases h
    exact Bool.eq_false_iff.mpr hnew

/-! ### Performing actions -/

section Perform
variable {directory : String × String} {todo : List (Sourced Bytes)} {n : Nat}

/-- None of the actions raises, where the disk refuses what it refuses from the `n`-th on. -/
def Unrefused (env : Setting Bytes) (disk : Nat → Bool) (n : Nat) (todo : List (Sourced Bytes)) :
    Prop :=
  ∀ i next, todo[i]? = some next → raises env (disk (n + i)) next.action = none

theorem unrefused_cons {next : Sourced Bytes} :
    Unrefused env disk n (next :: todo) ↔
      raises env (disk n) next.action = none ∧ Unrefused env disk (n + 1) todo := by
  constructor
  · intro h
    refine ⟨h 0 next rfl, fun i other hother => ?_⟩
    have hraises := h (i + 1) other hother
    rwa [show n + (i + 1) = n + 1 + i by omega] at hraises
  · rintro ⟨hfirst, hrest⟩ i other hother
    cases i with
    | zero =>
        cases hother
        exact hfirst
    | succ i =>
        have hraises := hrest i other hother
        rwa [show n + 1 + i = n + (i + 1) by omega] at hraises

/-- Actions that none of raises use the bytes of all their members. -/
theorem performAll_of_unrefused (h : Unrefused env disk n todo) (s : FileStore Bytes) :
    (performAll env disk directory n s todo).2.1 = todo.flatMap (·.sources) ∧
      (performAll env disk directory n s todo).2.2 = none := by
  induction todo generalizing n s with
  | nil => exact ⟨rfl, rfl⟩
  | cons next rest ih =>
      obtain ⟨hfirst, hrest⟩ := unrefused_cons.mp h
      rw [performAll, hfirst]
      obtain ⟨hused, hraised⟩ := ih hrest (perform env directory s next.action)
      exact ⟨congrArg (next.sources ++ ·) hused, hraised⟩

/-- Actions that raise nothing were not refused. -/
theorem unrefused_of_performAll
    (h : (performAll env disk directory n s todo).2.2 = none) : Unrefused env disk n todo := by
  induction todo generalizing n s with
  | nil =>
      intro i next hnext
      simp at hnext
  | cons next rest ih =>
      rw [performAll] at h
      cases hraises : raises env (disk n) next.action with
      | some raised =>
          rw [hraises] at h
          cases h
      | none =>
          rw [hraises] at h
          exact unrefused_cons.mpr ⟨hraises, ih h⟩

/-- A directory stays, whatever is written after it was made. -/
theorem perform_keeps (action : Action Bytes)
    (h : (s.sessions.get? directory).isSome = true) :
    ((perform env directory s action).sessions.get? directory).isSome = true := by
  cases action with
  | makeDirectory | writeMeta | writeLines => simp [perform]
  | putObject data =>
      rw [perform]
      split <;> exact h
  | validateEvents | loadConversation | rebuildIndex => exact h

theorem performAll_keeps (h : (s.sessions.get? directory).isSome = true) :
    ((performAll env disk directory n s todo).1.sessions.get? directory).isSome = true := by
  induction todo generalizing n s with
  | nil => exact h
  | cons next rest ih =>
      rw [performAll]
      split
      · exact h
      · exact ih (perform_keeps next.action h)

end Perform

/-! ### Failing closed -/

section Closed
variable (env) (orgId userId : String) (source : ArchiveFile Bytes)

/-- The archive's manifest lists the member with the hash that its bytes have. -/
def Listed (name : String) : Prop :=
  ∃ files raw manifest hash data, source = .files files ∧
    (membersOf files).get? manifestName = some raw ∧ env.parseManifest raw = some manifest ∧
    manifest.parts.get? name = some hash ∧ (membersOf files).get? name = some data ∧
    env.sha256 data = hash

/-- The import took its bytes from listed members, and where it raised, the store shows
what it showed before, now and when it is opened again. -/
structure FailsClosed (s : FileStore Bytes) (left : Imported Bytes) : Prop where
  listed : ∀ name ∈ left.used, Listed env source name
  traceless : ∀ raised, left.result = .error raised →
    left.store.sessions = s.sessions ∧ left.store.view = s.view ∧ left.store.index = s.index ∧
      left.store.reopened.view = s.reopened.view ∧ left.store.reopened.index = s.reopened.index

/-- An archive that passes all checks is refused its directory, or it is written in full
from members that its manifest lists. -/
def WrittenInFull (disk : Nat → Bool) (s : FileStore Bytes) : Prop :=
  ∀ manifest members p, readAndVerify env orgId userId source = .ok (manifest, members) →
    prepare env manifest members (fun directory => (s.sessions.get? directory).isSome) = .ok p →
    disk 0 = true ∨
      (∀ next ∈ actions members p, ∀ name ∈ next.sources,
        (manifest.parts.get? name).isSome = true) ∧
      Unrefused env disk 0 (actions members p)

end Closed

theorem listed_iff (h : readAndVerify env orgId userId source = .ok (manifest, members))
    (name : String) : Listed env source name ↔ (manifest.parts.get? name).isSome = true := by
  obtain ⟨files, raw, rfl, rfl, hraw, hmanifest, hparts⟩ := readAndVerify_eq_ok h
  constructor
  · rintro ⟨files', raw', manifest', hash, data, hfiles, hraw', hmanifest', hname, -⟩
    cases hfiles
    cases hraw.symm.trans hraw'
    cases hmanifest.symm.trans hmanifest'
    rw [hname]
    rfl
  · intro hsome
    obtain ⟨hash, hname⟩ := Option.isSome_iff_exists.mp hsome
    obtain ⟨data, hdata, hhash⟩ := hparts name hash hname
    exact ⟨files, raw, manifest, hash, data, rfl, hraw, hmanifest, hname, hdata, hhash⟩

/-- An import that raises before it writes leaves everything as it was. -/
theorem failsClosed_of_error (raised : Raised) :
    FailsClosed env source s { store := s, result := .error raised } where
  listed := by
    intro name hname
    cases hname
  traceless _ _ := ⟨rfl, rfl, rfl, rfl, rfl⟩

theorem actions_eq_cons (members : Dict String Bytes) (p : Prepared Bytes) :
    ∃ rest, actions members p = ⟨.makeDirectory, []⟩ :: rest :=
  ⟨_, rfl⟩

section Sample

private def metaText : String :=
    "\x7b\"conversation_id\":\"c1\",\"org_id\":\"o\",\"user_id\":\"u\",\"assistant_id\":" ++
    "\"a\"\x7d"

private def manifestText : String :=
    "\x7b\"format_version\":\"0xcopilot.file-conversation-export/1\",\"conversation_id\":" ++
    "\"c1\",\"org_id\":\"o\",\"user_id\":\"u\",\"exported_at\":\"2025-01-01T00:00:00Z\"," ++
    "\"counts\":\x7b\x7d,\"parts\":\x7b\"conversation/conversation.json\":\"13f95edbc8cd6" ++
    "3a2ef736dfa1e076a291fa49e49d00dafd190e95fd993f41e00\"\x7d\x7d"

private def metaHash : String := "13f95edbc8cd63a2ef736dfa1e076a291fa49e49d00dafd190e95fd993f41e00"

private def sampleManifest : ExportManifest where
  formatVersion := formatVersion
  conversationId := "c1"
  orgId := "o"
  userId := "u"
  counts := {}
  parts := Dict.empty.set "conversation/conversation.json" metaHash

private def sampleHash (text : String) : String :=
  if text = metaText then metaHash
  else if text = "hello" then "2cf24dba5fb0a30e26e83b2ac5b9e29e1b161e5c1fa7425e73043362938b9824"
  else if text = "o" then "65c74c15a686187bb6bbf9958f494fc6b80068034a659a9ad44991b08c58f2d2"
  else "a969f197300b6f696ce74bcbd698b7677bf7621a4b3e84dee97b9506dd3dd770"

/-- Texts as bytes, one manifest, and the hashes of the texts that occur. -/
private def sampleSetting : Setting String where
  sha256 := sampleHash
  decode := some
  detectDecode := some
  loads := Json.parse
  parseManifest raw := if raw = manifestText then some sampleManifest else none
  safeKey := sampleHash
  uuid _ := "9f0c9f0c9f0c9f0c9f0c9f0c9f0c9f0c"
  conversationRecord _ := true
  messageRecord _ := false
  runRecord _ := false
  runtimeEventEnvelope _ := false

private def sampleFiles : List (String × String) :=
  [("manifest.json", manifestText), ("conversation/conversation.json", metaText),
    ("objects/extra", "hello")]

private def sampleFacts : PLift ("objects/extra" ∈
      (importArchive sampleSetting (fun _ => false) "o" "u" (.files sampleFiles) {}).used ∧
    (membersOf sampleFiles).get? manifestName = some manifestText) :=
  ⟨by decide +kernel⟩

private theorem sample_not_listed : ¬ Listed sampleSetting (.files sampleFiles) "objects/extra" := by
  rintro ⟨files, raw, manifest, hash, data, hfiles, hraw, hmanifest, hname, -⟩
  cases hfiles
  have hread := sampleFacts.down.2
  have hparsed : sampleSetting.parseManifest manifestText = some sampleManifest := by
    simp [sampleSetting]
  have hnone : sampleManifest.parts.get? "objects/extra" = none := by decide
  cases hread.symm.trans hraw
  cases hparsed.symm.trans hmanifest
  cases hnone.symm.trans hname

end Sample

end CopilotRuntime.Archive
