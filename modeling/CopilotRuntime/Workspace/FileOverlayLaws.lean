import CopilotRuntime.Workspace.FileOverlayStore

/-!
# The laws of the file overlay store

While no append loses its version file after the current manifest was replaced,
the files of a run are the chain of its appends: the current manifest is the
last one, and each version file is the manifest of its position.

## Implementation notes

Files are named by the digests of run ids, and nothing is assumed of the
digests: a run whose name is taken is refused by the check of the run id.
-/

namespace CopilotRuntime.Workspace

open Foundation

/-! ### Chains -/

section Chains
variable {runId : String} {commits : List Commit} {last : OverlayManifest}

theorem Chain.runId_eq (h : Chain runId commits last) : last.runId = runId := by
  induction h with
  | start => rfl
  | commit _ c _ _ hupdated ih =>
      rw [hupdated]
      exact ih

theorem Chain.version_eq (h : Chain runId commits last) : last.version = commits.length := by
  induction h with
  | start => rfl
  | commit _ c _ _ hupdated ih =>
      rw [hupdated, List.length_append, List.length_singleton, ← ih]
      rfl

/-- The commit at a position was based on that version and made the next one. -/
theorem Chain.at (h : Chain runId commits last) {i : Nat} {c : Commit}
    (hc : commits[i]? = some c) :
    c.request.runId = runId ∧ c.request.expectedVersion = i ∧ c.updated.runId = runId ∧
      c.updated.version = i + 1 := by
  induction h with
  | start => simp at hc
  | @commit commits last h new hrun hexpected hupdated ih =>
      rw [List.getElem?_append] at hc
      split at hc
      · exact ih hc
      · next hpos =>
          obtain ⟨hi, rfl⟩ : i = commits.length ∧ new = c := by
            rw [List.getElem?_singleton] at hc
            split at hc
            · next hzero => exact ⟨by omega, Option.some.inj hc⟩
            · cases hc
          have hversion := h.version_eq
          refine ⟨hrun, hexpected.trans (hversion.trans hi.symm), ?_, ?_⟩
          · rw [hupdated]
            exact h.runId_eq
          · rw [hupdated]
            change last.version + 1 = _
            omega

/-- The last manifest of a chain is the result of its last commit. -/
theorem Chain.last_eq (h : Chain runId commits last) (hpos : 0 < last.version) :
    (commits[last.version - 1]?).map (·.updated) = some last := by
  cases h with
  | start => simp [OverlayManifest.empty] at hpos
  | @commit commits previous h new hrun hexpected hupdated =>
      have hversion := (Chain.commit h new hrun hexpected hupdated).version_eq
      rw [List.length_append, List.length_singleton] at hversion
      rw [hversion]
      simp

theorem Chain.expected_nodup (h : Chain runId commits last) :
    (commits.map (·.request.expectedVersion)).Nodup := by
  rw [List.nodup_iff_getElem?_ne_getElem?]
  intro i j hij hj heq
  rw [List.length_map] at hj
  obtain ⟨ci, hci⟩ : ∃ c, commits[i]? = some c := ⟨_, List.getElem?_eq_getElem (hij.trans hj)⟩
  obtain ⟨cj, hcj⟩ : ∃ c, commits[j]? = some c := ⟨_, List.getElem?_eq_getElem hj⟩
  have hi := (h.at hci).2.1
  have hj' := (h.at hcj).2.1
  rw [List.getElem?_map, List.getElem?_map, hci, hcj] at heq
  simp only [Option.map_some, Option.some.injEq] at heq
  omega

end Chains

/-! ### What the files hold -/

section Invariant
variable (sha256 : String → String)

/-- The appends whose files have a name. -/
def commitsAt (commits : List Commit) (name : String) : List Commit :=
  commits.filter (sha256 ·.request.runId = name)

/-- The files of every name are the chain of the appends to the run that has it. -/
structure StoreRun.Kept (r : StoreRun) : Prop where
  pointed : ∀ name manifest, r.store.pointers.get? name = some manifest →
    sha256 manifest.runId = name ∧ Chain manifest.runId (commitsAt sha256 r.commits name) manifest
  unpointed : ∀ name, r.store.pointers.get? name = none → commitsAt sha256 r.commits name = []
  versions : ∀ name version, r.store.versionFiles.get? (name, version) =
    if version = 0 then none else ((commitsAt sha256 r.commits name)[version - 1]?).map (·.updated)

/-- If the append gets as far as its version file, that write does not fail. -/
def Orderly (s : FileWorkspaceOverlayStore) : StoreCall → Prop
  | .append request => request.fault = .version →
      ∀ current, s.getManifest sha256 request.runId request.now = .ok current →
        current.version ≠ request.expectedVersion
  | .compact _ _ _ => True

end Invariant

section Laws
variable {sha256 : String → String} {r : StoreRun}

theorem StoreRun.kept_empty : StoreRun.empty.Kept sha256 where
  pointed name manifest h := by cases h
  unpointed _ _ := rfl
  versions name version := by
    split
    · rfl
    · rfl

/-- What is read of a run ends the chain of its appends. -/
theorem StoreRun.Kept.chain_of_read (h : r.Kept sha256) {runId : String} {now : Nat}
    {current : OverlayManifest} (hread : r.store.read sha256 runId now = .ok current) :
    Chain runId (commitsAt sha256 r.commits (sha256 runId)) current := by
  unfold FileWorkspaceOverlayStore.read at hread
  split at hread
  · next hnone =>
      split at hread
      · cases hread
      · cases hread
        rw [h.unpointed _ hnone]
        exact .start now
  · next manifest hsome =>
      split at hread
      · cases hread
      · next hrun =>
          cases hread
          have hrun' : current.runId = runId := not_not.mp hrun
          have hchain := (h.pointed _ current hsome).2
          rwa [hrun'] at hchain

/-- The next version of a run has no file yet. -/
theorem StoreRun.Kept.next_free (h : r.Kept sha256) {runId : String} {current : OverlayManifest}
    (hchain : Chain runId (commitsAt sha256 r.commits (sha256 runId)) current) :
    r.store.versionFiles.get? (sha256 runId, current.version + 1) = none := by
  rw [h.versions, if_neg (Nat.succ_ne_zero _), Nat.add_sub_cancel, hchain.version_eq,
    List.getElem?_eq_none le_rfl]
  rfl

/-- The files after an append that wrote both of its files. -/
def FileWorkspaceOverlayStore.appended (s : FileWorkspaceOverlayStore) (name : String)
    (updated : OverlayManifest) : FileWorkspaceOverlayStore where
  pointers := s.pointers.set name updated
  versionFiles := s.versionFiles.set (name, updated.version) updated

/-- An append raises and writes nothing, or the file of its version fails, or it writes both. -/
theorem StoreRun.Kept.append_cases (h : r.Kept sha256) (request : AppendRequest) :
    ((∃ e, StoreRun.answer sha256 r.store request = (.error e, r.store)) ∧
        ∀ current, r.store.read sha256 request.runId request.now = .ok current →
          current.version = request.expectedVersion → request.fault = .pointer) ∨
      ∃ current, r.store.read sha256 request.runId request.now = .ok current ∧
        current.version = request.expectedVersion ∧
        (request.fault = .version ∧ StoreRun.answer sha256 r.store request =
            (.error .storage, { r.store with
              pointers := r.store.pointers.set (sha256 request.runId)
                (current.appendRevision request.mutations request.now) }) ∨
          request.fault = .none ∧ StoreRun.answer sha256 r.store request =
            (.ok (current.appendRevision request.mutations request.now),
              r.store.appended (sha256 request.runId)
                (current.appendRevision request.mutations request.now))) := by
  unfold StoreRun.answer FileWorkspaceOverlayStore.appendRevision
  cases hread : r.store.read sha256 request.runId request.now with
  | error e => exact .inl ⟨⟨e, rfl⟩, fun _ hcurrent => by cases hcurrent⟩
  | ok current =>
      by_cases hversion : current.version = request.expectedVersion
      · have hfree := h.next_free (h.chain_of_read hread)
        have hnext : (current.appendRevision request.mutations request.now).version =
          current.version + 1 := rfl
        dsimp only
        rw [if_neg (not_not.mpr hversion)]
        cases hfault : request.fault with
        | pointer =>
            left
            exact ⟨⟨.storage, rfl⟩, fun _ _ _ => rfl⟩
        | version =>
            right
            refine ⟨current, rfl, hversion, .inl ⟨rfl, ?_⟩⟩
            simp [FileWorkspaceOverlayStore.writeBoth, FileWorkspaceOverlayStore.write,
              FileWorkspaceOverlayStore.writeVersion, hnext, hfree]
        | none =>
            right
            refine ⟨current, rfl, hversion, .inr ⟨rfl, ?_⟩⟩
            simp [FileWorkspaceOverlayStore.writeBoth, FileWorkspaceOverlayStore.write,
              FileWorkspaceOverlayStore.writeVersion, hnext, hfree,
              FileWorkspaceOverlayStore.appended]
      · left
        refine ⟨⟨.conflict, by simp [hversion]⟩, fun other hother hsame => ?_⟩
        cases hother
        exact absurd hsame hversion

theorem commitsAt_snoc (commits : List Commit) (c : Commit) (name : String) :
    commitsAt sha256 (commits ++ [c]) name =
      if sha256 c.request.runId = name then commitsAt sha256 commits name ++ [c]
      else commitsAt sha256 commits name := by
  unfold commitsAt
  rw [List.filter_append]
  split
  · next hname => simp [hname]
  · next hname => simp [hname]

theorem getElem?_snoc {α : Type} (xs : List α) (x : α) (n : Nat) :
    (xs ++ [x])[n]? = if n = xs.length then some x else xs[n]? := by
  rw [List.getElem?_append]
  split
  · next hlt => rw [if_neg (Nat.ne_of_lt hlt)]
  · next hge =>
      rw [List.getElem?_singleton]
      by_cases heq : n = xs.length
      · rw [if_pos heq, if_pos (by omega)]
      · rw [if_neg heq, if_neg (by omega), List.getElem?_eq_none (Nat.le_of_not_lt hge)]

/-- An append that wrote both files is the next link of the chain of its run. -/
theorem StoreRun.Kept.committed (h : r.Kept sha256) {request : AppendRequest}
    {current : OverlayManifest}
    (hread : r.store.read sha256 request.runId request.now = .ok current)
    (hversion : current.version = request.expectedVersion) :
    StoreRun.Kept sha256
      ⟨r.store.appended (sha256 request.runId)
        (current.appendRevision request.mutations request.now),
        r.commits ++ [⟨request, current.appendRevision request.mutations request.now⟩]⟩ := by
  have hchain := h.chain_of_read hread
  have hrun : (current.appendRevision request.mutations request.now).runId = request.runId :=
    hchain.runId_eq
  have hlength := hchain.version_eq
  refine ⟨fun name manifest hpointer => ?_, fun name hpointer => ?_, fun name version => ?_⟩
  · simp only [FileWorkspaceOverlayStore.appended, Dict.get?_set] at hpointer
    rw [commitsAt_snoc]
    split at hpointer
    · next hname =>
        cases hpointer
        refine ⟨by rw [hrun, hname], ?_⟩
        rw [if_pos hname, hrun, ← hname]
        exact hchain.commit ⟨request, _⟩ rfl hversion.symm rfl
    · next hname =>
        rw [if_neg hname]
        exact h.pointed name manifest hpointer
  · simp only [FileWorkspaceOverlayStore.appended, Dict.get?_set] at hpointer
    rw [commitsAt_snoc]
    split at hpointer
    · cases hpointer
    · next hname =>
        rw [if_neg hname]
        exact h.unpointed name hpointer
  · have hold := h.versions name version
    have hnext : (current.appendRevision request.mutations request.now).version =
      current.version + 1 := rfl
    rw [commitsAt_snoc]
    simp only [FileWorkspaceOverlayStore.appended, Dict.get?_set, Prod.mk.injEq, hnext]
    by_cases hname : sha256 request.runId = name
    · subst hname
      rw [if_pos rfl, getElem?_snoc, ← hlength]
      by_cases hpos : version = current.version + 1
      · subst hpos
        rw [if_pos ⟨rfl, rfl⟩, if_neg (Nat.succ_ne_zero _), Nat.add_sub_cancel, if_pos rfl]
        rfl
      · rw [if_neg (fun hboth => hpos hboth.2.symm), hold]
        by_cases hzero : version = 0
        · rw [if_pos hzero, if_pos hzero]
        · rw [if_neg hzero, if_neg hzero, if_neg (by omega)]
    · rw [if_neg (fun hboth => hname hboth.1), if_neg hname]
      exact hold

/-- A run whose manifest can be read has that name to itself. -/
theorem StoreRun.Kept.pointer_of_read (h : r.Kept sha256) {runId : String} {now : Nat}
    {manifest : OverlayManifest} (hread : r.store.read sha256 runId now = .ok manifest) :
    StoreRun.Kept sha256
      ⟨{ r.store with pointers := r.store.pointers.set (sha256 runId) manifest }, r.commits⟩ := by
  have hchain := h.chain_of_read hread
  have hrun := hchain.runId_eq
  refine ⟨fun name pointer hpointer => ?_, fun name hpointer => ?_, h.versions⟩
  · simp only [Dict.get?_set] at hpointer
    split at hpointer
    · next hname =>
        cases hpointer
        refine ⟨by rw [hrun, hname], ?_⟩
        rw [hrun, ← hname]
        exact hchain
    · exact h.pointed name pointer hpointer
  · simp only [Dict.get?_set] at hpointer
    split at hpointer
    · cases hpointer
    · exact h.unpointed name hpointer

/-- Compacting leaves every file as it is, or writes down the manifest that is read anyway. -/
theorem StoreRun.Kept.compact_cases (h : r.Kept sha256) (runId : String) (now : Nat)
    (fault : WriteFault) :
    (r.store.compact sha256 runId now fault).2 = r.store ∨
      ∃ manifest, r.store.read sha256 runId now = .ok manifest ∧
        (r.store.compact sha256 runId now fault).2 =
          { r.store with pointers := r.store.pointers.set (sha256 runId) manifest } := by
  unfold FileWorkspaceOverlayStore.compact
  cases hread : r.store.read sha256 runId now with
  | error e => exact .inl rfl
  | ok manifest =>
      have hchain := h.chain_of_read hread
      by_cases hfault : fault = .pointer
      · left
        simp [FileWorkspaceOverlayStore.writeBoth, FileWorkspaceOverlayStore.write, hfault]
      · right
        refine ⟨manifest, rfl, ?_⟩
        by_cases hpos : 0 < manifest.version
        · have hfile : r.store.versionFiles.get? (sha256 runId, manifest.version) =
              some manifest := by
            rw [h.versions, if_neg (Nat.ne_of_gt hpos)]
            exact hchain.last_eq hpos
          simp [FileWorkspaceOverlayStore.writeBoth, FileWorkspaceOverlayStore.write, hfault, hpos,
            FileWorkspaceOverlayStore.writeVersion, FileWorkspaceOverlayStore.readVersion, hfile,
            hchain.runId_eq]
        · simp [FileWorkspaceOverlayStore.writeBoth, FileWorkspaceOverlayStore.write, hfault, hpos]

/-- An orderly call keeps the files and the appends together. -/
theorem StoreRun.Kept.serve (h : r.Kept sha256) {call : StoreCall}
    (horderly : Orderly sha256 r.store call) : (r.serve sha256 call).Kept sha256 := by
  cases call with
  | append request =>
      obtain ⟨⟨e, hraised⟩, -⟩ | ⟨current, hread, hversion, hreached⟩ := h.append_cases request
      · simp only [StoreRun.serve, hraised]
        exact h
      · obtain ⟨hfault, -⟩ | ⟨-, hdone⟩ := hreached
        · exact absurd hversion (horderly hfault current hread)
        · simp only [StoreRun.serve, hdone]
          exact h.committed hread hversion
  | compact runId now fault =>
      obtain hsame | ⟨manifest, hread, hwritten⟩ := h.compact_cases runId now fault
      · simp only [StoreRun.serve, hsame]
        exact h
      · simp only [StoreRun.serve, hwritten]
        exact h.pointer_of_read hread

/-- What was committed stays, in its place. -/
theorem StoreRun.commits_serve (call : StoreCall) : r.commits <+: (r.serve sha256 call).commits := by
  cases call with
  | append request =>
      unfold StoreRun.serve
      dsimp only
      split
      · exact List.prefix_append _ _
      · exact List.prefix_rfl
  | compact runId now fault => exact List.prefix_rfl

end Laws

section Histories
variable (sha256 : String → String)

/-- Every call of the history was orderly when it was served. -/
def EachOrderly (history : List StoreCall) : Prop :=
  ∀ earlier call later, history = earlier ++ call :: later →
    Orderly sha256 (StoreRun.after sha256 earlier).store call

theorem after_snoc (history : List StoreCall) (call : StoreCall) :
    StoreRun.after sha256 (history ++ [call]) =
      (StoreRun.after sha256 history).serve sha256 call := by
  simp [StoreRun.after]

variable {sha256}

theorem EachOrderly.of_append {earlier later : List StoreCall}
    (h : EachOrderly sha256 (earlier ++ later)) : EachOrderly sha256 earlier := by
  intro before call after hsplit
  exact h before call (after ++ later) (by simp [hsplit])

theorem kept_after {history : List StoreCall} (h : EachOrderly sha256 history) :
    (StoreRun.after sha256 history).Kept sha256 := by
  induction history using List.reverseRecOn with
  | nil => exact StoreRun.kept_empty
  | append_singleton history call ih =>
      rw [after_snoc]
      exact (ih h.of_append).serve (h history call [] rfl)

theorem eachOrderly_of_faults {history : List StoreCall}
    (h : ∀ request, .append request ∈ history → request.fault ≠ .version) :
    EachOrderly sha256 history := by
  intro earlier call later hsplit
  cases call with
  | append request => exact fun hfault => absurd hfault (h request (by simp [hsplit]))
  | compact runId now fault => trivial

theorem commits_after (earlier later : List StoreCall) :
    (StoreRun.after sha256 earlier).commits <+:
      (StoreRun.after sha256 (earlier ++ later)).commits := by
  induction later using List.reverseRecOn with
  | nil => simp
  | append_singleton later call ih =>
      rw [← List.append_assoc, after_snoc]
      exact ih.trans (StoreRun.commits_serve call)

end Histories

/-! ### The laws -/

/-- The append leaves what is read of every run as it was when it raises. -/
def KeepsWhenRaised (sha256 : String → String) (s : FileWorkspaceOverlayStore)
    (request : AppendRequest) : Prop :=
  ∀ e, (StoreRun.answer sha256 s request).1 = .error e → ∀ runId now,
    (StoreRun.answer sha256 s request).2.getManifest sha256 runId now =
      s.getManifest sha256 runId now

/-- What holds of the store over a history of calls. -/
structure OverlayStoreLaws (sha256 : String → String) (history : List StoreCall) : Prop where
  /-- An append that raises changes no manifest. -/
  keeps : ∀ earlier request later, history = earlier ++ .append request :: later →
    KeepsWhenRaised sha256 (StoreRun.after sha256 earlier).store request
  /-- Every revision that was ever the current manifest can still be read, unchanged. -/
  readable : ∀ earlier later, history = earlier ++ later → ∀ runId now manifest,
    (StoreRun.after sha256 earlier).store.getManifest sha256 runId now = .ok manifest →
      1 ≤ manifest.version →
        (StoreRun.after sha256 history).store.getManifestVersion sha256 runId manifest.version =
          .ok (some manifest)
  /-- At most one of the appends to a run with the same base returned. -/
  one_per_base : ∀ runId,
    (((StoreRun.after sha256 history).commitsOf runId).map (·.request.expectedVersion)).Nodup
  /-- An append that is based on the current manifest returns, if its files can be written. -/
  current_returns : ∀ request current,
    (StoreRun.after sha256 history).store.getManifest sha256 request.runId request.now =
      .ok current → current.version = request.expectedVersion → request.fault = .none →
        (StoreRun.answer sha256 (StoreRun.after sha256 history).store request).1 =
          .ok (current.appendRevision request.mutations request.now)
  /-- The appends that returned are a chain, which ends in the current manifest. -/
  chained : ∀ runId, (∃ last, Chain runId ((StoreRun.after sha256 history).commitsOf runId) last) ∧
    ∀ now manifest,
      (StoreRun.after sha256 history).store.getManifest sha256 runId now = .ok manifest →
        Chain runId ((StoreRun.after sha256 history).commitsOf runId) manifest

section Proofs
variable {sha256 : String → String} {r : StoreRun}

/-- The appends to a run are all the appends under its name, or the name is another run's. -/
theorem StoreRun.Kept.commitsOf_cases (h : r.Kept sha256) (runId : String) :
    (r.commitsOf runId = commitsAt sha256 r.commits (sha256 runId) ∧
        ∃ last, Chain runId (r.commitsOf runId) last) ∨
      (r.commitsOf runId = [] ∧ ∀ now manifest,
        r.store.getManifest sha256 runId now ≠ .ok manifest) := by
  have hname : ∀ c ∈ r.commits, c.request.runId = runId → c ∈ commitsAt sha256 r.commits
      (sha256 runId) := fun c hc hrun => List.mem_filter.mpr ⟨hc, by simp [hrun]⟩
  have hfilter : r.commitsOf runId =
      (commitsAt sha256 r.commits (sha256 runId)).filter (·.request.runId = runId) := by
    unfold StoreRun.commitsOf commitsAt
    rw [List.filter_filter]
    refine List.filter_congr fun c _ => ?_
    by_cases hrun : c.request.runId = runId <;> simp [hrun]
  cases hpointer : r.store.pointers.get? (sha256 runId) with
  | none =>
      left
      have hnone := h.unpointed _ hpointer
      rw [hfilter, hnone]
      exact ⟨rfl, _, .start 0⟩
  | some manifest =>
      obtain ⟨-, hchain⟩ := h.pointed _ manifest hpointer
      have hruns : ∀ c ∈ commitsAt sha256 r.commits (sha256 runId),
          c.request.runId = manifest.runId := by
        intro c hc
        obtain ⟨i, hi⟩ := List.mem_iff_getElem?.mp hc
        exact (hchain.at hi).1
      by_cases hrun : manifest.runId = runId
      · left
        have hall : r.commitsOf runId = commitsAt sha256 r.commits (sha256 runId) := by
          rw [hfilter, List.filter_eq_self]
          exact fun c hc => decide_eq_true ((hruns c hc).trans hrun)
        refine ⟨hall, manifest, ?_⟩
        rw [hall, ← hrun]
        rw [← hrun] at hchain
        exact hchain
      · right
        constructor
        · rw [hfilter, List.filter_eq_nil_iff]
          intro c hc
          simpa [hruns c hc] using hrun
        · intro now other hread
          simp [FileWorkspaceOverlayStore.getManifest, FileWorkspaceOverlayStore.read, hpointer,
            hrun] at hread

/-- An append keeps what is read when it raises, exactly when it is orderly. -/
theorem StoreRun.Kept.keeps_iff (h : r.Kept sha256) (request : AppendRequest) :
    KeepsWhenRaised sha256 r.store request ↔ Orderly sha256 r.store (.append request) := by
  obtain ⟨⟨e, hraised⟩, honly⟩ | ⟨current, hread, hversion, hreached⟩ := h.append_cases request
  · constructor
    · intro _ hfault current hread hversion
      rw [honly current hread hversion] at hfault
      cases hfault
    · intro _ e' _ runId now
      rw [hraised]
  · obtain ⟨hfault, hlost⟩ | ⟨hfault, hdone⟩ := hreached
    · constructor
      · intro hkeeps
        exfalso
        have hsame := hkeeps .storage (by rw [hlost]) request.runId request.now
        rw [hlost] at hsame
        have hrun := (h.chain_of_read hread).runId_eq
        have hnext : (current.appendRevision request.mutations request.now).runId =
          request.runId := hrun
        rw [show r.store.getManifest sha256 request.runId request.now = .ok current from hread]
          at hsame
        simp only [FileWorkspaceOverlayStore.getManifest, FileWorkspaceOverlayStore.read,
          Dict.get?_set_self, hnext, ne_eq, not_true_eq_false, if_false, Except.ok.injEq] at hsame
        have hversions := congrArg OverlayManifest.version hsame
        exact absurd hversions (Nat.succ_ne_self _)
      · intro horderly
        exact absurd hversion (horderly hfault current hread)
    · constructor
      · intro _ hversionFault
        rw [hfault] at hversionFault
        cases hversionFault
      · intro _ e hraised
        rw [hdone] at hraised
        cases hraised

theorem StoreRun.Kept.readable (h : r.Kept sha256) {runId : String} {now : Nat}
    {manifest : OverlayManifest} (hread : r.store.read sha256 runId now = .ok manifest)
    (hpos : 1 ≤ manifest.version) {later : StoreRun} (hlater : later.Kept sha256)
    (hcommits : r.commits <+: later.commits) :
    later.store.getManifestVersion sha256 runId manifest.version = .ok (some manifest) := by
  have hchain := h.chain_of_read hread
  have hlast := hchain.last_eq hpos
  obtain ⟨c, hc, rfl⟩ := Option.map_eq_some_iff.mp hlast
  have hkept : (commitsAt sha256 later.commits (sha256 runId))[c.updated.version - 1]? =
      some c := by
    obtain ⟨new, hnew⟩ := hcommits.filter (sha256 ·.request.runId = sha256 runId)
    unfold commitsAt at hc ⊢
    rw [← hnew, List.getElem?_append_left (List.getElem?_eq_some_iff.mp hc).1]
    exact hc
  have hfile : later.store.versionFiles.get? (sha256 runId, c.updated.version) =
      some c.updated := by
    rw [hlater.versions, if_neg (Nat.ne_of_gt hpos), hkept]
    rfl
  have hnot : ¬ c.updated.version < 1 := Nat.not_lt.mpr hpos
  simp [FileWorkspaceOverlayStore.getManifestVersion, FileWorkspaceOverlayStore.readVersion, hnot,
    hfile, hchain.runId_eq]

end Proofs

/-- Over a history of orderly calls the laws of the store hold, and the next append keeps what is
read when it raises exactly when it is orderly as well. -/
theorem overlay_store_laws_hold (sha256 : String → String) (history : List StoreCall)
    (horderly : EachOrderly sha256 history) :
    OverlayStoreLaws sha256 history ∧ ∀ request,
      (KeepsWhenRaised sha256 (StoreRun.after sha256 history).store request ↔
        Orderly sha256 (StoreRun.after sha256 history).store (.append request)) := by
  have hkept := kept_after horderly
  refine ⟨⟨?_, ?_, ?_, ?_, ?_⟩, fun request => hkept.keeps_iff request⟩
  · intro earlier request later hsplit
    have hearlier : EachOrderly sha256 earlier := by
      rw [hsplit] at horderly
      exact horderly.of_append
    exact ((kept_after hearlier).keeps_iff request).mpr (horderly earlier _ later hsplit)
  · intro earlier later hsplit runId now manifest hread hpos
    have hearlier : EachOrderly sha256 earlier := by
      rw [hsplit] at horderly
      exact horderly.of_append
    refine (kept_after hearlier).readable hread hpos hkept ?_
    rw [hsplit]
    exact commits_after earlier later
  · intro runId
    obtain ⟨-, last, hchain⟩ | ⟨hnone, -⟩ := hkept.commitsOf_cases runId
    · exact hchain.expected_nodup
    · rw [hnone]
      exact List.nodup_nil
  · intro request current hread hversion hfault
    obtain ⟨-, honly⟩ | ⟨other, hother, -, hreached⟩ := hkept.append_cases request
    · rw [honly current hread hversion] at hfault
      cases hfault
    · obtain rfl : current = other := Except.ok.inj (hread.symm.trans hother)
      obtain ⟨hversionFault, -⟩ | ⟨-, hdone⟩ := hreached
      · rw [hversionFault] at hfault
        cases hfault
      · rw [hdone]
  · intro runId
    obtain ⟨hall, last, hchain⟩ | ⟨hnone, hunread⟩ := hkept.commitsOf_cases runId
    · refine ⟨⟨last, hchain⟩, fun now manifest hread => ?_⟩
      rw [hall]
      exact hkept.chain_of_read hread
    · rw [hnone]
      exact ⟨⟨_, .start 0⟩, fun now manifest hread => absurd hread (hunread now manifest)⟩

/-! ### A version file that cannot be written -/

namespace StoreSample

theorem directory_is_no_file :
    WorkspaceEntryKind.directory = .file → (none : Option OverlayContent).isSome = true := by
  intro h
  cases h

theorem none_is_no_content : (none : Option OverlayContent).isSome = true →
    WorkspaceEntryKind.directory = .file ∨ WorkspaceEntryKind.directory = .move := by
  intro h
  cases h

def makeDirectory : OverlayMutation := .upsert {
  virtualPath := "/workspace/m/d"
  entryKind := .directory
  operation := .mkdir
  baseline := { existence := .mustNotExist }
  author := "agent"
  createdAt := 0
  file_content := directory_is_no_file
  content_carrier := none_is_no_content }

def request (fault : WriteFault) : AppendRequest := ⟨"run", 0, [makeDirectory], 1, fault⟩

end StoreSample

theorem overlay_store_laws_hold_sample :
    OverlayStoreLaws id [.append (StoreSample.request .pointer),
      .append (StoreSample.request .none)] := by
  refine (overlay_store_laws_hold id _ (eachOrderly_of_faults fun request hrequest => ?_)).1
  simp only [List.mem_cons, StoreCall.append.injEq, List.not_mem_nil, or_false] at hrequest
  obtain rfl | rfl := hrequest
  · decide
  · decide

/-- The append raises, and its manifest is the current one. -/
theorem raised_append_is_visible :
    ¬ ∀ (sha256 : String → String) (history : List StoreCall), OverlayStoreLaws sha256 history := by
  intro h
  have hkeeps := (h id [.append (StoreSample.request .version)]).keeps [] _ [] rfl
  have hsame := hkeeps .storage (by decide) "run" 1
  have hversions := congrArg (fun e => (e.toOption.map (·.version))) hsame
  revert hversions
  decide

end CopilotRuntime.Workspace
