import CopilotRuntime.ModelInvocation.Entries

/-!
# What the store makes of a record

A journal that replays stays one under every append. A record whose identifier
the journal does not hold is appended exactly when it is valid next.
-/

namespace CopilotRuntime.ModelInvocation

open Foundation Foundation.Program
open EventJournalModelInvocationStore

/-! ### Fresh identifiers -/

namespace Journal

variable {journal : Journal}

/-- No record of the journal has the identifier. -/
def Fresh (journal : Journal) (id : RecordId) : Prop :=
  ∀ record ∈ journal, record.recordId ≠ id

theorem fresh_attemptAdmission {ordinal : Nat}
    (h : ∀ record ∈ journal.admissions, record.admissionOrdinal ≠ ordinal) :
    journal.Fresh (.attemptAdmission ordinal) := by
  intro record hmem hid
  cases record with
  | attemptAdmission record =>
      exact h record (List.mem_filterMap.mpr ⟨_, hmem, rfl⟩) (RecordId.attemptAdmission.inj hid)
  | _ => cases hid

theorem fresh_attemptState {attemptId : AttemptId} {state : ModelAttemptLifecycleState}
    (h : ∀ record ∈ journal.states, record.attemptId = attemptId → record.state ≠ state) :
    journal.Fresh (.attemptState attemptId state) := by
  intro record hmem hid
  cases record with
  | attemptState record =>
      obtain ⟨hattempt, hstate⟩ := RecordId.attemptState.inj hid
      exact h record (List.mem_filterMap.mpr ⟨_, hmem, rfl⟩) hattempt hstate
  | _ => cases hid

theorem fresh_attemptUsage {attemptId : AttemptId}
    (h : ∀ record ∈ journal.usages, record.attemptId ≠ attemptId) :
    journal.Fresh (.attemptUsage attemptId) := by
  intro record hmem hid
  cases record with
  | attemptUsage record =>
      exact h record (List.mem_filterMap.mpr ⟨_, hmem, rfl⟩) (RecordId.attemptUsage.inj hid)
  | _ => cases hid

theorem fresh_attemptFailed {attemptId : AttemptId}
    (h : ∀ record ∈ journal.failures, record.attemptId ≠ attemptId) :
    journal.Fresh (.attemptFailed attemptId) := by
  intro record hmem hid
  cases record with
  | attemptFailed record =>
      exact h record (List.mem_filterMap.mpr ⟨_, hmem, rfl⟩) (RecordId.attemptFailed.inj hid)
  | _ => cases hid

theorem fresh_recovery {ordinal : Nat}
    (h : ∀ record ∈ journal.recoveries, record.recoveryOrdinal ≠ ordinal) :
    journal.Fresh (.recovery ordinal) := by
  intro record hmem hid
  cases record with
  | recovery record =>
      exact h record (List.mem_filterMap.mpr ⟨_, hmem, rfl⟩) (RecordId.recovery.inj hid)
  | _ => cases hid

theorem fresh_completed (h : journal.isTerminal = false) : journal.Fresh .completed := by
  intro record hmem hid
  have hopen := List.any_eq_false.mp h record hmem
  cases record with
  | completed record => exact hopen rfl
  | _ => cases hid

theorem fresh_failed (h : journal.isTerminal = false) : journal.Fresh .failed := by
  intro record hmem hid
  have hopen := List.any_eq_false.mp h record hmem
  cases record with
  | failed record => exact hopen rfl
  | _ => cases hid

end Journal

/-! ### Replaying -/

variable {journal before : Journal} {record : ModelInvocationRecord}

/-- What the store reads again is what it appended, one valid record after the other. -/
theorem replaysAfter_snoc : ReplaysAfter before (journal ++ [record]) ↔
    ReplaysAfter before journal ∧ (before ++ journal).Fresh record.recordId ∧
      ValidNext (before ++ journal) record := by
  induction journal generalizing before with
  | nil =>
      simp only [ReplaysAfter, List.nil_append, List.append_nil, true_and, and_true]
      apply and_congr_left'
      simp only [Journal.Fresh, List.mem_map, not_exists, not_and]
  | cons first rest ih =>
      simp only [ReplaysAfter, List.cons_append, ih, List.append_assoc]
      tauto

theorem listForRun_of_replays (h : ReplaysAfter [] journal) : listForRun journal = .ok journal :=
  if_pos h

theorem append_of_replays (h : ReplaysAfter [] journal) : append journal record =
    match journal.find? fun existing => existing.recordId = record.recordId with
    | some existing =>
        if existing = record then .ok journal else .error (.conflict record.recordId)
    | none => appendNew journal record := by
  rw [append, listForRun_of_replays h]
  rfl

/-- The same record again leaves the journal as it was. -/
theorem append_of_mem (h : ReplaysAfter [] journal)
    (hfind : journal.find? (fun existing => existing.recordId = record.recordId) = some record) :
    append journal record = .ok journal := by
  rw [append_of_replays h, hfind]
  exact if_pos rfl

theorem append_of_conflict {existing : ModelInvocationRecord} (h : ReplaysAfter [] journal)
    (hfind : journal.find? (fun existing => existing.recordId = record.recordId) = some existing)
    (hne : existing ≠ record) : append journal record = .error (.conflict record.recordId) := by
  rw [append_of_replays h, hfind]
  exact if_neg hne

theorem append_of_fresh (h : ReplaysAfter [] journal) (hfresh : journal.Fresh record.recordId) :
    append journal record = appendNew journal record := by
  have hfind : journal.find? (fun existing => existing.recordId = record.recordId) = none := by
    rw [List.find?_eq_none]
    intro existing hmem
    simpa using hfresh existing hmem
  rw [append_of_replays h, hfind]

theorem append_of_valid (h : ReplaysAfter [] journal) (hfresh : journal.Fresh record.recordId)
    (hvalid : ValidNext journal record) : append journal record = .ok (journal ++ [record]) := by
  rw [append_of_fresh h hfresh, appendNew, if_pos hvalid]

theorem append_of_invalid (h : ReplaysAfter [] journal) (hfresh : journal.Fresh record.recordId)
    (hinvalid : ¬ ValidNext journal record) :
    append journal record = .error (.conflict record.recordId) := by
  rw [append_of_fresh h hfresh, appendNew, if_neg hinvalid]

theorem EventJournalModelInvocationStore.ReplaysAfter.snoc (h : ReplaysAfter [] journal) (hfresh : journal.Fresh record.recordId)
    (hvalid : ValidNext journal record) : ReplaysAfter [] (journal ++ [record]) :=
  replaysAfter_snoc.mpr ⟨h, hfresh, hvalid⟩

/-! ### Appending in a program -/

variable {entry : Entry} {world : World} {crash : World → Prop}
  {post : Except ModelInvocationError Unit → World → Prop}

theorem ensures_appendRecord_invalid (hcrash : crash world) (hformed : ¬ record.WellFormed)
    (hpost : post (.error .invalidRecord) world) :
    Ensures (serve entry) crash post (appendRecord record) world := by
  rw [appendRecord, if_neg hformed]
  exact ⟨hcrash, hpost⟩

/-- A record that the journal does not hold is appended or refused. -/
theorem ensures_appendRecord (hcrash : crash world) (hformed : record.WellFormed)
    (hreplays : ReplaysAfter [] world.journal) (hfresh : world.journal.Fresh record.recordId)
    (hvalid : ValidNext world.journal record →
      crash (world.appended record) ∧ post (.ok ()) (world.appended record))
    (hinvalid : ¬ ValidNext world.journal record → crash (world.refusing record) ∧
      post (.error (.journal (.conflict record.recordId))) (world.refusing record)) :
    Ensures (serve entry) crash post (appendRecord record) world := by
  rw [appendRecord, if_pos hformed, request_bind, ensures_await]
  refine ⟨hcrash, ?_⟩
  by_cases hnext : ValidNext world.journal record
  · simp only [serve, append_of_valid hreplays hfresh hnext]
    exact hvalid hnext
  · simp only [serve, append_of_invalid hreplays hfresh hnext]
    exact hinvalid hnext

/-- A record that the journal holds is left or refused. -/
theorem ensures_appendRecord_held {existing : ModelInvocationRecord} (hcrash : crash world)
    (hformed : record.WellFormed) (hreplays : ReplaysAfter [] world.journal)
    (hfind : world.journal.find? (fun existing => existing.recordId = record.recordId) =
      some existing)
    (hsame : existing = record → post (.ok ()) world)
    (hother : existing ≠ record → crash (world.refusing record) ∧
      post (.error (.journal (.conflict record.recordId))) (world.refusing record)) :
    Ensures (serve entry) crash post (appendRecord record) world := by
  rw [appendRecord, if_pos hformed, request_bind, ensures_await]
  refine ⟨hcrash, ?_⟩
  by_cases heq : existing = record
  · subst heq
    simp only [serve, append_of_mem hreplays hfind]
    exact ⟨hcrash, hsame rfl⟩
  · simp only [serve, append_of_conflict hreplays hfind heq]
    exact hother heq

end CopilotRuntime.ModelInvocation
