import CopilotRuntime.EventLog.EventStore

/-!
# The laws of run logs

Whatever is appended, the events of a run are numbered from one without gaps,
and a draft that is sent to its run again is recognised by its body. What is
not recognised is an id that another run's log holds: the store looks for it in
the log of the draft's run alone. While no id is shared between runs, every
event id occurs once.

## Implementation notes

A body is the same when storing the draft in the envelope's place would leave
that envelope, annotations apart.
-/

namespace CopilotRuntime.EventLog

open Foundation

/-- The envelope of a draft always exists. -/
theorem ofDraft_eq (d : RuntimeEventDraft) (minted : Minted) (sequenceNo : Nat) :
    RuntimeEventEnvelope.ofDraft d minted sequenceNo =
      some ⟨d.base, d.expectedActivity, d.eventId.getD minted.eventId, sequenceNo,
        d.createdAt.getD minted.createdAt⟩ := by
  have hid := d.eventId_valid
  cases heq : d.eventId with
  | none => simp [RuntimeEventEnvelope.ofDraft, d.base_valid, heq]
  | some id =>
      rw [heq] at hid
      obtain ⟨id', hid', hsame⟩ := Option.map_eq_some_iff.mp hid
      obtain rfl := Option.some.inj hsame
      simp [RuntimeEventEnvelope.ofDraft, d.base_valid, heq, hid']

/-! ### What a redelivery is -/

/-- Two envelopes are the same but for what amendments stamp on them. -/
def RuntimeEventEnvelope.SameApartFromAnnotations (a b : RuntimeEventEnvelope) : Prop :=
  a.base.stripped.same b.base.stripped ∧ a.activityKind = b.activityKind ∧
    a.eventId = b.eventId ∧ a.sequenceNo = b.sequenceNo ∧ a.createdAt = b.createdAt

/-- Storing the draft where the envelope is stored would leave that envelope. -/
def SameBody (d : RuntimeEventDraft) (existing : RuntimeEventEnvelope) : Prop :=
  ∃ envelope, RuntimeEventEnvelope.ofDraft d ⟨existing.eventId, existing.createdAt⟩
      existing.sequenceNo = some envelope ∧
    existing.SameApartFromAnnotations envelope

theorem JsonObject.same_erase {a b : JsonObject} (h : JsonObject.same a b) (key : String) :
    JsonObject.same (a.erase key) (b.erase key) := by
  rw [JsonObject.same_iff]
  intro other
  rw [Dict.get?_erase, Dict.get?_erase]
  split
  · rfl
  · exact JsonObject.same_iff.mp h other

/-- Equal metadata stays equal without its annotations. -/
theorem withoutAnnotations_same {a b : JsonObject} (h : JsonObject.same a b) :
    JsonObject.same (withoutAnnotations a) (withoutAnnotations b) :=
  JsonObject.same_erase (JsonObject.same_erase h _) _

theorem RuntimeEventBase.same_stripped {a b : RuntimeEventBase} (h : a.same b) :
    a.stripped.same b.stripped := by
  obtain ⟨h1, h2, h3, h4, h5, h6, h7, h8, h9, h10, h11, h12, h13, h14, h15, h16, h17, hpayload,
    hmetadata⟩ := h
  exact ⟨h1, h2, h3, h4, h5, h6, h7, h8, h9, h10, h11, h12, h13, h14, h15, h16, h17, hpayload,
    withoutAnnotations_same hmetadata⟩

/-- The body is the same when the draft matches the envelope without annotations. -/
theorem sameBody_iff {d : RuntimeEventDraft} {existing : RuntimeEventEnvelope}
    (hid : d.eventId = some existing.eventId) :
    SameBody d existing ↔
      matchesEnvelope d d.base.stripped { existing with base := existing.base.stripped } := by
  unfold SameBody
  simp only [ofDraft_eq, Option.some.injEq, exists_eq_left']
  constructor
  · rintro ⟨hbase, hactivity, -, -, hcreated⟩
    refine ⟨hid, hbase, hactivity, ?_⟩
    cases hat : d.createdAt with
    | none => exact .inl rfl
    | some at' =>
        rw [hat] at hcreated
        exact .inr (congrArg some hcreated.symm)
  · rintro ⟨-, hbase, hactivity, hcreated⟩
    refine ⟨hbase, hactivity, by simp [hid], rfl, ?_⟩
    rcases hcreated with hnone | hsome
    · simp [hnone]
    · simp [hsome]

/-- A redelivery gives the stored envelope when its body is the same, and a conflict else. -/
theorem resolve_eq {d : RuntimeEventDraft} {existing : RuntimeEventEnvelope}
    (hid : d.eventId = some existing.eventId) [Decidable (SameBody d existing)] :
    resolve d existing =
      if SameBody d existing then .ok existing
      else .error (.idempotencyConflict d.base.runId existing.eventId) := by
  have hiff : (matchesEnvelope d d.base existing ∨ matchesEnvelope d d.base.stripped
      { existing with base := existing.base.stripped }) ↔ SameBody d existing := by
    rw [sameBody_iff hid]
    constructor
    · rintro (⟨hid, hbase, hrest⟩ | h)
      · exact ⟨hid, RuntimeEventBase.same_stripped hbase, hrest⟩
      · exact h
    · exact .inr
  unfold resolve
  by_cases hbody : SameBody d existing
  · rw [if_pos (hiff.mpr hbody), if_pos hbody]
  · rw [if_neg (mt hiff.mp hbody), if_neg hbody]

/-! ### What a step does to the logs -/

namespace RuntimeApiStore

section Steps
variable {φ : Type} {legacy : LegacyMaterializations φ} (s : RuntimeApiStore φ)

@[simp] theorem log_openLog (runId other : String) : (s.openLog runId).log other = s.log other := by
  unfold openLog
  cases h : s.eventsByRun.get? runId with
  | some _ => rfl
  | none =>
      by_cases hrun : runId = other
      · subst hrun
        simp [log, h]
      · simp [log, Dict.get?_set_of_ne _ _ hrun]

theorem openLog_of_mem {s : RuntimeApiStore φ} {runId : String} {e : RuntimeEventEnvelope}
    (h : e ∈ s.log runId) : s.openLog runId = s := by
  unfold openLog
  cases hlog : s.eventsByRun.get? runId with
  | some _ => rfl
  | none => simp [log, hlog] at h

variable (runId : String)

theorem openLog_eventsById : (s.openLog runId).eventsById = s.eventsById := by
  unfold openLog
  split <;> rfl

theorem openLog_runs : (s.openLog runId).runs = s.runs := by
  unfold openLog
  split <;> rfl

@[simp] theorem log_setRunLatestSequence (runId other : String) (n : Nat) :
    (s.setRunLatestSequence runId n).log other = s.log other := by
  unfold setRunLatestSequence
  split
  · rfl
  · split <;> rfl

theorem eventsById_setRunLatestSequence (n : Nat) :
    (s.setRunLatestSequence runId n).eventsById = s.eventsById := by
  unfold setRunLatestSequence
  split
  · rfl
  · split <;> rfl

theorem log_insert (runId other : String) (e : RuntimeEventEnvelope) (m : φ) :
    (s.insert runId e m).log other =
      if runId = other then s.log other ++ [e] else s.log other := by
  unfold insert
  rw [log_setRunLatestSequence]
  by_cases hrun : runId = other
  · subst hrun
    simp [log]
  · simp [log, hrun, Dict.get?_set_of_ne _ _ hrun]

theorem eventsById_insert (e : RuntimeEventEnvelope) (m : φ) :
    (s.insert runId e m).eventsById = s.eventsById.set e.eventId e :=
  eventsById_setRunLatestSequence _ _ _

/-- An append answers from the log, is refused, or puts one new envelope at the log's end. -/
theorem appendEvent_cases (d : RuntimeEventDraft) (minted : Minted) :
    (∃ existing ∈ s.log d.base.runId, d.eventId = some existing.eventId ∧
      s.appendEvent legacy d minted = (resolve d existing, s)) ∨
    (∃ error, s.appendEvent legacy d minted = (.error error, s.openLog d.base.runId) ∧
      ∀ e ∈ s.log d.base.runId, d.eventId ≠ some e.eventId) ∨
    ∃ m, s.appendEvent legacy d minted =
      (.ok ⟨d.base, d.expectedActivity, d.eventId.getD minted.eventId,
          (s.log d.base.runId).length + 1, d.createdAt.getD minted.createdAt⟩,
        (s.openLog d.base.runId).insert d.base.runId
          ⟨d.base, d.expectedActivity, d.eventId.getD minted.eventId,
            (s.log d.base.runId).length + 1, d.createdAt.getD minted.createdAt⟩ m) ∧
      ∀ e ∈ s.log d.base.runId, d.eventId ≠ some e.eventId := by
  unfold appendEvent
  simp only [log_openLog]
  cases hfind : (s.log d.base.runId).find? fun item => d.eventId = some item.eventId with
  | some existing =>
      have hmem := List.mem_of_find?_eq_some hfind
      have hid := List.find?_some hfind
      refine .inl ⟨existing, hmem, by simpa using hid, ?_⟩
      rw [openLog_of_mem hmem]
  | none =>
      have hnew : ∀ e ∈ s.log d.base.runId, d.eventId ≠ some e.eventId := by
        intro e hmem heq
        have hno := List.find?_eq_none.mp hfind e hmem
        simp [heq] at hno
      refine .inr ?_
      simp only [appendNew, log_openLog]
      cases legacy.assertFence (s.openLog d.base.runId).materializations d
          (s.log d.base.runId) with
      | error message => exact .inl ⟨_, rfl, hnew⟩
      | ok fence =>
          simp only [ofDraft_eq]
          exact .inr ⟨_, rfl, hnew⟩

/-! ### Logs and cursors only grow -/

/-- The latest sequence number on a run's record. -/
def latest (s : RuntimeApiStore φ) (runId : String) : Option Nat :=
  (s.runs.get? runId).bind RunRecord.latestSequenceNo

/-- Every log continues as it was, and no run's cursor has moved back. -/
structure Extends (s s' : RuntimeApiStore φ) : Prop where
  logs : ∀ runId, s.log runId <+: s'.log runId
  cursors : ∀ runId n, s.latest runId = some n → ∃ n', s'.latest runId = some n' ∧ n ≤ n'

theorem Extends.refl : Extends s s :=
  ⟨fun _ => List.prefix_refl _, fun _ n h => ⟨n, h, le_rfl⟩⟩

theorem Extends.trans {s s' s'' : RuntimeApiStore φ} (h : Extends s s') (h' : Extends s' s'') :
    Extends s s'' where
  logs runId := (h.logs runId).trans (h'.logs runId)
  cursors runId n hn := by
    obtain ⟨n', hn', hle⟩ := h.cursors runId n hn
    obtain ⟨n'', hn'', hle'⟩ := h'.cursors runId n' hn'
    exact ⟨n'', hn'', hle.trans hle'⟩

theorem extends_openLog :
    Extends s (s.openLog runId) where
  logs other := by
    simp only [log_openLog, List.prefix_rfl]
  cursors other n hn := by
    refine ⟨n, ?_, le_rfl⟩
    rwa [latest, openLog_runs]

/-- The cursor of a run moves forward or stays. -/
theorem extends_setRunLatestSequence (number : Nat) :
    Extends s (s.setRunLatestSequence runId number) where
  logs other := by
    simp only [log_setRunLatestSequence, List.prefix_rfl]
  cursors other n hn := by
    unfold setRunLatestSequence
    split
    · exact ⟨n, hn, le_rfl⟩
    · next current hcurrent =>
        split
        · exact ⟨n, hn, le_rfl⟩
        · next hbehind =>
            by_cases hrun : runId = other
            · subst hrun
              refine ⟨number, by simp [latest], ?_⟩
              have hold : current.latestSequenceNo = some n := by
                simpa [latest, hcurrent] using hn
              simp only [hold, Option.any_some, decide_eq_true_eq] at hbehind
              omega
            · refine ⟨n, ?_, le_rfl⟩
              simpa [latest, Dict.get?_set_of_ne _ _ hrun] using hn

theorem extends_insert (e : RuntimeEventEnvelope) (m : φ) :
    Extends s (s.insert runId e m) where
  logs other := by
    rw [log_insert]
    split
    · exact List.prefix_append _ _
    · exact List.prefix_refl _
  cursors other n hn := (extends_setRunLatestSequence _ runId e.sequenceNo).cursors other n hn

variable (legacy) in
theorem extends_appendEvent (s : RuntimeApiStore φ) (d : RuntimeEventDraft) (minted : Minted) :
    Extends s (s.appendEvent legacy d minted).2 := by
  rcases s.appendEvent_cases d minted with
    ⟨existing, -, -, heq⟩ | ⟨error, heq, -⟩ | ⟨m, heq, -⟩
  · rw [heq]
    exact Extends.refl s
  · rw [heq]
    exact extends_openLog s _
  · rw [heq]
    exact (extends_openLog s _).trans (extends_insert _ _ _ _)

variable (legacy) in
theorem extends_appendAll (s : RuntimeApiStore φ) (events : List (RuntimeEventDraft × Minted)) :
    Extends s (s.appendAll legacy events).2 := by
  induction events generalizing s with
  | nil => exact Extends.refl s
  | cons event rest ih =>
      have hfirst := extends_appendEvent legacy s event.1 event.2
      unfold appendAll
      cases happend : s.appendEvent legacy event.1 event.2 with
      | mk result s' =>
          rw [happend] at hfirst
          cases result with
          | error e => exact hfirst
          | ok envelope =>
              have hrest := hfirst.trans (ih s')
              simp only
              split <;> next hall => rw [hall] at hrest; exact hrest

end Steps

/-! ### Runs -/

section Runs
variable {φ : Type} (legacy : LegacyMaterializations φ)

/-- What is asked of the store, with the ids and times it mints on the way. -/
inductive StoreCall
  | createRun (runId : String)
  | setRunLatestSequence (runId : String) (latestSequenceNo : Nat)
  | appendEvent (event : RuntimeEventDraft) (minted : Minted)
  | appendEventsBatch (events : List (RuntimeEventDraft × Minted))

def takeCall (s : RuntimeApiStore φ) : StoreCall → RuntimeApiStore φ
  | .createRun runId =>
      match s.runs.get? runId with
      | some _ => s
      | none => { s with runs := s.runs.set runId ⟨none⟩ }
  | .setRunLatestSequence runId n => s.setRunLatestSequence runId n
  | .appendEvent event minted => (s.appendEvent legacy event minted).2
  | .appendEventsBatch events => (s.appendEventsBatch legacy events).2

/-- The store after some calls. -/
def stateAfter (materializations : φ) (calls : List StoreCall) : RuntimeApiStore φ :=
  calls.foldl (takeCall legacy) (initial materializations)

/-- The stable id of a draft, if it has one, is in no other run's log. -/
def IdOfOneRun (s : RuntimeApiStore φ) (d : RuntimeEventDraft) : Prop :=
  ∀ runId, ∀ e ∈ s.log runId, d.eventId = some e.eventId → runId = d.base.runId

/-- An id minted for a draft without one is in no log. -/
def MintedFresh (s : RuntimeApiStore φ) (d : RuntimeEventDraft) (minted : Minted) : Prop :=
  d.eventId = none → ∀ runId, ∀ e ∈ s.log runId, e.eventId ≠ minted.eventId

/-- The ids minted for a batch are fresh, each when its turn comes. -/
def BatchFresh (s : RuntimeApiStore φ) : List (RuntimeEventDraft × Minted) → Prop
  | [] => True
  | (event, minted) :: rest =>
      MintedFresh s event minted ∧ BatchFresh (s.appendEvent legacy event minted).2 rest

/-- The identifier generator repeats no id. -/
def CallFresh (s : RuntimeApiStore φ) : StoreCall → Prop
  | .appendEvent event minted => MintedFresh s event minted
  | .appendEventsBatch events => BatchFresh legacy s events
  | _ => True

/-- A stable id that is appended to a run is in no other run's log. -/
def CallInOneRun (s : RuntimeApiStore φ) : StoreCall → Prop
  | .appendEvent event _ => IdOfOneRun s event
  | _ => True

end Runs

/-! ### What holds of the logs -/

section Laws
variable {φ : Type} {legacy : LegacyMaterializations φ}

/-- The events of a run are numbered in order, and no event id occurs twice. -/
structure LogInvariant (s : RuntimeApiStore φ) : Prop where
  numbered : ∀ runId, (s.log runId).map (·.sequenceNo) = List.range' 1 (s.log runId).length
  owned : ∀ runId, ∀ e ∈ s.log runId, e.base.runId = runId
  once : ∀ runId, ((s.log runId).map (·.eventId)).Nodup
  apart : ∀ runId other, ∀ e ∈ s.log runId, ∀ e' ∈ s.log other, e.eventId = e'.eventId →
    runId = other
  indexed : ∀ runId, ∀ e ∈ s.log runId, s.eventsById.get? e.eventId = some e

variable {s : RuntimeApiStore φ}

theorem LogInvariant.of_frame {s' : RuntimeApiStore φ} (h : LogInvariant s)
    (hlog : ∀ runId, s'.log runId = s.log runId) (hby : s'.eventsById = s.eventsById) :
    LogInvariant s' := by
  constructor
  · simpa only [hlog] using h.numbered
  · simpa only [hlog] using h.owned
  · simpa only [hlog] using h.once
  · simpa only [hlog] using h.apart
  · simpa only [hlog, hby] using h.indexed

theorem logInvariant_initial (m : φ) : LogInvariant (initial m) := by
  constructor <;> simp [initial, log]

/-- A new envelope with the next number and an id no log holds keeps the invariant. -/
theorem LogInvariant.insert (h : LogInvariant s) {runId : String} {e : RuntimeEventEnvelope}
    (m : φ) (hrun : e.base.runId = runId) (hnumber : e.sequenceNo = (s.log runId).length + 1)
    (hfresh : ∀ other, ∀ e' ∈ s.log other, e'.eventId ≠ e.eventId) :
    LogInvariant (s.insert runId e m) where
  numbered other := by
    rw [log_insert]
    split
    · next heq =>
        subst heq
        rw [List.map_append, h.numbered, List.length_append, List.map_singleton, hnumber,
          List.length_singleton, List.range'_1_concat, Nat.add_comm 1]
    · exact h.numbered other
  owned other e' hmem := by
    rw [log_insert] at hmem
    split at hmem
    · next heq =>
        subst heq
        rcases List.mem_append.mp hmem with hold | hnew
        · exact h.owned _ e' hold
        · obtain rfl := List.mem_singleton.mp hnew
          exact hrun
    · exact h.owned other e' hmem
  once other := by
    rw [log_insert]
    split
    · rw [List.map_append]
      refine (h.once other).append (List.nodup_singleton _) ?_
      rw [List.map_singleton, List.disjoint_singleton]
      intro hmem
      obtain ⟨e', hmem', hid⟩ := List.mem_map.mp hmem
      exact hfresh other e' hmem' hid
    · exact h.once other
  apart run other e₁ hmem₁ e₂ hmem₂ hid := by
    have hold : ∀ run, ∀ e' ∈ (s.insert runId e m).log run,
        e' ∈ s.log run ∨ e' = e ∧ run = runId := by
      intro run e' hmem
      rw [log_insert] at hmem
      split at hmem
      · next heq =>
          rcases List.mem_append.mp hmem with hmem | hmem
          · exact .inl hmem
          · exact .inr ⟨List.mem_singleton.mp hmem, heq.symm⟩
      · exact .inl hmem
    rcases hold run e₁ hmem₁ with hold₁ | ⟨rfl, hrun₁⟩
    · rcases hold other e₂ hmem₂ with hold₂ | ⟨rfl, -⟩
      · exact h.apart run other e₁ hold₁ e₂ hold₂ hid
      · exact (hfresh run e₁ hold₁ hid).elim
    · rcases hold other e₂ hmem₂ with hold₂ | ⟨-, hrun₂⟩
      · exact (hfresh other e₂ hold₂ hid.symm).elim
      · rw [hrun₁, hrun₂]
  indexed other e' hmem := by
    rw [eventsById_insert]
    rw [log_insert] at hmem
    split at hmem
    · rcases List.mem_append.mp hmem with hold | hnew
      · rw [Dict.get?_set_of_ne _ _ (hfresh other e' hold).symm]
        exact h.indexed other e' hold
      · obtain rfl := List.mem_singleton.mp hnew
        exact Dict.get?_set_self _ _ _
    · rw [Dict.get?_set_of_ne _ _ (hfresh other e' hmem).symm]
      exact h.indexed other e' hmem

variable (legacy) in
/-- Appending keeps the invariant when the draft's id is in no other run's log. -/
theorem LogInvariant.appendEvent (h : LogInvariant s) {d : RuntimeEventDraft} {minted : Minted}
    (hfresh : MintedFresh s d minted) (hone : IdOfOneRun s d) :
    LogInvariant (s.appendEvent legacy d minted).2 := by
  have hopen : LogInvariant (s.openLog d.base.runId) :=
    h.of_frame (log_openLog s _) (openLog_eventsById s _)
  rcases s.appendEvent_cases d minted with
    ⟨existing, -, -, heq⟩ | ⟨error, heq, -⟩ | ⟨m, heq, hnew⟩
  · rw [heq]
    exact h
  · rw [heq]
    exact hopen
  · rw [heq]
    refine hopen.insert m rfl (by rw [log_openLog]) ?_
    intro other e hmem
    rw [log_openLog] at hmem
    cases hid : d.eventId with
    | none => exact hfresh hid other e hmem
    | some id =>
        intro hsame
        have hstable : d.eventId = some e.eventId := hid.trans (congrArg some hsame.symm)
        obtain rfl := hone other e hmem hstable
        exact hnew e hmem hstable

theorem LogInvariant.appendAll (h : LogInvariant s) {events : List (RuntimeEventDraft × Minted)}
    (hfresh : BatchFresh legacy s events) (hnone : ∀ event ∈ events, event.1.eventId = none) :
    LogInvariant (s.appendAll legacy events).2 := by
  induction events generalizing s with
  | nil => exact h
  | cons event rest ih =>
      obtain ⟨d, minted⟩ := event
      have hd : d.eventId = none := hnone (d, minted) List.mem_cons_self
      have hone : IdOfOneRun s d := fun _ _ _ hid => by simp [hd] at hid
      have hfirst := h.appendEvent legacy hfresh.1 hone
      have hrest := ih hfirst hfresh.2 fun event hmem => hnone event (List.mem_cons_of_mem _ hmem)
      unfold RuntimeApiStore.appendAll
      cases happend : s.appendEvent legacy d minted with
      | mk result s' =>
          rw [happend] at hfirst hrest
          cases result with
          | error e => exact hfirst
          | ok envelope =>
              simp only
              split <;> next hall => rw [hall] at hrest; exact hrest

theorem LogInvariant.takeCall (h : LogInvariant s) {call : StoreCall}
    (hfresh : CallFresh legacy s call) (hone : CallInOneRun s call) :
    LogInvariant (takeCall legacy s call) := by
  cases call with
  | createRun runId =>
      unfold RuntimeApiStore.takeCall
      simp only
      split
      · exact h
      · exact h.of_frame (fun _ => rfl) rfl
  | setRunLatestSequence runId n =>
      exact h.of_frame (log_setRunLatestSequence s runId · n) (eventsById_setRunLatestSequence s _ _)
  | appendEvent event minted => exact h.appendEvent legacy hfresh hone
  | appendEventsBatch events =>
      unfold RuntimeApiStore.takeCall RuntimeApiStore.appendEventsBatch
      simp only
      split
      · exact h
      · next hstable =>
          split
          · exact h
          · refine h.appendAll hfresh fun event hmem => ?_
            simp only [List.any_eq_true, not_exists, not_and] at hstable
            simpa using hstable event hmem

theorem extends_takeCall (s : RuntimeApiStore φ) (call : StoreCall) :
    Extends s (takeCall legacy s call) := by
  cases call with
  | createRun runId =>
      unfold takeCall
      simp only
      split
      · exact Extends.refl s
      · next hnone =>
          refine ⟨fun _ => List.prefix_refl _, fun other n hn => ⟨n, ?_, le_rfl⟩⟩
          by_cases hrun : runId = other
          · subst hrun
            simp [latest, hnone] at hn
          · simpa [latest, Dict.get?_set_of_ne _ _ hrun] using hn
  | setRunLatestSequence runId n => exact extends_setRunLatestSequence s runId n
  | appendEvent event minted => exact extends_appendEvent legacy s event minted
  | appendEventsBatch events =>
      unfold takeCall appendEventsBatch
      simp only
      split
      · exact Extends.refl s
      · split
        · exact Extends.refl s
        · exact extends_appendAll legacy s events

/-- A draft whose id a log holds is answered from that log, or refused, without any change. -/
theorem appendEvent_of_stored (h : LogInvariant s) {runId : String} {e : RuntimeEventEnvelope}
    (hmem : e ∈ s.log runId) {d : RuntimeEventDraft} (hid : d.eventId = some e.eventId)
    (hone : IdOfOneRun s d) (minted : Minted) :
    s.appendEvent legacy d minted = (resolve d e, s) := by
  obtain rfl := hone runId e hmem hid
  rcases s.appendEvent_cases d minted with
    ⟨existing, hexisting, hid', heq⟩ | ⟨error, -, hnew⟩ | ⟨m, -, hnew⟩
  · have hsame : existing = e :=
      List.inj_on_of_nodup_map (h.once _) hexisting hmem
        (Option.some.inj (hid'.symm.trans hid))
    rw [heq, hsame]
  · exact (hnew e hmem hid).elim
  · exact (hnew e hmem hid).elim

/-- The laws of the run logs, in a state and for what is asked of it next. -/
structure LogLaws (legacy : LegacyMaterializations φ) (s : RuntimeApiStore φ) : Prop where
  numbered : ∀ runId,
    (s.log runId).map (·.sequenceNo) = List.range' 1 (s.getLatestSequence runId)
  occurs_once : ∀ runId, ((s.log runId).map (·.eventId)).Nodup ∧
    ∀ other, other ≠ runId → ∀ e ∈ s.log runId, ∀ e' ∈ s.log other, e.eventId ≠ e'.eventId
  redelivered : ∀ runId, ∀ e ∈ s.log runId, ∀ d minted, d.eventId = some e.eventId →
    IdOfOneRun s d → SameBody d e → s.appendEvent legacy d minted = (.ok e, s)
  conflicting : ∀ runId, ∀ e ∈ s.log runId, ∀ d minted, d.eventId = some e.eventId →
    IdOfOneRun s d → ¬ SameBody d e → s.appendEvent legacy d minted =
      (.error (.idempotencyConflict d.base.runId e.eventId), s)
  grows : ∀ call, Extends s (takeCall legacy s call)

theorem logLaws_of_invariant (h : LogInvariant s) :
    LogLaws legacy s where
  numbered := h.numbered
  occurs_once runId := by
    refine ⟨h.once runId, fun other hne e hmem e' hmem' hid => ?_⟩
    exact hne (h.apart runId other e hmem e' hmem' hid).symm
  redelivered runId e hmem d minted hid hone hbody := by
    classical
    rw [appendEvent_of_stored h hmem hid hone, resolve_eq hid, if_pos hbody]
  conflicting runId e hmem d minted hid hone hbody := by
    classical
    rw [appendEvent_of_stored h hmem hid hone, resolve_eq hid, if_neg hbody]
  grows call := extends_takeCall s call

end Laws

end RuntimeApiStore

open RuntimeApiStore

section Main
variable {φ : Type} (legacy : LegacyMaterializations φ)

/-- Along a run of calls, each finds its minted ids unused and its stable id in one run. -/
def CallsInOneRun (s : RuntimeApiStore φ) : List StoreCall → Prop
  | [] => True
  | call :: rest =>
      CallFresh legacy s call ∧ CallInOneRun s call ∧ CallsInOneRun (takeCall legacy s call) rest

theorem logInvariant_foldl {s : RuntimeApiStore φ} (h : LogInvariant s) {calls : List StoreCall}
    (hcalls : CallsInOneRun legacy s calls) : LogInvariant (calls.foldl (takeCall legacy) s) := by
  induction calls generalizing s with
  | nil => exact h
  | cons call rest ih => exact ih (h.takeCall hcalls.1 hcalls.2.1) hcalls.2.2

/-- While no stable id is used for two runs, the laws hold after every sequence of calls. -/
theorem log_laws_hold (materializations : φ) (calls : List StoreCall)
    (hcalls : CallsInOneRun legacy (initial materializations) calls) :
    LogLaws legacy (stateAfter legacy materializations calls) :=
  logLaws_of_invariant (logInvariant_foldl legacy (logInvariant_initial materializations) hcalls)

end Main

/-- A store whose runs have no legacy stages. -/
def noMaterializations : LegacyMaterializations Unit := ⟨fun _ _ _ => .ok none⟩

/-- The fact a run's artifact was created, under its stable id. -/
def artifactCreated (runId : String) : RuntimeEventBase where
  runId
  conversationId := "conv"
  source := .tool
  eventType := .artifactCreated
  traceId := "trace"
  parentEventId := none
  spanId := none
  parentSpanId := none
  parentTaskId := none
  taskId := none
  subagentId := none
  displayTitle := none
  summary := none
  status := none
  visibility := .user
  redactionState := .redacted
  presentation := none
  payload := Dict.empty
  metadata := Dict.empty

def artifactDraft (runId : String) (h : normalizeId runId = some runId) : RuntimeEventDraft where
  base := artifactCreated runId
  activityKind := none
  orgId := "org"
  eventId := some "artevt_1"
  createdAt := none
  base_valid := by
    have hconversation : normalizeId "conv" = some "conv" := by decide
    have htrace : normalizeId "trace" = some "trace" := by decide
    simp [RuntimeEventBase.validated, artifactCreated, h, hconversation, htrace,
      normalizeOptionalId, normalizeOptionalText]
  eventId_valid := by decide

/-- The call that appends the fact to a run. -/
def sendTo (runId : String) (h : normalizeId runId = some runId) : StoreCall :=
  .appendEvent (artifactDraft runId h) ⟨"minted", 7⟩

theorem normalizeId_run : normalizeId "run" = some "run" := by decide

theorem normalizeId_other : normalizeId "other" = some "other" := by decide

theorem log_laws_hold_run :
    LogLaws noMaterializations
      (stateAfter noMaterializations () [.createRun "run", sendTo "run" normalizeId_run]) := by
  refine log_laws_hold noMaterializations () _ ⟨trivial, trivial, ?_, ?_, trivial⟩
  · intro hnone
    cases hnone
  · intro runId e hmem
    cases hmem

/-- The same fact sent to two runs stands in both logs. -/
theorem stable_id_in_two_runs :
    ¬ ∀ (calls : List StoreCall), (∀ call ∈ calls, ∃ d minted,
        call = .appendEvent d minted ∧ d.eventId.isSome) →
      ∀ runId other, other ≠ runId → ∀ e ∈ (stateAfter noMaterializations () calls).log runId,
        ∀ e' ∈ (stateAfter noMaterializations () calls).log other, e.eventId ≠ e'.eventId := by
  intro h
  have hcalls : ∀ call ∈ [sendTo "run" normalizeId_run, sendTo "other" normalizeId_other],
      ∃ d minted, call = .appendEvent d minted ∧ d.eventId.isSome := by
    intro call hcall
    simp only [List.mem_cons, List.not_mem_nil, or_false] at hcall
    rcases hcall with rfl | rfl
    · exact ⟨_, _, rfl, rfl⟩
    · exact ⟨_, _, rfl, rfl⟩
  have hboth : ∀ runId ∈ ["run", "other"], ((stateAfter noMaterializations ()
      [sendTo "run" normalizeId_run, sendTo "other" normalizeId_other]).log runId).map
        (·.eventId) = ["artevt_1"] := by
    decide
  have hstored : ∀ runId ∈ ["run", "other"], ∃ e ∈ (stateAfter noMaterializations ()
      [sendTo "run" normalizeId_run, sendTo "other" normalizeId_other]).log runId,
        e.eventId = "artevt_1" := by
    intro runId hrun
    have hmem : "artevt_1" ∈ ((stateAfter noMaterializations ()
        [sendTo "run" normalizeId_run, sendTo "other" normalizeId_other]).log runId).map
          (·.eventId) := by
      rw [hboth runId hrun]
      exact List.mem_cons_self
    exact List.mem_map.mp hmem
  obtain ⟨e, hmem, hid⟩ := hstored "run" (by simp)
  obtain ⟨e', hmem', hid'⟩ := hstored "other" (by simp)
  exact h _ hcalls "run" "other" (by decide) e hmem e' hmem' (hid.trans hid'.symm)

end CopilotRuntime.EventLog
