import CopilotRuntime.EventLog.LedgerSeal
import CopilotRuntime.Foundation.History

/-!
# The causal prefix of a run

No causal event may follow a terminal event of its run, and no run may be
refused causal events before a terminal event of it is stored. The seal is set
before the store has written anything, so both hold only while no append is
overtaken: neither a causal append by a terminal one while it waits for the
store, nor a terminal append that is not stored by causal ones.
-/

namespace CopilotRuntime.EventLog

open Foundation

/-! ### The guard -/

section Guard
variable {ledgerSeal ledgerSeal' : LedgerSeal} {runId : String} {eventType : RuntimeApiEventType}
  {amendment : Option LedgerAmendment}

theorem LedgerSeal.isSealed_set (ledgerSeal : LedgerSeal) (runId : String)
    (eventType : RuntimeApiEventType) (other : String) :
    LedgerSeal.isSealed (ledgerSeal.set runId eventType) other =
      (decide (runId = other) || ledgerSeal.isSealed other) := by
  unfold LedgerSeal.isSealed
  rw [Dict.get?_set]
  by_cases h : runId = other
  · simp [h]
  · simp [h]

/-- The event is neither terminal nor an amendment, and its run is sealed. -/
def Refusable (ledgerSeal : LedgerSeal) (runId : String) (eventType : RuntimeApiEventType)
    (amendment : Option LedgerAmendment) : Prop :=
  eventType ∉ sealingEventTypes ∧ amendment = none ∧ ledgerSeal.isSealed runId = true

theorem refusable_of_guard_error {e : ProducerError}
    (h : ledgerSeal.guard runId eventType amendment = .error e) :
    Refusable ledgerSeal runId eventType amendment ∧
      ∃ sealedBy, e = .ledgerSealViolation runId eventType sealedBy := by
  unfold LedgerSeal.guard at h
  by_cases hterminal : eventType ∈ sealingEventTypes
  · rw [if_pos hterminal] at h
    cases h
  · rw [if_neg hterminal] at h
    split at h
    · next sealedBy hget =>
        refine ⟨⟨hterminal, rfl, ?_⟩, sealedBy, (Except.error.inj h).symm⟩
        rw [LedgerSeal.isSealed, hget, Option.isSome_some]
    · cases h

theorem not_refusable_of_guard_ok
    (h : ledgerSeal.guard runId eventType amendment = .ok ledgerSeal') :
    ¬ Refusable ledgerSeal runId eventType amendment := by
  rintro ⟨hterminal, rfl, hsealed⟩
  obtain ⟨sealedBy, hget⟩ := Option.isSome_iff_exists.mp hsealed
  simp [LedgerSeal.guard, hterminal, hget] at h

/-- An admitted event seals its run if it is terminal, and keeps the other runs as they are. -/
theorem isSealed_of_guard (h : ledgerSeal.guard runId eventType amendment = .ok ledgerSeal')
    (other : String) :
    ledgerSeal'.isSealed other = true ↔
      ledgerSeal.isSealed other = true ∨ (eventType ∈ sealingEventTypes ∧ other = runId) := by
  unfold LedgerSeal.guard at h
  by_cases hterminal : eventType ∈ sealingEventTypes
  · rw [if_pos hterminal, Except.ok.injEq] at h
    subst h
    by_cases hsealed : ledgerSeal.isSealed runId = true
    · rw [if_pos hsealed]
      refine ⟨.inl, fun hor => hor.elim id fun hrun => ?_⟩
      rw [hrun.2]
      exact hsealed
    · rw [if_neg hsealed, LedgerSeal.isSealed_set, Bool.or_eq_true, decide_eq_true_eq]
      constructor
      · rintro (hrun | hother)
        · exact .inr ⟨hterminal, hrun.symm⟩
        · exact .inl hother
      · rintro (hother | ⟨-, hrun⟩)
        · exact .inr hother
        · exact .inl hrun.symm
  · rw [if_neg hterminal] at h
    have hkeep : ledgerSeal' = ledgerSeal := by
      split at h
      · cases h
      · exact (Except.ok.inj h).symm
    rw [hkeep]
    simp [hterminal]

end Guard

/-! ### What a call hands to the store -/

section Calls
variable {τ : Type} {projection : EventProjection τ} {run : ProducerRun}

theorem validated_keeps {b b' : RuntimeEventBase} (h : b.validated = some b') :
    b'.eventType = b.eventType ∧ normalizeId b.runId = some b'.runId := by
  simp only [RuntimeEventBase.validated, Option.bind_eq_bind, Option.bind_eq_some_iff,
    Option.pure_def, Option.some.injEq] at h
  obtain ⟨_, hrun, _, -, _, -, _, -, _, -, _, -, _, -, _, -, _, -, _, -, _, -, _, -, rfl⟩ := h
  exact ⟨rfl, hrun⟩

theorem modelValidate_keeps {base : RuntimeEventBase} {activityKind : Option RuntimeActivityKind}
    {orgId : String} {eventId : Option String} {createdAt : Option Int} {draft : RuntimeEventDraft}
    (h : RuntimeEventDraft.modelValidate base activityKind orgId eventId createdAt = some draft) :
    draft.base.eventType = base.eventType ∧ normalizeId base.runId = some draft.base.runId := by
  unfold RuntimeEventDraft.modelValidate at h
  split at h
  · next hbase _ _ =>
      obtain rfl := Option.some.inj h
      exact validated_keeps hbase
  · cases h

/-- A draft is of the run and the type it was made for. -/
def RuntimeEventDraft.IsOf (draft : RuntimeEventDraft) (run : ProducerRun)
    (eventType : RuntimeApiEventType) : Prop :=
  draft.base.eventType = eventType ∧ draft.base.runId = run.runId

theorem isOf_of_modelValidate {base : RuntimeEventBase}
    {activityKind : Option RuntimeActivityKind} {orgId : String} {eventId : Option String}
    {createdAt : Option Int} {draft : RuntimeEventDraft} (hrun : base.runId = run.runId)
    (h : RuntimeEventDraft.modelValidate base activityKind orgId eventId createdAt = some draft) :
    draft.IsOf run base.eventType := by
  obtain ⟨htype, hid⟩ := modelValidate_keeps h
  rw [hrun, run.runId_valid] at hid
  exact ⟨htype, (Option.some.inj hid).symm⟩

/-- The outcome of making a draft: one of the run and type, or an error other than a refusal. -/
def IsDraftOf (run : ProducerRun) (eventType : RuntimeApiEventType) :
    Except ProducerError RuntimeEventDraft → Prop
  | .ok draft => draft.IsOf run eventType
  | .error e => ∀ runId eventType sealedBy, e ≠ .ledgerSealViolation runId eventType sealedBy

theorem payload_isOk_or (projection : EventProjection τ) (eventType : RuntimeApiEventType)
    (payload : JsonObject) :
    (∃ safePayload, projection.payload eventType payload = .ok safePayload) ∨
      projection.payload eventType payload = .error .unknownLedgerWriter := by
  unfold EventProjection.payload
  cases projection.payloadForEvent eventType payload with
  | some safePayload => exact .inl ⟨safePayload, rfl⟩
  | none => exact .inr rfl

theorem draftFor_isDraftOf (projection : EventProjection τ) (run : ProducerRun)
    (event : ApiEvent) (safeMetadata : JsonObject) :
    IsDraftOf run event.eventType (draftFor projection run event safeMetadata) := by
  unfold draftFor
  obtain ⟨safePayload, hpayload⟩ | hrefused :=
    payload_isOk_or projection event.eventType (event.payload.getD Dict.empty)
  · rw [hpayload]
    simp only [bind, Except.bind]
    split
    · next draft hvalid => exact isOf_of_modelValidate rfl hvalid
    · exact fun _ _ _ h => by cases h
  · rw [hrefused]
    exact fun _ _ _ h => by cases h

theorem fromStreamEvent_isDraftOf (projection : EventProjection τ) (run : ProducerRun)
    (event : StreamEvent τ) :
    IsDraftOf run (projection.eventTypeForStreamEvent event)
      (fromStreamEvent projection run event) := by
  unfold fromStreamEvent
  dsimp only
  obtain ⟨safePayload, hpayload⟩ | hrefused := payload_isOk_or projection
    (projection.eventTypeForStreamEvent event) event.payload
  · rw [hpayload]
    simp only [bind, Except.bind]
    split
    · next draft hvalid => exact isOf_of_modelValidate rfl hvalid
    · exact fun _ _ _ h => by cases h
  · rw [hrefused]
    exact fun _ _ _ h => by cases h

theorem batchEntryDraft_isDraftOf (source : StreamEventSource) (eventType : RuntimeApiEventType)
    (entry : BatchEntry) :
    IsDraftOf run eventType (batchEntryDraft projection run source eventType entry) := by
  unfold batchEntryDraft
  split
  · exact draftFor_isDraftOf _ _ _ _
  · exact fun _ _ _ h => by cases h

/-- What a call hands over: events of its run, of one type and amendment, or an error other than
a refusal. -/
def HandsOver (run : ProducerRun) (eventType : RuntimeApiEventType)
    (amendment : Option LedgerAmendment) : Except ProducerError (List StoredEvent) → Prop
  | .ok events => ∀ e ∈ events, e.draft.IsOf run eventType ∧ e.amendment = amendment
  | .error e => ∀ runId eventType sealedBy, e ≠ .ledgerSealViolation runId eventType sealedBy

/-- Nothing is handed over, and nothing refused. -/
def HandsNothing : Except ProducerError (List StoredEvent) → Prop
  | .ok events => events = []
  | .error e => ∀ runId eventType sealedBy, e ≠ .ledgerSealViolation runId eventType sealedBy

theorem handsOver_mapM {α : Type} {eventType : RuntimeApiEventType}
    {f : α → Except ProducerError RuntimeEventDraft}
    (hf : ∀ a, IsDraftOf run eventType (f a)) (entries : List α) :
    HandsOver run eventType none
      ((entries.mapM f).map fun drafts => drafts.map fun draft => ⟨draft, none⟩) := by
  induction entries with
  | nil => exact fun e he => by simp at he
  | cons entry rest ih =>
      have hentry := hf entry
      rw [List.mapM_cons]
      cases hfirst : f entry with
      | error e =>
          rw [hfirst] at hentry
          exact hentry
      | ok draft =>
          rw [hfirst] at hentry
          cases hrest : rest.mapM f with
          | error e =>
              rw [hrest] at ih
              exact ih
          | ok drafts =>
              rw [hrest] at ih
              intro e he
              obtain rfl | hmem := List.mem_cons.mp he
              · exact ⟨hentry, rfl⟩
              · exact ih e hmem

/-- What a call asks the guard; an empty batch and a stream event without a draft ask nothing. -/
def AppendRequest.asks (projection : EventProjection τ) :
    AppendRequest τ → Option (RuntimeApiEventType × Option LedgerAmendment)
  | .apiEvent _ event => some (event.eventType, event.amendment)
  | .streamEvent run event =>
      match fromStreamEvent projection run event with
      | .ok draft => some (draft.base.eventType, none)
      | .error _ => none
  | .apiEventsBatch _ _ eventType entries => if entries = [] then none else some (eventType, none)

theorem streamEventDraft_base (projection : EventProjection τ) (draft : RuntimeEventDraft) :
    (streamEventDraft projection draft).base.eventType = draft.base.eventType ∧
      (streamEventDraft projection draft).base.runId = draft.base.runId := by
  unfold streamEventDraft
  split
  · exact ⟨rfl, rfl⟩
  · exact ⟨rfl, rfl⟩

/-- A call asks the guard nothing and hands over nothing, is refused by it, or is admitted. -/
theorem submit_cases (projection : EventProjection τ) (request : AppendRequest τ)
    (ledgerSeal : LedgerSeal) :
    (request.asks projection = none ∧ ∃ outcome,
      request.submit projection ledgerSeal = (outcome, ledgerSeal) ∧ HandsNothing outcome) ∨
    ∃ eventType amendment, request.asks projection = some (eventType, amendment) ∧
      ((∃ e, ledgerSeal.guard request.run.runId eventType amendment = .error e ∧
        request.submit projection ledgerSeal = (.error e, ledgerSeal)) ∨
      ∃ ledgerSeal' outcome,
        ledgerSeal.guard request.run.runId eventType amendment = .ok ledgerSeal' ∧
          request.submit projection ledgerSeal = (outcome, ledgerSeal') ∧
            HandsOver request.run eventType amendment outcome) := by
  cases request with
  | apiEvent run event =>
      refine .inr ⟨event.eventType, event.amendment, rfl, ?_⟩
      simp only [AppendRequest.submit, AppendRequest.run]
      cases hguard : ledgerSeal.guard run.runId event.eventType event.amendment with
      | error e => exact .inl ⟨e, rfl, rfl⟩
      | ok ledgerSeal' =>
          refine .inr ⟨ledgerSeal', _, rfl, rfl, ?_⟩
          have hdraft : IsDraftOf run event.eventType (apiEventDraft projection run event) :=
            draftFor_isDraftOf projection run event _
          cases hresult : apiEventDraft projection run event with
          | error e =>
              rw [hresult] at hdraft
              exact hdraft
          | ok draft =>
              rw [hresult] at hdraft
              intro e he
              obtain rfl := List.mem_singleton.mp he
              exact ⟨hdraft, rfl⟩
  | streamEvent run event =>
      have hdraft := fromStreamEvent_isDraftOf projection run event
      simp only [AppendRequest.submit, AppendRequest.asks, AppendRequest.run]
      cases hresult : fromStreamEvent projection run event with
      | error e =>
          rw [hresult] at hdraft
          exact .inl ⟨rfl, .error e, rfl, hdraft⟩
      | ok draft =>
          rw [hresult] at hdraft
          refine .inr ⟨draft.base.eventType, none, rfl, ?_⟩
          cases hguard : ledgerSeal.guard run.runId draft.base.eventType none with
          | error e => exact .inl ⟨e, rfl, by simp only [hguard]⟩
          | ok ledgerSeal' =>
              refine .inr ⟨ledgerSeal', .ok [⟨streamEventDraft projection draft, none⟩], rfl,
                by simp only [hguard], fun (e : StoredEvent) he => ?_⟩
              obtain rfl := List.mem_singleton.mp he
              have hbase := streamEventDraft_base projection draft
              exact ⟨⟨hbase.1, hbase.2.trans hdraft.2⟩, rfl⟩
  | apiEventsBatch run source eventType entries =>
      simp only [AppendRequest.submit, AppendRequest.asks, AppendRequest.run]
      by_cases hempty : entries = []
      · rw [if_pos hempty, if_pos hempty]
        exact .inl ⟨rfl, .ok [], rfl, rfl⟩
      · rw [if_neg hempty, if_neg hempty]
        refine .inr ⟨eventType, none, rfl, ?_⟩
        cases hguard : ledgerSeal.guard run.runId eventType none with
        | error e => exact .inl ⟨e, rfl, rfl⟩
        | ok ledgerSeal' =>
            exact .inr ⟨ledgerSeal', _, rfl, rfl,
              handsOver_mapM (batchEntryDraft_isDraftOf source eventType) entries⟩

end Calls

/-! ### The producer and its store -/

theorem StoredEvent.isTerminal_iff (e : StoredEvent) :
    e.isTerminal = true ↔ e.draft.base.eventType ∈ sealingEventTypes := by
  simp [StoredEvent.isTerminal]

theorem StoredEvent.isCausal_iff (e : StoredEvent) :
    e.isCausal = true ↔ e.isTerminal = false ∧ e.amendment = none := by
  simp [StoredEvent.isCausal]

/-- No causal event follows a terminal one. -/
def CausalPrefix (log : List StoredEvent) : Prop :=
  log.Pairwise fun e e' => e.isTerminal = true → e'.isCausal = false

/-- What holds of an append that waits, given the seal and the log of its run. -/
structure PendingAppend.Sound (pending : PendingAppend) (ledgerSeal : LedgerSeal)
    (log : List StoredEvent) : Prop where
  keyed : ∀ e ∈ pending.events, e.draft.base.runId = pending.runId
  kind : ∀ e ∈ pending.events, ∀ e' ∈ pending.events, e.isTerminal = true → e'.isCausal = false
  marked : ∀ e ∈ pending.events, e.isTerminal = true → ledgerSeal.isSealed pending.runId = true
  length_le : pending.since ≤ log.length
  admitted : ∀ e ∈ pending.events, e.isCausal = true →
    ∀ e' ∈ log.take pending.since, e'.isTerminal = false

theorem PendingAppend.Sound.mono {pending : PendingAppend} {ledgerSeal ledgerSeal' : LedgerSeal}
    {log : List StoredEvent} (h : pending.Sound ledgerSeal log)
    (hsealed : ∀ runId, ledgerSeal.isSealed runId = true → ledgerSeal'.isSealed runId = true)
    (more : List StoredEvent) : pending.Sound ledgerSeal' (log ++ more) where
  keyed := h.keyed
  kind := h.kind
  marked e he hterminal := hsealed _ (h.marked e he hterminal)
  length_le := by
    rw [List.length_append]
    exact Nat.le_add_right_of_le h.length_le
  admitted := by
    rw [List.take_append_of_le_length h.length_le]
    exact h.admitted

namespace ProducerState
variable {τ : Type} {projection : EventProjection τ} {s : ProducerState}

/-- A terminal event of the run is stored. -/
def terminated (s : ProducerState) (runId : String) : Prop :=
  ∃ e ∈ s.log runId, e.isTerminal = true

/-- Logs hold events of their run, and stored and waiting terminal events have sealed it. -/
structure Sound (s : ProducerState) : Prop where
  keyed : ∀ runId, ∀ e ∈ s.log runId, e.draft.base.runId = runId
  marked : ∀ runId, s.terminated runId → s.ledgerSeal.isSealed runId = true
  waiting : ∀ task pending, s.waiting.get? task = some pending →
    pending.Sound s.ledgerSeal (s.log pending.runId)

theorem sound_init : init.Sound where
  keyed runId e he := by cases he
  marked runId h := by
    obtain ⟨e, he, -⟩ := h
    cases he
  waiting task pending h := by cases h

/-- A call is refused exactly when it asks to append a causal event to a sealed run. -/
theorem refuses_iff (request : AppendRequest τ) :
    s.refuses projection request = true ↔ ∃ eventType,
      request.asks projection = some (eventType, none) ∧ eventType ∉ sealingEventTypes ∧
        s.ledgerSeal.isSealed request.run.runId = true := by
  unfold refuses
  obtain ⟨hasks, outcome, hsubmit, hnothing⟩ | ⟨eventType, amendment, hasks, hguarded⟩ :=
    submit_cases projection request s.ledgerSeal
  · rw [hsubmit, hasks]
    simp only [reduceCtorEq, false_and, exists_false, iff_false]
    cases outcome with
    | ok events => simp
    | error e =>
        cases e with
        | ledgerSealViolation runId eventType sealedBy => exact absurd rfl (hnothing _ _ _)
        | _ => simp
  · obtain ⟨e, hguard, hsubmit⟩ | ⟨ledgerSeal', outcome, hguard, hsubmit, hevents⟩ := hguarded
    · obtain ⟨⟨hcausal, rfl, hsealed⟩, sealedBy, rfl⟩ := refusable_of_guard_error hguard
      rw [hsubmit]
      exact ⟨fun _ => ⟨eventType, hasks, hcausal, hsealed⟩, fun _ => rfl⟩
    · rw [hsubmit]
      have hfree := not_refusable_of_guard_ok hguard
      constructor
      · intro hrefused
        cases outcome with
        | ok events => cases hrefused
        | error e =>
            cases e with
            | ledgerSealViolation runId eventType sealedBy => exact absurd rfl (hevents _ _ _)
            | _ => cases hrefused
      · rintro ⟨eventType', hasks', hcausal, hsealed⟩
        rw [hasks] at hasks'
        obtain ⟨rfl, rfl⟩ := Prod.mk.inj (Option.some.inj hasks')
        exact absurd ⟨hcausal, rfl, hsealed⟩ hfree

theorem Sound.seal (h : s.Sound) {ledgerSeal' : LedgerSeal}
    (hsealed : ∀ runId, s.ledgerSeal.isSealed runId = true → ledgerSeal'.isSealed runId = true) :
    Sound { s with ledgerSeal := ledgerSeal' } where
  keyed := h.keyed
  marked runId hterminated := hsealed runId (h.marked runId hterminated)
  waiting task pending hpending := by
    have hsound := (h.waiting task pending hpending).mono hsealed []
    rwa [List.append_nil] at hsound

theorem Sound.wait (h : s.Sound) {pending : PendingAppend} (task started : Nat)
    (hpending : pending.Sound s.ledgerSeal (s.log pending.runId)) :
    Sound { s with waiting := s.waiting.set task pending, started := started } where
  keyed := h.keyed
  marked := h.marked
  waiting other pending' hget := by
    change (s.waiting.set task pending).get? other = some pending' at hget
    by_cases hother : task = other
    · rw [hother, Dict.get?_set_self] at hget
      obtain rfl := Option.some.inj hget
      exact hpending
    · rw [Dict.get?_set_of_ne _ _ hother] at hget
      exact h.waiting other pending' hget

/-- An append that the guard admitted waits soundly. -/
theorem sound_pending (h : s.Sound) {run : ProducerRun} {eventType : RuntimeApiEventType}
    {amendment : Option LedgerAmendment} {ledgerSeal' : LedgerSeal}
    (hguard : s.ledgerSeal.guard run.runId eventType amendment = .ok ledgerSeal')
    {events : List StoredEvent}
    (hevents : ∀ e ∈ events, e.draft.IsOf run eventType ∧ e.amendment = amendment) :
    PendingAppend.Sound ⟨run.runId, events, (s.log run.runId).length⟩ ledgerSeal'
      (s.log run.runId) where
  keyed e he := (hevents e he).1.2
  kind e he e' he' hterminal := by
    rw [StoredEvent.isTerminal_iff, (hevents e he).1.1] at hterminal
    have hterminal' : e'.isTerminal = true := by
      rw [StoredEvent.isTerminal_iff, (hevents e' he').1.1]
      exact hterminal
    simp [StoredEvent.isCausal, hterminal']
  marked e he hterminal := by
    rw [StoredEvent.isTerminal_iff, (hevents e he).1.1] at hterminal
    exact (isSealed_of_guard hguard run.runId).mpr (.inr ⟨hterminal, rfl⟩)
  length_le := Nat.le_refl _
  admitted e he hcausal e' he' := by
    rw [List.take_length] at he'
    by_contra hterminal'
    have hsealed : s.ledgerSeal.isSealed run.runId = true :=
      h.marked _ ⟨e', he', by simpa using hterminal'⟩
    obtain ⟨hterminal, hdeclared⟩ := (StoredEvent.isCausal_iff e).mp hcausal
    refine not_refusable_of_guard_ok hguard ⟨fun hmem => ?_, ?_, hsealed⟩
    · rw [← (hevents e he).1.1, ← StoredEvent.isTerminal_iff, hterminal] at hmem
      cases hmem
    · rw [← (hevents e he).2]
      exact hdeclared

theorem Sound.call (h : s.Sound) (request : AppendRequest τ) :
    (s.call projection request).Sound := by
  unfold ProducerState.call
  obtain ⟨-, outcome, hsubmit, hnothing⟩ | ⟨eventType, amendment, -, hguarded⟩ :=
    submit_cases projection request s.ledgerSeal
  · rw [hsubmit]
    cases outcome with
    | ok events =>
        obtain rfl : events = [] := hnothing
        exact h
    | error e => exact h
  · obtain ⟨e, -, hsubmit⟩ | ⟨ledgerSeal', outcome, hguard, hsubmit, hevents⟩ := hguarded
    · rw [hsubmit]
      exact h
    · have hsealed : ∀ runId, s.ledgerSeal.isSealed runId = true →
          ledgerSeal'.isSealed runId = true := fun runId hold =>
        (isSealed_of_guard hguard runId).mpr (.inl hold)
      rw [hsubmit]
      cases outcome with
      | error e => exact h.seal hsealed
      | ok events =>
          cases events with
          | nil => exact h.seal hsealed
          | cons event rest => exact (h.seal hsealed).wait _ _ (sound_pending h hguard hevents)

theorem call_log (request : AppendRequest τ) : (s.call projection request).log = s.log := by
  unfold ProducerState.call
  split
  · rfl
  · rfl

/-- An append that no longer waits. -/
theorem Sound.erase (h : s.Sound) (task : Nat) :
    Sound { s with waiting := s.waiting.erase task } where
  keyed := h.keyed
  marked := h.marked
  waiting other pending hget := by
    change (s.waiting.erase task).get? other = some pending at hget
    by_cases hother : task = other
    · rw [hother, Dict.get?_erase_self] at hget
      cases hget
    · rw [Dict.get?_erase_of_ne _ hother] at hget
      exact h.waiting other pending hget

theorem write_self (pending : PendingAppend) (written : Nat) :
    s.write pending written pending.runId = s.log pending.runId ++ pending.events.take written := by
  simp [write]

theorem write_of_ne (pending : PendingAppend) (written : Nat) {runId : String}
    (h : runId ≠ pending.runId) : s.write pending written runId = s.log runId := by
  simp [write, h]

theorem Sound.write (h : s.Sound) {pending : PendingAppend}
    (hpending : pending.Sound s.ledgerSeal (s.log pending.runId)) (written : Nat) :
    Sound { s with log := s.write pending written } where
  keyed runId e he := by
    change e ∈ s.write pending written runId at he
    by_cases hrun : runId = pending.runId
    · rw [hrun, write_self, List.mem_append] at he
      rw [hrun]
      exact he.elim (h.keyed _ e) fun hnew => hpending.keyed e (List.mem_of_mem_take hnew)
    · rw [write_of_ne pending written hrun] at he
      exact h.keyed runId e he
  marked runId hterminated := by
    obtain ⟨e, he, hterminal⟩ := hterminated
    change e ∈ s.write pending written runId at he
    by_cases hrun : runId = pending.runId
    · rw [hrun, write_self, List.mem_append] at he
      rw [hrun]
      obtain hold | hnew := he
      · exact h.marked _ ⟨e, hold, hterminal⟩
      · exact hpending.marked e (List.mem_of_mem_take hnew) hterminal
    · rw [write_of_ne pending written hrun] at he
      exact h.marked runId ⟨e, he, hterminal⟩
  waiting other pending' hget := by
    change pending'.Sound s.ledgerSeal (s.write pending written pending'.runId)
    have hsound := h.waiting other pending' hget
    by_cases hrun : pending'.runId = pending.runId
    · rw [hrun, write_self]
      rw [hrun] at hsound
      exact hsound.mono (fun _ hsealed => hsealed) _
    · rw [write_of_ne pending written hrun]
      exact hsound

theorem Sound.step (h : s.Sound) (e : ProducerEvent τ) : (s.step projection e).Sound := by
  cases e with
  | call request => exact h.call request
  | store task written =>
      unfold ProducerState.step
      dsimp only
      split
      · next pending hget => exact (h.write (h.waiting task pending hget) written).erase task
      · exact h
  | cancel task => exact h.erase task

/-! ### When a step keeps the causal prefix -/

/-- The event comes in order: no causal event asks to be appended to a run that is sealed but not
terminated, and none is stored that a terminal event overtook while it waited. -/
def InOrder (projection : EventProjection τ) (s : ProducerState) : ProducerEvent τ → Prop
  | .call request => ∀ eventType, request.asks projection = some (eventType, none) →
      eventType ∉ sealingEventTypes → s.ledgerSeal.isSealed request.run.runId = true →
        s.terminated request.run.runId
  | .store task written => ∀ pending, s.waiting.get? task = some pending →
      (∃ e ∈ pending.events.take written, e.isCausal = true) →
        ∀ e ∈ (s.log pending.runId).drop pending.since, e.isTerminal = false
  | .cancel _ => True

/-- Every log has a causal prefix. -/
def Prefixed (s : ProducerState) : Prop := ∀ runId, CausalPrefix (s.log runId)

/-- The event is not a call that is refused although its run is not terminated. -/
def RefusedRightly (projection : EventProjection τ) (s : ProducerState) :
    ProducerEvent τ → Prop
  | .call request => s.refuses projection request = true → s.terminated request.run.runId
  | _ => True

theorem refusedRightly_call_iff (request : AppendRequest τ) :
    RefusedRightly projection s (.call request) ↔ InOrder projection s (.call request) := by
  constructor
  · intro h eventType hasks hcausal hsealed
    exact h ((refuses_iff request).mpr ⟨eventType, hasks, hcausal, hsealed⟩)
  · intro h hrefuses
    obtain ⟨eventType, hasks, hcausal, hsealed⟩ := (refuses_iff request).mp hrefuses
    exact h eventType hasks hcausal hsealed

/-- Storing events of an append keeps the causal prefix exactly when none of them is causal or no
terminal event was stored while the append waited. -/
theorem causalPrefix_append_iff {pending : PendingAppend} {ledgerSeal : LedgerSeal}
    {log : List StoredEvent} (hpending : pending.Sound ledgerSeal log) (hlog : CausalPrefix log)
    (written : Nat) :
    CausalPrefix (log ++ pending.events.take written) ↔
      ((∃ e ∈ pending.events.take written, e.isCausal = true) →
        ∀ e ∈ log.drop pending.since, e.isTerminal = false) := by
  unfold CausalPrefix
  rw [List.pairwise_append]
  constructor
  · rintro ⟨-, -, hacross⟩ ⟨e, he, hcausal⟩ e' he'
    by_contra hterminal
    have hnot := hacross e' (List.mem_of_mem_drop he') e he (by simpa using hterminal)
    rw [hcausal] at hnot
    cases hnot
  · intro horder
    refine ⟨hlog, ?_, fun e he e' he' hterminal => ?_⟩
    · refine List.pairwise_of_forall_mem_list fun e he e' he' => ?_
      exact hpending.kind e (List.mem_of_mem_take he) e' (List.mem_of_mem_take he')
    · by_contra hcausal
      have hcausal' : e'.isCausal = true := by simpa using hcausal
      have hmem : e ∈ log.take pending.since ++ log.drop pending.since := by
        rwa [List.take_append_drop]
      have hfalse : e.isTerminal = false := by
        obtain hbefore | hwhile := List.mem_append.mp hmem
        · exact hpending.admitted e' (List.mem_of_mem_take he') hcausal' e hbefore
        · exact horder ⟨e', he', hcausal'⟩ e hwhile
      rw [hfalse] at hterminal
      cases hterminal

/-- One event keeps the causal prefixes and is refused rightly exactly when it comes in order. -/
theorem prefixed_step_iff (hsound : s.Sound) (h : s.Prefixed) (e : ProducerEvent τ) :
    (s.step projection e).Prefixed ∧ RefusedRightly projection s e ↔ InOrder projection s e := by
  cases e with
  | call request =>
      rw [refusedRightly_call_iff]
      refine and_iff_right fun runId => ?_
      change CausalPrefix ((s.call projection request).log runId)
      rw [call_log]
      exact h runId
  | store task written =>
      rw [show RefusedRightly projection s (.store task written) = True from rfl, and_true]
      unfold InOrder ProducerState.step
      dsimp only
      cases hget : s.waiting.get? task with
      | none =>
          refine iff_of_true h fun pending hpending => ?_
          cases hpending
      | some pending =>
          have hiff := causalPrefix_append_iff (hsound.waiting task pending hget) (h _) written
          constructor
          · rintro hprefixed _ ⟨rfl⟩
            have hrun := hprefixed pending.runId
            change CausalPrefix (s.write pending written pending.runId) at hrun
            rw [write_self] at hrun
            exact hiff.mp hrun
          · intro horder runId
            change CausalPrefix (s.write pending written runId)
            by_cases hrun : runId = pending.runId
            · rw [hrun, write_self]
              exact hiff.mpr (horder pending rfl)
            · rw [write_of_ne pending written hrun]
              exact h runId
  | cancel task => exact iff_of_true ⟨h, trivial⟩ trivial

end ProducerState

/-! ### Histories -/

section Histories
variable {τ : Type} (projection : EventProjection τ)

/-- After every part of the history the logs have causal prefixes, and every call that was refused
was refused in a terminated run. -/
def KeepsSeal (history : List (ProducerEvent τ)) : Prop :=
  (∀ earlier, earlier <+: history → (ProducerState.after projection earlier).Prefixed) ∧
  EachStep (fun earlier e => (ProducerState.after projection earlier).RefusedRightly projection e)
    history

/-- Every event of the history came in order. -/
def EachInOrder (history : List (ProducerEvent τ)) : Prop :=
  EachStep (fun earlier e => (ProducerState.after projection earlier).InOrder projection e) history

theorem producer_after_snoc (history : List (ProducerEvent τ)) (e : ProducerEvent τ) :
    ProducerState.after projection (history ++ [e]) =
      (ProducerState.after projection history).step projection e := by
  simp [ProducerState.after]

theorem sound_producer_after (history : List (ProducerEvent τ)) :
    (ProducerState.after projection history).Sound := by
  induction history using List.reverseRecOn with
  | nil => exact ProducerState.sound_init
  | append_singleton history e ih =>
      rw [producer_after_snoc]
      exact ih.step e

theorem keepsSeal_nil : KeepsSeal projection [] := by
  refine ⟨fun earlier hle runId => ?_, eachStep_nil⟩
  rw [List.prefix_nil] at hle
  rw [hle]
  exact List.Pairwise.nil

/-- A history is kept by one more event exactly when that event comes in order. -/
theorem keepsSeal_snoc (history : List (ProducerEvent τ)) (e : ProducerEvent τ) :
    KeepsSeal projection (history ++ [e]) ↔ KeepsSeal projection history ∧
      (ProducerState.after projection history).InOrder projection e := by
  have hsound := sound_producer_after projection history
  unfold KeepsSeal
  rw [eachStep_snoc]
  constructor
  · rintro ⟨hprefixed, hrefused, hlast⟩
    have hhistory := hprefixed history (List.prefix_append _ _)
    have hnext := hprefixed _ List.prefix_rfl
    rw [producer_after_snoc] at hnext
    have hearlier : ∀ earlier, earlier <+: history →
        (ProducerState.after projection earlier).Prefixed := fun earlier hle =>
      hprefixed earlier (hle.trans (List.prefix_append _ _))
    refine ⟨⟨hearlier, hrefused⟩, ?_⟩
    exact (ProducerState.prefixed_step_iff hsound hhistory e).mp ⟨hnext, hlast⟩
  · rintro ⟨⟨hprefixed, hrefused⟩, horder⟩
    have hhistory := hprefixed history List.prefix_rfl
    have hstep := (ProducerState.prefixed_step_iff hsound hhistory e).mpr horder
    refine ⟨fun earlier hle => ?_, hrefused, hstep.2⟩
    obtain rfl | hle' := List.prefix_concat_iff.mp hle
    · rw [producer_after_snoc]
      exact hstep.1
    · exact hprefixed earlier hle'

end Histories

/-- Projections that pass every payload through and choose no card. -/
def plainProjection : EventProjection RuntimeApiEventType where
  eventTypeForStreamEvent event := event.eventType
  payloadForEvent _ payload := some payload
  presentationFields _ _ parentTaskId _ _ subagentId :=
    ⟨none, none, parentTaskId, parentTaskId, subagentId, none, none, none, .run, .user, .redacted⟩
  presentationMetadata _ := none
  preliminaryPresentationForEvent _ _ _ _ := none
  dumpPresentation _ := .null

/-- A call that appends an event without fields to the one run. -/
def plainEvent (eventType : RuntimeApiEventType) : AppendRequest RuntimeApiEventType :=
  .apiEvent ⟨"run", "conversation", "org", "trace", by decide⟩
    ⟨.runtime, eventType, none, none, none, none, none, none, none, none, none⟩

end CopilotRuntime.EventLog
