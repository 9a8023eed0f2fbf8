import CopilotRuntime.ModelInvocation.Middleware

/-!
# What an observer knows

Whatever the callbacks report, and in whatever order, the observer's progress
stays consistent, and the first callback that ends the attempt decides how it
ended.
-/

namespace CopilotRuntime.ModelInvocation

namespace ProviderLifecycleCallback

variable {observer : ProviderLifecycleCallback}

/-- Nothing is known of an attempt's usage but what a provider reported. -/
def UsageAttested (observer : ProviderLifecycleCallback) : Prop :=
  (observer.usageReported = false → observer.usage = {} ∧ observer.usageRecordId = none) ∧
    ∀ id ∈ observer.usageRecordId, id ≠ ""

/-- The request was acknowledged and its attempt has not ended. -/
structure Acknowledged (observer : ProviderLifecycleCallback) : Prop where
  started : observer.state.dispatchStarted = true
  accepted : observer.state.dispatchState = .accepted
  underway : observer.state.terminalState = none
  noSignal : observer.state.failureSignal = none
  usage : observer.UsageAttested

/-- What an observer of a dispatched attempt may know. -/
inductive Knows (observer : ProviderLifecycleCallback) : Prop
  | dispatched (state : observer.state = { dispatchStarted := true, dispatchState := .unknown })
      (usage : observer.UsageAttested)
  | streaming (acknowledged : observer.Acknowledged) (streams : observer.state.streamStarted = true)
  | completed (accepted : observer.state.dispatchState = .accepted)
      (ended : observer.state.terminalState = some .completed)
      (noSignal : observer.state.failureSignal = none) (usage : observer.UsageAttested)
  | failed (signal : ModelFailureSignal) (ended : observer.state.terminalState = some .failed)
      (signalled : observer.state.failureSignal = some signal)
      (progress : observer.state.dispatchState = .accepted ∨
        observer.state.streamStarted = false ∧ observer.state.visibleTextObserved = false ∧
          observer.state.toolCallContentObserved = false ∧ observer.state.usageObserved = false)
      (usage : observer.UsageAttested) (started : observer.state.dispatchStarted = true)

/-- An event that leads to a consistent progress is taken in. -/
theorem event_of_advance (fact : ProviderLifecycleEvent) {state : ProviderAttemptLifecycle}
    (hunderway : observer.state.terminalState = none)
    (hadvance : ProviderLifecycleReducer.advance observer.state fact = state.validated)
    (hattested : state.Attested) : observer.event fact = .ok { observer with state } := by
  have hvalidated : state.validated = .ok state := if_pos hattested
  have hreduce : ProviderLifecycleReducer.reduce observer.state fact = .ok state := by
    rw [ProviderLifecycleReducer.reduce, hunderway]
    exact hadvance.trans hvalidated
  rw [event, hreduce]
  rfl

namespace Acknowledged

/-- A fact about the progress of an acknowledged attempt is taken in. -/
theorem event {fact : ProviderLifecycleEvent} (h : observer.Acknowledged)
    (hfact : fact = .streamStarted ∨ fact = .visibleText ∨ fact = .toolCallContent ∨
      fact = .usageObserved) :
    ∃ next, observer.event fact = .ok next ∧ next.Acknowledged ∧
      (observer.state.streamStarted = true ∨ fact = .streamStarted →
        next.state.streamStarted = true) := by
  obtain ⟨hstarted, haccepted, hunderway, hsignal, husage⟩ := h
  have hok (state : ProviderAttemptLifecycle)
      (hadvance : ProviderLifecycleReducer.advance observer.state fact = state.validated)
      (hs : state.dispatchStarted = true) (ha : state.dispatchState = .accepted)
      (ht : state.terminalState = none) (hf : state.failureSignal = none) :
      observer.event fact = .ok { observer with state } := by
    refine event_of_advance _ hunderway hadvance ⟨fun _ => hs, fun _ => ha, fun _ => ha, fun _ => ha, ?_⟩
    simp [ht, hf]
  rcases hfact with rfl | rfl | rfl | rfl
  · refine ⟨_, hok { observer.state with streamStarted := true } (if_pos haccepted) hstarted
      haccepted hunderway hsignal, ⟨hstarted, haccepted, hunderway, hsignal, husage⟩, fun _ => rfl⟩
  · refine ⟨_, hok { observer.state with visibleTextObserved := true } (if_pos haccepted) hstarted
      haccepted hunderway hsignal, ⟨hstarted, haccepted, hunderway, hsignal, husage⟩, ?_⟩
    simp
  · refine ⟨_, hok { observer.state with toolCallContentObserved := true } (if_pos haccepted)
      hstarted haccepted hunderway hsignal,
      ⟨hstarted, haccepted, hunderway, hsignal, husage⟩, ?_⟩
    simp
  · refine ⟨_, hok { observer.state with usageObserved := true } (if_pos haccepted) hstarted
      haccepted hunderway hsignal, ⟨hstarted, haccepted, hunderway, hsignal, husage⟩, ?_⟩
    simp

theorem eventIf (h : observer.Acknowledged) (condition : Bool) {fact : ProviderLifecycleEvent}
    (hfact : fact = .streamStarted ∨ fact = .visibleText ∨ fact = .toolCallContent ∨
      fact = .usageObserved) :
    ∃ next, observer.eventIf condition fact = .ok next ∧ next.Acknowledged ∧
      (observer.state.streamStarted = true ∨ (condition = true ∧ fact = .streamStarted) →
        next.state.streamStarted = true) := by
  cases condition with
  | false =>
      refine ⟨observer, rfl, h, ?_⟩
      simp
  | true =>
      obtain ⟨next, hnext, hacknowledged, hstreams⟩ := h.event hfact
      refine ⟨next, hnext, hacknowledged, fun hor => hstreams ?_⟩
      simpa using hor

theorem withUsage (h : observer.Acknowledged) (message : Message) (observed : NormalizedTokenUsage) :
    (observer.withUsage message observed).Acknowledged := by
  refine ⟨h.started, h.accepted, h.underway, h.noSignal, by simp [ProviderLifecycleCallback.withUsage], ?_⟩
  intro id hid
  cases hmessage : message.id with
  | none =>
      simp only [ProviderLifecycleCallback.withUsage, hmessage] at hid
      exact h.usage.2 id hid
  | some reported =>
      simp only [ProviderLifecycleCallback.withUsage, hmessage] at hid
      split at hid
      · exact h.usage.2 id hid
      · rename_i hne
        rw [Option.mem_some_iff] at hid
        exact hid ▸ hne

theorem observeMessage (h : observer.Acknowledged) (streamed : Bool) (message : Message) :
    ∃ next, observer.observeMessage streamed message = .ok next ∧ next.Acknowledged ∧
      (observer.state.streamStarted = true ∨ streamed = true → next.state.streamStarted = true) := by
  obtain ⟨started, hstarted, hstartedAck, hstartedStreams⟩ :=
    h.eventIf (streamed && !observer.state.streamStarted) (.inl rfl)
  obtain ⟨shown, hshown, hshownAck, hshownStreams⟩ :=
    hstartedAck.eventIf (message.content.isVisible) (.inr (.inl rfl))
  obtain ⟨called, hcalled, hcalledAck, hcalledStreams⟩ :=
    hshownAck.eventIf (!message.toolCalls.isEmpty) (.inr (.inr (.inl rfl)))
  have hstreams : observer.state.streamStarted = true ∨ streamed = true →
      called.state.streamStarted = true := by
    intro hor
    refine hcalledStreams (.inl (hshownStreams (.inl (hstartedStreams ?_))))
    cases hobserver : observer.state.streamStarted with
    | true => exact .inl rfl
    | false =>
        rw [hobserver] at hor
        exact .inr ⟨by simpa using hor, rfl⟩
  cases husage : message.usage with
  | none =>
      refine ⟨called, ?_, hcalledAck, hstreams⟩
      simp [ProviderLifecycleCallback.observeMessage, hstarted, hshown, hcalled, husage, bind,
        Except.bind, pure, Except.pure]
  | some observed =>
      obtain ⟨used, hused, husedAck, husedStreams⟩ :=
        (hcalledAck.withUsage message observed).event (.inr (.inr (.inr rfl)))
      refine ⟨used, ?_, husedAck, fun hor => husedStreams (.inl (hstreams hor))⟩
      simp [ProviderLifecycleCallback.observeMessage, hstarted, hshown, hcalled, husage, hused, bind,
        Except.bind]

theorem observeMessages (h : observer.Acknowledged) (messages : List Message) :
    ∃ next, messages.foldlM (ProviderLifecycleCallback.observeMessage false) observer = .ok next ∧
      next.Acknowledged := by
  induction messages generalizing observer with
  | nil => exact ⟨observer, rfl, h⟩
  | cons message rest ih =>
      obtain ⟨next, hnext, hacknowledged, -⟩ := h.observeMessage false message
      obtain ⟨last, hlast, hlastAck⟩ := ih hacknowledged
      refine ⟨last, ?_, hlastAck⟩
      simpa [List.foldlM_cons, hnext, bind, Except.bind] using hlast

theorem completes (h : observer.Acknowledged) :
    observer.event .completed =
      .ok { observer with state := { observer.state with terminalState := some .completed } } := by
  refine event_of_advance _ h.underway (if_pos h.accepted)
    ⟨fun _ => h.started, fun _ => h.accepted, fun _ => h.accepted, fun _ => h.accepted, ?_⟩
  simp [h.noSignal]

end Acknowledged

/-! ### Callbacks -/

/-- Progress that a callback reports acknowledges the request first. -/
theorem acknowledge_ok (h : observer.Knows) (hunderway : observer.state.terminalState = none) :
    ∃ next, observer.acknowledge = .ok next ∧ next.Acknowledged := by
  cases h with
  | dispatched hstate husage =>
      refine ⟨{ observer with state := { dispatchStarted := true, dispatchState := .accepted } },
        ?_, ⟨rfl, rfl, rfl, rfl, husage⟩⟩
      simp [acknowledge, eventIf, event, hstate, ProviderLifecycleReducer.reduce,
        ProviderLifecycleReducer.advance, ProviderAttemptLifecycle.validated,
        ProviderAttemptLifecycle.Attested, ProviderAttemptLifecycle.visibleOutputObserved, bind,
        Except.bind, pure, Except.pure]
  | streaming hacknowledged _ =>
      refine ⟨observer, ?_, hacknowledged⟩
      simp [acknowledge, eventIf, hacknowledged.started, hacknowledged.accepted, bind, Except.bind]
  | completed _ hended _ _ => simp [hunderway] at hended
  | failed _ hended _ _ _ _ => simp [hunderway] at hended

/-- A complete answer ends an attempt that is underway. -/
theorem complete_ok (h : observer.Knows) (messages : List Message) :
    ∃ next, observer.complete messages = .ok next ∧ next.Knows ∧
      (observer.state.terminalState = none → next.state.terminalState = some .completed) ∧
      (observer.state.terminalState ≠ none → next = observer) := by
  cases hterminal : observer.state.terminalState with
  | some terminal =>
      refine ⟨observer, ?_, h, by simp, fun _ => rfl⟩
      simp [complete, hterminal, pure, Except.pure]
  | none =>
      obtain ⟨first, hfirst, hfirstAck⟩ := acknowledge_ok h hterminal
      obtain ⟨told, htold, htoldAck⟩ := hfirstAck.observeMessages messages
      refine ⟨{ told with state := { told.state with terminalState := some .completed } }, ?_,
        .completed htoldAck.accepted rfl htoldAck.noSignal htoldAck.usage, fun _ => rfl, by simp⟩
      simp [complete, hterminal, hfirst, htold, htoldAck.completes, bind, Except.bind]

/-- An error ends an attempt that is underway, with the signal its adapter sees. -/
theorem onError_ok (h : observer.Knows) (error : ProviderError) :
    ∃ next, observer.onError error = .ok next ∧ next.Knows ∧
      (observer.state.terminalState = none → next.state.terminalState = some .failed ∧
        next.state.failureSignal = some error.signal) ∧
      (observer.state.terminalState ≠ none → next = observer) ∧
      next.usage = observer.usage ∧ next.usageRecordId = observer.usageRecordId := by
  cases h with
  | dispatched hstate husage =>
      let dispatch : ModelDispatchState :=
        if error.signal = .connectivity then .notAccepted else .unknown
      let ended : ProviderAttemptLifecycle :=
        { dispatchStarted := true, dispatchState := dispatch, terminalState := some .failed,
          failureSignal := some error.signal }
      refine ⟨{ observer with state := ended }, ?_,
        .failed error.signal rfl rfl (.inr ⟨rfl, rfl, rfl, rfl⟩) husage rfl, fun _ => ⟨rfl, rfl⟩, ?_,
        rfl, rfl⟩
      · by_cases hconnectivity : error.signal = .connectivity
        all_goals
          simp [onError, eventIf, event, hstate, hconnectivity, ended, dispatch,
            ProviderLifecycleReducer.reduce, ProviderLifecycleReducer.advance,
            ProviderAttemptLifecycle.validated, ProviderAttemptLifecycle.Attested,
            ProviderAttemptLifecycle.visibleOutputObserved, bind, Except.bind, pure, Except.pure]
      · simp [hstate]
  | streaming hacknowledged hstreams =>
      have hevent : observer.onError error = observer.event (.failed error.signal) := by
        simp [onError, eventIf, hacknowledged.underway, hstreams, bind, Except.bind]
      have hended := event_of_advance (.failed error.signal) hacknowledged.underway rfl
        ⟨fun _ => hacknowledged.started, fun _ => hacknowledged.accepted,
          fun _ => hacknowledged.accepted, fun _ => hacknowledged.accepted, by simp⟩
      refine ⟨_, hevent.trans hended,
        .failed error.signal rfl rfl (.inl hacknowledged.accepted) hacknowledged.usage
          hacknowledged.started,
        fun _ => ⟨rfl, rfl⟩, by simp [hacknowledged.underway], rfl, rfl⟩
  | completed haccepted hended hsignal husage =>
      refine ⟨observer, ?_, .completed haccepted hended hsignal husage, by simp [hended],
        fun _ => rfl, rfl, rfl⟩
      simp [onError, hended, pure, Except.pure]
  | failed signal hended hsignalled hprogress husage hstarted =>
      refine ⟨observer, ?_, .failed signal hended hsignalled hprogress husage hstarted, by simp [hended],
        fun _ => rfl, rfl, rfl⟩
      simp [onError, hended, pure, Except.pure]

theorem onLlmNewToken_ok (h : observer.Knows) (token : String) (chunk : Option Message) :
    ∃ next, observer.onLlmNewToken token chunk = .ok next ∧ next.Knows := by
  cases hterminal : observer.state.terminalState with
  | some terminal =>
      refine ⟨observer, ?_, h⟩
      simp [onLlmNewToken, hterminal, pure, Except.pure]
  | none =>
      obtain ⟨first, hfirst, hfirstAck⟩ := acknowledge_ok h hterminal
      obtain ⟨started, hstarted, hstartedAck, hstartedStreams⟩ :=
        hfirstAck.eventIf (!first.state.streamStarted) (.inl rfl)
      obtain ⟨shown, hshown, hshownAck, hshownStreams⟩ :=
        hstartedAck.eventIf (token ≠ "") (.inr (.inl rfl))
      have hstreams : shown.state.streamStarted = true := by
        refine hshownStreams (.inl (hstartedStreams ?_))
        cases first.state.streamStarted <;> simp
      simp only [ne_eq, decide_not] at hshown
      cases chunk with
      | none =>
          refine ⟨shown, ?_, .streaming hshownAck hstreams⟩
          simp [onLlmNewToken, hterminal, hfirst, hstarted, hshown, bind, Except.bind, pure,
            Except.pure]
      | some chunk =>
          obtain ⟨told, htold, htoldAck, htoldStreams⟩ := hshownAck.observeMessage true chunk
          refine ⟨told, ?_, .streaming htoldAck (htoldStreams (.inr rfl))⟩
          simp [onLlmNewToken, hterminal, hfirst, hstarted, hshown, htold, bind, Except.bind]

/-- A late proof of rejection ends an attempt of which nothing else was observed. -/
theorem onCacheRejection_ok (h : observer.Knows) (hdispatch : observer.state.dispatchState ≠ .accepted)
    (htext : observer.state.visibleTextObserved = false)
    (htool : observer.state.toolCallContentObserved = false)
    (husage : observer.state.usageObserved = false)
    (hstarted : observer.state.dispatchStarted = true) :
    ∃ next, observer.onCacheRejection = .ok next ∧ next.Knows ∧
      next.state.terminalState = some .failed ∧
      next.state.failureSignal = some .requestInvalid ∧ next.state.visibleTextObserved = false ∧
      next.state.toolCallContentObserved = false ∧ next.state.streamStarted = false ∧
      next.usage = observer.usage ∧ next.usageReported = observer.usageReported ∧
      next.usageRecordId = observer.usageRecordId := by
  obtain ⟨hstreams, hterminal, hattested⟩ : observer.state.streamStarted = false ∧
      (observer.state.terminalState = none ∨ observer.state.terminalState = some .failed) ∧
      observer.UsageAttested := by
    cases h with
    | dispatched hstate husage => exact ⟨by rw [hstate], .inl (by rw [hstate]), husage⟩
    | streaming hacknowledged _ => exact absurd hacknowledged.accepted hdispatch
    | completed haccepted _ _ _ => exact absurd haccepted hdispatch
    | failed _ hended _ hprogress husage _ =>
        rcases hprogress with haccepted | ⟨hstreams, -⟩
        · exact absurd haccepted hdispatch
        · exact ⟨hstreams, .inr hended, husage⟩
  let ended : ProviderAttemptLifecycle :=
    { observer.state with
      dispatchState := .notAccepted
      terminalState := some .failed
      failureSignal := some .requestInvalid }
  refine ⟨{ observer with state := ended }, ?_,
    .failed .requestInvalid rfl rfl (.inr ⟨hstreams, htext, htool, husage⟩) hattested hstarted,
    rfl, rfl, htext, htool, hstreams, rfl, rfl, rfl⟩
  have hchecked : ended.Attested := by
    simp [ProviderAttemptLifecycle.Attested, ended, hstreams,
      ProviderAttemptLifecycle.visibleOutputObserved, htext, htool, husage]
  have hvalidated : ended.validated = .ok ended := if_pos hchecked
  have hrefine : ProviderLifecycleReducer.refineCacheRejection observer.state = .ok ended := by
    rw [ProviderLifecycleReducer.refineCacheRejection, if_pos]
    · exact hvalidated
    · simp [hstarted, hdispatch, hstreams, ProviderAttemptLifecycle.visibleOutputObserved, htext,
        htool, husage, hterminal]
  simp [onCacheRejection, eventIf, hstarted, hrefine, bind, Except.bind, pure, Except.pure]

/-! ### All callbacks of an attempt -/

/-- A callback keeps what is known consistent, and does not change how an attempt ended. -/
theorem deliver_knows (h : observer.Knows) (callback : Callback) :
    (observer.deliver callback).Knows := by
  have hdispatch : ((observer.event .dispatchStarted).toOption.getD observer).Knows := by
    cases h with
    | dispatched hstate husage =>
        have hreduce : ProviderLifecycleReducer.reduce observer.state .dispatchStarted =
            .ok observer.state := by
          rw [hstate]
          rfl
        rw [event, hreduce]
        exact .dispatched hstate husage
    | streaming hacknowledged hstreams =>
        have hsame : observer.event .dispatchStarted = .ok observer := by
          simp [event, hacknowledged.underway, hacknowledged.started,
            ProviderLifecycleReducer.reduce, ProviderLifecycleReducer.advance, bind, Except.bind,
            pure, Except.pure]
        rw [hsame]
        exact .streaming hacknowledged hstreams
    | completed haccepted hended hsignal husage =>
        have hraised : observer.event .dispatchStarted = .error .mk := by
          simp [event, hended, ProviderLifecycleReducer.reduce,
            ProviderLifecycleReducer.isIdempotentTerminal, bind, Except.bind]
        rw [hraised]
        exact .completed haccepted hended hsignal husage
    | failed signal hended hsignalled hprogress husage hstarted =>
        have hraised : observer.event .dispatchStarted = .error .mk := by
          simp [event, hended, ProviderLifecycleReducer.reduce,
            ProviderLifecycleReducer.isIdempotentTerminal, bind, Except.bind]
        rw [hraised]
        exact .failed signal hended hsignalled hprogress husage hstarted
  cases callback with
  | onChatModelStart => exact hdispatch
  | onLlmStart => exact hdispatch
  | onLlmNewToken token chunk =>
      obtain ⟨next, hnext, hknows⟩ := onLlmNewToken_ok h token chunk
      rw [deliver, handle, hnext]
      exact hknows
  | onLlmEnd messages =>
      obtain ⟨next, hnext, hknows, -⟩ := complete_ok h messages
      rw [deliver, handle, hnext]
      exact hknows
  | onLlmError error =>
      obtain ⟨next, hnext, hknows, -⟩ := onError_ok h error
      rw [deliver, handle, hnext]
      exact hknows

theorem observeAll_knows (h : observer.Knows) (callbacks : List Callback) :
    (observer.observeAll callbacks).Knows := by
  induction callbacks generalizing observer with
  | nil => exact h
  | cons callback rest ih => exact ih (deliver_knows h callback)

/-- The observer of an attempt that was dispatched. -/
def dispatched : ProviderLifecycleCallback where
  state := { dispatchStarted := true, dispatchState := .unknown }

theorem event_dispatchStarted :
    ({} : ProviderLifecycleCallback).event .dispatchStarted = .ok dispatched := rfl

theorem dispatched_knows : dispatched.Knows :=
  .dispatched rfl ⟨fun _ => ⟨rfl, rfl⟩, by simp [dispatched]⟩

theorem Knows.started (h : observer.Knows) (hdispatch : observer.state.dispatchState ≠ .accepted) :
    observer.state.dispatchStarted = true := by
  cases h with
  | dispatched hstate _ => rw [hstate]
  | streaming hacknowledged _ => exact hacknowledged.started
  | completed haccepted _ _ _ => exact absurd haccepted hdispatch
  | failed _ _ _ _ _ hstarted => exact hstarted

theorem Knows.ended (h : observer.Knows) : observer.state.terminalState = none ∨
    observer.state.terminalState = some .completed ∨
      observer.state.terminalState = some .failed := by
  cases h with
  | dispatched hstate _ => exact .inl (by rw [hstate])
  | streaming hacknowledged _ => exact .inl hacknowledged.underway
  | completed _ hended _ _ => exact .inr (.inl hended)
  | failed _ hended _ _ _ _ => exact .inr (.inr hended)

theorem Knows.usageAttested (h : observer.Knows) : observer.UsageAttested := by
  cases h with
  | dispatched _ husage => exact husage
  | streaming hacknowledged _ => exact hacknowledged.usage
  | completed _ _ _ husage => exact husage
  | failed _ _ _ _ husage _ => exact husage

end ProviderLifecycleCallback

/-! ### The facts of an attempt that ended -/

open ModelInvocationMiddleware EventJournalModelInvocationStore

/-- A state of an attempt that another state may follow. -/
def Precedes (earlier later : ModelAttemptLifecycleState) : Prop :=
  earlier ≠ later ∧ stateRank earlier ≤ stateRank later ∧ ¬ endsAttempt earlier

instance (earlier later) : Decidable (Precedes earlier later) :=
  inferInstanceAs (Decidable (_ ∧ _ ∧ _))

theorem ite_singleton_sublist {α : Type} (condition : Prop) [Decidable condition] (a : α) :
    (if condition then [a] else []).Sublist [a] := by
  by_cases h : condition
  · rw [if_pos h]
  · rw [if_neg h]
    exact List.nil_sublist _

def allProgress : List ModelAttemptLifecycleState :=
  [.accepted, .streamStarted, .visibleOutput, .toolCallContent]

variable (state : ProviderAttemptLifecycle)

theorem progressFacts_sublist : (progressFacts state).Sublist allProgress :=
  (((ite_singleton_sublist _ _).append (ite_singleton_sublist _ _)).append
    (ite_singleton_sublist _ _)).append (ite_singleton_sublist _ _)

theorem endFacts_cases : endFacts state = [] ∨ endFacts state = [.completed] ∨
    endFacts state = [.cancelled] ∨ endFacts state = [.ambiguous] := by
  unfold endFacts
  split_ifs
  all_goals simp

/-- The states of an attempt are recorded in ascending order, and only the last may end it. -/
theorem stateFacts_ascending :
    (ModelAttemptLifecycleState.dispatching :: stateFacts state).Pairwise Precedes := by
  have hall {ends : List ModelAttemptLifecycleState}
      (hpairwise : (ModelAttemptLifecycleState.dispatching :: (allProgress ++ ends)).Pairwise
        Precedes) :
      (ModelAttemptLifecycleState.dispatching :: (progressFacts state ++ ends)).Pairwise Precedes :=
    hpairwise.sublist
      (((progressFacts_sublist state).append (List.Sublist.refl ends)).cons_cons _)
  rw [stateFacts]
  apply hall
  rcases endFacts_cases state with h | h | h | h
  all_goals
    rw [h]
    decide

theorem completed_mem_stateFacts :
    ModelAttemptLifecycleState.completed ∈ stateFacts state ↔
      state.terminalState = some .completed := by
  have hprogress : ModelAttemptLifecycleState.completed ∉ progressFacts state := by
    intro hmem
    exact absurd ((progressFacts_sublist state).subset hmem) (by decide)
  rw [stateFacts, List.mem_append, or_iff_right hprogress, endFacts]
  split_ifs with hcompleted hcancelled hambiguous
  all_goals simp [hcompleted]

variable {state}

theorem visibleOutput_mem_stateFacts (h : ModelAttemptLifecycleState.visibleOutput ∈ stateFacts state) :
    state.visibleTextObserved = true := by
  rw [stateFacts, List.mem_append] at h
  rcases h with hprogress | hend
  · simp only [progressFacts, List.mem_append] at hprogress
    by_contra hnone
    split_ifs at hprogress
    all_goals simp at hprogress
  · rcases endFacts_cases state with hcases | hcases | hcases | hcases
    all_goals simp [hcases] at hend

theorem toolCallContent_mem_stateFacts
    (h : ModelAttemptLifecycleState.toolCallContent ∈ stateFacts state) :
    state.toolCallContentObserved = true := by
  rw [stateFacts, List.mem_append] at h
  rcases h with hprogress | hend
  · simp only [progressFacts, List.mem_append] at hprogress
    by_contra hnone
    split_ifs at hprogress
    all_goals simp at hprogress
  · rcases endFacts_cases state with hcases | hcases | hcases | hcases
    all_goals simp [hcases] at hend

/-- An ambiguous state is recorded of a failure that classifies as ambiguous. -/
theorem ambiguous_mem_stateFacts (h : ModelAttemptLifecycleState.ambiguous ∈ stateFacts state) :
    state.failureObservation.map ProviderFailureClassifier.classify =
      some .ambiguousProviderState := by
  rw [stateFacts, List.mem_append] at h
  rcases h with hprogress | hend
  · exact absurd ((progressFacts_sublist state).subset hprogress) (by decide)
  · unfold endFacts at hend
    split_ifs at hend with hcompleted hcancelled hambiguous
    · simp at hend
    · simp at hend
    · exact hambiguous
    · simp at hend

theorem stateRecord_wellFormed {observer : ProviderLifecycleCallback} (h : observer.Knows)
    (binding : ModelInvocationRuntimeBinding) (identity : AdmittedIdentity)
    {fact : ModelAttemptLifecycleState} (hfact : fact ∈ stateFacts observer.state) :
    (ModelInvocationRecord.attemptState (stateRecord binding identity observer.state fact)).WellFormed := by
  refine ⟨fun htext => ?_, fun htool => ?_, ?_, ?_⟩
  · have htext : observer.state.visibleTextObserved = true := htext
    simp [stateRecord, ProviderAttemptLifecycle.streamState,
      ProviderAttemptLifecycle.visibleOutputObserved, htext]
  · have htool : observer.state.toolCallContentObserved = true := htool
    left
    cases h with
    | dispatched hstate _ => simp [hstate] at htool
    | streaming hacknowledged _ => exact hacknowledged.accepted
    | completed haccepted _ _ _ => exact haccepted
    | failed _ _ _ hprogress _ _ =>
        rcases hprogress with haccepted | ⟨-, -, hnone, -⟩
        · exact haccepted
        · simp [hnone] at htool
  · rintro rfl
    exact visibleOutput_mem_stateFacts hfact
  · rintro rfl
    exact toolCallContent_mem_stateFacts hfact

/-- A failure is observed exactly of an attempt that failed. -/
theorem failureObservation_of_failed {observer : ProviderLifecycleCallback} (h : observer.Knows)
    (hfailed : observer.state.terminalState = some .failed) :
    ∃ signal, observer.state.failureSignal = some signal ∧ observer.state.failureObservation =
      some ⟨signal, observer.state.dispatchState, observer.state.streamState⟩ := by
  cases h with
  | dispatched hstate _ => simp [hstate] at hfailed
  | streaming hacknowledged _ => simp [hacknowledged.underway] at hfailed
  | completed _ hended _ _ => simp [hended] at hfailed
  | failed signal _ hsignalled hprogress _ _ =>
      refine ⟨signal, hsignalled, ?_⟩
      rcases hprogress with haccepted | ⟨hstreams, htext, htool, -⟩
      · simp [ProviderAttemptLifecycle.failureObservation, hfailed, hsignalled, haccepted]
      · simp [ProviderAttemptLifecycle.failureObservation, hfailed, hsignalled,
          ProviderAttemptLifecycle.streamState, ProviderAttemptLifecycle.visibleOutputObserved,
          hstreams, htext, htool]

theorem failureObservation_of_completed
    (hcompleted : state.terminalState = some .completed) : state.failureObservation = none := by
  simp [ProviderAttemptLifecycle.failureObservation, hcompleted]

end CopilotRuntime.ModelInvocation
