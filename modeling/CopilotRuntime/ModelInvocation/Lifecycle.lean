import CopilotRuntime.ModelInvocation.Contracts

/-!
# What is observed of a provider attempt

A reducer advances the progress of one attempt from the facts that the callbacks
of the model report. The observer holds that progress and the usage reported so
far.

## Implementation notes

The callback manager logs an exception of a callback and goes on, so a callback
that raises leaves the observer as it was. What an extractor reads of a message
and what a failure adapter sees in an exception are part of the message and of
the exception.
-/

namespace CopilotRuntime.ModelInvocation

/-! ### Token usage -/

structure NormalizedTokenUsage where
  inputTokens : Nat := 0
  outputTokens : Nat := 0
  cachedInputTokens : Nat := 0
  cacheCreationInputTokens : Nat := 0
  reasoningTokens : Nat := 0
  audioInputTokens : Nat := 0
  audioOutputTokens : Nat := 0
  deriving DecidableEq

def NormalizedTokenUsage.merge (self other : NormalizedTokenUsage) : NormalizedTokenUsage where
  inputTokens := max self.inputTokens other.inputTokens
  outputTokens := max self.outputTokens other.outputTokens
  cachedInputTokens := max self.cachedInputTokens other.cachedInputTokens
  cacheCreationInputTokens := max self.cacheCreationInputTokens other.cacheCreationInputTokens
  reasoningTokens := max self.reasoningTokens other.reasoningTokens
  audioInputTokens := max self.audioInputTokens other.audioInputTokens
  audioOutputTokens := max self.audioOutputTokens other.audioOutputTokens

/-! ### Progress -/

inductive ProviderLifecycleEvent
  | dispatchStarted
  | dispatchNotAccepted
  | dispatchAcknowledged
  | streamStarted
  | visibleText
  | toolCallContent
  | usageObserved
  | completed
  | cancelled
  | failed (signal : ModelFailureSignal)
  deriving DecidableEq

inductive ProviderTerminalState
  | completed
  | cancelled
  | failed
  deriving DecidableEq

/-- The one error of the reducer: a regressive or impossible transition. -/
inductive ProviderLifecycleTransitionError
  | mk
  deriving DecidableEq

structure ProviderAttemptLifecycle where
  dispatchStarted : Bool := false
  dispatchState : ModelDispatchState := .beforeDispatch
  streamStarted : Bool := false
  visibleTextObserved : Bool := false
  toolCallContentObserved : Bool := false
  usageObserved : Bool := false
  terminalState : Option ProviderTerminalState := none
  failureSignal : Option ModelFailureSignal := none

namespace ProviderAttemptLifecycle

def visibleOutputObserved (state : ProviderAttemptLifecycle) : Bool :=
  state.visibleTextObserved || state.toolCallContentObserved

def streamState (state : ProviderAttemptLifecycle) : ModelStreamState :=
  if state.visibleOutputObserved then .visibleOutput
  else if state.streamStarted then .startedNoVisibleOutput
  else .notStarted

/-- What is known of an attempt is consistent. -/
def Attested (state : ProviderAttemptLifecycle) : Prop :=
  (state.dispatchState = .accepted → state.dispatchStarted) ∧
    (state.streamStarted → state.dispatchState = .accepted) ∧
    (state.visibleOutputObserved → state.dispatchState = .accepted) ∧
    (state.usageObserved → state.dispatchState = .accepted) ∧
    (state.terminalState = some .failed ↔ state.failureSignal.isSome)

instance (state : ProviderAttemptLifecycle) : Decidable state.Attested :=
  inferInstanceAs (Decidable (_ ∧ _ ∧ _ ∧ _ ∧ _))

def validated (state : ProviderAttemptLifecycle) :
    Except ProviderLifecycleTransitionError ProviderAttemptLifecycle :=
  if state.Attested then .ok state else .error .mk

/-- The input of the classifier, or nothing where the attempt did not fail. -/
def failureObservation (state : ProviderAttemptLifecycle) : Option ProviderFailureObservation :=
  match state.terminalState, state.failureSignal with
  | some .failed, some signal =>
      if state.streamState ≠ .notStarted ∧
          (state.dispatchState = .beforeDispatch ∨ state.dispatchState = .notAccepted) then none
      else some ⟨signal, state.dispatchState, state.streamState⟩
  | _, _ => none

end ProviderAttemptLifecycle

namespace ProviderLifecycleReducer

def isIdempotentTerminal (state : ProviderAttemptLifecycle) (terminal : ProviderTerminalState) :
    ProviderLifecycleEvent → Bool
  | .completed => terminal = .completed
  | .cancelled => terminal = .cancelled
  | .failed signal => terminal = .failed ∧ state.failureSignal = some signal
  | _ => false

def advance (state : ProviderAttemptLifecycle) :
    ProviderLifecycleEvent → Except ProviderLifecycleTransitionError ProviderAttemptLifecycle
  | .dispatchStarted =>
      if state.dispatchStarted then .ok state
      else { state with dispatchStarted := true, dispatchState := .unknown }.validated
  | .dispatchAcknowledged =>
      if state.dispatchStarted then { state with dispatchState := .accepted }.validated
      else .error .mk
  | .dispatchNotAccepted =>
      if state.dispatchStarted ∧ ¬ state.streamStarted then
        { state with dispatchState := .notAccepted }.validated
      else .error .mk
  | .streamStarted =>
      if state.dispatchState = .accepted then { state with streamStarted := true }.validated
      else .error .mk
  | .visibleText =>
      if state.dispatchState = .accepted then { state with visibleTextObserved := true }.validated
      else .error .mk
  | .toolCallContent =>
      if state.dispatchState = .accepted then
        { state with toolCallContentObserved := true }.validated
      else .error .mk
  | .usageObserved =>
      if state.dispatchState = .accepted then { state with usageObserved := true }.validated
      else .error .mk
  | .completed =>
      if state.dispatchState = .accepted then
        { state with terminalState := some .completed }.validated
      else .error .mk
  | .cancelled => { state with terminalState := some .cancelled }.validated
  | .failed signal =>
      { state with terminalState := some .failed, failureSignal := some signal }.validated

def reduce (state : ProviderAttemptLifecycle) (event : ProviderLifecycleEvent) :
    Except ProviderLifecycleTransitionError ProviderAttemptLifecycle :=
  match state.terminalState with
  | some terminal => if isIdempotentTerminal state terminal event then .ok state else .error .mk
  | none => advance state event

/-- Late proof that the dispatch was rejected for its cache metadata. -/
def refineCacheRejection (state : ProviderAttemptLifecycle) :
    Except ProviderLifecycleTransitionError ProviderAttemptLifecycle :=
  if state.dispatchStarted ∧ state.dispatchState ≠ .accepted ∧ ¬ state.streamStarted ∧
      ¬ state.visibleOutputObserved ∧ ¬ state.usageObserved ∧
      (state.terminalState = none ∨ state.terminalState = some .failed) then
    { state with
      dispatchState := .notAccepted
      terminalState := some .failed
      failureSignal := some .requestInvalid }.validated
  else .error .mk

end ProviderLifecycleReducer

/-! ### The observer of an attempt -/

inductive MessageContent
  | text (content : String)
  | blocks (content : List String)
  | other

def MessageContent.isVisible : MessageContent → Bool
  | text content => content ≠ ""
  | blocks content => content ≠ []
  | other => false

structure Message where
  content : MessageContent
  toolCalls : List String
  usage : Option NormalizedTokenUsage
  id : Option String

structure ProviderError where
  name : String
  signal : ModelFailureSignal

structure ModelResponse where
  result : List Message

inductive Callback
  | onChatModelStart
  | onLlmStart
  | onLlmNewToken (token : String) (chunk : Option Message)
  | onLlmEnd (messages : List Message)
  | onLlmError (error : ProviderError)

structure ProviderLifecycleCallback where
  state : ProviderAttemptLifecycle := {}
  usage : NormalizedTokenUsage := {}
  usageReported : Bool := false
  usageRecordId : Option String := none

namespace ProviderLifecycleCallback

abbrev Outcome := Except ProviderLifecycleTransitionError ProviderLifecycleCallback

def event (observer : ProviderLifecycleCallback) (event : ProviderLifecycleEvent) : Outcome := do
  let state ← ProviderLifecycleReducer.reduce observer.state event
  return { observer with state }

def eventIf (condition : Bool) (observer : ProviderLifecycleCallback)
    (event : ProviderLifecycleEvent) : Outcome :=
  if condition then observer.event event else .ok observer

def acknowledge (observer : ProviderLifecycleCallback) : Outcome := do
  let observer ← observer.eventIf (!observer.state.dispatchStarted) .dispatchStarted
  observer.eventIf (observer.state.dispatchState ≠ .accepted) .dispatchAcknowledged

def withUsage (observer : ProviderLifecycleCallback) (message : Message)
    (observed : NormalizedTokenUsage) : ProviderLifecycleCallback :=
  { observer with
    usageRecordId := match message.id with
      | some id => if id = "" then observer.usageRecordId else some id
      | none => observer.usageRecordId
    usage := observer.usage.merge observed
    usageReported := true }

def observeMessage (streamed : Bool) (observer : ProviderLifecycleCallback) (message : Message) :
    Outcome := do
  let observer ← observer.eventIf (streamed && !observer.state.streamStarted) .streamStarted
  let observer ← observer.eventIf message.content.isVisible .visibleText
  let observer ← observer.eventIf (!message.toolCalls.isEmpty) .toolCallContent
  match message.usage with
  | some observed => (observer.withUsage message observed).event .usageObserved
  | none => return observer

def complete (observer : ProviderLifecycleCallback) (messages : List Message) : Outcome :=
  if observer.state.terminalState.isSome then return observer
  else do
    let observer ← observer.acknowledge
    let observer ← messages.foldlM (observeMessage false) observer
    observer.event .completed

def onLlmNewToken (observer : ProviderLifecycleCallback) (token : String)
    (chunk : Option Message) : Outcome :=
  if observer.state.terminalState.isSome then return observer
  else do
    let observer ← observer.acknowledge
    let observer ← observer.eventIf (!observer.state.streamStarted) .streamStarted
    let observer ← observer.eventIf (token ≠ "") .visibleText
    match chunk with
    | some chunk => observer.observeMessage true chunk
    | none => return observer

def onError (observer : ProviderLifecycleCallback) (error : ProviderError) : Outcome :=
  if observer.state.terminalState.isSome then return observer
  else do
    let rejected : Bool := error.signal = .connectivity && !observer.state.streamStarted &&
      observer.state.dispatchStarted
    let observer ← observer.eventIf rejected .dispatchNotAccepted
    observer.event (.failed error.signal)

def onCacheRejection (observer : ProviderLifecycleCallback) : Outcome := do
  let observer ← observer.eventIf (!observer.state.dispatchStarted) .dispatchStarted
  let state ← ProviderLifecycleReducer.refineCacheRejection observer.state
  return { observer with state }

def handle (observer : ProviderLifecycleCallback) : Callback → Outcome
  | .onChatModelStart => observer.event .dispatchStarted
  | .onLlmStart => observer.event .dispatchStarted
  | .onLlmNewToken token chunk => observer.onLlmNewToken token chunk
  | .onLlmEnd messages => observer.complete messages
  | .onLlmError error => observer.onError error

/-- The observer after a callback, whose exception is only logged. -/
def deliver (observer : ProviderLifecycleCallback) (callback : Callback) :
    ProviderLifecycleCallback :=
  (observer.handle callback).toOption.getD observer

def observeAll (observer : ProviderLifecycleCallback) (callbacks : List Callback) :
    ProviderLifecycleCallback :=
  callbacks.foldl deliver observer

end ProviderLifecycleCallback

end CopilotRuntime.ModelInvocation
