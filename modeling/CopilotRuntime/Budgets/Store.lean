import CopilotRuntime.Foundation.Dict
import CopilotRuntime.Foundation.Interleaving
import Mathlib.Data.List.MinMax
import Mathlib.Data.List.Sort

/-!
# The budget store

The in-memory store keeps configured budgets, one spend record for each budget
and period, and reservations made before a run. A lookup reports spend
inflated by the unconsumed reservations of the period.

## Implementation notes

Instants are seconds since the epoch in UTC; the calendar date of an instant
is computed from its day number. Generated reservation ids are any ids the
store does not hold yet.
-/

namespace CopilotRuntime.Budgets

open Foundation

/-- A calendar date. -/
structure CivilDate where
  year : Nat
  month : Nat
  day : Nat
  deriving DecidableEq

namespace CivilDate

/-- The date of a day, counted from the epoch. Years start in March here, so that a leap day
comes last. -/
def ofDays (days : Nat) : CivilDate :=
  let z := days + 719468
  let era := z / 146097
  let dayOfEra := z % 146097
  let yearOfEra := (dayOfEra - dayOfEra / 1460 + dayOfEra / 36524 - dayOfEra / 146096) / 365
  let dayOfYear := dayOfEra - (365 * yearOfEra + yearOfEra / 4 - yearOfEra / 100)
  let monthIndex := (5 * dayOfYear + 2) / 153
  let month := if monthIndex < 10 then monthIndex + 3 else monthIndex - 9
  ⟨yearOfEra + era * 400 + (if month ≤ 2 then 1 else 0), month,
    dayOfYear - (153 * monthIndex + 2) / 5 + 1⟩

def isLeap (year : Nat) : Bool := year % 4 = 0 && (year % 100 ≠ 0 || year % 400 = 0)

def monthLength (year month : Nat) : Nat :=
  if month = 2 then (if isLeap year then 29 else 28)
  else if month = 4 ∨ month = 6 ∨ month = 9 ∨ month = 11 then 30 else 31

example : ofDays 0 = ⟨1970, 1, 1⟩ ∧ ofDays 19782 = ⟨2024, 2, 29⟩ := by decide

end CivilDate

def dateOf (now : Nat) : CivilDate := CivilDate.ofDays (now / 86400)

inductive BudgetPeriod
  | day | month
  deriving DecidableEq

inductive BudgetScope
  | org | user
  deriving DecidableEq

inductive BudgetEnforcement
  | soft | hard
  deriving DecidableEq

inductive BudgetStatus
  | active | disabled
  deriving DecidableEq

/-- The first and last day of a period. -/
structure BudgetWindow where
  periodStart : CivilDate
  periodEnd : CivilDate

/-- The window of a period that contains an instant. -/
def BudgetPeriodCalculator.window (period : BudgetPeriod) (now : Nat) : BudgetWindow :=
  let today := dateOf now
  match period with
  | .day => ⟨today, today⟩
  | .month => ⟨⟨today.year, today.month, 1⟩,
      ⟨today.year, today.month, CivilDate.monthLength today.year today.month⟩⟩

/-- One configured spend budget. -/
structure BudgetRecord where
  id : String
  orgId : String
  userId : Option String
  scope : BudgetScope
  period : BudgetPeriod
  enforcement : BudgetEnforcement
  limitMicroUsd : Option Int
  limitTokens : Option Int
  status : BudgetStatus

/-- The running spend of one budget in one period. -/
structure BudgetStateRecord where
  budgetId : String
  periodStart : CivilDate
  periodEnd : CivilDate
  currentSpendMicroUsd : Int
  currentSpendTokens : Int
  rowVersion : Nat := 1
  lastChargedRunId : Option String := none
  updatedAt : Option Nat := none

/-- An estimate held against a budget before its run. -/
structure BudgetReservationRecord where
  reservationId : String
  budgetId : String
  periodStart : CivilDate
  runId : String
  reservedMicroUsd : Nat
  reservedTokens : Nat
  expiresAt : Nat
  consumedAt : Option Nat := none
  deriving DecidableEq

/-- A budget and its inflated spend in the current period, if there is any. -/
structure BudgetWithState where
  budget : BudgetRecord
  state : Option BudgetStateRecord

inductive ChargeOutcome
  | applied | idempotentNoop | exhaustedRetries
  deriving DecidableEq

/-- A budget in one period. -/
abbrev PeriodKey := String × CivilDate

structure BudgetStore where
  budgets : Dict String BudgetRecord
  budgetStates : Dict PeriodKey BudgetStateRecord
  reservations : Dict String BudgetReservationRecord

namespace BudgetStore

/-- The reservation holds an estimate against the budget in the period. -/
def holds (key : PeriodKey) (r : BudgetReservationRecord) : Bool :=
  r.budgetId == key.1 && r.periodStart == key.2 && r.consumedAt == none

/-- The unconsumed reservations of a budget in a period. -/
def unconsumed (s : BudgetStore) (key : PeriodKey) : List BudgetReservationRecord :=
  s.reservations.values.filter (holds key)

def reservedMicro (s : BudgetStore) (key : PeriodKey) : Nat :=
  ((s.unconsumed key).map fun r => r.reservedMicroUsd).sum

def reservedTokens (s : BudgetStore) (key : PeriodKey) : Nat :=
  ((s.unconsumed key).map fun r => r.reservedTokens).sum

/-- A budget applies to its organisation, or only to its user. -/
def budgetMatches (orgId userId : String) (b : BudgetRecord) : Bool :=
  b.orgId == orgId && (b.scope != .user || b.userId == some userId)

/-- The spend of a period with its unconsumed reservations added. Without a record of the
period, one is made up as soon as anything is reserved. -/
def inflatedState (s : BudgetStore) (b : BudgetRecord) (now : Nat) : Option BudgetStateRecord :=
  let window := BudgetPeriodCalculator.window b.period now
  let key : PeriodKey := (b.id, window.periodStart)
  match s.budgetStates.get? key with
  | some state =>
      some { state with
        currentSpendMicroUsd := state.currentSpendMicroUsd + s.reservedMicro key
        currentSpendTokens := state.currentSpendTokens + s.reservedTokens key }
  | none =>
      if s.reservedMicro key > 0 ∨ s.reservedTokens key > 0 then
        some {
          budgetId := b.id
          periodStart := window.periodStart
          periodEnd := window.periodEnd
          currentSpendMicroUsd := s.reservedMicro key
          currentSpendTokens := s.reservedTokens key }
      else none

/-- The matching budgets with their inflated spend, ordered by id. -/
def lookupBudgetsForRun (s : BudgetStore) (orgId userId : String) (now : Nat) :
    List BudgetWithState :=
  ((s.budgets.values.filter (budgetMatches orgId userId)).map fun b =>
    ⟨b, s.inflatedState b now⟩).insertionSort fun a b => a.budget.id ≤ b.budget.id

/-- Add a delta to the spend of a period, unless the run was the last one charged there. -/
def chargeBudget (s : BudgetStore) (budgetId : String) (window : BudgetWindow)
    (deltaMicroUsd deltaTokens : Int) (runId : String) (now : Nat) :
    ChargeOutcome × BudgetStore :=
  let key : PeriodKey := (budgetId, window.periodStart)
  let state := (s.budgetStates.get? key).getD {
    budgetId
    periodStart := window.periodStart
    periodEnd := window.periodEnd
    currentSpendMicroUsd := 0
    currentSpendTokens := 0 }
  if state.lastChargedRunId = some runId then (.idempotentNoop, s)
  else (.applied, { s with
    budgetStates := s.budgetStates.set key { state with
      currentSpendMicroUsd := state.currentSpendMicroUsd + deltaMicroUsd
      currentSpendTokens := state.currentSpendTokens + deltaTokens
      rowVersion := state.rowVersion + 1
      lastChargedRunId := some runId
      updatedAt := some now } })

/-- The run already holds an unconsumed reservation on the budget, in whatever period. -/
def hasReservation (s : BudgetStore) (budgetId runId : String) : Bool :=
  s.reservations.values.any fun r =>
    r.budgetId == budgetId && r.runId == runId && r.consumedAt == none

def reservationTtl : Nat := 60

/-- Reserve an estimate under a fresh id, unless the run already holds a reservation. -/
def reserveBudget (s : BudgetStore) (freshId budgetId : String) (periodStart : CivilDate)
    (runId : String) (micro tokens now : Nat) : Option BudgetReservationRecord × BudgetStore :=
  if s.hasReservation budgetId runId then (none, s)
  else
    let record : BudgetReservationRecord := {
      reservationId := freshId
      budgetId, periodStart, runId
      reservedMicroUsd := micro
      reservedTokens := tokens
      expiresAt := now + reservationTtl }
    (some record, { s with reservations := s.reservations.set freshId record })

/-- Mark a reservation as consumed; an absent or consumed one stays as it is. -/
def consumeBudgetReservation (s : BudgetStore) (reservationId : String) (now : Nat) : BudgetStore :=
  match s.reservations.get? reservationId with
  | none => s
  | some record =>
      if record.consumedAt.isSome then s
      else { s with
        reservations := s.reservations.set reservationId { record with consumedAt := some now } }

end BudgetStore

/-- The estimate of a run before it starts. -/
structure BudgetEstimate where
  inputTokens : Nat
  outputTokens : Nat
  costMicroUsd : Option Nat

inductive BudgetOp
  | lookup (orgId userId : String) (now : Nat)
  | resolveEstimate (runId : String)
  | charge (budgetId : String) (window : BudgetWindow) (deltaMicroUsd deltaTokens : Int)
      (runId : String) (now : Nat)
  | reserve (budgetId : String) (periodStart : CivilDate) (runId : String)
      (micro tokens now : Nat)
  | consume (reservationId : String) (now : Nat)

def BudgetOp.Reply : BudgetOp → Type
  | lookup _ _ _ => List BudgetWithState
  | resolveEstimate _ => Except String BudgetEstimate
  | charge _ _ _ _ _ _ => ChargeOutcome
  | reserve _ _ _ _ _ _ => Option BudgetReservationRecord
  | consume _ _ => Unit

abbrev BudgetProgram := Program BudgetOp BudgetOp.Reply String

def perform (op : BudgetOp) : BudgetProgram op.Reply := Program.request op

/-- Which reply an operation may get from a store, and the store it leaves. -/
def BudgetStore.env : (op : BudgetOp) → BudgetStore → op.Reply → BudgetStore → Prop
  | .lookup orgId userId now, s, reply, s' =>
      reply = s.lookupBudgetsForRun orgId userId now ∧ s' = s
  | .resolveEstimate _, s, _, s' => s' = s
  | .charge budgetId window micro tokens runId now, s, reply, s' =>
      reply = (s.chargeBudget budgetId window micro tokens runId now).1 ∧
        s' = (s.chargeBudget budgetId window micro tokens runId now).2
  | .reserve budgetId periodStart runId micro tokens now, s, reply, s' =>
      ∃ freshId, s.reservations.get? freshId = none ∧
        reply = (s.reserveBudget freshId budgetId periodStart runId micro tokens now).1 ∧
        s' = (s.reserveBudget freshId budgetId periodStart runId micro tokens now).2
  | .consume reservationId now, s, _, s' => s' = s.consumeBudgetReservation reservationId now

namespace BudgetStore

/-- An id longer than every id the store holds. -/
def freshId (s : BudgetStore) : String :=
  let longest := (s.reservations.entries.map fun entry => entry.1.length).foldr max 0
  String.ofList (List.replicate (longest + 1) 'r')

theorem get?_freshId (s : BudgetStore) : s.reservations.get? s.freshId = none := by
  cases hget : s.reservations.get? s.freshId with
  | none => rfl
  | some record =>
      have hmem := (lookupEntries_eq_some_iff s.reservations.keys_nodup).mp hget
      have hlength : s.freshId.length ∈ s.reservations.entries.map fun entry => entry.1.length :=
        List.mem_map.mpr ⟨(s.freshId, record), hmem, rfl⟩
      have hle : s.freshId.length ≤
          (s.reservations.entries.map fun entry => entry.1.length).foldr max 0 :=
        List.le_max_of_le' 0 hlength (Nat.le_refl _)
      simp only [freshId, String.length_ofList, List.length_replicate] at hle
      omega

/-- Answer an operation from the store, with one estimate for every run. -/
def answer (estimate : BudgetEstimate) : (op : BudgetOp) → BudgetStore → op.Reply × BudgetStore
  | .lookup orgId userId now, s => (s.lookupBudgetsForRun orgId userId now, s)
  | .resolveEstimate _, s => (.ok estimate, s)
  | .charge budgetId window micro tokens runId now, s =>
      s.chargeBudget budgetId window micro tokens runId now
  | .reserve budgetId periodStart runId micro tokens now, s =>
      s.reserveBudget s.freshId budgetId periodStart runId micro tokens now
  | .consume reservationId now, s => ((), s.consumeBudgetReservation reservationId now)

theorem answer_sound (estimate : BudgetEstimate) (op : BudgetOp) (s : BudgetStore) :
    env op s (answer estimate op s).1 (answer estimate op s).2 := by
  cases op with
  | lookup orgId userId now => exact ⟨rfl, rfl⟩
  | resolveEstimate runId => exact rfl
  | charge budgetId window micro tokens runId now => exact ⟨rfl, rfl⟩
  | reserve budgetId periodStart runId micro tokens now =>
      exact ⟨s.freshId, s.get?_freshId, rfl, rfl⟩
  | consume reservationId now => exact rfl

end BudgetStore

end CopilotRuntime.Budgets

/-!
# Preflight and charging

The enforcer classifies a run against every active budget it matches and
reserves its estimate on the way; the most restrictive decision wins. After
the run, the charger adds the observed spend and consumes the reservations it
was handed.
-/

namespace CopilotRuntime.Budgets

open Foundation

/-- What a budget that stopped or warned about a run reports. -/
structure BudgetRefusal where
  budget : BudgetRecord
  currentMicroUsd : Int
  currentTokens : Int
  estimatedMicroUsd : Option Nat
  estimatedTokens : Nat

inductive BudgetDecision
  | allow (reservations : List BudgetReservationRecord)
  | warn (refusal : BudgetRefusal) (reservations : List BudgetReservationRecord)
  | deny (refusal : BudgetRefusal)

/-- An estimate given at once, or computed only when a budget is active. -/
inductive EstimateSource
  | given (estimate : BudgetEstimate)
  | provider

structure PreflightRequest where
  orgId : String
  userId : String
  runId : String
  estimate : EstimateSource
  now : Nat

namespace BudgetEstimate

def micro (e : BudgetEstimate) : Nat := e.costMicroUsd.getD 0

def tokens (e : BudgetEstimate) : Nat := e.inputTokens + e.outputTokens

end BudgetEstimate

def isActive (entry : BudgetWithState) : Bool := entry.budget.status == .active

/-- The spend a lookup reported, reservations included. -/
def currentSpend (entry : BudgetWithState) : Int × Int :=
  match entry.state with
  | some state => (state.currentSpendMicroUsd, state.currentSpendTokens)
  | none => (0, 0)

def withinLimit (limit : Option Int) (current : Int) (estimated : Nat) : Bool :=
  match limit with
  | none => true
  | some limit => current + estimated ≤ limit

/-- The estimate fits under both limits of the budget. -/
def withinLimits (entry : BudgetWithState) (e : BudgetEstimate) : Bool :=
  withinLimit entry.budget.limitMicroUsd (currentSpend entry).1 e.micro &&
    withinLimit entry.budget.limitTokens (currentSpend entry).2 e.tokens

def refusalOf (entry : BudgetWithState) (e : BudgetEstimate) : BudgetRefusal where
  budget := entry.budget
  currentMicroUsd := (currentSpend entry).1
  currentTokens := (currentSpend entry).2
  estimatedMicroUsd := e.costMicroUsd
  estimatedTokens := e.tokens

def resolveEstimate (r : PreflightRequest) : BudgetProgram BudgetEstimate :=
  match r.estimate with
  | .given estimate => pure estimate
  | .provider => do Program.ofExcept (← perform (.resolveEstimate r.runId))

/-- Reserve the estimate. A run that already holds a reservation gets none. -/
def reserveAndAllow (entry : BudgetWithState) (r : PreflightRequest) (e : BudgetEstimate) :
    BudgetProgram BudgetDecision := do
  let window := BudgetPeriodCalculator.window entry.budget.period r.now
  match ← perform (.reserve entry.budget.id window.periodStart r.runId e.micro e.tokens r.now) with
  | none => pure (.allow [])
  | some reservation => pure (.allow [reservation])

/-- Classify one budget on its own, reserving when the estimate fits. -/
def classify (r : PreflightRequest) (e : BudgetEstimate) (entry : BudgetWithState) :
    BudgetProgram BudgetDecision :=
  if withinLimits entry e then reserveAndAllow entry r e
  else if entry.budget.enforcement = .soft then pure (.warn (refusalOf entry e) [])
  else pure (.deny (refusalOf entry e))

def classifyAll (r : PreflightRequest) (e : BudgetEstimate) :
    List BudgetWithState → BudgetProgram (List BudgetDecision)
  | [] => pure []
  | entry :: rest => do
      let decision ← classify r e entry
      let decisions ← classifyAll r e rest
      pure (decision :: decisions)

/-- The budget stops the run. -/
def denies (e : BudgetEstimate) (entry : BudgetWithState) : Bool :=
  !withinLimits entry e && entry.budget.enforcement == .hard

def denial : BudgetDecision → Option BudgetRefusal
  | .deny refusal => some refusal
  | _ => none

def warning : BudgetDecision → Option BudgetRefusal
  | .warn refusal _ => some refusal
  | _ => none

def allowedReservations : BudgetDecision → List BudgetReservationRecord
  | .allow reservations => reservations
  | _ => []

/-- The most restrictive decision, with the reservations of the budgets that allowed. -/
def aggregate (decisions : List BudgetDecision) : BudgetDecision :=
  match decisions.findSome? denial with
  | some refusal => .deny refusal
  | none =>
      match decisions.findSome? warning with
      | some refusal => .warn refusal (decisions.flatMap allowedReservations)
      | none => .allow (decisions.flatMap allowedReservations)

/-- Classify a run against its active budgets. -/
def preflight (r : PreflightRequest) : BudgetProgram BudgetDecision := do
  let budgets ← perform (.lookup r.orgId r.userId r.now)
  let active := List.filter isActive budgets
  if active.isEmpty then pure (.allow [])
  else do
    let estimate ← resolveEstimate r
    let decisions ← classifyAll r estimate active
    pure (aggregate decisions)

structure ChargeRequest where
  orgId : String
  userId : String
  runId : String
  observedMicroUsd : Option Int
  observedTokens : Int
  reservations : List BudgetReservationRecord
  /-- The instant of the charge, and the clock its lookup reads. -/
  now : Nat
  lookupNow : Nat

def maxCasRetries : Nat := 5

/-- Charge one budget, trying again while the store reports a lost race. -/
def chargeAttempts (r : ChargeRequest) (b : BudgetRecord) : Nat → BudgetProgram ChargeOutcome
  | 0 => pure .exhaustedRetries
  | attempts + 1 => do
      let window := BudgetPeriodCalculator.window b.period r.now
      let outcome : ChargeOutcome ← perform
        (.charge b.id window (r.observedMicroUsd.getD 0) r.observedTokens r.runId r.now)
      if outcome ≠ .exhaustedRetries then pure outcome
      else chargeAttempts r b attempts

def chargeAll (r : ChargeRequest) : List BudgetWithState →
    BudgetProgram (List (String × ChargeOutcome))
  | [] => pure []
  | entry :: rest =>
      if !isActive entry then chargeAll r rest
      else do
        let outcome ← chargeAttempts r entry.budget maxCasRetries
        let outcomes ← chargeAll r rest
        pure ((entry.budget.id, outcome) :: outcomes)

def consumeAll (now : Nat) : List BudgetReservationRecord → BudgetProgram Unit
  | [] => pure ()
  | reservation :: rest => do
      let _ ← perform (.consume reservation.reservationId now)
      consumeAll now rest

/-- Apply the observed spend to every active budget and consume the reservations. -/
def chargeRun (r : ChargeRequest) : BudgetProgram (List (String × ChargeOutcome)) := do
  let budgets ← perform (.lookup r.orgId r.userId r.lookupNow)
  let outcomes ← chargeAll r budgets
  consumeAll r.now r.reservations
  pure outcomes

end CopilotRuntime.Budgets
