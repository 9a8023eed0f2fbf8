import CopilotRuntime.Budgets.Store
import Mathlib.Algebra.Group.Int.Defs
import Mathlib.Algebra.Group.Prod
import Mathlib.Tactic.Abel

/-!
# What repeated charges add to a budget

A period remembers only the run it charged last. A repeated charge is
recognised when it directly follows a charge of its run; after a charge of any
other run it counts once more.
-/

namespace CopilotRuntime.Budgets

open Foundation

/-- The calls that share one budget store. -/
inductive BudgetCall
  | preflight (request : PreflightRequest)
  | charge (request : ChargeRequest)

def BudgetCall.body : BudgetCall → BudgetProgram BudgetDecision
  | preflight request => Budgets.preflight request
  | charge request => do
      let _ ← chargeRun request
      pure (.allow [])

abbrev BudgetEvent := Event BudgetOp BudgetOp.Reply BudgetCall

/-- One charge of a run against a budget in a period. -/
structure Charge where
  runId : String
  delta : Int × Int

/-- The charge an event makes against the given budget and period. -/
def chargeOf (key : PeriodKey) : BudgetEvent → Option Charge
  | .performed _ (.charge budgetId window micro tokens runId _) _ =>
      if (budgetId, window.periodStart) = key then some ⟨runId, (micro, tokens)⟩ else none
  | _ => none

/-- The charges of a run of the system against one budget and period, in order. -/
def charges (key : PeriodKey) (trace : List BudgetEvent) : List Charge :=
  trace.filterMap (chargeOf key)

theorem charges_snoc (key : PeriodKey) (trace : List BudgetEvent) (event : BudgetEvent) :
    charges key (trace ++ [event]) = charges key trace ++ (chargeOf key event).toList := by
  unfold charges
  rw [List.filterMap_append]
  cases hcharge : chargeOf key event <;> simp [hcharge]

def total (cs : List Charge) : Int × Int := (cs.map Charge.delta).sum

/-- The first charge of every run that is not yet seen. -/
def firstCharges (seen : List String) : List Charge → List Charge
  | [] => []
  | c :: rest =>
      if c.runId ∈ seen then firstCharges seen rest
      else c :: firstCharges (c.runId :: seen) rest

/-- The repeated charges that follow a charge of another run. -/
def staleRepeats (seen : List String) (last : Option String) : List Charge → List Charge
  | [] => []
  | c :: rest =>
      if c.runId ∈ seen ∧ last ≠ some c.runId then
        c :: staleRepeats (c.runId :: seen) (some c.runId) rest
      else staleRepeats (c.runId :: seen) (some c.runId) rest

/-- The recorded spend of a budget in a period, and the run charged last. -/
def recorded (s : BudgetStore) (key : PeriodKey) : (Int × Int) × Option String :=
  match s.budgetStates.get? key with
  | none => ((0, 0), none)
  | some state => ((state.currentSpendMicroUsd, state.currentSpendTokens), state.lastChargedRunId)

/-- What one charge makes of the recorded spend. -/
def addCharge (r : (Int × Int) × Option String) (c : Charge) : (Int × Int) × Option String :=
  if r.2 = some c.runId then r else (r.1 + c.delta, some c.runId)

theorem firstCharges_congr {seen seen' : List String} (h : ∀ runId, runId ∈ seen ↔ runId ∈ seen')
    (cs : List Charge) : firstCharges seen cs = firstCharges seen' cs := by
  induction cs generalizing seen seen' with
  | nil => rfl
  | cons c rest ih =>
      unfold firstCharges
      by_cases hseen : c.runId ∈ seen
      · rw [if_pos hseen, if_pos ((h _).mp hseen)]
        exact ih h
      · rw [if_neg hseen, if_neg fun h' => hseen ((h _).mpr h')]
        have htail : ∀ runId, runId ∈ c.runId :: seen ↔ runId ∈ c.runId :: seen' := by
          intro runId
          simp [h runId]
        rw [ih htail]

/-- The spend is what the first charges and the stale repeats add up to. -/
theorem foldl_addCharge (cs : List Charge) (spend : Int × Int) (seen : List String)
    (last : Option String) (hlast : ∀ runId, last = some runId → runId ∈ seen) :
    (cs.foldl addCharge (spend, last)).1 =
      spend + total (firstCharges seen cs) + total (staleRepeats seen last cs) := by
  induction cs generalizing spend seen last with
  | nil => simp [total, firstCharges, staleRepeats]
  | cons c rest ih =>
      have hnext : ∀ runId, some c.runId = some runId → runId ∈ c.runId :: seen := by
        rintro runId ⟨⟩
        exact List.mem_cons_self
      rw [List.foldl_cons]
      by_cases hsame : last = some c.runId
      · have hseen := hlast _ hsame
        have hadd : addCharge (spend, last) c = (spend, last) := if_pos hsame
        have hfirst : firstCharges seen (c :: rest) = firstCharges seen rest := if_pos hseen
        have hstale : staleRepeats seen last (c :: rest) =
            staleRepeats (c.runId :: seen) (some c.runId) rest :=
          if_neg fun h => h.2 hsame
        have hseen' : ∀ runId, runId ∈ seen ↔ runId ∈ c.runId :: seen := by
          intro runId
          constructor
          · exact List.mem_cons_of_mem _
          · intro h
            rcases List.mem_cons.mp h with rfl | h
            · exact hseen
            · exact h
        rw [hadd, hfirst, hstale, firstCharges_congr hseen' rest, ← hsame]
        exact ih spend (c.runId :: seen) last (hsame ▸ hnext)
      · have hadd : addCharge (spend, last) c = (spend + c.delta, some c.runId) := if_neg hsame
        rw [hadd, ih (spend + c.delta) (c.runId :: seen) (some c.runId) hnext]
        by_cases hseen : c.runId ∈ seen
        · have hfirst : firstCharges seen (c :: rest) = firstCharges seen rest := if_pos hseen
          have hstale : staleRepeats seen last (c :: rest) =
              c :: staleRepeats (c.runId :: seen) (some c.runId) rest := if_pos ⟨hseen, hsame⟩
          have hseen' : ∀ runId, runId ∈ c.runId :: seen ↔ runId ∈ seen := by
            intro runId
            constructor
            · intro h
              rcases List.mem_cons.mp h with rfl | h
              · exact hseen
              · exact h
            · exact List.mem_cons_of_mem _
          rw [hfirst, hstale, firstCharges_congr hseen' rest]
          simp only [total, List.map_cons, List.sum_cons]
          abel
        · have hfirst : firstCharges seen (c :: rest) = c :: firstCharges (c.runId :: seen) rest :=
            if_neg hseen
          have hstale : staleRepeats seen last (c :: rest) =
              staleRepeats (c.runId :: seen) (some c.runId) rest :=
            if_neg fun h => hseen h.1
          rw [hfirst, hstale]
          simp only [total, List.map_cons, List.sum_cons]
          abel

/-- Charging a budget adds the charge to its own period and to no other. -/
theorem recorded_chargeBudget (s : BudgetStore) (budgetId : String) (window : BudgetWindow)
    (micro tokens : Int) (runId : String) (now : Nat) (key : PeriodKey) :
    recorded (s.chargeBudget budgetId window micro tokens runId now).2 key =
      if (budgetId, window.periodStart) = key then
        addCharge (recorded s key) ⟨runId, (micro, tokens)⟩
      else recorded s key := by
  unfold BudgetStore.chargeBudget
  by_cases hkey : (budgetId, window.periodStart) = key
  · subst hkey
    rw [if_pos rfl]
    cases hget : s.budgetStates.get? (budgetId, window.periodStart) with
    | none => simp [recorded, hget, addCharge]
    | some state =>
        by_cases hlast : state.lastChargedRunId = some runId
        · simp [recorded, hget, addCharge, hlast]
        · simp [recorded, hget, addCharge, hlast]
  · rw [if_neg hkey]
    dsimp only
    split
    · rfl
    · simp only [recorded, Dict.get?_set_of_ne _ _ hkey]

/-- The recorded spend always replays the charges of the run of the system. -/
theorem recorded_step {key : PeriodKey} {op : BudgetOp} {s s' : BudgetStore} {reply : op.Reply}
    (env : BudgetStore.env op s reply s') (n : Nat) :
    recorded s' key =
      ((chargeOf key (.performed n op reply)).toList).foldl addCharge (recorded s key) := by
  cases op with
  | lookup orgId userId now =>
      obtain ⟨_, rfl⟩ := env
      rfl
  | resolveEstimate runId =>
      obtain rfl : s' = s := env
      rfl
  | charge budgetId window micro tokens runId now =>
      rw [env.2, recorded_chargeBudget]
      by_cases hkey : (budgetId, window.periodStart) = key <;> simp [chargeOf, hkey]
  | reserve budgetId periodStart runId micro tokens now =>
      obtain ⟨freshId, _, _, rfl⟩ := env
      unfold BudgetStore.reserveBudget
      split <;> rfl
  | consume reservationId now =>
      obtain rfl : s' = s.consumeBudgetReservation reservationId now := env
      unfold BudgetStore.consumeBudgetReservation
      split
      · rfl
      · split <;> rfl

theorem replaysVerified (key : PeriodKey) {s₀ : BudgetStore}
    (hstart : s₀.budgetStates.get? key = none) :
    Verified BudgetCall.body BudgetStore.env
      (fun trace s => recorded s key = (charges key trace).foldl addCharge ((0, 0), none))
      (fun _ _ _ => True) s₀ where
  init := by simp [recorded, hstart, charges]
  started trace s n call h _ := by
    rw [h, charges_snoc]
    simp [chargeOf]
  body_safe n call := by
    have hall : call.body.OnlyAwaits fun _ => True :=
      Program.onlyAwaits_of_forall (fun _ => trivial) call.body
    refine (Safe.of_onlyAwaits ?_ hall).mono fun _ _ _ => trivial
    intro trace s op reply s' _ _ hinv henv
    rw [recorded_step henv n, hinv, charges_snoc, List.foldl_append]
  stopped trace s n h := by
    rw [h, charges_snoc]
    simp [chargeOf]

namespace Sample

/-- A daily budget of one organisation, hard at one dollar. -/
def budget : BudgetRecord where
  id := "budget-1"
  orgId := "org-1"
  userId := none
  scope := .org
  period := .day
  enforcement := .hard
  limitMicroUsd := some 1000000
  limitTokens := none
  status := .active

def store : BudgetStore := ⟨Dict.empty.set "budget-1" budget, .empty, .empty⟩

def estimate : BudgetEstimate := ⟨1000, 1000, some 600000⟩

def key : PeriodKey := ("budget-1", dateOf 0)

def charge (runId : String) : BudgetCall :=
  .charge ⟨"org-1", "user-1", runId, some 300000, 500, [], 0, 0⟩

end Sample

/-- Each call runs to its end before the next one starts. -/
def chargedInTurn (calls : List BudgetCall) :
    List BudgetEvent × Pool BudgetOp BudgetOp.Reply String BudgetDecision BudgetStore :=
  Pool.play (BudgetStore.answer Sample.estimate) BudgetCall.body Sample.store
    (calls.zipIdx.flatMap fun call => [.start call.1, .perform call.2, .perform call.2])

end CopilotRuntime.Budgets
