import CopilotRuntime.Foundation.Dict

/-!
# Per-tool call budgets

The guard of a run answers from a ledger of its tool calls whether another
call fits the budget of its tool, and opens a ledger entry for it in the same
step. The tokens of a call enter the ledger when the call settles.

## Implementation notes

Admitting and settling hold a lock and await nothing, so each is one step. The
stream orchestrator keeps entries in the same ledger under the provider's call
ids, which are apart from control call ids. Timestamps, attribution and the
messages of refusals are left out.
-/

namespace CopilotRuntime.ToolBudgets

open Foundation

inductive ToolBudgetEnforcement
  | hard | soft
  deriving DecidableEq

/-- One configured budget, of one organisation or of all, for one tool or for all. -/
structure ToolBudgetRecord where
  orgId : Option String
  toolName : String
  maxCallsPerRun : Nat
  maxInputTokensPerCall : Option Nat
  maxInputTokensPerRun : Option Nat
  enforcement : ToolBudgetEnforcement
  deriving DecidableEq

def globalToolName : String := "*"

/-- The two writers of the ledger name the same call differently. -/
inductive CallId
  | control (id : String)
  | provider (id : String)
  deriving DecidableEq

structure ToolCallEntry where
  toolName : String
  settled : Bool
  inputTokens : Option Nat
  budgetCharged : Bool
  budgetScoped : Bool

/-! ### The ledger -/

abbrev ToolCallLedger := Dict CallId ToolCallEntry

namespace ToolCallLedger

/-- Record that a call has begun; a repeated id changes nothing. -/
def started (l : ToolCallLedger) (callId : CallId) (toolName : String) (budgetScoped : Bool) :
    ToolCallLedger :=
  match l.get? callId with
  | some _ => l
  | none => l.set callId ⟨toolName, false, none, true, budgetScoped⟩

def observedSettled (l : ToolCallLedger) (callId : CallId) : ToolCallLedger :=
  match l.get? callId with
  | some entry => l.set callId { entry with settled := true }
  | none => l

def recordInputTokens (l : ToolCallLedger) (callId : CallId) (tokens : Nat) : ToolCallLedger :=
  match l.get? callId with
  | some entry => l.set callId { entry with inputTokens := some tokens }
  | none => l

/-- The entry counts against the budget of a tool. -/
def counts (toolName : String) (entry : ToolCallEntry) : Bool :=
  entry.toolName == toolName && entry.budgetCharged && entry.budgetScoped

def chargedCalls (l : ToolCallLedger) (toolName : String) : Nat :=
  l.values.countP (counts toolName)

def totalInputTokens (l : ToolCallLedger) (toolName : String) : Nat :=
  ((l.values.filter (counts toolName)).map fun entry => entry.inputTokens.getD 0).sum

end ToolCallLedger

/-! ### Decisions -/

/-- What the run had spent on each tool before it was resumed. -/
structure PriorProgress where
  calls : Dict String Nat
  inputTokens : Dict String Nat

/-- The live ledger on top of the spend from before the run was resumed. -/
structure BudgetLedgerView where
  ledger : ToolCallLedger
  prior : PriorProgress

namespace BudgetLedgerView

def chargedCalls (v : BudgetLedgerView) (toolName : String) : Nat :=
  (v.prior.calls.get? toolName).getD 0 + v.ledger.chargedCalls toolName

def totalInputTokens (v : BudgetLedgerView) (toolName : String) : Nat :=
  (v.prior.inputTokens.get? toolName).getD 0 + v.ledger.totalInputTokens toolName

end BudgetLedgerView

/-- The limit a call would exceed. -/
structure Violation where
  budget : ToolBudgetRecord
  kind : String
  current : Nat
  limit : Nat
  toolName : String

inductive ToolBudgetDecision
  | admission
  | warn (violation : Violation)
  | reject (violation : Violation)

def ToolBudgetDecision.admitted : ToolBudgetDecision → Bool
  | .reject _ => false
  | _ => true

/-- Budgets in order of how well they fit a tool: by tool name first, then by organisation. -/
def ranked (budgets : List ToolBudgetRecord) (toolName : String) : List ToolBudgetRecord :=
  let named := fun b : ToolBudgetRecord => b.toolName == toolName
  let owned := fun b : ToolBudgetRecord => b.orgId.isSome
  (budgets.filter fun b => named b && owned b) ++ (budgets.filter fun b => named b && !owned b) ++
    (budgets.filter fun b => !named b && owned b) ++ budgets.filter fun b => !named b && !owned b

/-- The most specific budget that covers a tool. -/
def resolveBudget (budgets : List ToolBudgetRecord) (toolName : String) :
    Option ToolBudgetRecord :=
  (ranked budgets toolName).find? fun b => b.toolName == toolName || b.toolName == globalToolName

def violation (v : Violation) : ToolBudgetDecision :=
  if v.budget.enforcement = .soft then .warn v else .reject v

/-- Whether a call fits its tool's budget, on top of what the ledger shows as spent. -/
def checkAdmit (budgets : List ToolBudgetRecord) (v : BudgetLedgerView) (toolName : String)
    (estimatedInputTokens : Nat) : ToolBudgetDecision :=
  match resolveBudget budgets toolName with
  | none => .admission
  | some budget =>
      let currentCalls := v.chargedCalls toolName
      if currentCalls + 1 > budget.maxCallsPerRun then
        violation ⟨budget, "calls", currentCalls, budget.maxCallsPerRun, toolName⟩
      else
        match budget.maxInputTokensPerCall.filter (estimatedInputTokens > ·) with
        | some limit =>
            violation ⟨budget, "input_tokens_per_call", estimatedInputTokens, limit, toolName⟩
        | none =>
            match budget.maxInputTokensPerRun.filter
                (v.totalInputTokens toolName + estimatedInputTokens > ·) with
            | some limit =>
                violation ⟨budget, "input_tokens_per_run", v.totalInputTokens toolName, limit,
                  toolName⟩
            | none => .admission

/-! ### The guard -/

structure ToolBudgetGuard where
  budgets : List ToolBudgetRecord
  prior : PriorProgress

namespace ToolBudgetGuard

/-- Resolve the budget and charge an admitted call. The estimate is not recorded. -/
def admitAndCharge (g : ToolBudgetGuard) (l : ToolCallLedger) (controlCallId toolName : String)
    (estimatedInputTokens : Nat) : ToolBudgetDecision × ToolCallLedger :=
  let decision := checkAdmit g.budgets ⟨l, g.prior⟩ toolName estimatedInputTokens
  if decision.admitted then (decision, l.started (.control controlCallId) toolName true)
  else (decision, l)

/-- Close a call's entry with its observed tokens. -/
def recordSettled (l : ToolCallLedger) (controlCallId : String) (observedInputTokens : Nat) :
    ToolCallLedger :=
  (l.recordInputTokens (.control controlCallId) observedInputTokens).observedSettled
    (.control controlCallId)

end ToolBudgetGuard

end CopilotRuntime.ToolBudgets
