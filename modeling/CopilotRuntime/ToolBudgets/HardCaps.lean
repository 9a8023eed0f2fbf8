import CopilotRuntime.ToolBudgets.Guard
import Mathlib.Algebra.BigOperators.Group.Finset.Basic

/-!
# Hard caps under concurrent tool calls

Parallel calls of a run are admitted and settled in any order, and a call may
be delivered again. The cap on calls holds throughout, and every admitted call
is charged once. The cap on tokens is compared with the calls that have
settled: what the calls in flight will cost is in no ledger yet.

## Implementation notes

A control call id stands for one tool call, so its tool and its estimate are
functions of the id.
-/

namespace CopilotRuntime.ToolBudgets

open Foundation

/-! ### What an admission under hard budgets establishes -/

theorem mem_of_resolveBudget {budgets : List ToolBudgetRecord} {toolName : String}
    {budget : ToolBudgetRecord} (h : resolveBudget budgets toolName = some budget) :
    budget ∈ budgets := by
  have hmem := List.mem_of_find?_eq_some h
  simp only [ranked, List.mem_append, List.mem_filter] at hmem
  rcases hmem with ((hmem | hmem) | hmem) | hmem <;> exact hmem.1

theorem not_admitted_violation {v : Violation} (h : v.budget.enforcement = .hard) :
    (violation v).admitted = false := by
  simp [violation, h, ToolBudgetDecision.admitted]

/-- A call admitted under a hard budget fits its caps on calls and on tokens. -/
theorem fits_of_admitted {budgets : List ToolBudgetRecord} {v : BudgetLedgerView}
    {toolName : String} {estimate : Nat} {budget : ToolBudgetRecord}
    (hbudget : resolveBudget budgets toolName = some budget) (hhard : budget.enforcement = .hard)
    (hadmitted : (checkAdmit budgets v toolName estimate).admitted = true) :
    v.chargedCalls toolName + 1 ≤ budget.maxCallsPerRun ∧
      ∀ limit, budget.maxInputTokensPerRun = some limit →
        v.totalInputTokens toolName + estimate ≤ limit := by
  unfold checkAdmit at hadmitted
  rw [hbudget] at hadmitted
  simp only at hadmitted
  split at hadmitted
  · rw [not_admitted_violation hhard] at hadmitted
    cases hadmitted
  · next hcalls =>
      refine ⟨by omega, fun limit hlimit => ?_⟩
      split at hadmitted
      · rw [not_admitted_violation hhard] at hadmitted
        cases hadmitted
      · split at hadmitted
        · rw [not_admitted_violation hhard] at hadmitted
          cases hadmitted
        · next hnone =>
            rw [hlimit] at hnone
            simpa using hnone

/-! ### Runs -/

section Runs
variable (g : ToolBudgetGuard) (toolOf : String → String) (estimateOf : String → Nat)

/-- The shared ledger, and the calls admitted so far in order, repeated where delivered again. -/
structure GuardRun where
  ledger : ToolCallLedger
  admissions : List String

def GuardRun.initial : GuardRun := ⟨Dict.empty, []⟩

/-- One uninterrupted step of one of the parallel tasks. -/
inductive GuardStep
  | call (controlCallId : String)
  | settle (controlCallId : String) (observedInputTokens : Nat)
  | mirrorStarted (providerCallId toolName : String)
  | mirrorSettled (providerCallId : String)

/-- The decision on a call in the current state. -/
def decisionOn (r : GuardRun) (controlCallId : String) : ToolBudgetDecision :=
  (g.admitAndCharge r.ledger controlCallId (toolOf controlCallId) (estimateOf controlCallId)).1

def takeStep (r : GuardRun) : GuardStep → GuardRun
  | .call id =>
      { ledger := (g.admitAndCharge r.ledger id (toolOf id) (estimateOf id)).2
        admissions :=
          if (decisionOn g toolOf estimateOf r id).admitted then r.admissions ++ [id]
          else r.admissions }
  | .settle id tokens => { r with ledger := ToolBudgetGuard.recordSettled r.ledger id tokens }
  | .mirrorStarted id toolName => { r with ledger := r.ledger.started (.provider id) toolName false }
  | .mirrorSettled id => { r with ledger := r.ledger.observedSettled (.provider id) }

/-- The state after any steps of any tasks, in the order they took effect. -/
def stateAfter (steps : List GuardStep) : GuardRun :=
  steps.foldl (takeStep g toolOf estimateOf) GuardRun.initial

/-- The calls of a tool that were admitted, each once. -/
def GuardRun.admittedCalls (r : GuardRun) (toolName : String) : Finset String :=
  r.admissions.toFinset.filter fun id => toolOf id = toolName

/-- The admitted calls of a tool whose result is still out. -/
def GuardRun.inFlight (r : GuardRun) (toolName : String) : Finset String :=
  (r.admittedCalls toolOf toolName).filter fun id =>
    (r.ledger.get? (.control id)).all (fun entry => !entry.settled) = true

/-- What the run has spent on a tool with the calls that have settled. -/
def GuardRun.observedTokens (r : GuardRun) (toolName : String) : Nat :=
  (g.prior.inputTokens.get? toolName).getD 0 + r.ledger.totalInputTokens toolName

end Runs

/-! ### The ledger under each step -/

section Values
variable {d : Dict CallId ToolCallEntry} {k : CallId} {old new : ToolCallEntry}

theorem countP_setEntries (p : ToolCallEntry → Bool) {entries : List (CallId × ToolCallEntry)}
    (h : lookupEntries entries k = some old) (hp : p new = p old) :
    ((setEntries entries k new).map Prod.snd).countP p = (entries.map Prod.snd).countP p := by
  induction entries with
  | nil => cases h
  | cons entry rest ih =>
      obtain ⟨key, value⟩ := entry
      by_cases hk : key = k
      · rw [lookupEntries, if_pos hk] at h
        obtain rfl := Option.some.inj h
        simp [setEntries, hk, List.countP_cons, hp]
      · rw [lookupEntries, if_neg hk] at h
        simp only [setEntries, if_neg hk, List.map_cons, List.countP_cons, ih h]

/-- Overwriting an entry by one that counts alike changes no count. -/
theorem chargedCalls_set (h : d.get? k = some old) {toolName : String}
    (hcounts : ToolCallLedger.counts toolName new = ToolCallLedger.counts toolName old) :
    ToolCallLedger.chargedCalls (d.set k new) toolName = ToolCallLedger.chargedCalls d toolName :=
  countP_setEntries _ h hcounts

end Values

section Invariant
variable {g : ToolBudgetGuard} {toolOf : String → String} {estimateOf : String → Nat}

/-- The control entries of the ledger are the admitted calls, each charged to its tool, and no
provider entry is charged. -/
structure LedgerMatches (toolOf : String → String) (r : GuardRun) : Prop where
  opened : ∀ id ∈ r.admissions, (r.ledger.get? (.control id)).isSome
  entry : ∀ id found, r.ledger.get? (.control id) = some found →
    id ∈ r.admissions ∧ ∀ toolName, ToolCallLedger.counts toolName found = (toolOf id == toolName)
  mirror : ∀ id found, r.ledger.get? (.provider id) = some found → found.budgetScoped = false
  charged : ∀ toolName, ToolCallLedger.chargedCalls r.ledger toolName =
    (r.admittedCalls toolOf toolName).card

theorem ledgerMatches_initial : LedgerMatches toolOf GuardRun.initial where
  opened := by simp [GuardRun.initial]
  entry := by
    intro id found h
    cases h
  mirror := by
    intro id found h
    cases h
  charged := fun _ => rfl

variable {r : GuardRun}

/-- Replacing an entry by one that counts alike and stays as it is scoped. -/
theorem LedgerMatches.overwrite (h : LedgerMatches toolOf r) {k : CallId}
    {old new : ToolCallEntry} (hold : r.ledger.get? k = some old)
    (hcounts : ∀ toolName, ToolCallLedger.counts toolName new = ToolCallLedger.counts toolName old)
    (hscoped : new.budgetScoped = old.budgetScoped) :
    LedgerMatches toolOf { r with ledger := r.ledger.set k new } where
  opened id hid := Dict.isSome_get?_set (h.opened id hid) k new
  entry id found hfound := by
    rw [Dict.get?_set] at hfound
    split at hfound
    · next hk =>
        subst hk
        obtain rfl := Option.some.inj hfound
        obtain ⟨hid, hold⟩ := h.entry id old hold
        exact ⟨hid, fun toolName => (hcounts toolName).trans (hold toolName)⟩
    · exact h.entry id found hfound
  mirror id found hfound := by
    rw [Dict.get?_set] at hfound
    split at hfound
    · next hk =>
        subst hk
        obtain rfl := Option.some.inj hfound
        exact hscoped.trans (h.mirror id old hold)
    · exact h.mirror id found hfound
  charged toolName := (chargedCalls_set hold (hcounts toolName)).trans (h.charged toolName)

/-- Settling a call leaves what is charged as it is. -/
theorem LedgerMatches.observedSettled (h : LedgerMatches toolOf r) (k : CallId) :
    LedgerMatches toolOf { r with ledger := r.ledger.observedSettled k } := by
  unfold ToolCallLedger.observedSettled
  cases hk : r.ledger.get? k with
  | none => exact h
  | some old => exact h.overwrite hk (fun _ => rfl) rfl

theorem LedgerMatches.recordInputTokens (h : LedgerMatches toolOf r) (k : CallId) (tokens : Nat) :
    LedgerMatches toolOf { r with ledger := r.ledger.recordInputTokens k tokens } := by
  unfold ToolCallLedger.recordInputTokens
  cases hk : r.ledger.get? k with
  | none => exact h
  | some old => exact h.overwrite hk (fun _ => rfl) rfl

theorem chargedCalls_started {l : ToolCallLedger} {k : CallId} (h : l.get? k = none)
    (name toolName : String) (budgeted : Bool) :
    (l.started k name budgeted).chargedCalls toolName =
      l.chargedCalls toolName + if name = toolName ∧ budgeted = true then 1 else 0 := by
  have hset : l.started k name budgeted = l.set k ⟨name, false, none, true, budgeted⟩ := by
    rw [ToolCallLedger.started, h]
  rw [hset, ToolCallLedger.chargedCalls, Dict.values_set_of_get?_none _ h, List.countP_append]
  simp [ToolCallLedger.chargedCalls, ToolCallLedger.counts, List.countP_cons]

/-- An entry the stream orchestrator opens is not charged. -/
theorem LedgerMatches.mirrorStarted (h : LedgerMatches toolOf r) (id toolName : String) :
    LedgerMatches toolOf { r with ledger := r.ledger.started (.provider id) toolName false } := by
  cases hk : r.ledger.get? (.provider id) with
  | some old => simpa [ToolCallLedger.started, hk] using h
  | none =>
      have hset : r.ledger.started (.provider id) toolName false =
          r.ledger.set (.provider id) ⟨toolName, false, none, true, false⟩ := by
        rw [ToolCallLedger.started, hk]
      refine ⟨?_, ?_, ?_, ?_⟩
      · intro other hother
        simp only [hset]
        exact Dict.isSome_get?_set (h.opened other hother) _ _
      · intro other found hfound
        simp only [hset] at hfound
        rw [Dict.get?_set_of_ne _ _ (by simp)] at hfound
        exact h.entry other found hfound
      · intro other found hfound
        simp only [hset] at hfound
        rw [Dict.get?_set] at hfound
        split at hfound
        · obtain rfl := Option.some.inj hfound
          rfl
        · exact h.mirror other found hfound
      · intro name
        refine (chargedCalls_started hk toolName name false).trans ?_
        rw [if_neg (fun heq => Bool.noConfusion heq.2), Nat.add_zero]
        exact h.charged name

/-- The calls of a tool after one more admission. -/
theorem admittedCalls_snoc (r : GuardRun) (id toolName : String) (l : ToolCallLedger) :
    GuardRun.admittedCalls toolOf ⟨l, r.admissions ++ [id]⟩ toolName =
      if toolOf id = toolName then insert id (r.admittedCalls toolOf toolName)
      else r.admittedCalls toolOf toolName := by
  unfold GuardRun.admittedCalls
  ext other
  split
  · simp only [List.toFinset_append, Finset.mem_filter, Finset.mem_union, List.mem_toFinset,
      List.mem_singleton, Finset.mem_insert]
    constructor
    · rintro ⟨hmem | rfl, htool⟩
      · exact .inr ⟨hmem, htool⟩
      · exact .inl rfl
    · rintro (rfl | ⟨hmem, htool⟩)
      · exact ⟨.inr rfl, by assumption⟩
      · exact ⟨.inl hmem, htool⟩
  · simp only [List.toFinset_append, Finset.mem_filter, Finset.mem_union, List.mem_toFinset,
      List.mem_singleton]
    constructor
    · rintro ⟨hmem | rfl, htool⟩
      · exact ⟨hmem, htool⟩
      · contradiction
    · rintro ⟨hmem, htool⟩
      exact ⟨.inl hmem, htool⟩

/-- An admitted call is charged once, however often it is delivered. -/
theorem LedgerMatches.admitted (h : LedgerMatches toolOf r) (id : String) :
    LedgerMatches toolOf
      ⟨r.ledger.started (.control id) (toolOf id) true, r.admissions ++ [id]⟩ := by
  cases hk : r.ledger.get? (.control id) with
  | some old =>
      have hid : id ∈ r.admissions := (h.entry id old hk).1
      have hsame : r.ledger.started (.control id) (toolOf id) true = r.ledger := by
        rw [ToolCallLedger.started, hk]
      rw [hsame]
      refine ⟨?_, ?_, h.mirror, ?_⟩
      · intro other hother
        rcases List.mem_append.mp hother with hold | hnew
        · exact h.opened other hold
        · obtain rfl := List.mem_singleton.mp hnew
          exact h.opened other hid
      · intro other found hfound
        obtain ⟨hmem, hcounts⟩ := h.entry other found hfound
        exact ⟨List.mem_append_left _ hmem, hcounts⟩
      · intro toolName
        rw [admittedCalls_snoc]
        split
        · next htool =>
            have hmem : id ∈ r.admittedCalls toolOf toolName :=
              Finset.mem_filter.mpr ⟨List.mem_toFinset.mpr hid, htool⟩
            rw [Finset.insert_eq_of_mem hmem]
            exact h.charged toolName
        · exact h.charged toolName
  | none =>
      have hset : r.ledger.started (.control id) (toolOf id) true =
          r.ledger.set (.control id) ⟨toolOf id, false, none, true, true⟩ := by
        rw [ToolCallLedger.started, hk]
      have hfresh : id ∉ r.admissions := by
        intro hid
        have hopened := h.opened id hid
        rw [hk] at hopened
        cases hopened
      refine ⟨?_, ?_, ?_, ?_⟩
      · intro other hother
        simp only [hset]
        rcases List.mem_append.mp hother with hold | hnew
        · exact Dict.isSome_get?_set (h.opened other hold) _ _
        · obtain rfl := List.mem_singleton.mp hnew
          rw [Dict.get?_set_self]
          rfl
      · intro other found hfound
        simp only [hset] at hfound
        rw [Dict.get?_set] at hfound
        split at hfound
        · next heq =>
            obtain rfl := CallId.control.inj heq
            obtain rfl := Option.some.inj hfound
            exact ⟨List.mem_append_right _ List.mem_cons_self,
              fun toolName => by simp [ToolCallLedger.counts]⟩
        · obtain ⟨hmem, hcounts⟩ := h.entry other found hfound
          exact ⟨List.mem_append_left _ hmem, hcounts⟩
      · intro other found hfound
        simp only [hset] at hfound
        rw [Dict.get?_set_of_ne _ _ (by simp)] at hfound
        exact h.mirror other found hfound
      · intro toolName
        refine (chargedCalls_started hk (toolOf id) toolName true).trans ?_
        rw [admittedCalls_snoc, h.charged toolName]
        by_cases htool : toolOf id = toolName
        · have hnot : id ∉ r.admittedCalls toolOf toolName := fun hmem =>
            hfresh (List.mem_toFinset.mp (Finset.mem_filter.mp hmem).1)
          rw [if_pos ⟨htool, rfl⟩, if_pos htool, Finset.card_insert_of_notMem hnot]
        · rw [if_neg (fun heq => htool heq.1), if_neg htool, Nat.add_zero]

variable {id : String}

theorem takeStep_of_rejected (h : (decisionOn g toolOf estimateOf r id).admitted = false) :
    takeStep g toolOf estimateOf r (.call id) = r := by
  have hledger : (g.admitAndCharge r.ledger id (toolOf id) (estimateOf id)).2 = r.ledger := by
    simp only [decisionOn, ToolBudgetGuard.admitAndCharge] at h ⊢
    split at h
    · next hadmitted => simp [hadmitted] at h
    · next hrejected => rw [if_neg hrejected]
  simp only [takeStep, h, hledger, Bool.false_eq_true, if_false]

theorem takeStep_of_admitted (h : (decisionOn g toolOf estimateOf r id).admitted = true) :
    takeStep g toolOf estimateOf r (.call id) =
      ⟨r.ledger.started (.control id) (toolOf id) true, r.admissions ++ [id]⟩ := by
  have hledger : (g.admitAndCharge r.ledger id (toolOf id) (estimateOf id)).2 =
      r.ledger.started (.control id) (toolOf id) true := by
    simp only [decisionOn, ToolBudgetGuard.admitAndCharge] at h ⊢
    split at h
    · next hadmitted => rw [if_pos hadmitted]
    · next hrejected => exact absurd h hrejected
  simp only [takeStep, h, hledger, if_true]

/-- Every step keeps the ledger in agreement with the admissions. -/
theorem LedgerMatches.takeStep (h : LedgerMatches toolOf r) (step : GuardStep) :
    LedgerMatches toolOf (takeStep g toolOf estimateOf r step) := by
  cases step with
  | call id =>
      cases hadmitted : (decisionOn g toolOf estimateOf r id).admitted with
      | false =>
          rw [takeStep_of_rejected hadmitted]
          exact h
      | true =>
          rw [takeStep_of_admitted hadmitted]
          exact h.admitted id
  | settle id tokens =>
      exact (h.recordInputTokens (.control id) tokens).observedSettled (.control id)
  | mirrorStarted id toolName => exact h.mirrorStarted id toolName
  | mirrorSettled id => exact h.observedSettled (.provider id)

/-- The calls of a tool that were admitted fit what earlier invocations left of its cap. -/
def WithinCaps (g : ToolBudgetGuard) (toolOf : String → String) (r : GuardRun) : Prop :=
  ∀ toolName budget, resolveBudget g.budgets toolName = some budget →
    (r.admittedCalls toolOf toolName).card ≤
      budget.maxCallsPerRun - (g.prior.calls.get? toolName).getD 0

theorem fits_of_decision {budget : ToolBudgetRecord}
    (hhard : ∀ b ∈ g.budgets, b.enforcement = .hard)
    (hbudget : resolveBudget g.budgets (toolOf id) = some budget)
    (h : (decisionOn g toolOf estimateOf r id).admitted = true) :
    (g.prior.calls.get? (toolOf id)).getD 0 + r.ledger.chargedCalls (toolOf id) + 1 ≤
        budget.maxCallsPerRun ∧
      ∀ limit, budget.maxInputTokensPerRun = some limit →
        r.observedTokens g (toolOf id) + estimateOf id ≤ limit := by
  have hadmitted : (checkAdmit g.budgets ⟨r.ledger, g.prior⟩ (toolOf id)
      (estimateOf id)).admitted = true := by
    simp only [decisionOn, ToolBudgetGuard.admitAndCharge] at h
    split at h <;> exact h
  exact fits_of_admitted hbudget (hhard budget (mem_of_resolveBudget hbudget)) hadmitted

/-- A call is admitted only while its tool's cap has room for one more. -/
theorem WithinCaps.takeStep (hcaps : WithinCaps g toolOf r) (hledger : LedgerMatches toolOf r)
    (hhard : ∀ b ∈ g.budgets, b.enforcement = .hard) (step : GuardStep) :
    WithinCaps g toolOf (takeStep g toolOf estimateOf r step) := by
  intro toolName budget hbudget
  cases step with
  | call id =>
      cases hadmitted : (decisionOn g toolOf estimateOf r id).admitted with
      | false =>
          rw [takeStep_of_rejected hadmitted]
          exact hcaps toolName budget hbudget
      | true =>
          rw [takeStep_of_admitted hadmitted, admittedCalls_snoc]
          split
          · next htool =>
              subst htool
              have hroom := (fits_of_decision hhard hbudget hadmitted).1
              have hcharged := hledger.charged (toolOf id)
              have hinsert := Finset.card_insert_le id (r.admittedCalls toolOf (toolOf id))
              omega
          · exact hcaps toolName budget hbudget
  | settle id tokens => exact hcaps toolName budget hbudget
  | mirrorStarted id name => exact hcaps toolName budget hbudget
  | mirrorSettled id => exact hcaps toolName budget hbudget

variable (estimateOf) in
theorem invariants_stateAfter (hhard : ∀ b ∈ g.budgets, b.enforcement = .hard)
    (steps : List GuardStep) :
    LedgerMatches toolOf (stateAfter g toolOf estimateOf steps) ∧
      WithinCaps g toolOf (stateAfter g toolOf estimateOf steps) := by
  induction steps using List.reverseRecOn with
  | nil => exact ⟨ledgerMatches_initial, fun _ _ _ => Nat.zero_le _⟩
  | append_singleton steps step ih =>
      have hsnoc : stateAfter g toolOf estimateOf (steps ++ [step]) =
          takeStep g toolOf estimateOf (stateAfter g toolOf estimateOf steps) step := by
        simp [stateAfter]
      rw [hsnoc]
      exact ⟨ih.1.takeStep step, ih.2.takeStep ih.1 hhard step⟩

end Invariant

/-! ### The caps -/

/-- Under hard budgets, after any steps of any tasks: the admitted calls of a tool fit what is
left of its cap on calls, each is charged once, and a call is only admitted while its estimate
on top of what is on record fits the cap on tokens. -/
theorem hard_caps_hold (g : ToolBudgetGuard) (toolOf : String → String)
    (estimateOf : String → Nat) (hhard : ∀ b ∈ g.budgets, b.enforcement = .hard)
    (steps : List GuardStep) :
    WithinCaps g toolOf (stateAfter g toolOf estimateOf steps) ∧
      (∀ toolName, (stateAfter g toolOf estimateOf steps).ledger.chargedCalls toolName =
        ((stateAfter g toolOf estimateOf steps).admittedCalls toolOf toolName).card) ∧
      ∀ id, (decisionOn g toolOf estimateOf (stateAfter g toolOf estimateOf steps) id).admitted →
        ∀ budget limit, resolveBudget g.budgets (toolOf id) = some budget →
          budget.maxInputTokensPerRun = some limit →
            (stateAfter g toolOf estimateOf steps).observedTokens g (toolOf id) + estimateOf id ≤
              limit := by
  obtain ⟨hledger, hcaps⟩ := invariants_stateAfter estimateOf hhard steps
  refine ⟨hcaps, hledger.charged, fun id hadmitted budget limit hbudget hlimit => ?_⟩
  exact (fits_of_decision hhard hbudget hadmitted).2 limit hlimit

/-- A run with one tool, whose calls may take 100 tokens together. -/
def searchGuard : ToolBudgetGuard where
  budgets := [⟨none, "search", 5, none, some 100, .hard⟩]
  prior := ⟨Dict.empty, Dict.empty⟩

theorem hard_caps_hold_search :
    (stateAfter searchGuard (fun _ => "search") (fun _ => 60)
        [.call "a", .settle "a" 30, .call "a", .call "b"]).ledger.chargedCalls "search" =
      ((stateAfter searchGuard (fun _ => "search") (fun _ => 60)
        [.call "a", .settle "a" 30, .call "a", .call "b"]).admittedCalls
          (fun _ => "search") "search").card :=
  (hard_caps_hold searchGuard (fun _ => "search") (fun _ => 60) (by decide)
    [.call "a", .settle "a" 30, .call "a", .call "b"]).2.1 "search"

/-- Two calls of 60 tokens are in flight together where 100 may be spent. -/
theorem in_flight_estimates_are_not_counted :
    ¬ ∀ (g : ToolBudgetGuard) (toolOf : String → String) (estimateOf : String → Nat)
      (steps : List GuardStep) (id : String) (budget : ToolBudgetRecord) (limit : Nat),
      (∀ b ∈ g.budgets, b.enforcement = .hard) →
      (decisionOn g toolOf estimateOf (stateAfter g toolOf estimateOf steps) id).admitted →
      resolveBudget g.budgets (toolOf id) = some budget →
      budget.maxInputTokensPerRun = some limit →
        (stateAfter g toolOf estimateOf steps).observedTokens g (toolOf id) +
            ((stateAfter g toolOf estimateOf steps).inFlight toolOf (toolOf id)).sum estimateOf +
            estimateOf id ≤ limit := by
  intro h
  have hle := h searchGuard (fun _ => "search") (fun _ => 60) [.call "a"] "b"
    ⟨none, "search", 5, none, some 100, .hard⟩ 100 (by decide) (by decide) (by decide) rfl
  revert hle
  decide

end CopilotRuntime.ToolBudgets
