import CopilotRuntime.TaskPolicy.Controller
import Mathlib.Data.List.Count
import Mathlib.Data.List.Pairwise

/-!
# What a controller admits over a run

Calls arrive in any order and any number. What was admitted is read off the
replies alone, and the limits of the profile and of the bound budget are
stated about that. The dictionaries of the controller agree with it.

## Implementation notes

A refused request is not on record, so repeating it later is a new request:
the operation it repeats may have failed in the meantime. What is repeated at
once, and what is on record, changes nothing.
-/

namespace CopilotRuntime.TaskPolicy

open Foundation

variable (errorDigest : String → String → String → String)

inductive ControllerCall
  | beforeOperation (intent : ToolUseIntent)
  | afterOperation (outcome : ToolOperationOutcome)
  | recordModelTurn (record : ModelTurnRecord)
  | bindBudget (record : TaskPolicyBudgetRecord)

/-- The caller was told to go ahead. -/
def goesAhead : Except String ToolUseFeedback → Bool
  | .ok feedback => feedback.disposition = .continue
  | .error _ => false

/-- The call returned. -/
def returns : Except String ToolUseFeedback → Bool
  | .ok _ => true
  | .error _ => false

/-- A controller with what its replies let through so far. -/
structure ControllerRun where
  controller : ToolUseController
  admissions : List ToolUseIntent
  outcomes : List ToolOperationOutcome
  turns : List ModelTurnRecord

namespace ControllerRun

def start (profile : TaskPolicyProfile) (deadlineAt startedAt : Option Nat) : ControllerRun :=
  ⟨.init profile deadlineAt startedAt, [], [], []⟩

/-- Serve one call at an instant. -/
def takeCall (r : ControllerRun) (now : Nat) : ControllerCall → ControllerRun
  | .beforeOperation intent =>
      let answered := r.controller.beforeOperation now intent
      { r with
        controller := answered.2
        admissions :=
          if goesAhead answered.1 then addOnce (·.operationId) r.admissions intent
          else r.admissions }
  | .afterOperation outcome =>
      let answered := r.controller.afterOperation errorDigest outcome
      { r with
        controller := answered.2
        outcomes :=
          if returns answered.1 then addOnce (·.operationId) r.outcomes outcome else r.outcomes }
  | .recordModelTurn record =>
      let answered := r.controller.recordModelTurn now record
      { r with
        controller := answered.2
        turns := if goesAhead answered.1 then addOnce (·.turnId) r.turns record else r.turns }
  | .bindBudget record => { r with controller := (r.controller.bindBudget record).2 }

/-- Serve the calls of a history, each at its instant. -/
def after (r : ControllerRun) (history : List (Nat × ControllerCall)) : ControllerRun :=
  history.foldl (fun r call => r.takeCall errorDigest call.1 call.2) r

end ControllerRun

/-! ### What a call does to the controller -/

namespace ToolUseController
variable {c : ToolUseController} {now : Nat}

theorem exceeds_eq_false_iff {value : Nat} {limit : Option Nat} :
    exceeds value limit = false ↔ ∀ bound, limit = some bound → value ≤ bound := by
  cases limit <;> simp [exceeds]

/-- A call that fits the run is in time, and within every limit with what it adds. -/
theorem hardLimitFeedback_eq_none_iff {turns calls cost : Nat} :
    c.hardLimitFeedback now turns calls cost = none ↔
      c.deadlinePassed now = false ∧
        exceeds (c.modelTurns.entries.length + turns) c.modelTurnLimit = false ∧
        exceeds (c.intentsByOperation.entries.length + calls) c.totalToolCallLimit = false ∧
        exceeds (c.costMicrousd + cost) c.costLimitMicrousd = false := by
  unfold hardLimitFeedback
  split
  · next h => simp [h]
  split
  · next h => simp [h]
  split
  · next h => simp [h]
  split
  · next h => simp [h]
  · next hdeadline hturns hcalls hcost => simp_all

/-- A refusal does not let the caller go ahead. -/
theorem disposition_hardLimitFeedback {turns calls cost : Nat} {feedback : ToolUseFeedback}
    (h : c.hardLimitFeedback now turns calls cost = some feedback) :
    feedback.disposition = .stop := by
  unfold hardLimitFeedback at h
  split at h
  · cases h
    rfl
  split at h
  · cases h
    rfl
  split at h
  · cases h
    rfl
  split at h
  · cases h
    rfl
  · cases h

theorem disposition_duplicateFeedback (intent : ToolUseIntent) (duplicateOf : String) :
    (c.duplicateFeedback intent duplicateOf).disposition ≠ .continue := by
  unfold duplicateFeedback
  cases c.profile.enforceExactDuplicates <;> simp

theorem disposition_repeatedRequestFeedback {intent : ToolUseIntent} {feedback : ToolUseFeedback}
    (h : c.repeatedRequestFeedback intent = some feedback) :
    feedback.disposition ≠ .continue := by
  unfold repeatedRequestFeedback at h
  split at h
  · cases h
  · split at h
    · cases h
      exact disposition_duplicateFeedback intent _
    · split at h
      · cases h
      · split at h
        · cases h
          simp
        · cases h
          exact disposition_duplicateFeedback intent _

/-- The latest operation of a request that may be sent again has failed and may be retried. -/
theorem retryable_of_not_repeated {intent : ToolUseIntent} {latest : String}
    (h : c.repeatedRequestFeedback intent = none)
    (hlatest : c.latestOperationByFingerprint.get? intent.canonicalRequestFingerprint =
      some latest) :
    ∃ outcome, c.outcomesByOperation.get? latest = some outcome ∧ outcome.succeeded = false ∧
      outcome.retryable = true := by
  unfold repeatedRequestFeedback at h
  rw [hlatest] at h
  simp only at h
  split at h
  · cases h
  · next outcome houtcome =>
      split at h
      · next hretry =>
          simp only [Bool.and_eq_true, Bool.not_eq_true'] at hretry
          exact ⟨outcome, houtcome, hretry.1, hretry.2⟩
      · split at h <;> cases h

/-- What the controller checks of a new operation before it records its intent. -/
structure Admissible (c : ToolUseController) (now : Nat) (intent : ToolUseIntent) : Prop where
  fresh : c.intentsByOperation.get? intent.operationId = none
  fits : c.hardLimitFeedback now 0 1 0 = none
  unrepeated : c.repeatedRequestFeedback intent = none
  below : (c.profile.callLimitFor intent.capabilityId).any
    (· ≤ c.callsFor intent.capabilityId) = false

/-- A call before an operation lets it through and records it, or leaves the controller as it
is and the caller goes ahead only with an operation on record. -/
theorem beforeOperation_cases (c : ToolUseController) (now : Nat) (intent : ToolUseIntent) :
    (¬ c.Admissible now intent ∧ (c.beforeOperation now intent).2 = c ∧
        (goesAhead (c.beforeOperation now intent).1 = true →
          c.intentsByOperation.get? intent.operationId = some intent)) ∨
      (c.Admissible now intent ∧ (c.beforeOperation now intent).2 = c.recordIntent intent ∧
        goesAhead (c.beforeOperation now intent).1 = true) := by
  cases hknown : c.intentsByOperation.get? intent.operationId with
  | some previous =>
      left
      refine ⟨fun hadmissible => absurd (hadmissible.fresh.symm.trans hknown) (by simp), ?_⟩
      by_cases hsame : previous = intent
      · simp [beforeOperation, hknown, hsame]
      · simp [beforeOperation, hknown, hsame, goesAhead]
  | none =>
      cases hfits : c.hardLimitFeedback now 0 1 0 with
      | some blocked =>
          have hstop := disposition_hardLimitFeedback hfits
          left
          refine ⟨fun hadmissible => absurd (hadmissible.fits.symm.trans hfits) (by simp), ?_⟩
          simp [beforeOperation, hknown, hfits, goesAhead, hstop]
      | none =>
          cases hrepeated : c.repeatedRequestFeedback intent with
          | some feedback =>
              have hstop := disposition_repeatedRequestFeedback hrepeated
              left
              refine ⟨fun hadmissible => absurd (hadmissible.unrepeated.symm.trans hrepeated) (by simp), ?_⟩
              simp [beforeOperation, hknown, hfits, hrepeated, goesAhead, hstop]
          | none =>
              cases hlimit : (c.profile.callLimitFor intent.capabilityId).any
                  (· ≤ c.callsFor intent.capabilityId) with
              | true =>
                  left
                  refine ⟨fun hadmissible => absurd (hadmissible.below.symm.trans hlimit) (by simp), ?_⟩
                  simp [beforeOperation, hknown, hfits, hrepeated, hlimit, goesAhead]
              | false =>
                  right
                  refine ⟨⟨hknown, hfits, hrepeated, hlimit⟩, ?_⟩
                  simp [beforeOperation, hknown, hfits, hrepeated, hlimit, goesAhead]

/-- What folding an outcome leaves and what it adds. -/
structure FoldsOutcome (c folded : ToolUseController) (outcome : ToolOperationOutcome) :
    Prop where
  profile : folded.profile = c.profile
  budget : folded.budgetRecord = c.budgetRecord
  intents : folded.intentsByOperation = c.intentsByOperation
  latest : folded.latestOperationByFingerprint = c.latestOperationByFingerprint
  calls : folded.callsByCapability = c.callsByCapability
  turns : folded.modelTurns = c.modelTurns
  deadline : folded.deadlineAt = c.deadlineAt
  outcomes : folded.outcomesByOperation =
    c.outcomesByOperation.set outcome.operationId outcome
  cost : folded.costMicrousd = c.costMicrousd + outcome.costMicrousd

theorem foldsOutcome_recordOutcome (c : ToolUseController) (outcome : ToolOperationOutcome)
    (intent : ToolUseIntent) :
    FoldsOutcome c (c.recordOutcome errorDigest outcome intent).2 outcome := by
  cases hsucceeded : outcome.succeeded with
  | true => constructor <;> simp [recordOutcome, hsucceeded, successFeedback, observeOutcome]
  | false =>
      cases hprior : c.errorFingerprintToOperation.get?
          (errorFingerprintOf errorDigest outcome intent) <;>
        constructor <;> simp [recordOutcome, hsucceeded, failureFeedback, observeOutcome, hprior]

/-- What the controller checks of an outcome before it folds it. -/
structure Foldable (c : ToolUseController) (outcome : ToolOperationOutcome) : Prop where
  fresh : c.outcomesByOperation.get? outcome.operationId = none
  operation : ∃ intent, c.intentsByOperation.get? outcome.operationId = some intent ∧
    intent.capabilityId = outcome.capabilityId

/-- A call after an operation folds its outcome, or leaves the controller as it is and returns
only for an outcome on record. -/
theorem afterOperation_cases (c : ToolUseController) (outcome : ToolOperationOutcome) :
    (¬ c.Foldable outcome ∧ (c.afterOperation errorDigest outcome).2 = c ∧
        (returns (c.afterOperation errorDigest outcome).1 = true →
          c.outcomesByOperation.get? outcome.operationId = some outcome)) ∨
      (c.Foldable outcome ∧ returns (c.afterOperation errorDigest outcome).1 = true ∧
        FoldsOutcome c (c.afterOperation errorDigest outcome).2 outcome) := by
  cases hdone : c.outcomesByOperation.get? outcome.operationId with
  | some previous =>
      left
      refine ⟨fun hfold => absurd (hfold.fresh.symm.trans hdone) (by simp), ?_⟩
      by_cases hsame : previous = outcome
      · simp [afterOperation, hdone, hsame]
      · simp [afterOperation, hdone, hsame, returns]
  | none =>
      cases hintent : c.intentsByOperation.get? outcome.operationId with
      | none =>
          left
          refine ⟨fun hfold => ?_, ?_⟩
          · obtain ⟨intent, hsome, -⟩ := hfold.operation
            exact absurd (hsome.symm.trans hintent) (by simp)
          · simp [afterOperation, applyOutcome, hdone, hintent, returns]
      | some intent =>
          by_cases hcapability : intent.capabilityId = outcome.capabilityId
          · right
            refine ⟨⟨hdone, intent, hintent, hcapability⟩, ?_, ?_⟩
            · simp [afterOperation, applyOutcome, hdone, hintent, hcapability, returns]
            · simpa [afterOperation, applyOutcome, hdone, hintent, hcapability] using
                foldsOutcome_recordOutcome errorDigest c outcome intent
          · left
            refine ⟨fun hfold => ?_, ?_⟩
            · obtain ⟨admitted, hsome, hsame⟩ := hfold.operation
              obtain rfl : intent = admitted := Option.some.inj (hintent.symm.trans hsome)
              exact hcapability hsame
            · simp [afterOperation, applyOutcome, hdone, hintent, hcapability, returns]

/-- What the controller checks of a model turn before it records it. -/
structure TurnAdmissible (c : ToolUseController) (now : Nat) (record : ModelTurnRecord) :
    Prop where
  fresh : c.modelTurns.get? record.turnId = none
  fits : c.hardLimitFeedback now 1 0 record.costMicrousd = none

/-- A model turn is let through and recorded, or leaves the controller as it is and the caller
goes ahead only with a turn on record. -/
theorem recordModelTurn_cases (c : ToolUseController) (now : Nat) (record : ModelTurnRecord) :
    (¬ c.TurnAdmissible now record ∧ (c.recordModelTurn now record).2 = c ∧
        (goesAhead (c.recordModelTurn now record).1 = true →
          c.modelTurns.get? record.turnId = some record)) ∨
      (c.TurnAdmissible now record ∧ (c.recordModelTurn now record).2 = c.recordTurn record ∧
        goesAhead (c.recordModelTurn now record).1 = true) := by
  cases hknown : c.modelTurns.get? record.turnId with
  | some previous =>
      left
      refine ⟨fun hadmissible => absurd (hadmissible.fresh.symm.trans hknown) (by simp), ?_⟩
      by_cases hsame : previous = record
      · simp [recordModelTurn, hknown, hsame]
      · simp [recordModelTurn, hknown, hsame, goesAhead]
  | none =>
      cases hfits : c.hardLimitFeedback now 1 0 record.costMicrousd with
      | some blocked =>
          have hstop := disposition_hardLimitFeedback hfits
          left
          refine ⟨fun hadmissible => absurd (hadmissible.fits.symm.trans hfits) (by simp), ?_⟩
          simp [recordModelTurn, hknown, hfits, goesAhead, hstop]
      | none =>
          right
          refine ⟨⟨hknown, hfits⟩, ?_⟩
          simp [recordModelTurn, hknown, hfits, goesAhead]

/-- The first budget is bound; any other call to bind one changes nothing. -/
theorem bindBudget_cases (c : ToolUseController) (record : TaskPolicyBudgetRecord) :
    (c.budgetRecord ≠ none ∧ (c.bindBudget record).2 = c) ∨
      (c.budgetRecord = none ∧
        (c.bindBudget record).2 = { c with
          budgetRecord := some record
          deadlineAt := minimumLimit c.deadlineAt record.deadlineAt }) := by
  cases hbound : c.budgetRecord with
  | none => exact .inr ⟨rfl, by simp [bindBudget, applyBudget, hbound]⟩
  | some previous =>
      refine .inl ⟨Option.some_ne_none _, ?_⟩
      by_cases hsame : previous = record <;> simp [bindBudget, applyBudget, hbound, hsame]

end ToolUseController

/-! ### What the dictionaries say about the replies -/

/-- The operation has a recorded failure that may be retried. -/
def FailedForRetry (outcomes : List ToolOperationOutcome) (operationId : String) : Prop :=
  ∃ outcome ∈ outcomes, outcome.operationId = operationId ∧ outcome.succeeded = false ∧
    outcome.retryable = true

/-- The controller's records are what its replies let through, and its limits hold of them. -/
structure ControllerRun.Accounted (r : ControllerRun) : Prop where
  intents : Files (·.operationId) r.controller.intentsByOperation r.admissions
  outcomes : Files (·.operationId) r.controller.outcomesByOperation r.outcomes
  turns : Files (·.turnId) r.controller.modelTurns r.turns
  calls : ∀ capabilityId,
    r.controller.callsFor capabilityId = r.admissions.countP (·.capabilityId = capabilityId)
  latest : ∀ fingerprint, r.controller.latestOperationByFingerprint.get? fingerprint =
    (r.admissions.reverse.find? (·.canonicalRequestFingerprint = fingerprint)).map (·.operationId)
  cost : r.controller.costMicrousd =
    (r.outcomes.map (·.costMicrousd)).sum + (r.turns.map (·.costMicrousd)).sum
  retried : r.admissions.Pairwise fun earlier later =>
    earlier.canonicalRequestFingerprint = later.canonicalRequestFingerprint →
      FailedForRetry r.outcomes earlier.operationId
  within_total : ∀ limit, r.controller.profile.totalToolCallLimit = some limit →
    r.admissions.length ≤ limit
  within_calls : ∀ capabilityId limit, r.controller.profile.callLimitFor capabilityId = some limit →
    r.admissions.countP (·.capabilityId = capabilityId) ≤ limit
  within_turns : ∀ limit, r.controller.profile.modelTurnLimit = some limit →
    r.turns.length ≤ limit

namespace ControllerRun
variable {r : ControllerRun}

theorem accounted_start (profile : TaskPolicyProfile) (deadlineAt startedAt : Option Nat) :
    (start profile deadlineAt startedAt).Accounted where
  intents := .empty _
  outcomes := .empty _
  turns := .empty _
  calls _ := rfl
  latest _ := rfl
  cost := rfl
  retried := .nil
  within_total _ _ := Nat.zero_le _
  within_calls _ _ _ := Nat.zero_le _
  within_turns _ _ := Nat.zero_le _

theorem le_of_minimumLimit {a b : Option Nat} {n : Nat}
    (h : ∀ bound, minimumLimit a b = some bound → n ≤ bound) :
    (∀ bound, a = some bound → n ≤ bound) ∧ ∀ bound, b = some bound → n ≤ bound := by
  cases a with
  | none => exact ⟨by simp, fun bound hb => h bound hb⟩
  | some x =>
      cases b with
      | none => exact ⟨fun bound hb => h bound hb, by simp⟩
      | some y =>
          have hmin := h (min x y) rfl
          constructor
          · rintro _ ⟨⟩
            exact hmin.trans (min_le_left x y)
          · rintro _ ⟨⟩
            exact hmin.trans (min_le_right x y)

/-- After an admission the new operation counts towards every limit. -/
theorem Accounted.admitted (h : r.Accounted) {now : Nat} {intent : ToolUseIntent}
    (hadmissible : r.controller.Admissible now intent) :
    Accounted { r with
      controller := r.controller.recordIntent intent
      admissions := r.admissions ++ [intent] } where
  intents := h.intents.set hadmissible.fresh
  outcomes := h.outcomes
  turns := h.turns
  calls capabilityId := by
    have hcount := h.calls capabilityId
    have hcalls : (r.controller.recordIntent intent).callsFor capabilityId =
        if intent.capabilityId = capabilityId then r.controller.callsFor capabilityId + 1
        else r.controller.callsFor capabilityId := by
      simp only [ToolUseController.callsFor, ToolUseController.recordIntent, Dict.get?_set]
      by_cases hsame : intent.capabilityId = capabilityId <;> simp [hsame]
    rw [hcalls, List.countP_append, hcount]
    by_cases hsame : intent.capabilityId = capabilityId <;> simp [hsame]
  latest fingerprint := by
    simp only [ToolUseController.recordIntent, Dict.get?_set, List.reverse_append,
      List.reverse_cons, List.reverse_nil, List.nil_append, List.cons_append, List.find?_cons]
    by_cases hsame : intent.canonicalRequestFingerprint = fingerprint
    · simp [hsame]
    · simpa [hsame] using h.latest fingerprint
  cost := h.cost
  retried := by
    refine List.pairwise_append.mpr ⟨h.retried, List.pairwise_singleton _ _, ?_⟩
    intro earlier hearlier later hlater hsame
    obtain rfl := List.mem_singleton.mp hlater
    -- The latest operation of the fingerprint has failed; the ones before it have been retried.
    cases hfind : r.admissions.reverse.find?
        (·.canonicalRequestFingerprint = later.canonicalRequestFingerprint) with
    | none =>
        have hnot := List.find?_eq_none.mp hfind earlier (List.mem_reverse.mpr hearlier)
        exact absurd hsame (by simpa using hnot)
    | some last =>
        have hlatest := h.latest later.canonicalRequestFingerprint
        rw [hfind] at hlatest
        obtain ⟨outcome, houtcome, hfailed, hretry⟩ :=
          ToolUseController.retryable_of_not_repeated hadmissible.unrepeated hlatest
        obtain ⟨hmem, hid⟩ := h.outcomes.get?_eq_some_iff.mp houtcome
        by_cases heq : earlier = last
        · exact ⟨outcome, hmem, by rw [hid, heq], hfailed, hretry⟩
        · obtain ⟨hlast, before, after, hsplit, hafter⟩ := List.find?_eq_some_iff_append.mp hfind
          have hadmissions : r.admissions = after.reverse ++ last :: before.reverse := by
            have hreverse := congrArg List.reverse hsplit
            simpa using hreverse
          have hbefore : earlier ∈ after.reverse := by
            rw [hadmissions] at hearlier
            rcases List.mem_append.mp hearlier with hmem | hmem
            · exact hmem
            · rcases List.mem_cons.mp hmem with hlast | hmem
              · exact absurd hlast heq
              · have hnot := hafter earlier (List.mem_reverse.mp hmem)
                simp [hsame] at hnot
          have hpairs := h.retried
          rw [hadmissions] at hpairs
          refine (List.pairwise_append.mp hpairs).2.2 earlier hbefore last List.mem_cons_self ?_
          rw [hsame]
          exact (of_decide_eq_true hlast).symm
  within_total limit hlimit := by
    have hfits := (ToolUseController.hardLimitFeedback_eq_none_iff.mp hadmissible.fits).2.2.1
    have hbound := (le_of_minimumLimit (ToolUseController.exceeds_eq_false_iff.mp hfits)).1
      limit hlimit
    rw [h.intents.length_entries] at hbound
    simpa using hbound
  within_calls capabilityId limit hlimit := by
    rw [List.countP_append]
    by_cases hsame : intent.capabilityId = capabilityId
    · have hbelow := hadmissible.below
      subst hsame
      rw [show r.controller.profile.callLimitFor intent.capabilityId = some limit from hlimit,
        h.calls] at hbelow
      simpa [Nat.succ_le_iff] using hbelow
    · have hbound := h.within_calls capabilityId limit hlimit
      simpa [hsame] using hbound
  within_turns := h.within_turns

/-- Once an outcome is folded its cost counts, and it may let its request be sent again. -/
theorem Accounted.folded (h : r.Accounted) {outcome : ToolOperationOutcome}
    {folded : ToolUseController}
    (hfold : ToolUseController.FoldsOutcome r.controller folded outcome)
    (hfresh : r.controller.outcomesByOperation.get? outcome.operationId = none) :
    Accounted { r with controller := folded, outcomes := r.outcomes ++ [outcome] } where
  intents := by
    rw [hfold.intents]
    exact h.intents
  outcomes := by
    rw [hfold.outcomes]
    exact h.outcomes.set hfresh
  turns := by
    rw [hfold.turns]
    exact h.turns
  calls capabilityId := by
    have hcount := h.calls capabilityId
    simpa [ToolUseController.callsFor, hfold.calls] using hcount
  latest fingerprint := by
    rw [hfold.latest]
    exact h.latest fingerprint
  cost := by
    have hcost := h.cost
    simp only [hfold.cost, List.map_append, List.map_singleton, List.sum_append,
      List.sum_singleton]
    omega
  retried := h.retried.imp fun hretried hsame => by
    obtain ⟨failed, hmem, hfailed⟩ := hretried hsame
    exact ⟨failed, List.mem_append_left _ hmem, hfailed⟩
  within_total limit hlimit := h.within_total limit (by rw [← hfold.profile]; exact hlimit)
  within_calls capabilityId limit hlimit :=
    h.within_calls capabilityId limit (by rw [← hfold.profile]; exact hlimit)
  within_turns limit hlimit := h.within_turns limit (by rw [← hfold.profile]; exact hlimit)

/-- After its admission a model turn and its cost count. -/
theorem Accounted.turned (h : r.Accounted) {now : Nat} {record : ModelTurnRecord}
    (hadmissible : r.controller.TurnAdmissible now record) :
    Accounted { r with
      controller := r.controller.recordTurn record
      turns := r.turns ++ [record] } where
  intents := h.intents
  outcomes := h.outcomes
  turns := h.turns.set hadmissible.fresh
  calls := h.calls
  latest := h.latest
  cost := by
    have hcost := h.cost
    simp only [ToolUseController.recordTurn, List.map_append, List.map_singleton,
      List.sum_append, List.sum_singleton]
    omega
  retried := h.retried
  within_total := h.within_total
  within_calls := h.within_calls
  within_turns limit hlimit := by
    have hturns := (ToolUseController.hardLimitFeedback_eq_none_iff.mp hadmissible.fits).2.1
    have hbound := (le_of_minimumLimit (ToolUseController.exceeds_eq_false_iff.mp hturns)).1
      limit hlimit
    rw [h.turns.length_entries] at hbound
    simpa using hbound

/-- The call puts something on record. -/
def Accepts (r : ControllerRun) (now : Nat) : ControllerCall → Prop
  | .beforeOperation intent => r.controller.Admissible now intent
  | .afterOperation outcome => r.controller.Foldable outcome
  | .recordModelTurn record => r.controller.TurnAdmissible now record
  | .bindBudget _ => r.controller.budgetRecord = none

/-- What one call leaves on record is what its reply lets through. -/
inductive Effect (r : ControllerRun) (now : Nat) : ControllerCall → ControllerRun → Prop
  | unchanged {call} (hnot : ¬ r.Accepts now call) : Effect r now call r
  | admitted {intent} (hadmissible : r.controller.Admissible now intent) :
      Effect r now (.beforeOperation intent) { r with
        controller := r.controller.recordIntent intent
        admissions := r.admissions ++ [intent] }
  | folded {outcome folded} (hfoldable : r.controller.Foldable outcome)
      (hfold : ToolUseController.FoldsOutcome r.controller folded outcome) :
      Effect r now (.afterOperation outcome)
        { r with controller := folded, outcomes := r.outcomes ++ [outcome] }
  | turned {record} (hadmissible : r.controller.TurnAdmissible now record) :
      Effect r now (.recordModelTurn record) { r with
        controller := r.controller.recordTurn record
        turns := r.turns ++ [record] }
  | bound {record} (hunbound : r.controller.budgetRecord = none) :
      Effect r now (.bindBudget record) { r with
        controller := { r.controller with
          budgetRecord := some record
          deadlineAt := minimumLimit r.controller.deadlineAt record.deadlineAt } }

theorem Accounted.effect (h : r.Accounted) (now : Nat) (call : ControllerCall) :
    Effect r now call (r.takeCall errorDigest now call) := by
  cases call with
  | beforeOperation intent =>
      obtain ⟨hnot, hsame, hknown⟩ | ⟨hadmissible, hrecorded, hgoes⟩ :=
        r.controller.beforeOperation_cases now intent
      · have hrun : r.takeCall errorDigest now (.beforeOperation intent) = r := by
          cases hgoes : goesAhead (r.controller.beforeOperation now intent).1 with
          | true => simp [takeCall, hsame, h.intents.addOnce_of_known (hknown hgoes)]
          | false => simp [takeCall, hsame, hgoes]
        rw [hrun]
        exact .unchanged hnot
      · have hrun : r.takeCall errorDigest now (.beforeOperation intent) = { r with
            controller := r.controller.recordIntent intent
            admissions := r.admissions ++ [intent] } := by
          simp [takeCall, hgoes, hrecorded, h.intents.addOnce_of_fresh hadmissible.fresh]
        rw [hrun]
        exact .admitted hadmissible
  | afterOperation outcome =>
      obtain ⟨hnot, hsame, hknown⟩ | ⟨hfoldable, hreturns, hfold⟩ :=
        r.controller.afterOperation_cases errorDigest outcome
      · have hrun : r.takeCall errorDigest now (.afterOperation outcome) = r := by
          cases hreturns : returns (r.controller.afterOperation errorDigest outcome).1 with
          | true => simp [takeCall, hsame, h.outcomes.addOnce_of_known (hknown hreturns)]
          | false => simp [takeCall, hsame, hreturns]
        rw [hrun]
        exact .unchanged hnot
      · have hrun : r.takeCall errorDigest now (.afterOperation outcome) = { r with
            controller := (r.controller.afterOperation errorDigest outcome).2
            outcomes := r.outcomes ++ [outcome] } := by
          simp [takeCall, hreturns, h.outcomes.addOnce_of_fresh hfoldable.fresh]
        rw [hrun]
        exact .folded hfoldable hfold
  | recordModelTurn record =>
      obtain ⟨hnot, hsame, hknown⟩ | ⟨hadmissible, hrecorded, hgoes⟩ :=
        r.controller.recordModelTurn_cases now record
      · have hrun : r.takeCall errorDigest now (.recordModelTurn record) = r := by
          cases hgoes : goesAhead (r.controller.recordModelTurn now record).1 with
          | true => simp [takeCall, hsame, h.turns.addOnce_of_known (hknown hgoes)]
          | false => simp [takeCall, hsame, hgoes]
        rw [hrun]
        exact .unchanged hnot
      · have hrun : r.takeCall errorDigest now (.recordModelTurn record) = { r with
            controller := r.controller.recordTurn record
            turns := r.turns ++ [record] } := by
          simp [takeCall, hgoes, hrecorded, h.turns.addOnce_of_fresh hadmissible.fresh]
        rw [hrun]
        exact .turned hadmissible
  | bindBudget record =>
      obtain ⟨hbound, hsame⟩ | ⟨hunbound, hbound⟩ := r.controller.bindBudget_cases record
      · have hrun : r.takeCall errorDigest now (.bindBudget record) = r := by
          simp [takeCall, hsame]
        rw [hrun]
        exact .unchanged hbound
      · simp only [takeCall, hbound]
        exact .bound hunbound

theorem Accounted.takeCall (h : r.Accounted) (now : Nat) (call : ControllerCall) :
    (r.takeCall errorDigest now call).Accounted := by
  have heffect := h.effect errorDigest now call
  generalize r.takeCall errorDigest now call = next at heffect ⊢
  cases heffect with
  | unchanged => exact h
  | admitted hadmissible => exact h.admitted hadmissible
  | folded hfoldable hfold => exact h.folded hfold hfoldable.fresh
  | turned hadmissible => exact h.turned hadmissible
  | bound => exact ⟨h.intents, h.outcomes, h.turns, h.calls, h.latest, h.cost, h.retried,
      h.within_total, h.within_calls, h.within_turns⟩

theorem Accounted.after (h : r.Accounted) (history : List (Nat × ControllerCall)) :
    (r.after errorDigest history).Accounted := by
  induction history generalizing r with
  | nil => exact h
  | cons call rest ih => exact ih (h.takeCall errorDigest call.1 call.2)

end ControllerRun

end CopilotRuntime.TaskPolicy
