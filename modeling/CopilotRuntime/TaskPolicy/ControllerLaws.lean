import CopilotRuntime.TaskPolicy.ControllerLimits

/-!
# The limits of a run, and its repeated calls

What is on record stays, and no limit is relaxed. So a call that was recorded,
or that a limit refused, is never recorded later, and a call that is made again
at once changes nothing.

## Implementation notes

A request refused as a repeat of another one is not on record. When that other
operation fails and may be retried, the refused call is admitted the next time.
-/

namespace CopilotRuntime.TaskPolicy

open Foundation

variable (errorDigest : String → String → String → String)

namespace ControllerRun
variable {r : ControllerRun}

/-! ### What later calls keep -/

/-- What is on record stays, and no limit is relaxed. -/
structure Extends (r s : ControllerRun) : Prop where
  profile : s.controller.profile = r.controller.profile
  admissions : r.admissions <+: s.admissions
  outcomes : r.outcomes <+: s.outcomes
  turns : r.turns <+: s.turns
  cost : r.controller.costMicrousd ≤ s.controller.costMicrousd
  budget : ∀ record, r.controller.budgetRecord = some record →
    s.controller.budgetRecord = some record
  deadline : ∀ deadline, r.controller.deadlineAt = some deadline →
    ∃ earlier ≤ deadline, s.controller.deadlineAt = some earlier

theorem Extends.refl (r : ControllerRun) : r.Extends r where
  profile := rfl
  admissions := List.prefix_rfl
  outcomes := List.prefix_rfl
  turns := List.prefix_rfl
  cost := le_rfl
  budget _ h := h
  deadline deadline h := ⟨deadline, le_rfl, h⟩

variable {s : ControllerRun}

theorem Extends.trans {t : ControllerRun} (h : r.Extends s) (h' : s.Extends t) :
    r.Extends t where
  profile := h'.profile.trans h.profile
  admissions := h.admissions.trans h'.admissions
  outcomes := h.outcomes.trans h'.outcomes
  turns := h.turns.trans h'.turns
  cost := h.cost.trans h'.cost
  budget record hrecord := h'.budget record (h.budget record hrecord)
  deadline deadline hdeadline := by
    obtain ⟨earlier, hle, hearlier⟩ := h.deadline deadline hdeadline
    obtain ⟨earliest, hle', hearliest⟩ := h'.deadline earlier hearlier
    exact ⟨earliest, hle'.trans hle, hearliest⟩

/-- A limit combined with another one is no looser. -/
theorem exists_le_minimumLimit {a : Option Nat} {limit : Nat} (h : a = some limit)
    (b : Option Nat) : ∃ smaller ≤ limit, minimumLimit a b = some smaller := by
  subst h
  cases b with
  | none => exact ⟨limit, le_rfl, rfl⟩
  | some other => exact ⟨min limit other, min_le_left _ _, rfl⟩

theorem Accounted.extends_takeCall (h : r.Accounted) (now : Nat) (call : ControllerCall) :
    r.Extends (r.takeCall errorDigest now call) := by
  have heffect := h.effect errorDigest now call
  generalize r.takeCall errorDigest now call = next at heffect ⊢
  cases heffect with
  | unchanged => exact .refl r
  | admitted => exact { Extends.refl r with
      profile := rfl
      admissions := List.prefix_append _ _ }
  | folded _ hfold => exact { Extends.refl r with
      profile := hfold.profile
      outcomes := List.prefix_append _ _
      cost := by
        rw [hfold.cost]
        exact Nat.le_add_right _ _
      budget := fun record hrecord => hfold.budget.trans hrecord
      deadline := fun deadline hdeadline => ⟨deadline, le_rfl, hfold.deadline.trans hdeadline⟩ }
  | turned => exact { Extends.refl r with
      profile := rfl
      turns := List.prefix_append _ _
      cost := Nat.le_add_right _ _ }
  | bound hunbound => exact { Extends.refl r with
      profile := rfl
      budget := fun record hrecord => absurd (hunbound.symm.trans hrecord) (by simp)
      deadline := fun deadline hdeadline => exists_le_minimumLimit hdeadline _ }

theorem Accounted.extends_after (h : r.Accounted) (history : List (Nat × ControllerCall)) :
    r.Extends (r.after errorDigest history) := by
  induction history generalizing r with
  | nil => exact .refl r
  | cons call rest ih =>
      exact (h.extends_takeCall errorDigest call.1 call.2).trans
        (ih (h.takeCall errorDigest call.1 call.2))

theorem Extends.minimumLimit (h : r.Extends s) {base : Option Nat}
    {limitOf : TaskPolicyBudgetRecord → Option Nat} {limit : Nat}
    (hlimit : minimumLimit base (r.controller.budgetRecord.bind limitOf) = some limit) :
    ∃ smaller ≤ limit,
      TaskPolicy.minimumLimit base (s.controller.budgetRecord.bind limitOf) = some smaller := by
  cases hbudget : r.controller.budgetRecord with
  | none =>
      rw [hbudget] at hlimit
      have hbase : base = some limit := by
        cases base <;> simpa only [TaskPolicy.minimumLimit, Option.bind_none] using hlimit
      exact exists_le_minimumLimit hbase _
  | some record =>
      rw [h.budget record hbudget, ← hbudget]
      exact ⟨limit, le_rfl, hlimit⟩

/-- A use that exceeds a limit exceeds it later too. -/
theorem exceeds_mono {limit limit' : Option Nat} {used used' : Nat}
    (hlimit : ∀ bound, limit = some bound → ∃ smaller ≤ bound, limit' = some smaller)
    (hused : used ≤ used') (h : ToolUseController.exceeds used' limit' = false) :
    ToolUseController.exceeds used limit = false := by
  rw [ToolUseController.exceeds_eq_false_iff] at h ⊢
  intro bound hbound
  obtain ⟨smaller, hle, hsmaller⟩ := hlimit bound hbound
  exact hused.trans ((h smaller hsmaller).trans hle)

variable {now now' : Nat}

/-- What a later controller lets through, an earlier one would have at any earlier time. -/
theorem Extends.fits (h : r.Extends s) (hr : r.Accounted) (hs : s.Accounted)
    {turns calls cost : Nat} (hnow : now ≤ now')
    (hfits : s.controller.hardLimitFeedback now' turns calls cost = none) :
    r.controller.hardLimitFeedback now turns calls cost = none := by
  rw [ToolUseController.hardLimitFeedback_eq_none_iff] at hfits ⊢
  obtain ⟨htime, hturns, hcalls, hcost⟩ := hfits
  refine ⟨?_, ?_, ?_, ?_⟩
  · cases hdeadline : r.controller.deadlineAt with
    | none => simp [ToolUseController.deadlinePassed, hdeadline]
    | some deadline =>
        obtain ⟨earlier, hle, hearlier⟩ := h.deadline deadline hdeadline
        simp only [ToolUseController.deadlinePassed, hearlier, Option.any_some,
          decide_eq_false_iff_not, not_le] at htime
        simp only [ToolUseController.deadlinePassed, hdeadline, Option.any_some,
          decide_eq_false_iff_not, not_le]
        omega
  · refine exceeds_mono (fun bound hbound => ?_) ?_ hturns
    · rw [ToolUseController.modelTurnLimit, h.profile]
      exact h.minimumLimit hbound
    · rw [hr.turns.length_entries, hs.turns.length_entries]
      exact Nat.add_le_add_right h.turns.length_le _
  · refine exceeds_mono (fun bound hbound => ?_) ?_ hcalls
    · rw [ToolUseController.totalToolCallLimit, h.profile]
      exact h.minimumLimit hbound
    · rw [hr.intents.length_entries, hs.intents.length_entries]
      exact Nat.add_le_add_right h.admissions.length_le _
  · refine exceeds_mono (fun bound hbound => ?_) (Nat.add_le_add_right h.cost _) hcost
    rw [ToolUseController.costLimitMicrousd, h.profile]
    exact h.minimumLimit hbound

/-- A capability that has calls left had calls left before. -/
theorem Extends.below (h : r.Extends s) (hr : r.Accounted) (hs : s.Accounted)
    {capabilityId : String} (hbelow : (s.controller.profile.callLimitFor capabilityId).any
      (· ≤ s.controller.callsFor capabilityId) = false) :
    (r.controller.profile.callLimitFor capabilityId).any
      (· ≤ r.controller.callsFor capabilityId) = false := by
  have hcalls : r.controller.callsFor capabilityId ≤ s.controller.callsFor capabilityId := by
    rw [hr.calls, hs.calls]
    exact h.admissions.sublist.countP_le
  rw [h.profile] at hbelow
  cases hlimit : r.controller.profile.callLimitFor capabilityId with
  | none => rfl
  | some limit =>
      simp only [hlimit, Option.any_some, decide_eq_false_iff_not, not_le] at hbelow ⊢
      omega

theorem get?_of_prefix {ν : Type} {key : ν → String} {d d' : Dict String ν} {xs ys : List ν}
    (h : Files key d xs) (h' : Files key d' ys) (hpre : xs <+: ys) {k : String} {x : ν}
    (hknown : d.get? k = some x) : d'.get? k = some x := by
  obtain ⟨hmem, hkey⟩ := h.get?_eq_some_iff.mp hknown
  exact h'.get?_eq_some_iff.mpr ⟨hpre.subset hmem, hkey⟩

/-! ### Repeated calls -/

/-- The answer to a call may change later: its request was refused as a repeat of another one,
or its outcome came before the operation. -/
def Premature (r : ControllerRun) (now : Nat) : ControllerCall → Prop
  | .beforeOperation intent =>
      ∃ feedback, (r.controller.beforeOperation now intent).1 = .ok feedback ∧
        feedback.disposition ≠ .continue ∧ feedback.duplicateOfOperationId ≠ none
  | .afterOperation outcome => outcome.operationId ∉ r.admissions.map (·.operationId)
  | .recordModelTurn _ => False
  | .bindBudget _ => False

variable {intent : ToolUseIntent}

theorem duplicate_repeatedRequestFeedback {c : ToolUseController} {feedback : ToolUseFeedback}
    (h : c.repeatedRequestFeedback intent = some feedback) :
    feedback.duplicateOfOperationId ≠ none := by
  unfold ToolUseController.repeatedRequestFeedback at h
  split at h
  · cases h
  · split at h
    · cases h
      exact Option.some_ne_none _
    · split at h
      · cases h
      · split at h
        · cases h
          exact Option.some_ne_none _
        · cases h
          exact Option.some_ne_none _

/-- A request refused as a repeat is answered so, and only so. -/
theorem premature_of_repeated {feedback : ToolUseFeedback}
    (hfresh : r.controller.intentsByOperation.get? intent.operationId = none)
    (hfits : r.controller.hardLimitFeedback now 0 1 0 = none)
    (hrepeated : r.controller.repeatedRequestFeedback intent = some feedback) :
    r.Premature now (.beforeOperation intent) :=
  ⟨feedback, by simp [ToolUseController.beforeOperation, hfresh, hfits, hrepeated],
    ToolUseController.disposition_repeatedRequestFeedback hrepeated,
    duplicate_repeatedRequestFeedback hrepeated⟩

theorem Accounted.get?_admission (h : r.Accounted) (hs : s.Accounted) (hextends : r.Extends s)
    {operationId : String}
    (hknown : r.controller.intentsByOperation.get? operationId = some intent) :
    s.controller.intentsByOperation.get? operationId = some intent :=
  get?_of_prefix h.intents hs.intents hextends.admissions hknown

variable {call : ControllerCall}

/-- A call that is not premature, and that a later controller accepts, was accepted. -/
theorem Extends.accepts (hextends : r.Extends s) (h : r.Accounted) (hs : s.Accounted)
    (hnow : now ≤ now') (hfinal : ¬ r.Premature now call) (hagain : s.Accepts now' call) :
    r.Accepts now call := by
  cases call with
  | beforeOperation intent =>
      have hfresh : r.controller.intentsByOperation.get? intent.operationId = none := by
        by_contra hknown
        obtain ⟨previous, hprevious⟩ := Option.ne_none_iff_exists'.mp hknown
        have hkept := h.get?_admission hs hextends hprevious
        exact absurd (hagain.fresh.symm.trans hkept) (by simp)
      have hfits := hextends.fits h hs hnow hagain.fits
      cases hrepeated : r.controller.repeatedRequestFeedback intent with
      | some feedback => exact absurd (premature_of_repeated hfresh hfits hrepeated) hfinal
      | none => exact ⟨hfresh, hfits, hrepeated, hextends.below h hs hagain.below⟩
  | afterOperation outcome =>
      constructor
      · by_contra hknown
        obtain ⟨previous, hprevious⟩ := Option.ne_none_iff_exists'.mp hknown
        have hkept := get?_of_prefix h.outcomes hs.outcomes hextends.outcomes hprevious
        exact absurd (hagain.fresh.symm.trans hkept) (by simp)
      · have hmem : outcome.operationId ∈ r.admissions.map (·.operationId) := not_not.mp hfinal
        obtain ⟨intent, hintent⟩ := Option.ne_none_iff_exists'.mp
          (fun hnone => h.intents.get?_eq_none_iff.mp hnone hmem)
        obtain ⟨admitted, hadmitted, hcapability⟩ := hagain.operation
        have hkept := h.get?_admission hs hextends hintent
        obtain rfl : intent = admitted := Option.some.inj (hkept.symm.trans hadmitted)
        exact ⟨intent, hintent, hcapability⟩
  | recordModelTurn record =>
      constructor
      · by_contra hknown
        obtain ⟨previous, hprevious⟩ := Option.ne_none_iff_exists'.mp hknown
        have hkept := get?_of_prefix h.turns hs.turns hextends.turns hprevious
        exact absurd (hagain.fresh.symm.trans hkept) (by simp)
      · exact hextends.fits h hs hnow hagain.fits
  | bindBudget record =>
      by_contra hbound
      obtain ⟨previous, hprevious⟩ := Option.ne_none_iff_exists'.mp hbound
      exact absurd (hagain.symm.trans (hextends.budget previous hprevious)) (by simp)

/-- What a call put on record is not accepted again. -/
theorem Accounted.not_accepts (h : r.Accounted) (hs : s.Accounted) (haccepts : r.Accepts now call)
    (hextends : (r.takeCall errorDigest now call).Extends s) : ¬ s.Accepts now' call := by
  intro hagain
  have hnext := h.takeCall errorDigest now call
  have heffect := h.effect errorDigest now call
  generalize r.takeCall errorDigest now call = next at hextends hnext heffect
  cases heffect with
  | unchanged hnot => exact hnot haccepts
  | @admitted intent hadmissible =>
      have hrecorded := hnext.intents.get?_of_mem (List.mem_append_right _ List.mem_cons_self)
      have hkept := hnext.get?_admission hs hextends hrecorded
      exact absurd (hagain.fresh.symm.trans hkept) (by simp)
  | @folded outcome folded hfoldable hfold =>
      have hrecorded := hnext.outcomes.get?_of_mem (List.mem_append_right _ List.mem_cons_self)
      have hkept := get?_of_prefix hnext.outcomes hs.outcomes hextends.outcomes hrecorded
      exact absurd (hagain.fresh.symm.trans hkept) (by simp)
  | @turned record hadmissible =>
      have hrecorded := hnext.turns.get?_of_mem (List.mem_append_right _ List.mem_cons_self)
      have hkept := get?_of_prefix hnext.turns hs.turns hextends.turns hrecorded
      exact absurd (hagain.fresh.symm.trans hkept) (by simp)
  | @bound record hunbound =>
      exact absurd (hagain.symm.trans (hextends.budget record rfl)) (by simp)

theorem Accounted.takeCall_of_not_accepts (h : r.Accounted) (hnot : ¬ r.Accepts now call) :
    r.takeCall errorDigest now call = r := by
  have heffect := h.effect errorDigest now call
  generalize r.takeCall errorDigest now call = next at heffect ⊢
  cases heffect with
  | unchanged => rfl
  | admitted hadmissible => exact absurd hadmissible hnot
  | folded hfoldable => exact absurd hfoldable hnot
  | turned hadmissible => exact absurd hadmissible hnot
  | bound hunbound => exact absurd hunbound hnot

/-- A call that was not premature changes nothing when it is made again. -/
theorem Accounted.repeated (h : r.Accounted) (hnow : now ≤ now') (hs : s.Accounted)
    (hlater : (r.takeCall errorDigest now call).Extends s) (hfinal : ¬ r.Premature now call) :
    s.takeCall errorDigest now' call = s := by
  refine hs.takeCall_of_not_accepts errorDigest fun hagain => ?_
  have hextends := (h.extends_takeCall errorDigest now call).trans hlater
  exact h.not_accepts errorDigest hs (hextends.accepts h hs hnow hfinal hagain) hlater hagain

/-- A call that is accepted would have been accepted earlier by the same controller. -/
theorem Accounted.accepts_earlier (h : r.Accounted) (hnow : now ≤ now')
    (haccepts : r.Accepts now' call) : r.Accepts now call := by
  cases call with
  | beforeOperation intent =>
      exact { haccepts with fits := (Extends.refl r).fits h h hnow haccepts.fits }
  | afterOperation outcome => exact haccepts
  | recordModelTurn record =>
      exact { haccepts with fits := (Extends.refl r).fits h h hnow haccepts.fits }
  | bindBudget record => exact haccepts

/-- A call that is made again at once changes nothing. -/
theorem Accounted.repeated_at_once (h : r.Accounted) (hnow : now ≤ now') :
    (r.takeCall errorDigest now call).takeCall errorDigest now' call =
      r.takeCall errorDigest now call := by
  by_cases haccepts : r.Accepts now call
  · have hnext := h.takeCall errorDigest now call
    exact hnext.takeCall_of_not_accepts errorDigest
      (h.not_accepts errorDigest hnext haccepts (.refl _))
  · rw [h.takeCall_of_not_accepts errorDigest haccepts]
    exact h.takeCall_of_not_accepts errorDigest
      fun hagain => haccepts (h.accepts_earlier hnow hagain)

/-! ### The bound budget -/

/-- The budget a call wants to bind. -/
def budgetOf : ControllerCall → Option TaskPolicyBudgetRecord
  | .bindBudget record => some record
  | _ => none

/-- The budget that binds a run is the first one its caller binds. -/
def firstBudget (history : List (Nat × ControllerCall)) : Option TaskPolicyBudgetRecord :=
  history.findSome? fun entry => budgetOf entry.2

theorem Accounted.budget_takeCall (h : r.Accounted) (now : Nat) (call : ControllerCall) :
    (r.takeCall errorDigest now call).controller.budgetRecord =
      r.controller.budgetRecord.or (budgetOf call) := by
  have heffect := h.effect errorDigest now call
  generalize r.takeCall errorDigest now call = next at heffect ⊢
  cases heffect with
  | unchanged hnot =>
      cases call with
      | bindBudget record =>
          obtain ⟨bound, hbound⟩ := Option.ne_none_iff_exists'.mp hnot
          simp [hbound]
      | beforeOperation intent => exact (Option.or_none).symm
      | afterOperation outcome => exact (Option.or_none).symm
      | recordModelTurn record => exact (Option.or_none).symm
  | admitted => exact (Option.or_none).symm
  | folded _ hfold => exact hfold.budget.trans (Option.or_none).symm
  | turned => exact (Option.or_none).symm
  | bound hunbound => simp [hunbound, budgetOf]

theorem Accounted.budget_after (h : r.Accounted) (history : List (Nat × ControllerCall)) :
    (r.after errorDigest history).controller.budgetRecord =
      r.controller.budgetRecord.or (firstBudget history) := by
  induction history generalizing r with
  | nil => exact (Option.or_none).symm
  | cons entry rest ih =>
      have hrest := ih (h.takeCall errorDigest entry.1 entry.2)
      rw [h.budget_takeCall, Option.or_assoc] at hrest
      refine hrest.trans (congrArg r.controller.budgetRecord.or ?_)
      rw [firstBudget, firstBudget, List.findSome?_cons]
      cases budgetOf entry.2 <;> rfl

/-- The run is bounded in time by what its profile, its caller and its budget say. -/
structure Timed (profile : TaskPolicyProfile) (deadlineAt startedAt : Option Nat)
    (r : ControllerRun) : Prop where
  sameProfile : r.controller.profile = profile
  deadline : r.controller.deadlineAt =
    minimumLimit (ToolUseController.effectiveDeadline profile deadlineAt startedAt)
      (r.controller.budgetRecord.bind (·.deadlineAt))

theorem minimumLimit_none (a : Option Nat) : minimumLimit a none = a := by
  cases a <;> rfl

section Runs
variable {profile : TaskPolicyProfile} {deadlineAt startedAt : Option Nat}

variable (profile deadlineAt startedAt) in
theorem timed_start : Timed profile deadlineAt startedAt (start profile deadlineAt startedAt) :=
  ⟨rfl, (minimumLimit_none _).symm⟩

theorem Timed.takeCall (h : r.Timed profile deadlineAt startedAt) (haccounted : r.Accounted)
    (now : Nat) (call : ControllerCall) :
    (r.takeCall errorDigest now call).Timed profile deadlineAt startedAt := by
  have heffect := haccounted.effect errorDigest now call
  generalize r.takeCall errorDigest now call = next at heffect ⊢
  cases heffect with
  | unchanged => exact h
  | admitted => exact ⟨h.sameProfile, h.deadline⟩
  | folded _ hfold =>
      refine ⟨hfold.profile.trans h.sameProfile, hfold.deadline.trans ?_⟩
      rw [h.deadline, hfold.budget]
  | turned => exact ⟨h.sameProfile, h.deadline⟩
  | @bound record hunbound =>
      have hdeadline := h.deadline
      rw [hunbound, Option.bind_none, minimumLimit_none] at hdeadline
      exact ⟨h.sameProfile, by simp [hdeadline]⟩

theorem Timed.after (h : r.Timed profile deadlineAt startedAt) (haccounted : r.Accounted)
    (history : List (Nat × ControllerCall)) :
    (r.after errorDigest history).Timed profile deadlineAt startedAt := by
  induction history generalizing r with
  | nil => exact h
  | cons call rest ih =>
      exact ih (h.takeCall errorDigest haccounted call.1 call.2)
        (haccounted.takeCall errorDigest call.1 call.2)

/-- Since a budget was bound, with so many operations and turns by then, what was let through
fits the profile with that budget. -/
structure WithinBudget (record : TaskPolicyBudgetRecord) (calls turns : Nat)
    (r : ControllerRun) : Prop where
  bound : r.controller.budgetRecord = some record
  operations : ∀ limit,
    minimumLimit r.controller.profile.totalToolCallLimit record.totalToolCallLimit = some limit →
      r.admissions.length ≤ max calls limit
  modelTurns : ∀ limit,
    minimumLimit r.controller.profile.modelTurnLimit record.modelTurnLimit = some limit →
      r.turns.length ≤ max turns limit

variable {record : TaskPolicyBudgetRecord} {calls turns : Nat}

theorem WithinBudget.takeCall (h : r.WithinBudget record calls turns)
    (haccounted : r.Accounted) (now : Nat) (call : ControllerCall) :
    (r.takeCall errorDigest now call).WithinBudget record calls turns := by
  have heffect := haccounted.effect errorDigest now call
  generalize r.takeCall errorDigest now call = next at heffect ⊢
  cases heffect with
  | unchanged => exact h
  | admitted hadmissible =>
      refine ⟨h.bound, fun limit hlimit => ?_, h.modelTurns⟩
      have hcalls := (ToolUseController.hardLimitFeedback_eq_none_iff.mp hadmissible.fits).2.2.1
      rw [ToolUseController.totalToolCallLimit, h.bound,
        ToolUseController.exceeds_eq_false_iff] at hcalls
      have hroom := hcalls limit hlimit
      rw [haccounted.intents.length_entries] at hroom
      simpa using Or.inr hroom
  | folded _ hfold =>
      refine ⟨hfold.budget.trans h.bound, fun limit hlimit => h.operations limit ?_,
        fun limit hlimit => h.modelTurns limit ?_⟩
      · rw [← hfold.profile]
        exact hlimit
      · rw [← hfold.profile]
        exact hlimit
  | turned hadmissible =>
      refine ⟨h.bound, h.operations, fun limit hlimit => ?_⟩
      have hturns := (ToolUseController.hardLimitFeedback_eq_none_iff.mp hadmissible.fits).2.1
      rw [ToolUseController.modelTurnLimit, h.bound,
        ToolUseController.exceeds_eq_false_iff] at hturns
      have hroom := hturns limit hlimit
      rw [haccounted.turns.length_entries] at hroom
      simpa using Or.inr hroom
  | bound hunbound => exact absurd (hunbound.symm.trans h.bound) (by simp)

theorem WithinBudget.after (h : r.WithinBudget record calls turns) (haccounted : r.Accounted)
    (history : List (Nat × ControllerCall)) :
    (r.after errorDigest history).WithinBudget record calls turns := by
  induction history generalizing r with
  | nil => exact h
  | cons call rest ih =>
      exact ih (h.takeCall errorDigest haccounted call.1 call.2)
        (haccounted.takeCall errorDigest call.1 call.2)

theorem accounted_after (history : List (Nat × ControllerCall)) :
    ((start profile deadlineAt startedAt).after errorDigest history).Accounted :=
  (accounted_start profile deadlineAt startedAt).after errorDigest history

theorem profile_after (history : List (Nat × ControllerCall)) :
    ((start profile deadlineAt startedAt).after errorDigest history).controller.profile =
      profile :=
  ((timed_start profile deadlineAt startedAt).after errorDigest (accounted_start profile deadlineAt startedAt)
    history).sameProfile

end Runs

end ControllerRun

/-- What holds of every run of a controller, whatever its calls. -/
structure ControllerLaws (profile : TaskPolicyProfile) (deadlineAt startedAt : Option Nat)
    (run : List (Nat × ControllerCall) → ControllerRun) : Prop where
  /-- The operations fit the profile, and the turns do. -/
  within_profile : ∀ history,
    (∀ limit, profile.totalToolCallLimit = some limit →
      (run history).admissions.length ≤ limit) ∧
    ∀ limit, profile.modelTurnLimit = some limit → (run history).turns.length ≤ limit
  /-- A budget bound before the first operation, or before the first turn, counts too. -/
  within_budget : ∀ earlier later record, ControllerRun.firstBudget earlier = some record →
    ((run earlier).admissions = [] → ∀ limit,
      minimumLimit profile.totalToolCallLimit record.totalToolCallLimit = some limit →
        (run (earlier ++ later)).admissions.length ≤ limit) ∧
    ((run earlier).turns = [] → ∀ limit,
      minimumLimit profile.modelTurnLimit record.modelTurnLimit = some limit →
        (run (earlier ++ later)).turns.length ≤ limit)
  /-- The operations of a capability fit its limit. -/
  within_capability : ∀ history capabilityId limit,
    profile.callLimitFor capabilityId = some limit →
      (run history).admissions.countP (·.capabilityId = capabilityId) ≤ limit
  /-- What is let through comes in time and before the costs so far exceed their limit. -/
  in_time : ∀ history now call,
    (run (history ++ [(now, call)])).admissions ≠ (run history).admissions ∨
      (run (history ++ [(now, call)])).turns ≠ (run history).turns →
    (∀ deadline, minimumLimit (ToolUseController.effectiveDeadline profile deadlineAt startedAt)
      ((ControllerRun.firstBudget history).bind (·.deadlineAt)) = some deadline →
        now < deadline) ∧
    ∀ limit, minimumLimit profile.costLimitMicrousd
      ((ControllerRun.firstBudget history).bind (·.costLimitMicrousd)) = some limit →
        ((run history).outcomes.map (·.costMicrousd)).sum +
          ((run history).turns.map (·.costMicrousd)).sum ≤ limit
  /-- Of the operations with one request all but the latest have failed and may be retried. -/
  retried : ∀ history, (run history).admissions.Pairwise fun earlier later =>
    earlier.canonicalRequestFingerprint = later.canonicalRequestFingerprint →
      FailedForRetry (run history).outcomes earlier.operationId
  /-- Making a call again at once changes nothing. -/
  repeated_at_once : ∀ history now now' call, now ≤ now' →
    run (history ++ [(now, call), (now', call)]) = run (history ++ [(now, call)])
  /-- Making a call again at any later time changes nothing, unless it was premature. -/
  repeated_later : ∀ earlier later now now' call, now ≤ now' →
    ¬ (run earlier).Premature now call →
      run (earlier ++ (now, call) :: later ++ [(now', call)]) =
        run (earlier ++ (now, call) :: later)

namespace ControllerRun
variable {r : ControllerRun} {profile : TaskPolicyProfile} {deadlineAt startedAt : Option Nat}

theorem after_append (r : ControllerRun) (earlier later : List (Nat × ControllerCall)) :
    r.after errorDigest (earlier ++ later) =
      (r.after errorDigest earlier).after errorDigest later :=
  List.foldl_append

/-- What is put on record is in time and leaves the cost within its limit. -/
theorem Accounted.fits_of_recorded (h : r.Accounted) {now : Nat} {call : ControllerCall}
    (hrecorded : (r.takeCall errorDigest now call).admissions ≠ r.admissions ∨
      (r.takeCall errorDigest now call).turns ≠ r.turns) :
    r.controller.deadlinePassed now = false ∧
      ToolUseController.exceeds r.controller.costMicrousd r.controller.costLimitMicrousd =
        false := by
  have heffect := h.effect errorDigest now call
  generalize r.takeCall errorDigest now call = next at heffect hrecorded
  cases heffect with
  | unchanged => simp at hrecorded
  | admitted hadmissible =>
      obtain ⟨htime, -, -, hcost⟩ :=
        ToolUseController.hardLimitFeedback_eq_none_iff.mp hadmissible.fits
      exact ⟨htime, hcost⟩
  | folded => simp at hrecorded
  | turned hadmissible =>
      obtain ⟨htime, -, -, hcost⟩ :=
        ToolUseController.hardLimitFeedback_eq_none_iff.mp hadmissible.fits
      exact ⟨htime, exceeds_mono (fun bound hbound => ⟨bound, le_rfl, hbound⟩)
        (Nat.le_add_right _ _) hcost⟩
  | bound => simp at hrecorded

variable (profile deadlineAt startedAt) in
theorem withinBudget_after {earlier : List (Nat × ControllerCall)}
    {record : TaskPolicyBudgetRecord} (hfirst : firstBudget earlier = some record)
    (later : List (Nat × ControllerCall)) :
    WithinBudget record
      ((start profile deadlineAt startedAt).after errorDigest earlier).admissions.length
      ((start profile deadlineAt startedAt).after errorDigest earlier).turns.length
      ((start profile deadlineAt startedAt).after errorDigest (earlier ++ later)) := by
  rw [after_append]
  refine WithinBudget.after errorDigest ⟨?_, ?_, ?_⟩ (accounted_after errorDigest earlier) later
  · rw [(accounted_start profile deadlineAt startedAt).budget_after, hfirst]
    rfl
  · exact fun limit _ => le_max_left _ _
  · exact fun limit _ => le_max_left _ _

end ControllerRun

section Laws
variable (profile : TaskPolicyProfile) (deadlineAt startedAt : Option Nat)

open ControllerRun in
/-- A controller keeps to the limits of its profile and its budget, and counts nothing twice. -/
theorem controller_laws_hold :
    ControllerLaws profile deadlineAt startedAt
      ((start profile deadlineAt startedAt).after errorDigest) := by
  have haccounted : ∀ history,
      ((start profile deadlineAt startedAt).after errorDigest history).Accounted :=
    accounted_after errorDigest
  have hprofile : ∀ history,
      ((start profile deadlineAt startedAt).after errorDigest history).controller.profile =
        profile := profile_after errorDigest
  have hsnoc : ∀ history now call,
      (start profile deadlineAt startedAt).after errorDigest (history ++ [(now, call)]) =
        ((start profile deadlineAt startedAt).after errorDigest history).takeCall errorDigest
          now call := fun history now call => after_append errorDigest _ history _
  refine {
    within_profile := fun history => ⟨fun limit hlimit => ?_, fun limit hlimit => ?_⟩
    within_budget := fun earlier later record hfirst =>
      ⟨fun hnone limit hlimit => ?_, fun hnone limit hlimit => ?_⟩
    within_capability := fun history capabilityId limit hlimit => ?_
    in_time := fun history now call hrecorded => ?_
    retried := fun history => (haccounted history).retried
    repeated_at_once := fun history now now' call hnow => ?_
    repeated_later := fun earlier later now now' call hnow hfinal => ?_ }
  · exact (haccounted history).within_total limit (by rw [hprofile]; exact hlimit)
  · exact (haccounted history).within_turns limit (by rw [hprofile]; exact hlimit)
  · have hwithin := (withinBudget_after errorDigest profile deadlineAt startedAt hfirst
      later).operations limit
      (by rw [hprofile]; exact hlimit)
    simpa [hnone] using hwithin
  · have hwithin := (withinBudget_after errorDigest profile deadlineAt startedAt hfirst
      later).modelTurns limit
      (by rw [hprofile]; exact hlimit)
    simpa [hnone] using hwithin
  · exact (haccounted history).within_calls capabilityId limit (by rw [hprofile]; exact hlimit)
  · rw [hsnoc] at hrecorded
    obtain ⟨htime, hcost⟩ := (haccounted history).fits_of_recorded errorDigest hrecorded
    have hbudget := (accounted_start profile deadlineAt startedAt).budget_after errorDigest history
    have htimed := (timed_start profile deadlineAt startedAt).after errorDigest
      (accounted_start profile deadlineAt startedAt) history
    have hfirst : ((start profile deadlineAt startedAt).after errorDigest
        history).controller.budgetRecord = firstBudget history := hbudget
    constructor
    · intro deadline hdeadline
      have heq := htimed.deadline
      rw [hfirst, hdeadline] at heq
      simpa [ToolUseController.deadlinePassed, heq] using htime
    · intro limit hlimit
      rw [← (haccounted history).cost]
      refine ToolUseController.exceeds_eq_false_iff.mp hcost limit ?_
      rw [ToolUseController.costLimitMicrousd, hprofile, hfirst]
      exact hlimit
  · have hpair : history ++ [(now, call), (now', call)] =
        (history ++ [(now, call)]) ++ [(now', call)] := by simp
    rw [hpair, hsnoc, hsnoc]
    exact (haccounted history).repeated_at_once errorDigest hnow
  · rw [hsnoc]
    refine (haccounted earlier).repeated errorDigest hnow (haccounted _) ?_ hfinal
    have hsplit : earlier ++ (now, call) :: later = (earlier ++ [(now, call)]) ++ later := by simp
    rw [hsplit, after_append, hsnoc]
    exact ((haccounted earlier).takeCall errorDigest now call).extends_after errorDigest later

end Laws

/-! ### A refused request that is admitted later -/

def unlimitedProfile : TaskPolicyProfile where
  modelTurnLimit := none
  totalToolCallLimit := none
  toolCallLimits := Dict.empty
  costLimitMicrousd := none
  wallTimeLimitSeconds := none
  enforceExactDuplicates := true
  enforceUnchangedErrors := true
  maxSourceHistory := 256
  semanticHistoryLimit := 8
  lowYieldStreakThreshold := 2
  objectiveEvidenceThreshold := none

/-- A request to search, as the operation with this id. -/
def searchIntent (operationId : String) : ToolUseIntent where
  operationId := operationId
  capabilityId := "search"
  canonicalRequestFingerprint :=
    "a3c1f0b2a3c1f0b2a3c1f0b2a3c1f0b2a3c1f0b2a3c1f0b2a3c1f0b2a3c1f0b2"
  planStepId := none
  objective := none
  expectedEvidenceKind := none
  semanticFingerprint := none
  objectiveFingerprint := none

/-- The search timed out. -/
def searchTimeout (operationId : String) : ToolOperationOutcome where
  operationId := operationId
  capabilityId := "search"
  succeeded := false
  errorClass := some "timeout"
  retryable := true
  evidenceRefs := []
  sourceFingerprints := []
  resultFingerprint := none
  evidenceFingerprint := none
  errorFingerprint := none
  costMicrousd := 0
  error_present := fun _ => ⟨"timeout", rfl, by decide⟩
  no_error_on_success := fun h => absurd h (by decide)
  sources_unique := List.nodup_nil

/-- A second search is refused while the first is pending, and admitted after its failure. -/
theorem refused_request_is_admitted_later :
    ¬ ∀ (errorDigest : String → String → String → String) (profile : TaskPolicyProfile)
        (deadlineAt startedAt : Option Nat) (earlier later : List (Nat × ControllerCall))
        (now now' : Nat) (call : ControllerCall),
      (earlier ++ (now, call) :: later ++ [(now', call)]).Pairwise (fun a b => a.1 ≤ b.1) →
        (ControllerRun.start profile deadlineAt startedAt).after errorDigest
            (earlier ++ (now, call) :: later ++ [(now', call)]) =
          (ControllerRun.start profile deadlineAt startedAt).after errorDigest
            (earlier ++ (now, call) :: later) := by
  intro h
  have hsame := h (fun _ _ _ => "error") unlimitedProfile none none
    [(0, .beforeOperation (searchIntent "first"))] [(2, .afterOperation (searchTimeout "first"))] 1 3
    (.beforeOperation (searchIntent "second")) (by decide)
  have hcount := congrArg (fun r => r.admissions.length) hsame
  revert hcount
  decide

end CopilotRuntime.TaskPolicy
