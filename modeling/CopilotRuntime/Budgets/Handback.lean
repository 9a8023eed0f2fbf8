import CopilotRuntime.Budgets.Charges

/-!
# What a preflight leaves reserved

Budgets are reserved one after another while they are classified, before the
decisions are aggregated. A denial keeps what was reserved on the way, and a
run that already held a reservation is not told about it again.
-/

namespace CopilotRuntime.Budgets

open Foundation

variable {s s' : BudgetStore}

/-- The store under a fixed answer to the estimate provider. -/
def BudgetStore.envFor (provided : Except String BudgetEstimate) (op : BudgetOp) (s : BudgetStore)
    (reply : op.Reply) (s' : BudgetStore) : Prop :=
  BudgetStore.env op s reply s' ∧
    match op, reply with
    | .resolveEstimate _, reply => reply = provided
    | _, _ => True

/-- The estimate a preflight works with. -/
def usedEstimate (r : PreflightRequest) (provided : Except String BudgetEstimate) :
    Except String BudgetEstimate :=
  match r.estimate with
  | .given estimate => .ok estimate
  | .provider => provided

/-- The active budgets a preflight matches, as its lookup reports them. -/
def matchedEntries (s : BudgetStore) (r : PreflightRequest) : List BudgetWithState :=
  (s.lookupBudgetsForRun r.orgId r.userId r.now).filter isActive

/-- The store holds the reservation under the id, not yet consumed. -/
def BudgetStore.Held (s : BudgetStore) (id : String) (reservation : BudgetReservationRecord) :
    Prop :=
  s.reservations.get? id = some reservation ∧ reservation.consumedAt = none

theorem hasReservation_iff {budgetId runId : String} :
    s.hasReservation budgetId runId = true ↔
      ∃ id reservation, s.Held id reservation ∧ reservation.budgetId = budgetId ∧
        reservation.runId = runId := by
  simp only [BudgetStore.hasReservation, List.any_eq_true, Bool.and_eq_true, beq_iff_eq,
    Dict.mem_values_iff, BudgetStore.Held]
  constructor
  · rintro ⟨reservation, ⟨id, hget⟩, ⟨hbudget, hrun⟩, hlive⟩
    exact ⟨id, reservation, ⟨hget, hlive⟩, hbudget, hrun⟩
  · rintro ⟨id, reservation, ⟨hget, hlive⟩, hbudget, hrun⟩
    exact ⟨reservation, ⟨id, hget⟩, ⟨hbudget, hrun⟩, hlive⟩

/-- What classifying budgets for a run adds to the store. -/
structure Reserved (r : PreflightRequest) (s s' : BudgetStore)
    (added : List BudgetReservationRecord) : Prop where
  held : ∀ id reservation, s'.Held id reservation ↔
    s.Held id reservation ∨ (reservation ∈ added ∧ reservation.reservationId = id)
  live : ∀ reservation ∈ added, reservation.consumedAt = none
  fresh : ∀ reservation ∈ added, s.reservations.get? reservation.reservationId = none
  kept : ∀ id reservation, s.reservations.get? id = some reservation →
    s'.reservations.get? id = some reservation

theorem Reserved.refl (r : PreflightRequest) (s : BudgetStore) : Reserved r s s [] where
  held id reservation := by simp
  live := by simp
  fresh := by simp
  kept _ _ h := h

theorem Reserved.trans {r : PreflightRequest} {a b c : BudgetStore}
    {first second : List BudgetReservationRecord} (hab : Reserved r a b first)
    (hbc : Reserved r b c second) : Reserved r a c (first ++ second) where
  held id reservation := by
    rw [hbc.held, hab.held]
    constructor
    · rintro ((hold | ⟨hmem, hid⟩) | ⟨hmem, hid⟩)
      · exact .inl hold
      · exact .inr ⟨List.mem_append_left _ hmem, hid⟩
      · exact .inr ⟨List.mem_append_right _ hmem, hid⟩
    · rintro (hold | ⟨hmem, hid⟩)
      · exact .inl (.inl hold)
      · rcases List.mem_append.mp hmem with hmem | hmem
        · exact .inl (.inr ⟨hmem, hid⟩)
        · exact .inr ⟨hmem, hid⟩
  live reservation hmem := by
    rcases List.mem_append.mp hmem with hmem | hmem
    · exact hab.live reservation hmem
    · exact hbc.live reservation hmem
  fresh reservation hmem := by
    rcases List.mem_append.mp hmem with hmem | hmem
    · exact hab.fresh reservation hmem
    · cases hget : a.reservations.get? reservation.reservationId with
      | none => rfl
      | some old =>
          have hnone := hbc.fresh reservation hmem
          rw [hab.kept _ _ hget] at hnone
          cases hnone
  kept id reservation h := hbc.kept id reservation (hab.kept id reservation h)

variable {r : PreflightRequest} {e : BudgetEstimate} {provided : Except String BudgetEstimate}

variable {result : Except String BudgetDecision}

/-- Reserving adds one reservation of the run, unless the run already holds one. -/
theorem reserved_reserveAndAllow {entry : BudgetWithState}
    (h : (reserveAndAllow entry r e).Completes (BudgetStore.envFor provided) s result s') :
    ∃ added, result = .ok (.allow added) ∧ Reserved r s s' added ∧
      (added = [] ↔ s.hasReservation entry.budget.id r.runId = true) := by
  obtain ⟨reply, next, ⟨⟨freshId, hfresh, hreply, hnext⟩, _⟩, hrest⟩ :=
    Program.completes_await h
  unfold BudgetStore.reserveBudget at hreply hnext
  by_cases hhas : s.hasReservation entry.budget.id r.runId = true
  · rw [if_pos hhas] at hreply hnext
    subst hreply hnext
    obtain ⟨rfl, rfl⟩ := Program.completes_done hrest
    exact ⟨[], rfl, .refl r _, by simp [hhas]⟩
  · rw [if_neg hhas] at hreply hnext
    subst hreply
    obtain ⟨rfl, rfl⟩ := Program.completes_done hrest
    refine ⟨_, rfl, ?_, by simp [hhas]⟩
    subst hnext
    refine ⟨fun id reservation => ?_, by simp, by simpa using hfresh, fun id reservation hget => ?_⟩
    · simp only [BudgetStore.Held, Dict.get?_set, List.mem_singleton]
      by_cases hid : freshId = id
      · subst hid
        rw [if_pos rfl, hfresh]
        constructor
        · rintro ⟨hsome, _⟩
          obtain rfl := Option.some.inj hsome
          exact .inr ⟨rfl, rfl⟩
        · rintro (⟨hnone, _⟩ | ⟨rfl, _⟩)
          · cases hnone
          · exact ⟨rfl, rfl⟩
      · rw [if_neg hid]
        constructor
        · exact .inl
        · rintro (hold | ⟨rfl, hother⟩)
          · exact hold
          · exact (hid hother).elim
    · have hne : freshId ≠ id := by
        rintro rfl
        rw [hfresh] at hget
        cases hget
      exact (Dict.get?_set_of_ne _ _ hne).trans hget

/-- One budget is reserved, warns, or denies. -/
theorem reserved_classify {entry : BudgetWithState}
    (h : (classify r e entry).Completes (BudgetStore.envFor provided) s result s') :
    ∃ decision, result = .ok decision ∧ Reserved r s s' (allowedReservations decision) ∧
      (allowedReservations decision = [] ↔
        (withinLimits entry e = true → s.hasReservation entry.budget.id r.runId = true)) ∧
      ((denial decision).isSome ↔ denies e entry = true) := by
  unfold classify at h
  by_cases hwithin : withinLimits entry e = true
  · rw [if_pos hwithin] at h
    obtain ⟨added, rfl, hreserved, hempty⟩ := reserved_reserveAndAllow h
    refine ⟨_, rfl, hreserved, ?_, ?_⟩
    · simpa [allowedReservations, hwithin] using hempty
    · simp [denial, denies, hwithin]
  · rw [if_neg hwithin] at h
    by_cases hsoft : entry.budget.enforcement = .soft
    · rw [if_pos hsoft] at h
      obtain ⟨rfl, rfl⟩ := Program.completes_done h
      refine ⟨_, rfl, .refl r _, by simp [allowedReservations, hwithin], ?_⟩
      simp [denial, denies, hsoft]
    · rw [if_neg hsoft] at h
      obtain ⟨rfl, rfl⟩ := Program.completes_done h
      have hhard : entry.budget.enforcement = .hard := by
        cases henforcement : entry.budget.enforcement with
        | soft => exact (hsoft henforcement).elim
        | hard => rfl
      refine ⟨_, rfl, .refl r _, by simp [allowedReservations, hwithin], ?_⟩
      simp [denial, denies, hwithin, hhard]

/-- Whether a run holds a reservation on other budgets does not change while it reserves none. -/
theorem hasReservation_of_reserved_nil {s s' : BudgetStore} (h : Reserved r s s' [])
    (budgetId runId : String) :
    s'.hasReservation budgetId runId = s.hasReservation budgetId runId := by
  rw [Bool.eq_iff_iff, hasReservation_iff, hasReservation_iff]
  simp [h.held]

theorem reserved_classifyAll {entries : List BudgetWithState}
    {result : Except String (List BudgetDecision)}
    (h : (classifyAll r e entries).Completes (BudgetStore.envFor provided) s result s') :
    ∃ decisions, result = .ok decisions ∧
      Reserved r s s' (decisions.flatMap allowedReservations) ∧
      (decisions.flatMap allowedReservations = [] ↔
        ∀ entry ∈ entries, withinLimits entry e = true →
          s.hasReservation entry.budget.id r.runId = true) ∧
      ((decisions.findSome? denial).isSome ↔ entries.any (denies e) = true) := by
  induction entries generalizing s s' result with
  | nil =>
      obtain ⟨rfl, rfl⟩ := Program.completes_done h
      exact ⟨[], rfl, .refl r _, by simp, by simp⟩
  | cons entry rest ih =>
      rcases h.bind_cases with ⟨decision, next, hfirst, hthen⟩ | ⟨error, _, herror⟩
      · obtain ⟨decision', hdecision, hreserved, hempty, hdenial⟩ := reserved_classify hfirst
        obtain rfl := Except.ok.inj hdecision
        rcases hthen.bind_cases with ⟨decisions, last, hrest, hreturn⟩ | ⟨error, _, herror⟩
        · obtain ⟨decisions', hdecisions, hmore, hmoreEmpty, hmoreDenial⟩ := ih hrest
          obtain rfl := Except.ok.inj hdecisions
          obtain ⟨rfl, rfl⟩ := Program.completes_done hreturn
          refine ⟨_, rfl, ?_, ?_, ?_⟩
          · rw [List.flatMap_cons]
            exact hreserved.trans hmore
          · rw [List.flatMap_cons, List.append_eq_nil_iff, List.forall_mem_cons]
            constructor
            · rintro ⟨hnone, hnoneMore⟩
              rw [hnone] at hreserved
              refine ⟨hempty.mp hnone, fun other hother hwithin => ?_⟩
              rw [← hasReservation_of_reserved_nil hreserved]
              exact hmoreEmpty.mp hnoneMore other hother hwithin
            · rintro ⟨hhas, hothers⟩
              have hnone := hempty.mpr hhas
              rw [hnone] at hreserved
              refine ⟨hnone, hmoreEmpty.mpr fun other hother hwithin => ?_⟩
              rw [hasReservation_of_reserved_nil hreserved]
              exact hothers other hother hwithin
          · rw [List.findSome?_cons, List.any_cons, Bool.or_eq_true, ← hdenial, ← hmoreDenial]
            cases denial decision <;> simp
        · obtain ⟨decisions', hdecisions, _⟩ := ih herror
          cases hdecisions
      · obtain ⟨decision', hdecision, _⟩ := reserved_classify herror
        cases hdecision

theorem completes_resolveEstimate {result : Except String BudgetEstimate}
    (h : (resolveEstimate r).Completes (BudgetStore.envFor provided) s result s') :
    result = usedEstimate r provided ∧ s' = s := by
  unfold resolveEstimate at h
  unfold usedEstimate
  cases hsource : r.estimate with
  | given estimate =>
      rw [hsource] at h
      exact Program.completes_done h
  | provider =>
      rw [hsource] at h
      obtain ⟨reply, next, ⟨hnext, hreply⟩, hrest⟩ := Program.completes_await h
      obtain rfl : reply = provided := hreply
      obtain rfl : next = s := hnext
      cases reply with
      | ok estimate => exact Program.completes_done hrest
      | error error => exact Program.completes_raised hrest

/-- A preflight that decided had an estimate, unless it matched no active budget. -/
theorem completes_preflight
    (h : (preflight r).Completes (BudgetStore.envFor provided) s result s') :
    (matchedEntries s r = [] ∧ result = .ok (.allow []) ∧ s' = s) ∨
      (∃ error, usedEstimate r provided = .error error ∧ result = .error error) ∨
      ∃ estimate decisions, usedEstimate r provided = .ok estimate ∧
        (classifyAll r estimate (matchedEntries s r)).Completes (BudgetStore.envFor provided) s
          (.ok decisions) s' ∧
        result = .ok (aggregate decisions) := by
  obtain ⟨reply, next, ⟨⟨hreply, hnext⟩, _⟩, hrest⟩ := Program.completes_await h
  obtain rfl : next = s := hnext
  obtain rfl : reply = next.lookupBudgetsForRun r.orgId r.userId r.now := hreply
  change Program.Completes _ (if (matchedEntries next r).isEmpty then pure (.allow []) else do
    let estimate ← resolveEstimate r
    let decisions ← classifyAll r estimate (matchedEntries next r)
    pure (aggregate decisions)) next result s' at hrest
  by_cases hempty : (matchedEntries next r).isEmpty = true
  · rw [if_pos hempty] at hrest
    obtain ⟨rfl, rfl⟩ := Program.completes_done hrest
    exact .inl ⟨List.isEmpty_iff.mp hempty, rfl, rfl⟩
  · rw [if_neg hempty] at hrest
    rcases Program.Completes.bind_cases hrest with ⟨estimate, middle, hfirst, hthen⟩ | ⟨error, hresult, hfirst⟩
    · obtain ⟨hestimate, rfl⟩ := completes_resolveEstimate hfirst
      rcases Program.Completes.bind_cases hthen with ⟨decisions, last, hall, hreturn⟩ | ⟨error, _, herror⟩
      · obtain ⟨rfl, rfl⟩ := Program.completes_done hreturn
        exact .inr (.inr ⟨estimate, decisions, hestimate.symm, hall, rfl⟩)
      · obtain ⟨decisions, hdecisions, _⟩ := reserved_classifyAll herror
        cases hdecisions
    · obtain ⟨hestimate, rfl⟩ := completes_resolveEstimate hfirst
      exact .inr (.inl ⟨error, hestimate.symm, hresult⟩)

/-- Consuming reservations leaves none of them held. -/
theorem held_of_consumeAll {now : Nat} {reservations : List BudgetReservationRecord}
    {result : Except String Unit}
    (h : (consumeAll now reservations).Completes (BudgetStore.envFor provided) s result s')
    {id : String} {reservation : BudgetReservationRecord} (hheld : s'.Held id reservation) :
    s.Held id reservation ∧ id ∉ reservations.map fun r => r.reservationId := by
  induction reservations generalizing s with
  | nil =>
      obtain ⟨_, rfl⟩ := Program.completes_done h
      exact ⟨hheld, by simp⟩
  | cons first rest ih =>
      obtain ⟨reply, next, ⟨hnext, _⟩, hrest⟩ := Program.completes_await h
      obtain rfl : next = s.consumeBudgetReservation first.reservationId now := hnext
      obtain ⟨⟨hget, hlive⟩, hnot⟩ := ih hrest
      unfold BudgetStore.consumeBudgetReservation at hget
      by_cases hid : first.reservationId = id
      · subst hid
        cases hfirst : s.reservations.get? first.reservationId with
        | none => simp [hfirst] at hget
        | some record =>
            by_cases hconsumed : record.consumedAt.isSome = true
            · simp only [hfirst, if_pos hconsumed] at hget
              cases hget
              rw [hlive] at hconsumed
              cases hconsumed
            · simp only [hfirst, if_neg hconsumed, Dict.get?_set_self] at hget
              cases hget
              cases hlive
      · have hsame : s.reservations.get? id = some reservation := by
          rw [← hget]
          split
          · rfl
          · split
            · rfl
            · exact (Dict.get?_set_of_ne _ _ hid).symm
        refine ⟨⟨hsame, hlive⟩, ?_⟩
        rw [List.map_cons, List.mem_cons, not_or]
        exact ⟨fun h => hid h.symm, hnot⟩

/-- A charge leaves none of the reservations it was handed. -/
theorem not_held_of_chargeRun {c : ChargeRequest} {outcomes : List (String × ChargeOutcome)}
    (h : (chargeRun c).Completes (BudgetStore.envFor provided) s (.ok outcomes) s')
    {id : String} (hid : id ∈ c.reservations.map fun r => r.reservationId)
    (reservation : BudgetReservationRecord) : ¬ s'.Held id reservation := by
  intro hheld
  obtain ⟨reply, next, _, hrest⟩ := Program.completes_await h
  obtain ⟨_, looked, _, hcharges⟩ := Program.Completes.bind_ok hrest
  obtain ⟨charged, middle, _, hthen⟩ := Program.Completes.bind_ok hcharges
  obtain ⟨_, last, hconsume, hreturn⟩ := Program.Completes.bind_ok hthen
  obtain ⟨_, rfl⟩ := Program.completes_done hreturn
  exact (held_of_consumeAll hconsume hheld).2 hid

/-- A denial changes no reservation; an admission returns every reservation its run holds on a
matched budget, and the charge that gets them consumes each. -/
def HandsBack (r : PreflightRequest) (before after : BudgetStore) :
    Except String BudgetDecision → Prop
  | .error _ => True
  | .ok (.deny _) => ∀ id reservation, after.Held id reservation ↔ before.Held id reservation
  | .ok (.allow returned) | .ok (.warn _ returned) =>
      ∀ id reservation, after.Held id reservation → reservation.runId = r.runId →
        (∃ entry ∈ matchedEntries before r, entry.budget.id = reservation.budgetId) →
        id ∈ returned.map (fun held => held.reservationId) ∧
          ∀ charge provided charged settled outcomes, charge.reservations = returned →
            (chargeRun charge).Completes (BudgetStore.envFor provided) charged (.ok outcomes)
              settled →
            ∀ later, ¬ settled.Held id later

/-- When some matched budget denies the run, it already holds a reservation on every budget with
room; otherwise it holds none on a matched budget. -/
def Clear (r : PreflightRequest) (provided : Except String BudgetEstimate) (s : BudgetStore) :
    Prop :=
  match usedEstimate r provided with
  | .error _ => True
  | .ok estimate =>
      if (matchedEntries s r).any (denies estimate) then
        ∀ entry ∈ matchedEntries s r, withinLimits entry estimate = true →
          s.hasReservation entry.budget.id r.runId = true
      else ∀ entry ∈ matchedEntries s r, s.hasReservation entry.budget.id r.runId = false

theorem reserved_eq_nil_iff {added : List BudgetReservationRecord} (h : Reserved r s s' added) :
    (∀ id reservation, s'.Held id reservation ↔ s.Held id reservation) ↔ added = [] := by
  constructor
  · intro hsame
    cases added with
    | nil => rfl
    | cons first rest =>
        have hnew := (h.held first.reservationId first).mpr (.inr ⟨List.mem_cons_self, rfl⟩)
        have hold := (hsame _ _).mp hnew
        rw [BudgetStore.Held, h.fresh first List.mem_cons_self] at hold
        cases hold.1
  · rintro rfl id reservation
    simp [h.held]

/-- The new reservations are all the run holds on matched budgets exactly when it held none. -/
theorem returned_iff {added : List BudgetReservationRecord} (h : Reserved r s s' added) :
    (∀ id reservation, s'.Held id reservation → reservation.runId = r.runId →
      (∃ entry ∈ matchedEntries s r, entry.budget.id = reservation.budgetId) →
      id ∈ added.map fun held => held.reservationId) ↔
    ∀ entry ∈ matchedEntries s r, s.hasReservation entry.budget.id r.runId = false := by
  constructor
  · intro hall entry hentry
    rw [← Bool.not_eq_true, hasReservation_iff]
    rintro ⟨id, reservation, hheld, hbudget, hrun⟩
    have hmem := hall id reservation ((h.held _ _).mpr (.inl hheld)) hrun
      ⟨entry, hentry, hbudget.symm⟩
    obtain ⟨new, hnew, rfl⟩ := List.mem_map.mp hmem
    rw [BudgetStore.Held, h.fresh new hnew] at hheld
    cases hheld.1
  · rintro hnone id reservation hheld hrun ⟨entry, hentry, hbudget⟩
    rcases (h.held _ _).mp hheld with hold | ⟨hmem, rfl⟩
    · have hhas : s.hasReservation entry.budget.id r.runId = true :=
        hasReservation_iff.mpr ⟨id, reservation, hold, hbudget.symm, hrun⟩
      rw [hnone entry hentry] at hhas
      cases hhas
    · exact List.mem_map.mpr ⟨reservation, hmem, rfl⟩

/-- What an admission has to return is settled by the reservations alone. -/
theorem handsBack_admitted_iff {before after : BudgetStore}
    {returned : List BudgetReservationRecord} :
    (∀ id reservation, after.Held id reservation → reservation.runId = r.runId →
        (∃ entry ∈ matchedEntries before r, entry.budget.id = reservation.budgetId) →
        id ∈ returned.map (fun held => held.reservationId) ∧
          ∀ charge provided charged settled outcomes, charge.reservations = returned →
            (chargeRun charge).Completes (BudgetStore.envFor provided) charged (.ok outcomes)
              settled →
            ∀ later, ¬ settled.Held id later) ↔
      ∀ id reservation, after.Held id reservation → reservation.runId = r.runId →
        (∃ entry ∈ matchedEntries before r, entry.budget.id = reservation.budgetId) →
        id ∈ returned.map fun held => held.reservationId := by
  constructor
  · intro h id reservation hheld hrun hmatched
    exact (h id reservation hheld hrun hmatched).1
  · intro h id reservation hheld hrun hmatched
    have hmem := h id reservation hheld hrun hmatched
    refine ⟨hmem, fun charge provided charged settled outcomes hreturned hcharge => ?_⟩
    exact not_held_of_chargeRun hcharge (hreturned ▸ hmem)

/-- One preflight hands its reservations back exactly from a clear store. -/
theorem handsBack_preflight
    (h : (preflight r).Completes (BudgetStore.envFor provided) s result s') :
    HandsBack r s s' result ↔ Clear r provided s := by
  unfold Clear
  rcases completes_preflight h with ⟨hempty, rfl, rfl⟩ | ⟨error, hestimate, rfl⟩ |
    ⟨estimate, decisions, hestimate, hall, rfl⟩
  · have hback : HandsBack r s' s' (.ok (.allow [])) := by
      rintro id reservation _ _ ⟨entry, hentry, _⟩
      rw [hempty] at hentry
      cases hentry
    rw [hempty]
    cases usedEstimate r provided <;> simp [hback]
  · rw [hestimate]
    exact Iff.rfl
  · rw [hestimate]
    obtain ⟨decisions', hdecisions, hreserved, hnone, hdenial⟩ := reserved_classifyAll hall
    obtain rfl := Except.ok.inj hdecisions
    dsimp only
    unfold aggregate
    cases hdeny : decisions.findSome? denial with
    | some refusal =>
        have hany : (matchedEntries s r).any (denies estimate) = true :=
          hdenial.mp (by rw [hdeny]; rfl)
        rw [if_pos hany, ← hnone]
        exact reserved_eq_nil_iff hreserved
    | none =>
        have hany : ¬ (matchedEntries s r).any (denies estimate) = true := by
          intro hany
          have hsome := hdenial.mpr hany
          rw [hdeny] at hsome
          cases hsome
        rw [if_neg hany, ← returned_iff hreserved]
        cases decisions.findSome? warning with
        | some refusal => exact handsBack_admitted_iff
        | none => exact handsBack_admitted_iff

/-- The calls made on one store, each finished before the next. -/
inductive TurnCall
  | preflight (request : PreflightRequest)
  | charge (request : ChargeRequest)
  | consume (reservationId : String) (now : Nat)

def TurnCall.body : TurnCall → BudgetProgram BudgetDecision
  | preflight request => Budgets.preflight request
  | charge request => do
      let _ ← chargeRun request
      pure (.allow [])
  | consume reservationId now => do
      let _ ← perform (.consume reservationId now)
      pure (.allow [])

/-- One finished call, with the store it found and the store it left. -/
structure Turn where
  before : BudgetStore
  provided : Except String BudgetEstimate
  call : TurnCall
  result : Except String BudgetDecision
  after : BudgetStore

/-- Calls that follow one another from a store. -/
inductive InTurn (s₀ : BudgetStore) : List Turn → BudgetStore → Prop
  | nil : InTurn s₀ [] s₀
  | snoc {turns : List Turn} {turn : Turn} (run : InTurn s₀ turns turn.before)
      (completes : turn.call.body.Completes (BudgetStore.envFor turn.provided) turn.before
        turn.result turn.after) : InTurn s₀ (turns ++ [turn]) turn.after

theorem InTurn.completes {s₀ : BudgetStore} {turns : List Turn} (run : InTurn s₀ turns s)
    {turn : Turn} (hturn : turn ∈ turns) :
    turn.call.body.Completes (BudgetStore.envFor turn.provided) turn.before turn.result
      turn.after := by
  induction run with
  | nil => cases hturn
  | snoc _ completes ih =>
      rcases List.mem_append.mp hturn with hturn | hturn
      · exact ih hturn
      · obtain rfl := List.mem_singleton.mp hturn
        exact completes

/-- In every run of calls made in turn, a preflight hands its reservations back exactly when it
finds a clear store. -/
theorem preflight_handsBack_iff_clear {s₀ : BudgetStore} {turns : List Turn}
    (run : InTurn s₀ turns s) {turn : Turn} (hturn : turn ∈ turns)
    (hcall : turn.call = .preflight r) :
    HandsBack r turn.before turn.after turn.result ↔ Clear r turn.provided turn.before := by
  have hcompletes := run.completes hturn
  rw [hcall] at hcompletes
  exact handsBack_preflight hcompletes

namespace Sample

def preflight (runId : String) : PreflightRequest := ⟨"org-1", "user-1", runId, .provider, 0⟩

/-- Beside the budget with room, one that no run of the sample fits under. -/
def crowdedStore : BudgetStore where
  budgets := store.budgets.set "budget-2"
    { budget with id := "budget-2", limitMicroUsd := some 100000 }
  budgetStates := .empty
  reservations := .empty

/-- A call made on a store, with every estimate the same. -/
def turn (s : BudgetStore) (estimate : BudgetEstimate) (call : TurnCall) : Turn :=
  let finished := Program.runWith (BudgetStore.answer estimate) call.body s
  ⟨s, .ok estimate, call, finished.1, finished.2⟩

theorem turn_completes (s : BudgetStore) (estimate : BudgetEstimate) (call : TurnCall) :
    let made := turn s estimate call
    made.call.body.Completes (BudgetStore.envFor made.provided) made.before made.result
      made.after := by
  refine Program.completes_runWith (fun op s => ⟨BudgetStore.answer_sound estimate op s, ?_⟩) _ _
  cases op with
  | resolveEstimate runId => rfl
  | lookup | charge | reserve | consume => trivial

end Sample

/-- A budget with room is reserved, and the reservation is handed back. -/
theorem preflight_handsBack_iff_clear_sample :
    let turn := Sample.turn Sample.store Sample.estimate (.preflight (Sample.preflight "run-1"))
    HandsBack (Sample.preflight "run-1") turn.before turn.after turn.result ↔
      Clear (Sample.preflight "run-1") turn.provided turn.before :=
  preflight_handsBack_iff_clear
    (.snoc .nil (Sample.turn_completes Sample.store Sample.estimate
      (.preflight (Sample.preflight "run-1"))))
    (List.mem_singleton.mpr rfl) rfl

namespace Sample

/-- The first budget is reserved before the second denies the run. -/
def denied : Turn := turn crowdedStore estimate (.preflight (preflight "run-1"))

def small : BudgetEstimate := ⟨1000, 1000, some 400000⟩

def admitted : Turn := turn store small (.preflight (preflight "run-1"))

/-- The admitted run is looked at again and still fits. -/
def retried : Turn := turn admitted.after small (.preflight (preflight "run-1"))

end Sample

/-- A denial keeps a reservation, and the retry of an admitted run returns nothing although the
run still holds its reservation. -/
theorem denial_reserves_and_retry_forgets :
    (InTurn Sample.crowdedStore [Sample.denied] Sample.denied.after ∧
        ¬ HandsBack (Sample.preflight "run-1") Sample.denied.before Sample.denied.after
          Sample.denied.result) ∧
      InTurn Sample.store [Sample.admitted, Sample.retried] Sample.retried.after ∧
        ¬ HandsBack (Sample.preflight "run-1") Sample.retried.before Sample.retried.after
          Sample.retried.result := by
  refine ⟨⟨.snoc .nil (Sample.turn_completes _ _ _), ?_⟩,
    .snoc (.snoc .nil (Sample.turn_completes _ _ _)) (Sample.turn_completes _ _ _), ?_⟩
  · intro hback
    have hheld : Sample.denied.after.Held "r"
        ⟨"r", "budget-1", dateOf 0, "run-1", 600000, 2000, 60, none⟩ := by
      unfold BudgetStore.Held
      decide
    have hbefore := (hback _ _).mp hheld
    cases hbefore.1
  · intro hback
    have hheld : Sample.retried.after.Held "r"
        ⟨"r", "budget-1", dateOf 0, "run-1", 400000, 2000, 60, none⟩ := by
      unfold BudgetStore.Held
      decide
    have hmatched : ∃ entry ∈ matchedEntries Sample.retried.before (Sample.preflight "run-1"),
        entry.budget.id = "budget-1" := by
      decide
    obtain ⟨hreturned, _⟩ := hback _ _ hheld rfl hmatched
    cases hreturned

end CopilotRuntime.Budgets
