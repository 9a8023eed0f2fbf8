import CopilotRuntime.Budgets.Charges

/-!
# Hard caps under concurrent preflights

A preflight compares its estimate with the spend its lookup reported and
reserves in a later step. The cap holds as long as no other preflight reserves
on the budget in between. A run that is looked at again is measured against
its own reservation.

## Implementation notes

Preflights charge and consume nothing, so the spend of every period and the
reservations at any moment are those of the first store with the reservations
made since.
-/

namespace CopilotRuntime.Budgets

open Foundation

abbrev PreflightEvent := Event BudgetOp BudgetOp.Reply PreflightRequest

/-- The reservation an event made. -/
def madeReservation : PreflightEvent → Option BudgetReservationRecord
  | .performed _ (.reserve _ _ _ _ _ _) reply => reply
  | _ => none

/-- The reservations made in a run of the system, in order. -/
def made (trace : List PreflightEvent) : List BudgetReservationRecord :=
  trace.filterMap madeReservation

theorem made_snoc (trace : List PreflightEvent) (event : PreflightEvent) :
    made (trace ++ [event]) = made trace ++ (madeReservation event).toList := by
  unfold made
  rw [List.filterMap_append]
  cases hmade : madeReservation event <;> simp [hmade]

/-- What reservations hold against a budget in a period. -/
def heldOn (key : PeriodKey) (reservations : List BudgetReservationRecord) : Int × Int :=
  let held := reservations.filter (BudgetStore.holds key)
  (((held.map fun r => r.reservedMicroUsd).sum : Nat),
    ((held.map fun r => r.reservedTokens).sum : Nat))

theorem heldOn_append (key : PeriodKey) (first second : List BudgetReservationRecord) :
    heldOn key (first ++ second) = heldOn key first + heldOn key second := by
  simp [heldOn]

/-- Reservations made elsewhere hold nothing here. -/
theorem heldOn_eq_zero {key : PeriodKey} {reservations : List BudgetReservationRecord}
    (h : ∀ r ∈ reservations, ¬ (r.budgetId = key.1 ∧ r.periodStart = key.2)) :
    heldOn key reservations = 0 := by
  have hnone : reservations.filter (BudgetStore.holds key) = [] := by
    apply List.filter_eq_nil_iff.mpr
    intro r hr hholds
    simp only [BudgetStore.holds, Bool.and_eq_true, beq_iff_eq] at hholds
    exact h r hr hholds.1
  rw [heldOn, hnone]
  rfl

/-- The recorded spend of a budget in a period with everything reserved there. -/
def occupied (s : BudgetStore) (key : PeriodKey) : Int × Int :=
  (recorded s key).1 + heldOn key s.reservations.values

/-- The period a budget is in at an instant. -/
def keyAt (b : BudgetRecord) (now : Nat) : PeriodKey :=
  (b.id, (BudgetPeriodCalculator.window b.period now).periodStart)

/-- A lookup reports what is occupied. -/
theorem currentSpend_inflatedState (s : BudgetStore) (b : BudgetRecord) (now : Nat) :
    currentSpend ⟨b, s.inflatedState b now⟩ = occupied s (keyAt b now) := by
  have hheld : heldOn (keyAt b now) s.reservations.values =
      ((s.reservedMicro (keyAt b now) : Int), (s.reservedTokens (keyAt b now) : Int)) := rfl
  rw [occupied, hheld]
  unfold recorded BudgetStore.inflatedState keyAt
  dsimp only
  cases s.budgetStates.get? (b.id, (BudgetPeriodCalculator.window b.period now).periodStart) with
  | some state => rfl
  | none =>
      dsimp only
      split
      · simp [currentSpend]
      · next hnone =>
          simp only [gt_iff_lt, not_or, Nat.not_lt, Nat.le_zero] at hnone
          simp [currentSpend, hnone]

/-- The spend, with an estimate on top, stays under both limits. -/
def leavesRoom (b : BudgetRecord) (spend : Int × Int) (e : BudgetEstimate) : Bool :=
  withinLimit b.limitMicroUsd spend.1 e.micro && withinLimit b.limitTokens spend.2 e.tokens

/-- The spend is under both limits. -/
def underLimits (b : BudgetRecord) (spend : Int × Int) : Prop :=
  (∀ limit, b.limitMicroUsd = some limit → spend.1 ≤ limit) ∧
    ∀ limit, b.limitTokens = some limit → spend.2 ≤ limit

theorem underLimits_of_leavesRoom {b : BudgetRecord} {spend : Int × Int} {e : BudgetEstimate}
    (h : leavesRoom b spend e = true) : underLimits b (spend + ((e.micro : Int), (e.tokens : Int))) := by
  obtain ⟨hmicro, htokens⟩ := Bool.and_eq_true_iff.mp h
  constructor
  · intro limit hlimit
    simpa [withinLimit, hlimit] using hmicro
  · intro limit hlimit
    simpa [withinLimit, hlimit] using htokens

/-- An active budget that stops runs at some limit. -/
structure HardLimited (b : BudgetRecord) : Prop where
  active : b.status = .active
  hard : b.enforcement = .hard
  limited : b.limitMicroUsd ≠ none ∨ b.limitTokens ≠ none

/-- Budgets are stored under their ids. -/
def BudgetStore.Keyed (s : BudgetStore) : Prop :=
  ∀ id b, s.budgets.get? id = some b → b.id = id

theorem BudgetStore.Keyed.unique {s : BudgetStore} (keyed : s.Keyed) {b b' : BudgetRecord}
    (hb : b ∈ s.budgets.values) (hb' : b' ∈ s.budgets.values) (hid : b.id = b'.id) : b = b' := by
  obtain ⟨id, hget⟩ := Dict.mem_values_iff.mp hb
  obtain ⟨id', hget'⟩ := Dict.mem_values_iff.mp hb'
  rw [← keyed id b hget, hid, keyed id' b' hget', hget'] at hget
  exact (Option.some.inj hget).symm

/-- The event is a lookup of the task. -/
def IsLookup (n : Nat) (event : PreflightEvent) : Prop :=
  ∃ orgId userId now reply, event = .performed n (.lookup orgId userId now) reply

/-- A reservation on a hard budget is not raced: nothing was reserved there in the period since
the lookup of the task that makes it. -/
def Unraced (s₀ : BudgetStore) (earlier : List PreflightEvent) (event : PreflightEvent) : Prop :=
  ∀ record, madeReservation event = some record →
    ∀ b ∈ s₀.budgets.values, b.id = record.budgetId → HardLimited b →
      ∀ before lookup since, earlier = before ++ lookup :: since → IsLookup event.task lookup →
        ∀ other ∈ made since,
          ¬ (other.budgetId = record.budgetId ∧ other.periodStart = record.periodStart)

/-- The entries are budgets of the first store, with what is occupied after the events. -/
def Reports (s₀ : BudgetStore) (earlier : List PreflightEvent) (now : Nat)
    (entries : List BudgetWithState) : Prop :=
  ∀ entry ∈ entries, entry.budget ∈ s₀.budgets.values ∧
    currentSpend entry = (recorded s₀ (keyAt entry.budget now)).1 +
      heldOn (keyAt entry.budget now) (s₀.reservations.values ++ made earlier)

/-- A lookup reports what is occupied at that moment. -/
def Looked (s₀ : BudgetStore) (earlier : List PreflightEvent) : PreflightEvent → Prop
  | .performed _ (.lookup _ _ now) reply => Reports s₀ earlier now reply
  | _ => True

/-- The first store replayed with the reservations made since. -/
structure Replayed (s₀ : BudgetStore) (trace : List PreflightEvent) (s : BudgetStore) : Prop where
  budgets : s.budgets = s₀.budgets
  states : s.budgetStates = s₀.budgetStates
  reservations : s.reservations.values = s₀.reservations.values ++ made trace
  looked : EachAfter (Looked s₀) trace
  capped : EachAfter (Unraced s₀) trace → ∀ b ∈ s₀.budgets.values, HardLimited b →
    ∀ record ∈ made trace, record.budgetId = b.id →
      underLimits b (occupied s (b.id, record.periodStart))

section Replaying
variable {s₀ s : BudgetStore} {trace : List PreflightEvent}

theorem Replayed.occupied_eq (h : Replayed s₀ trace s) (key : PeriodKey) :
    occupied s key = (recorded s₀ key).1 + heldOn key (s₀.reservations.values ++ made trace) := by
  rw [occupied, h.reservations, recorded, h.states]
  rfl

theorem Replayed.init : Replayed s₀ [] s₀ where
  budgets := rfl
  states := rfl
  reservations := by simp [made]
  looked := eachAfter_nil
  capped _ _ _ _ record hrecord := by cases hrecord

/-- An event that leaves the store alone and reserves nothing keeps the replay. -/
theorem Replayed.quiet (h : Replayed s₀ trace s) {event : PreflightEvent}
    (hmade : madeReservation event = none) (hlooked : Looked s₀ trace event) :
    Replayed s₀ (trace ++ [event]) s where
  budgets := h.budgets
  states := h.states
  reservations := by simpa [made_snoc, hmade] using h.reservations
  looked := eachAfter_snoc.mpr ⟨h.looked, hlooked⟩
  capped hunraced := by
    rw [made_snoc, hmade]
    simpa using h.capped (eachAfter_snoc.mp hunraced).1

theorem Replayed.looked_lookup (h : Replayed s₀ trace s) (n : Nat) (orgId userId : String)
    (now : Nat) :
    Looked s₀ trace (.performed n (.lookup orgId userId now)
      (s.lookupBudgetsForRun orgId userId now)) := by
  intro entry hentry
  have hmem := (List.mem_insertionSort _).mp hentry
  obtain ⟨b, hb, rfl⟩ := List.mem_map.mp hmem
  refine ⟨h.budgets ▸ (List.mem_filter.mp hb).1, ?_⟩
  rw [currentSpend_inflatedState, h.occupied_eq]

/-- What a task may do after its lookup: reserve an estimate that fits under an active budget. -/
def Fitting (r : PreflightRequest) (e : BudgetEstimate) (entries : List BudgetWithState) :
    BudgetOp → Prop
  | .resolveEstimate _ => True
  | .reserve budgetId periodStart runId micro tokens _ =>
      ∃ entry ∈ entries, isActive entry = true ∧ withinLimits entry e = true ∧
        (budgetId, periodStart) = keyAt entry.budget r.now ∧ runId = r.runId ∧
        micro = e.micro ∧ tokens = e.tokens
  | _ => False

theorem heldOn_self {record : BudgetReservationRecord} {key : PeriodKey}
    (hbudget : record.budgetId = key.1) (hperiod : record.periodStart = key.2)
    (hlive : record.consumedAt = none) :
    heldOn key [record] = ((record.reservedMicroUsd : Int), (record.reservedTokens : Int)) := by
  have hholds : BudgetStore.holds key record = true := by
    simp [BudgetStore.holds, hbudget, hperiod, hlive]
  simp [heldOn, hholds]

/-- A new reservation adds what it holds. -/
theorem occupied_reserve (key : PeriodKey) (record : BudgetReservationRecord) {id : String}
    (hfresh : s.reservations.get? id = none) :
    occupied { s with reservations := s.reservations.set id record } key =
      occupied s key + heldOn key [record] := by
  unfold occupied
  rw [Dict.values_set_of_get?_none record hfresh, heldOn_append, ← add_assoc]
  rfl

variable {n : Nat} {orgId userId : String} {entries : List BudgetWithState}

/-- What a lookup reported is still what is occupied when nothing was reserved there since. -/
theorem Replayed.currentSpend_eq (h : Replayed s₀ trace s) {now : Nat} {before since : List PreflightEvent}
    (htrace : trace = before ++ .performed n (.lookup orgId userId now) entries :: since)
    {entry : BudgetWithState} (hentry : entry ∈ entries)
    (hquiet : ∀ record ∈ made since, ¬ (record.budgetId = entry.budget.id ∧
      record.periodStart = (keyAt entry.budget now).2)) :
    entry.budget ∈ s₀.budgets.values ∧ currentSpend entry = occupied s (keyAt entry.budget now) := by
  have hreports : Reports s₀ before now entries := h.looked before _ since htrace
  obtain ⟨hmem, hspend⟩ := hreports entry hentry
  have hmade : made trace = made before ++ made since := by
    rw [htrace, made, List.filterMap_append, List.filterMap_cons_none (by rfl)]
    rfl
  have hzero : heldOn (keyAt entry.budget now) (made since) = 0 := heldOn_eq_zero hquiet
  refine ⟨hmem, ?_⟩
  rw [hspend, h.occupied_eq, hmade, ← List.append_assoc, heldOn_append _ _ (made since), hzero,
    add_zero]

theorem Replayed.underLimits_of_unraced (h : Replayed s₀ trace s) (keyed : s₀.Keyed) {now : Nat}
    {e : BudgetEstimate} (hlookup : .performed n (.lookup orgId userId now) entries ∈ trace)
    {entry : BudgetWithState} (hentry : entry ∈ entries) (hfits : withinLimits entry e = true)
    {b : BudgetRecord} {periodStart : CivilDate}
    (hkey : (b.id, periodStart) = keyAt entry.budget now) (hb : b ∈ s₀.budgets.values)
    (hunraced : ∀ before lookup since, trace = before ++ lookup :: since → IsLookup n lookup →
      ∀ other ∈ made since, ¬ (other.budgetId = b.id ∧ other.periodStart = periodStart)) :
    underLimits b (occupied s (b.id, periodStart) + ((e.micro : Int), (e.tokens : Int))) := by
  obtain ⟨before, since, htrace⟩ := List.append_of_mem hlookup
  obtain ⟨hid, hperiod⟩ := Prod.mk.inj hkey
  have hquiet : ∀ record ∈ made since, ¬ (record.budgetId = entry.budget.id ∧
      record.periodStart = (keyAt entry.budget now).2) := by
    intro record hrecord
    have hother := hunraced before _ since htrace ⟨_, _, _, _, rfl⟩ record hrecord
    rw [hid, hperiod] at hother
    exact hother
  obtain ⟨hmem, hspend⟩ := h.currentSpend_eq htrace hentry hquiet
  obtain rfl := keyed.unique hb hmem hid
  rw [hkey, ← hspend]
  exact underLimits_of_leavesRoom hfits

/-- A reservation that is not raced leaves its budget under the limits. -/
theorem Replayed.reserve (h : Replayed s₀ trace s) (keyed : s₀.Keyed) {r : PreflightRequest}
    {e : BudgetEstimate} (hlookup : .performed n (.lookup orgId userId r.now) entries ∈ trace)
    {op : BudgetOp} (hop : Fitting r e entries op) {reply : op.Reply} {s' : BudgetStore}
    (env : BudgetStore.env op s reply s') : Replayed s₀ (trace ++ [Event.performed n op reply]) s' := by
  cases op with
  | resolveEstimate runId =>
      obtain rfl : s' = s := env
      exact h.quiet rfl trivial
  | lookup | charge | consume => exact hop.elim
  | reserve budgetId periodStart runId micro tokens now =>
      obtain ⟨entry, hentry, hactive, hfits, hkey, rfl, rfl, rfl⟩ := hop
      obtain ⟨freshId, hfresh, hreply, hstore⟩ := env
      unfold BudgetStore.reserveBudget at hreply hstore
      by_cases hhas : s.hasReservation budgetId r.runId = true
      · rw [if_pos hhas] at hreply hstore
        subst hreply hstore
        exact h.quiet rfl trivial
      · rw [if_neg hhas] at hreply hstore
        subst hreply hstore
        have hvalues := Dict.values_set_of_get?_none (d := s.reservations)
          (⟨freshId, budgetId, periodStart, r.runId, e.micro, e.tokens,
            now + BudgetStore.reservationTtl, none⟩ : BudgetReservationRecord) hfresh
        refine ⟨h.budgets, h.states, ?_, eachAfter_snoc.mpr ⟨h.looked, trivial⟩, ?_⟩
        · rw [made_snoc, ← List.append_assoc, ← h.reservations]
          exact hvalues
        · intro hunraced b hb hlimited record hrecord hid
          obtain ⟨hbefore, hnow⟩ := eachAfter_snoc.mp hunraced
          have hoccupied := occupied_reserve (s := s) (b.id, record.periodStart)
            (⟨freshId, budgetId, periodStart, r.runId, e.micro, e.tokens,
              now + BudgetStore.reservationTtl, none⟩ : BudgetReservationRecord) hfresh
          rw [hoccupied]
          by_cases hsame : budgetId = b.id ∧ periodStart = record.periodStart
          · obtain ⟨rfl, rfl⟩ := hsame
            rw [heldOn_self rfl rfl rfl]
            exact h.underLimits_of_unraced keyed hlookup hentry hfits hkey hb
              (hnow _ rfl b hb rfl hlimited)
          · rw [heldOn_eq_zero (by simpa using hsame), add_zero]
            rw [made_snoc] at hrecord
            rcases List.mem_append.mp hrecord with hold | hnew
            · exact h.capped hbefore b hb hlimited record hold hid
            · obtain rfl := List.mem_singleton.mp hnew
              exact (hsame ⟨hid, rfl⟩).elim

end Replaying

section Denials
variable {s₀ : BudgetStore} {r : PreflightRequest} {e : BudgetEstimate}

theorem onlyAwaits_classifyAll {entries all : List BudgetWithState}
    (hsub : ∀ entry ∈ entries, entry ∈ all ∧ isActive entry = true) :
    (classifyAll r e entries).OnlyAwaits (Fitting r e all) := by
  induction entries with
  | nil => exact .done _
  | cons entry rest ih =>
      have hrest := ih fun other hother => hsub other (List.mem_cons_of_mem _ hother)
      refine Program.OnlyAwaits.bind ?_ fun decision => hrest.bind_pure _
      obtain ⟨hmem, hactive⟩ := hsub entry List.mem_cons_self
      unfold classify
      by_cases hfits : withinLimits entry e = true
      · rw [if_pos hfits]
        refine .await ⟨entry, hmem, hactive, hfits, rfl, rfl, rfl, rfl⟩ fun reply => ?_
        cases reply with
        | none => exact .done _
        | some record => exact .done _
      · rw [if_neg hfits]
        split
        · exact .done _
        · exact .done _

/-- A budget denies on its own only where it stops the run. -/
theorem ends_classify (entry : BudgetWithState) :
    (classify r e entry).Ends fun result => ∀ decision, result = .ok decision →
      ∀ refusal, denial decision = some refusal →
        denies e entry = true ∧ refusal = refusalOf entry e := by
  unfold classify
  by_cases hfits : withinLimits entry e = true
  · rw [if_pos hfits]
    refine .await fun reply => ?_
    cases reply with
    | none =>
        refine .done fun decision hdecision refusal hdenial => ?_
        cases hdecision
        cases hdenial
    | some record =>
        refine .done fun decision hdecision refusal hdenial => ?_
        cases hdecision
        cases hdenial
  · rw [if_neg hfits]
    by_cases hsoft : entry.budget.enforcement = .soft
    · rw [if_pos hsoft]
      refine .done fun decision hdecision refusal hdenial => ?_
      cases hdecision
      cases hdenial
    · rw [if_neg hsoft]
      refine .done fun decision hdecision refusal hdenial => ?_
      cases hdecision
      cases hdenial
      have hhard : entry.budget.enforcement = .hard := by
        cases henforcement : entry.budget.enforcement with
        | soft => exact (hsoft henforcement).elim
        | hard => rfl
      exact ⟨by simp [denies, hfits, hhard], rfl⟩

theorem ends_classifyAll (entries : List BudgetWithState) :
    (classifyAll r e entries).Ends fun result => ∀ decisions, result = .ok decisions →
      ∀ refusal, decisions.findSome? denial = some refusal →
        ∃ entry ∈ entries, denies e entry = true ∧ refusal = refusalOf entry e := by
  induction entries with
  | nil =>
      refine .done fun decisions hdecisions refusal hdenial => ?_
      cases hdecisions
      cases hdenial
  | cons entry rest ih =>
      refine (ends_classify entry).bind (fun decision hdecision => ?_) fun _ _ _ h => by cases h
      refine ih.bind (fun decisions hdecisions => ?_) fun _ _ _ h => by cases h
      refine .done fun all hall refusal hdenial => ?_
      cases hall
      rw [List.findSome?_cons] at hdenial
      cases hfirst : denial decision with
      | some own =>
          rw [hfirst] at hdenial
          cases hdenial
          exact ⟨entry, List.mem_cons_self, hdecision _ rfl _ hfirst⟩
      | none =>
          rw [hfirst] at hdenial
          obtain ⟨other, hother, hdenies⟩ := hdecisions _ rfl _ hdenial
          exact ⟨other, List.mem_cons_of_mem _ hother, hdenies⟩

/-- The estimate a task works with: given at once, or the answer its provider got. -/
def UsesEstimate (events : List PreflightEvent) (n : Nat) (r : PreflightRequest)
    (e : BudgetEstimate) : Prop :=
  r.estimate = .given e ∨ r.estimate = .provider ∧
    .performed n (.resolveEstimate r.runId) (Except.ok e : Except String BudgetEstimate) ∈ events

/-- The task was denied by a budget its lookup reported. -/
def DeniedBy (events : List PreflightEvent) (n : Nat) (refusal : BudgetRefusal) : Prop :=
  ∃ r e, ∃ entries : List BudgetWithState, ∃ entry ∈ entries, .started n r ∈ events ∧
    .performed n (.lookup r.orgId r.userId r.now) entries ∈ events ∧ UsesEstimate events n r e ∧
    isActive entry = true ∧ denies e entry = true ∧ refusal = refusalOf entry e

/-- What a finished preflight says of its own events. -/
def Judged (n : Nat) (result : Except String BudgetDecision) (events : List PreflightEvent) : Prop :=
  ∀ refusal, result = .ok (.deny refusal) → DeniedBy events n refusal

theorem safe_classified (keyed : s₀.Keyed) {n : Nat} {entries : List BudgetWithState}
    {own : List PreflightEvent} (hstarted : .started n r ∈ own)
    (hlookup : .performed n (.lookup r.orgId r.userId r.now) entries ∈ own)
    (huses : UsesEstimate own n r e) :
    Safe BudgetStore.env (Replayed s₀) n (Judged n)
      (do
        let decisions ← classifyAll r e (entries.filter isActive)
        pure (aggregate decisions)) own := by
  have hactive : ∀ entry ∈ entries.filter isActive, entry ∈ entries ∧ isActive entry = true :=
    fun entry hentry => List.mem_filter.mp hentry
  have hkeeps : ∀ trace s op reply s', Fitting r e entries op →
      (∀ event ∈ own, event ∈ trace) → Replayed s₀ trace s → BudgetStore.env op s reply s' →
      Replayed s₀ (trace ++ [Event.performed n op reply]) s' := by
    intro trace s op reply s' hop hsub hinv henv
    exact hinv.reserve keyed (hsub _ hlookup) hop henv
  have hsafe := Safe.of_onlyAwaits hkeeps (onlyAwaits_classifyAll hactive)
  refine (hsafe.and_ends (ends_classifyAll _)).bind ?_ fun _ _ _ _ h => by cases h
  rintro decisions events ⟨⟨more, rfl, _⟩, hends⟩
  refine .done fun refusal hdeny => ?_
  have hdenial : decisions.findSome? denial = some refusal := by
    unfold aggregate at hdeny
    cases hfound : decisions.findSome? denial with
    | some found =>
        rw [hfound] at hdeny
        cases hdeny
        rfl
    | none =>
        rw [hfound] at hdeny
        cases hwarn : decisions.findSome? warning <;> simp [hwarn] at hdeny
  obtain ⟨entry, hentry, hdenies, rfl⟩ := hends decisions rfl refusal hdenial
  obtain ⟨hmem, hisActive⟩ := hactive entry hentry
  refine ⟨r, e, entries, entry, hmem, List.mem_append_left _ hstarted,
    List.mem_append_left _ hlookup, ?_, hisActive, hdenies, rfl⟩
  rcases huses with hgiven | ⟨hprovider, hresolved⟩
  · exact .inl hgiven
  · exact .inr ⟨hprovider, List.mem_append_left _ hresolved⟩

/-- Preflights keep the replay, and a denial names a budget that does not fit. -/
theorem judgedVerified (keyed : s₀.Keyed) :
    Verified preflight BudgetStore.env (Replayed s₀) Judged s₀ where
  init := .init
  started _ _ _ _ h _ := h.quiet rfl trivial
  stopped _ _ _ h := h.quiet rfl trivial
  body_safe n r := by
    refine Safe.of_await fun trace s reply s' hinv _ henv => ?_
    obtain ⟨rfl, rfl⟩ := henv
    refine ⟨hinv.quiet rfl (hinv.looked_lookup n _ _ _), ?_⟩
    generalize s'.lookupBudgetsForRun r.orgId r.userId r.now = entries
    change Safe _ _ _ _ (if (entries.filter isActive).isEmpty then pure (.allow []) else do
      let estimate ← resolveEstimate r
      let decisions ← classifyAll r estimate (entries.filter isActive)
      pure (aggregate decisions)) _
    by_cases hempty : (entries.filter isActive).isEmpty = true
    · rw [if_pos hempty]
      refine .done fun refusal hdeny => ?_
      cases hdeny
    · rw [if_neg hempty]
      unfold resolveEstimate
      cases hsource : r.estimate with
      | given estimate =>
          exact safe_classified keyed (by simp) (by simp) (.inl hsource)
      | provider =>
          refine Safe.of_await fun trace s reply s' hinv _ henv => ?_
          obtain rfl : s' = s := henv
          refine ⟨hinv.quiet rfl trivial, ?_⟩
          cases reply with
          | ok estimate =>
              exact safe_classified keyed (by simp) (by simp) (.inr ⟨hsource, by simp⟩)
          | error error =>
              refine .raised fun refusal hdeny => ?_
              cases hdeny

end Denials

/-- The reservations a run already held when it was looked up. -/
def ownHeld (s₀ : BudgetStore) (before : List PreflightEvent) (runId : String) (key : PeriodKey) :
    List BudgetReservationRecord :=
  (s₀.reservations.values ++ made before).filter fun record =>
    record.runId == runId && BudgetStore.holds key record

/-- A run that is looked up while it holds a reservation on a hard budget finds room there for
its estimate a second time. -/
def FitsAgain (s₀ : BudgetStore) (trace : List PreflightEvent) : Prop :=
  ∀ before n r since e, ∀ entries : List BudgetWithState,
    trace = before ++ .performed n (.lookup r.orgId r.userId r.now) entries :: since →
    .started n r ∈ trace → UsesEstimate trace n r e →
    ∀ entry ∈ entries, HardLimited entry.budget →
      ownHeld s₀ before r.runId (keyAt entry.budget r.now) ≠ [] → withinLimits entry e = true

/-- The budget that denied the task has no room for the estimate even without what the run itself
held at the lookup. -/
def DeniedWithoutOwn (s₀ : BudgetStore) (trace : List PreflightEvent) (n : Nat)
    (refusal : BudgetRefusal) : Prop :=
  ∃ before r since e, ∃ entries : List BudgetWithState,
    trace = before ++ .performed n (.lookup r.orgId r.userId r.now) entries :: since ∧
    .started n r ∈ trace ∧ UsesEstimate trace n r e ∧
    leavesRoom refusal.budget ((refusal.currentMicroUsd, refusal.currentTokens) -
      heldOn (keyAt refusal.budget r.now)
        (ownHeld s₀ before r.runId (keyAt refusal.budget r.now))) e = false

theorem DeniedBy.withoutOwn {s₀ : BudgetStore} {trace : List PreflightEvent} {n : Nat}
    {refusal : BudgetRefusal} (h : DeniedBy trace n refusal) (hagain : FitsAgain s₀ trace) :
    DeniedWithoutOwn s₀ trace n refusal := by
  obtain ⟨r, e, entries, entry, hentry, hstarted, hlookup, huses, hactive, hdenies, rfl⟩ := h
  obtain ⟨before, since, htrace⟩ := List.append_of_mem hlookup
  have hfits : withinLimits entry e = false := by
    cases hwithin : withinLimits entry e with
    | false => rfl
    | true => simp [denies, hwithin] at hdenies
  have hlimited : HardLimited entry.budget := by
    refine ⟨by simpa [isActive] using hactive, ?_, ?_⟩
    · simpa [denies, hfits] using hdenies
    · by_contra hnone
      obtain ⟨hmicro, htokens⟩ := not_or.mp hnone
      simp only [ne_eq, Decidable.not_not] at hmicro htokens
      simp [withinLimits, withinLimit, hmicro, htokens] at hfits
  have hnone : ownHeld s₀ before r.runId (keyAt entry.budget r.now) = [] := by
    by_contra hsome
    have hroom := hagain before n r since e entries htrace hstarted huses entry hentry hlimited hsome
    rw [hfits] at hroom
    cases hroom
  refine ⟨before, r, since, e, entries, htrace, hstarted, huses, ?_⟩
  change leavesRoom entry.budget (currentSpend entry - heldOn (keyAt entry.budget r.now)
    (ownHeld s₀ before r.runId (keyAt entry.budget r.now))) e = false
  have hzero : heldOn (keyAt entry.budget r.now) [] = 0 := rfl
  rw [hnone, hzero, sub_zero]
  exact hfits

/-- A run of the system that made at most one reservation raced none. -/
theorem unraced_of_length_made_le_one {s₀ : BudgetStore} {trace : List PreflightEvent}
    (h : (made trace).length ≤ 1) : EachAfter (Unraced s₀) trace := by
  rintro earlier event later rfl record hrecord b _ _ _ before lookup since rfl _ other hother
  have hevent : made [event] = [record] := by simp [made, hrecord]
  have hall : made (before ++ lookup :: since ++ event :: later) =
      made before ++ made [lookup] ++ made since ++ made [event] ++ made later := by
    simp [made, ← List.filterMap_append]
  have hpos := List.length_pos_of_mem hother
  rw [hall, hevent] at h
  simp only [List.length_append, List.length_singleton] at h
  omega

namespace Sample

def asking (runId : String) : PreflightRequest := ⟨"org-1", "user-1", runId, .given estimate, 0⟩

theorem store_keyed : store.Keyed := by
  intro id b hget
  rw [store, Dict.get?_set] at hget
  by_cases hid : "budget-1" = id
  · rw [if_pos hid] at hget
    rw [← Option.some.inj hget, ← hid]
    rfl
  · rw [if_neg hid] at hget
    cases hget

/-- A schedule of preflights over the sample store. -/
def schedule (moves : List (Move PreflightRequest)) :
    List PreflightEvent × Pool BudgetOp BudgetOp.Reply String BudgetDecision BudgetStore :=
  Pool.play (BudgetStore.answer estimate) Budgets.preflight store moves

/-- One preflight, run to its end. -/
def alone : List (Move PreflightRequest) := [.start (asking "run-1"), .perform 0, .perform 0]

theorem alone_fitsAgain : FitsAgain store (schedule alone).1 := by
  intro before n r since e entries htrace hstarted huses entry hentry _ _
  have hevents : (schedule alone).1 = [.started 0 (asking "run-1"),
      .performed 0 (.lookup "org-1" "user-1" 0) [⟨budget, none⟩],
      .performed 0 (.reserve "budget-1" (dateOf 0) "run-1" 600000 2000 0)
        (some ⟨"r", "budget-1", dateOf 0, "run-1", 600000, 2000, 60, none⟩)] := by
    rfl
  have hlookup : .performed n (.lookup r.orgId r.userId r.now) entries ∈ (schedule alone).1 :=
    htrace ▸ List.mem_append_right _ List.mem_cons_self
  rw [hevents] at hlookup hstarted huses
  obtain ⟨rfl, rfl⟩ : n = 0 ∧ r = asking "run-1" := by simpa using hstarted
  have hentries : entries = [⟨budget, none⟩] := by
    simp only [List.mem_cons, List.not_mem_nil, or_false] at hlookup
    rcases hlookup with hevent | hevent | hevent
    · cases hevent
    · cases hevent
      rfl
    · cases hevent
  rw [hentries] at hentry
  obtain rfl := List.mem_singleton.mp hentry
  rcases huses with hgiven | ⟨hprovider, _⟩
  · obtain rfl : estimate = e := by simpa [asking] using hgiven
    decide
  · cases hprovider

/-- Both runs look the budget up before either reserves. -/
def raced : List (Move PreflightRequest) :=
  [.start (asking "run-1"), .start (asking "run-2"), .perform 0, .perform 1, .perform 0, .perform 1]

/-- The admitted run is looked at again. -/
def again : List (Move PreflightRequest) :=
  [.start (asking "run-1"), .perform 0, .perform 0, .start (asking "run-1"), .perform 1]

end Sample

end CopilotRuntime.Budgets
