import CopilotRuntime.Todos.Progress

/-!
# Recurring todos, exactly once

Ticks at times that do not go back, each of which may die, make the todos of the first occurrences
of every series.

## Implementation notes

The guard of a run says of every tick, at its time and in the state in which it starts, whether it
is considered.
-/

namespace CopilotRuntime.Todos

open Foundation Program

/-- States that ticks lead to from the first one, with the time of the last tick. -/
inductive Ticked (library : RuleLibrary) (guard : Int → TodosStore → Prop) (s₀ : TodosStore) :
    Option Int → TodosStore → Prop
  | start : Ticked library guard s₀ none s₀
  | tick {last : Option Int} {s s' : TodosStore} {now : Int}
      {rest : TodoProgram MaterializeOutcome} (before : Ticked library guard s₀ last s)
      (later : ∀ t, last = some t → t ≤ now) (considered : guard now s)
      (gotTo : Reaches TodosStore.env (materializeDueSeries library now) s rest s') :
      Ticked library guard s₀ (some now) s'

variable {library : RuleLibrary} {now : Int} {s₀ s s' : TodosStore} {last : Option Int}
  {series : TodoSeriesRecord} {anchor : Date} {k : Nat} {rest : TodoProgram MaterializeOutcome}

/-- A series has not ended, and its next occurrence after the first `k` is not after today. -/
def FurtherDue (library : RuleLibrary) (now : Int) (series : TodoSeriesRecord) (anchor : Date)
    (k : Nat) : Prop :=
  series.endsAt.all (now < ·) ∧ ∃ due today,
    nextDue library series.rule series.spec (reachedDay library series k anchor) = .ok due ∧
      utcDate now = .ok today ∧ due.ordinal ≤ today.ordinal

theorem current_claimDueSeries (now : Int) (s : TodosStore) : Current s (s.claimDueSeries now) where
  found row hrow := Table.mem_rows_iff.mp (mem_claimDueSeries.mp hrow).1
  distinct := by
    have hperm := List.perm_insertionSort TodoSeriesRecord.Before
      (s.series.rows.filter fun r => r.endsAt.all (now < ·))
    apply (hperm.map TodoSeriesRecord.id).nodup_iff.mpr
    exact s.series.nodup_keys.sublist (List.filter_sublist.map _)

theorem Current.initial {rows more : List TodoSeriesRecord} (h : Current s more)
    (hrows : rows <+: more) : Current s rows where
  found row hrow := h.found row (hrows.subset hrow)
  distinct := h.distinct.sublist (hrows.sublist.map _)

/-- A tick takes a series to its next occurrence or leaves it where it was. -/
theorem Materialised.tick (h : Materialised library s₀ s last series anchor k)
    (hlast : ∀ t, last = some t → t ≤ now) (hevaluates : Evaluates library now s)
    (hreaches : Reaches TodosStore.env (materializeDueSeries library now) s rest s') :
    ∃ k', Materialised library s₀ s' (some now) series anchor k' := by
  obtain ⟨processed, hpre, hall, -, -⟩ := gotTo_materializeDueSeries hevaluates hreaches
  have hcurrent := (current_claimDueSeries now s).initial hpre
  by_cases hmem : series.id ∈ processed.map TodoSeriesRecord.id
  · obtain ⟨row, hrow, hid⟩ := List.mem_map.mp hmem
    obtain ⟨hdue, hnone⟩ := hall.among hcurrent hlast hrow hid h
    obtain ⟨day, hday⟩ := dueDay_of_evaluates hevaluates (hpre.subset hrow)
    cases day with
    | none => exact ⟨k, hnone hday⟩
    | some due => exact ⟨k + 1, hdue due hday⟩
  · exact ⟨k, hall.elsewhere hcurrent hlast hmem h⟩

/-- A completed tick takes a series to its next occurrence if this is due. -/
theorem Materialised.tick_completed {outcome : MaterializeOutcome}
    (h : Materialised library s₀ s last series anchor k)
    (hlast : ∀ t, last = some t → t ≤ now) (hevaluates : Evaluates library now s)
    (hreaches : Reaches TodosStore.env (materializeDueSeries library now) s (.done outcome) s')
    (hfurther : FurtherDue library now series anchor k) :
    Materialised library s₀ s' (some now) series anchor (k + 1) := by
  obtain ⟨processed, -, hall, -, hdone⟩ := gotTo_materializeDueSeries hevaluates hreaches
  obtain ⟨rfl, -⟩ := hdone outcome rfl
  obtain ⟨hends, due, today, hnext, htoday, hle⟩ := hfurther
  obtain ⟨t, hfound, hanchor⟩ := h.row
  have hclaimed : { series with lastMaterializedDue := t } ∈ s.claimDueSeries now :=
    mem_claimDueSeries.mpr ⟨Table.mem_rows_iff.mpr hfound, hends⟩
  have hdue : dueDay library now { series with lastMaterializedDue := t } = .ok (some due) :=
    (dueDay_eq_some_iff hanchor).mpr ⟨hnext, today, htoday, hle⟩
  have hid : ({ series with lastMaterializedDue := t } : TodoSeriesRecord).id = series.id := rfl
  exact (hall.among (current_claimDueSeries now s) hlast hclaimed hid h).1 due hdue

theorem Ticked.materialised (h : Ticked library (Evaluates library) s₀ last s)
    (hseries : series ∈ s₀.series.rows) (hanchor : seriesAnchorDate series = .ok anchor) :
    ∃ k, Materialised library s₀ s last series anchor k := by
  induction h with
  | start => exact ⟨0, materialised_zero hseries hanchor⟩
  | tick before later considered gotTo ih =>
      obtain ⟨k, hk⟩ := ih
      exact hk.tick later considered gotTo

/-! ### No day twice -/

theorem lt_of_mem_occurrences {due : Date} (h : due ∈ occurrences library series k anchor) :
    anchor.ordinal < due.ordinal := by
  induction k generalizing anchor with
  | zero => cases h
  | succ k ih =>
      cases hnext : nextDue library series.rule series.spec anchor with
      | error e =>
          rw [occurrences_of_error hnext] at h
          cases h
      | ok first =>
          have hlt := lt_nextDue hnext
          rw [occurrences_of_next hnext] at h
          obtain rfl | hlater := List.mem_cons.mp h
          · exact hlt
          · exact hlt.trans (ih hlater)

theorem nodup_occurrences : (occurrences library series k anchor).Nodup := by
  induction k generalizing anchor with
  | zero => exact List.nodup_nil
  | succ k ih =>
      cases hnext : nextDue library series.rule series.spec anchor with
      | error e =>
          rw [occurrences_of_error hnext]
          exact List.nodup_nil
      | ok first =>
          rw [occurrences_of_next hnext]
          refine List.nodup_cons.mpr ⟨fun hmem => ?_, ih⟩
          exact Nat.lt_irrefl _ (lt_of_mem_occurrences hmem)

theorem Materialised.nodup (h : Materialised library s₀ s last series anchor k) :
    (createdDues s₀ s series.id).Nodup := by
  rw [h.created]
  apply (nodup_occurrences.filter _).map
  intro d d' heq
  exact Date.isoformat_injective (Option.some.inj heq)

/-- While every claimed series can be evaluated, no tick raises, a completed tick has processed all
the series that it claimed, and each series has todos for just its first occurrences, one more
after each completed tick for which one more is due. -/
theorem ticked_exactly_once (library : RuleLibrary) (s₀ s : TodosStore) (last : Option Int)
    (h : Ticked library (Evaluates library) s₀ last s) :
    (∀ now rest s', Evaluates library now s →
      Reaches TodosStore.env (materializeDueSeries library now) s rest s' →
      (∀ e, rest ≠ .raised e) ∧ ∀ outcome, rest = .done outcome →
        outcome.seriesProcessed = (s.claimDueSeries now).length ∧
        ProcessedAll library now (s.claimDueSeries now) s s') ∧
    ∀ series ∈ s₀.series.rows, ∀ anchor, seriesAnchorDate series = .ok anchor →
      ∃ k, Materialised library s₀ s last series anchor k ∧
        (createdDues s₀ s series.id).Nodup ∧
        ∀ now outcome s', (∀ t, last = some t → t ≤ now) → Evaluates library now s →
          Reaches TodosStore.env (materializeDueSeries library now) s (.done outcome) s' →
          FurtherDue library now series anchor k →
          Materialised library s₀ s' (some now) series anchor (k + 1) := by
  constructor
  · intro now rest s' hevaluates hreaches
    obtain ⟨processed, -, hall, hraised, hdone⟩ := gotTo_materializeDueSeries hevaluates hreaches
    refine ⟨hraised, fun outcome hrest => ?_⟩
    obtain ⟨rfl, hcount⟩ := hdone outcome hrest
    exact ⟨hcount.trans (Nat.zero_add _), hall⟩
  · intro series hseries anchor hanchor
    obtain ⟨k, hk⟩ := h.materialised hseries hanchor
    exact ⟨k, hk, hk.nodup, fun now outcome s' hlast hevaluates hreaches hfurther =>
      hk.tick_completed hlast hevaluates hreaches hfurther⟩

/-! ### A tick that dies, and a series that cannot be evaluated -/

section Sample

/-- Numbers in decimal digits, and letters of the alphabet. -/
def sampleLibrary : RuleLibrary where
  int text := (Text.decimal? text.toList).map Int.ofNat
  upper text := String.ofList (text.toList.map Char.toUpper)

/-- Noon of a day of January 2024. -/
def noonOf (day : Nat) : Int := (738884 + day) * microsecondsPerDay + 43200000000

def sampleSeries (id rule spec : String) : TodoSeriesRecord where
  id := id
  tenantId := "acme"
  ownerUserId := "ada"
  rule := rule
  spec := spec
  startedAt := noonOf 1

def storeOf (series : List TodoSeriesRecord) : TodosStore where
  todos := .empty
  series := series.foldl Table.put .empty
  audits := []

def everySecondDay : TodoSeriesRecord := sampleSeries "a" "every_N_days" "every_N_days:2"

def onMondays : TodoSeriesRecord := sampleSeries "b" "rrule" "FREQ=WEEKLY;BYDAY=mo"

/-- A tick on the second Tuesday that dies before its first insert. -/
def afterDeath : TodosStore :=
  (runFor TodosStore.atOnce 2 (materializeDueSeries sampleLibrary (noonOf 9))
    (storeOf [everySecondDay, onMondays])).2

/-- The next tick, which completes. -/
def afterTick : TodosStore :=
  (runFor TodosStore.atOnce 9 (materializeDueSeries sampleLibrary (noonOf 9)) afterDeath).2

def evaluatesAll (library : RuleLibrary) (now : Int) (s : TodosStore) : Bool :=
  (s.claimDueSeries now).all fun series => dueDay library now series ≠ .error .overflowError

theorem evaluates_of_all (h : evaluatesAll library now s) : Evaluates library now s := by
  intro series hseries
  exact of_decide_eq_true (List.all_eq_true.mp h series hseries)

theorem ticked_exactly_once_sample :
    (createdDues (storeOf [everySecondDay, onMondays]) afterTick "a" = [some "2024-01-03"] ∧
      createdDues (storeOf [everySecondDay, onMondays]) afterTick "b" = [some "2024-01-08"]) ∧
    ∃ k, Materialised sampleLibrary (storeOf [everySecondDay, onMondays]) afterTick
      (some (noonOf 9)) onMondays ⟨738886, by decide, by decide⟩ k := by
  have hevaluates : evaluatesAll sampleLibrary (noonOf 9) (storeOf [everySecondDay, onMondays]) ∧
      evaluatesAll sampleLibrary (noonOf 9) afterDeath := by decide
  have hticked : Ticked sampleLibrary (Evaluates sampleLibrary)
      (storeOf [everySecondDay, onMondays]) (some (noonOf 9)) afterTick := by
    have hdeath : Ticked sampleLibrary (Evaluates sampleLibrary)
        (storeOf [everySecondDay, onMondays]) (some (noonOf 9)) afterDeath :=
      .tick .start nofun (evaluates_of_all hevaluates.1)
        (reaches_runFor TodosStore.atOnce_sound 2 _ _)
    refine hdeath.tick (fun t ht => ?_) (evaluates_of_all hevaluates.2)
      (reaches_runFor TodosStore.atOnce_sound 9 _ _)
    exact (Option.some.inj ht).ge
  obtain ⟨-, hseries⟩ := ticked_exactly_once sampleLibrary _ _ _ hticked
  obtain ⟨k, hk, -⟩ := hseries onMondays (by decide) ⟨738886, by decide, by decide⟩
    (by decide)
  exact ⟨by decide, k, hk⟩

/-- A step far beyond the calendar. -/
def beyondCalendar : TodoSeriesRecord := sampleSeries "a" "every_N_days" "every_N_days:4000000"

/-- What is raised out of a program. -/
def raisedBy {α : Type} : TodoProgram α → Option EvaluatorError
  | .raised e => some e
  | _ => none

/-- The series that leaves the calendar raises out of the tick, and the series after it, which is
due, gets no todo. -/
theorem overflow_stops_tick :
    ∃ rest s', Reaches TodosStore.env (materializeDueSeries sampleLibrary (noonOf 9))
        (storeOf [beyondCalendar, onMondays]) rest s' ∧
      raisedBy rest = some .overflowError ∧
      createdDues (storeOf [beyondCalendar, onMondays]) s' "b" = [] ∧
      dueDay sampleLibrary (noonOf 9) onMondays = .ok (some ⟨738893, by decide, by decide⟩) ∧
      onMondays ∈ (storeOf [beyondCalendar, onMondays]).claimDueSeries (noonOf 9) :=
  ⟨_, _, reaches_runFor TodosStore.atOnce_sound 9 _ _, by decide⟩

end Sample

end CopilotRuntime.Todos
