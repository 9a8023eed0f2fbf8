import Mathlib.Data.Nat.Find
import CopilotRuntime.Todos.Recurrence

/-!
# The least due day

The days that an accepted rule and its spec stand for, and when the evaluator returns the first of
them after a day.
-/

namespace CopilotRuntime.Todos

open Foundation

variable {library : RuleLibrary} {d e : Date} {n : Int}

/-! ### The days of a rule -/

/-- What an accepted pair of a rule and a spec says. -/
inductive Recurrence
  | everyWeekday
  | everyNDays (n : Int)
  | daily (interval : Int) (byday : List Nat)
  | weekly (interval : Int) (byday : List Nat)

namespace Recurrence

/-- The day belongs to the rule that starts at the anchor. A weekly rule without weekdays keeps
the one of its anchor. -/
def Satisfies (anchor : Date) : Recurrence → Date → Prop
  | everyWeekday, e => e.weekday < 5
  | everyNDays n, e => n ∣ (e.ordinal : Int) - anchor.ordinal
  | daily interval byday, e =>
      interval ∣ (e.ordinal : Int) - anchor.ordinal ∧ (byday = [] ∨ e.weekday ∈ byday)
  | weekly interval byday, e =>
      7 * interval ∣ weekStart e - weekStart anchor ∧
        e.weekday ∈ if byday = [] then [anchor.weekday] else byday

/-- The pairs in the grammar, and what they say. -/
def accepted (library : RuleLibrary) (rule spec : String) : Option Recurrence :=
  if rule = "every_weekday" then some everyWeekday
  else if rule = "every_N_days" then
    match Text.dropPrefix? spec.toList everyNDaysPrefix.toList with
    | none => none
    | some rest =>
        match library.int (Text.strip (String.ofList rest)) with
        | none => none
        | some n => if n ≤ 0 then none else some (everyNDays n)
  else if rule = "rrule" then
    match parseRruleSpec library spec with
    | .error _ => none
    | .ok (freq, parsed) =>
        if freq = "DAILY" then some (daily parsed.interval parsed.byday)
        else if freq = "WEEKLY" then some (weekly parsed.interval parsed.byday)
        else none
  else none

/-- The first day of the rule after its anchor. -/
structure IsNext (r : Recurrence) (d e : Date) : Prop where
  after : d.ordinal < e.ordinal
  satisfies : r.Satisfies d e
  least : ∀ f : Date, d.ordinal < f.ordinal → r.Satisfies d f → e.ordinal ≤ f.ordinal

end Recurrence

open Recurrence

def Malformed (x : Except EvaluatorError Date) : Prop :=
  ∃ message, x = .error (.recurrenceRuleError message)

/-- The result is the first day of the rule, or an error of the rule where it has none. -/
def Meets (r : Recurrence) (d : Date) (x : Except EvaluatorError Date) : Prop :=
  (∀ e, r.IsNext d e → x = .ok e) ∧ ((∀ e, ¬ r.IsNext d e) → Malformed x)

/-- The evaluator is right about a pair, which it has to refuse outside the grammar. -/
def Correct (library : RuleLibrary) (rule spec : String) (d : Date) : Prop :=
  match accepted library rule spec with
  | none => Malformed (nextDue library rule spec d)
  | some r => Meets r d (nextDue library rule spec d)

variable {r : Recurrence}

theorem Recurrence.IsNext.eq {e' : Date} (h : r.IsNext d e) (h' : r.IsNext d e') : e = e' :=
  Date.ext (Nat.le_antisymm (h.least e' h'.after h'.satisfies) (h'.least e h.after h.satisfies))

/-- A rule with some later day has a first one. -/
theorem exists_isNext (hafter : d.ordinal < e.ordinal) (he : r.Satisfies d e) :
    ∃ f, r.IsNext d f := by
  classical
  have hsome : ∃ n, ∃ f : Date, f.ordinal = n ∧ d.ordinal < f.ordinal ∧ r.Satisfies d f :=
    ⟨e.ordinal, e, rfl, hafter, he⟩
  obtain ⟨f, hf, hlater, hsatisfies⟩ := Nat.find_spec hsome
  refine ⟨f, hlater, hsatisfies, fun g hg hr => ?_⟩
  rw [hf]
  exact Nat.find_min' hsome ⟨g, rfl, hg, hr⟩

theorem meets_ok_iff : Meets r d (.ok e) ↔ r.IsNext d e := by
  constructor
  · rintro ⟨hfirst, hnone⟩
    by_contra hnot
    obtain ⟨message, hraised⟩ := hnone fun f hf => hnot (Except.ok.inj (hfirst f hf) ▸ hf)
    cases hraised
  · intro h
    exact ⟨fun f hf => congrArg Except.ok (h.eq hf), fun hnone => absurd h (hnone e)⟩

theorem not_meets_overflow : ¬ Meets r d (.error .overflowError) := by
  rintro ⟨hfirst, hnone⟩
  obtain ⟨message, hraised⟩ := hnone fun f hf => by cases hfirst f hf
  cases hraised

theorem meets_malformed_iff {x : Except EvaluatorError Date} (hx : Malformed x) :
    Meets r d x ↔ ∀ e : Date, d.ordinal < e.ordinal → ¬ r.Satisfies d e := by
  constructor
  · rintro ⟨hfirst, -⟩ e hafter he
    obtain ⟨f, hf⟩ := exists_isNext hafter he
    obtain ⟨message, hraised⟩ := hx
    cases (hfirst f hf).symm.trans hraised
  · intro h
    exact ⟨fun e he => absurd he.satisfies (h e he.after), fun _ => hx⟩

/-! ### What is evaluated -/

/-- The days for which the evaluator follows the rule. -/
def Recurrence.Served (d : Date) : Recurrence → Prop
  | everyWeekday => ∃ e : Date, d.ordinal < e.ordinal ∧ e.weekday < 5
  | everyNDays n => d.ordinal + n ≤ maxOrdinal
  | daily interval byday =>
      ∃ e : Date, (e.ordinal : Int) = d.ordinal + interval ∧ (byday = [] ∨ e.weekday ∈ byday)
  | weekly interval byday =>
      if byday = [] then d.ordinal + 7 * interval ≤ maxOrdinal
      else
        (∃ e : Date, d.ordinal < e.ordinal ∧ e.ordinal ≤ d.ordinal + maxScanDays ∧
          (weekly interval byday).Satisfies d e) ∨
        d.ordinal + maxScanDays ≤ maxOrdinal ∧
          ∀ e : Date, d.ordinal < e.ordinal → ¬ (weekly interval byday).Satisfies d e

theorem addDays_cases (d : Date) (hn : 0 ≤ n) :
    (∃ e, addDays d n = .ok e ∧ (e.ordinal : Int) = d.ordinal + n) ∨
      addDays d n = .error .overflowError ∧ (maxOrdinal : Int) < d.ordinal + n := by
  have hpos := d.pos
  unfold addDays
  cases hadd : d.addDays n with
  | some e => exact .inl ⟨e, rfl, Date.ordinal_of_addDays hadd⟩
  | none =>
      refine .inr ⟨rfl, ?_⟩
      unfold Date.addDays at hadd
      split at hadd
      · cases hadd
      · omega

theorem weekday_congr (h : d.ordinal = e.ordinal) : d.weekday = e.weekday :=
  congrArg Date.weekday (Date.ext h)

theorem skipWeekend_cases {fuel : Nat} (hfuel : d.weekday < 5 ∨ 7 ≤ d.weekday + fuel) :
    (∃ e, skipWeekend fuel d = .ok e ∧ d.ordinal ≤ e.ordinal ∧ e.weekday < 5 ∧
      ∀ f : Date, d.ordinal ≤ f.ordinal → f.weekday < 5 → e.ordinal ≤ f.ordinal) ∨
    skipWeekend fuel d = .error .overflowError ∧
      ∀ f : Date, d.ordinal ≤ f.ordinal → ¬ f.weekday < 5 := by
  induction fuel generalizing d with
  | zero =>
      have hlt : d.weekday < 7 := Nat.mod_lt _ (by decide)
      exact .inl ⟨d, rfl, Nat.le_refl _, by omega, fun f hf _ => hf⟩
  | succ fuel ih =>
      rw [skipWeekend]
      split
      · next hweekend =>
          -- a weekday from the day on is after it
          have hlater (f : Date) (hf : d.ordinal ≤ f.ordinal) (hday : f.weekday < 5) :
              d.ordinal < f.ordinal := by
            refine Nat.lt_of_le_of_ne hf fun heq => ?_
            rw [weekday_congr heq] at hweekend
            omega
          obtain ⟨next, hnext, hordinal⟩ | ⟨hnext, hlast⟩ := addDays_cases d (n := 1) (by decide)
          · have hstep : next.weekday = (d.weekday + 1) % 7 := by
              unfold Date.weekday
              omega
            have hlt : d.weekday < 7 := Nat.mod_lt _ (by decide)
            rw [hnext]
            obtain ⟨e, he, hle, hday, hleast⟩ | ⟨he, hnone⟩ := ih (d := next) (by omega)
            · refine .inl ⟨e, he, by omega, hday, fun f hf hfday => ?_⟩
              have := hlater f hf hfday
              exact hleast f (by omega) hfday
            · refine .inr ⟨he, fun f hf hfday => ?_⟩
              have := hlater f hf hfday
              exact hnone f (by omega) hfday
          · rw [hnext]
            refine .inr ⟨rfl, fun f hf hfday => ?_⟩
            have hmore := hlater f hf hfday
            have hmax := f.le
            omega
      · next hday => exact .inl ⟨d, rfl, Nat.le_refl _, by omega, fun f hf _ => hf⟩

theorem meets_nextWeekday (d : Date) :
    Meets everyWeekday d (nextWeekday d) ↔ everyWeekday.Served d := by
  unfold nextWeekday
  obtain ⟨next, hnext, hordinal⟩ | ⟨hnext, hlast⟩ := addDays_cases d (n := 1) (by decide)
  · rw [hnext]
    change Meets everyWeekday d (skipWeekend 2 next) ↔ _
    have hlater (f : Date) (hf : d.ordinal < f.ordinal) : next.ordinal ≤ f.ordinal := by omega
    obtain ⟨e, he, hle, hday, hleast⟩ | ⟨he, hnone⟩ :=
      @skipWeekend_cases next 2 (by omega)
    · rw [he, meets_ok_iff]
      have hafter : d.ordinal < e.ordinal := by omega
      exact iff_of_true ⟨hafter, hday, fun f hf => hleast f (hlater f hf)⟩ ⟨e, hafter, hday⟩
    · rw [he]
      exact iff_of_false not_meets_overflow fun ⟨e, hafter, hday⟩ => hnone e (hlater e hafter) hday
  · rw [hnext]
    refine iff_of_false not_meets_overflow fun ⟨e, hafter, _⟩ => ?_
    have hmax := e.le
    omega

theorem meets_everyNDays (hn : 0 < n) :
    Meets (everyNDays n) d (addDays d n) ↔ (everyNDays n).Served d := by
  obtain ⟨e, he, hordinal⟩ | ⟨he, hlast⟩ := addDays_cases d (Int.le_of_lt hn)
  · rw [he, meets_ok_iff]
    have hmax := e.le
    refine iff_of_true ⟨by omega, ⟨1, by omega⟩, fun f hf hdvd => ?_⟩ ?_
    · have hle := Int.le_of_dvd (by omega) hdvd
      omega
    · change (d.ordinal : Int) + n ≤ maxOrdinal
      omega
  · rw [he]
    exact iff_of_false not_meets_overflow (Int.not_le.mpr hlast)

theorem meets_daily {byday : List Nat} (hn : 0 < n) :
    Meets (daily n byday) d (addDays d n) ↔ (daily n byday).Served d := by
  obtain ⟨e, he, hordinal⟩ | ⟨he, hlast⟩ := addDays_cases d (Int.le_of_lt hn)
  · rw [he, meets_ok_iff]
    constructor
    · exact fun h => ⟨e, hordinal, h.satisfies.2⟩
    · rintro ⟨e', hordinal', hday⟩
      obtain rfl : e' = e := Date.ext (by omega)
      refine ⟨by omega, ⟨⟨1, by omega⟩, hday⟩, fun f hf hsatisfies => ?_⟩
      have hle := Int.le_of_dvd (by omega) hsatisfies.1
      omega
  · rw [he]
    refine iff_of_false not_meets_overflow fun ⟨e, hordinal, _⟩ => ?_
    have hmax := e.le
    omega

theorem meets_weekly (hn : 0 < n) :
    Meets (weekly n []) d (addDays d (7 * n)) ↔ (weekly n []).Served d := by
  obtain ⟨e, he, hordinal⟩ | ⟨he, hlast⟩ := addDays_cases d (n := 7 * n) (by omega)
  · rw [he, meets_ok_iff]
    have hmax := e.le
    have hsame : e.weekday = d.weekday := by
      unfold Date.weekday
      omega
    refine iff_of_true ⟨by omega, ⟨⟨1, ?_⟩, List.mem_singleton.mpr hsame⟩, ?_⟩ ?_
    · unfold weekStart
      omega
    · rintro f hf ⟨hdvd, hday⟩
      have hfday : f.weekday = d.weekday := List.mem_singleton.mp hday
      unfold weekStart at hdvd
      have hle := Int.le_of_dvd (by omega) hdvd
      omega
    · change (d.ordinal : Int) + 7 * n ≤ maxOrdinal
      omega
  · rw [he]
    exact iff_of_false not_meets_overflow (Int.not_le.mpr hlast)

section Scan
variable {spec : String} {rule : RRule} (hbyday : rule.byday ≠ [])
include hbyday

theorem satisfies_weekly_iff :
    (weekly rule.interval rule.byday).Satisfies d e ↔
      e.weekday ∈ rule.byday ∧ (weekStart e - weekStart d) % (7 * rule.interval) = 0 := by
  rw [Satisfies, if_neg hbyday, Int.dvd_iff_emod_eq_zero, and_comm]

/-- The scan finds the first day of the rule, runs to its end or runs out of the calendar. -/
theorem scanWeeks_cases {k n : Nat} (hk : d.ordinal + k ≤ maxOrdinal + 1) :
    (∃ e, scanWeeks spec rule d (List.range' k n) = .ok e ∧
      (weekly rule.interval rule.byday).Satisfies d e ∧ d.ordinal + k ≤ e.ordinal ∧
      e.ordinal < d.ordinal + k + n ∧ ∀ f : Date, d.ordinal + k ≤ f.ordinal →
        (weekly rule.interval rule.byday).Satisfies d f → e.ordinal ≤ f.ordinal) ∨
    (Malformed (scanWeeks spec rule d (List.range' k n)) ∧ d.ordinal + k + n ≤ maxOrdinal + 1 ∧
      ∀ f : Date, d.ordinal + k ≤ f.ordinal → f.ordinal < d.ordinal + k + n →
        ¬ (weekly rule.interval rule.byday).Satisfies d f) ∨
    scanWeeks spec rule d (List.range' k n) = .error .overflowError ∧
      maxOrdinal + 1 < d.ordinal + k + n ∧ ∀ f : Date, d.ordinal + k ≤ f.ordinal →
        ¬ (weekly rule.interval rule.byday).Satisfies d f := by
  induction n generalizing k with
  | zero => exact .inr (.inl ⟨⟨_, rfl⟩, hk, fun f hle hlt => by omega⟩)
  | succ n ih =>
      rw [List.range'_succ, scanWeeks]
      obtain ⟨next, hnext, hordinal⟩ | ⟨hnext, hlast⟩ := addDays_cases d (Int.natCast_nonneg k)
      · rw [hnext]
        have hmax := next.le
        -- a day from the offset on is the one at the offset or a later one
        have hsplit (f : Date) (hf : d.ordinal + k ≤ f.ordinal) :
            f = next ∨ d.ordinal + (k + 1) ≤ f.ordinal :=
          (Nat.eq_or_lt_of_le hf).imp (fun heq => Date.ext (by omega)) fun hlt => by omega
        by_cases hhit : (weekly rule.interval rule.byday).Satisfies d next
        · obtain ⟨hday, hweek⟩ := (satisfies_weekly_iff hbyday).mp hhit
          refine .inl ⟨next, ?_, hhit, by omega, by omega, fun f hf _ => by omega⟩
          change (if _ then _ else _) = _
          rw [if_neg (not_not.mpr hday), if_neg (not_not.mpr hweek)]
        · have hskip : (Except.ok next >>= fun candidate =>
              if candidate.weekday ∉ rule.byday then scanWeeks spec rule d (List.range' (k + 1) n)
              else if (weekStart candidate - weekStart d) % (7 * rule.interval) ≠ 0 then
                scanWeeks spec rule d (List.range' (k + 1) n)
              else .ok candidate) = scanWeeks spec rule d (List.range' (k + 1) n) := by
            change (if _ then _ else _) = _
            split
            · rfl
            · next hday =>
                rw [if_pos fun hweek =>
                  hhit ((satisfies_weekly_iff hbyday).mpr ⟨not_not.mp hday, hweek⟩)]
          rw [hskip]
          obtain ⟨e, he, hsatisfies, hle, hlt, hleast⟩ | ⟨he, hin, hnone⟩ | ⟨he, hout, hnone⟩ :=
            ih (k := k + 1) (by omega)
          · refine .inl ⟨e, he, hsatisfies, by omega, by omega, fun f hf hfs => ?_⟩
            obtain rfl | hlater := hsplit f hf
            · exact absurd hfs hhit
            · exact hleast f hlater hfs
          · refine .inr (.inl ⟨he, by omega, fun f hf hlt => ?_⟩)
            obtain rfl | hlater := hsplit f hf
            · exact hhit
            · exact hnone f hlater (by omega)
          · refine .inr (.inr ⟨he, by omega, fun f hf => ?_⟩)
            obtain rfl | hlater := hsplit f hf
            · exact hhit
            · exact hnone f hlater
      · rw [hnext]
        refine .inr (.inr ⟨rfl, by omega, fun f hf => ?_⟩)
        have hmax := f.le
        omega

theorem meets_scanWeeks :
    Meets (weekly rule.interval rule.byday) d
        (scanWeeks spec rule d ((List.range maxScanDays).map (· + 1))) ↔
      (weekly rule.interval rule.byday).Served d := by
  have hrange : (List.range maxScanDays).map (· + 1) = List.range' 1 maxScanDays := by
    rw [List.range'_eq_map_range]
    exact List.map_congr_left fun n _ => Nat.add_comm n 1
  have hmax := d.le
  rw [hrange, Served, if_neg hbyday]
  obtain ⟨e, he, hsatisfies, hle, hlt, hleast⟩ | ⟨he, hin, hnone⟩ | ⟨he, hout, hnone⟩ :=
    @scanWeeks_cases d spec rule hbyday 1 maxScanDays (by omega)
  · rw [he, meets_ok_iff]
    exact iff_of_true ⟨hle, hsatisfies, hleast⟩ (.inl ⟨e, hle, by omega, hsatisfies⟩)
  · rw [meets_malformed_iff he]
    refine ⟨fun h => .inr ⟨by omega, h⟩, ?_⟩
    rintro (⟨e, hafter, hscan, hsatisfies⟩ | ⟨-, h⟩)
    · exact absurd hsatisfies (hnone e hafter (by omega))
    · exact h
  · rw [he]
    refine iff_of_false not_meets_overflow ?_
    rintro (⟨e, hafter, -, hsatisfies⟩ | ⟨hroom, -⟩)
    · exact hnone e hafter hsatisfies
    · omega

end Scan

/-! ### Every rule and spec -/

theorem map_ne_overflow {α β : Type} {x : Except EvaluatorError α} {f : α → β}
    (hx : x ≠ .error .overflowError) : x.map f ≠ .error .overflowError := by
  intro h
  cases x with
  | ok a => cases h
  | error raised =>
      cases h
      exact hx rfl

theorem readByday_ne_overflow (spec : String) (codes : List String) :
    readByday spec codes ≠ .error .overflowError := by
  induction codes with
  | nil => nofun
  | cons code rest ih =>
      rw [readByday]
      split
      · nofun
      · exact map_ne_overflow ih

theorem applyFragment_ne_overflow {spec piece : String} {rule : RRule} :
    applyFragment library spec rule piece ≠ .error .overflowError := by
  have hinterval (value : String) : readInterval library value ≠ .error .overflowError := by
    unfold readInterval
    split
    · nofun
    · split <;> nofun
  unfold applyFragment
  split
  · nofun
  · dsimp only
    split
    · nofun
    · split
      · exact map_ne_overflow (hinterval _)
      · split
        · exact map_ne_overflow (readByday_ne_overflow _ _)
        · nofun

/-- A spec that cannot be read is an error of the rule. -/
theorem parseRruleSpec_ne_overflow (spec : String) :
    parseRruleSpec library spec ≠ .error .overflowError := by
  have hfold (pieces : List String) (start : RRule) :
      pieces.foldlM (applyFragment library spec) start ≠ .error .overflowError := by
    induction pieces generalizing start with
    | nil =>
        intro h
        cases h
    | cons piece rest ih =>
        rw [List.foldlM_cons]
        cases hnext : applyFragment library spec start piece with
        | ok rule => exact ih rule
        | error raised =>
            intro h
            cases h
            exact applyFragment_ne_overflow hnext
  unfold parseRruleSpec
  cases hread : ((Text.split spec ';').filter (· ≠ "")).foldlM (applyFragment library spec) {} with
  | error raised =>
      intro h
      cases h
      exact hfold _ _ hread
  | ok rule =>
      rw [ok_bind]
      split <;>
        intro h <;> cases h

theorem correct_nextRrule_iff {spec : String} (d : Date) :
    Correct library "rrule" spec d ↔
      ∀ r, accepted library "rrule" spec = some r → r.Served d := by
  have hnext : nextDue library "rrule" spec d = nextRrule library spec d := by
    simp only [nextDue, String.reduceEq, if_false, if_true]
  simp only [Correct, accepted, hnext, String.reduceEq, if_false, if_true]
  unfold nextRrule
  cases hparsed : parseRruleSpec library spec with
  | error raised =>
      cases raised with
      | recurrenceRuleError message => exact iff_of_true ⟨message, rfl⟩ nofun
      | overflowError => exact absurd hparsed (parseRruleSpec_ne_overflow spec)
  | ok parsed =>
      obtain ⟨freq, rule⟩ := parsed
      have hpos := interval_pos_of_parseRruleSpec hparsed
      simp only [bind, Except.bind]
      by_cases hdaily : freq = "DAILY"
      · simp only [if_pos hdaily, Option.some.injEq, forall_eq']
        exact meets_daily hpos
      by_cases hweekly : freq = "WEEKLY"
      · simp only [if_neg hdaily, if_pos hweekly, if_neg (not_not.mpr hweekly), Option.some.injEq,
          forall_eq']
        by_cases hnil : rule.byday = []
        · rw [if_pos hnil, hnil]
          exact meets_weekly hpos
        · rw [if_neg hnil]
          exact meets_scanWeeks hnil
      · simp only [if_neg hdaily, ne_eq, hweekly, not_false_eq_true, if_true]
        exact iff_of_true ⟨_, rfl⟩ nofun

/-- Numbers are read by their decimal digits, and letters are upper case already. -/
def plainLibrary : RuleLibrary where
  int text := text.toInt?
  upper text := text

def firstMonday : Date := ⟨1, by decide, by decide⟩

end CopilotRuntime.Todos
