import CopilotRuntime.Foundation.Calendar
import CopilotRuntime.Foundation.Outcome
import CopilotRuntime.Foundation.Text

/-!
# Recurrence rules

The next day on which a recurring todo is due, after a day on which it was.

## Implementation notes

How `int` reads a text and how letters are made upper case are parameters. A day
beyond the calendar is an overflow, which is not an error of the rule.
-/

namespace CopilotRuntime.Todos

open Foundation

inductive EvaluatorError
  | recurrenceRuleError (message : String)
  | overflowError
  deriving DecidableEq

structure RuleLibrary where
  /-- The number that `int` reads, unless it raises. -/
  int : String → Option Int
  upper : String → String

def malformed {α : Type} (message : String) : Except EvaluatorError α :=
  .error (.recurrenceRuleError message)

def addDays (d : Date) (n : Int) : Except EvaluatorError Date :=
  match d.addDays n with
  | some e => .ok e
  | none => .error .overflowError

/-- The first day from a day on that is not on a weekend, at most some days later. -/
def skipWeekend : Nat → Date → Except EvaluatorError Date
  | 0, d => .ok d
  | fuel + 1, d => if 5 ≤ d.weekday then addDays d 1 >>= skipWeekend fuel else .ok d

def nextWeekday (previousDue : Date) : Except EvaluatorError Date := do
  let candidate ← addDays previousDue 1
  skipWeekend 2 candidate

variable (library : RuleLibrary)

def everyNDaysPrefix : String := "every_N_days:"

def nextEveryNDays (spec : String) (previousDue : Date) : Except EvaluatorError Date :=
  match Text.dropPrefix? spec.toList everyNDaysPrefix.toList with
  | none => malformed ("every_N_days spec must start with '" ++ everyNDaysPrefix ++ "', got '" ++
      spec ++ "'")
  | some rest =>
      let tail := Text.strip (String.ofList rest)
      match library.int tail with
      | none => malformed ("every_N_days spec must be a positive int, got '" ++ tail ++ "'")
      | some n =>
          if n ≤ 0 then malformed ("every_N_days spec must be > 0, got " ++ toString n)
          else addDays previousDue n

/-! ### Rules of calendars -/

structure RRule where
  freq : Option String := none
  interval : Int := 1
  byday : List Nat := []

/-- The weekday of a two-letter code. -/
def weekdayCode? : String → Option Nat
  | "MO" => some 0
  | "TU" => some 1
  | "WE" => some 2
  | "TH" => some 3
  | "FR" => some 4
  | "SA" => some 5
  | "SU" => some 6
  | _ => none

def readByday (spec : String) : List String → Except EvaluatorError (List Nat)
  | [] => .ok []
  | code :: rest =>
      match weekdayCode? code with
      | none => malformed ("unknown BYDAY code '" ++ code ++ "' in spec '" ++ spec ++ "'")
      | some weekday => (readByday spec rest).map (weekday :: ·)

def readInterval (value : String) : Except EvaluatorError Int :=
  match library.int value with
  | none => malformed ("rrule INTERVAL must be int, got '" ++ value ++ "'")
  | some interval =>
      if interval ≤ 0 then malformed ("rrule INTERVAL must be > 0, got " ++ toString interval)
      else .ok interval

/-- The texts on both sides of the first sign of equality. -/
def splitAssignment (piece : String) : Option (String × String) :=
  match piece.toList.span (· ≠ '=') with
  | (key, _ :: value) => some (String.ofList key, String.ofList value)
  | (_, []) => none

def applyFragment (spec : String) (rule : RRule) (piece : String) :
    Except EvaluatorError RRule :=
  match splitAssignment piece with
  | none => malformed ("malformed rrule fragment '" ++ piece ++ "' in spec '" ++ spec ++ "'")
  | some (name, text) =>
      let key := library.upper (Text.strip name)
      let value := library.upper (Text.strip text)
      if key = "FREQ" then .ok { rule with freq := some value }
      else if key = "INTERVAL" then
        (readInterval library value).map fun interval => { rule with interval := interval }
      else if key = "BYDAY" then
        let codes := ((Text.split value ',').map Text.strip).filter (· ≠ "")
        (readByday spec codes).map fun byday => { rule with byday := byday }
      else malformed ("unsupported rrule key '" ++ key ++ "' in spec '" ++ spec ++ "'")

def parseRruleSpec (spec : String) : Except EvaluatorError (String × RRule) := do
  let rule ← ((Text.split spec ';').filter (· ≠ "")).foldlM (applyFragment library spec) {}
  match rule.freq with
  | none => malformed ("rrule spec missing required FREQ: '" ++ spec ++ "'")
  | some freq => .ok (freq, rule)

def maxScanDays : Nat := 366

/-- The number of the first day of the week of a day. -/
def weekStart (d : Date) : Int := d.ordinal - d.weekday

/-- The first of the days at the offsets that is on one of the weekdays, in a week that the
interval allows. -/
def scanWeeks (spec : String) (rule : RRule) (previousDue : Date) :
    List Nat → Except EvaluatorError Date
  | [] => malformed ("no rrule match within " ++ toString maxScanDays ++ " days for spec '" ++
      spec ++ "'")
  | offset :: rest => do
      let candidate ← addDays previousDue offset
      if candidate.weekday ∉ rule.byday then scanWeeks spec rule previousDue rest
      else if (weekStart candidate - weekStart previousDue) % (7 * rule.interval) ≠ 0 then
        scanWeeks spec rule previousDue rest
      else .ok candidate

def nextRrule (spec : String) (previousDue : Date) : Except EvaluatorError Date := do
  let (freq, rule) ← parseRruleSpec library spec
  if freq = "DAILY" then addDays previousDue rule.interval
  else if freq ≠ "WEEKLY" then
    malformed ("rrule FREQ must be DAILY or WEEKLY, got '" ++ freq ++ "'")
  else if rule.byday = [] then addDays previousDue (7 * rule.interval)
  else scanWeeks spec rule previousDue ((List.range maxScanDays).map (· + 1))

/-- The next due day, strictly after the previous one. -/
def nextDue (rule spec : String) (previousDue : Date) : Except EvaluatorError Date :=
  if rule = "every_weekday" then nextWeekday previousDue
  else if rule = "every_N_days" then nextEveryNDays library spec previousDue
  else if rule = "rrule" then nextRrule library spec previousDue
  else malformed ("unsupported rule: " ++ rule)

/-! ### Due days follow each other -/

variable {library} {d e : Date}

theorem ordinal_of_addDays {n : Int} (h : addDays d n = .ok e) :
    (e.ordinal : Int) = d.ordinal + n := by
  unfold addDays at h
  split at h
  · next f hf =>
      obtain rfl := Except.ok.inj h
      exact Date.ordinal_of_addDays hf
  · cases h

theorem le_skipWeekend {fuel : Nat} (h : skipWeekend fuel d = .ok e) :
    d.ordinal ≤ e.ordinal := by
  induction fuel generalizing d with
  | zero =>
      obtain rfl := Except.ok.inj h
      exact Nat.le_refl _
  | succ fuel ih =>
      rw [skipWeekend] at h
      split at h
      · obtain ⟨f, hf, hrest⟩ := bind_eq_ok_iff.mp h
        have hnext := ordinal_of_addDays hf
        have hle := ih hrest
        omega
      · obtain rfl := Except.ok.inj h
        exact Nat.le_refl _

theorem lt_nextWeekday (h : nextWeekday d = .ok e) : d.ordinal < e.ordinal := by
  obtain ⟨f, hf, hrest⟩ := bind_eq_ok_iff.mp h
  have hnext := ordinal_of_addDays hf
  have hle := le_skipWeekend hrest
  omega

theorem lt_nextEveryNDays {spec : String} (h : nextEveryNDays library spec d = .ok e) :
    d.ordinal < e.ordinal := by
  unfold nextEveryNDays at h
  split at h
  · cases h
  · dsimp only at h
    split at h
    · cases h
    · split at h
      · cases h
      · next hpositive =>
          have hnext := ordinal_of_addDays h
          omega

theorem interval_pos_of_readInterval {value : String} {interval : Int}
    (h : readInterval library value = .ok interval) : 0 < interval := by
  unfold readInterval at h
  split at h
  · cases h
  · split at h
    · cases h
    · next hpositive =>
        obtain rfl := Except.ok.inj h
        exact Int.not_le.mp hpositive

theorem interval_pos_of_applyFragment {spec piece : String} {rule rule' : RRule}
    (hrule : 0 < rule.interval) (h : applyFragment library spec rule piece = .ok rule') :
    0 < rule'.interval := by
  unfold applyFragment at h
  split at h
  · cases h
  · dsimp only at h
    split at h
    · obtain rfl := Except.ok.inj h
      exact hrule
    · split at h
      · cases hinterval : readInterval library (library.upper (Text.strip _)) with
        | error e =>
            rw [hinterval] at h
            cases h
        | ok interval =>
            rw [hinterval] at h
            obtain rfl := Except.ok.inj h
            exact interval_pos_of_readInterval hinterval
      · split at h
        · cases hbyday : readByday spec _ with
          | error e =>
              rw [hbyday] at h
              cases h
          | ok byday =>
              rw [hbyday] at h
              obtain rfl := Except.ok.inj h
              exact hrule
        · cases h

/-- The interval of a rule that was read is positive. -/
theorem interval_pos_of_parseRruleSpec {spec freq : String} {rule : RRule}
    (h : parseRruleSpec library spec = .ok (freq, rule)) : 0 < rule.interval := by
  obtain ⟨parsed, hparsed, hrest⟩ := bind_eq_ok_iff.mp h
  have hfold (pieces : List String) (start : RRule) (hstart : 0 < start.interval)
      (hread : pieces.foldlM (applyFragment library spec) start = .ok parsed) :
      0 < parsed.interval := by
    induction pieces generalizing start with
    | nil =>
        obtain rfl := pure_eq_ok_iff.mp hread
        exact hstart
    | cons piece rest ih =>
        rw [List.foldlM_cons] at hread
        obtain ⟨next, hnext, hlater⟩ := bind_eq_ok_iff.mp hread
        exact ih next (interval_pos_of_applyFragment hstart hnext) hlater
  have hpositive := hfold _ {} (by decide) hparsed
  split at hrest
  · cases hrest
  · obtain ⟨-, rfl⟩ := Prod.mk.inj (Except.ok.inj hrest)
    exact hpositive

theorem lt_scanWeeks {spec : String} {rule : RRule} {offsets : List Nat}
    (hoffsets : ∀ offset ∈ offsets, 0 < offset) (h : scanWeeks spec rule d offsets = .ok e) :
    d.ordinal < e.ordinal := by
  induction offsets with
  | nil => cases h
  | cons offset rest ih =>
      obtain ⟨hoffset, hrest⟩ := List.forall_mem_cons.mp hoffsets
      obtain ⟨f, hf, hscan⟩ := bind_eq_ok_iff.mp h
      split at hscan
      · exact ih hrest hscan
      · split at hscan
        · exact ih hrest hscan
        · obtain rfl := Except.ok.inj hscan
          have hnext := ordinal_of_addDays hf
          omega

theorem lt_nextRrule {spec : String} (h : nextRrule library spec d = .ok e) :
    d.ordinal < e.ordinal := by
  obtain ⟨⟨freq, rule⟩, hparsed, hrest⟩ := bind_eq_ok_iff.mp h
  have hinterval := interval_pos_of_parseRruleSpec hparsed
  dsimp only at hrest
  split at hrest
  · have hnext := ordinal_of_addDays hrest
    omega
  · split at hrest
    · cases hrest
    · split at hrest
      · have hnext := ordinal_of_addDays hrest
        omega
      · refine lt_scanWeeks (fun offset hoffset => ?_) hrest
        obtain ⟨n, -, rfl⟩ := List.mem_map.mp hoffset
        exact Nat.succ_pos n

/-- The next due day is strictly after the previous one. -/
theorem lt_nextDue {rule spec : String} (h : nextDue library rule spec d = .ok e) :
    d.ordinal < e.ordinal := by
  unfold nextDue at h
  split at h
  · exact lt_nextWeekday h
  · split at h
    · exact lt_nextEveryNDays h
    · split at h
      · exact lt_nextRrule h
      · cases h

end CopilotRuntime.Todos
