import Mathlib.Data.List.Basic
import Mathlib.Data.String.Basic

/-!
# Days of the calendar

The days of the years 1 to 9999 of the proleptic Gregorian calendar, numbered from one, with
their weekdays and their ISO texts.

## Implementation notes

A day is its number, so that adding days is arithmetic. The ISO text goes through the year,
the month and the day of the month, and a day is read back from them.
-/

namespace CopilotRuntime.Foundation

def maxOrdinal : Nat := 3652059

structure Date where
  ordinal : Nat
  pos : 1 ≤ ordinal
  le : ordinal ≤ maxOrdinal
  deriving DecidableEq

namespace Date

/-- The day a number of days later, while it is in the calendar. -/
def addDays (d : Date) (n : Int) : Option Date :=
  if h : 1 ≤ d.ordinal + n ∧ d.ordinal + n ≤ maxOrdinal then
    some ⟨(d.ordinal + n).toNat, by omega, by omega⟩
  else none

/-- The weekday, where Monday is zero. -/
def weekday (d : Date) : Nat := (d.ordinal + 6) % 7

@[ext] theorem ext {d e : Date} (h : d.ordinal = e.ordinal) : d = e := by
  cases d
  cases e
  cases h
  rfl

theorem ordinal_of_addDays {d e : Date} {n : Int} (h : d.addDays n = some e) :
    (e.ordinal : Int) = d.ordinal + n := by
  unfold addDays at h
  split at h
  · next hin =>
      obtain rfl := Option.some.inj h
      exact Int.toNat_of_nonneg (by omega)
  · cases h

/-! ### Years, months and days of the month -/

def isLeap (year : Nat) : Bool := year % 4 = 0 && (year % 100 ≠ 0 || year % 400 = 0)

def daysBeforeYear (year : Nat) : Nat :=
  (year - 1) * 365 + (year - 1) / 4 - (year - 1) / 100 + (year - 1) / 400

def daysBeforeMonth (leap : Bool) (month : Nat) : Nat :=
  [0, 0, 31, 59, 90, 120, 151, 181, 212, 243, 273, 304, 334].getD month 0 +
    if month > 2 && leap then 1 else 0

/-- The month and the day of the month of a day of a year, counted from zero. -/
def monthDay (leap : Bool) (n : Nat) : Nat × Nat :=
  let month := (n + 50) / 32
  if daysBeforeMonth leap month > n then (month - 1, n - daysBeforeMonth leap (month - 1) + 1)
  else (month, n - daysBeforeMonth leap month + 1)

def yearMonthDay (ordinal : Nat) : Nat × Nat × Nat :=
  let n := ordinal - 1
  let n400 := n / 146097
  let n100 := n % 146097 / 36524
  let n4 := n % 146097 % 36524 / 1461
  let n1 := n % 146097 % 36524 % 1461 / 365
  let year := n400 * 400 + 1 + (n100 * 100 + n4 * 4 + n1)
  if n1 = 4 ∨ n100 = 4 then (year - 1, 12, 31)
  else
    (year, monthDay (n1 = 3 && (n4 ≠ 24 || n100 = 3)) (n % 146097 % 36524 % 1461 % 365))

theorem daysBeforeMonth_monthDay (leap : Bool) : ∀ n < 365 + leap.toNat,
    daysBeforeMonth leap (monthDay leap n).1 + (monthDay leap n).2 = n + 1 ∧
      (monthDay leap n).1 ≤ 12 ∧ (monthDay leap n).2 ≤ 31 := by
  cases leap <;> decide +kernel

/-- A year with the number of its four centuries, its century and so on. -/
theorem daysBeforeYear_add {a b c e : Nat} (hb : b < 4) (hc : c < 25) (he : e < 4) :
    daysBeforeYear (a * 400 + 1 + (b * 100 + c * 4 + e)) =
      a * 146097 + b * 36524 + c * 1461 + e * 365 := by
  unfold daysBeforeYear
  omega

theorem isLeap_add {a b c e : Nat} (hb : b < 4) (hc : c < 25) (he : e < 4) :
    isLeap (a * 400 + 1 + (b * 100 + c * 4 + e)) = (e = 3 && (c ≠ 24 || b = 3)) := by
  rw [Bool.eq_iff_iff]
  simp only [isLeap, Bool.and_eq_true, Bool.or_eq_true, decide_eq_true_eq]
  omega

/-- What the year, the month and the day of the month of a number say of it. -/
theorem ordinal_yearMonthDay (n : Nat) :
    n + 1 = daysBeforeYear (yearMonthDay (n + 1)).1 +
      daysBeforeMonth (isLeap (yearMonthDay (n + 1)).1) (yearMonthDay (n + 1)).2.1 +
        (yearMonthDay (n + 1)).2.2 ∧ (yearMonthDay (n + 1)).2.1 ≤ 12 ∧
          (yearMonthDay (n + 1)).2.2 ≤ 31 := by
  obtain ⟨a, ha⟩ : ∃ a, a = n / 146097 := ⟨_, rfl⟩
  obtain ⟨b, hb⟩ : ∃ b, b = n % 146097 / 36524 := ⟨_, rfl⟩
  obtain ⟨c, hc⟩ : ∃ c, c = n % 146097 % 36524 / 1461 := ⟨_, rfl⟩
  obtain ⟨e, he⟩ : ∃ e, e = n % 146097 % 36524 % 1461 / 365 := ⟨_, rfl⟩
  obtain ⟨r, hr⟩ : ∃ r, r = n % 146097 % 36524 % 1461 % 365 := ⟨_, rfl⟩
  have hn : n = a * 146097 + b * 36524 + c * 1461 + e * 365 + r := by omega
  rw [yearMonthDay, Nat.add_sub_cancel]
  simp only [← ha, ← hb, ← hc, ← he, ← hr]
  split
  · -- The last day of a year that ends four years, or four centuries.
    next hlast =>
    obtain ⟨b', c', hb', hc', hleap, hyear⟩ : ∃ b' c', b' < 4 ∧ c' < 25 ∧ (c' ≠ 24 ∨ b' = 3) ∧
        b * 36524 + c * 1461 + e * 365 + r = b' * 36524 + c' * 1461 + 3 * 365 + 365 ∧
        b * 100 + c * 4 + e = b' * 100 + c' * 4 + 3 + 1 := by
      obtain he4 | hb4 := hlast
      · exact ⟨b, c, by omega, by omega, by omega, by omega, by omega⟩
      · exact ⟨3, 24, by omega, by omega, by omega, by omega, by omega⟩
    have hsub : a * 400 + 1 + (b * 100 + c * 4 + e) - 1 = a * 400 + 1 + (b' * 100 + c' * 4 + 3) := by
      omega
    have hleap' : isLeap (a * 400 + 1 + (b' * 100 + c' * 4 + 3)) = true := by
      rw [isLeap_add hb' hc' (by omega)]
      simpa using hleap
    rw [hsub, daysBeforeYear_add hb' hc' (by omega), hleap']
    have hdecember : daysBeforeMonth true 12 = 335 := rfl
    refine ⟨?_, Nat.le_refl _, Nat.le_refl _⟩
    dsimp only
    rw [hdecember]
    omega
  · next hinner =>
    have hb' : b < 4 := by omega
    have hc' : c < 25 := by omega
    have he' : e < 4 := by omega
    rw [daysBeforeYear_add hb' hc' he', isLeap_add hb' hc' he']
    obtain ⟨hday, hmonth, hlast⟩ :=
      daysBeforeMonth_monthDay (e = 3 && (c ≠ 24 || b = 3)) r (by omega)
    refine ⟨?_, hmonth, hlast⟩
    dsimp only
    omega

/-! ### ISO texts -/

def digit (n : Nat) : Char := Char.ofNat (48 + n % 10)

theorem digit_inj {m n : Nat} (h : digit m = digit n) : m % 10 = n % 10 := by
  have hdigits : ∀ i < 10, ∀ j < 10, Char.ofNat (48 + i) = Char.ofNat (48 + j) → i = j := by decide
  exact hdigits _ (Nat.mod_lt _ (by decide)) _ (Nat.mod_lt _ (by decide)) h

def twoDigits (n : Nat) : List Char := [digit (n / 10), digit n]

def fourDigits (n : Nat) : List Char := [digit (n / 1000), digit (n / 100), digit (n / 10), digit n]

/-- The text of a year, a month and a day of the month. -/
def isoText (year month day : Nat) : String :=
  String.ofList (fourDigits year ++ '-' :: twoDigits month ++ '-' :: twoDigits day)

def isoformat (d : Date) : String :=
  isoText (yearMonthDay d.ordinal).1 (yearMonthDay d.ordinal).2.1 (yearMonthDay d.ordinal).2.2

theorem isoText_inj {y y' m m' d d' : Nat} (hy : y < 10000) (hy' : y' < 10000) (hm : m < 100)
    (hm' : m' < 100) (hd : d < 100) (hd' : d' < 100) (h : isoText y m d = isoText y' m' d') :
    y = y' ∧ m = m' ∧ d = d' := by
  have hchars := String.ofList_injective h
  simp only [fourDigits, twoDigits, List.cons_append, List.nil_append, List.cons.injEq, true_and,
    and_true] at hchars
  obtain ⟨h1, h2, h3, h4, h5, h6, h7, h8⟩ := hchars
  have := digit_inj h1
  have := digit_inj h2
  have := digit_inj h3
  have := digit_inj h4
  have := digit_inj h5
  have := digit_inj h6
  have := digit_inj h7
  have := digit_inj h8
  omega

theorem year_lt (d : Date) : (yearMonthDay d.ordinal).1 < 10000 := by
  have hle : d.ordinal ≤ 3652059 := d.le
  unfold yearMonthDay
  dsimp only
  split <;> dsimp only <;> omega

/-- Different days have different texts. -/
theorem isoformat_injective {d e : Date} (h : d.isoformat = e.isoformat) : d = e := by
  obtain ⟨m, hm⟩ : ∃ m, d.ordinal = m + 1 := ⟨d.ordinal - 1, by have := d.pos; omega⟩
  obtain ⟨n, hn⟩ : ∃ n, e.ordinal = n + 1 := ⟨e.ordinal - 1, by have := e.pos; omega⟩
  have hyear := d.year_lt
  have hyear' := e.year_lt
  obtain ⟨hd, hmonth, hday⟩ := ordinal_yearMonthDay m
  obtain ⟨he, hmonth', hday'⟩ := ordinal_yearMonthDay n
  rw [isoformat, isoformat, hm, hn] at h
  rw [hm] at hyear
  rw [hn] at hyear'
  obtain ⟨h1, h2, h3⟩ := isoText_inj hyear hyear' (by omega) (by omega) (by omega) (by omega) h
  apply ext
  rw [hm, hn, hd, he, h1, h2, h3]

end Date

end CopilotRuntime.Foundation

/-!
# Points in time with an offset

A point in time is a day, a time of day, and the offset of the clock that shows them.
It is written in the ISO form without a zero fraction; texts and points in time are
ordered differently.
-/

namespace CopilotRuntime.Foundation

def minuteMicros : Nat := 60000000

def dayMicros : Nat := 86400000000

/-- What a clock shows, and its offset from UTC in minutes. -/
structure Datetime where
  date : Date
  micros : Nat
  offset : Int
  micros_lt : micros < dayMicros

namespace Datetime

/-- Microseconds since the day before the calendar starts, in UTC. -/
def instant (t : Datetime) : Int :=
  t.date.ordinal * dayMicros + t.micros - t.offset * minuteMicros

def sixDigits (n : Nat) : List Char :=
  Date.twoDigits (n / 10000) ++ Date.twoDigits (n / 100) ++ Date.twoDigits n

/-- The fraction of a second; a zero fraction is left out. -/
def fractionText (micros : Nat) : List Char :=
  if micros % 1000000 = 0 then [] else '.' :: sixDigits (micros % 1000000)

def offsetText (offset : Int) : List Char :=
  if offset = 0 then ['Z']
  else
    (if offset < 0 then '-' else '+') ::
      (Date.twoDigits (offset.natAbs / 60) ++ ':' :: Date.twoDigits (offset.natAbs % 60))

def timeText (micros : Nat) : List Char :=
  Date.twoDigits (micros / 3600000000) ++ ':' :: Date.twoDigits (micros / 60000000 % 60) ++
    ':' :: Date.twoDigits (micros / 1000000 % 60)

def isoformat (t : Datetime) : String :=
  String.ofList (t.date.isoformat.toList ++ 'T' :: timeText t.micros ++ fractionText t.micros ++
    offsetText t.offset)

end Datetime

end CopilotRuntime.Foundation
