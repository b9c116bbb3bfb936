/-!
Points in time, and the calendar.

A timestamp counts seconds from the first of January 1970 in universal time, and nanoseconds from
there on.  A leap second is written as second 60; it is kept as a second nanosecond range of the
second before it, so nanoseconds run up to two milliards.
-/

namespace FeatureFlags

/-- A point in time. -/
structure Timestamp where
  seconds : Int
  nanoseconds : Nat
deriving DecidableEq

namespace Timestamp

instance : Inhabited Timestamp := ⟨⟨0, 0⟩⟩

/-- Not later than. -/
instance : LE Timestamp :=
  ⟨fun s t => s.seconds < t.seconds
    ∨ (s.seconds = t.seconds ∧ s.nanoseconds ≤ t.nanoseconds)⟩

instance (s t : Timestamp) : Decidable (s ≤ t) :=
  inferInstanceAs (Decidable (_ ∨ _))

end Timestamp

/-- A day of the Gregorian calendar, which is extended to all years. -/
structure CalendarDay where
  year : Int
  month : Nat
  day : Nat
deriving DecidableEq

namespace CalendarDay

/-- Every fourth year is a leap year, but of the years that end a century only every fourth. -/
def isLeapYear (year : Int) : Bool := year % 4 = 0 && (year % 100 ≠ 0 || year % 400 = 0)

/-- The number of days of a month. -/
def daysInMonth (year : Int) (month : Nat) : Nat :=
  if month = 2 then if isLeapYear year then 29 else 28
  else if month = 4 ∨ month = 6 ∨ month = 9 ∨ month = 11 then 30
  else 31

/-- The calendar has this day. -/
def Exists (d : CalendarDay) : Prop :=
  1 ≤ d.month ∧ d.month ≤ 12 ∧ 1 ≤ d.day ∧ d.day ≤ daysInMonth d.year d.month

instance (d : CalendarDay) : Decidable d.Exists := inferInstanceAs (Decidable (_ ∧ _ ∧ _ ∧ _))

/-- Days from the first of March of the year 0 to the first of January 1970. -/
def epochOffset : Int := 719468

/-- Days since the first of January 1970.  Years are counted from March, so that the leap day is
their last; the months from March on start after 0, 31, 61, 92, … days. -/
def toDays (d : CalendarDay) : Int :=
  let year := if d.month ≤ 2 then d.year - 1 else d.year
  let monthFromMarch : Int := (d.month + 9) % 12
  let dayOfYear := (153 * monthFromMarch + 2) / 5 + d.day - 1
  365 * year + year / 4 - year / 100 + year / 400 + dayOfYear - epochOffset

/-- The day that is so many days after the first of January 1970. -/
def ofDays (days : Int) : CalendarDay :=
  let fromMarch := days + epochOffset
  let era := fromMarch / 146097
  let dayOfEra := fromMarch % 146097
  let yearOfEra := (dayOfEra - dayOfEra / 1460 + dayOfEra / 36524 - dayOfEra / 146096) / 365
  let dayOfYear := dayOfEra - (365 * yearOfEra + yearOfEra / 4 - yearOfEra / 100)
  let monthFromMarch := (5 * dayOfYear + 2) / 153
  let day := dayOfYear - (153 * monthFromMarch + 2) / 5 + 1
  let month := if monthFromMarch < 10 then monthFromMarch + 3 else monthFromMarch - 9
  let year := yearOfEra + 400 * era + if month ≤ 2 then 1 else 0
  ⟨year, month.toNat, day.toNat⟩

end CalendarDay

end FeatureFlags
