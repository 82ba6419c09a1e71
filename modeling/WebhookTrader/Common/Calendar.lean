import Mathlib.Data.Nat.Basic

/-!
# Clocks and the civil calendar

`gmtime_r` read as a function of the number of days since 1970-01-01:
the day of the week and the day of the year, in the Gregorian calendar
and in UTC.
-/

namespace WebhookTrader

/-- **The two clocks the program reads**: the steady one in nanoseconds,
the system one in seconds since 1970-01-01. -/
structure Clock where
  steady : ℕ := 0
  system : ℕ := 0
  deriving DecidableEq, Repr

namespace Calendar

/-- The seconds of a day. -/
def daySeconds : ℕ := 86400

/-- The day a time in seconds falls on, counted from 1970-01-01. -/
def day (seconds : ℕ) : ℕ := seconds / daySeconds

/-- `tm_wday`: 1970-01-01 was a Thursday. -/
def weekday (day : ℕ) : ℕ := (day + 4) % 7

/-- The Monday a day's week begins with, for days from the first one on. -/
def lastMonday (day : ℕ) : ℕ := day - (day + 3) % 7

/-- Days since the 1st of March of the year 0, in an era of 400 years. -/
def dayOfEra (day : ℕ) : ℕ := (day + 719468) % 146097

/-- The year of the era, a year beginning in March. -/
def yearOfEra (doe : ℕ) : ℕ := (doe - doe / 1460 + doe / 36524 - doe / 146096) / 365

/-- The day of a year that begins in March. -/
def dayOfMarchYear (doe : ℕ) : ℕ :=
  doe - (365 * yearOfEra doe + yearOfEra doe / 4 - yearOfEra doe / 100)

/-- `tm_yday`: the day of the year, from zero. -/
def yearDay (day : ℕ) : ℕ :=
  let doe := dayOfEra day
  let doy := dayOfMarchYear doe
  let year := yearOfEra doe
  let leap := if year % 4 = 0 ∧ (year % 100 ≠ 0 ∨ year % 400 = 0) then 1 else 0
  if doy < 306 then doy + 59 + leap else doy - 306

example : yearDay 0 = 0 := by decide
example : yearDay 20528 = 74 ∧ weekday 20528 = 1 := by decide

/-! ## Weeks -/

variable {d d' : ℕ}

theorem lastMonday_le : lastMonday d ≤ d := Nat.sub_le _ _

/-- A Monday begins its week. -/
theorem lastMonday_of_monday (h : weekday d = 1) : lastMonday d = d := by
  unfold weekday at h
  unfold lastMonday
  omega

/-- A later day of another week is after the beginning of its own. -/
theorem lt_lastMonday (hle : d ≤ d') (hne : lastMonday d ≠ lastMonday d') :
    d < lastMonday d' := by
  unfold lastMonday at *
  omega

end Calendar

end WebhookTrader
