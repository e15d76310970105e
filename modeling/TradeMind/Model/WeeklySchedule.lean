import Mathlib.Tactic.Common
import TradeMind.Model.Records

/-!
# The weekly schedules of the notifier

`notifier/main.py`: `_next_weekly_run`, when the weekly email goes out, and
`notifier/public_report.py`: `latest_weekly_end`, where the archived week ends.  A `datetime`
is its instant on the clock it shows; the date is its ordinal, from which Python takes the
weekday, the order and the addition of days, and which is what bounds the range of `datetime`.
-/

set_option autoImplicit false

namespace TradeMind.Model.Weekly

/-- `timedelta(hours=1)`. -/
def hourLength : ℤ := minutes 60

/-- `timedelta(days=1)`. -/
def dayLength : ℤ := 24 * hourLength

/-- `timedelta(days=7)`. -/
def weekLength : ℤ := 7 * dayLength

/-- `toordinal()`: day 1 is the first of January of year 1, day 719163 that of 1970. -/
def toordinal (t : ℤ) : ℤ := dateOf t + 719163

/-- `datetime.max.toordinal()`. -/
def maxOrdinal : ℤ := 3652059

/-- `weekday()`, from 0 for a Monday to 6 for a Sunday. -/
def weekdayOf (t : ℤ) : ℤ := (toordinal t + 6) % 7

/-- `hour`. -/
def hourOf (t : ℤ) : ℤ := t % dayLength / hourLength

/-- `minute`. -/
def minuteOf (t : ℤ) : ℤ := t % hourLength / minutes 1

/-- `second`. -/
def secondOf (t : ℤ) : ℤ := t % minutes 1 / 1000000

/-- `microsecond`. -/
def microsecondOf (t : ℤ) : ℤ := t % 1000000

/-- A `datetime`: its date is between `datetime.min` and `datetime.max`. -/
structure DateTime where
  instant : ℤ
  ordinal_pos : 1 ≤ toordinal instant
  ordinal_le : toordinal instant ≤ maxOrdinal

/-- The errors that computing a weekly run time may raise. -/
inductive DateError
  /-- `OverflowError("date value out of range")`. -/
  | overflow
  /-- `ValueError("UTC-aware time required")`. -/
  | utcAwareRequired
  deriving DecidableEq, Repr

namespace DateTime

/-- `now + delta`. -/
def plus (now : DateTime) (delta : ℤ) : Except DateError DateTime :=
  if h : 1 ≤ toordinal (now.instant + delta) ∧ toordinal (now.instant + delta) ≤ maxOrdinal then
    .ok ⟨now.instant + delta, h.1, h.2⟩
  else .error .overflow

/-- `hour` o'clock of the day of `t`. -/
def onTheHour (t : ℤ) (hour : Fin 24) : ℤ := dateOf t * dayLength + hour * hourLength

theorem toordinal_onTheHour (t : ℤ) (hour : Fin 24) :
    toordinal (onTheHour t hour) = toordinal t := by
  have hhour := hour.isLt
  simp only [onTheHour, toordinal, dateOf, dayLength, hourLength, minutes]
  omega

/-- `now.replace(hour=hour, minute=0, second=0, microsecond=0)`. -/
def replace (now : DateTime) (hour : Fin 24) : DateTime where
  instant := onTheHour now.instant hour
  ordinal_pos := toordinal_onTheHour now.instant hour ▸ now.ordinal_pos
  ordinal_le := toordinal_onTheHour now.instant hour ▸ now.ordinal_le

end DateTime

/-- `_next_weekly_run`. -/
def nextWeeklyRun (now : DateTime) (weekday : Fin 7) (hour : Fin 24) :
    Except DateError DateTime := do
  let nextRun := now.replace hour
  let daysAhead := ((weekday : ℤ) - weekdayOf nextRun.instant) % 7
  let nextRun ← nextRun.plus (daysAhead * dayLength)
  if nextRun.instant ≤ now.instant then nextRun.plus (7 * dayLength) else pure nextRun

/-- The fields of `NotifierSettings` that place the weekly report, with the bounds it checks. -/
structure WeeklySettings where
  weeklyPnlReportWeekdayUtc : Fin 7 := 0
  weeklyPnlReportHourUtc : Fin 24 := 8
  deriving DecidableEq, Repr

/-- A `datetime` with its `utcoffset()`, which a naive one does not have. -/
structure ZonedTime where
  clock : DateTime
  utcoffset : Option ℤ

/-- `latest_weekly_end`. -/
def latestWeeklyEnd (now : ZonedTime) (settings : WeeklySettings) : Except DateError DateTime :=
  match now.utcoffset with
  | none => .error .utcAwareRequired
  | some utcoffset => do
    -- `now.astimezone(timezone.utc)`
    let now ← now.clock.plus (-utcoffset)
    let windowEnd := now.replace settings.weeklyPnlReportHourUtc
    let daysBack :=
      (weekdayOf windowEnd.instant - (settings.weeklyPnlReportWeekdayUtc : ℤ)) % 7
    let windowEnd ← windowEnd.plus (-(daysBack * dayLength))
    if now.instant < windowEnd.instant then windowEnd.plus (-(7 * dayLength)) else pure windowEnd

end TradeMind.Model.Weekly
