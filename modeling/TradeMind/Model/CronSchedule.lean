import TradeMind.Library.Cron
import TradeMind.Library.Dictionary
import TradeMind.Model.SignalPublishing

/-!
# The schedule of the cycles

`build_scheduler` of `scheduler/app/main.py`: one cron job for each symbol, staggered within the
candle period, and the daily performance snapshot.  A job that is added under the id of another
replaces it.  Which triggers can be made and when they fire is up to APScheduler.
-/

set_option autoImplicit false

namespace TradeMind.Model.Scheduler

open TradeMind.Model TradeMind.Library

/-- APScheduler's `CronTrigger`, in UTC: which fields it accepts, and the seconds that a trigger of
these fields fires at. -/
structure CronLibrary where
  accepts : CronTrigger → Bool
  firesAt : CronTrigger → ℤ → Prop

/-- What APScheduler documents of it: fields outside the clock are refused, and a trigger fires at
the instants whose hour, minute and second its fields name. -/
structure CronLibrary.Documented (library : CronLibrary) : Prop where
  accepts_iff : ∀ trigger, library.accepts trigger = true ↔ trigger.WellFormed
  firesAt_iff : ∀ trigger, trigger.WellFormed →
    ∀ t, library.firesAt trigger t ↔ trigger.FiresAt t

/-- What of `SchedulerSettings` the schedule reads. -/
structure ScheduleSettings where
  symbols : List Symbol := ["BTC/USDT", "ETH/USDT", "BNB/USDT", "XRP/USDT"]
  timeframe : History.Timeframe
  candleSettleSecond : ℤ := 15
  symbolStaggerSeconds : ℤ := 70
  deriving DecidableEq

/-- The `ValueError`s of `build_scheduler`. -/
inductive ScheduleError
  | overrun (symbol : Symbol) (offsetSeconds timeframeSeconds : ℤ)
  | unevenTimeframe (timeframeSeconds : ℤ)
  /-- What `CronTrigger` refuses. -/
  | unrecognizedExpression
  deriving DecidableEq, Repr

/-- `_cron_minute_field`. -/
def cronMinuteField (timeframeSeconds extraMinutes : ℤ) : Except ScheduleError CronField :=
  if timeframeSeconds = 3600 then .ok (.at extraMinutes)
  else
    let minutes := timeframeSeconds / 60
    if timeframeSeconds % 60 ≠ 0 ∨ minutes ≤ 0 ∨ 60 % minutes ≠ 0 then
      .error (.unevenTimeframe timeframeSeconds)
    else if extraMinutes = 0 then .ok (.every minutes)
    else .ok (.range extraMinutes 59 minutes)

/-- `CronTrigger(minute=..., second=..., timezone=timezone.utc)`. -/
def cronTrigger (library : CronLibrary) (minute : CronField) (second : ℤ) :
    Except ScheduleError CronTrigger :=
  let trigger : CronTrigger := { minute, second := .at second }
  if library.accepts trigger then .ok trigger else .error .unrecognizedExpression

/-- `offset_seconds`. -/
def offsetSeconds (settings : ScheduleSettings) (index : ℕ) : ℤ :=
  settings.candleSettleSecond + index * settings.symbolStaggerSeconds

/-- The trigger of a symbol. -/
def symbolTrigger (library : CronLibrary) (settings : ScheduleSettings) (index : ℕ)
    (symbol : Symbol) : Except ScheduleError CronTrigger :=
  let timeframeSeconds := timeframeToSeconds settings.timeframe
  let offset := offsetSeconds settings index
  if timeframeSeconds ≤ offset then .error (.overrun symbol offset timeframeSeconds)
  else do
    let minuteField ← cronMinuteField timeframeSeconds (offset / 60)
    cronTrigger library minuteField (offset % 60)

/-- The id of the job of a symbol. -/
def jobId (symbol : Symbol) : String := "closed-candle:" ++ symbol

/-- The loop over the symbols. -/
def addJobs (library : CronLibrary) (settings : ScheduleSettings) :
    ℕ → List Symbol → Dict String CronTrigger → Except ScheduleError (Dict String CronTrigger)
  | _, [], jobs => .ok jobs
  | index, symbol :: rest, jobs => do
    let trigger ← symbolTrigger library settings index symbol
    addJobs library settings (index + 1) rest (jobs.insert (jobId symbol) trigger)

/-- The trigger of the daily snapshot; a field after the last that is given is at its least. -/
def snapshotTrigger : CronTrigger where
  hour := .at 0
  minute := .at 7
  second := .at 0

/-- `build_scheduler`: the jobs by their ids. -/
def buildScheduler (library : CronLibrary) (settings : ScheduleSettings) :
    Except ScheduleError (Dict String CronTrigger) := do
  let jobs ← addJobs library settings 0 settings.symbols ∅
  if library.accepts snapshotTrigger then .ok (jobs.insert "performance-snapshot" snapshotTrigger)
  else .error .unrecognizedExpression

end TradeMind.Model.Scheduler
