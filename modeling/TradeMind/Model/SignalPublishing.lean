import TradeMind.Model.CandleHistory
import TradeMind.Model.SchedulerCycle
import TradeMind.Model.System

/-!
# How a cycle publishes its signal

`_run_locked_cycle` of `scheduler/app/jobs.py` between its awaited effects: the closed candles
of `scheduler/app/market_data.py`, the idempotency key of the last one, the commit of the signal
row with its audit events, the XADD.  Any number of invocations overlap, each over the locks of
`CycleWorld`, and any of them returns, raises or is killed anywhere; in between the other
services read and write the database.
-/

set_option autoImplicit false

namespace TradeMind.Model.Scheduler

open TradeMind.Model TradeMind.Library

universe u

/-! ## The candle of a cycle -/

/-- The letter of a unit. -/
def unitText : History.TimeframeUnit → String
  | .s => "s"
  | .m => "m"
  | .h => "h"
  | .d => "d"

/-- `SchedulerSettings.timeframe` as it is configured. -/
def timeframeText (timeframe : History.Timeframe) : String :=
  toString timeframe.count ++ unitText timeframe.unit

/-- `_TIMEFRAME_UNIT_SECONDS`. -/
def timeframeUnitSeconds : History.TimeframeUnit → ℤ
  | .s => 1
  | .m => 60
  | .h => 3600
  | .d => 86400

/-- `timeframe_to_seconds`. -/
def timeframeToSeconds (timeframe : History.Timeframe) : ℤ :=
  timeframe.count * timeframeUnitSeconds timeframe.unit

/-- What of `SchedulerSettings` a cycle reads here. -/
structure CycleSettings where
  timeframe : History.Timeframe
  candleLookback : ℕ := 200

/-- `xs[-limit:]`. -/
def lastOf {α : Type} (xs : List α) (limit : ℕ) : List α :=
  if limit = 0 then xs else xs.drop (xs.length - limit)

/-- `fetch_closed_candles`, from the rows and the clock of the exchange. -/
def fetchClosedCandles (settings : CycleSettings) (raw : List History.Candle) (nowMs : ℤ) :
    List History.Candle :=
  lastOf (raw.filter fun candle =>
    candle.t + timeframeToSeconds settings.timeframe * 1000 ≤ nowMs) settings.candleLookback

/-- `candle_ts` of the signal row: the close of the candle. -/
def candleTs (timeframe : History.Timeframe) (candleOpenMs : ℤ) : Time :=
  (candleOpenMs + timeframeToSeconds timeframe * 1000) * 1000

/-- `idempotency_key`. -/
def idempotencyKey (timeframe : History.Timeframe) (symbol : Symbol) (candleOpenMs : ℤ) :
    SectionKey :=
  .candleIdempotency symbol (timeframeText timeframe) (toString candleOpenMs)

/-! ## The signal row -/

/-- The member's `.value`. -/
def actionText : Action → String
  | .BUY => "BUY"
  | .SELL => "SELL"
  | .HOLD => "HOLD"

/-- The edge that `_track_llm_analyze_health` finds the counter at: the streak that reaches the
threshold, or the first good call after such a streak. -/
inductive HealthEdge
  | streak (streak threshold : ℤ)
  | recovered (previous : ℤ)
  deriving DecidableEq, Repr

/-- What a cycle has from its candles and `/analyze` when it opens its session. -/
structure CycleAnswer where
  traceId : Uuid
  action : Action
  confidence : ℚ
  price : ℚ
  atr14 : ℚ
  tradeScore : Option ℤ
  setupRegime : Option String
  volatilityRegime : Option String
  reasoning : String
  modelName : String
  health : Option HealthEdge

/-- What `_track_llm_analyze_health` adds to the session. -/
def CycleAnswer.alert (symbol : Symbol) (answer : CycleAnswer) : Option HealthAlert :=
  let call : HealthCall :=
    { symbol
      traceId := answer.traceId
      reasoning := answer.reasoning
      modelName := answer.modelName }
  answer.health.map fun edge =>
    match edge with
    | .streak streak threshold => streakAlert call streak threshold
    | .recovered previous => recoveredAlert call previous

/-- `signal_row`. -/
def signalRow (id : Uuid) (timeframe : History.Timeframe) (symbol : Symbol) (candleOpenMs : ℤ)
    (answer : CycleAnswer) : Signal where
  id
  traceId := answer.traceId
  symbol
  candleTs := candleTs timeframe candleOpenMs
  action := answer.action
  confidence := answer.confidence
  price := answer.price
  atr14 := answer.atr14
  tradeScore := answer.tradeScore
  setupRegime := answer.setupRegime
  volatilityRegime := answer.volatilityRegime

/-- The payload of `SIGNAL_RECEIVED`. -/
def signalReceivedPayload (signal : Signal) : Payload :=
  [("signal_id", PayloadAtom.uuid signal.id), ("symbol", PayloadAtom.text signal.symbol),
    ("action", PayloadAtom.text (actionText signal.action)),
    ("confidence", PayloadAtom.number signal.confidence),
    ("trade_score", PayloadAtom.ofNumber (signal.tradeScore.map fun score => (score : ℚ))),
    ("setup_regime", PayloadAtom.ofText signal.setupRegime),
    ("volatility_regime", PayloadAtom.ofText signal.volatilityRegime)]

/-- The session of a cycle: the row whose id is `nextId` and its audit events. -/
def recordSignal (db : Database) (startedAt : Time) (signal : Signal)
    (alert : Option HealthAlert) : Database :=
  let db := { db with signals := db.signals ++ [signal], nextId := db.nextId + 1 }
  let db := db.addAuditEvent startedAt signal.traceId .SIGNAL_RECEIVED
    (signalReceivedPayload signal)
  match alert with
  | none => db
  | some alert => db.addAuditEvent startedAt alert.traceId alert.eventType alert.payload

/-! ## The machine -/

/-- Where an invocation stands in its locked section. -/
inductive CycleStage
  | fetching
  /-- It set the idempotency key of the candle. -/
  | claimed (symbol : Symbol) (candleOpenMs : ℤ)
  /-- The row of the signal is committed. -/
  | committed (signalId : Uuid)
  /-- Returned or raised, with the id of a row it did not publish. -/
  | left (unpublished : Option Uuid)
  /-- The process is gone, and with it the `finally` block. -/
  | killed (unpublished : Option Uuid)
  deriving DecidableEq, Repr

/-- The row an invocation has committed and not published. -/
def CycleStage.unpublished : CycleStage → Option Uuid
  | .fetching | .claimed _ _ => none
  | .committed signalId => some signalId
  | .left unpublished | .killed unpublished => unpublished

variable {ι : Type u}

/-- The cycles, the committed tables with the Redis of the risk engine, and the signal ids of
`SIGNALS_PENDING_STREAM`. -/
structure PublishingWorld (ι : Type u) where
  cycles : CycleWorld ι
  stage : ι → CycleStage
  world : World
  stream : List Uuid

/-- One step of the services that share the signals: of a scheduler cycle, of the risk engine, or of
what writes the book. -/
inductive PublishingStep (ι : Type u)
  | pass (duration : ℕ)
  | acquire (i : ι) (symbol : Symbol)
  /-- `set(idempotency_key, "1", nx=True, ex=2 * timeframe_seconds)` for the candles fetched. -/
  | claim (i : ι) (raw : List History.Candle) (nowMs : ℤ) (fault : Option Fault)
  | commit (i : ι) (startedAt : Time) (answer : CycleAnswer) (fault : Option Fault)
  /-- `xadd(SIGNALS_PENDING_STREAM, ...)`. -/
  | xadd (i : ι) (fault : Option Fault)
  /-- `_run_locked_cycle` returns or raises between two effects. -/
  | leave (i : ι)
  | release (i : ι)
  | kill (i : ι)
  /-- A transaction of another service. -/
  | other (step : Step)

namespace PublishingWorld

variable [DecidableEq ι]

/-- The invocation moves on. -/
def moveTo (w : PublishingWorld ι) (i : ι) (stage : CycleStage) : PublishingWorld ι :=
  { w with stage := Function.update w.stage i stage }

/-- The claim of a candle; a key that lives ends the section. -/
def claim (timeframe : History.Timeframe) (w : PublishingWorld ι) (i : ι) (symbol : Symbol)
    (candleOpenMs : ℤ) (fault : Option Fault) : PublishingWorld ι :=
  let key := idempotencyKey timeframe symbol candleOpenMs
  let claimed :=
    { w with
      cycles := cycleStep w.cycles (.write i key
        (some
          { value := "1"
            expiresAt := some (w.cycles.now + seconds (2 * timeframeToSeconds timeframe)) })) }
  if fault = some .before then w.moveTo i (.left none)
  else if (w.cycles.redis.get w.cycles.now key.name).isSome then w.moveTo i (.left none)
  else if fault = some .after then claimed.moveTo i (.left none)
  else claimed.moveTo i (.claimed symbol candleOpenMs)

/-- The commit of the signal of a claimed candle. -/
def commit (timeframe : History.Timeframe) (w : PublishingWorld ι) (i : ι) (symbol : Symbol)
    (candleOpenMs : ℤ) (startedAt : Time) (answer : CycleAnswer) (fault : Option Fault) :
    PublishingWorld ι :=
  let id := w.world.db.nextId
  let db := recordSignal w.world.db startedAt
    (signalRow id timeframe symbol candleOpenMs answer) (answer.alert symbol)
  let recorded := { w with world := { w.world with db } }
  match fault with
  | some .before => w.moveTo i (.left none)
  | some .after => recorded.moveTo i (.left (some id))
  | none => recorded.moveTo i (.committed id)

/-- The XADD of a committed signal. -/
def xadd (w : PublishingWorld ι) (i : ι) (signalId : Uuid) (fault : Option Fault) :
    PublishingWorld ι :=
  if fault = some .before then w.moveTo i (.left (some signalId))
  else { w with stream := w.stream ++ [signalId] }.moveTo i (.left none)

end PublishingWorld

variable [DecidableEq ι]

/-- One step; one that does not fit where the invocation stands changes nothing. -/
def publishingStep (settings : CycleSettings) (w : PublishingWorld ι) :
    PublishingStep ι → PublishingWorld ι
  | .pass duration => { w with cycles := cycleStep w.cycles (.pass duration) }
  | .acquire i symbol =>
    match w.stage i with
    | .fetching => { w with cycles := cycleStep w.cycles (.acquire i symbol) }
    | _ => w
  | .claim i raw nowMs fault =>
    match w.cycles.phase i, w.stage i with
    | .locked symbol _, .fetching =>
      let candles := fetchClosedCandles settings raw nowMs
      match candles.getLast? with
      | some latest =>
        if candles.length < 2 then w.moveTo i (.left none)
        else w.claim settings.timeframe i symbol latest.t fault
      | none => w.moveTo i (.left none)
    | _, _ => w
  | .commit i startedAt answer fault =>
    match w.stage i with
    | .claimed symbol candleOpenMs =>
      w.commit settings.timeframe i symbol candleOpenMs startedAt answer fault
    | _ => w
  | .xadd i fault =>
    match w.stage i with
    | .committed signalId => w.xadd i signalId fault
    | _ => w
  | .leave i =>
    match w.stage i with
    | .killed _ => w
    | stage => w.moveTo i (.left stage.unpublished)
  | .release i =>
    match w.stage i with
    | .left _ => { w with cycles := cycleStep w.cycles (.release i) }
    | _ => w
  | .kill i => w.moveTo i (.killed (w.stage i).unpublished)
  | .other other => { w with world := step w.world other }

end TradeMind.Model.Scheduler
