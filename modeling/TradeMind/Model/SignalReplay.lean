import Mathlib.Data.Prod.Lex
import TradeMind.Library.CallCache
import TradeMind.Library.PartialRun
import TradeMind.Model.MechanicalReplay
import TradeMind.Model.SentimentProviders

/-!
# The replay of the signals

`scripts/backtest/replay.py`: `run` over fetched histories, close by close, with the LLM service
behind the `ResponseCache` of `scripts/backtest/cache.py`.  The calls of one close overlap in any
order.  A request is the payload of `/analyze`; the hash of its JSON is a parameter, and so is what
pandas computes of a window.
-/

set_option autoImplicit false

namespace TradeMind.Model.Backtest

open TradeMind.Model TradeMind.Library

instance : DecidableEq (Sentiment.MarketSentiment ℚ) := fun a b =>
  decidable_of_iff (a.score = b.score ∧ a.state = b.state ∧ a.confidence = b.confidence ∧
    a.reasons = b.reasons) (by cases a; cases b; simp)

/-- The payload of `build_payload`. -/
structure SignalRequest where
  request : Llm.AnalyzeRequest
  sentiment : Sentiment.MarketSentiment ℚ
  deriving DecidableEq

/-- What `run` reads of the JSON of a response; `none` is missing. -/
structure SignalAnswer where
  action : Option String
  confidence : Option ℚ
  deriving DecidableEq, Repr

/-- What `call_analyze` returns for a transport failure. -/
def unreachableAnswer : SignalAnswer where
  action := some "HOLD"
  confidence := some 0

/-- `Action(value)`. -/
def actionOf (value : String) : Option Action :=
  if value = "BUY" then some .BUY
  else if value = "SELL" then some .SELL
  else if value = "HOLD" then some .HOLD
  else none

/-- The arguments and the settings of a run, and the histories it fetched. -/
structure SignalReplay where
  timeframe : History.Timeframe
  timeframeText : String
  startMs : ℤ
  endMs : ℤ
  candleLookback : ℕ
  /-- A lookback of zero, which makes the loop decide at the index before the first, is left out. -/
  lookback_pos : 0 < candleLookback
  llmOhlcvWindow : ℕ
  riskConfig : RiskConfig
  startingEquityUsdt : ℚ
  feePct : ℚ
  slippagePct : ℚ
  compounding : Bool
  candlesBySymbol : Dict Symbol CandleSeries
  /-- `compute_indicators` of a window, where each entry is a number; `none` where it raises. -/
  computeIndicators : List History.Candle → Option Scheduler.IndicatorValues
  /-- `iso`. -/
  iso : ℤ → String

/-- A row of `--signals-out`. -/
structure SignalRow where
  timestamp : Time
  symbol : Symbol
  action : Action
  confidence : ℚ
  cacheHit : Bool
  outcome : String
  reason : String
  deriving DecidableEq, Repr

/-- What the replay loop carries from one close to the next: the ledger and the rows of the
decisions. -/
structure SignalRun where
  ledger : Ledger
  rows : List SignalRow := []

/-- `_reason_text`. -/
def reasonText (rejectionReason : Option RejectionReason) : String :=
  (rejectionReason.map RejectionReason.value).getD ""

namespace SignalReplay

variable (replay : SignalReplay)

/-- The events of a symbol. -/
def eventsOf (symbol : Symbol) (series : CandleSeries) : List ReplayEvent :=
  (decisionIndices series.candles.length replay.candleLookback).filterMap fun i =>
    series.candles[i]?.bind fun candle =>
      let closeTs := candle.t + History.timeframeToMs replay.timeframe
      if replay.startMs ≤ closeTs ∧ closeTs < replay.endMs then some ⟨closeTs, symbol, i⟩
      else none

/-- `events`, sorted by close and symbol. -/
def events : List ReplayEvent :=
  sortBy (fun event => toLex (event.closeTs, event.symbol))
    (replay.candlesBySymbol.entries.flatMap fun entry => replay.eventsOf entry.1 entry.2)

/-- The groups of `groupby`. -/
def closes : List (List ReplayEvent) :=
  replay.events.splitBy fun a b => a.closeTs == b.closeTs

/-- `candles_by_symbol[symbol][i]`. -/
def candleAt (symbol : Symbol) (i : ℕ) : Option History.Candle :=
  (replay.candlesBySymbol.lookup symbol).bind fun series => series.candles[i]?

/-- `candles[i - 1]`, which is the last candle for the first. -/
def candleBefore (symbol : Symbol) (i : ℕ) : Option History.Candle :=
  if i = 0 then
    (replay.candlesBySymbol.lookup symbol).bind fun series => series.candles.getLast?
  else replay.candleAt symbol (i - 1)

/-- The static exits of a close. -/
def staticExits (ledger : Ledger) (group : List ReplayEvent) : Option Ledger :=
  group.foldlM (fun ledger event => do
    let candle ← replay.candleAt event.symbol event.index
    let exited ← ledger.checkStaticExit event.symbol
      ⟨candle.ohlcv.o, candle.ohlcv.h, candle.ohlcv.l⟩ event.now
    some exited.1) ledger

/-- The candles up to the event that the indicators are of. -/
def window (event : ReplayEvent) : Option (List History.Candle) :=
  (replay.candlesBySymbol.lookup event.symbol).map fun series =>
    (series.candles.take (event.index + 1)).drop (event.index + 1 - replay.candleLookback)

/-- The payload `build_and_call` makes of an event; `none` where it raises. -/
def requestAt (ledger : Ledger) (event : ReplayEvent) : Option SignalRequest := do
  let window ← replay.window event
  let values ← replay.computeIndicators window
  let latest ← replay.candleAt event.symbol event.index
  let previous ← replay.candleBefore event.symbol event.index
  let sentiment ←
    (Sentiment.cycleSentiment previous.ohlcv latest.ohlcv values).toOption
  let positionContext ←
    positionContext latest.ohlcv.c (ledger.positions.lookup event.symbol)
  some
    { request :=
        { symbol := event.symbol
          timeframe := replay.timeframeText
          candleCloseTime := replay.iso event.closeTs
          ohlcv := (MechanicalReplay.lastOf replay.llmOhlcvWindow window).map fun candle =>
            { t := replay.iso candle.t
              o := candle.ohlcv.o
              h := candle.ohlcv.h
              l := candle.ohlcv.l
              c := candle.ohlcv.c
              v := candle.ohlcv.v }
          indicators :=
            { rsi14 := values.rsi14
              ema50 := values.ema50
              ema200 := values.ema200
              macd := values.macd
              atr14 := values.atr14
              volumeSma20 := values.volumeSma20 }
          positionContext }
      sentiment }

/-- What a decision does to the ledger, with its outcome and reason; `none` where it raises. -/
def act (ledger : Ledger) (event : ReplayEvent) (signalView : SignalView) :
    Option (Ledger × String × String) :=
  match signalView.action, ledger.positions.lookup event.symbol with
  | .BUY, none => do
    let following ← replay.candleAt event.symbol (event.index + 1)
    let (ledger, result, position) ← ledger.applyEntry event.symbol signalView
      replay.riskConfig event.now following.ohlcv.o
    some (ledger,
      if position.isSome then ("entered", "") else ("rejected", reasonText result.rejectionReason))
  | .SELL, some _ => do
    let following ← replay.candleAt event.symbol (event.index + 1)
    let (ledger, result, trade) ← ledger.applyExitSignal event.symbol signalView
      replay.riskConfig event.now following.ohlcv.o
    some (ledger,
      if trade.isSome then ("exited", "") else ("rejected", reasonText result.rejectionReason))
  | _, _ => some (ledger, "no_action", "")

/-- The loop body for the answer of one event; no run where it raises. -/
def decide (run : SignalRun) (event : ReplayEvent) (request : SignalRequest)
    (answer : SignalAnswer) (cacheHit : Bool) : Option SignalRun := do
  let action ← answer.action.bind actionOf
  let confidence ← answer.confidence
  let latest ← replay.candleAt event.symbol event.index
  let (ledger, outcome, reason) ← replay.act run.ledger event
    { id := 0
      symbol := event.symbol
      action
      confidence
      candleTs := event.now
      price := latest.ohlcv.c
      atr14 := request.request.indicators.atr14 }
  some
    { ledger
      rows := run.rows ++
        [⟨event.now, event.symbol, action, confidence, cacheHit, outcome, reason⟩] }

/-- An answer `call_analyze` gives to an event's request, and whether it is cached. -/
structure Result where
  event : ReplayEvent
  request : SignalRequest
  answer : SignalAnswer
  cacheHit : Bool

/-- The loop over the results of a close. -/
def decideAll (run : SignalRun) (results : List Result) : Option SignalRun :=
  results.foldlM (fun run result =>
    replay.decide run result.event result.request result.answer result.cacheHit) run

/-- The requests of a close, from the ledger after its static exits. -/
def requestsAt (ledger : Ledger) (group : List ReplayEvent) :
    Option (List (ReplayEvent × SignalRequest)) :=
  group.mapM fun event => (replay.requestAt ledger event).map (Prod.mk event)

/-- The ledger and the rows before the loop. -/
def start : SignalRun where
  ledger :=
    { startingEquityUsdt := replay.startingEquityUsdt
      feePct := replay.feePct
      slippagePct := replay.slippagePct
      compounding := replay.compounding }

/-! ## With the service alone -/

/-- A close whose requests are each answered by `f`. -/
def plainClose (f : SignalRequest → SignalAnswer) (run : SignalRun) (group : List ReplayEvent) :
    Option SignalRun := do
  let ledger ← replay.staticExits run.ledger group
  let requests ← replay.requestsAt ledger group
  replay.decideAll { run with ledger } (requests.map fun asked =>
    ⟨asked.1, asked.2, f asked.2, false⟩)

/-- A run without a cache against a service that answers by `f`. -/
def plainRun (f : SignalRequest → SignalAnswer) : Option SignalRun :=
  runPartial (replay.plainClose f) replay.start replay.closes

/-! ## Behind the cache -/

variable {κ : Type} [DecidableEq κ]

/-- What is outside a run: what each call is answered if it is sent, `none` for an `HTTPError` or
a `ValueError`, and in which order the calls of a close look at the cache and are replied to. -/
structure Surroundings where
  service : ReplayEvent → SignalRequest → Option SignalAnswer
  turns : ℤ → List (CallStep Symbol)

/-- The request of a symbol at a close. -/
def requestOf (requests : List (ReplayEvent × SignalRequest)) (symbol : Symbol) :
    Option (ReplayEvent × SignalRequest) :=
  requests.find? fun asked => asked.1.symbol = symbol

/-- `asyncio.gather` over the calls of a close. -/
def gather (key : SignalRequest → κ) (around : Surroundings) (cache : Dict κ SignalAnswer)
    (closeTs : ℤ) (requests : List (ReplayEvent × SignalRequest)) :
    CallCache Symbol κ SignalAnswer :=
  runFrom
    (callStep key (fun symbol => (requestOf requests symbol).map Prod.snd)
      fun symbol => (requestOf requests symbol).bind fun asked => around.service asked.1 asked.2)
    (.fresh cache) (around.turns closeTs)

/-- What `call_analyze` returns. -/
def resultOf (asked : ReplayEvent × SignalRequest) : CallPhase SignalAnswer → Option Result
  | .answered answer hit => some ⟨asked.1, asked.2, answer, hit⟩
  | .failed => some ⟨asked.1, asked.2, unreachableAnswer, false⟩
  | .waiting | .sent => none

/-- A close; no run where it raises, or where a call is never replied to. -/
def close (key : SignalRequest → κ) (around : Surroundings)
    (state : SignalRun × Dict κ SignalAnswer) (group : List ReplayEvent) :
    Option (SignalRun × Dict κ SignalAnswer) := do
  let ledger ← replay.staticExits state.1.ledger group
  let requests ← replay.requestsAt ledger group
  let closeTs ← group.head?.map ReplayEvent.closeTs
  let calls := gather key around state.2 closeTs requests
  let results ← requests.mapM fun asked => resultOf asked (calls.phase asked.1.symbol)
  let run ← replay.decideAll { state.1 with ledger } results
  some (run, calls.cache)

/-- `run`: what it leaves of the ledger, its rows and the cache. -/
def run (key : SignalRequest → κ) (around : Surroundings) (cache : Dict κ SignalAnswer) :
    Option (SignalRun × Dict κ SignalAnswer) :=
  runPartial (replay.close key around) (replay.start, cache) replay.closes

end SignalReplay

end TradeMind.Model.Backtest
