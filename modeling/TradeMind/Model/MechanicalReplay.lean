import Mathlib.Data.Prod.Lex
import Mathlib.Data.String.Basic
import TradeMind.Library.PartialRun
import TradeMind.Model.BacktestReport
import TradeMind.Model.CandleHistory

/-!
# The run of the mechanical replay

`scripts/backtest/mechanical_replay.py`: `run`, from the candle histories to the ledger and the
journal dimensions.  The decision candles of all symbols are visited close by close; at each
close the static exits of its symbols come first, then their decisions.  The indicators of a
window are whatever `compute_indicators` makes of it.
-/

set_option autoImplicit false

namespace TradeMind.Model.Backtest

open TradeMind.Model TradeMind.Library

/-- The candles of a symbol as `get_range` returns them: by the time they open, one at a time. -/
structure CandleSeries where
  candles : List History.Candle
  ascending : candles.Pairwise fun a b => a.t < b.t

/-- The arguments and the settings of a run, the histories it fetched, and what is outside. -/
structure MechanicalReplay where
  timeframe : History.Timeframe
  timeframeText : String
  startMs : ℤ
  endMs : ℤ
  candleLookback : ℕ
  lookback_pos : 0 < candleLookback
  llmOhlcvWindow : ℕ
  settings : MechanicalSettings
  startingEquityUsdt : ℚ
  feePct : ℚ
  slippagePct : ℚ
  compounding : Bool
  ignoreKillswitch : Bool
  candlesBySymbol : Dict Symbol CandleSeries
  /-- `compute_indicators`; `none` where it raises. -/
  computeIndicators : List History.Candle → Option Llm.Indicators
  /-- `iso`. -/
  iso : ℤ → String

/-- `decision_indices`. -/
def decisionIndices (nCandles lookback : ℕ) : List ℕ :=
  List.range' (lookback - 1) (nCandles - 1 - (lookback - 1))

/-- `(close_ts, symbol, i)`. -/
structure ReplayEvent where
  closeTs : ℤ
  symbol : Symbol
  index : ℕ
  deriving DecidableEq, Repr

/-- `datetime.fromtimestamp(close_ts / 1000)`. -/
def ReplayEvent.now (event : ReplayEvent) : Time := event.closeTs * 1000

/-- The key of a trade entered at the event. -/
def ReplayEvent.key (event : ReplayEvent) : TradeKey := (event.symbol, event.now)

/-- The two loops over the events of one close. -/
inductive ReplayPhase
  | staticExit | decision
  deriving DecidableEq, Repr

namespace MechanicalReplay

/-- The events of a symbol. -/
def eventsOf (replay : MechanicalReplay) (symbol : Symbol) (series : CandleSeries) :
    List ReplayEvent :=
  (decisionIndices series.candles.length replay.candleLookback).filterMap fun i =>
    series.candles[i]?.bind fun candle =>
      let closeTs := candle.t + History.timeframeToMs replay.timeframe
      if replay.startMs ≤ closeTs ∧ closeTs < replay.endMs then some ⟨closeTs, symbol, i⟩
      else none

/-- `events`, sorted by close and symbol. -/
def events (replay : MechanicalReplay) : List ReplayEvent :=
  sortBy (fun event => toLex (event.closeTs, event.symbol))
    (replay.candlesBySymbol.entries.flatMap fun entry => replay.eventsOf entry.1 entry.2)

/-- What the loop does in order: the groups of `groupby`, each visited twice. -/
def schedule (replay : MechanicalReplay) : List (ReplayPhase × ReplayEvent) :=
  (replay.events.splitBy fun a b => a.closeTs == b.closeTs).flatMap fun group =>
    group.map (fun event => (.staticExit, event)) ++ group.map (fun event => (.decision, event))

/-- `candles_by_symbol[symbol][i]`. -/
def candleAt (replay : MechanicalReplay) (symbol : Symbol) (i : ℕ) : Option History.Candle :=
  (replay.candlesBySymbol.lookup symbol).bind fun series => series.candles[i]?

/-- `window[-n:]`, the whole window for zero. -/
def lastOf {α : Type} (n : ℕ) (window : List α) : List α :=
  if n = 0 then window else window.drop (window.length - n)

/-- The request `build_context` makes; its position context is the ledger's. -/
def requestAt (replay : MechanicalReplay) (event : ReplayEvent) : Option Llm.AnalyzeRequest := do
  let series ← replay.candlesBySymbol.lookup event.symbol
  let window := (series.candles.take (event.index + 1)).drop
    (event.index + 1 - replay.candleLookback)
  let indicators ← replay.computeIndicators window
  some
    { symbol := event.symbol
      timeframe := replay.timeframeText
      candleCloseTime := replay.iso event.closeTs
      ohlcv := (lastOf replay.llmOhlcvWindow window).map fun candle =>
        { t := replay.iso candle.t
          o := candle.ohlcv.o
          h := candle.ohlcv.h
          l := candle.ohlcv.l
          c := candle.ohlcv.c
          v := candle.ohlcv.v }
      indicators
      positionContext := { hasOpenPosition := false } }

/-- What one visit of an event does. -/
def visit (replay : MechanicalReplay) (event : ReplayEvent) :
    ReplayPhase → Option MechanicalStep
  | .staticExit => do
    let candle ← replay.candleAt event.symbol event.index
    some (.staticExit event.symbol ⟨candle.ohlcv.o, candle.ohlcv.h, candle.ohlcv.l⟩ event.now)
  | .decision => do
    let request ← replay.requestAt event
    let following ← replay.candleAt event.symbol (event.index + 1)
    some (.decision event.symbol request event.now following.ohlcv.o)

/-- The loop body; no run where it raises. -/
def step (replay : MechanicalReplay) (run : MechanicalRun)
    (visited : ReplayPhase × ReplayEvent) : Option MechanicalRun :=
  (replay.visit visited.2 visited.1).bind (run.apply replay.settings)

/-- The ledger and the maps before the loop. -/
def start (replay : MechanicalReplay) : MechanicalRun :=
  { ledger :=
      { startingEquityUsdt := replay.startingEquityUsdt
        feePct := replay.feePct
        slippagePct := replay.slippagePct
        compounding := replay.compounding
        ignoreKillswitch := replay.ignoreKillswitch } }

/-- The loop over a part of the schedule. -/
def runTo (replay : MechanicalReplay) (visited : List (ReplayPhase × ReplayEvent)) :
    Option MechanicalRun :=
  runPartial replay.step replay.start visited

end MechanicalReplay

end TradeMind.Model.Backtest
