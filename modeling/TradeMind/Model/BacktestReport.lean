import TradeMind.Model.AnalysisPipeline
import TradeMind.Model.BacktestLedger
import TradeMind.Model.PerformanceReport

/-!
# The reports of the offline backtest

`scripts/backtest`: the drawdown of `replay.py`, the rows `report.py` makes of closed trades,
the loop of `mechanical_replay.py` with the journal dimensions it collects, and the trades CSV
it writes and `expectancy_report.py` reads back.  `csv` and the `Decimal` constructor give back
what was written; an instant stands for its ISO text.
-/

set_option autoImplicit false

namespace TradeMind.Model.Backtest

open TradeMind.Model TradeMind.Library

/-- `replay.py`'s `max_drawdown_pct`; `sorted` is stable. -/
def maxDrawdownPct (startingEquity : ℚ) (trades : List ClosedTrade) : ℚ :=
  ((trades.insertionSort fun a b => a.exitTime ≤ b.exitTime).foldl
    (fun (acc : ℚ × ℚ × ℚ) trade =>
      let equity := acc.1 + trade.pnlUsdt
      let peak := max acc.2.1 equity
      (equity, peak, if 0 < peak then max acc.2.2 ((peak - equity) / peak) else acc.2.2))
    (startingEquity, startingEquity, 0)).2.2

/-! ## The journal dimensions of a trade -/

/-- `TradeKey`: the symbol and the entry time. -/
abbrev TradeKey := Symbol × Time

/-- `_UNKNOWN_REGIME`. -/
def unknownRegime : String := "unknown"

/-- The maps `mechanical_replay` joins to its closed trades. -/
structure TradeDims where
  regimes : TradeKey → Option String := fun _ => none
  scores : TradeKey → Option ℤ := fun _ => none
  volatilities : TradeKey → Option String := fun _ => none

def ClosedTrade.key (trade : ClosedTrade) : TradeKey := (trade.symbol, trade.entryTime)

/-- The row `metrics_from_closed_trades` makes of a trade; the ledger has netted the fees. -/
def ClosedTrade.toMetrics (dims : TradeDims) (trade : ClosedTrade) : ClosedTradeMetrics :=
  { pnlUsdt := trade.pnlUsdt
    rMultiple := trade.rMultiple
    feesUsdt := none
    closedAt := trade.exitTime
    marketRegime := (dims.regimes trade.key).filter fun regime => regime ≠ unknownRegime
    volatilityRegime := dims.volatilities trade.key
    tradeScore := dims.scores trade.key }

/-- `metrics_from_closed_trades`. -/
def metricsFromClosedTrades (trades : List ClosedTrade) (dims : TradeDims) :
    List ClosedTradeMetrics :=
  trades.map (ClosedTrade.toMetrics dims)

/-! ## The trades CSV -/

/-- `Decimal.quantize` to a number of digits: half to even. -/
def quantize (digits : ℕ) (value : ℚ) : ℚ :=
  Llm.roundHalfEven (value * 10 ^ digits) / 10 ^ digits

/-- The columns of a trades CSV the reader looks at; an empty number cell is `none`. -/
structure TradeRow where
  exitTime : Time
  pnlUsdt : ℚ
  rMultiple : Option ℚ
  entryRegime : String
  volatilityRegime : String
  score : Option ℤ
  deriving DecidableEq, Repr

/-- The row written for a closed trade. -/
def tradeRow (dims : TradeDims) (trade : ClosedTrade) : TradeRow :=
  { exitTime := trade.exitTime
    pnlUsdt := quantize 2 trade.pnlUsdt
    rMultiple := trade.rMultiple.map (quantize 4)
    entryRegime := (dims.regimes trade.key).getD unknownRegime
    volatilityRegime := (dims.volatilities trade.key).getD ""
    score := dims.scores trade.key }

/-- The characters `str.strip` removes. -/
def isSpace (c : Char) : Bool :=
  c.toNat ∈ [0x09, 0x0a, 0x0b, 0x0c, 0x0d, 0x1c, 0x1d, 0x1e, 0x1f, 0x20, 0x85, 0xa0, 0x1680,
    0x2028, 0x2029, 0x202f, 0x205f, 0x3000] || (0x2000 ≤ c.toNat && c.toNat ≤ 0x200a)

/-- `str.strip`. -/
def strip (text : String) : String :=
  String.ofList (((text.toList.dropWhile isSpace).reverse.dropWhile isSpace).reverse)

/-- The row `metrics_from_csv` makes of a line. -/
def TradeRow.toMetrics (row : TradeRow) : ClosedTradeMetrics :=
  let regime := strip row.entryRegime
  let volatility := strip row.volatilityRegime
  { pnlUsdt := row.pnlUsdt
    rMultiple := row.rMultiple
    feesUsdt := none
    closedAt := row.exitTime
    marketRegime := if regime = "" ∨ regime = unknownRegime then none else some regime
    volatilityRegime := if volatility = "" then none else some volatility
    tradeScore := row.score }

/-- `metrics_from_csv` of the file written for closed trades. -/
def metricsFromCsv (trades : List ClosedTrade) (dims : TradeDims) : List ClosedTradeMetrics :=
  (trades.map (tradeRow dims)).map TradeRow.toMetrics

/-! ## The mechanical replay -/

structure MechanicalDecision where
  action : Action
  regime : Llm.StrategyName
  volatilityRegime : Llm.VolatilityRegime
  tradeScore : ℤ

/-- The settings of a mechanical replay. -/
structure MechanicalSettings where
  risk : RiskConfig
  thresholds : Llm.Thresholds
  suppressBuyRegimes : List String
  assumedRewardMultiple : ℚ := 2

/-- `mechanical_decision`. -/
def mechanicalDecision (settings : MechanicalSettings) (context : Llm.MarketContext) :
    MechanicalDecision :=
  let stubOutput : Llm.LLMOutput :=
    { action := if context.position.hasOpenPosition then .SELL else .BUY
      confidence := 99 / 100
      reasoning :=
        "mechanical-replay stub: always proposes the natural action for the rubric to gate"
      invalidationCondition := "n/a" }
  let strategy := Llm.selectStrategy context
  let volatilityRegime := Llm.classifyVolatility context
  let score := Llm.scoreTrade settings.assumedRewardMultiple context strategy volatilityRegime
  let action :=
    (Llm.validateSignalSemantics context stubOutput settings.thresholds).output.action
  { action :=
      if action = .BUY ∧ strategy.strategy.value ∈ settings.suppressBuyRegimes then .HOLD
      else action
    regime := strategy.strategy
    volatilityRegime
    tradeScore := score.total }

/-- The ledger of a mechanical replay and the dimensions collected so far. -/
structure MechanicalRun where
  ledger : Ledger
  entryRegimes : Symbol → Option String := fun _ => none
  entryScores : Symbol → Option ℤ := fun _ => none
  entryVolatility : Symbol → Option String := fun _ => none
  dims : TradeDims := {}

/-- `_carry_entry_dims`. -/
def MechanicalRun.carryEntryDims (run : MechanicalRun) (key : TradeKey) (symbol : Symbol) :
    MechanicalRun :=
  let carry {α : Type} (trades : TradeKey → Option α) (entry : Option α) :
      TradeKey → Option α :=
    match entry with
    | some value => Function.update trades key (some value)
    | none => trades
  { run with
    entryRegimes := Function.update run.entryRegimes symbol none
    entryScores := Function.update run.entryScores symbol none
    entryVolatility := Function.update run.entryVolatility symbol none
    dims :=
      { regimes := Function.update run.dims.regimes key
          (some ((run.entryRegimes symbol).getD unknownRegime))
        scores := carry run.dims.scores (run.entryScores symbol)
        volatilities := carry run.dims.volatilities (run.entryVolatility symbol) } }

/-- What the loop does for one symbol at one candle close; the position context of the request
is the ledger's. -/
inductive MechanicalStep
  | staticExit (symbol : Symbol) (candle : Candle) (now : Time)
  | decision (symbol : Symbol) (request : Llm.AnalyzeRequest) (now : Time) (fillPrice : ℚ)

/-- `(close - entry_price) / entry_price`; `none` where the division raises. -/
def unrealizedPnlPct (close : ℚ) (position : SimPosition) : Option ℚ :=
  if position.entryPrice = 0 then none
  else some ((close - position.entryPrice) / position.entryPrice)

/-- The position context of a decision; `none` where its PnL raises. -/
def positionContext (close : ℚ) : Option SimPosition → Option Llm.PositionContext
  | none => some { hasOpenPosition := false }
  | some position =>
    (unrealizedPnlPct close position).map fun pnl =>
      { hasOpenPosition := true, unrealizedPnlPct := some pnl }

/-- The loop body for a decision; no run where it raises. -/
def MechanicalRun.decide (settings : MechanicalSettings) (run : MechanicalRun)
    (symbol : Symbol) (request : Llm.AnalyzeRequest) (now : Time) (fillPrice : ℚ) :
    Option MechanicalRun := do
  let latest ← request.ohlcv.getLast?
  let position := run.ledger.positions.lookup symbol
  let context ← positionContext latest.c position
  let decision := mechanicalDecision settings
    (Llm.buildContext { request with positionContext := context })
  let signalView : SignalView :=
    { id := 0
      symbol
      action := decision.action
      confidence := 99 / 100
      candleTs := now
      price := latest.c
      atr14 := request.indicators.atr14 }
  match decision.action, position with
  | .BUY, none =>
    let (ledger, _, newPosition) ←
      run.ledger.applyEntry symbol signalView settings.risk now fillPrice
    let run := { run with ledger }
    if newPosition.isSome then
      some
        { run with
          entryRegimes := Function.update run.entryRegimes symbol (some decision.regime.value)
          entryScores := Function.update run.entryScores symbol (some decision.tradeScore)
          entryVolatility :=
            Function.update run.entryVolatility symbol (some decision.volatilityRegime.value) }
    else some run
  | .SELL, some position =>
    let (ledger, _, trade) ←
      run.ledger.applyExitSignal symbol signalView settings.risk now fillPrice
    let run := { run with ledger }
    if trade.isSome then some (run.carryEntryDims (symbol, position.entryTime) symbol)
    else some run
  | _, _ => some run

/-- One step of the loop. -/
def MechanicalRun.apply (settings : MechanicalSettings) (run : MechanicalRun) :
    MechanicalStep → Option MechanicalRun
  | .staticExit symbol candle now => do
    let (ledger, closed) ← run.ledger.checkStaticExit symbol candle now
    let run := { run with ledger }
    match closed with
    | some trade => some (run.carryEntryDims (symbol, trade.entryTime) symbol)
    | none => some run
  | .decision symbol request now fillPrice => run.decide settings symbol request now fillPrice

end TradeMind.Model.Backtest
