import TradeMind.Library.Dictionary
import TradeMind.Model.Rules

/-!
# The backtest ledger

`scripts/backtest/ledger.py`: the in-memory account the mechanical replay feeds, with the
production evaluators run against it and the strategy's exits mirrored.  A method that raises
leaves no ledger.
-/

set_option autoImplicit false

namespace TradeMind.Model.Backtest

open TradeMind.Model TradeMind.Library

/-- `STATIC_STOPLOSS_PCT`. -/
def staticStoplossPct : ℚ := -8 / 100

/-- `MINIMAL_ROI`, the longest holding time first. -/
def minimalRoi : List (ℚ × ℚ) :=
  [(5760, 5 / 1000), (2880, 1 / 100), (1440, 15 / 1000), (720, 2 / 100), (240, 3 / 100),
    (0, 6 / 100)]

/-- `TRAILING_ACTIVATION_PCT`. -/
def trailingActivationPct : ℚ := 2 / 100

/-- `TRAILING_DISTANCE_PCT`. -/
def trailingDistancePct : ℚ := 15 / 1000

/-- `_NO_EXPECTANCY`. -/
def noExpectancy : ExpectancyView :=
  { setupKey := "(backtest)", sampleSize := 0, expectancyR := none }

structure SimPosition where
  symbol : Symbol
  entryTime : Time
  entryPrice : ℚ
  sizeUsdt : ℚ
  sizeBase : ℚ
  stopLossPrice : ℚ
  peakPrice : ℚ
  actualRiskUsdt : Option ℚ := none
  deriving DecidableEq, Repr

structure ClosedTrade where
  symbol : Symbol
  entryTime : Time
  exitTime : Time
  entryPrice : ℚ
  exitPrice : ℚ
  sizeUsdt : ℚ
  pnlUsdt : ℚ
  pnlPct : ℚ
  exitReason : String
  rMultiple : Option ℚ := none
  deriving DecidableEq, Repr

/-- The candle fields the exits look at. -/
structure Candle where
  o : ℚ
  h : ℚ
  l : ℚ
  deriving DecidableEq, Repr

structure Ledger where
  startingEquityUsdt : ℚ
  feePct : ℚ := 1 / 1000
  slippagePct : ℚ := 0
  compounding : Bool := false
  ignoreKillswitch : Bool := false
  positions : Dict Symbol SimPosition := ∅
  closedTrades : List ClosedTrade := []
  consecutiveLosses : ℤ := 0
  lastLossClosedAt : Option Time := none
  symbolLastClosedAt : Symbol → Option Time := fun _ => none
  killswitchTripped : Bool := false
  realizedPnlUsdt : ℚ := 0

namespace Ledger

/-- `equity_usdt`. -/
def equityUsdt (ledger : Ledger) : ℚ :=
  if ledger.compounding then ledger.startingEquityUsdt + ledger.realizedPnlUsdt
  else ledger.startingEquityUsdt

/-- `total_exposure_usdt`. -/
def totalExposureUsdt (ledger : Ledger) : ℚ := Dict.total SimPosition.sizeUsdt ledger.positions

/-- `free_balance_usdt`. -/
def freeBalanceUsdt (ledger : Ledger) : ℚ :=
  max (ledger.equityUsdt - ledger.totalExposureUsdt) 0

/-- `daily_pnl_pct`. -/
def dailyPnlPct (ledger : Ledger) (now : Time) : ℚ :=
  let daily := ((ledger.closedTrades.filter fun trade =>
    dateOf trade.exitTime = dateOf now).map ClosedTrade.pnlUsdt).sum
  if 0 < ledger.equityUsdt then daily / ledger.equityUsdt else 0

/-- `account_state`. -/
def accountState (ledger : Ledger) (now : Time) : AccountState :=
  { equityUsdt := ledger.equityUsdt
    freeBalanceUsdt := ledger.freeBalanceUsdt
    openPositionSymbols := Dict.keySet ledger.positions
    totalExposureUsdt := ledger.totalExposureUsdt
    dailyPnlPct := ledger.dailyPnlPct now
    consecutiveLosses := ledger.consecutiveLosses
    lastLossClosedAt := ledger.lastLossClosedAt
    symbolLastClosedAt := ledger.symbolLastClosedAt }

/-- `_record_close`. -/
def recordClose (ledger : Ledger) (position : SimPosition) (exitTime : Time) (exitPrice : ℚ)
    (reason : String) : Ledger × ClosedTrade :=
  let proceeds := position.sizeBase * exitPrice * (1 - ledger.feePct - ledger.slippagePct)
  let pnlUsdt := proceeds - position.sizeUsdt
  let pnlPct := if 0 < position.sizeUsdt then pnlUsdt / position.sizeUsdt else 0
  let rMultiple := match position.actualRiskUsdt with
    | some risk => if 0 < risk then some (pnlUsdt / risk) else none
    | none => none
  let trade : ClosedTrade :=
    { symbol := position.symbol
      entryTime := position.entryTime
      exitTime
      entryPrice := position.entryPrice
      exitPrice
      sizeUsdt := position.sizeUsdt
      pnlUsdt
      pnlPct
      exitReason := reason
      rMultiple }
  ({ ledger with
      closedTrades := ledger.closedTrades ++ [trade]
      realizedPnlUsdt := ledger.realizedPnlUsdt + pnlUsdt
      symbolLastClosedAt :=
        Function.update ledger.symbolLastClosedAt position.symbol (some exitTime)
      consecutiveLosses := if pnlUsdt < 0 then ledger.consecutiveLosses + 1 else 0
      lastLossClosedAt := if pnlUsdt < 0 then some exitTime else ledger.lastLossClosedAt
      positions := ledger.positions.erase position.symbol },
    trade)

end Ledger

/-- The stop `check_static_exit` compares with the candle low, and the exit's reason. -/
def SimPosition.effectiveStop (position : SimPosition) : ℚ × String :=
  let peakProfitPct := (position.peakPrice - position.entryPrice) / position.entryPrice
  let stopPrice := max position.stopLossPrice (position.entryPrice * (1 + staticStoplossPct))
  let trailingPrice := position.peakPrice * (1 - trailingDistancePct)
  if trailingActivationPct ≤ peakProfitPct ∧ stopPrice < trailingPrice then
    (trailingPrice, "trailing_stop")
  else (stopPrice, "atr_stoploss")

namespace Ledger

/-- `check_static_exit`; no ledger where the division by the entry price raises. -/
def checkStaticExit (ledger : Ledger) (symbol : Symbol) (candle : Candle)
    (candleCloseTime : Time) : Option (Ledger × Option ClosedTrade) :=
  match ledger.positions.lookup symbol with
  | none => some (ledger, none)
  | some position =>
    if position.entryPrice = 0 then none
    else
      let position := { position with peakPrice := max position.peakPrice candle.h }
      let ledger := { ledger with positions := ledger.positions.replace symbol position }
      let (stopPrice, exitReason) := position.effectiveStop
      if candle.l ≤ stopPrice then
        let fill := if candle.o < stopPrice then min candle.o stopPrice else stopPrice
        let (ledger, trade) := ledger.recordClose position candleCloseTime fill exitReason
        some (ledger, some trade)
      else
        let elapsedMinutes : ℚ := (candleCloseTime - position.entryTime : ℤ) / 60000000
        match minimalRoi.find? fun row => row.1 ≤ elapsedMinutes with
        | none => some (ledger, none)
        | some (_, roiThreshold) =>
          let roiPrice := position.entryPrice * (1 + roiThreshold)
          if roiPrice ≤ candle.h then
            let fill := if roiPrice < candle.o then max candle.o roiPrice else roiPrice
            let (ledger, trade) := ledger.recordClose position candleCloseTime fill "minimal_roi"
            some (ledger, some trade)
          else some (ledger, none)

/-- `apply_entry`. -/
def applyEntry (ledger : Ledger) (symbol : Symbol) (signalView : SignalView)
    (config : RiskConfig) (now : Time) (fillPrice : ℚ) :
    Option (Ledger × RiskDecisionResult × Option SimPosition) :=
  match evaluate signalView (ledger.accountState now) config now
      (ledger.killswitchTripped && !ledger.ignoreKillswitch) false noExpectancy with
  | none => none
  | some result =>
    let ledger :=
      if result.autoTripKillswitch then
        { ledger with
          killswitchTripped := true
          consecutiveLosses := if ledger.ignoreKillswitch then 0 else ledger.consecutiveLosses }
      else ledger
    match result.approved, result.positionSizeUsdt, result.stopLossPrice with
    | true, some positionSizeUsdt, some stopLossPrice =>
      let effectivePrice := fillPrice * (1 + ledger.feePct + ledger.slippagePct)
      let sizeBase := if 0 < effectivePrice then positionSizeUsdt / effectivePrice else 0
      let position : SimPosition :=
        { symbol
          entryTime := now
          entryPrice := fillPrice
          sizeUsdt := positionSizeUsdt
          sizeBase
          stopLossPrice
          peakPrice := fillPrice
          actualRiskUsdt := result.actualRiskUsdt }
      some ({ ledger with positions := ledger.positions.insert symbol position }, result,
        some position)
    -- an approved result carries its sizing
    | _, _, _ => some (ledger, result, none)

/-- `apply_exit_signal`; `none` where `evaluate_exit` or the look-up of the position raises. -/
def applyExitSignal (ledger : Ledger) (symbol : Symbol) (signalView : SignalView)
    (config : RiskConfig) (now : Time) (fillPrice : ℚ) :
    Option (Ledger × ExitDecisionResult × Option ClosedTrade) :=
  match evaluateExit signalView (ledger.accountState now) config now false with
  | none => none
  | some result =>
    if !result.approved then some (ledger, result, none)
    else
      match ledger.positions.lookup symbol with
      | none => none
      | some position =>
        let (ledger, trade) := ledger.recordClose position now fillPrice "llm_sell_signal"
        some (ledger, result, some trade)

end Ledger

end TradeMind.Model.Backtest
