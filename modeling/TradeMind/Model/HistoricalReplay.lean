import Mathlib.Data.List.Sort
import TradeMind.Library.DecimalRounding
import TradeMind.Library.Dictionary
import TradeMind.Library.PartialRun
import TradeMind.Model.Rules

/-!
# The historical replay

`tools/historical_replay`: candles in the order of their open times, next-candle fills with
fees and slippage, the safety exits, and the production evaluators run at candle closes.  The
inputs carry the checks of their validators; instants are in UTC.  A step that raises leaves
no simulator.

The price arithmetic of the fills and of the safety exits takes the rounding of its decimal
context as an argument: it decides which ROI exits are made and which price they refer to.
Without it the arithmetic is exact, as that of the cash and of the rows always is.
-/

set_option autoImplicit false

namespace TradeMind.Model.Replay

open TradeMind.Model TradeMind.Library

/-! ## Inputs -/

structure Candle where
  symbol : Symbol
  openTime : Time
  closeTime : Time
  /-- The `open` price. -/
  open_ : ℚ
  high : ℚ
  low : ℚ
  close : ℚ
  volume : ℚ
  times : openTime < closeTime
  open_pos : 0 < open_
  high_pos : 0 < high
  low_pos : 0 < low
  close_pos : 0 < close
  volume_nonneg : 0 ≤ volume
  high_ge : max open_ close ≤ high
  low_le : low ≤ min open_ close
  deriving DecidableEq

structure SyntheticSignal where
  symbol : Symbol
  candleCloseTime : Time
  action : Action
  confidence : ℚ
  atr14 : ℚ
  confidence_nonneg : 0 ≤ confidence
  confidence_le : confidence ≤ 1
  atr_pos : 0 < atr14
  deriving DecidableEq

structure ReplayConfig where
  startingEquityUsdt : ℚ := 10000
  feeRate : ℚ := 1 / 1000
  slippageRate : ℚ := 5 / 10000
  staticStopLossPct : ℚ := 8 / 100
  risk : RiskConfig := {}
  equity_pos : 0 < startingEquityUsdt
  fee_nonneg : 0 ≤ feeRate
  fee_lt : feeRate < 1
  slippage_nonneg : 0 ≤ slippageRate
  slippage_lt : slippageRate < 1
  stop_pos : 0 < staticStopLossPct
  stop_lt : staticStopLossPct < 1
  cluster_nonneg : 0 ≤ risk.consecutiveLossClusterMinutes

/-- `ReplayConfig()`, the settings as shipped. -/
def defaultReplay : ReplayConfig :=
  { equity_pos := by decide +kernel
    fee_nonneg := by decide +kernel
    fee_lt := by decide +kernel
    slippage_nonneg := by decide +kernel
    slippage_lt := by decide +kernel
    stop_pos := by decide +kernel
    stop_lt := by decide +kernel
    cluster_nonneg := by decide }

/-! ## State -/

/-- The side of a pending order; an entry carries its stake. -/
inductive PendingSide
  | BUY (stakeUsdt : ℚ)
  | SELL
  deriving DecidableEq, Repr

structure PendingOrder where
  symbol : Symbol
  side : PendingSide
  signalTime : Time
  deriving DecidableEq, Repr

structure OpenPosition where
  symbol : Symbol
  openedAt : Time
  entryReferencePrice : ℚ
  entryPrice : ℚ
  amount : ℚ
  stakeUsdt : ℚ
  entryFeeUsdt : ℚ
  stopPrice : ℚ
  deriving DecidableEq, Repr

structure ReplayTrade where
  symbol : Symbol
  openedAt : Time
  closedAt : Time
  entryReferencePrice : ℚ
  entryPrice : ℚ
  exitReferencePrice : ℚ
  exitPrice : ℚ
  amount : ℚ
  stakeUsdt : ℚ
  entryFeeUsdt : ℚ
  exitFeeUsdt : ℚ
  grossPnlUsdt : ℚ
  netPnlUsdt : ℚ
  netPnlPct : ℚ
  exitReason : String
  deriving DecidableEq, Repr

structure ReplayDecision where
  symbol : Symbol
  candleCloseTime : Time
  action : Action
  confidence : ℚ
  approved : Bool
  rejectionReason : Option RejectionReason := none
  pendingSide : Option OrderSide := none
  deriving DecidableEq, Repr

structure EquityPoint where
  timestamp : Time
  equityUsdt : ℚ
  deriving DecidableEq, Repr

/-- `ReplaySimulator`, the state of one replay. -/
structure Simulator where
  cash : ℚ
  positions : Dict Symbol OpenPosition := ∅
  pending : Dict Symbol PendingOrder := ∅
  trades : List ReplayTrade := []
  decisions : List ReplayDecision := []
  equityCurve : List EquityPoint := []
  lastPrices : Symbol → Option ℚ := fun _ => none
  killswitchEnabled : Bool := false

/-- A fresh simulator. -/
def Simulator.fresh (config : ReplayConfig) : Simulator := { cash := config.startingEquityUsdt }

/-! ## Ordering and indexing the inputs -/

/-- `(open_time, symbol)` order. -/
def OpensBefore (a b : Candle) : Prop :=
  a.openTime < b.openTime ∨ a.openTime = b.openTime ∧ a.symbol ≤ b.symbol

instance : DecidableRel OpensBefore := fun a b =>
  inferInstanceAs (Decidable (a.openTime < b.openTime ∨
    a.openTime = b.openTime ∧ a.symbol ≤ b.symbol))

/-- The checks of `_validate_and_order_candles` along the ordered candles, with the keys seen
and each symbol's last close so far. -/
def acceptsFrom (seen : List (Symbol × Time)) (lastClose : Symbol → Option Time) :
    List Candle → Bool
  | [] => true
  | candle :: rest =>
    let key := (candle.symbol, candle.openTime)
    let overlaps := match lastClose candle.symbol with
      | some previous => candle.openTime < previous
      | none => false
    if key ∈ seen || overlaps then false
    else
      acceptsFrom (key :: seen)
        (Function.update lastClose candle.symbol (some candle.closeTime)) rest

/-- `_validate_and_order_candles`. -/
def validateAndOrderCandles (candles : List Candle) : Option (List Candle) :=
  let ordered := candles.insertionSort OpensBefore
  if candles = [] then none
  else if acceptsFrom [] (fun _ => none) ordered then some ordered
  else none

/-- `_index_signals`: the signal of each key, if no key is given twice. -/
def indexSignals (signals : List SyntheticSignal) :
    Option (Symbol → Time → Option SyntheticSignal) :=
  if (signals.map fun signal => (signal.symbol, signal.candleCloseTime)).Nodup then
    some fun symbol closeTime => signals.find? fun signal =>
      signal.symbol = symbol ∧ signal.candleCloseTime = closeTime
  else none

/-! ## Equity and the account state -/

/-- The price a position, stored under its own symbol, is marked at. -/
def Simulator.markPrice (st : Simulator) (position : OpenPosition) : ℚ :=
  (st.lastPrices position.symbol).getD position.entryPrice

/-- `_equity`. -/
def Simulator.equity (config : ReplayConfig) (st : Simulator) : ℚ :=
  st.cash + Dict.total
    (fun position => position.amount * st.markPrice position * (1 - config.feeRate))
    st.positions

/-- The stake of a pending entry. -/
def PendingOrder.entryStake (order : PendingOrder) : Option ℚ :=
  match order.side with
  | .BUY stake => some stake
  | .SELL => none

/-- The symbols with a pending entry. -/
def Simulator.pendingEntrySymbols (st : Simulator) : Finset Symbol :=
  ((st.pending.entries.filter fun entry => entry.2.entryStake.isSome).map Sigma.fst).toFinset

/-- Newest close first; `sorted` is stable. -/
def newestFirst (trades : List ReplayTrade) : List ReplayTrade :=
  trades.insertionSort fun a b => b.closedAt ≤ a.closedAt

/-- The losses before the first trade that did not lose. -/
def lossRun (closedDesc : List ReplayTrade) : List ReplayTrade :=
  closedDesc.takeWhile fun trade => trade.netPnlUsdt < 0

/-- `_account_state`. -/
def Simulator.accountState (config : ReplayConfig) (st : Simulator) (now : Time) :
    AccountState :=
  let equity := st.equity config
  let stakes := (Dict.values st.pending).filterMap PendingOrder.entryStake
  let reserved := (stakes.map fun stake => stake * (1 + config.feeRate)).sum
  let closedDesc := newestFirst st.trades
  let losses := lossRun closedDesc
  let dailyPnl := ((st.trades.filter fun trade =>
    dateOf trade.closedAt = dateOf now).map ReplayTrade.netPnlUsdt).sum
  { equityUsdt := equity
    freeBalanceUsdt := max (st.cash - reserved) 0
    openPositionSymbols := Dict.keySet st.positions ∪ st.pendingEntrySymbols
    totalExposureUsdt := Dict.total OpenPosition.stakeUsdt st.positions + stakes.sum
    dailyPnlPct := if 0 < equity then dailyPnl / equity else 0
    consecutiveLosses := losses.length
    lastLossClosedAt := losses.head?.map ReplayTrade.closedAt
    symbolLastClosedAt := fun symbol =>
      (closedDesc.find? fun trade => trade.symbol = symbol).map ReplayTrade.closedAt }

/-! ## Fills and exits -/

/-- The rounding of the default decimal context, to 28 significant digits. -/
def decimalRound (x : ℚ) : ℚ := roundDigits 28 x

/-- What a position brings in at a price, net of the exit fee. -/
def exitProceeds (config : ReplayConfig) (position : OpenPosition) (exitPrice : ℚ) : ℚ :=
  let grossExit := position.amount * exitPrice
  grossExit - grossExit * config.feeRate

/-- What a position cost, the entry fee included. -/
def OpenPosition.totalCost (position : OpenPosition) : ℚ :=
  position.stakeUsdt + position.entryFeeUsdt

/-- The row of a closed position. -/
def closedTrade (config : ReplayConfig) (position : OpenPosition) (symbol : Symbol)
    (closedAt : Time) (referencePrice exitPrice : ℚ) (reason : String) : ReplayTrade :=
  let netPnl := exitProceeds config position exitPrice - position.stakeUsdt -
    position.entryFeeUsdt
  { symbol
    openedAt := position.openedAt
    closedAt
    entryReferencePrice := position.entryReferencePrice
    entryPrice := position.entryPrice
    exitReferencePrice := referencePrice
    exitPrice
    amount := position.amount
    stakeUsdt := position.stakeUsdt
    entryFeeUsdt := position.entryFeeUsdt
    exitFeeUsdt := position.amount * exitPrice * config.feeRate
    grossPnlUsdt := position.amount * (exitPrice - position.entryPrice)
    netPnlUsdt := netPnl
    netPnlPct := netPnl / position.totalCost
    exitReason := reason }

/-- `_close_position`; raises where there is no position or its cost is zero. -/
def closePosition (config : ReplayConfig) (st : Simulator) (symbol : Symbol) (closedAt : Time)
    (referencePrice exitPrice : ℚ) (reason : String) : Option Simulator :=
  match st.positions.lookup symbol with
  | none => none
  | some position =>
    if position.totalCost = 0 then none
    else
      some
        { st with
          positions := st.positions.erase symbol
          cash := st.cash + exitProceeds config position exitPrice
          trades := st.trades ++
            [closedTrade config position symbol closedAt referencePrice exitPrice reason] }

/-- The position a pending entry opens at a candle. -/
def entryPosition (config : ReplayConfig) (candle : Candle) (stakeUsdt : ℚ)
    (round : ℚ → ℚ := id) : OpenPosition :=
  let entryPrice := round (candle.open_ * round (1 + config.slippageRate))
  { symbol := candle.symbol
    openedAt := candle.openTime
    entryReferencePrice := candle.open_
    entryPrice
    amount := round (stakeUsdt / entryPrice)
    stakeUsdt
    entryFeeUsdt := round (stakeUsdt * config.feeRate)
    stopPrice := round (entryPrice * round (1 - config.staticStopLossPct)) }

/-- A reference price less the slippage. -/
def slippedFill (config : ReplayConfig) (referencePrice : ℚ) (round : ℚ → ℚ := id) : ℚ :=
  round (referencePrice * round (1 - config.slippageRate))

/-- `_execute_pending`. -/
def executePending (config : ReplayConfig) (st : Simulator) (candle : Candle)
    (round : ℚ → ℚ := id) : Option Simulator :=
  match st.pending.lookup candle.symbol with
  | none => some st
  | some order =>
    if candle.openTime < order.signalTime then some st
    else
      let st := { st with pending := st.pending.erase candle.symbol }
      match order.side with
      | .BUY stakeUsdt =>
        let position := entryPosition config candle stakeUsdt round
        if st.cash < position.totalCost ∨ candle.symbol ∈ st.positions then some st
        else
          some
            { st with
              cash := st.cash - position.totalCost
              positions := st.positions.insert candle.symbol position }
      | .SELL =>
        if candle.symbol ∈ st.positions then
          let fill := slippedFill config candle.open_ round
          closePosition config st candle.symbol candle.openTime candle.open_ fill "signal_exit"
        else some st

/-- `_roi_target`. -/
def roiTarget (ageMinutes : ℚ) : ℚ :=
  if ageMinutes < 60 then 10 / 100
  else if ageMinutes < 120 then 5 / 100
  else if ageMinutes < 240 then 2 / 100
  else 0

/-- `_net_return_at_price`; `none` where the division by the cost raises. -/
def netReturnAtPrice (config : ReplayConfig) (position : OpenPosition) (exitPrice : ℚ)
    (round : ℚ → ℚ := id) : Option ℚ :=
  let proceeds := round (round (position.amount * exitPrice) * round (1 - config.feeRate))
  let cost := round position.totalCost
  if cost = 0 then none else some (round (round (proceeds - cost) / cost))

/-- `_price_for_net_return`; `none` where the division by the amount raises. -/
def priceForNetReturn (config : ReplayConfig) (position : OpenPosition) (target : ℚ)
    (round : ℚ → ℚ := id) : Option ℚ :=
  let cost := round position.totalCost
  let requiredProceeds := round (cost * round (1 + target))
  let net := round (position.amount * round (1 - config.feeRate))
  if net = 0 then none else some (round (requiredProceeds / net))

/-- `_apply_safety_exits`: the stop before the ROI table. -/
def applySafetyExits (config : ReplayConfig) (st : Simulator) (candle : Candle)
    (round : ℚ → ℚ := id) : Option Simulator :=
  match st.positions.lookup candle.symbol with
  | none => some st
  | some position =>
    if candle.low ≤ position.stopPrice then
      let fill := slippedFill config position.stopPrice round
      closePosition config st candle.symbol candle.closeTime position.stopPrice fill "stop_loss"
    else
      let ageMinutes : ℚ := (candle.closeTime - position.openedAt : ℤ) / 60000000
      let target := roiTarget ageMinutes
      let openFill := slippedFill config candle.open_ round
      match netReturnAtPrice config position openFill round with
      | none => none
      | some netReturn =>
        if target ≤ netReturn then
          closePosition config st candle.symbol candle.openTime candle.open_ openFill "roi"
        else
          match priceForNetReturn config position target round with
          | none => none
          | some targetFill =>
            let trigger := round (targetFill / round (1 - config.slippageRate))
            if trigger ≤ candle.high then
              closePosition config st candle.symbol candle.closeTime trigger targetFill "roi"
            else some st

/-! ## Signals -/

/-- `_NO_EXPECTANCY`. -/
def noExpectancy : ExpectancyView :=
  { setupKey := "(replay)", sampleSize := 0, expectancyR := none }

/-- The signal as the evaluators see it; they do not read its id. -/
def signalView (candle : Candle) (signal : SyntheticSignal) : SignalView :=
  { id := 0
    symbol := signal.symbol
    action := signal.action
    confidence := signal.confidence
    candleTs := signal.candleCloseTime
    price := candle.close
    atr14 := signal.atr14 }

/-- The decision row of a signal. -/
def decisionOf (signal : SyntheticSignal) (approved : Bool)
    (rejectionReason : Option RejectionReason) (side : OrderSide) : ReplayDecision :=
  { symbol := signal.symbol
    candleCloseTime := signal.candleCloseTime
    action := signal.action
    confidence := signal.confidence
    approved
    rejectionReason
    pendingSide := if approved then some side else none }

/-- `_process_signal`. -/
def processSignal (config : ReplayConfig) (st : Simulator) (candle : Candle)
    (signal : SyntheticSignal) : Option Simulator :=
  if signal.symbol ≠ candle.symbol ∨ signal.candleCloseTime ≠ candle.closeTime then none
  else
    let account := st.accountState config candle.closeTime
    let duplicate : Bool := signal.symbol ∈ st.pending
    match signal.action with
    | .SELL =>
      match evaluateExit (signalView candle signal) account config.risk candle.closeTime
          duplicate with
      | none => none
      | some result =>
        let order : PendingOrder :=
          { symbol := signal.symbol, side := .SELL, signalTime := signal.candleCloseTime }
        some
          { st with
            pending := if result.approved then st.pending.insert signal.symbol order
              else st.pending
            decisions := st.decisions ++
              [decisionOf signal result.approved result.rejectionReason .SELL] }
    | _ =>
      match evaluate (signalView candle signal) account config.risk candle.closeTime
          st.killswitchEnabled duplicate noExpectancy with
      | none => none
      | some result =>
        let killswitchEnabled := st.killswitchEnabled || result.autoTripKillswitch
        let decisions := st.decisions ++
          [decisionOf signal result.approved result.rejectionReason .BUY]
        match result.approved, result.positionSizeUsdt with
        | true, some stakeUsdt =>
          let order : PendingOrder :=
            { symbol := signal.symbol
              side := .BUY stakeUsdt
              signalTime := signal.candleCloseTime }
          some
            { st with
              killswitchEnabled
              pending := st.pending.insert signal.symbol order
              decisions }
        | true, none => none
        | false, _ => some { st with killswitchEnabled, decisions }

/-! ## The run -/

/-- `last_prices[candle.symbol] = candle.close`. -/
def recordPrice (st : Simulator) (candle : Candle) : Simulator :=
  { st with lastPrices := Function.update st.lastPrices candle.symbol (some candle.close) }

/-- `_record_equity`. -/
def recordEquity (config : ReplayConfig) (st : Simulator) (timestamp : Time) : Simulator :=
  { st with
    equityCurve := st.equityCurve ++ [{ timestamp, equityUsdt := st.equity config }] }

/-- The loop body before the signal is looked up: the state a signal is processed in. -/
def beforeSignal (config : ReplayConfig) (st : Simulator) (candle : Candle)
    (round : ℚ → ℚ := id) : Option Simulator :=
  match executePending config st candle round with
  | none => none
  | some st =>
    match applySafetyExits config st candle round with
    | none => none
    | some st => some (recordPrice st candle)

/-- The loop body of `run`. -/
def processCandle (config : ReplayConfig)
    (signalsByKey : Symbol → Time → Option SyntheticSignal) (st : Simulator) (candle : Candle)
    (round : ℚ → ℚ := id) : Option Simulator :=
  match beforeSignal config st candle round with
  | none => none
  | some st =>
    match signalsByKey candle.symbol candle.closeTime with
    | none => some (recordEquity config st candle.closeTime)
    | some signal =>
      (processSignal config st candle signal).map fun st =>
        recordEquity config st candle.closeTime

/-- The state after a list of ordered candles. -/
def simulate (config : ReplayConfig) (signalsByKey : Symbol → Time → Option SyntheticSignal)
    (ordered : List Candle) (round : ℚ → ℚ := id) : Option Simulator :=
  runPartial (fun st candle => processCandle config signalsByKey st candle round)
    (Simulator.fresh config) ordered

/-- `maximum_drawdown`: the running peak and the maximum so far. -/
def maximumDrawdown (equityCurve : List EquityPoint) : ℚ :=
  (equityCurve.foldl (fun (acc : ℚ × ℚ) point =>
    let peak := max acc.1 point.equityUsdt
    (peak, if 0 < peak then max acc.2 ((peak - point.equityUsdt) / peak) else acc.2)) (0, 0)).2

structure ReplaySummary where
  startingEquityUsdt : ℚ
  endingEquityUsdt : ℚ
  netPnlUsdt : ℚ
  netReturnPct : ℚ
  grossPnlUsdt : ℚ
  feesUsdt : ℚ
  trades : ℕ
  wins : ℕ
  losses : ℕ
  winRate : ℚ
  profitFactor : Option ℚ
  expectancyUsdt : ℚ
  maxDrawdownPct : ℚ
  openPositions : ℕ
  pendingOrders : ℕ
  rejectionCounts : RejectionReason → ℕ

/-- `build_summary`. -/
def buildSummary (startingEquity endingEquity : ℚ) (trades : List ReplayTrade)
    (decisions : List ReplayDecision) (equityCurve : List EquityPoint)
    (openPositions pendingOrders : ℕ) : ReplaySummary :=
  let netPnl := endingEquity - startingEquity
  let winning := trades.filter fun trade => 0 < trade.netPnlUsdt
  let losing := trades.filter fun trade => trade.netPnlUsdt < 0
  let winningTotal := (winning.map ReplayTrade.netPnlUsdt).sum
  let losingTotal := -(losing.map ReplayTrade.netPnlUsdt).sum
  let count := trades.length
  { startingEquityUsdt := startingEquity
    endingEquityUsdt := endingEquity
    netPnlUsdt := netPnl
    netReturnPct := netPnl / startingEquity
    grossPnlUsdt := (trades.map ReplayTrade.grossPnlUsdt).sum
    feesUsdt := (trades.map fun trade => trade.entryFeeUsdt + trade.exitFeeUsdt).sum
    trades := count
    wins := winning.length
    losses := losing.length
    winRate := if count = 0 then 0 else winning.length / count
    profitFactor := if 0 < losingTotal then some (winningTotal / losingTotal) else none
    expectancyUsdt := if count = 0 then 0 else netPnl / count
    maxDrawdownPct := maximumDrawdown equityCurve
    openPositions
    pendingOrders
    rejectionCounts := fun reason =>
      (decisions.filterMap ReplayDecision.rejectionReason).count reason }

structure ReplayResult where
  config : ReplayConfig
  summary : ReplaySummary
  trades : List ReplayTrade
  decisions : List ReplayDecision
  equityCurve : List EquityPoint

/-- The result reported for the state a run ends in. -/
def report (config : ReplayConfig) (st : Simulator) : ReplayResult :=
  { config
    summary := buildSummary config.startingEquityUsdt (st.equity config) st.trades st.decisions
      st.equityCurve st.positions.keys.length st.pending.keys.length
    trades := st.trades
    decisions := st.decisions
    equityCurve := st.equityCurve }

/-- `ReplaySimulator.run` on a fresh simulator. -/
def run (config : ReplayConfig) (candles : List Candle) (signals : List SyntheticSignal)
    (round : ℚ → ℚ := id) : Option ReplayResult :=
  match validateAndOrderCandles candles with
  | none => none
  | some ordered =>
    match indexSignals signals with
    | none => none
    | some signalsByKey => (simulate config signalsByKey ordered round).map (report config)

end TradeMind.Model.Replay
