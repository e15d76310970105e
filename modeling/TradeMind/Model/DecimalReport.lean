import TradeMind.Library.RoundedDrawdown
import TradeMind.Model.PerformanceReport

/-!
# The report of `common/performance.py` in decimal arithmetic

`summarize` as the default decimal context computes it: every sum is accumulated from zero with
each partial sum rounded to the precision, and every difference and quotient is rounded.  Where
`PerformanceReport` states the figures in exact rationals, these are the numbers Python returns.
-/

set_option autoImplicit false

namespace TradeMind.Model.Decimal

open TradeMind.Library

/-- The precision of the default context. -/
def prec : ℕ := 28

/-- `sum(values, Decimal("0"))`. -/
def sum (values : List ℚ) : ℚ := sumDigits prec values

/-- `sum(values) / Decimal(len(values)) if values else None`. -/
def meanOf (values : List ℚ) : Option ℚ :=
  if values.isEmpty then none else some (roundDigits prec (sum values / values.length))

/-- `compute_win_rate`. -/
def computeWinRate (trades : List ClosedTradeMetrics) : Option ℚ :=
  if trades.isEmpty then none
  else some (roundDigits prec ((wins trades).length / trades.length))

/-- `compute_avg_win_r`. -/
def computeAvgWinR (trades : List ClosedTradeMetrics) : Option ℚ :=
  meanOf ((wins trades).filterMap ClosedTradeMetrics.rMultiple)

/-- `compute_avg_loss_r`. -/
def computeAvgLossR (trades : List ClosedTradeMetrics) : Option ℚ :=
  meanOf ((losses trades).filterMap ClosedTradeMetrics.rMultiple)

/-- `compute_expectancy_r`. -/
def computeExpectancyR (trades : List ClosedTradeMetrics) : Option ℚ :=
  meanOf (trades.filterMap ClosedTradeMetrics.rMultiple)

/-- `compute_total_r`. -/
def computeTotalR (trades : List ClosedTradeMetrics) : Option ℚ :=
  let values := trades.filterMap ClosedTradeMetrics.rMultiple
  if values.isEmpty then none else some (sum values)

/-- `compute_total_pnl_usdt`. -/
def computeTotalPnlUsdt (trades : List ClosedTradeMetrics) : ℚ :=
  sum (trades.map ClosedTradeMetrics.pnlUsdt)

/-- `compute_profit_factor`; the unary minus rounds too. -/
def computeProfitFactor (trades : List ClosedTradeMetrics) : Option ℚ :=
  let grossProfit := sum ((wins trades).map ClosedTradeMetrics.pnlUsdt)
  let grossLoss := sum ((losses trades).map fun t => roundDigits prec (-t.pnlUsdt))
  if 0 < grossLoss then some (roundDigits prec (grossProfit / grossLoss)) else none

/-- `compute_total_fees_usdt`. -/
def computeTotalFeesUsdt (trades : List ClosedTradeMetrics) : ℚ :=
  sum (trades.filterMap ClosedTradeMetrics.feesUsdt)

/-- `_equity_curve`. -/
def equityCurve (trades : List ClosedTradeMetrics) (startingEquityUsdt : ℚ) : List ℚ :=
  ((trades.insertionSort fun a b => a.closedAt ≤ b.closedAt).scanl
    (fun equity trade => roundDigits prec (equity + trade.pnlUsdt)) startingEquityUsdt).tail

/-- `compute_max_drawdown_pct`. -/
def computeMaxDrawdownPct (trades : List ClosedTradeMetrics) (startingEquityUsdt : ℚ) :
    Option ℚ :=
  if trades.isEmpty ∨ startingEquityUsdt ≤ 0 then none
  else
    some ((equityCurve trades startingEquityUsdt).foldl (worstRounded prec)
      (startingEquityUsdt, 0)).2

/-- `compute_avg_drawdown_pct`. -/
def computeAvgDrawdownPct (trades : List ClosedTradeMetrics) (startingEquityUsdt : ℚ) :
    Option ℚ :=
  if trades.isEmpty ∨ startingEquityUsdt ≤ 0 then none
  else
    let depths := ((equityCurve trades startingEquityUsdt).foldl (depthsRounded prec)
      (startingEquityUsdt, [])).2
    some ((meanOf depths).getD 0)

/-- `summarize`. -/
def summarize (trades : List ClosedTradeMetrics) (startingEquityUsdt : Option ℚ) :
    PerformanceReport :=
  let drawdownAnchor := startingEquityUsdt.filter fun equity => 0 < equity
  { trades := trades.length
    wins := (wins trades).length
    losses := (losses trades).length
    breakeven := (trades.filter fun t => t.pnlUsdt = 0).length
    tradesWithR := (trades.filter fun t => t.rMultiple.isSome).length
    winRate := computeWinRate trades
    avgWinR := computeAvgWinR trades
    avgLossR := computeAvgLossR trades
    expectancyR := computeExpectancyR trades
    totalR := computeTotalR trades
    totalPnlUsdt := computeTotalPnlUsdt trades
    profitFactor := computeProfitFactor trades
    maxDrawdownPct := drawdownAnchor.bind (computeMaxDrawdownPct trades)
    avgDrawdownPct := drawdownAnchor.bind (computeAvgDrawdownPct trades)
    totalFeesUsdt := computeTotalFeesUsdt trades
    totalSlippageUsdt := none
    startingEquityUsdt := drawdownAnchor }

end TradeMind.Model.Decimal
