import Mathlib.Algebra.Order.Ring.Rat
import Mathlib.Data.List.Sort
import TradeMind.Library.Dictionary
import TradeMind.Model.Performance

/-!
# The reports of `common/performance.py`

The full metric set of a cohort of closed trades (`summarize`) and its breakdown by journal
dimension (`summarize_breakdowns`), in exact rationals.
-/

set_option autoImplicit false

namespace TradeMind.Model

open TradeMind.Library

/-! ## The metrics -/

/-- `sum(values) / len(values) if values else None`. -/
def meanOf (values : List ℚ) : Option ℚ :=
  if values.isEmpty then none else some (values.sum / values.length)

def wins (trades : List ClosedTradeMetrics) : List ClosedTradeMetrics :=
  trades.filter fun t => 0 < t.pnlUsdt

def losses (trades : List ClosedTradeMetrics) : List ClosedTradeMetrics :=
  trades.filter fun t => t.pnlUsdt < 0

/-- `compute_win_rate`. -/
def computeWinRate (trades : List ClosedTradeMetrics) : Option ℚ :=
  if trades.isEmpty then none else some ((wins trades).length / trades.length)

/-- `compute_avg_win_r`. -/
def computeAvgWinR (trades : List ClosedTradeMetrics) : Option ℚ :=
  meanOf ((wins trades).filterMap ClosedTradeMetrics.rMultiple)

/-- `compute_avg_loss_r`. -/
def computeAvgLossR (trades : List ClosedTradeMetrics) : Option ℚ :=
  meanOf ((losses trades).filterMap ClosedTradeMetrics.rMultiple)

/-- `compute_total_r`. -/
def computeTotalR (trades : List ClosedTradeMetrics) : Option ℚ :=
  let values := trades.filterMap ClosedTradeMetrics.rMultiple
  if values.isEmpty then none else some values.sum

/-- `compute_total_pnl_usdt`. -/
def computeTotalPnlUsdt (trades : List ClosedTradeMetrics) : ℚ :=
  (trades.map ClosedTradeMetrics.pnlUsdt).sum

/-- `compute_profit_factor`. -/
def computeProfitFactor (trades : List ClosedTradeMetrics) : Option ℚ :=
  let grossProfit := ((wins trades).map ClosedTradeMetrics.pnlUsdt).sum
  let grossLoss := ((losses trades).map fun t => -t.pnlUsdt).sum
  if 0 < grossLoss then some (grossProfit / grossLoss) else none

/-- `compute_total_fees_usdt`. -/
def computeTotalFeesUsdt (trades : List ClosedTradeMetrics) : ℚ :=
  (trades.filterMap ClosedTradeMetrics.feesUsdt).sum

/-- `_equity_curve`: the equity after each trade, oldest close first; `sorted` is stable. -/
def equityCurve (trades : List ClosedTradeMetrics) (startingEquityUsdt : ℚ) : List ℚ :=
  ((trades.insertionSort fun a b => a.closedAt ≤ b.closedAt).scanl
    (fun equity trade => equity + trade.pnlUsdt) startingEquityUsdt).tail

/-- `compute_max_drawdown_pct`: the running peak and the worst decline so far. -/
def computeMaxDrawdownPct (trades : List ClosedTradeMetrics) (startingEquityUsdt : ℚ) :
    Option ℚ :=
  if trades.isEmpty ∨ startingEquityUsdt ≤ 0 then none
  else
    some ((equityCurve trades startingEquityUsdt).foldl (fun (acc : ℚ × ℚ) equity =>
      let peak := max acc.1 equity
      (peak, if 0 < peak then max acc.2 ((peak - equity) / peak) else acc.2))
      (startingEquityUsdt, 0)).2

/-- `compute_avg_drawdown_pct`: the running peak and the depths below it. -/
def computeAvgDrawdownPct (trades : List ClosedTradeMetrics) (startingEquityUsdt : ℚ) :
    Option ℚ :=
  if trades.isEmpty ∨ startingEquityUsdt ≤ 0 then none
  else
    let depths := ((equityCurve trades startingEquityUsdt).foldl
      (fun (acc : ℚ × List ℚ) equity =>
        let peak := max acc.1 equity
        (peak, if 0 < peak ∧ equity < peak then acc.2 ++ [(peak - equity) / peak] else acc.2))
      (startingEquityUsdt, [])).2
    some ((meanOf depths).getD 0)

/-! ## The report of one cohort -/

structure PerformanceReport where
  trades : ℕ
  wins : ℕ
  losses : ℕ
  breakeven : ℕ
  tradesWithR : ℕ
  winRate : Option ℚ
  avgWinR : Option ℚ
  avgLossR : Option ℚ
  expectancyR : Option ℚ
  totalR : Option ℚ
  totalPnlUsdt : ℚ
  profitFactor : Option ℚ
  maxDrawdownPct : Option ℚ
  avgDrawdownPct : Option ℚ
  totalFeesUsdt : ℚ
  totalSlippageUsdt : Option ℚ
  startingEquityUsdt : Option ℚ
  deriving DecidableEq, Repr

/-- `summarize`. -/
def summarize (trades : List ClosedTradeMetrics) (startingEquityUsdt : Option ℚ) :
    PerformanceReport :=
  let drawdownAnchor := startingEquityUsdt.filter fun equity => 0 < equity
  { trades := trades.length
    wins := (wins trades).length
    losses := (losses trades).length
    breakeven := (trades.filter fun t => t.pnlUsdt = 0).length
    tradesWithR := (trades.filter fun t => t.rMultiple.isSome).length
    winRate := computeWinRate trades
    avgWinR := computeAvgWinR trades
    avgLossR := computeAvgLossR trades
    expectancyR := computeExpectancyR trades
    totalR := computeTotalR trades
    totalPnlUsdt := computeTotalPnlUsdt trades
    profitFactor := computeProfitFactor trades
    maxDrawdownPct := drawdownAnchor.bind (computeMaxDrawdownPct trades)
    avgDrawdownPct := drawdownAnchor.bind (computeAvgDrawdownPct trades)
    totalFeesUsdt := computeTotalFeesUsdt trades
    totalSlippageUsdt := none
    startingEquityUsdt := drawdownAnchor }

/-! ## Breakdowns -/

/-- One row of a breakdown. -/
structure BreakdownCohort where
  key : String
  report : PerformanceReport
  deriving DecidableEq, Repr

structure PerformanceBreakdowns where
  byRegime : List BreakdownCohort
  byVolatility : List BreakdownCohort
  byScoreBucket : List BreakdownCohort

/-- The order of the cohorts: the catch-all last, larger cohorts first, then by key. -/
def CohortBefore (catchAll : String)
    (a b : Sigma fun _ : String => List ClosedTradeMetrics) : Prop :=
  if a.1 = catchAll ↔ b.1 = catchAll then
    b.2.length < a.2.length ∨ b.2.length = a.2.length ∧ a.1 ≤ b.1
  else b.1 = catchAll

instance (catchAll : String) : DecidableRel (CohortBefore catchAll) := fun a b =>
  inferInstanceAs (Decidable (if a.1 = catchAll ↔ b.1 = catchAll then
    b.2.length < a.2.length ∨ b.2.length = a.2.length ∧ a.1 ≤ b.1 else b.1 = catchAll))

/-- `_cohorts`.  The keys are distinct, so the order of `groups.items()` does not matter. -/
def cohorts (trades : List ClosedTradeMetrics) (keyOf : ClosedTradeMetrics → Option String)
    (catchAll : String) (startingEquityUsdt : Option ℚ) : List BreakdownCohort :=
  let groups := Dict.groupBy (fun trade => (keyOf trade).getD catchAll) trades
  (groups.entries.insertionSort (CohortBefore catchAll)).map fun entry =>
    { key := entry.1, report := summarize entry.2 startingEquityUsdt }

/-- `summarize_breakdowns`. -/
def summarizeBreakdowns (trades : List ClosedTradeMetrics) (startingEquityUsdt : Option ℚ) :
    PerformanceBreakdowns :=
  { byRegime :=
      cohorts trades ClosedTradeMetrics.marketRegime "(unclassified)" startingEquityUsdt
    byVolatility :=
      cohorts trades ClosedTradeMetrics.volatilityRegime "(unclassified)" startingEquityUsdt
    byScoreBucket :=
      cohorts trades (fun t => some (scoreBucketLabel t.tradeScore)) "(unscored)"
        startingEquityUsdt }

/-- **A cohort is the report of the trades with its key**, one for each key that occurs. -/
theorem mem_cohorts {trades : List ClosedTradeMetrics}
    {keyOf : ClosedTradeMetrics → Option String} {catchAll : String}
    {startingEquityUsdt : Option ℚ} {cohort : BreakdownCohort} :
    cohort ∈ cohorts trades keyOf catchAll startingEquityUsdt ↔
      (trades.filter fun t => (keyOf t).getD catchAll = cohort.key) ≠ [] ∧
      cohort.report = summarize (trades.filter fun t => (keyOf t).getD catchAll = cohort.key)
        startingEquityUsdt := by
  have hmem : ∀ key group, (⟨key, group⟩ : Sigma fun _ : String => List ClosedTradeMetrics) ∈
      (Dict.groupBy (fun t => (keyOf t).getD catchAll) trades).entries ↔
        (trades.filter fun t => (keyOf t).getD catchAll = key) ≠ [] ∧
        (trades.filter fun t => (keyOf t).getD catchAll = key) = group := by
    intro key group
    rw [← AList.mem_lookup_iff, Dict.lookup_groupBy]
    split
    · rename_i hempty
      simp [hempty]
    · rename_i hfull
      simp [hfull]
  simp only [cohorts, List.mem_map, List.mem_insertionSort]
  constructor
  · rintro ⟨⟨key, group⟩, hentry, rfl⟩
    obtain ⟨hfull, rfl⟩ := (hmem key group).mp hentry
    exact ⟨hfull, rfl⟩
  · rintro ⟨hfull, hreport⟩
    refine ⟨⟨cohort.key, _⟩, (hmem _ _).mpr ⟨hfull, rfl⟩, ?_⟩
    rw [← hreport]

theorem cohorts_nodup (trades : List ClosedTradeMetrics)
    (keyOf : ClosedTradeMetrics → Option String) (catchAll : String)
    (startingEquityUsdt : Option ℚ) :
    ((cohorts trades keyOf catchAll startingEquityUsdt).map BreakdownCohort.key).Nodup := by
  rw [cohorts, List.map_map]
  exact ((List.perm_insertionSort _ _).map Sigma.fst).nodup_iff.mpr (AList.keys_nodup _)

end TradeMind.Model
