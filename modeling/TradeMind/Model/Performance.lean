import Mathlib.Algebra.Ring.Rat
import TradeMind.Model.Database

/-!
# The expectancy figures of `common/performance.py`

The part of the Performance Engine the Risk Engine consults before it decides: the closed
trades of a cohort, their expectancy in R and the trade-score bands.
-/

set_option autoImplicit false

namespace TradeMind.Model

structure ClosedTradeMetrics where
  pnlUsdt : ℚ
  rMultiple : Option ℚ
  feesUsdt : Option ℚ
  closedAt : Time
  marketRegime : Option String := none
  volatilityRegime : Option String := none
  tradeScore : Option ℤ := none
  deriving DecidableEq, Repr

/-- `compute_expectancy_r`: the mean R of the trades whose R is known. -/
def computeExpectancyR (trades : List ClosedTradeMetrics) : Option ℚ :=
  let values := trades.filterMap ClosedTradeMetrics.rMultiple
  if values.isEmpty then none else some (values.sum / values.length)

/-- `SCORE_BUCKETS`. -/
def scoreBuckets : List (String × ℤ × ℤ) :=
  [("0–39", 0, 39), ("40–69", 40, 69), ("70–100", 70, 100)]

/-- The band a score falls in. -/
def scoreBucket (score : ℤ) : Option (String × ℤ × ℤ) :=
  scoreBuckets.find? fun bucket => bucket.2.1 ≤ score ∧ score ≤ bucket.2.2

/-- `score_bucket_label`. -/
def scoreBucketLabel (score : Option ℤ) : String :=
  match score.bind scoreBucket with
  | some bucket => bucket.1
  | none => "(unscored)"

/-- `_to_metrics` for one row: a row without close time or PnL is skipped. -/
def Position.toMetrics (row : Position) : Option ClosedTradeMetrics :=
  match row.closedAt, row.pnlUsdt with
  | some closedAt, some pnlUsdt =>
    some
      { pnlUsdt
        rMultiple := row.rMultiple
        feesUsdt := row.feesUsdt
        closedAt
        marketRegime := row.marketRegime
        volatilityRegime := row.volatilityRegime
        tradeScore := row.tradeScore }
  | _, _ => none

/-- The optional filters of `load_closed_trade_metrics`. -/
structure MetricsFilter where
  symbol : Option Symbol := none
  regime : Option String := none
  scoreMin : Option ℤ := none
  scoreMax : Option ℤ := none
  closedSince : Option Time := none
  closedUntil : Option Time := none

/-- The WHERE clause of `load_closed_trade_metrics`; a NULL column meets no bound. -/
def MetricsFilter.selects (f : MetricsFilter) (row : Position) : Bool :=
  row.status = .CLOSED ∧
    (f.symbol.all fun s => row.symbol = s) ∧
    (f.regime.all fun r => row.marketRegime = some r) ∧
    (f.scoreMin.all fun low => row.tradeScore.any fun score => low ≤ score) ∧
    (f.scoreMax.all fun high => row.tradeScore.any fun score => score ≤ high) ∧
    (f.closedSince.all fun t => row.closedAt.any fun closedAt => t ≤ closedAt) ∧
    (f.closedUntil.all fun t => row.closedAt.any fun closedAt => closedAt ≤ t)

/-- `load_closed_trade_metrics`, oldest close first.  Rows without a close time are
dropped by `_to_metrics`, so where they sort does not matter. -/
def loadClosedTradeMetrics (rows : RowOrder) (db : Database) (f : MetricsFilter) :
    List ClosedTradeMetrics :=
  (rows.positions.sortedAsc (fun p => p.closedAt.getD 0)
    (db.positions.filter f.selects)).filterMap Position.toMetrics

end TradeMind.Model
