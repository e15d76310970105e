import Mathlib.Algebra.BigOperators.Ring.Finset
import Mathlib.Data.Prod.Lex
import Mathlib.Data.String.Basic
import TradeMind.Analysis.ReportFigures

/-!
# The breakdowns partition the cohort

Every figure of a report that is a sum over the trades is the sum of those figures over the
cohorts of a breakdown, whatever labels are missing (`breakdowns_partition`).
-/

set_option autoImplicit false

namespace TradeMind.Analysis

open TradeMind.Model TradeMind.Library

/-- A breakdown of a report: distinct keys, the largest cohorts first and the catch-all last,
sums that are the report's and an expectancy that is the mean of the cohorts'. -/
structure Partitions (catchAll : String) (report : PerformanceReport)
    (rows : List BreakdownCohort) : Prop where
  distinct : (rows.map BreakdownCohort.key).Nodup
  ordered : rows.Pairwise fun a b => a.key ≠ catchAll ∧
    (b.key ≠ catchAll → b.report.trades ≤ a.report.trades)
  trades : (rows.map fun row => row.report.trades).sum = report.trades
  wins : (rows.map fun row => row.report.wins).sum = report.wins
  losses : (rows.map fun row => row.report.losses).sum = report.losses
  breakeven : (rows.map fun row => row.report.breakeven).sum = report.breakeven
  tradesWithR : (rows.map fun row => row.report.tradesWithR).sum = report.tradesWithR
  totalPnl : (rows.map fun row => row.report.totalPnlUsdt).sum = report.totalPnlUsdt
  totalFees : (rows.map fun row => row.report.totalFeesUsdt).sum = report.totalFeesUsdt
  expectancy : report.expectancyR =
    if (rows.map fun row => row.report.tradesWithR).sum = 0 then none
    else some ((rows.map fun row =>
        row.report.expectancyR.getD 0 * (row.report.tradesWithR : ℚ)).sum /
      (rows.map fun row => (row.report.tradesWithR : ℚ)).sum)

/-! ## The order of the cohorts -/

/-- The sort key of `_cohorts`: whether it is the catch-all, the size downwards, the key. -/
def cohortRank (catchAll key : String) (count : ℕ) : Bool ×ₗ ℕᵒᵈ ×ₗ String :=
  toLex (key = catchAll, toLex (OrderDual.toDual count, key))

/-- The order of the cohorts is that of their sort keys. -/
theorem cohortBefore_iff {catchAll : String}
    {a b : Sigma fun _ : String => List ClosedTradeMetrics} :
    CohortBefore catchAll a b ↔
      cohortRank catchAll a.1 a.2.length ≤ cohortRank catchAll b.1 b.2.length := by
  simp only [CohortBefore, cohortRank, Prod.Lex.toLex_le_toLex, OrderDual.toDual_lt_toDual,
    EmbeddingLike.apply_eq_iff_eq, Bool.lt_iff, decide_eq_false_iff_not, decide_eq_true_eq,
    decide_eq_decide]
  by_cases ha : a.1 = catchAll <;> by_cases hb : b.1 = catchAll <;> simp [ha, hb, eq_comm]

variable {trades : List ClosedTradeMetrics} {keyOf : ClosedTradeMetrics → Option String}
  {catchAll : String} {start : Option ℚ}

/-- **The cohorts are sorted** by their keys. -/
theorem cohorts_sorted : (cohorts trades keyOf catchAll start).Pairwise fun a b =>
    cohortRank catchAll a.key a.report.trades ≤ cohortRank catchAll b.key b.report.trades := by
  have htrans : IsTrans _ (CohortBefore catchAll) := ⟨fun _ _ _ hab hbc =>
    cohortBefore_iff.mpr ((cohortBefore_iff.mp hab).trans (cohortBefore_iff.mp hbc))⟩
  have htotal : Std.Total (CohortBefore catchAll) := ⟨fun a b => by
    simp only [cohortBefore_iff]
    exact le_total _ _⟩
  rw [cohorts, List.pairwise_map]
  exact (List.pairwise_insertionSort _ _).imp cohortBefore_iff.mp

/-- **The largest cohorts come first and the catch-all last.** -/
theorem cohorts_ordered : (cohorts trades keyOf catchAll start).Pairwise fun a b =>
    a.key ≠ catchAll ∧ (b.key ≠ catchAll → b.report.trades ≤ a.report.trades) := by
  have hnodup := cohorts_nodup trades keyOf catchAll start
  rw [List.Nodup, List.pairwise_map] at hnodup
  refine (hnodup.and cohorts_sorted).imp ?_
  rintro a b ⟨hdistinct, hsorted⟩
  simp only [cohortRank, Prod.Lex.toLex_le_toLex, OrderDual.toDual_lt_toDual, Bool.lt_iff,
    EmbeddingLike.apply_eq_iff_eq, decide_eq_false_iff_not, decide_eq_true_eq,
    decide_eq_decide] at hsorted
  rcases hsorted with ⟨ha, hb⟩ | ⟨hiff, hsize⟩
  · exact ⟨ha, fun h => absurd hb h⟩
  · -- the keys are distinct, so neither is the catch-all
    refine ⟨fun ha => hdistinct (ha.trans (hiff.mp ha).symm), fun _ => ?_⟩
    rcases hsize with hless | ⟨heq, -⟩
    · exact hless.le
    · exact heq.ge

/-! ## The sums -/

/-- **A figure that adds up over the trades adds up over the cohorts.** -/
theorem cohorts_sum {M : Type} [AddCommMonoid M] {figure : PerformanceReport → M}
    (value : ClosedTradeMetrics → M)
    (hfigure : ∀ group, figure (summarize group start) = (group.map value).sum) :
    ((cohorts trades keyOf catchAll start).map fun row => figure row.report).sum =
      figure (summarize trades start) := by
  have hrow : ∀ row ∈ cohorts trades keyOf catchAll start, figure row.report =
      ((trades.filter fun t => (keyOf t).getD catchAll = row.key).map value).sum := by
    intro row hrow
    rw [(mem_cohorts.mp hrow).2, hfigure]
  have hcover : ∀ t ∈ trades, (keyOf t).getD catchAll ∈
      (cohorts trades keyOf catchAll start).map BreakdownCohort.key := by
    intro t ht
    refine List.mem_map.mpr
      ⟨⟨(keyOf t).getD catchAll, summarize (trades.filter fun u =>
        (keyOf u).getD catchAll = (keyOf t).getD catchAll) start⟩,
        mem_cohorts.mpr ⟨?_, rfl⟩, rfl⟩
    exact List.ne_nil_of_mem (List.mem_filter.mpr ⟨ht, decide_eq_true rfl⟩)
  have hfibers := sum_fibers value (cohorts_nodup trades keyOf catchAll start) hcover
  rw [List.map_map] at hfibers
  rw [List.map_congr_left hrow, hfigure]
  exact hfibers

/-- A count of the trades that meet a test adds up over the cohorts. -/
theorem cohorts_count {figure : PerformanceReport → ℕ} {test : ClosedTradeMetrics → Bool}
    (hfigure : ∀ group, figure (summarize group start) = (group.filter test).length) :
    ((cohorts trades keyOf catchAll start).map fun row => figure row.report).sum =
      figure (summarize trades start) :=
  cohorts_sum (fun t => (test t).toNat) fun group => by
    rw [hfigure, length_filter_eq_sum]

/-- The expectancy of a cohort times its trades with R is its known R. -/
theorem expectancy_mul_count (group : List ClosedTradeMetrics) (start : Option ℚ) :
    (summarize group start).expectancyR.getD 0 * ((summarize group start).tradesWithR : ℚ) =
      (group.map rOrZero).sum := by
  have hcount : (summarize group start).tradesWithR = (knownR group).length :=
    (length_knownR group).symm
  rw [hcount]
  exact (meanOf_mul_length (knownR group)).trans
    (sum_filterMap ClosedTradeMetrics.rMultiple group)

/-- **A breakdown partitions its cohort.** -/
theorem cohorts_partition (trades : List ClosedTradeMetrics)
    (keyOf : ClosedTradeMetrics → Option String) (catchAll : String) (start : Option ℚ) :
    Partitions catchAll (summarize trades start) (cohorts trades keyOf catchAll start) := by
  have hwithR : ((cohorts trades keyOf catchAll start).map fun row =>
      row.report.tradesWithR).sum = (summarize trades start).tradesWithR :=
    cohorts_count fun group => rfl
  refine
    { distinct := cohorts_nodup trades keyOf catchAll start
      ordered := cohorts_ordered
      trades := cohorts_sum (fun _ => 1) fun group => by simp [summarize]
      wins := cohorts_count fun group => rfl
      losses := cohorts_count fun group => rfl
      breakeven := cohorts_count fun group => rfl
      tradesWithR := hwithR
      totalPnl := cohorts_sum ClosedTradeMetrics.pnlUsdt fun group => rfl
      totalFees := cohorts_sum (fun t => t.feesUsdt.getD 0) fun group =>
        sum_filterMap ClosedTradeMetrics.feesUsdt group
      expectancy := ?_ }
  have hsum : ((cohorts trades keyOf catchAll start).map fun row =>
      row.report.expectancyR.getD 0 * (row.report.tradesWithR : ℚ)).sum =
        (summarize trades start).expectancyR.getD 0 * ((summarize trades start).tradesWithR : ℚ) :=
    @cohorts_sum _ _ _ _ _ _ (fun report => report.expectancyR.getD 0 * (report.tradesWithR : ℚ))
      rOrZero fun group => expectancy_mul_count group start
  have hcount : ((cohorts trades keyOf catchAll start).map fun row =>
      (row.report.tradesWithR : ℚ)).sum = ((summarize trades start).tradesWithR : ℚ) := by
    rw [← hwithR, Nat.cast_list_sum, List.map_map]
    rfl
  have hlength : (summarize trades start).tradesWithR = (knownR trades).length :=
    (length_knownR trades).symm
  rw [hsum, hcount, hwithR, hlength]
  by_cases hnone : knownR trades = []
  · rw [if_pos (by rw [hnone]; rfl)]
    exact congrArg meanOf hnone
  · have hpos : (knownR trades).length ≠ 0 := List.length_eq_zero_iff.not.mpr hnone
    have hexpectancy : (summarize trades start).expectancyR =
        some ((knownR trades).sum / (knownR trades).length) := meanOf_of_ne_nil hnone
    rw [if_neg hpos, hexpectancy, Option.getD_some, mul_div_cancel_right₀]
    exact_mod_cast hpos

/-! ## The cohorts of a report -/

/-- **The breakdowns partition the cohort.**  Each has distinct keys, lists its cohorts by
descending trade count with the catch-all last, and adds up to the report of the whole list,
whose expectancy is the mean of the cohorts' weighted by their trades with R. -/
theorem breakdowns_partition (trades : List ClosedTradeMetrics)
    (startingEquityUsdt : Option ℚ) :
    let report := summarize trades startingEquityUsdt
    let breakdowns := summarizeBreakdowns trades startingEquityUsdt
    Partitions "(unclassified)" report breakdowns.byRegime ∧
      Partitions "(unclassified)" report breakdowns.byVolatility ∧
      Partitions "(unscored)" report breakdowns.byScoreBucket :=
  ⟨cohorts_partition _ _ _ _, cohorts_partition _ _ _ _, cohorts_partition _ _ _ _⟩

end TradeMind.Analysis
