import Mathlib.Algebra.Order.BigOperators.Group.List
import Mathlib.Algebra.Order.Field.Basic
import Mathlib.Data.Finset.Max
import Mathlib.Data.Sign.Basic
import Mathlib.Tactic.Ring
import TradeMind.Library.Fibers
import TradeMind.Model.PerformanceReport

/-!
# The R figures of a report

Means of the known R, over a cohort and over its winning and losing sides.  The expectancy is
the mean R, and the win and loss averages weighted by their rates where every R is known and a
trade without PnL has none (`expectancy_decomposes`).
-/

set_option autoImplicit false

namespace TradeMind.Analysis

open TradeMind.Model TradeMind.Library

/-! ## Means -/

variable {values : List ℚ} {mean low high : ℚ}

theorem meanOf_of_ne_nil (h : values ≠ []) :
    meanOf values = some (values.sum / values.length) := by
  rw [meanOf, if_neg (by simpa using h)]

/-- A mean adds up to the sum; no values add up to zero. -/
theorem meanOf_mul_length (values : List ℚ) :
    (meanOf values).getD 0 * values.length = values.sum := by
  by_cases h : values = []
  · rw [h, List.length_nil, Nat.cast_zero, mul_zero, List.sum_nil]
  · have hlength : (values.length : ℚ) ≠ 0 := by
      exact_mod_cast List.length_eq_zero_iff.not.mpr h
    rw [meanOf_of_ne_nil h, Option.getD_some, div_mul_cancel₀ _ hlength]

/-- A mean lies within bounds of the values. -/
theorem meanOf_bounds (hmean : meanOf values = some mean) (hlow : ∀ x ∈ values, low ≤ x)
    (hhigh : ∀ x ∈ values, x ≤ high) : low ≤ mean ∧ mean ≤ high := by
  have hne : values ≠ [] := by
    rintro rfl
    cases hmean
  rw [meanOf_of_ne_nil hne] at hmean
  cases Option.some.inj hmean
  have hlength : (0 : ℚ) < values.length := by
    exact_mod_cast List.length_pos_of_ne_nil hne
  constructor
  · rw [le_div_iff₀ hlength, mul_comm, ← nsmul_eq_mul]
    exact List.card_nsmul_le_sum values low hlow
  · rw [div_le_iff₀ hlength, mul_comm, ← nsmul_eq_mul]
    exact List.sum_le_card_nsmul values high hhigh

/-- A mean lies between the least and the greatest of the values. -/
theorem exists_bounds_of_mean (hne : values ≠ []) (hmean : meanOf values = some mean) :
    ∃ low high, IsLeast {x | x ∈ values} low ∧ IsGreatest {x | x ∈ values} high ∧
      low ≤ mean ∧ mean ≤ high := by
  have hnonempty : values.toFinset.Nonempty := (List.toFinset_nonempty_iff values).mpr hne
  have hset : {x | x ∈ values} = (values.toFinset : Set ℚ) := by
    ext x
    simp
  rw [hset]
  refine ⟨_, _, Finset.isLeast_min' _ hnonempty, Finset.isGreatest_max' _ hnonempty,
    meanOf_bounds hmean ?_ ?_⟩
  · exact fun x hx => Finset.min'_le _ x (List.mem_toFinset.mpr hx)
  · exact fun x hx => Finset.le_max' _ x (List.mem_toFinset.mpr hx)

/-! ## The known R -/

/-- The R of the trades whose R is known. -/
def knownR (trades : List ClosedTradeMetrics) : List ℚ :=
  trades.filterMap ClosedTradeMetrics.rMultiple

variable {trades : List ClosedTradeMetrics}

/-- There is one known R for each trade counted with R. -/
theorem length_knownR (trades : List ClosedTradeMetrics) :
    (knownR trades).length = (trades.filter fun t => t.rMultiple.isSome).length := by
  rw [knownR, List.length_filterMap_eq_countP, List.countP_eq_length_filter]

/-- The R of a trade, none counting as zero. -/
def rOrZero (trade : ClosedTradeMetrics) : ℚ := trade.rMultiple.getD 0

/-- Where every R is known, none is left out. -/
theorem knownR_eq_map (h : ∀ t ∈ trades, t.rMultiple.isSome) :
    knownR trades = trades.map rOrZero := by
  refine List.filterMap_eq_map_iff_forall_eq_some.mpr fun t ht => ?_
  obtain ⟨r, hr⟩ := Option.isSome_iff_exists.mp (h t ht)
  rw [rOrZero, hr, Option.getD_some]

/-- **A sum over trades splits by the sign of their PnL.** -/
theorem sum_by_sign (value : ClosedTradeMetrics → ℚ) (trades : List ClosedTradeMetrics) :
    (trades.map value).sum = ((wins trades).map value).sum + ((losses trades).map value).sum +
      ((trades.filter fun t => t.pnlUsdt = 0).map value).sum := by
  have hsigns : ([1, -1, 0] : List SignType).Nodup := by decide
  have hcover : ∀ t ∈ trades, SignType.sign t.pnlUsdt ∈ ([1, -1, 0] : List SignType) :=
    fun t _ => by cases SignType.sign t.pnlUsdt <;> decide
  have hfibers := sum_fibers value hsigns hcover
  simp only [List.map_cons, List.map_nil, List.sum_cons, List.sum_nil, add_zero,
    sign_eq_one_iff, sign_eq_neg_one_iff, sign_eq_zero_iff] at hfibers
  rw [← hfibers, add_assoc]
  rfl

/-- The rate of a side times its average R is its R as a share of the trades. -/
theorem rate_mul_average {side : List ClosedTradeMetrics} (h : ∀ t ∈ side, t.rMultiple.isSome)
    (count : ℕ) :
    (side.length : ℚ) / count * (meanOf (knownR side)).getD 0 =
      (side.map rOrZero).sum / count := by
  have hmean := meanOf_mul_length (knownR side)
  rw [knownR_eq_map h, List.length_map] at hmean
  rw [knownR_eq_map h, ← hmean]
  ring

/-- Where every R is known, the expectancy is their mean. -/
theorem computeExpectancyR_of_known (hne : trades ≠ []) (hall : ∀ t ∈ trades, t.rMultiple.isSome) :
    computeExpectancyR trades = some ((trades.map rOrZero).sum / trades.length) := by
  have hsome : knownR trades ≠ [] := by
    rw [knownR_eq_map hall]
    simpa using hne
  have hmean := meanOf_of_ne_nil hsome
  rw [knownR_eq_map hall, List.length_map] at hmean
  exact (congrArg meanOf (knownR_eq_map hall)).trans hmean

/-- Where every R is known and zero for a trade without PnL, their mean is the win rate times the
average win and the loss rate times the average loss. -/
theorem mean_by_side (hall : ∀ t ∈ trades, t.rMultiple.isSome)
    (hflat : ∀ t ∈ trades, t.pnlUsdt = 0 → t.rMultiple = some 0) :
    (trades.map rOrZero).sum / trades.length =
      (wins trades).length / trades.length * (meanOf (knownR (wins trades))).getD 0 +
        (losses trades).length / trades.length * (meanOf (knownR (losses trades))).getD 0 := by
  have hwins : ∀ t ∈ wins trades, t.rMultiple.isSome :=
    fun t ht => hall t (List.mem_filter.mp ht).1
  have hlosses : ∀ t ∈ losses trades, t.rMultiple.isSome :=
    fun t ht => hall t (List.mem_filter.mp ht).1
  have hzero : ((trades.filter fun t => t.pnlUsdt = 0).map rOrZero).sum = 0 := by
    refine List.sum_eq_zero fun r hr => ?_
    obtain ⟨t, ht, rfl⟩ := List.mem_map.mp hr
    obtain ⟨htrade, hpnl⟩ := List.mem_filter.mp ht
    rw [rOrZero, hflat t htrade (of_decide_eq_true hpnl), Option.getD_some]
  calc (trades.map rOrZero).sum / trades.length
      = ((wins trades).map rOrZero).sum / trades.length +
          ((losses trades).map rOrZero).sum / trades.length := by
        rw [sum_by_sign, hzero, add_zero, add_div]
    _ = (wins trades).length / trades.length * (meanOf (knownR (wins trades))).getD 0 +
          (losses trades).length / trades.length *
            (meanOf (knownR (losses trades))).getD 0 := by
        rw [rate_mul_average hwins, rate_mul_average hlosses]

/-! ## The expectancy -/

/-- **The expectancy decomposes.**  Where every R is known and zero for a trade without PnL,
the expectancy is the win rate times the average win and the loss rate times the average loss,
a missing average counting as zero.  Where some R is known, the total R is the expectancy times
the trades with R, and the expectancy lies between the smallest and the largest known R. -/
theorem expectancy_decomposes (trades : List ClosedTradeMetrics)
    (startingEquityUsdt : Option ℚ) :
    let report := summarize trades startingEquityUsdt
    (trades ≠ [] →
      (∀ t ∈ trades, t.rMultiple.isSome ∧ (t.pnlUsdt = 0 → t.rMultiple = some 0)) →
      ∃ winRate expectancyR, report.winRate = some winRate ∧
        report.expectancyR = some expectancyR ∧
        expectancyR = winRate * report.avgWinR.getD 0 +
          (report.losses : ℚ) / report.trades * report.avgLossR.getD 0) ∧
    ((∃ t ∈ trades, t.rMultiple.isSome) →
      ∃ expectancyR, report.expectancyR = some expectancyR ∧
        report.totalR = some (expectancyR * report.tradesWithR) ∧
        ∃ low high, IsLeast {r | ∃ t ∈ trades, t.rMultiple = some r} low ∧
          IsGreatest {r | ∃ t ∈ trades, t.rMultiple = some r} high ∧
          low ≤ expectancyR ∧ expectancyR ≤ high) := by
  intro report
  constructor
  · intro hne hknown
    have hall : ∀ t ∈ trades, t.rMultiple.isSome := fun t ht => (hknown t ht).1
    have hrate : report.winRate = some ((wins trades).length / trades.length : ℚ) :=
      if_neg (by simpa using hne)
    exact ⟨_, _, hrate, computeExpectancyR_of_known hne hall,
      mean_by_side hall fun t ht => (hknown t ht).2⟩
  · rintro ⟨trade, htrade, hsome⟩
    have hmem : ∀ r, r ∈ knownR trades ↔ ∃ t ∈ trades, t.rMultiple = some r :=
      fun r => List.mem_filterMap
    have hne : knownR trades ≠ [] := by
      obtain ⟨r, hr⟩ := Option.isSome_iff_exists.mp hsome
      exact List.ne_nil_of_mem ((hmem r).mpr ⟨trade, htrade, hr⟩)
    have hmean := meanOf_of_ne_nil hne
    have hlength : ((knownR trades).length : ℚ) ≠ 0 := by
      exact_mod_cast List.length_eq_zero_iff.not.mpr hne
    refine ⟨_, hmean, ?_, ?_⟩
    · have htotal : report.totalR = some (knownR trades).sum :=
        if_neg (List.isEmpty_iff.not.mpr hne)
      have hcount : report.tradesWithR = (knownR trades).length := (length_knownR trades).symm
      rw [htotal, hcount, div_mul_cancel₀ _ hlength]
    · have hbounds := exists_bounds_of_mean hne hmean
      simpa only [hmem] using hbounds

/-- A win of two R, a loss of one and a trade that broke even. -/
def mixedTrades : List ClosedTradeMetrics :=
  [{ pnlUsdt := 20, rMultiple := some 2, feesUsdt := none, closedAt := 0 },
    { pnlUsdt := -10, rMultiple := some (-1), feesUsdt := none, closedAt := 1 },
    { pnlUsdt := 0, rMultiple := some 0, feesUsdt := none, closedAt := 2 }]

/-- A win, a loss and a trade that broke even. -/
theorem expectancy_decomposes_mixed :
    let report := summarize mixedTrades none
    (∃ winRate expectancyR, report.winRate = some winRate ∧
      report.expectancyR = some expectancyR ∧
      expectancyR = winRate * report.avgWinR.getD 0 +
        (report.losses : ℚ) / report.trades * report.avgLossR.getD 0) ∧
    ∃ expectancyR, report.expectancyR = some expectancyR ∧
      report.totalR = some (expectancyR * report.tradesWithR) := by
  intro report
  obtain ⟨hsplit, hbetween⟩ := expectancy_decomposes mixedTrades none
  obtain ⟨expectancyR, hexpectancy, htotal, -⟩ := hbetween (by decide)
  exact ⟨hsplit (by decide) (by decide +kernel), expectancyR, hexpectancy, htotal⟩

end TradeMind.Analysis
