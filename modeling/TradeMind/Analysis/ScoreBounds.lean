import TradeMind.Analysis.ExpectancyCohort
import TradeMind.Library.HalfEven
import TradeMind.Model.TradeScore

/-!
# The bands of the trade score

Each part of the score is a base and a clamped ratio rounded to its share, so it stays in its
band and moves with what it reads (`trade_score_bounded`).
-/

set_option autoImplicit false

namespace TradeMind.Analysis

open TradeMind.Model TradeMind.Model.Llm TradeMind.Library

/-! ## Rounding and clamping -/

theorem roundHalfEven_eq (q : ℚ) : roundHalfEven q = halfEven q := rfl

/-- A ratio is clamped between zero and one. -/
theorem clampScore_unit (x : ℚ) : 0 ≤ clampScore x 0 1 ∧ clampScore x 0 1 ≤ 1 :=
  ⟨le_max_left _ _, max_le zero_le_one (min_le_right _ _)⟩

theorem clampScore_mono {x y low high : ℚ} (h : x ≤ y) :
    clampScore x low high ≤ clampScore y low high :=
  max_le_max le_rfl (min_le_min h le_rfl)

/-- A share of `most` points, at a ratio between zero and one. -/
theorem share_bounds {ratio : ℚ} (h : 0 ≤ ratio ∧ ratio ≤ 1) (most : ℕ) :
    0 ≤ roundHalfEven (ratio * most) ∧ roundHalfEven (ratio * most) ≤ most := by
  have hmost : (0 : ℚ) ≤ most := Nat.cast_nonneg most
  have hlow : ((0 : ℤ) : ℚ) ≤ ratio * most := by
    rw [Int.cast_zero]
    exact mul_nonneg h.1 hmost
  have hhigh : ratio * most ≤ ((most : ℤ) : ℚ) := by
    rw [Int.cast_natCast]
    exact mul_le_of_le_one_left hmost h.2
  exact halfEven_bounds hlow hhigh

theorem share_mono {a b : ℚ} (h : a ≤ b) (most : ℕ) :
    roundHalfEven (a * most) ≤ roundHalfEven (b * most) :=
  halfEven_mono (mul_le_mul_of_nonneg_right h (Nat.cast_nonneg most))

/-! ## The bands -/

theorem scoreTrend_bounds (trend : TrendMetrics) :
    0 ≤ scoreTrend trend ∧ scoreTrend trend ≤ 25 := by
  have hshare := share_bounds (clampScore_unit (trend.emaGapPct / (3 / 100))) 5
  rw [scoreTrend]
  push_cast at hshare
  split_ifs <;> omega

theorem scoreMomentum_bounds (momentum : MomentumMetrics) :
    0 ≤ scoreMomentum momentum ∧ scoreMomentum momentum ≤ 20 := by
  have hshare := share_bounds
    (clampScore_unit (momentum.histogramAtrRatio / momentumBurstRatio)) 8
  simp only [scoreMomentum]
  push_cast at hshare
  split_ifs <;> omega

theorem scoreVolume_bounds (latestAboveSma20 : Bool) :
    0 ≤ scoreVolume latestAboveSma20 ∧ scoreVolume latestAboveSma20 ≤ 15 := by
  cases latestAboveSma20 <;> decide

theorem scoreRegime_bounds (strategy : SelectedStrategy) :
    0 ≤ scoreRegime strategy ∧ scoreRegime strategy ≤ 20 := by
  unfold scoreRegime
  cases strategy.strategy <;> decide

theorem scoreRiskReward_bounds (atrPct assumedRewardMultiple : ℚ) :
    5 ≤ (scoreRiskReward atrPct assumedRewardMultiple).1 ∧
      (scoreRiskReward atrPct assumedRewardMultiple).1 ≤ 15 := by
  obtain ⟨hlow, hhigh⟩ := clampScore_unit
    ((assumedStopDistancePct atrPct - 15 / 1000) / (8 / 100 - 15 / 1000))
  have hunit : 0 ≤ 1 - clampScore
        ((assumedStopDistancePct atrPct - 15 / 1000) / (8 / 100 - 15 / 1000)) 0 1 ∧
      1 - clampScore
        ((assumedStopDistancePct atrPct - 15 / 1000) / (8 / 100 - 15 / 1000)) 0 1 ≤ 1 :=
    ⟨sub_nonneg.mpr hhigh, sub_le_self 1 hlow⟩
  have hshare := share_bounds hunit 10
  rw [scoreRiskReward]
  norm_num at hshare ⊢
  omega

theorem scoreVolatility_bounds (regime : VolatilityRegime) :
    0 ≤ scoreVolatility regime ∧ scoreVolatility regime ≤ 5 := by
  cases regime <;> decide

/-! ## Monotonicity -/

/-- The trend score grows with the EMA gap. -/
theorem scoreTrend_mono (trend : TrendMetrics) {a b : ℚ} (h : a ≤ b) :
    scoreTrend { trend with emaGapPct := a } ≤ scoreTrend { trend with emaGapPct := b } := by
  have hratio : clampScore (a / (3 / 100)) 0 1 ≤ clampScore (b / (3 / 100)) 0 1 :=
    clampScore_mono (div_le_div_of_nonneg_right h (by norm_num))
  have hshare := share_mono hratio 5
  by_cases ha : 0 < a
  · -- both gaps are an uptrend
    have hb : 0 < b := ha.trans_le h
    simp only [scoreTrend, ha, hb, decide_true, Bool.true_and, if_true]
    push_cast at hshare
    omega
  · have hzero : scoreTrend { trend with emaGapPct := a } = 0 := by
      simp [scoreTrend, ha]
    rw [hzero]
    exact (scoreTrend_bounds _).1

theorem scoreMomentum_mono (momentum : MomentumMetrics) {a b : ℚ} (h : a ≤ b) :
    scoreMomentum { momentum with histogramAtrRatio := a } ≤
      scoreMomentum { momentum with histogramAtrRatio := b } := by
  have hratio : clampScore (a / momentumBurstRatio) 0 1 ≤
      clampScore (b / momentumBurstRatio) 0 1 :=
    clampScore_mono (div_le_div_of_nonneg_right h (by decide +kernel))
  have hshare := share_mono hratio 8
  simp only [scoreMomentum]
  split
  · exact le_rfl
  · push_cast at hshare
    omega

theorem scoreRiskReward_anti (assumedRewardMultiple : ℚ) {a b : ℚ} (h : a ≤ b) :
    (scoreRiskReward b assumedRewardMultiple).1 ≤
      (scoreRiskReward a assumedRewardMultiple).1 := by
  have hstop : assumedStopDistancePct a ≤ assumedStopDistancePct b :=
    clampScore_mono (mul_le_mul_of_nonneg_right h (by norm_num))
  have hratio : clampScore ((assumedStopDistancePct a - 15 / 1000) / (8 / 100 - 15 / 1000)) 0 1 ≤
      clampScore ((assumedStopDistancePct b - 15 / 1000) / (8 / 100 - 15 / 1000)) 0 1 :=
    clampScore_mono (div_le_div_of_nonneg_right (sub_le_sub_right hstop _) (by norm_num))
  have hshare := share_mono (sub_le_sub_left hratio 1) 10
  rw [scoreRiskReward, scoreRiskReward]
  norm_num at hshare ⊢
  exact hshare

/-! ## The score of a trade -/

/-- **The trade score is bounded and monotone.**  Whatever the context, and so for the context
of every request, each part lies in its band, the total is their sum and lies in the range of
the bucket table; the risk:reward part falls with `atr_pct`, the trend part grows with
`ema_gap_pct` and the momentum part with `histogram_atr_ratio`. -/
theorem trade_score_bounded (assumedRewardMultiple : ℚ) (context : MarketContext)
    (strategy : SelectedStrategy) (volatilityRegime : VolatilityRegime) :
    let result := scoreTrade assumedRewardMultiple context strategy volatilityRegime
    (0 ≤ result.trend ∧ result.trend ≤ 25) ∧
    (0 ≤ result.momentum ∧ result.momentum ≤ 20) ∧
    (0 ≤ result.volume ∧ result.volume ≤ 15) ∧
    (0 ≤ result.regime ∧ result.regime ≤ 20) ∧
    (0 ≤ result.riskReward ∧ result.riskReward ≤ 15) ∧
    (0 ≤ result.volatility ∧ result.volatility ≤ 5) ∧
    result.total = result.trend + result.momentum + result.volume + result.regime +
      result.riskReward + result.volatility ∧
    (0 ≤ result.total ∧ result.total ≤ 100) ∧
    scoreBucketLabel (some result.total) ≠ "(unscored)" ∧
    (∀ a b, a ≤ b →
      (scoreTrade assumedRewardMultiple { context with atrPct := b } strategy
        volatilityRegime).riskReward ≤
      (scoreTrade assumedRewardMultiple { context with atrPct := a } strategy
        volatilityRegime).riskReward) ∧
    (∀ a b, a ≤ b →
      (scoreTrade assumedRewardMultiple
        { context with trend := { context.trend with emaGapPct := a } } strategy
        volatilityRegime).trend ≤
      (scoreTrade assumedRewardMultiple
        { context with trend := { context.trend with emaGapPct := b } } strategy
        volatilityRegime).trend) ∧
    ∀ a b, a ≤ b →
      (scoreTrade assumedRewardMultiple
        { context with momentum := { context.momentum with histogramAtrRatio := a } } strategy
        volatilityRegime).momentum ≤
      (scoreTrade assumedRewardMultiple
        { context with momentum := { context.momentum with histogramAtrRatio := b } } strategy
        volatilityRegime).momentum := by
  intro result
  have htrend : 0 ≤ result.trend ∧ result.trend ≤ 25 := scoreTrend_bounds context.trend
  have hmomentum : 0 ≤ result.momentum ∧ result.momentum ≤ 20 :=
    scoreMomentum_bounds context.momentum
  have hvolume : 0 ≤ result.volume ∧ result.volume ≤ 15 :=
    scoreVolume_bounds context.latestAboveSma20
  have hregime : 0 ≤ result.regime ∧ result.regime ≤ 20 := scoreRegime_bounds strategy
  have hriskReward : 5 ≤ result.riskReward ∧ result.riskReward ≤ 15 :=
    scoreRiskReward_bounds context.atrPct assumedRewardMultiple
  have hvolatility : 0 ≤ result.volatility ∧ result.volatility ≤ 5 :=
    scoreVolatility_bounds volatilityRegime
  have htotal : result.total = result.trend + result.momentum + result.volume + result.regime +
      result.riskReward + result.volatility := rfl
  have hrange : 0 ≤ result.total ∧ result.total ≤ 100 := by omega
  obtain ⟨bucket, hbucket⟩ := scoreBucket_of_range hrange.1 hrange.2
  have hlabel : scoreBucketLabel (some result.total) = bucket.1 := by
    simp [scoreBucketLabel, hbucket]
  refine ⟨htrend, hmomentum, hvolume, hregime, ⟨by omega, hriskReward.2⟩, hvolatility, htotal,
    hrange, ?_, fun a b h => scoreRiskReward_anti assumedRewardMultiple h,
    fun a b h => scoreTrend_mono context.trend h,
    fun a b h => scoreMomentum_mono context.momentum h⟩
  rw [hlabel]
  have hnames : ∀ b ∈ scoreBuckets, b.1 ≠ "(unscored)" := by decide
  exact hnames bucket (scoreBucket_some hbucket).1

end TradeMind.Analysis
