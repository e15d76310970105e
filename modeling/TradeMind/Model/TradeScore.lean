import TradeMind.Model.MarketContext

/-!
# The trade score

`llm_service/scoring/trade_score.py`: a rubric over the context, the selected regime and the
volatility regime, attached to every signal whatever its action.
-/

set_option autoImplicit false

namespace TradeMind.Model.Llm

/-- `_clamp`. -/
def clampScore (value low high : ℚ) : ℚ := max low (min value high)

structure TradeScoreResult where
  total : ℤ
  trend : ℤ
  momentum : ℤ
  volume : ℤ
  regime : ℤ
  riskReward : ℤ
  volatility : ℤ
  assumedRewardPct : ℚ
  assumedRewardMultiple : ℚ
  deriving DecidableEq, Repr

/-- `_score_trend`. -/
def scoreTrend (trend : TrendMetrics) : ℤ :=
  let isUptrend : Bool := 0 < trend.emaGapPct
  let strengthRatio := clampScore (trend.emaGapPct / (3 / 100)) 0 1
  (if isUptrend && trend.priceAboveEma50 then 10 else 0) +
    (if isUptrend && trend.priceAboveEma200 && trend.ema50AboveEma200 then 10 else 0) +
    (if isUptrend then roundHalfEven (strengthRatio * 5) else 0)

/-- `_score_momentum`. -/
def scoreMomentum (momentum : MomentumMetrics) : ℤ :=
  if momentum.macdBearish then 0
  else
    let directionScore := if momentum.macdBullish then 12 else 6
    let burstRatio := clampScore (momentum.histogramAtrRatio / momentumBurstRatio) 0 1
    directionScore + roundHalfEven (burstRatio * 8)

/-- `_score_volume`. -/
def scoreVolume (latestAboveSma20 : Bool) : ℤ := if latestAboveSma20 then 15 else 0

/-- `_score_regime`. -/
def scoreRegime (strategy : SelectedStrategy) : ℤ :=
  match strategy.strategy with
  | .TREND_PULLBACK => 20
  | .MOMENTUM_CONTINUATION => 16
  | .MEAN_REVERSION => 10
  | .TREND_FOLLOWING => 4

/-- `_assumed_stop_distance_pct`. -/
def assumedStopDistancePct (atrPct : ℚ) : ℚ := clampScore (atrPct * 2) (15 / 1000) (8 / 100)

/-- `_score_risk_reward`: the score and the assumed reward. -/
def scoreRiskReward (atrPct assumedRewardMultiple : ℚ) : ℤ × ℚ :=
  let stopDistancePct := assumedStopDistancePct atrPct
  let band : ℚ := 8 / 100 - 15 / 1000
  let tightnessRatio := 1 - clampScore ((stopDistancePct - 15 / 1000) / band) 0 1
  (5 + roundHalfEven (tightnessRatio * (15 - 5)), stopDistancePct * assumedRewardMultiple)

/-- `_score_volatility`. -/
def scoreVolatility : VolatilityRegime → ℤ
  | .NORMAL => 5
  | .LOW_VOLATILITY => 3
  | .HIGH_VOLATILITY => 1

/-- `TradeScorer.score`. -/
def scoreTrade (assumedRewardMultiple : ℚ) (context : MarketContext)
    (strategy : SelectedStrategy) (volatilityRegime : VolatilityRegime) : TradeScoreResult :=
  let trend := scoreTrend context.trend
  let momentum := scoreMomentum context.momentum
  let volume := scoreVolume context.latestAboveSma20
  let regime := scoreRegime strategy
  let riskReward := scoreRiskReward context.atrPct assumedRewardMultiple
  let volatility := scoreVolatility volatilityRegime
  { total := trend + momentum + volume + regime + riskReward.1 + volatility
    trend
    momentum
    volume
    regime
    riskReward := riskReward.1
    volatility
    assumedRewardPct := riskReward.2
    assumedRewardMultiple }

end TradeMind.Model.Llm
