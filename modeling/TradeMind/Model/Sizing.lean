import Mathlib.Tactic.Linarith
import TradeMind.Model.Records

/-!
# Position sizing

`RiskConfig` (`common/config.py`) with its shipped defaults, and `risk_engine/sizing.py`:
fixed-fractional risk sizing with an ATR stop.  `Decimal` division by zero raises, so
`computeSizing` is partial.
-/

set_option autoImplicit false

namespace TradeMind.Model

structure RiskConfig where
  riskPerTradePct : ℚ := 1 / 100
  maxPositionPct : ℚ := 5 / 100
  maxTotalExposurePct : ℚ := 20 / 100
  maxOpenPositions : ℤ := 2
  maxDailyLossPct : ℚ := 3 / 100
  consecutiveLossLimit : ℤ := 3
  consecutiveLossClusterMinutes : ℤ := 60
  cooldownMinutes : ℤ := 120
  minConfidence : ℚ := 70 / 100
  minConfidenceSizeScale : ℚ := 5 / 10
  signalMaxAgeMinutes : ℤ := 65
  atrStopMultiplier : ℚ := 2
  minStopLossPct : ℚ := 15 / 1000
  maxStopLossPct : ℚ := 8 / 100
  dryRun : Bool := true
  estimatedFeePct : ℚ := 1 / 1000
  expectancyFilterEnabled : Bool := false
  expectancyMinSampleSize : ℤ := 30
  expectancyMinR : ℚ := 0
  deriving DecidableEq, Repr

/-- `_clamp`. -/
def clamp (value low high : ℚ) : ℚ := max low (min value high)

structure SizingResult where
  positionSizeUsdt : ℚ
  positionSizeBase : ℚ
  stopLossPrice : ℚ
  stopDistancePct : ℚ
  riskPctApplied : ℚ
  nominalRiskAmountUsdt : ℚ
  actualRiskUsdt : ℚ
  deriving DecidableEq, Repr

/-- `_confidence_scale`: from `min_confidence_size_scale` at `min_confidence` up to `1`
at confidence `1`. -/
def confidenceScale (confidence : ℚ) (config : RiskConfig) : ℚ :=
  let confidenceRange := 1 - config.minConfidence
  if confidenceRange ≤ 0 then 1
  else
    let ratio := clamp ((confidence - config.minConfidence) / confidenceRange) 0 1
    let scale := config.minConfidenceSizeScale
    scale + (1 - scale) * ratio

/-- `compute_sizing`; `none` where a `Decimal` division by zero raises. -/
def computeSizing (equityUsdt freeBalanceUsdt entryPrice atr14 confidence : ℚ)
    (config : RiskConfig) : Option SizingResult :=
  let riskAmountUsdt := equityUsdt * config.riskPerTradePct
  if entryPrice = 0 then none
  else
    let stopDistancePct := clamp (atr14 / entryPrice * config.atrStopMultiplier)
      config.minStopLossPct config.maxStopLossPct
    if stopDistancePct = 0 then none
    else
      let rawSizeUsdt := riskAmountUsdt / stopDistancePct
      let clampedSizeUsdt :=
        min (min rawSizeUsdt (equityUsdt * config.maxPositionPct)) freeBalanceUsdt
      let positionSizeUsdt := max clampedSizeUsdt 0 * confidenceScale confidence config
      let positionSizeBase := if 0 < entryPrice then positionSizeUsdt / entryPrice else 0
      some
        { positionSizeUsdt
          positionSizeBase
          stopLossPrice := entryPrice * (1 - stopDistancePct)
          stopDistancePct
          riskPctApplied := config.riskPerTradePct
          nominalRiskAmountUsdt := riskAmountUsdt
          actualRiskUsdt := positionSizeUsdt * stopDistancePct }

/-- The stop of a sized entry is its distance below the entry price, and the distance is the
clamped ATR multiple. -/
theorem computeSizing_stop {equityUsdt freeBalanceUsdt entryPrice atr14 confidence : ℚ}
    {config : RiskConfig} {candidate : SizingResult}
    (h : computeSizing equityUsdt freeBalanceUsdt entryPrice atr14 confidence config =
      some candidate) :
    candidate.stopLossPrice = entryPrice * (1 - candidate.stopDistancePct) ∧
      candidate.stopDistancePct = clamp (atr14 / entryPrice * config.atrStopMultiplier)
        config.minStopLossPct config.maxStopLossPct := by
  unfold computeSizing at h
  split at h
  · cases h
  · dsimp only at h
    split at h
    · cases h
    · cases Option.some.inj h
      exact ⟨rfl, rfl⟩

/-- The confidence scale of a nonnegative floor is nonnegative. -/
theorem confidenceScale_nonneg (confidence : ℚ) {config : RiskConfig}
    (h : 0 ≤ config.minConfidenceSizeScale) : 0 ≤ confidenceScale confidence config := by
  unfold confidenceScale
  dsimp only
  split
  · exact zero_le_one
  · -- between the floor and one, at a ratio between zero and one
    have hratio : ∀ q : ℚ, 0 ≤ clamp q 0 1 ∧ clamp q 0 1 ≤ 1 := fun q =>
      ⟨le_max_left _ _, max_le zero_le_one (min_le_right _ _)⟩
    obtain ⟨hlow, hhigh⟩ :=
      hratio ((confidence - config.minConfidence) / (1 - config.minConfidence))
    have hfloor := mul_nonneg h (sub_nonneg.mpr hhigh)
    linarith

/-- A sized entry has a nonnegative size where the scale's floor is nonnegative. -/
theorem computeSizing_size_nonneg {equityUsdt freeBalanceUsdt entryPrice atr14 confidence : ℚ}
    {config : RiskConfig} {candidate : SizingResult}
    (h : computeSizing equityUsdt freeBalanceUsdt entryPrice atr14 confidence config =
      some candidate) (hscale : 0 ≤ config.minConfidenceSizeScale) :
    0 ≤ candidate.positionSizeUsdt := by
  unfold computeSizing at h
  split at h
  · cases h
  · dsimp only at h
    split at h
    · cases h
    · cases Option.some.inj h
      exact mul_nonneg (le_max_right _ _) (confidenceScale_nonneg confidence hscale)

end TradeMind.Model
