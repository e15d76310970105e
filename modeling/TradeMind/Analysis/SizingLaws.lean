import Mathlib.Algebra.Order.Field.Basic
import TradeMind.Model.Sizing

/-!
# The laws of position sizing

`compute_sizing` in closed form, its bounds, and its monotonicity: a size grows with equity,
free balance and confidence and shrinks with the volatility, while the stop distance grows
with it (`sizing_monotone`).
-/

set_option autoImplicit false

namespace TradeMind.Analysis

open TradeMind.Model

/-- Limits the sizing arithmetic is meant for. -/
structure SoundLimits (config : RiskConfig) : Prop where
  risk_nonneg : 0 ≤ config.riskPerTradePct
  maxPosition_nonneg : 0 ≤ config.maxPositionPct
  minStop_pos : 0 < config.minStopLossPct
  minStop_le_maxStop : config.minStopLossPct ≤ config.maxStopLossPct
  multiplier_nonneg : 0 ≤ config.atrStopMultiplier
  scale_nonneg : 0 ≤ config.minConfidenceSizeScale
  scale_le_one : config.minConfidenceSizeScale ≤ 1

/-! ## The clamp -/

/-- A clamped value is at least the lower limit. -/
theorem le_clamp (value low high : ℚ) : low ≤ clamp value low high := le_max_left _ _

/-- A clamped value is at most the upper limit, where the limits are in order. -/
theorem clamp_le (value : ℚ) {low high : ℚ} (h : low ≤ high) : clamp value low high ≤ high :=
  max_le h (min_le_right _ _)

theorem clamp_mono {value value' : ℚ} (low high : ℚ) (h : value ≤ value') :
    clamp value low high ≤ clamp value' low high :=
  max_le_max le_rfl (min_le_min_right high h)

/-! ## The confidence scale -/

variable {config : RiskConfig} {confidence confidence' : ℚ}

theorem confidenceScale_le_one (h : config.minConfidenceSizeScale ≤ 1) :
    confidenceScale confidence config ≤ 1 := by
  unfold confidenceScale
  dsimp only
  split
  · exact le_rfl
  · have hratio := clamp_le ((confidence - config.minConfidence) / (1 - config.minConfidence))
      (zero_le_one' ℚ)
    have hpart := mul_le_mul_of_nonneg_left hratio (sub_nonneg.mpr h)
    linarith

theorem confidenceScale_mono (h : config.minConfidenceSizeScale ≤ 1)
    (hle : confidence ≤ confidence') :
    confidenceScale confidence config ≤ confidenceScale confidence' config := by
  unfold confidenceScale
  dsimp only
  split
  · exact le_rfl
  · rename_i hrange
    have hratio : (confidence - config.minConfidence) / (1 - config.minConfidence) ≤
        (confidence' - config.minConfidence) / (1 - config.minConfidence) :=
      div_le_div_of_nonneg_right (sub_le_sub_right hle _) (not_le.mp hrange).le
    have hpart := mul_le_mul_of_nonneg_left (clamp_mono 0 1 hratio) (sub_nonneg.mpr h)
    linarith

theorem confidenceScale_of_one_le (h : 1 ≤ confidence) :
    confidenceScale confidence config = 1 := by
  unfold confidenceScale
  dsimp only
  split
  · rfl
  · rename_i hrange
    have hratio : 1 ≤ (confidence - config.minConfidence) / (1 - config.minConfidence) :=
      (one_le_div (not_le.mp hrange)).mpr (sub_le_sub_right h _)
    rw [clamp, min_eq_right hratio, max_eq_right (zero_le_one' ℚ)]
    linarith

/-! ## The size -/

/-- The stop distance of an entry. -/
def stopDistance (config : RiskConfig) (price atr : ℚ) : ℚ :=
  clamp (atr / price * config.atrStopMultiplier) config.minStopLossPct config.maxStopLossPct

/-- The size of an entry before the confidence scales it. -/
def fullSize (config : RiskConfig) (equity free distance : ℚ) : ℚ :=
  max (min (min (equity * config.riskPerTradePct / distance) (equity * config.maxPositionPct))
    free) 0

variable {equity equity' free free' price atr atr' distance distance' : ℚ}

/-- **The sizing in closed form.** -/
theorem computeSizing_eq (hprice : 0 < price) (hdistance : stopDistance config price atr ≠ 0) :
    computeSizing equity free price atr confidence config = some
      { positionSizeUsdt := fullSize config equity free (stopDistance config price atr) *
          confidenceScale confidence config
        positionSizeBase := fullSize config equity free (stopDistance config price atr) *
          confidenceScale confidence config / price
        stopLossPrice := price * (1 - stopDistance config price atr)
        stopDistancePct := stopDistance config price atr
        riskPctApplied := config.riskPerTradePct
        nominalRiskAmountUsdt := equity * config.riskPerTradePct
        actualRiskUsdt := fullSize config equity free (stopDistance config price atr) *
          confidenceScale confidence config * stopDistance config price atr } := by
  unfold stopDistance at hdistance
  unfold computeSizing
  rw [if_neg hprice.ne']
  dsimp only
  rw [if_neg hdistance, if_pos hprice]
  rfl

/-- A positive lower limit keeps the stop distance positive. -/
theorem stopDistance_pos (h : 0 < config.minStopLossPct) : 0 < stopDistance config price atr :=
  h.trans_le (le_clamp _ _ _)

theorem stopDistance_mono (hprice : 0 < price) (hmultiplier : 0 ≤ config.atrStopMultiplier)
    (h : atr ≤ atr') : stopDistance config price atr ≤ stopDistance config price atr' := by
  have hratio : atr / price ≤ atr' / price := div_le_div_of_nonneg_right h hprice.le
  exact clamp_mono _ _ (mul_le_mul_of_nonneg_right hratio hmultiplier)

theorem fullSize_nonneg : 0 ≤ fullSize config equity free distance := le_max_right _ _

/-- The full size grows with equity and free balance and shrinks with the stop distance. -/
theorem fullSize_mono (hlimits : SoundLimits config) (hequity : 0 ≤ equity)
    (hle : equity ≤ equity') (hfree : free ≤ free') (hdistance : 0 < distance)
    (hcloser : distance ≤ distance') :
    fullSize config equity free distance' ≤ fullSize config equity' free' distance := by
  have hrisk : equity * config.riskPerTradePct ≤ equity' * config.riskPerTradePct :=
    mul_le_mul_of_nonneg_right hle hlimits.risk_nonneg
  have hraw : equity * config.riskPerTradePct / distance' ≤
      equity' * config.riskPerTradePct / distance := by
    have hnonneg : 0 ≤ equity * config.riskPerTradePct :=
      mul_nonneg hequity hlimits.risk_nonneg
    calc equity * config.riskPerTradePct / distance'
        ≤ equity * config.riskPerTradePct / distance :=
          div_le_div_of_nonneg_left hnonneg hdistance hcloser
      _ ≤ equity' * config.riskPerTradePct / distance :=
          div_le_div_of_nonneg_right hrisk hdistance.le
  have hcap : equity * config.maxPositionPct ≤ equity' * config.maxPositionPct :=
    mul_le_mul_of_nonneg_right hle hlimits.maxPosition_nonneg
  exact max_le_max (min_le_min (min_le_min hraw hcap) hfree) le_rfl

/-- The full size risks at most the budget. -/
theorem fullSize_mul_distance_le (hlimits : SoundLimits config) (hequity : 0 ≤ equity)
    (hdistance : 0 < distance) :
    fullSize config equity free distance * distance ≤ equity * config.riskPerTradePct := by
  have hraw : 0 ≤ equity * config.riskPerTradePct / distance :=
    div_nonneg (mul_nonneg hequity hlimits.risk_nonneg) hdistance.le
  have hsize : fullSize config equity free distance ≤
      equity * config.riskPerTradePct / distance :=
    max_le ((min_le_left _ _).trans (min_le_left _ _)) hraw
  exact (le_div_iff₀ hdistance).mp hsize

/-- **Sizing is monotone.**  More equity, free balance or confidence never gives a smaller
size and more volatility never a larger one or a closer stop; the risk taken is at most the
scaled budget, and full confidence gives the plain minimum. -/
theorem sizing_monotone (config : RiskConfig) (hlimits : SoundLimits config) (price : ℚ)
    (hprice : 0 < price) :
    (∀ equity equity' free free' atr atr' confidence confidence' : ℚ, 0 ≤ equity →
      equity ≤ equity' → free ≤ free' → atr' ≤ atr → confidence ≤ confidence' →
      ∃ sized sized',
        computeSizing equity free price atr confidence config = some sized ∧
        computeSizing equity' free' price atr' confidence' config = some sized' ∧
        sized.positionSizeUsdt ≤ sized'.positionSizeUsdt ∧
        sized'.stopDistancePct ≤ sized.stopDistancePct) ∧
    ∀ equity free atr confidence : ℚ, 0 ≤ equity →
      ∃ sized, computeSizing equity free price atr confidence config = some sized ∧
        sized.actualRiskUsdt ≤
          sized.nominalRiskAmountUsdt * confidenceScale confidence config ∧
        (1 ≤ confidence → sized.positionSizeUsdt =
          max 0 (min (min (equity * config.riskPerTradePct / sized.stopDistancePct)
            (equity * config.maxPositionPct)) free)) := by
  have hdistance : ∀ atr, 0 < stopDistance config price atr := fun atr =>
    stopDistance_pos hlimits.minStop_pos
  constructor
  · intro equity equity' free free' atr atr' confidence confidence' hequity hle hfree hatr hconf
    refine ⟨_, _, computeSizing_eq hprice (hdistance atr).ne',
      computeSizing_eq hprice (hdistance atr').ne', ?_, ?_⟩
    · have hcloser := stopDistance_mono hprice hlimits.multiplier_nonneg hatr
      exact mul_le_mul (fullSize_mono hlimits hequity hle hfree (hdistance atr') hcloser)
        (confidenceScale_mono hlimits.scale_le_one hconf)
        (confidenceScale_nonneg confidence hlimits.scale_nonneg) fullSize_nonneg
    · exact stopDistance_mono hprice hlimits.multiplier_nonneg hatr
  · intro equity free atr confidence hequity
    refine ⟨_, computeSizing_eq hprice (hdistance atr).ne', ?_, fun hfull => ?_⟩
    · dsimp only
      rw [mul_right_comm]
      exact mul_le_mul_of_nonneg_right
        (fullSize_mul_distance_le hlimits hequity (hdistance atr))
        (confidenceScale_nonneg confidence hlimits.scale_nonneg)
    · dsimp only
      rw [confidenceScale_of_one_le hfull, mul_one, fullSize, max_comm]

theorem soundLimits_default : SoundLimits {} := by
  constructor <;> norm_num

/-- The shipped limits at a price of 60000. -/
theorem sizing_monotone_default :
    (∀ equity equity' free free' atr atr' confidence confidence' : ℚ, 0 ≤ equity →
      equity ≤ equity' → free ≤ free' → atr' ≤ atr → confidence ≤ confidence' →
      ∃ sized sized',
        computeSizing equity free 60000 atr confidence {} = some sized ∧
        computeSizing equity' free' 60000 atr' confidence' {} = some sized' ∧
        sized.positionSizeUsdt ≤ sized'.positionSizeUsdt ∧
        sized'.stopDistancePct ≤ sized.stopDistancePct) ∧
    ∀ equity free atr confidence : ℚ, 0 ≤ equity →
      ∃ sized, computeSizing equity free 60000 atr confidence {} = some sized ∧
        sized.actualRiskUsdt ≤
          sized.nominalRiskAmountUsdt * confidenceScale confidence {} ∧
        (1 ≤ confidence → sized.positionSizeUsdt =
          max 0 (min (min (equity * ({} : RiskConfig).riskPerTradePct / sized.stopDistancePct)
            (equity * ({} : RiskConfig).maxPositionPct)) free)) :=
  sizing_monotone {} soundLimits_default 60000 (by norm_num)

end TradeMind.Analysis
