import TradeMind.Analysis.EntryVerdict
import TradeMind.Analysis.SizingLaws

/-!
# What an entry approval guarantees

An approval keeps every rule and every bound of the sizing, and a rejection reports the
first failing rule (`evaluate_sound`); an approved size is positive except where nothing is
free (`approved_size_pos_iff`).
-/

set_option autoImplicit false

namespace TradeMind.Analysis

open TradeMind.Model

/-! ## Soundness -/

/-- The inputs the contract of an evaluation is about. -/
structure SoundInput (input : EntryInput) : Prop where
  price_pos : 0 < input.signal.price
  atr_nonneg : 0 ≤ input.signal.atr14
  equity_nonneg : 0 ≤ input.account.equityUsdt
  free_nonneg : 0 ≤ input.account.freeBalanceUsdt
  exposure_nonneg : 0 ≤ input.account.totalExposureUsdt
  limits : SoundLimits input.config
  maxStop_lt_one : input.config.maxStopLossPct < 1

/-- The fields of a result that carry a sizing, in the order of `sizingValues`. -/
def sizingFields (result : RiskDecisionResult) : List (Option ℚ) :=
  [result.positionSizeUsdt, result.positionSizeBase, result.stopLossPrice,
    result.stopDistancePct, result.riskPctApplied, result.nominalRiskAmountUsdt,
    result.actualRiskUsdt]

/-- The values of a sizing, in the order of `sizingFields`. -/
def sizingValues (sized : SizingResult) : List ℚ :=
  [sized.positionSizeUsdt, sized.positionSizeBase, sized.stopLossPrice, sized.stopDistancePct,
    sized.riskPctApplied, sized.nominalRiskAmountUsdt, sized.actualRiskUsdt]

/-- What an approval with the given sizing guarantees. -/
structure SoundApproval (input : EntryInput) (result : RiskDecisionResult)
    (sized : SizingResult) : Prop where
  killswitchOff : input.killswitchEnabled = false
  notDuplicate : input.isDuplicateDecision = false
  notHold : input.signal.action ≠ .HOLD
  fresh : input.now - input.signal.candleTs ≤ minutes input.config.signalMaxAgeMinutes
  confident : input.config.minConfidence ≤ input.signal.confidence
  symbolClosed : input.signal.symbol ∉ input.account.openPositionSymbols
  belowLimit : (input.account.openPositionSymbols.card : ℤ) < input.config.maxOpenPositions
  sizing : sizingFields result = (sizingValues sized).map some
  size_le_free : sized.positionSizeUsdt ≤ input.account.freeBalanceUsdt
  size_le_cap : sized.positionSizeUsdt ≤ input.account.equityUsdt * input.config.maxPositionPct
  exposure_le_cap : input.account.totalExposureUsdt + sized.positionSizeUsdt ≤
    input.config.maxTotalExposurePct * input.account.equityUsdt
  risk_eq : sized.positionSizeUsdt * sized.stopDistancePct = sized.actualRiskUsdt
  risk_le_nominal : sized.actualRiskUsdt ≤ sized.nominalRiskAmountUsdt
  minStop_le : input.config.minStopLossPct ≤ sized.stopDistancePct
  le_maxStop : sized.stopDistancePct ≤ input.config.maxStopLossPct
  stop_pos : 0 < sized.stopLossPrice
  stop_lt_price : sized.stopLossPrice < input.signal.price

/-- What a rejection guarantees: it carries no sizing, its reason is that of the first rule that
fails, and it trips the kill switch only for a daily loss or a losing streak. -/
structure SoundRejection (input : EntryInput) (result : RiskDecisionResult) : Prop where
  noSizing : ∀ field ∈ sizingFields result, field = none
  firstFailing : ∃ candidate violation, input.sizing = some candidate ∧
    FirstViolation (input.context candidate) violation ∧
    result.rejectionReason = some violation.reason ∧
    result.autoTripKillswitch = violation.autoTripKillswitch
  tripsOnly : result.autoTripKillswitch = true →
    result.rejectionReason = some .DAILY_LOSS_LIMIT_HIT ∨
      result.rejectionReason = some .CONSECUTIVE_LOSS_PAUSE

variable {input : EntryInput}

/-- The stop distance of the input's entry. -/
def EntryInput.distance (input : EntryInput) : ℚ :=
  stopDistance input.config input.signal.price input.signal.atr14

/-- The size of the input's entry. -/
def EntryInput.size (input : EntryInput) : ℚ :=
  fullSize input.config input.account.equityUsdt input.account.freeBalanceUsdt input.distance *
    confidenceScale input.signal.confidence input.config

theorem EntryInput.sizing_eq (hprice : 0 < input.signal.price)
    (hminStop : 0 < input.config.minStopLossPct) :
    input.sizing = some
      { positionSizeUsdt := input.size
        positionSizeBase := input.size / input.signal.price
        stopLossPrice := input.signal.price * (1 - input.distance)
        stopDistancePct := input.distance
        riskPctApplied := input.config.riskPerTradePct
        nominalRiskAmountUsdt := input.account.equityUsdt * input.config.riskPerTradePct
        actualRiskUsdt := input.size * input.distance } :=
  computeSizing_eq hprice (stopDistance_pos hminStop).ne'

/-- A scale between zero and one only lowers the size. -/
theorem EntryInput.size_le (h : SoundLimits input.config) :
    input.size ≤ fullSize input.config input.account.equityUsdt
      input.account.freeBalanceUsdt input.distance :=
  mul_le_of_le_one_right fullSize_nonneg (confidenceScale_le_one h.scale_le_one)

/-- What the sizing of an admitted entry guarantees. -/
theorem soundApproval (h : SoundInput input) {sized : SizingResult}
    (hsized : input.sizing = some sized) (hadmits : Admits (input.context sized)) :
    SoundApproval input (approvedWith (input.context sized)) sized := by
  have hlimits := h.limits
  have hdistance : 0 < input.distance := stopDistance_pos hlimits.minStop_pos
  have hmaxStop : input.distance ≤ input.config.maxStopLossPct :=
    clamp_le _ hlimits.minStop_le_maxStop
  have hlt : input.distance < 1 := hmaxStop.trans_lt h.maxStop_lt_one
  have hcap : input.size ≤ input.account.equityUsdt * input.config.maxPositionPct := by
    have hnonneg := mul_nonneg h.equity_nonneg hlimits.maxPosition_nonneg
    exact (EntryInput.size_le hlimits).trans
      (max_le ((min_le_left _ _).trans (min_le_right _ _)) hnonneg)
  have hrisk : input.size * input.distance ≤
      input.account.equityUsdt * input.config.riskPerTradePct :=
    (mul_le_mul_of_nonneg_right (EntryInput.size_le hlimits) hdistance.le).trans
      (fullSize_mul_distance_le hlimits h.equity_nonneg hdistance)
  cases Option.some.inj
    ((EntryInput.sizing_eq h.price_pos hlimits.minStop_pos).symm.trans hsized)
  exact
    { killswitchOff := hadmits.killswitchOff
      notDuplicate := hadmits.notDuplicate
      notHold := hadmits.notHold
      fresh := hadmits.fresh
      confident := hadmits.confident
      symbolClosed := hadmits.symbolClosed
      belowLimit := hadmits.belowLimit
      sizing := rfl
      size_le_free := hadmits.funded
      size_le_cap := hcap
      exposure_le_cap := hadmits.exposureCapped
      risk_eq := rfl
      risk_le_nominal := hrisk
      minStop_le := le_clamp _ _ _
      le_maxStop := hmaxStop
      stop_pos := mul_pos h.price_pos (sub_pos.mpr hlt)
      stop_lt_price := mul_lt_of_lt_one_right h.price_pos (sub_lt_self 1 hdistance) }

/-- What the first violation makes of an evaluation. -/
theorem soundRejection {candidate : SizingResult} {violation : RuleViolation}
    (hsized : input.sizing = some candidate)
    (hfirst : FirstViolation (input.context candidate) violation) :
    SoundRejection input (rejectedBy (input.context candidate) violation) where
  noSizing := by
    intro field hfield
    simpa [sizingFields, rejectedBy] using hfield
  firstFailing := ⟨candidate, violation, hsized, hfirst, rfl, rfl⟩
  tripsOnly := by
    intro htrip
    obtain ⟨rule, hmem, hrule⟩ := FirstStop.rule hfirst
    exact (reason_of_autoTrip hmem hrule htrip).imp (congrArg some) (congrArg some)

/-- **Approval is sound.**  An evaluation within its limits ends wherever the two numbers of
minutes in the config are in the range of `timedelta`; an approval keeps every rule and every
bound of the sizing, and a rejection sizes nothing and reports the first failing rule. -/
theorem evaluate_sound (input : EntryInput) (h : SoundInput input) :
    (timedeltaMinutes input.config.signalMaxAgeMinutes ≠ none →
      timedeltaMinutes input.config.cooldownMinutes ≠ none → ∃ result, input.run = some result) ∧
      ∀ result, input.run = some result →
        (result.approved = true →
          ∃ sized, input.sizing = some sized ∧ SoundApproval input result sized) ∧
        (result.approved = false → SoundRejection input result) := by
  obtain ⟨sized, hsized⟩ : ∃ sized, input.sizing = some sized :=
    ⟨_, EntryInput.sizing_eq h.price_pos h.limits.minStop_pos⟩
  have hrun := EntryInput.run_of_sizing hsized
  constructor
  · intro hmaxAge hcooldown
    rcases verdict_cases (input.context sized) with
      ⟨_, -, hverdict⟩ | ⟨hstop, -⟩ | ⟨-, hverdict⟩
    · exact ⟨_, hrun.trans hverdict⟩
    · obtain ⟨rule, hmem, hoverflow⟩ := hstop.rule
      rcases range_of_overflow hmem hoverflow with hnone | hnone
      · exact absurd hnone hmaxAge
      · exact absurd hnone hcooldown
    · exact ⟨_, hrun.trans hverdict⟩
  · intro result hresult
    rcases verdict_some (hrun.symm.trans hresult) with ⟨violation, hfirst, rfl⟩ | ⟨hrules, rfl⟩
    · exact ⟨nofun, fun _ => soundRejection hsized hfirst⟩
    · refine ⟨fun _ => ⟨sized, hsized, ?_⟩, nofun⟩
      exact soundApproval h hsized (admits_iff.mpr hrules)

/-- A `BUY` at 60000 in a flat account of 10000 with the given free balance. -/
def flatInput (free : ℚ) : EntryInput :=
  { signal :=
      { id := 1, symbol := "BTC/USDT", action := .BUY, confidence := 9 / 10, candleTs := 0,
        price := 60000, atr14 := 500 }
    account :=
      { equityUsdt := 10000, freeBalanceUsdt := free, openPositionSymbols := ∅,
        totalExposureUsdt := 0, dailyPnlPct := 0, consecutiveLosses := 0,
        lastLossClosedAt := none, symbolLastClosedAt := fun _ => none }
    config := {}
    now := 0
    killswitchEnabled := false
    isDuplicateDecision := false
    expectancy := { setupKey := "", sampleSize := 0, expectancyR := none } }

/-- The flat account with 10000 free. -/
theorem evaluate_sound_flat :
    (∃ result, (flatInput 10000).run = some result) ∧
      ∀ result, (flatInput 10000).run = some result →
        (result.approved = true → ∃ sized, (flatInput 10000).sizing = some sized ∧
          SoundApproval (flatInput 10000) result sized) ∧
        (result.approved = false → SoundRejection (flatInput 10000) result) := by
  have hsound := evaluate_sound (flatInput 10000)
    { price_pos := by decide +kernel
      atr_nonneg := by decide +kernel
      equity_nonneg := by decide +kernel
      free_nonneg := by decide +kernel
      exposure_nonneg := by decide +kernel
      limits := soundLimits_default
      maxStop_lt_one := by decide +kernel }
  exact ⟨hsound.1 (by decide) (by decide), hsound.2⟩

/-! ## Positive sizes -/

/-- A positive price, an account without debts, and a config whose percentages and stop bounds are
positive. -/
structure PositiveInput (input : EntryInput) : Prop where
  price_pos : 0 < input.signal.price
  equity_nonneg : 0 ≤ input.account.equityUsdt
  free_nonneg : 0 ≤ input.account.freeBalanceUsdt
  risk_pos : 0 < input.config.riskPerTradePct
  maxPosition_pos : 0 < input.config.maxPositionPct
  minStop_pos : 0 < input.config.minStopLossPct
  maxStop_pos : 0 < input.config.maxStopLossPct
  scale_pos : 0 < input.config.minConfidenceSizeScale

/-- A candidate of size zero. -/
def emptyCandidate : SizingResult :=
  { positionSizeUsdt := 0, positionSizeBase := 0, stopLossPrice := 0, stopDistancePct := 0,
    riskPctApplied := 0, nominalRiskAmountUsdt := 0, actualRiskUsdt := 0 }

/-- The scale of a positive floor is positive. -/
theorem confidenceScale_pos (confidence : ℚ) {config : RiskConfig}
    (h : 0 < config.minConfidenceSizeScale) : 0 < confidenceScale confidence config := by
  unfold confidenceScale
  dsimp only
  split
  · exact zero_lt_one
  · have hlow := le_clamp ((confidence - config.minConfidence) / (1 - config.minConfidence)) 0 1
    have hhigh := clamp_le ((confidence - config.minConfidence) / (1 - config.minConfidence))
      (zero_le_one' ℚ)
    rcases hhigh.eq_or_lt with hfull | hpart
    · rw [hfull]
      linarith
    · have hfloor := mul_pos h (sub_pos.mpr hpart)
      linarith

/-- The size is positive exactly where there is equity and something free. -/
theorem EntryInput.size_pos_iff (h : PositiveInput input) :
    0 < input.size ↔ 0 < input.account.equityUsdt ∧ 0 < input.account.freeBalanceUsdt := by
  have hscale := confidenceScale_pos input.signal.confidence h.scale_pos
  have hdistance : 0 < input.distance := stopDistance_pos h.minStop_pos
  unfold EntryInput.size
  rw [mul_pos_iff_of_pos_right hscale, fullSize, lt_max_iff, lt_min_iff, lt_min_iff,
    div_pos_iff_of_pos_right hdistance, mul_pos_iff_of_pos_right h.risk_pos,
    mul_pos_iff_of_pos_right h.maxPosition_pos]
  simp

/-- The rules read nothing of the candidate but its size. -/
theorem Admits.of_size_eq {candidate candidate' : SizingResult}
    (h : Admits (input.context candidate))
    (hsize : candidate.positionSizeUsdt = candidate'.positionSizeUsdt) :
    Admits (input.context candidate') where
  killswitchOff := h.killswitchOff
  notDuplicate := h.notDuplicate
  notHold := h.notHold
  maxAge_inRange := h.maxAge_inRange
  fresh := h.fresh
  confident := h.confident
  expectancyAllowed := h.expectancyAllowed
  symbolClosed := h.symbolClosed
  belowLimit := h.belowLimit
  exposureCapped := hsize ▸ h.exposureCapped
  dailyLossAllowed := h.dailyLossAllowed
  streakAllowed := h.streakAllowed
  cooledDown := h.cooledDown
  funded := hsize ▸ h.funded

/-- **When every approved entry has positive size**: where the account has equity and a free
balance, or where even an entry of size zero violates a rule. -/
theorem approved_size_pos_iff (input : EntryInput) (h : PositiveInput input) :
    (∀ result, input.run = some result → result.approved = true →
        ∃ size, result.positionSizeUsdt = some size ∧ 0 < size) ↔
      (0 < input.account.equityUsdt ∧ 0 < input.account.freeBalanceUsdt) ∨
        ¬Admits (input.context emptyCandidate) := by
  obtain ⟨sized, hsized, hsize⟩ : ∃ sized, input.sizing = some sized ∧
      sized.positionSizeUsdt = input.size :=
    ⟨_, EntryInput.sizing_eq h.price_pos h.minStop_pos, rfl⟩
  have hrun := EntryInput.run_of_sizing hsized
  -- where the size is not positive it is zero
  have hzero : ¬0 < input.size → sized.positionSizeUsdt = emptyCandidate.positionSizeUsdt := by
    intro hnot
    have hnonneg : 0 ≤ input.size :=
      mul_nonneg fullSize_nonneg (confidenceScale_nonneg _ h.scale_pos.le)
    exact hsize.trans (le_antisymm (not_lt.mp hnot) hnonneg)
  constructor
  · intro hall
    by_contra hneither
    obtain ⟨hnothing, hadmits⟩ := not_or.mp hneither
    have hnot : ¬0 < input.size := fun hpos => hnothing ((EntryInput.size_pos_iff h).mp hpos)
    have hadmitted := (not_not.mp hadmits).of_size_eq (hzero hnot).symm
    obtain ⟨size, hsome, hpos⟩ :=
      hall _ (hrun.trans (verdict_eq_approved (admits_iff.mp hadmitted))) rfl
    cases Option.some.inj hsome
    exact hnot (hsize ▸ hpos)
  · intro hcondition result hresult happroved
    rcases verdict_some (hrun.symm.trans hresult) with ⟨violation, -, rfl⟩ | ⟨hrules, rfl⟩
    · cases happroved
    · refine ⟨sized.positionSizeUsdt, rfl, ?_⟩
      rw [hsize]
      by_contra hnot
      rcases hcondition with hfunds | hrejects
      · exact hnot ((EntryInput.size_pos_iff h).mpr hfunds)
      · exact hrejects ((admits_iff.mpr hrules).of_size_eq (hzero hnot))

/-- The flat account with 10000 free. -/
theorem approved_size_pos_flat :
    (∀ result, (flatInput 10000).run = some result → result.approved = true →
        ∃ size, result.positionSizeUsdt = some size ∧ 0 < size) ↔
      (0 < (flatInput 10000).account.equityUsdt ∧
          0 < (flatInput 10000).account.freeBalanceUsdt) ∨
        ¬Admits ((flatInput 10000).context emptyCandidate) :=
  approved_size_pos_iff (flatInput 10000) (by constructor <;> decide +kernel)

/-- With nothing free, the flat account's entry is approved at size zero. -/
theorem approved_size_zero :
    PositiveInput (flatInput 0) ∧
      (flatInput 0).run.map (fun result => (result.approved, result.positionSizeUsdt)) =
        some (true, some 0) :=
  ⟨by constructor <;> decide +kernel, by decide +kernel⟩

end TradeMind.Analysis
