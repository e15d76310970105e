import TradeMind.Analysis.ConfigUpdates
import TradeMind.Analysis.EntryApproval
import TradeMind.Analysis.StopAgreement

/-!
# The stop tag of an entry

The risk engine clamps a stop distance between two limits that `PATCH /config` may change; the
strategy takes a tagged distance only up to its static stop.  A tag round-trips exactly where
the limits keep the distance positive and within that stop
(`stop_tag_round_trips_iff`).
-/

set_option autoImplicit false

namespace TradeMind.Analysis

open TradeMind.Library TradeMind.Model

/-- The tag of the decision is read back as its stop distance, and every trade opened with it
has its stop that far below the open rate until the trailing starts, whatever the current
rate. -/
def TagRoundTrips (float : String → Option ℚ) (signal : Signal) (result : RiskDecisionResult) :
    Prop :=
  ∃ d, result.stopDistancePct = some d ∧ 0 < d ∧
    entryTagOf signal result.stopLossPrice = some (.slpct d) ∧
    ∀ openRate maxRate, 0 < openRate → ¬TrailingActive openRate maxRate →
      let trade : Strategy.Trade :=
        { enterTag := entryTagOf signal result.stopLossPrice, openRate, maxRate }
      Strategy.stopRate float trade = some (openRate * (1 - d)) ∧
        ∀ stoplossFromAbsolute currentRate,
          Strategy.customStoploss stoplossFromAbsolute float trade currentRate =
            stoplossFromAbsolute (openRate * (1 - d)) currentRate

/-- The limits keep the stop distance of the signal positive and within the static stop. -/
def DistanceWithinStatic (config : RiskConfig) (signal : Signal) : Prop :=
  let multiple := signal.atr14 / signal.price * config.atrStopMultiplier
  (0 < config.minStopLossPct ∨ 0 < multiple ∧ 0 < config.maxStopLossPct) ∧
    config.minStopLossPct ≤ 8 / 100 ∧ (multiple ≤ 8 / 100 ∨ config.maxStopLossPct ≤ 8 / 100)

/-- A clamped value is positive where the lower limit is, or the value and the upper limit. -/
theorem clamp_pos_iff {value low high : ℚ} :
    0 < clamp value low high ↔ 0 < low ∨ 0 < value ∧ 0 < high := by
  rw [clamp, lt_max_iff, lt_min_iff]

/-- A clamped value is within a bound where the lower limit is, and the value or the upper
limit. -/
theorem clamp_le_iff {value low high bound : ℚ} :
    clamp value low high ≤ bound ↔ low ≤ bound ∧ (value ≤ bound ∨ high ≤ bound) := by
  rw [clamp, max_le_iff, min_le_iff]

/-- The strategy derives no stop from a distance outside its bound. -/
theorem stopRate_slpct_none (float : String → Option ℚ) {openRate maxRate d : ℚ}
    (h : ¬(0 < d ∧ d ≤ 8 / 100)) :
    Strategy.stopRate float { enterTag := some (.slpct d), openRate, maxRate } = none := by
  have hbound : |Strategy.stoploss| = 8 / 100 := by
    rw [Strategy.stoploss, abs_of_neg (by norm_num)]
    norm_num
  simp only [Strategy.stopRate, Strategy.taggedStopRate, hbound, if_neg h, Option.map_none]

/-- **What an approved entry's tag carries**: the distance the stop was priced with. -/
theorem approved_tag {signal : Signal} {input : EntryInput} {result : RiskDecisionResult}
    (hsignal : input.signal = signal.view) (hrun : input.run = some result)
    (happroved : result.approved = true) (hprice : 0 < signal.price) :
    result.stopDistancePct = some (stopDistance input.config signal.price signal.atr14) ∧
      entryTagOf signal result.stopLossPrice =
        some (.slpct (stopDistance input.config signal.price signal.atr14)) := by
  obtain ⟨sized, hsized, -, rfl⟩ := EntryInput.run_admitted hrun happroved
  obtain ⟨hstop, hdistance⟩ := computeSizing_stop hsized
  have hd : sized.stopDistancePct = stopDistance input.config signal.price signal.atr14 := by
    rw [hdistance, hsignal]
    rfl
  refine ⟨congrArg some hd, ?_⟩
  have hprice' : input.signal.price = signal.price := by rw [hsignal]; rfl
  change entryTagOf signal (some sized.stopLossPrice) = _
  rw [hstop, hd, hprice', entryTagOf_stop hprice]

/-- **When a tag round-trips.** -/
theorem tagRoundTrips_iff (float : String → Option ℚ) {signal : Signal} {input : EntryInput}
    {result : RiskDecisionResult} (hsignal : input.signal = signal.view)
    (hrun : input.run = some result) (happroved : result.approved = true)
    (hprice : 0 < signal.price) :
    TagRoundTrips float signal result ↔ DistanceWithinStatic input.config signal := by
  obtain ⟨hdistance, htag⟩ := approved_tag hsignal hrun happroved hprice
  have hwithin : 0 < stopDistance input.config signal.price signal.atr14 ∧
      stopDistance input.config signal.price signal.atr14 ≤ 8 / 100 ↔
        DistanceWithinStatic input.config signal := by
    rw [stopDistance, clamp_pos_iff, clamp_le_iff]
    rfl
  rw [← hwithin]
  constructor
  · rintro ⟨d, -, -, -, hrates⟩
    by_contra hout
    obtain ⟨hrate, -⟩ :=
      hrates 1 1 one_pos (by norm_num [TrailingActive, Backtest.trailingActivationPct])
    rw [htag, stopRate_slpct_none float hout] at hrate
    cases hrate
  · rintro ⟨hpos, hle⟩
    refine ⟨_, hdistance, hpos, htag, fun openRate maxRate _ htrailing => ?_⟩
    have hrate := @stopRate_slpct float openRate maxRate _ hpos hle
    rw [if_neg htrailing] at hrate
    rw [htag]
    exact ⟨hrate, fun stoplossFromAbsolute currentRate => by rw [Strategy.customStoploss, hrate]⟩

/-! ## Patched limits -/

/-- The row after a patch; one that is refused leaves it. -/
def patchRow (row : Option RiskConfigState) (patch : RiskConfigPatch) : Option RiskConfigState :=
  (patchConfig {} patch row).or row

/-- The configuration in effect after some patches of the defaults. -/
def patchedConfig (patches : List RiskConfigPatch) : RiskConfig :=
  effectiveConfig {} (patches.foldl patchRow none)

/-- A patch leaves both limits within the static stop, and the lower one positive. -/
structure KeepsStops (changes : Overrides) : Prop where
  minStop : ∀ v, changes .minStopLossPct = some v →
    0 < Decimal.value v ∧ Decimal.value v ≤ 8 / 100
  maxStop : ∀ v, changes .maxStopLossPct = some v → Decimal.value v ≤ 8 / 100

theorem KeepsStops.merge {overrides changes : Overrides} (h : KeepsStops overrides)
    (hchanges : KeepsStops changes) : KeepsStops (overrides.merge changes) where
  minStop := by
    intro v hv
    unfold Overrides.merge at hv
    rcases Option.or_eq_some_iff.mp hv with hnew | ⟨-, hold⟩
    · exact hchanges.minStop v hnew
    · exact h.minStop v hold
  maxStop := by
    intro v hv
    unfold Overrides.merge at hv
    rcases Option.or_eq_some_iff.mp hv with hnew | ⟨-, hold⟩
    · exact hchanges.maxStop v hnew
    · exact h.maxStop v hold

theorem keepsStops_patchRow {row : Option RiskConfigState} {patch : RiskConfigPatch}
    (h : KeepsStops (overridesOf row)) (hpatch : KeepsStops patch.changes) :
    KeepsStops (overridesOf (patchRow row patch)) := by
  unfold patchRow
  cases hwanted : patchConfig {} patch row with
  | none => rwa [Option.none_or]
  | some wanted =>
    obtain ⟨rfl, -, -⟩ := patchConfig_some hwanted
    exact h.merge hpatch

/-- Any patches that keep the stops one by one keep them together. -/
theorem keepsStops_patches {patches : List RiskConfigPatch} {row : Option RiskConfigState}
    (h : KeepsStops (overridesOf row))
    (hpatches : ∀ patch ∈ patches, KeepsStops patch.changes) :
    KeepsStops (overridesOf (patches.foldl patchRow row)) := by
  induction patches generalizing row with
  | nil => exact h
  | cons patch patches ih =>
    rw [List.foldl_cons]
    exact ih (keepsStops_patchRow h (hpatches patch List.mem_cons_self))
      fun later hlater => hpatches later (List.mem_cons_of_mem patch hlater)

/-- The limits that such patches leave in effect. -/
theorem patchedConfig_stops {patches : List RiskConfigPatch}
    (hpatches : ∀ patch ∈ patches, KeepsStops patch.changes) :
    0 < (patchedConfig patches).minStopLossPct ∧
      (patchedConfig patches).minStopLossPct ≤ 8 / 100 ∧
      (patchedConfig patches).maxStopLossPct ≤ 8 / 100 := by
  have hkeeps : KeepsStops (overridesOf (patches.foldl patchRow none)) :=
    keepsStops_patches ⟨nofun, nofun⟩ hpatches
  unfold patchedConfig effectiveConfig RiskConfig.overlay
  generalize overridesOf (patches.foldl patchRow none) = overrides at hkeeps ⊢
  have hmin : 0 < ((overrides .minStopLossPct).map Decimal.value).getD (15 / 1000) ∧
      ((overrides .minStopLossPct).map Decimal.value).getD (15 / 1000) ≤ 8 / 100 := by
    cases hv : overrides .minStopLossPct with
    | none => norm_num
    | some v => exact hkeeps.minStop v hv
  have hmax : ((overrides .maxStopLossPct).map Decimal.value).getD (8 / 100) ≤ 8 / 100 := by
    cases hv : overrides .maxStopLossPct with
    | none => exact le_rfl
    | some v => exact hkeeps.maxStop v hv
  exact ⟨hmin.1, hmin.2, hmax⟩

/-- **When the stop tag round-trips.**  An approved entry's tag does exactly where the limits
in effect keep its distance positive and within the static stop; so it always does under
patches that each leave both limits there. -/
theorem stop_tag_round_trips_iff (float : String → Option ℚ) :
    (∀ (signal : Signal) (input : EntryInput) (result : RiskDecisionResult),
      input.signal = signal.view → input.run = some result → result.approved = true →
      0 < signal.price →
      (TagRoundTrips float signal result ↔ DistanceWithinStatic input.config signal)) ∧
    ∀ patches : List RiskConfigPatch, (∀ patch ∈ patches, KeepsStops patch.changes) →
      ∀ (signal : Signal) (input : EntryInput) (result : RiskDecisionResult),
        input.config = patchedConfig patches → input.signal = signal.view →
        input.run = some result → result.approved = true → 0 < signal.price →
        TagRoundTrips float signal result := by
  constructor
  · intro signal input result hsignal hrun happroved hprice
    exact tagRoundTrips_iff float hsignal hrun happroved hprice
  · intro patches hpatches signal input result hconfig hsignal hrun happroved hprice
    obtain ⟨hpos, hmin, hmax⟩ := patchedConfig_stops hpatches
    rw [tagRoundTrips_iff float hsignal hrun happroved hprice, hconfig]
    exact ⟨.inl hpos, hmin, .inr hmax⟩

/-- An evaluation of `signal` in a flat account of 10000, under the given configuration. -/
def entryUnder (config : RiskConfig) (signal : Signal) : EntryInput :=
  { flatInput 10000 with signal := signal.view, config }

/-- A `BUY` at 100 with a stop distance of ten percent, where the limits allow it. -/
def wideSignal : Signal := { gapSignal with atr14 := 5 }

/-- A patch of `max_stop_loss_pct` to ten percent. -/
def widerStopPatch : RiskConfigPatch where
  changes := fun f =>
    match f with
    | .maxStopLossPct => some { coefficient := 10, exponent := -2 }
    | _ => none
  sampleSize_pos := nofun

/-- Under the shipped limits the tag of an entry round-trips. -/
theorem stop_tag_round_trips_default :
    ∃ result, (entryUnder {} gapSignal).run = some result ∧
      (TagRoundTrips (fun _ => none) gapSignal result ↔ DistanceWithinStatic {} gapSignal) ∧
      TagRoundTrips (fun _ => none) gapSignal result := by
  have happroved : (entryUnder {} gapSignal).run.map RiskDecisionResult.approved =
      some true := by
    decide +kernel
  obtain ⟨result, hrun, hresult⟩ := Option.map_eq_some_iff.mp happroved
  exact ⟨result, hrun,
    (stop_tag_round_trips_iff fun _ => none).1 gapSignal _ result rfl hrun hresult
      (by decide +kernel),
    (stop_tag_round_trips_iff fun _ => none).2 [] (fun _ h => absurd h List.not_mem_nil) gapSignal
      _ result rfl rfl hrun hresult (by decide +kernel)⟩

/-- With `max_stop_loss_pct` patched to ten percent, an approved entry carries a tag of ten
percent, and the strategy falls back to its static stop. -/
theorem stop_tag_falls_back :
    (entryUnder (patchedConfig [widerStopPatch]) wideSignal).run.map (fun result =>
      (result.approved, entryTagOf wideSignal result.stopLossPrice,
        Strategy.customStoploss (fun stopRate _ => stopRate) (fun _ => none)
          { enterTag := entryTagOf wideSignal result.stopLossPrice
            openRate := 100
            maxRate := 100 } 100)) =
      some (true, some (.slpct (1 / 10)), Strategy.stoploss) := by
  decide +kernel

end TradeMind.Analysis
