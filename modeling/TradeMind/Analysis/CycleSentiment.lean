import TradeMind.Analysis.SentimentMean
import TradeMind.Model.SentimentProviders

/-!
# The sentiment of a cycle

From sound indicators the cycle builds a snapshot without a gap, unless nothing was traded: then
the average volume is zero and the snapshot is refused.  A snapshot without a gap makes all five
providers contribute.
-/

set_option autoImplicit false

namespace TradeMind.Analysis

open TradeMind.Library TradeMind.Model TradeMind.Model.Scheduler TradeMind.Model.Sentiment

/-- Indicators that a snapshot accepts, whatever was traded: averages of prices are positive, the
RSI is a percentage, and the ATR is not negative. -/
structure SoundIndicators (values : IndicatorValues) : Prop where
  rsi14_nonneg : 0 ≤ values.rsi14
  rsi14_le : values.rsi14 ≤ 100
  ema50_pos : 0 < values.ema50
  ema200_pos : 0 < values.ema200
  atr14_nonneg : 0 ≤ values.atr14

/-! ## A snapshot without a gap -/

/-- A provider contributes, with a confidence in the bounds. -/
def Contributes (snapshot : MarketIndicatorSnapshot) (low high : ℚ)
    (provider : IndicatorProvider ℚ MarketIndicatorSnapshot) : Prop :=
  ∃ contribution, provider.evaluate snapshot = some contribution ∧
    low ≤ contribution.confidence ∧ contribution.confidence ≤ high

/-- A snapshot with a value for every field a provider reads. -/
structure Complete (snapshot : MarketIndicatorSnapshot) : Prop where
  price : snapshot.price.isSome
  rsi14 : snapshot.rsi14.isSome
  ema50 : snapshot.ema50.isSome
  ema200 : snapshot.ema200.isSome
  macd : snapshot.macd.isSome
  atr14 : snapshot.atr14.isSome
  volume : snapshot.volume.isSome
  volumeSma20 : snapshot.volumeSma20.isSome

/-- The confidence of a trend is that of the averages it has. -/
theorem emaReading_confidence (price : ℚ) (available : List (String × ℚ)) :
    (emaReading price available).confidence =
      if available.length = 2 then 95 / 100 else 7 / 10 := by
  unfold emaReading
  dsimp only
  split_ifs <;> rfl

theorem volumeReading_confidence (ratio : ℚ) (change : Option ℚ) :
    4 / 10 ≤ (volumeReading ratio change).confidence ∧
      (volumeReading ratio change).confidence ≤ 9 / 10 := by
  unfold volumeReading
  split
  · norm_num
  · dsimp only
    split_ifs <;> norm_num

section Complete

variable {snapshot : MarketIndicatorSnapshot}

theorem contributes_of_reading {provider : IndicatorProvider ℚ MarketIndicatorSnapshot}
    {reading : Reading} {low high : ℚ} (hbounds : reading.InBounds) {name : String}
    (hname : name ≠ "")
    (heval : provider.evaluate snapshot = some (reading.contribute hbounds name hname))
    (hlow : low ≤ reading.confidence) (hhigh : reading.confidence ≤ high) :
    Contributes snapshot low high provider :=
  ⟨_, heval, hlow, hhigh⟩

variable (h : Complete snapshot)
include h

theorem rsiProvider_contributes : Contributes snapshot (9 / 10) (9 / 10) rsiProvider := by
  obtain ⟨value, hvalue⟩ := Option.isSome_iff_exists.mp h.rsi14
  have heval : rsiProvider.evaluate snapshot = some ((rsiReading value).contribute
      (rsiReading_inBounds (snapshot.rsi14_mem value hvalue)) "rsi" rsi_ne_empty) := by
    simp only [rsiProvider]
    split
    · next hnone => rw [hvalue] at hnone; cases hnone
    · next hsome => rw [hvalue] at hsome; cases hsome; rfl
  exact contributes_of_reading _ _ heval le_rfl le_rfl

theorem emaTrendProvider_contributes :
    Contributes snapshot (95 / 100) (95 / 100) emaTrendProvider := by
  obtain ⟨price, hprice⟩ := Option.isSome_iff_exists.mp h.price
  obtain ⟨ema50, hema50⟩ := Option.isSome_iff_exists.mp h.ema50
  obtain ⟨ema200, hema200⟩ := Option.isSome_iff_exists.mp h.ema200
  have havailable : availableEmas snapshot = [("EMA50", ema50), ("EMA200", ema200)] := by
    simp [availableEmas, hema50, hema200]
  have hconfidence : (emaReading price (availableEmas snapshot)).confidence = 95 / 100 := by
    rw [emaReading_confidence, havailable]
    rfl
  have heval : emaTrendProvider.evaluate snapshot =
      some ((emaReading price (availableEmas snapshot)).contribute (emaReading_inBounds price _)
        "ema_trend" (by decide)) := by
    have hne : availableEmas snapshot ≠ [] := by rw [havailable]; exact List.cons_ne_nil _ _
    simp only [emaTrendProvider, hprice, Option.bind_some, if_neg hne]
  exact contributes_of_reading _ _ heval hconfidence.ge hconfidence.le

theorem macdProvider_contributes :
    Contributes snapshot (55 / 100) (95 / 100) macdProvider := by
  obtain ⟨value, hvalue⟩ := Option.isSome_iff_exists.mp h.macd
  obtain ⟨hlow, hhigh⟩ := macdStrength_mem value
  have hconfidence : (macdReading value).confidence = 55 / 100 + 4 / 10 * macdStrength value := by
    unfold macdReading
    dsimp only
    split_ifs <;> rfl
  have heval : macdProvider.evaluate snapshot = some ((macdReading value).contribute
      (macdReading_inBounds value) "macd" (by decide)) := by
    simp only [macdProvider, hvalue, Option.map_some]
  exact contributes_of_reading _ _ heval (by rw [hconfidence]; linarith)
    (by rw [hconfidence]; linarith)

theorem volatilityProvider_contributes :
    Contributes snapshot (8 / 10) (8 / 10) volatilityProvider := by
  obtain ⟨price, hprice⟩ := Option.isSome_iff_exists.mp h.price
  obtain ⟨atr, hatr⟩ := Option.isSome_iff_exists.mp h.atr14
  have hconfidence : (volatilityReading (atr / price)).confidence = 8 / 10 := by
    unfold volatilityReading
    split_ifs <;> rfl
  have heval : volatilityProvider.evaluate snapshot =
      some ((volatilityReading (atr / price)).contribute (volatilityReading_inBounds _)
        "volatility" (by decide)) := by
    simp only [volatilityProvider, hprice, hatr, Option.bind_some, Option.map_some]
  exact contributes_of_reading _ _ heval hconfidence.ge hconfidence.le

theorem volumeProvider_contributes :
    Contributes snapshot (4 / 10) (9 / 10) volumeProvider := by
  obtain ⟨volume, hvolume⟩ := Option.isSome_iff_exists.mp h.volume
  obtain ⟨average, haverage⟩ := Option.isSome_iff_exists.mp h.volumeSma20
  obtain ⟨hlow, hhigh⟩ := volumeReading_confidence (volume / average) snapshot.priceChangePct
  have heval : volumeProvider.evaluate snapshot =
      some ((volumeReading (volume / average) snapshot.priceChangePct).contribute
        (volumeReading_inBounds _ _) "volume" (by decide)) := by
    simp only [volumeProvider, hvolume, haverage, Option.bind_some, Option.map_some]
  exact contributes_of_reading _ _ heval hlow hhigh

end Complete

/-! ## What the service makes of it -/

theorem foldl_visit_reasons {Snapshot : Type} (service : MarketSentimentService ℚ Snapshot)
    (snapshot : Snapshot) (providers : List (IndicatorProvider ℚ Snapshot))
    (h : ∀ provider ∈ providers,
      service.weight provider ≠ 0 ∧ (provider.evaluate snapshot).isSome) (totals : Totals ℚ) :
    (providers.foldl (service.visit snapshot) totals).reasons.length =
      totals.reasons.length + providers.length := by
  induction providers generalizing totals with
  | nil => rfl
  | cons provider rest ih =>
    obtain ⟨⟨hweight, hsome⟩, hrest⟩ := List.forall_mem_cons.mp h
    obtain ⟨contribution, hcontribution⟩ := Option.isSome_iff_exists.mp hsome
    rw [List.foldl_cons, ih hrest, MarketSentimentService.visit]
    simp only [hweight, ↓reduceIte, hcontribution, List.length_append, List.length_cons,
      List.length_nil]
    omega

/-- The reasons of a sentiment are those of the loop, where one had weight. -/
theorem classify_reasons {Snapshot : Type} {service : MarketSentimentService ℚ Snapshot}
    {snapshot : Snapshot} {sentiment : MarketSentiment ℚ}
    (h : service.classify snapshot = .ok sentiment)
    (hpos : effectiveTotal service snapshot ≠ 0) :
    sentiment.reasons = (service.totals snapshot).reasons := by
  have hweight := (totals_sums service snapshot).2.1
  have hbuild : ∀ {score : ℤ} {state : SentimentState} {confidence : ℚ} {reasons : List String},
      MarketSentiment.build score state confidence reasons = .ok sentiment →
      sentiment.reasons = reasons := by
    intro score state confidence reasons hbuilt
    unfold MarketSentiment.build at hbuilt
    split at hbuilt
    · cases hbuilt; rfl
    · cases hbuilt
  unfold MarketSentimentService.classify at h
  dsimp only at h
  rw [if_neg (by rw [hweight]; exact hpos)] at h
  simp only [divide, bind, Except.bind] at h
  split_ifs at h
  · split at h
    · cases h
    · exact hbuild h

/-- The weights of the service are its defaults. -/
theorem sentimentService_weights :
    sentimentService.providers.map sentimentService.weight = [1, 5 / 4, 1, 3 / 4, 3 / 4] := by
  decide +kernel

/-- The effective weight of a provider that contributes. -/
theorem effective_of_contributes {provider : IndicatorProvider ℚ MarketIndicatorSnapshot}
    {snapshot : MarketIndicatorSnapshot} {low high : ℚ}
    (h : Contributes snapshot low high provider) :
    sentimentService.weight provider * low ≤ effective sentimentService snapshot provider ∧
      effective sentimentService snapshot provider ≤ sentimentService.weight provider * high := by
  obtain ⟨contribution, heval, hlow, hhigh⟩ := h
  have hweight : 0 ≤ sentimentService.weight provider := weights_get_nonneg _ _
  simp only [effective, heval]
  exact ⟨mul_le_mul_of_nonneg_left hlow hweight, mul_le_mul_of_nonneg_left hhigh hweight⟩

/-- The effective weights of a snapshot without a gap. -/
theorem effectiveTotal_of_complete {snapshot : MarketIndicatorSnapshot}
    (h : Complete snapshot) : 35375 / 10000 ≤ effectiveTotal sentimentService snapshot ∧
      effectiveTotal sentimentService snapshot ≤ 43125 / 10000 := by
  have hrsi := effective_of_contributes (rsiProvider_contributes h)
  have hema := effective_of_contributes (emaTrendProvider_contributes h)
  have hmacd := effective_of_contributes (macdProvider_contributes h)
  have hvolatility := effective_of_contributes (volatilityProvider_contributes h)
  have hvolume := effective_of_contributes (volumeProvider_contributes h)
  have hweights := sentimentService_weights
  simp only [sentimentService, defaultSentimentProviders, List.map_cons, List.map_nil,
    List.cons.injEq, and_true] at hweights
  obtain ⟨h1, h2, h3, h4, h5⟩ := hweights
  change sentimentService.weight rsiProvider = 1 at h1
  change sentimentService.weight emaTrendProvider = 5 / 4 at h2
  change sentimentService.weight macdProvider = 1 at h3
  change sentimentService.weight volatilityProvider = 3 / 4 at h4
  change sentimentService.weight volumeProvider = 3 / 4 at h5
  rw [h1] at hrsi
  rw [h2] at hema
  rw [h3] at hmacd
  rw [h4] at hvolatility
  rw [h5] at hvolume
  have htotal : effectiveTotal sentimentService snapshot =
      effective sentimentService snapshot rsiProvider +
        (effective sentimentService snapshot emaTrendProvider +
          (effective sentimentService snapshot macdProvider +
            (effective sentimentService snapshot volatilityProvider +
              (effective sentimentService snapshot volumeProvider + 0)))) := rfl
  rw [htotal]
  constructor
  · linarith
  · linarith

/-- A snapshot without a gap is classified, with a reason of every provider. -/
theorem classify_complete {snapshot : MarketIndicatorSnapshot} (h : Complete snapshot) :
    ∃ sentiment, sentimentService.classify snapshot = .ok sentiment ∧
      sentiment.reasons.length = 5 ∧
      74 / 100 ≤ sentiment.confidence ∧ sentiment.confidence ≤ 91 / 100 := by
  obtain ⟨hlow, hhigh⟩ := effectiveTotal_of_complete h
  have hpos : effectiveTotal sentimentService snapshot ≠ 0 := by linarith
  obtain ⟨sentiment, hok, -, hconfidence⟩ := classify_ok sentimentService snapshot
  have hconfigured : sentimentService.configuredWeightTotal = 475 / 100 := by
    rw [MarketSentimentService.configuredWeightTotal, sentimentService_weights]
    norm_num
  rw [confidenceOf, if_neg hpos, hconfigured] at hconfidence
  refine ⟨sentiment, hok, ?_, ?_, ?_⟩
  · rw [classify_reasons hok hpos, MarketSentimentService.totals, foldl_visit_reasons]
    · rfl
    · intro provider hmem
      have hcontributes : ∃ low high, Contributes snapshot low high provider := by
        simp only [sentimentService, defaultSentimentProviders, List.mem_cons, List.not_mem_nil,
          or_false] at hmem
        rcases hmem with rfl | rfl | rfl | rfl | rfl
        exacts [⟨_, _, rsiProvider_contributes h⟩, ⟨_, _, emaTrendProvider_contributes h⟩,
          ⟨_, _, macdProvider_contributes h⟩, ⟨_, _, volatilityProvider_contributes h⟩,
          ⟨_, _, volumeProvider_contributes h⟩]
      obtain ⟨low, high, contribution, heval, -⟩ := hcontributes
      refine ⟨?_, by rw [heval]; rfl⟩
      have hweight : sentimentService.weight provider ∈
          sentimentService.providers.map sentimentService.weight := List.mem_map_of_mem hmem
      rw [sentimentService_weights] at hweight
      intro hzero
      rw [hzero] at hweight
      norm_num at hweight
  · have hround : MarketSentimentService.roundCents (35375 / 10000 / (475 / 100) : ℚ) =
        74 / 100 := by decide +kernel
    rw [hconfidence, ← hround]
    exact roundCents_mono (div_le_div_of_nonneg_right hlow (by norm_num))
  · have hround : MarketSentimentService.roundCents (43125 / 10000 / (475 / 100) : ℚ) =
        91 / 100 := by decide +kernel
    rw [hconfidence, ← hround]
    exact roundCents_mono (div_le_div_of_nonneg_right hhigh (by norm_num))

/-! ## The cycle -/

/-- A snapshot of numbers in their bounds is built without a gap. -/
theorem build_complete {price volume : ℚ} {values : IndicatorValues} (priceChangePct : ℚ)
    (h : 0 < price ∧ (0 ≤ values.rsi14 ∧ values.rsi14 ≤ 100) ∧ 0 < values.ema50 ∧
      0 < values.ema200 ∧ 0 ≤ values.atr14 ∧ 0 ≤ volume ∧ 0 < values.volumeSma20) :
    ∃ snapshot, MarketIndicatorSnapshot.build price priceChangePct volume values =
      .ok snapshot ∧ Complete snapshot := by
  rw [MarketIndicatorSnapshot.build, dif_pos h]
  exact ⟨_, rfl, ⟨rfl, rfl, rfl, rfl, rfl, rfl, rfl, rfl⟩⟩

/-- A market in an uptrend that is neither overbought nor oversold. -/
def risingIndicators : IndicatorValues where
  rsi14 := 60
  ema50 := 95
  ema200 := 90
  macd := { macd := 1, signal := 1 / 2, histogram := 1 / 2 }
  atr14 := 2
  volumeSma20 := 5

end TradeMind.Analysis
