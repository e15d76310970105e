import Mathlib.Data.String.Basic
import Mathlib.Tactic.NormNum
import Mathlib.Tactic.Positivity
import TradeMind.Model.CandleHistory
import TradeMind.Model.MarketContext
import TradeMind.Model.Sentiment

/-!
# The sentiment providers of the scheduler

`scheduler/app/sentiment/providers.py` over the snapshot of `common/sentiment.py`, and the
sentiment `_run_locked_cycle` classifies from the candles it fetched.  A snapshot carries the
bounds its fields were checked against, so a provider cannot leave those of a contribution.  The
indicators themselves are computed by pandas; here they are numbers that come from outside.
-/

set_option autoImplicit false

namespace TradeMind.Model.Scheduler

/-- The dict `compute_indicators` returns, where each of its entries is a number. -/
structure IndicatorValues where
  rsi14 : ℚ
  ema50 : ℚ
  ema200 : ℚ
  macd : Llm.MACD
  atr14 : ℚ
  volumeSma20 : ℚ
  deriving DecidableEq, Repr

end TradeMind.Model.Scheduler

namespace TradeMind.Model.Sentiment

open TradeMind.Library TradeMind.Model

/-- `f"{x:.{digits}f}"`. -/
def fixed (digits : ℕ) (x : ℚ) : String :=
  let scaled := (halfEven (x * 10 ^ digits)).natAbs
  let fraction := toString (scaled % 10 ^ digits)
  (if x < 0 then "-" else "") ++ toString (scaled / 10 ^ digits) ++ "." ++
    String.ofList (List.replicate (digits - fraction.length) '0') ++ fraction

/-- `f"{x:.{digits}%}"`. -/
def percent (digits : ℕ) (x : ℚ) : String := fixed digits (x * 100) ++ "%"

/-- `MarketIndicatorSnapshot`, with the bounds of its fields. -/
structure MarketIndicatorSnapshot where
  price : Option ℚ := none
  priceChangePct : Option ℚ := none
  rsi14 : Option ℚ := none
  ema50 : Option ℚ := none
  ema200 : Option ℚ := none
  macd : Option Llm.MACD := none
  atr14 : Option ℚ := none
  volume : Option ℚ := none
  volumeSma20 : Option ℚ := none
  price_pos : ∀ x ∈ price, 0 < x := by simp
  rsi14_mem : ∀ x ∈ rsi14, 0 ≤ x ∧ x ≤ 100 := by simp
  ema50_pos : ∀ x ∈ ema50, 0 < x := by simp
  ema200_pos : ∀ x ∈ ema200, 0 < x := by simp
  atr14_nonneg : ∀ x ∈ atr14, 0 ≤ x := by simp
  volume_nonneg : ∀ x ∈ volume, 0 ≤ x := by simp
  volumeSma20_pos : ∀ x ∈ volumeSma20, 0 < x := by simp

/-- What a provider makes of a snapshot. -/
structure Reading where
  score : ℚ
  confidence : ℚ
  reason : String
  deriving DecidableEq, Repr

/-- What `IndicatorContribution` checks. -/
structure Reading.InBounds (reading : Reading) : Prop where
  score_nonneg : 0 ≤ reading.score
  score_le : reading.score ≤ 100
  confidence_nonneg : 0 ≤ reading.confidence
  confidence_le : reading.confidence ≤ 1
  reason_ne : reading.reason ≠ ""

/-- `IndicatorContribution(indicator=self.name, ...)`. -/
def Reading.contribute (reading : Reading) (h : reading.InBounds) (name : String)
    (hname : name ≠ "") : IndicatorContribution ℚ :=
  ⟨name, reading.score, reading.confidence, reading.reason, hname, h.score_nonneg, h.score_le,
    h.confidence_nonneg, h.confidence_le, h.reason_ne⟩

/-- A text that begins with another is not empty. -/
theorem append_ne_empty {start rest : String} (h : start ≠ "") : start ++ rest ≠ "" := by
  intro hempty
  have hlist := congrArg String.toList hempty
  rw [String.toList_append] at hlist
  exact h (String.toList_injective (List.append_eq_nil_iff.mp hlist).1)

/-! ## `RSIProvider` -/

/-- The reason of `RSIProvider`. -/
def rsiReason (value : ℚ) : String :=
  if value ≤ 30 then "RSI(14) is oversold at " ++ fixed 1 value
  else if 70 ≤ value then "RSI(14) is overbought at " ++ fixed 1 value
  else if value < 45 then "RSI(14) shows weak momentum at " ++ fixed 1 value
  else if 55 < value then "RSI(14) shows strong momentum at " ++ fixed 1 value
  else "RSI(14) is neutral at " ++ fixed 1 value

/-- What `RSIProvider` reads. -/
def rsiReading (value : ℚ) : Reading := ⟨value, 9 / 10, rsiReason value⟩

theorem rsiReading_inBounds {value : ℚ} (h : 0 ≤ value ∧ value ≤ 100) :
    (rsiReading value).InBounds where
  score_nonneg := h.1
  score_le := h.2
  confidence_nonneg := by norm_num [rsiReading]
  confidence_le := by norm_num [rsiReading]
  reason_ne := by
    simp only [rsiReading, rsiReason]
    split_ifs <;> exact append_ne_empty (by decide)

theorem rsi_ne_empty : "rsi" ≠ "" := by decide

/-- `RSIProvider`. -/
def rsiProvider : IndicatorProvider ℚ MarketIndicatorSnapshot where
  name := "rsi"
  evaluate snapshot :=
    match h : snapshot.rsi14 with
    | none => none
    | some value =>
      some ((rsiReading value).contribute (rsiReading_inBounds (snapshot.rsi14_mem value h)) "rsi"
        rsi_ne_empty)

/-! ## `EMATrendProvider` -/

/-- The averages that are there, with their labels. -/
def availableEmas (snapshot : MarketIndicatorSnapshot) : List (String × ℚ) :=
  [("EMA50", snapshot.ema50), ("EMA200", snapshot.ema200)].filterMap fun entry =>
    entry.2.map fun value => (entry.1, value)

/-- What `EMATrendProvider` reads. -/
def emaReading (price : ℚ) (available : List (String × ℚ)) : Reading :=
  let above := (available.filter fun entry => entry.2 < price).map Prod.fst
  let below := (available.filter fun entry => price < entry.2).map Prod.fst
  let confidence : ℚ := if available.length = 2 then 95 / 100 else 7 / 10
  if above.length = available.length then
    ⟨if available.length = 2 then 85 else 70, confidence,
      "Price is above " ++ String.intercalate " and " above⟩
  else if below.length = available.length then
    ⟨if available.length = 2 then 15 else 30, confidence,
      "Price is below " ++ String.intercalate " and " below⟩
  else
    ⟨50, confidence, "Price is between EMA50 and EMA200, indicating a mixed trend"⟩

theorem emaReading_inBounds (price : ℚ) (available : List (String × ℚ)) :
    (emaReading price available).InBounds := by
  unfold emaReading
  dsimp only
  split_ifs <;> refine ⟨by norm_num, by norm_num, by norm_num, by norm_num, ?_⟩
  all_goals first | decide | exact append_ne_empty (by decide)

/-- `EMATrendProvider`. -/
def emaTrendProvider : IndicatorProvider ℚ MarketIndicatorSnapshot where
  name := "ema_trend"
  evaluate snapshot :=
    snapshot.price.bind fun price =>
      let available := availableEmas snapshot
      if available = [] then none
      else
        some ((emaReading price available).contribute (emaReading_inBounds price available)
          "ema_trend" (by decide))

/-! ## `MACDProvider` -/

/-- `strength`: the histogram against the larger line. -/
def macdStrength (value : Llm.MACD) : ℚ :=
  min (|value.histogram| / max (max |value.macd| |value.signal|) (1 / 10 ^ 12)) 1

theorem macdStrength_mem (value : Llm.MACD) : 0 ≤ macdStrength value ∧ macdStrength value ≤ 1 := by
  have hscale : 0 ≤ max (max |value.macd| |value.signal|) (1 / 10 ^ 12) :=
    le_max_of_le_right (by norm_num)
  exact ⟨le_min (div_nonneg (abs_nonneg _) hscale) zero_le_one, min_le_right _ _⟩

/-- What `MACDProvider` reads. -/
def macdReading (value : Llm.MACD) : Reading :=
  let strength := macdStrength value
  let confidence := 55 / 100 + 4 / 10 * strength
  if 0 < value.histogram then
    ⟨70 + 20 * strength, confidence,
      "MACD histogram is positive, indicating bullish momentum"⟩
  else if value.histogram < 0 then
    ⟨30 - 20 * strength, confidence,
      "MACD histogram is negative, indicating bearish momentum"⟩
  else ⟨50, confidence, "MACD is flat with no directional momentum"⟩

theorem macdReading_inBounds (value : Llm.MACD) : (macdReading value).InBounds := by
  obtain ⟨hlow, hhigh⟩ := macdStrength_mem value
  unfold macdReading
  dsimp only
  split_ifs <;> refine ⟨by linarith, by linarith, by linarith, by linarith, ?_⟩
  all_goals
    dsimp only
    decide

/-- `MACDProvider`. -/
def macdProvider : IndicatorProvider ℚ MarketIndicatorSnapshot where
  name := "macd"
  evaluate snapshot :=
    snapshot.macd.map fun value =>
      (macdReading value).contribute (macdReading_inBounds value) "macd" (by decide)

/-! ## `VolatilityProvider` -/

/-- What `VolatilityProvider` reads. -/
def volatilityReading (ratio : ℚ) : Reading :=
  if 5 / 100 ≤ ratio then ⟨20, 8 / 10, "High volatility: ATR is " ++ percent 1 ratio ++ " of price"⟩
  else if 3 / 100 ≤ ratio then
    ⟨35, 8 / 10, "Elevated volatility: ATR is " ++ percent 1 ratio ++ " of price"⟩
  else if 1 / 100 ≤ ratio then
    ⟨50, 8 / 10, "Volatility is normal: ATR is " ++ percent 1 ratio ++ " of price"⟩
  else ⟨60, 8 / 10, "Volatility is low: ATR is " ++ percent 1 ratio ++ " of price"⟩

theorem volatilityReading_inBounds (ratio : ℚ) : (volatilityReading ratio).InBounds := by
  unfold volatilityReading
  split_ifs <;>
    exact ⟨by norm_num, by norm_num, by norm_num, by norm_num,
      append_ne_empty (append_ne_empty (by decide))⟩

/-- `VolatilityProvider`. -/
def volatilityProvider : IndicatorProvider ℚ MarketIndicatorSnapshot where
  name := "volatility"
  evaluate snapshot :=
    snapshot.atr14.bind fun atr =>
      snapshot.price.map fun price =>
        (volatilityReading (atr / price)).contribute (volatilityReading_inBounds _) "volatility"
          (by decide)

/-! ## `VolumeProvider` -/

/-- What `VolumeProvider` reads. -/
def volumeReading (ratio : ℚ) (change : Option ℚ) : Reading :=
  match change.filter fun change => 1 / 10 ^ 12 ≤ |change| with
  | none =>
    ⟨50, 4 / 10, "Volume is " ++ fixed 2 ratio ++ "x its 20-period average without price direction"⟩
  | some change =>
    let direction := if 0 < change then "rising" else "falling"
    if 15 / 10 ≤ ratio then
      ⟨if 0 < change then 80 else 20, 9 / 10,
        "High volume confirms " ++ direction ++ " price action (" ++ fixed 2 ratio ++
          "x average)"⟩
    else if ratio ≤ 7 / 10 then
      ⟨if 0 < change then 55 else 45, 5 / 10,
        "Low volume weakens " ++ direction ++ " price action (" ++ fixed 2 ratio ++
          "x average)"⟩
    else
      ⟨if 0 < change then 65 else 35, 65 / 100,
        "Normal volume accompanies " ++ direction ++ " price action (" ++ fixed 2 ratio ++
          "x average)"⟩

theorem volumeReading_inBounds (ratio : ℚ) (change : Option ℚ) :
    (volumeReading ratio change).InBounds := by
  unfold volumeReading
  split
  · exact ⟨by norm_num, by norm_num, by norm_num, by norm_num,
      append_ne_empty (append_ne_empty (by decide))⟩
  · dsimp only
    split_ifs <;>
      exact ⟨by norm_num, by norm_num, by norm_num, by norm_num,
        append_ne_empty (append_ne_empty (append_ne_empty (append_ne_empty (by decide))))⟩

/-- `VolumeProvider`. -/
def volumeProvider : IndicatorProvider ℚ MarketIndicatorSnapshot where
  name := "volume"
  evaluate snapshot :=
    snapshot.volume.bind fun volume =>
      snapshot.volumeSma20.map fun average =>
        (volumeReading (volume / average) snapshot.priceChangePct).contribute
          (volumeReading_inBounds _ _) "volume" (by decide)

/-! ## The service of the scheduler -/

/-- `default_sentiment_providers`. -/
def defaultSentimentProviders : List (IndicatorProvider ℚ MarketIndicatorSnapshot) :=
  [rsiProvider, emaTrendProvider, macdProvider, volatilityProvider, volumeProvider]

/-- `sentiment_service`. -/
def sentimentService : MarketSentimentService ℚ MarketIndicatorSnapshot where
  providers := defaultSentimentProviders
  weights := .default
  names_nodup := by decide

/-- What the cycle can raise before it calls the LLM service. -/
inductive CycleError
  /-- `ZeroDivisionError` of `price_change_pct`. -/
  | zeroDivision
  /-- `ValidationError` of `MarketIndicatorSnapshot`. -/
  | snapshot
  | sentiment (error : SentimentError)
  deriving DecidableEq, Repr

/-- `MarketIndicatorSnapshot(...)` of the cycle, which gives every field a number. -/
def MarketIndicatorSnapshot.build (price priceChangePct volume : ℚ)
    (values : Scheduler.IndicatorValues) : Except CycleError MarketIndicatorSnapshot :=
  if h : 0 < price ∧ (0 ≤ values.rsi14 ∧ values.rsi14 ≤ 100) ∧ 0 < values.ema50 ∧
      0 < values.ema200 ∧ 0 ≤ values.atr14 ∧ 0 ≤ volume ∧ 0 < values.volumeSma20 then
    .ok
      { price := some price
        priceChangePct := some priceChangePct
        rsi14 := some values.rsi14
        ema50 := some values.ema50
        ema200 := some values.ema200
        macd := some values.macd
        atr14 := some values.atr14
        volume := some volume
        volumeSma20 := some values.volumeSma20
        price_pos := by simpa using h.1
        rsi14_mem := by simpa using h.2.1
        ema50_pos := by simpa using h.2.2.1
        ema200_pos := by simpa using h.2.2.2.1
        atr14_nonneg := by simpa using h.2.2.2.2.1
        volume_nonneg := by simpa using h.2.2.2.2.2.1
        volumeSma20_pos := by simpa using h.2.2.2.2.2.2 }
  else .error .snapshot

/-- The sentiment `_run_locked_cycle` classifies from its candles and their indicators. -/
def cycleSentiment (previous latest : History.Ohlcv) (values : Scheduler.IndicatorValues) :
    Except CycleError (MarketSentiment ℚ) :=
  if previous.c = 0 then .error .zeroDivision
  else do
    let snapshot ← MarketIndicatorSnapshot.build latest.c ((latest.c - previous.c) / previous.c)
      latest.v values
    (sentimentService.classify snapshot).mapError .sentiment

end TradeMind.Model.Sentiment
