import Mathlib.Data.Rat.Floor
import TradeMind.Model.Records

/-!
# The market context of one analysis

`llm_service/context/builder.py` and `llm_service/strategies/`: the numeric facts read off
one `/analyze` request before the model is asked, and the regime they select.  Floats are
exact rationals; the `.2%` and `.2f` renderings of the reason texts round half to even.
The sentiment and the provider override only reach the prompt and are left out.
-/

set_option autoImplicit false

namespace TradeMind.Model.Llm

open TradeMind.Model

/-! ## Rendering numbers -/

/-- `round`: to the nearest integer, a tie to the even one. -/
def roundHalfEven (q : ℚ) : ℤ :=
  let below := q.floor
  let rest := q - below
  if rest < 1 / 2 then below
  else if 1 / 2 < rest then below + 1
  else if below % 2 = 0 then below
  else below + 1

/-- `f"{q:.2f}"`. -/
def fixed2 (q : ℚ) : String :=
  let hundredths := (roundHalfEven (|q| * 100)).toNat
  let cents := toString (hundredths % 100)
  (if q < 0 then "-" else "") ++ toString (hundredths / 100) ++ "." ++
    (if cents.length < 2 then "0" ++ cents else cents)

/-- `f"{q:.2%}"`. -/
def percent2 (q : ℚ) : String := fixed2 (q * 100) ++ "%"

/-! ## The request -/

structure Candle where
  t : String
  o : ℚ
  h : ℚ
  l : ℚ
  c : ℚ
  v : ℚ
  deriving DecidableEq, Repr

structure MACD where
  macd : ℚ
  signal : ℚ
  histogram : ℚ
  deriving DecidableEq, Repr

structure Indicators where
  rsi14 : ℚ
  ema50 : ℚ
  ema200 : ℚ
  macd : MACD
  atr14 : ℚ
  volumeSma20 : ℚ
  deriving DecidableEq, Repr

structure PositionContext where
  hasOpenPosition : Bool
  unrealizedPnlPct : Option ℚ := none
  deriving DecidableEq, Repr

structure AnalyzeRequest where
  symbol : Symbol
  timeframe : String
  candleCloseTime : String
  ohlcv : List Candle
  indicators : Indicators
  positionContext : PositionContext
  deriving DecidableEq, Repr

/-! ## Confirmations -/

inductive Category
  | trend | momentum | priceAction
  deriving DecidableEq, Repr

/-- The bullish facts a `BUY` is checked against. -/
inductive EntryConfirmation
  | priceAboveEma50AndEma200 | ema50AboveEma200 | bullishMacd | rsi45To70
  | higherHighsAndLows | risingPriceOnHighVolume
  deriving DecidableEq, Repr

/-- The text the confirmation is listed under. -/
def EntryConfirmation.value : EntryConfirmation → String
  | .priceAboveEma50AndEma200 => "price_above_ema50_and_ema200"
  | .ema50AboveEma200 => "ema50_above_ema200"
  | .bullishMacd => "bullish_macd"
  | .rsi45To70 => "rsi_45_to_70"
  | .higherHighsAndLows => "higher_highs_and_lows"
  | .risingPriceOnHighVolume => "rising_price_on_high_volume"

/-- `_ENTRY_CONFIRMATION_CATEGORIES`. -/
def EntryConfirmation.category : EntryConfirmation → Category
  | .priceAboveEma50AndEma200 | .ema50AboveEma200 => .trend
  | .bullishMacd | .rsi45To70 => .momentum
  | .higherHighsAndLows | .risingPriceOnHighVolume => .priceAction

/-- The bearish facts a `SELL` is checked against. -/
inductive ExitConfirmation
  | priceBelowEma50AndEma200 | ema50BelowEma200 | bearishMacd | rsiBelow45
  | lowerHighsAndLows | fallingPriceOnHighVolume
  deriving DecidableEq, Repr

/-- The text the confirmation is listed under. -/
def ExitConfirmation.value : ExitConfirmation → String
  | .priceBelowEma50AndEma200 => "price_below_ema50_and_ema200"
  | .ema50BelowEma200 => "ema50_below_ema200"
  | .bearishMacd => "bearish_macd"
  | .rsiBelow45 => "rsi_below_45"
  | .lowerHighsAndLows => "lower_highs_and_lows"
  | .fallingPriceOnHighVolume => "falling_price_on_high_volume"

/-- `_CONFIRMATION_CATEGORIES`. -/
def ExitConfirmation.category : ExitConfirmation → Category
  | .priceBelowEma50AndEma200 | .ema50BelowEma200 => .trend
  | .bearishMacd | .rsiBelow45 => .momentum
  | .lowerHighsAndLows | .fallingPriceOnHighVolume => .priceAction

/-- The confirmation, where its fact holds. -/
def confirm {α : Type} (fact : Bool) (confirmation : α) : List α :=
  if fact then [confirmation] else []

/-- `candles[-3:]` step strictly by `before left right`, where there are three. -/
def lastThreeStep (candles : List Candle) (before : Candle → Candle → Bool) : Bool :=
  let recent := candles.drop (candles.length - 3)
  3 ≤ candles.length && (recent.zip recent.tail).all fun pair => before pair.1 pair.2

/-- `_entry_confirmations`. -/
def entryConfirmations (candles : List Candle) (indicators : Indicators) :
    List EntryConfirmation :=
  match candles.getLast? with
  | none => []
  | some latest =>
    let rising := match candles.dropLast.getLast? with
      | some previous => previous.c < latest.c
      | none => false
    confirm (indicators.ema50 < latest.c && indicators.ema200 < latest.c)
        .priceAboveEma50AndEma200 ++
      confirm (indicators.ema200 < indicators.ema50) .ema50AboveEma200 ++
      confirm (0 < indicators.macd.histogram && indicators.macd.signal < indicators.macd.macd)
        .bullishMacd ++
      confirm (45 ≤ indicators.rsi14 && indicators.rsi14 < 70) .rsi45To70 ++
      confirm (lastThreeStep candles (fun left right => left.h < right.h) &&
        lastThreeStep candles (fun left right => left.l < right.l)) .higherHighsAndLows ++
      confirm (rising && indicators.volumeSma20 < latest.v) .risingPriceOnHighVolume

/-- `_exit_confirmations`. -/
def exitConfirmations (candles : List Candle) (indicators : Indicators) :
    List ExitConfirmation :=
  match candles.getLast? with
  | none => []
  | some latest =>
    let falling := match candles.dropLast.getLast? with
      | some previous => latest.c < previous.c
      | none => false
    confirm (latest.c < indicators.ema50 && latest.c < indicators.ema200)
        .priceBelowEma50AndEma200 ++
      confirm (indicators.ema50 < indicators.ema200) .ema50BelowEma200 ++
      confirm (indicators.macd.histogram < 0 && indicators.macd.macd < indicators.macd.signal)
        .bearishMacd ++
      confirm (indicators.rsi14 < 45) .rsiBelow45 ++
      confirm (lastThreeStep candles (fun left right => right.h < left.h) &&
        lastThreeStep candles (fun left right => right.l < left.l)) .lowerHighsAndLows ++
      confirm (falling && indicators.volumeSma20 < latest.v) .fallingPriceOnHighVolume

/-! ## The context -/

structure TrendMetrics where
  priceAboveEma50 : Bool
  priceAboveEma200 : Bool
  ema50AboveEma200 : Bool
  emaGapPct : ℚ
  deriving DecidableEq, Repr

inductive RsiZone
  | oversold | bearishNeutral | bullishNeutral | overbought
  deriving DecidableEq, Repr

structure MomentumMetrics where
  macdBullish : Bool
  macdBearish : Bool
  histogramAtrRatio : ℚ
  rsiZone : RsiZone
  deriving DecidableEq, Repr

structure MarketContext where
  request : AnalyzeRequest
  trend : TrendMetrics
  momentum : MomentumMetrics
  /-- `volatility.atr_pct`. -/
  atrPct : ℚ
  /-- `volume.latest_above_sma20`. -/
  latestAboveSma20 : Bool
  entryConfirmations : List EntryConfirmation
  exitConfirmations : List ExitConfirmation
  deriving DecidableEq, Repr

/-- `context.position`. -/
def MarketContext.position (context : MarketContext) : PositionContext :=
  context.request.positionContext

/-- `_safe_ratio`. -/
def safeRatio (numerator denominator : ℚ) : ℚ :=
  if denominator = 0 then 0 else numerator / denominator

/-- `_rsi_zone`. -/
def rsiZone (rsi : ℚ) : RsiZone :=
  if rsi < 30 then .oversold
  else if 70 < rsi then .overbought
  else if 50 ≤ rsi then .bullishNeutral
  else .bearishNeutral

/-- Whether there is a latest candle and it meets `fact`. -/
def latestMeets (latest : Option Candle) (fact : Candle → Bool) : Bool :=
  match latest with
  | some candle => fact candle
  | none => false

/-- `ContextBuilder.build`. -/
def buildContext (request : AnalyzeRequest) : MarketContext :=
  let indicators := request.indicators
  let candles := request.ohlcv
  let latest := candles.getLast?
  let macd := indicators.macd
  { request
    trend :=
      { priceAboveEma50 := latestMeets latest fun candle => indicators.ema50 < candle.c
        priceAboveEma200 := latestMeets latest fun candle => indicators.ema200 < candle.c
        ema50AboveEma200 := indicators.ema200 < indicators.ema50
        emaGapPct := safeRatio (indicators.ema50 - indicators.ema200) indicators.ema200 }
    momentum :=
      { macdBullish := 0 < macd.histogram && macd.signal < macd.macd
        macdBearish := macd.histogram < 0 && macd.macd < macd.signal
        histogramAtrRatio := safeRatio |macd.histogram| indicators.atr14
        rsiZone := rsiZone indicators.rsi14 }
    atrPct := safeRatio indicators.atr14 ((latest.map (·.c)).getD 0)
    latestAboveSma20 := latestMeets latest fun candle => indicators.volumeSma20 < candle.v
    entryConfirmations := entryConfirmations candles indicators
    exitConfirmations := exitConfirmations candles indicators }

/-! ## The regime -/

inductive StrategyName
  | TREND_FOLLOWING | TREND_PULLBACK | MOMENTUM_CONTINUATION | MEAN_REVERSION
  deriving DecidableEq, Repr

/-- The member's `.value`. -/
def StrategyName.value : StrategyName → String
  | .TREND_FOLLOWING => "trend_following"
  | .TREND_PULLBACK => "trend_pullback"
  | .MOMENTUM_CONTINUATION => "momentum_continuation"
  | .MEAN_REVERSION => "mean_reversion"

structure SelectedStrategy where
  strategy : StrategyName
  possibleAlternatives : List StrategyName := []
  reasoning : String
  deriving DecidableEq, Repr

/-- `_TREND_GAP_THRESHOLD_PCT`. -/
def trendGapThresholdPct : ℚ := 15 / 1000

/-- `_MOMENTUM_BURST_RATIO`. -/
def momentumBurstRatio : ℚ := 15 / 100

/-- `StrategySelector.select`: the first regime that applies, the others as alternatives. -/
def selectStrategy (context : MarketContext) : SelectedStrategy :=
  let trend := context.trend
  let momentum := context.momentum
  let isTrending : Bool := trendGapThresholdPct ≤ |trend.emaGapPct|
  let isUptrend : Bool := 0 < trend.emaGapPct
  let alignedWithTrend :=
    if isUptrend then trend.priceAboveEma50 && trend.priceAboveEma200
    else !trend.priceAboveEma50 && !trend.priceAboveEma200
  let isPullback := isTrending && !alignedWithTrend
  let isMomentumBurst :=
    momentumBurstRatio ≤ momentum.histogramAtrRatio && context.latestAboveSma20
  let gap := percent2 trend.emaGapPct
  let direction := if isUptrend then "uptrend" else "downtrend"
  let byTrend : List (StrategyName × String) :=
    if isPullback then
      [(.TREND_PULLBACK, "EMA50/EMA200 gap of " ++ gap ++ " confirms an underlying " ++ direction
        ++ ", but price sits on the opposite side of EMA50 from that trend: a pullback inside it.")]
    else if isTrending then
      [(.TREND_FOLLOWING, "EMA50/EMA200 gap of " ++ gap ++ " exceeds the "
        ++ percent2 trendGapThresholdPct ++ " trend threshold and price is aligned with the "
        ++ direction ++ ".")]
    else []
  let burst :=
    if momentum.macdBullish then "bullish"
    else if momentum.macdBearish then "bearish"
    else "mixed"
  let byMomentum : List (StrategyName × String) :=
    if isMomentumBurst then
      [(.MOMENTUM_CONTINUATION, "MACD histogram is " ++ fixed2 momentum.histogramAtrRatio
        ++ "x ATR(14) with volume above its 20-period average: a " ++ burst
        ++ " momentum burst.")]
    else []
  match byTrend ++ byMomentum with
  | [] =>
    { strategy := .MEAN_REVERSION
      reasoning := "EMA50/EMA200 gap of " ++ gap ++ " is inside the "
        ++ percent2 trendGapThresholdPct ++ " trend threshold and no momentum burst is present: "
        ++ "a sideways/ranging regime." }
  | (primaryStrategy, primaryReasoning) :: rest =>
    { strategy := primaryStrategy
      possibleAlternatives := rest.map (·.1)
      reasoning := primaryReasoning }

inductive VolatilityRegime
  | HIGH_VOLATILITY | NORMAL | LOW_VOLATILITY
  deriving DecidableEq, Repr

/-- The member's `.value`. -/
def VolatilityRegime.value : VolatilityRegime → String
  | .HIGH_VOLATILITY => "HIGH_VOLATILITY"
  | .NORMAL => "NORMAL"
  | .LOW_VOLATILITY => "LOW_VOLATILITY"

/-- `VolatilityClassifier.classify`. -/
def classifyVolatility (context : MarketContext) : VolatilityRegime :=
  if context.atrPct < 5 / 1000 then .LOW_VOLATILITY
  else if 2 / 100 < context.atrPct then .HIGH_VOLATILITY
  else .NORMAL

end TradeMind.Model.Llm
