import TradeMind.Library.Dictionary
import TradeMind.Library.HalfEven

/-!
# The market sentiment

`common/sentiment.py` and `scheduler/app/sentiment/service.py`: the advisory score a cycle
aggregates from independent indicators.  Numbers are of any ordered field with a floor, so the
service runs on rationals and its laws are those of real arithmetic.  The indicator values of a
candle are whatever the providers read.
-/

set_option autoImplicit false

namespace TradeMind.Model.Sentiment

open TradeMind.Library

inductive SentimentState
  | FEAR | NEUTRAL | GREED
  deriving DecidableEq, Repr

/-- `sentiment_state_for_score`. -/
def sentimentStateForScore (score : ℤ) : SentimentState :=
  if score ≤ 30 then .FEAR
  else if score ≤ 70 then .NEUTRAL
  else .GREED

variable {α : Type} [Field α] [LinearOrder α]

/-- `IndicatorContribution`, with the bounds of its fields. -/
structure IndicatorContribution (α : Type) [Field α] [LinearOrder α] where
  indicator : String
  score : α
  confidence : α
  reason : String
  indicator_ne : indicator ≠ ""
  score_nonneg : 0 ≤ score
  score_le : score ≤ 100
  confidence_nonneg : 0 ≤ confidence
  confidence_le : confidence ≤ 1
  reason_ne : reason ≠ ""

/-- `SentimentWeights`: by provider name, checked by `validate_weights`. -/
structure SentimentWeights (α : Type) [Field α] [LinearOrder α] where
  values : Dict String α
  names_ne : "" ∉ values
  weights_nonneg : ∀ name weight, values.lookup name = some weight → 0 ≤ weight

/-- The default of `SentimentWeights.values`. -/
def defaultWeights (α : Type) [Field α] : Dict String α where
  entries := [⟨"rsi", 1⟩, ⟨"ema_trend", 5 / 4⟩, ⟨"macd", 1⟩, ⟨"volatility", 3 / 4⟩,
    ⟨"volume", 3 / 4⟩]
  nodupKeys := by simp [List.NodupKeys, List.keys]

/-- `SentimentWeights()`. -/
def SentimentWeights.default [IsStrictOrderedRing α] : SentimentWeights α where
  values := defaultWeights α
  names_ne := by simp [AList.mem_keys, AList.keys, defaultWeights]
  weights_nonneg := by
    intro name weight hlookup
    have hmem : ⟨name, weight⟩ ∈ (defaultWeights α).entries := AList.mem_lookup_iff.mp hlookup
    simp only [defaultWeights, List.mem_cons, Sigma.mk.injEq, heq_eq_eq, List.not_mem_nil,
      or_false] at hmem
    rcases hmem with ⟨-, rfl⟩ | ⟨-, rfl⟩ | ⟨-, rfl⟩ | ⟨-, rfl⟩ | ⟨-, rfl⟩ <;> norm_num

/-- `self._weights.values.get(name, 1.0)`. -/
def SentimentWeights.get (weights : SentimentWeights α) (name : String) : α :=
  (weights.values.lookup name).getD 1

/-- `IndicatorProvider`: a name, and what it makes of the indicators of a candle. -/
structure IndicatorProvider (α Snapshot : Type) [Field α] [LinearOrder α] where
  name : String
  evaluate : Snapshot → Option (IndicatorContribution α)

variable {Snapshot : Type}

/-- What `classify` can raise. -/
inductive SentimentError
  | zeroDivision
  /-- `ValidationError` of `MarketSentiment`. -/
  | validation
  deriving DecidableEq, Repr

/-- `MarketSentiment`, with what its fields and `state_matches_score` check. -/
structure MarketSentiment (α : Type) [Field α] [LinearOrder α] where
  score : ℤ
  state : SentimentState
  confidence : α
  reasons : List String
  score_nonneg : 0 ≤ score
  score_le : score ≤ 100
  confidence_nonneg : 0 ≤ confidence
  confidence_le : confidence ≤ 1
  state_matches_score : state = sentimentStateForScore score

/-- `MarketSentiment(...)`. -/
def MarketSentiment.build (score : ℤ) (state : SentimentState) (confidence : α)
    (reasons : List String) : Except SentimentError (MarketSentiment α) :=
  if h : (0 ≤ score ∧ score ≤ 100) ∧ (0 ≤ confidence ∧ confidence ≤ 1) ∧
      state = sentimentStateForScore score then
    .ok ⟨score, state, confidence, reasons, h.1.1, h.1.2, h.2.1.1, h.2.1.2, h.2.2⟩
  else .error .validation

/-- `a / b`, which raises for zero. -/
def divide (a b : α) : Except SentimentError α :=
  if b = 0 then .error .zeroDivision else .ok (a / b)

/-- The accumulators of `classify`. -/
structure Totals (α : Type) [Field α] where
  weightedScore : α := 0
  effectiveWeightTotal : α := 0
  weightedConfidence : α := 0
  reasons : List String := []

/-- `MarketSentimentService`; two providers of one name are refused. -/
structure MarketSentimentService (α Snapshot : Type) [Field α] [LinearOrder α] where
  providers : List (IndicatorProvider α Snapshot)
  weights : SentimentWeights α
  names_nodup : (providers.map fun provider => provider.name).Nodup

namespace MarketSentimentService

variable (service : MarketSentimentService α Snapshot) (snapshot : Snapshot)

/-- The weight of a provider. -/
def weight (provider : IndicatorProvider α Snapshot) : α := service.weights.get provider.name

/-- `configured_weight_total`. -/
def configuredWeightTotal : α := (service.providers.map service.weight).sum

/-- The body of the loop over the providers. -/
def visit (totals : Totals α) (provider : IndicatorProvider α Snapshot) : Totals α :=
  let weight := service.weight provider
  if weight = 0 then totals
  else
    match provider.evaluate snapshot with
    | none => totals
    | some contribution =>
      let effectiveWeight := weight * contribution.confidence
      { weightedScore := totals.weightedScore + contribution.score * effectiveWeight
        effectiveWeightTotal := totals.effectiveWeightTotal + effectiveWeight
        weightedConfidence := totals.weightedConfidence + contribution.confidence * weight
        reasons := totals.reasons ++ [contribution.reason] }

/-- The accumulators after the loop. -/
def totals : Totals α := service.providers.foldl (service.visit snapshot) {}

/-- `round(confidence, 2)`. -/
def roundCents [FloorRing α] (confidence : α) : α := halfEven (confidence * 100) / 100

/-- `MarketSentimentService.classify`. -/
def classify [FloorRing α] : Except SentimentError (MarketSentiment α) := do
  let totals := service.totals snapshot
  if totals.effectiveWeightTotal = 0 then
    MarketSentiment.build 50 (sentimentStateForScore 50) 0
      ["No sentiment indicators were available"]
  else
    let score := halfEven (← divide totals.weightedScore totals.effectiveWeightTotal)
    let confidence ← divide totals.weightedConfidence service.configuredWeightTotal
    MarketSentiment.build score (sentimentStateForScore score) (roundCents confidence)
      totals.reasons

end MarketSentimentService

end TradeMind.Model.Sentiment
