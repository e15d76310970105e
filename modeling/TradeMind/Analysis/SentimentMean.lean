import Mathlib.Data.Finset.Max
import Mathlib.Data.Rat.Floor
import TradeMind.Library.WeightedMean
import TradeMind.Model.Sentiment

/-!
# The sentiment is a weighted mean

The accumulators of `classify` are sums over the providers: the score is the mean of the
contributions' scores, each weighted by its weight times its confidence, and the confidence is
that effective weight over the configured one.  So `classify` is a function of three sums
(`classify_ok`), and its laws are those of the sums.
-/

set_option autoImplicit false

namespace TradeMind.Analysis

open TradeMind.Library TradeMind.Model.Sentiment

variable {α Snapshot : Type} [Field α] [LinearOrder α]

/-- The effective weight of a provider: none where it abstains. -/
def effective (service : MarketSentimentService α Snapshot) (snapshot : Snapshot)
    (provider : IndicatorProvider α Snapshot) : α :=
  match provider.evaluate snapshot with
  | none => 0
  | some contribution => service.weight provider * contribution.confidence

/-- The score a provider contributes. -/
def contributedScore (snapshot : Snapshot) (provider : IndicatorProvider α Snapshot) : α :=
  match provider.evaluate snapshot with
  | none => 0
  | some contribution => contribution.score

section Sums

variable (service : MarketSentimentService α Snapshot) (snapshot : Snapshot)

/-- `effective_weight_total`. -/
def effectiveTotal : α := weightTotal (effective service snapshot) service.providers

/-- `weighted_score`. -/
def scoreTotal : α :=
  weightedTotal (effective service snapshot) (contributedScore snapshot) service.providers

/-- What visiting a provider adds to the accumulators. -/
theorem visit_sums (totals : Totals α) (provider : IndicatorProvider α Snapshot) :
    (service.visit snapshot totals provider).weightedScore = totals.weightedScore +
        contributedScore snapshot provider * effective service snapshot provider ∧
      (service.visit snapshot totals provider).effectiveWeightTotal =
        totals.effectiveWeightTotal + effective service snapshot provider ∧
      (service.visit snapshot totals provider).weightedConfidence =
        totals.weightedConfidence + effective service snapshot provider := by
  unfold MarketSentimentService.visit
  by_cases hweight : service.weight provider = 0
  · -- a provider without weight is skipped, and has no effective weight
    have hnone : effective service snapshot provider = 0 := by
      unfold effective
      cases provider.evaluate snapshot <;> simp [hweight]
    simp [hweight, hnone]
  · cases hevaluate : provider.evaluate snapshot with
    | none => simp [hweight, effective, hevaluate]
    | some contribution =>
      simp [hweight, effective, contributedScore, hevaluate, mul_comm]

theorem foldl_visit_sums (providers : List (IndicatorProvider α Snapshot)) (totals : Totals α) :
    (providers.foldl (service.visit snapshot) totals).weightedScore = totals.weightedScore +
        weightedTotal (effective service snapshot) (contributedScore snapshot) providers ∧
      (providers.foldl (service.visit snapshot) totals).effectiveWeightTotal =
        totals.effectiveWeightTotal + weightTotal (effective service snapshot) providers ∧
      (providers.foldl (service.visit snapshot) totals).weightedConfidence =
        totals.weightedConfidence + weightTotal (effective service snapshot) providers := by
  induction providers generalizing totals with
  | nil => simp [weightTotal, weightedTotal]
  | cons provider rest ih =>
    obtain ⟨hscore, hweight, hconfidence⟩ := visit_sums service snapshot totals provider
    obtain ⟨ihscore, ihweight, ihconfidence⟩ := ih (service.visit snapshot totals provider)
    rw [List.foldl_cons, ihscore, ihweight, ihconfidence, hscore, hweight, hconfidence]
    simp [add_assoc]

/-- **The accumulators are sums over the providers.** -/
theorem totals_sums : (service.totals snapshot).weightedScore = scoreTotal service snapshot ∧
    (service.totals snapshot).effectiveWeightTotal = effectiveTotal service snapshot ∧
    (service.totals snapshot).weightedConfidence = effectiveTotal service snapshot := by
  have hsums := foldl_visit_sums service snapshot service.providers {}
  simpa [MarketSentimentService.totals, scoreTotal, effectiveTotal] using hsums

end Sums

/-! ## Bounds of the sums -/

section Bounds

variable [IsStrictOrderedRing α]

/-- A weight is not negative, nor is the one of a provider that has none configured. -/
theorem weights_get_nonneg (weights : SentimentWeights α) (name : String) :
    0 ≤ weights.get name := by
  unfold SentimentWeights.get
  cases hlookup : weights.values.lookup name with
  | none => simp
  | some weight => exact weights.weights_nonneg name weight hlookup

variable (service : MarketSentimentService α Snapshot) (snapshot : Snapshot)

/-- The effective weight is between nothing and the configured weight. -/
theorem effective_mem (provider : IndicatorProvider α Snapshot) :
    0 ≤ effective service snapshot provider ∧
      effective service snapshot provider ≤ service.weight provider := by
  have hweight : 0 ≤ service.weight provider := weights_get_nonneg _ _
  unfold effective
  cases provider.evaluate snapshot with
  | none => exact ⟨le_rfl, hweight⟩
  | some contribution =>
    exact ⟨mul_nonneg hweight contribution.confidence_nonneg,
      mul_le_of_le_one_right hweight contribution.confidence_le⟩

/-- The effective weights do not add up to less than zero. -/
theorem effectiveTotal_nonneg : 0 ≤ effectiveTotal service snapshot :=
  weightTotal_nonneg fun provider _ => (effective_mem service snapshot provider).1

/-- The effective weights add up to at most the configured ones. -/
theorem effectiveTotal_le : effectiveTotal service snapshot ≤ service.configuredWeightTotal :=
  List.sum_le_sum fun provider _ => (effective_mem service snapshot provider).2

/-- A contributed score is between 0 and 100. -/
theorem contributedScore_mem (provider : IndicatorProvider α Snapshot) :
    0 ≤ contributedScore snapshot provider ∧ contributedScore snapshot provider ≤ 100 := by
  unfold contributedScore
  cases provider.evaluate snapshot with
  | none => simp
  | some contribution => exact ⟨contribution.score_nonneg, contribution.score_le⟩

/-- **The mean is between the bounds of the scores with effective weight.** -/
theorem scoreMean_mem {low high : α} (hpos : 0 < effectiveTotal service snapshot)
    (hbounds : ∀ provider ∈ service.providers, 0 < effective service snapshot provider →
      low ≤ contributedScore snapshot provider ∧ contributedScore snapshot provider ≤ high) :
    low ≤ scoreTotal service snapshot / effectiveTotal service snapshot ∧
      scoreTotal service snapshot / effectiveTotal service snapshot ≤ high :=
  mean_mem (fun provider _ => (effective_mem service snapshot provider).1) hpos
    (fun provider hmem heff => (hbounds provider hmem heff).1)
    fun provider hmem heff => (hbounds provider hmem heff).2

end Bounds

/-! ## The result as a function of the sums -/

section Result

/-- A sentiment whose fields are in their bounds is built. -/
theorem build_ok {score : ℤ} {confidence : α} {reasons : List String}
    (hscore : 0 ≤ score ∧ score ≤ 100) (hconfidence : 0 ≤ confidence ∧ confidence ≤ 1) :
    ∃ sentiment : MarketSentiment α,
      MarketSentiment.build score (sentimentStateForScore score) confidence reasons =
        .ok sentiment ∧ sentiment.score = score ∧ sentiment.confidence = confidence := by
  have hvalid : (0 ≤ score ∧ score ≤ 100) ∧ (0 ≤ confidence ∧ confidence ≤ 1) ∧
      sentimentStateForScore score = sentimentStateForScore score :=
    ⟨hscore, hconfidence, rfl⟩
  rw [MarketSentiment.build, dif_pos hvalid]
  exact ⟨_, rfl, rfl, rfl⟩

variable [FloorRing α]

/-- The score that the sums of weighted scores and of effective weights give. -/
def scoreOf (scores effectiveWeights : α) : ℤ :=
  if effectiveWeights = 0 then 50 else halfEven (scores / effectiveWeights)

/-- The confidence that the effective and the configured weight give. -/
def confidenceOf (effectiveWeights configured : α) : α :=
  if effectiveWeights = 0 then 0
  else MarketSentimentService.roundCents (effectiveWeights / configured)

variable [IsStrictOrderedRing α]

theorem roundCents_mono {a b : α} (h : a ≤ b) :
    MarketSentimentService.roundCents a ≤ MarketSentimentService.roundCents b := by
  unfold MarketSentimentService.roundCents
  have hcents : (halfEven (a * 100) : α) ≤ halfEven (b * 100) := by
    exact_mod_cast halfEven_mono (mul_le_mul_of_nonneg_right h (by norm_num))
  exact div_le_div_of_nonneg_right hcents (by norm_num)

/-- Rounding to cents stays between 0 and 1. -/
theorem roundCents_mem {a : α} (hnonneg : 0 ≤ a) (hle : a ≤ 1) :
    0 ≤ MarketSentimentService.roundCents a ∧ MarketSentimentService.roundCents a ≤ 1 := by
  have hzero : MarketSentimentService.roundCents (0 : α) = 0 := by
    have hround : halfEven (0 : α) = 0 := by exact_mod_cast @halfEven_intCast α _ _ _ _ 0
    simp [MarketSentimentService.roundCents, hround]
  have hone : MarketSentimentService.roundCents (1 : α) = 1 := by
    have hround : halfEven (100 : α) = 100 := by exact_mod_cast @halfEven_intCast α _ _ _ _ 100
    simp [MarketSentimentService.roundCents, hround]
  exact ⟨hzero ▸ roundCents_mono hnonneg, hone ▸ roundCents_mono hle⟩

/-- **`classify` returns, and its result is a function of the sums.** -/
theorem classify_ok (service : MarketSentimentService α Snapshot) (snapshot : Snapshot) :
    ∃ sentiment, service.classify snapshot = .ok sentiment ∧
      sentiment.score =
        scoreOf (scoreTotal service snapshot) (effectiveTotal service snapshot) ∧
      sentiment.confidence =
        confidenceOf (effectiveTotal service snapshot) service.configuredWeightTotal := by
  obtain ⟨hscore, hweight, hconfidence⟩ := totals_sums service snapshot
  unfold MarketSentimentService.classify
  simp only [hscore, hweight, hconfidence]
  by_cases hzero : effectiveTotal service snapshot = 0
  · simp only [hzero, ↓reduceIte, scoreOf, confidenceOf]
    exact build_ok ⟨by norm_num, by norm_num⟩ ⟨le_rfl, zero_le_one⟩
  · have hpos : 0 < effectiveTotal service snapshot :=
      lt_of_le_of_ne (effectiveTotal_nonneg service snapshot) (Ne.symm hzero)
    have hle := effectiveTotal_le service snapshot
    have hconfigured : 0 < service.configuredWeightTotal := lt_of_lt_of_le hpos hle
    obtain ⟨hlow, hhigh⟩ := scoreMean_mem service snapshot hpos fun provider _ _ =>
      contributedScore_mem snapshot provider
    simp only [hzero, hconfigured.ne', ↓reduceIte, divide, scoreOf, confidenceOf, bind,
      Except.bind]
    exact build_ok (halfEven_bounds (by exact_mod_cast hlow) (by exact_mod_cast hhigh))
      (roundCents_mem (div_nonneg hpos.le hconfigured.le) ((div_le_one hconfigured).mpr hle))

/-- What is built has the score and the confidence of the sums. -/
theorem classify_sums {service : MarketSentimentService α Snapshot} {snapshot : Snapshot}
    {sentiment : MarketSentiment α} (h : service.classify snapshot = .ok sentiment) :
    sentiment.score = scoreOf (scoreTotal service snapshot) (effectiveTotal service snapshot) ∧
      sentiment.confidence =
        confidenceOf (effectiveTotal service snapshot) service.configuredWeightTotal := by
  obtain ⟨_, hclassify, hsums⟩ := classify_ok service snapshot
  rw [h] at hclassify
  cases hclassify
  exact hsums

/-- The score does not change with the configured weight, and the confidence falls with it. -/
theorem classify_of_sums {service other : MarketSentimentService α Snapshot}
    {snapshot : Snapshot} {sentiment : MarketSentiment α}
    (h : service.classify snapshot = .ok sentiment)
    (heffective : effectiveTotal other snapshot = effectiveTotal service snapshot)
    (hscores : scoreTotal other snapshot = scoreTotal service snapshot)
    (hconfigured : service.configuredWeightTotal ≤ other.configuredWeightTotal) :
    ∃ result, other.classify snapshot = .ok result ∧ result.score = sentiment.score ∧
      result.state = sentiment.state ∧ result.confidence ≤ sentiment.confidence := by
  obtain ⟨hscore, hconfidence⟩ := classify_sums h
  obtain ⟨result, hresult, hscore', hconfidence'⟩ := classify_ok other snapshot
  have hsame : result.score = sentiment.score := by
    rw [hscore', hscore, heffective, hscores]
  refine ⟨result, hresult, hsame, ?_, ?_⟩
  · rw [result.state_matches_score, sentiment.state_matches_score, hsame]
  · rw [hconfidence', hconfidence, heffective, confidenceOf, confidenceOf]
    split
    · exact le_rfl
    · rename_i hzero
      have hnonneg := effectiveTotal_nonneg service snapshot
      have hpos : 0 < service.configuredWeightTotal :=
        lt_of_lt_of_le (lt_of_le_of_ne hnonneg (Ne.symm hzero))
          (effectiveTotal_le service snapshot)
      exact roundCents_mono (div_le_div_of_nonneg_left hnonneg hpos hconfigured)

end Result

/-! ## Changes of the providers -/

section Changes

/-- The scores of the contributions with positive weight and confidence. -/
def countedScores (service : MarketSentimentService α Snapshot) (snapshot : Snapshot) : List α :=
  service.providers.filterMap fun provider =>
    (provider.evaluate snapshot).bind fun contribution =>
      if 0 < service.weight provider ∧ 0 < contribution.confidence then
        some contribution.score
      else none

/-- A provider whose contribution has no confidence abstains in `other`. -/
def Silences (service other : MarketSentimentService α Snapshot) (snapshot : Snapshot) : Prop :=
  other.weights = service.weights ∧ ∃ before provider silent after contribution,
    service.providers = before ++ provider :: after ∧
    other.providers = before ++ silent :: after ∧
    silent.name = provider.name ∧
    provider.evaluate snapshot = some contribution ∧ contribution.confidence = 0 ∧
    silent.evaluate snapshot = none

/-- `other` has one more provider, which abstains. -/
def Joins (service other : MarketSentimentService α Snapshot) (snapshot : Snapshot) : Prop :=
  other.weights = service.weights ∧ ∃ before silent after,
    service.providers = before ++ after ∧ other.providers = before ++ silent :: after ∧
    silent.evaluate snapshot = none

variable {service other : MarketSentimentService α Snapshot} {snapshot : Snapshot}

/-- Under the same weights a provider weighs the same. -/
theorem weight_congr (h : other.weights = service.weights) : other.weight = service.weight := by
  funext provider
  rw [MarketSentimentService.weight, h, MarketSentimentService.weight]

/-- Under the same weights a provider has the same effective weight. -/
theorem effective_congr (h : other.weights = service.weights) :
    effective other snapshot = effective service snapshot := by
  funext provider
  rw [effective, weight_congr h, effective]

/-- A provider that abstains has no effective weight. -/
theorem effective_of_none {provider : IndicatorProvider α Snapshot}
    (h : provider.evaluate snapshot = none) : effective service snapshot provider = 0 := by
  rw [effective, h]

/-- The order of the providers does not change the sums. -/
theorem sums_of_perm (hweights : other.weights = service.weights)
    (hperm : other.providers.Perm service.providers) :
    effectiveTotal other snapshot = effectiveTotal service snapshot ∧
      scoreTotal other snapshot = scoreTotal service snapshot ∧
      other.configuredWeightTotal = service.configuredWeightTotal := by
  refine ⟨?_, ?_, ?_⟩
  · rw [effectiveTotal, effective_congr hweights]
    exact weightTotal_perm hperm
  · rw [scoreTotal, effective_congr hweights]
    exact weightedTotal_perm hperm
  · rw [MarketSentimentService.configuredWeightTotal, weight_congr hweights]
    exact (hperm.map _).sum_eq

/-- A provider without confidence may as well abstain. -/
theorem sums_of_silences (h : Silences service other snapshot) :
    effectiveTotal other snapshot = effectiveTotal service snapshot ∧
      scoreTotal other snapshot = scoreTotal service snapshot ∧
      other.configuredWeightTotal = service.configuredWeightTotal := by
  obtain ⟨hweights, before, provider, silent, after, contribution, hproviders, hother, hname,
    hevaluate, hconfidence, hnone⟩ := h
  have hprovider : effective service snapshot provider = 0 := by
    simp [effective, hevaluate, hconfidence]
  have hsilent : effective service snapshot silent = 0 := effective_of_none hnone
  have hweight : service.weight silent = service.weight provider := by
    rw [MarketSentimentService.weight, hname, MarketSentimentService.weight]
  refine ⟨?_, ?_, ?_⟩
  · simp [effectiveTotal, effective_congr hweights, hproviders, hother, hprovider, hsilent]
  · simp [scoreTotal, effective_congr hweights, hproviders, hother, hprovider, hsilent]
  · simp [MarketSentimentService.configuredWeightTotal, weight_congr hweights, hproviders,
      hother, hweight]

variable [IsStrictOrderedRing α]

/-- A provider more that abstains only adds to the configured weight. -/
theorem sums_of_joins (h : Joins service other snapshot) :
    effectiveTotal other snapshot = effectiveTotal service snapshot ∧
      scoreTotal other snapshot = scoreTotal service snapshot ∧
      service.configuredWeightTotal ≤ other.configuredWeightTotal := by
  obtain ⟨hweights, before, silent, after, hproviders, hother, hnone⟩ := h
  have hsilent : effective service snapshot silent = 0 := effective_of_none hnone
  have hweight : 0 ≤ service.weight silent := weights_get_nonneg _ _
  refine ⟨?_, ?_, ?_⟩
  · simp [effectiveTotal, effective_congr hweights, hproviders, hother, hsilent]
  · simp [scoreTotal, effective_congr hweights, hproviders, hother, hsilent]
  · simp [MarketSentimentService.configuredWeightTotal, weight_congr hweights, hproviders,
      hother, hweight]

/-- The counted scores are those of the providers with effective weight. -/
theorem mem_countedScores {score : α} : score ∈ countedScores service snapshot ↔
    ∃ provider ∈ service.providers, 0 < effective service snapshot provider ∧
      contributedScore snapshot provider = score := by
  simp only [countedScores, List.mem_filterMap]
  refine exists_congr fun provider => and_congr_right fun _ => ?_
  have hweight : 0 ≤ service.weight provider := weights_get_nonneg _ _
  cases hevaluate : provider.evaluate snapshot with
  | none => simp [effective, hevaluate]
  | some contribution =>
    have hconfidence := contribution.confidence_nonneg
    have hpos : 0 < service.weight provider * contribution.confidence ↔
        0 < service.weight provider ∧ 0 < contribution.confidence := by
      constructor
      · intro h
        exact ⟨pos_of_mul_pos_left h hconfidence, pos_of_mul_pos_right h hweight⟩
      · rintro ⟨hw, hc⟩
        exact mul_pos hw hc
    simp [effective, contributedScore, hevaluate, hpos]

/-- Where a score counts there is effective weight. -/
theorem effectiveTotal_pos (h : countedScores service snapshot ≠ []) :
    0 < effectiveTotal service snapshot := by
  obtain ⟨score, hscore⟩ := List.exists_mem_of_ne_nil _ h
  obtain ⟨provider, hmem, hpos, _⟩ := mem_countedScores.mp hscore
  refine lt_of_le_of_ne (effectiveTotal_nonneg service snapshot) fun hzero => ?_
  have hall := (weightTotal_eq_zero_iff fun provider _ =>
    (effective_mem service snapshot provider).1).mp hzero.symm
  exact hpos.ne' (hall provider hmem)

variable [FloorRing α]

/-- **The score is between the rounded bounds of the counted scores.** -/
theorem score_between {sentiment : MarketSentiment α}
    (h : service.classify snapshot = .ok sentiment)
    (hcounted : countedScores service snapshot ≠ []) {low high : α}
    (hbounds : ∀ score ∈ countedScores service snapshot, low ≤ score ∧ score ≤ high) :
    halfEven low ≤ sentiment.score ∧ sentiment.score ≤ halfEven high := by
  obtain ⟨hscore, _⟩ := classify_sums h
  have hpos := effectiveTotal_pos hcounted
  obtain ⟨hlow, hhigh⟩ := scoreMean_mem service snapshot hpos fun provider hmem heff =>
    hbounds _ (mem_countedScores.mpr ⟨provider, hmem, heff, rfl⟩)
  rw [hscore, scoreOf, if_neg hpos.ne']
  exact ⟨halfEven_mono hlow, halfEven_mono hhigh⟩

end Changes

/-- **Sentiment aggregation is a well-behaved weighted mean.**  `classify` always returns, so it
divides by no zero and what it builds is valid.  Where scores count, the result lies between
the rounded smallest and the rounded largest of them.  Score, state and confidence do not
depend on the order of the providers.  A provider without confidence that abstains, or one
more that abstains, leaves the score and does not raise the confidence. -/
theorem sentiment_weighted_mean [IsStrictOrderedRing α] [FloorRing α]
    (service : MarketSentimentService α Snapshot) (snapshot : Snapshot) :
    ∃ sentiment, service.classify snapshot = .ok sentiment ∧
      (countedScores service snapshot ≠ [] →
        ∃ low ∈ countedScores service snapshot, ∃ high ∈ countedScores service snapshot,
          (∀ score ∈ countedScores service snapshot, low ≤ score ∧ score ≤ high) ∧
          halfEven low ≤ sentiment.score ∧ sentiment.score ≤ halfEven high) ∧
      (∀ other : MarketSentimentService α Snapshot, other.weights = service.weights →
        other.providers.Perm service.providers →
        ∃ result, other.classify snapshot = .ok result ∧ result.score = sentiment.score ∧
          result.state = sentiment.state ∧ result.confidence = sentiment.confidence) ∧
      ∀ other : MarketSentimentService α Snapshot,
        Silences service other snapshot ∨ Joins service other snapshot →
        ∃ result, other.classify snapshot = .ok result ∧ result.score = sentiment.score ∧
          result.confidence ≤ sentiment.confidence := by
  obtain ⟨sentiment, hclassify, _⟩ := classify_ok service snapshot
  refine ⟨sentiment, hclassify, ?_, ?_, ?_⟩
  · intro hcounted
    have hnonempty : (countedScores service snapshot).toFinset.Nonempty :=
      List.toFinset_nonempty_iff _ |>.mpr hcounted
    obtain ⟨low, hlow, hleast⟩ := Finset.exists_min_image _ id hnonempty
    obtain ⟨high, hhigh, hgreatest⟩ := Finset.exists_max_image _ id hnonempty
    have hbounds : ∀ score ∈ countedScores service snapshot, low ≤ score ∧ score ≤ high :=
      fun score hmem => ⟨hleast score (List.mem_toFinset.mpr hmem),
        hgreatest score (List.mem_toFinset.mpr hmem)⟩
    exact ⟨low, List.mem_toFinset.mp hlow, high, List.mem_toFinset.mp hhigh, hbounds,
      score_between hclassify hcounted hbounds⟩
  · intro other hweights hperm
    obtain ⟨heffective, hscores, hconfigured⟩ :=
      @sums_of_perm _ _ _ _ service other snapshot hweights hperm
    obtain ⟨result, hresult, hsame, hstate, hle⟩ :=
      classify_of_sums hclassify heffective hscores hconfigured.ge
    -- and back, so neither confidence is above the other
    obtain ⟨_, hback, _, _, hge⟩ :=
      classify_of_sums hresult heffective.symm hscores.symm hconfigured.le
    rw [hclassify] at hback
    cases hback
    exact ⟨result, hresult, hsame, hstate, hle.antisymm hge⟩
  · intro other hchange
    have hsums : effectiveTotal other snapshot = effectiveTotal service snapshot ∧
        scoreTotal other snapshot = scoreTotal service snapshot ∧
        service.configuredWeightTotal ≤ other.configuredWeightTotal := by
      cases hchange with
      | inl hsilences =>
        obtain ⟨heffective, hscores, hconfigured⟩ := sums_of_silences hsilences
        exact ⟨heffective, hscores, hconfigured.ge⟩
      | inr hjoins => exact sums_of_joins hjoins
    obtain ⟨result, hresult, hsame, _, hle⟩ :=
      classify_of_sums hclassify hsums.1 hsums.2.1 hsums.2.2
    exact ⟨result, hresult, hsame, hle⟩

/-- An overbought market without a trend, and no opinion of the volume. -/
def overbought : MarketSentimentService ℚ Unit where
  providers := [
    { name := "rsi"
      evaluate := fun _ => some {
        indicator := "rsi", score := 80, confidence := 9 / 10,
        reason := "RSI(14) is overbought at 80.0", indicator_ne := by decide,
        score_nonneg := by decide +kernel, score_le := by decide +kernel,
        confidence_nonneg := by decide +kernel, confidence_le := by decide +kernel,
        reason_ne := by decide } },
    { name := "ema_trend"
      evaluate := fun _ => some {
        indicator := "trend", score := 50, confidence := 1 / 2,
        reason := "EMA20 and EMA50 do not agree", indicator_ne := by decide,
        score_nonneg := by decide +kernel, score_le := by decide +kernel,
        confidence_nonneg := by decide +kernel, confidence_le := by decide +kernel,
        reason_ne := by decide } },
    { name := "volume", evaluate := fun _ => none }]
  weights := .default
  names_nodup := by decide +kernel

/-- The score lies between those of the two providers that have one. -/
theorem overbought_scores_between :
    ∃ sentiment, overbought.classify () = .ok sentiment ∧
      50 ≤ sentiment.score ∧ sentiment.score ≤ 80 := by
  have hcounted : countedScores overbought () = [80, 50] := by
    have hrsi : (SentimentWeights.default : SentimentWeights ℚ).get "rsi" = 1 := by rfl
    have htrend : (SentimentWeights.default : SentimentWeights ℚ).get "ema_trend" = 5 / 4 := by
      rfl
    simp [countedScores, overbought, MarketSentimentService.weight, hrsi, htrend]
  obtain ⟨sentiment, hclassify, hbetween, _⟩ := sentiment_weighted_mean overbought ()
  obtain ⟨low, hlow, high, hhigh, hbounds, hscore⟩ := hbetween (by simp [hcounted])
  have hround (n : ℤ) : halfEven (n : ℚ) = n := @halfEven_intCast ℚ _ _ _ _ n
  have hround50 : halfEven (50 : ℚ) = 50 := by exact_mod_cast hround 50
  have hround80 : halfEven (80 : ℚ) = 80 := by exact_mod_cast hround 80
  rw [hcounted] at hlow hhigh hbounds
  obtain ⟨hlow80, hhigh80⟩ := hbounds 80 List.mem_cons_self
  obtain ⟨hlow50, hhigh50⟩ := hbounds 50 (List.mem_cons_of_mem _ List.mem_cons_self)
  have hleast : low = 50 := by
    rcases List.mem_cons.mp hlow with rfl | hlow
    · exact absurd hlow50 (by decide +kernel)
    · exact List.mem_singleton.mp hlow
  have hgreatest : high = 80 := by
    rcases List.mem_cons.mp hhigh with hhigh | hhigh
    · exact hhigh
    · rw [List.mem_singleton.mp hhigh] at hhigh80
      exact absurd hhigh80 (by decide +kernel)
  rw [hleast, hgreatest, hround50, hround80] at hscore
  exact ⟨sentiment, hclassify, hscore⟩

end TradeMind.Analysis
