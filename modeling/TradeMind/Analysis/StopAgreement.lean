import Mathlib.Tactic.Linarith
import Mathlib.Tactic.Ring
import TradeMind.Analysis.LedgerCalls
import TradeMind.Model.ExternalStrategy
import TradeMind.Model.ProcessSignal

/-!
# The backtest stop against the live stop

The ledger keeps the stop of an entry as the risk engine priced it, from the signal's price;
a live trade derives its stop from the fill.  `backtest_stop_iff` says for which fills and
peaks the two are one.
-/

set_option autoImplicit false

namespace TradeMind.Analysis

open TradeMind.Model TradeMind.Model.Backtest

/-! ## The two stops in closed form -/

/-- The live stop of a trade whose tag carries a distance within the static bound. -/
theorem stopRate_slpct (float : String → Option ℚ) {fill peak d : ℚ} (hd0 : 0 < d)
    (hd : d ≤ 8 / 100) :
    Strategy.stopRate float { enterTag := some (.slpct d), openRate := fill, maxRate := peak } =
      some (if TrailingActive fill peak then
        max (fill * (1 - d)) (peak * (1 - trailingDistancePct)) else fill * (1 - d)) := by
  have hbound : d ≤ |Strategy.stoploss| := by
    rw [Strategy.stoploss, abs_of_neg (by norm_num)]
    linarith
  simp only [Strategy.stopRate, Strategy.taggedStopRate, hd0, hbound, and_self, if_true]
  rfl

/-- The tag of an entry carries back the distance its stop was priced with. -/
theorem entryTagOf_stop {signal : Signal} {d : ℚ} (hs : 0 < signal.price) :
    entryTagOf signal (some (signal.price * (1 - d))) = some (.slpct d) := by
  have hd : 1 - signal.price * (1 - d) / signal.price = d := by
    rw [mul_div_cancel_left₀ _ hs.ne']
    ring
  simp only [entryTagOf, hs, if_true, hd]

/-- **The entry the ledger keeps.**  It is filled at the fill price, with the stop the risk
engine priced from the signal. -/
theorem applyEntry_position {ledger ledger' : Ledger} {symbol : Symbol} {view : SignalView}
    {config : RiskConfig} {now : Time} {fill : ℚ} {result : RiskDecisionResult}
    {position : SimPosition}
    (h : ledger.applyEntry symbol view config now fill = some (ledger', result, some position)) :
    let d := clamp (view.atr14 / view.price * config.atrStopMultiplier)
      config.minStopLossPct config.maxStopLossPct
    result.stopLossPrice = some (view.price * (1 - d)) ∧
      position.entryPrice = fill ∧ position.stopLossPrice = view.price * (1 - d) := by
  cases applyEntry_outcome h with
  | entered sized hsizing hadmits =>
    obtain ⟨hprice, hdistance⟩ := computeSizing_stop hsizing
    have hstop : sized.stopLossPrice = view.price * (1 - clamp (view.atr14 / view.price *
        config.atrStopMultiplier) config.minStopLossPct config.maxStopLossPct) := by
      rw [hprice, hdistance]
      rfl
    exact ⟨congrArg some hstop, rfl, hstop⟩

/-! ## When they agree -/

/-- The floors agree without a trailing stop exactly at equal prices, or where the fill is not
below the signal and the distance is the static bound. -/
theorem floors_eq_iff {s f d : ℚ} (hf : 0 < f) (hd : d ≤ 8 / 100) :
    max (s * (1 - d)) (f * (1 + staticStoplossPct)) = f * (1 - d) ↔
      s = f ∨ d = 8 / 100 ∧ s ≤ f := by
  have hrest : 0 < 1 - d := by linarith
  have hfloor : f * (1 + staticStoplossPct) ≤ f * (1 - d) := by
    apply mul_le_mul_of_nonneg_left _ hf.le
    rw [staticStoplossPct]
    linarith
  constructor
  · intro h
    rcases max_choice (s * (1 - d)) (f * (1 + staticStoplossPct)) with hs | hstatic
    · rw [hs] at h
      exact .inl (mul_right_cancel₀ hrest.ne' h)
    · rw [hstatic] at h
      have hd' : d = 8 / 100 := by
        have := mul_left_cancel₀ hf.ne' h
        rw [staticStoplossPct] at this
        linarith
      have hle : s * (1 - d) ≤ f * (1 - d) := by
        rw [← h, ← hstatic]
        exact le_max_left _ _
      exact .inr ⟨hd', le_of_mul_le_mul_right hle hrest⟩
  · rintro (rfl | ⟨rfl, hle⟩)
    · exact max_eq_left hfloor
    · have hs : s * (1 - 8 / 100) ≤ f * (1 + staticStoplossPct) := by
        rw [staticStoplossPct]
        linarith
      rw [max_eq_right hs, staticStoplossPct]
      ring

/-- An active trailing stop lies above the live floor. -/
theorem trailing_above {f d p : ℚ} (hf : 0 < f) (hd0 : 0 < d) (hactive : TrailingActive f p) :
    f * (1 - d) ≤ p * (1 - trailingDistancePct) := by
  have hpeak : f * (2 / 100) ≤ p - f := by
    rw [mul_comm]
    exact (le_div_iff₀ hf).mp hactive
  have hfloor : f * (1 - d) ≤ f := by
    have : 0 < f * d := mul_pos hf hd0
    linarith
  rw [trailingDistancePct]
  linarith

/-- **The two stops agree** exactly where the fill is the signal's price, where the distance
is the static bound and the fill is not below the signal, or where an active trailing stop lies
above the signal's stop. -/
theorem stops_eq_iff {s f d p : ℚ} (hf : 0 < f) (hd0 : 0 < d) (hd : d ≤ 8 / 100) :
    (if TrailingActive f p then
        max (max (s * (1 - d)) (f * (1 + staticStoplossPct))) (p * (1 - trailingDistancePct))
      else max (s * (1 - d)) (f * (1 + staticStoplossPct))) =
        (if TrailingActive f p then max (f * (1 - d)) (p * (1 - trailingDistancePct))
          else f * (1 - d)) ↔
      s = f ∨ (d = 8 / 100 ∧ s ≤ f) ∨
        TrailingActive f p ∧ s * (1 - d) ≤ p * (1 - trailingDistancePct) := by
  have hrest : 0 < 1 - d := by linarith
  by_cases hactive : TrailingActive f p
  · have hlive := trailing_above hf hd0 hactive
    have hstatic : f * (1 + staticStoplossPct) ≤ p * (1 - trailingDistancePct) := by
      apply le_trans _ hlive
      apply mul_le_mul_of_nonneg_left _ hf.le
      rw [staticStoplossPct]
      linarith
    rw [if_pos hactive, if_pos hactive, max_eq_right hlive, max_eq_right_iff, max_le_iff]
    constructor
    · intro h
      exact .inr (.inr ⟨hactive, h.1⟩)
    · intro h
      refine ⟨?_, hstatic⟩
      rcases h with rfl | ⟨_, hle⟩ | ⟨_, hle⟩
      · exact hlive
      · exact (mul_le_mul_of_nonneg_right hle hrest.le).trans hlive
      · exact hle
  · rw [if_neg hactive, if_neg hactive, floors_eq_iff hf hd]
    simp [hactive]

/-- **When the backtest stop is the live stop**: for every approved entry and every peak, at
the fill or above it. -/
theorem backtest_stop_iff (ledger ledger' : Ledger) (symbol : Symbol) (signal : Signal)
    (config : RiskConfig) (now : Time) (fill : ℚ) (result : RiskDecisionResult)
    (position : SimPosition) (float : String → Option ℚ) (peak : ℚ)
    (hentry : ledger.applyEntry symbol signal.view config now fill =
      some (ledger', result, some position))
    (hprice : 0 < signal.price) (hfill : 0 < fill)
    (hd0 : 0 < clamp (signal.atr14 / signal.price * config.atrStopMultiplier)
      config.minStopLossPct config.maxStopLossPct)
    (hd : clamp (signal.atr14 / signal.price * config.atrStopMultiplier)
      config.minStopLossPct config.maxStopLossPct ≤ 8 / 100) :
    let d := clamp (signal.atr14 / signal.price * config.atrStopMultiplier)
      config.minStopLossPct config.maxStopLossPct
    some { position with peakPrice := peak }.effectiveStop.1 =
        Strategy.stopRate float
          { enterTag := entryTagOf signal result.stopLossPrice
            openRate := fill
            maxRate := peak } ↔
      signal.price = fill ∨ (d = 8 / 100 ∧ signal.price ≤ fill) ∨
        TrailingActive fill peak ∧
          signal.price * (1 - d) ≤ peak * (1 - trailingDistancePct) := by
  intro d
  obtain ⟨hstop, hentryPrice, hkept⟩ := applyEntry_position hentry
  have htag : entryTagOf signal result.stopLossPrice = some (.slpct d) := by
    rw [hstop]
    exact entryTagOf_stop hprice
  rw [htag, stopRate_slpct float hd0 hd, effectiveStop_eq, Option.some.injEq]
  simp only [hentryPrice, hkept]
  exact stops_eq_iff hfill hd0 hd

/-- A `BUY` at 100 with a stop distance of four percent. -/
def gapSignal : Signal :=
  { id := 1, traceId := 1, symbol := "BTC/USDT", candleTs := 0, action := .BUY,
    confidence := 9 / 10, price := 100, atr14 := 2 }

/-- The entry of `gapSignal` in a fresh ledger, filled at `fill`. -/
def gapEntry (fill : ℚ) : Option (Ledger × RiskDecisionResult × Option SimPosition) :=
  ({ startingEquityUsdt := 10000 } : Ledger).applyEntry "BTC/USDT" gapSignal.view {} 0 fill

/-- A fill at the signal's price. -/
theorem backtest_stop_iff_at_signal_price :
    ∃ ledger result position, gapEntry 100 = some (ledger, result, some position) ∧
      (some { position with peakPrice := 105 }.effectiveStop.1 =
          Strategy.stopRate (fun _ => none)
            { enterTag := entryTagOf gapSignal result.stopLossPrice
              openRate := 100
              maxRate := 105 } ↔
        (100 : ℚ) = 100 ∨ (clamp (2 / 100 * 2) (15 / 1000) (8 / 100) = 8 / 100 ∧
            (100 : ℚ) ≤ 100) ∨
          TrailingActive 100 105 ∧
            100 * (1 - clamp (2 / 100 * 2) (15 / 1000) (8 / 100)) ≤
              105 * (1 - trailingDistancePct)) := by
  have hfilled : ((gapEntry 100).bind fun out => out.2.2).isSome = true := by decide +kernel
  match hentry : gapEntry 100 with
  | none =>
    rw [hentry] at hfilled
    cases hfilled
  | some (ledger, result, none) =>
    rw [hentry] at hfilled
    cases hfilled
  | some (ledger, result, some position) =>
    exact ⟨ledger, result, position, rfl,
      backtest_stop_iff _ ledger "BTC/USDT" gapSignal {} 0 100 result position _ 105 hentry
        (by decide +kernel) (by decide +kernel) (by decide +kernel) (by decide +kernel)⟩

/-- Filled at 110, the ledger stops the entry at 101.2 and the live trade at 105.6. -/
theorem backtest_stop_differs :
    ((gapEntry 110).bind fun out => out.2.2.map fun position =>
      ({ position with peakPrice := 110 }.effectiveStop.1,
        Strategy.stopRate (fun _ => none)
          { enterTag := entryTagOf gapSignal out.2.1.stopLossPrice
            openRate := 110
            maxRate := 110 })) = some (506 / 5, some (528 / 5)) := by
  decide +kernel

end TradeMind.Analysis
