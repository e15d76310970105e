import TradeMind.Analysis.ReplayFills

/-!
# The ROI table in the historical replay

An exit at the price of a target earns that target.  An exit at the open earns the target of
the candle's close, which is lower where the table steps down inside the candle
(`roi_exits_honoured_iff`).
-/

set_option autoImplicit false

namespace TradeMind.Analysis

open TradeMind.Model TradeMind.Library TradeMind.Model.Replay

/-- The minutes a trade was open. -/
def tradeMinutes (trade : ReplayTrade) : ℚ := (trade.closedAt - trade.openedAt : ℤ) / 60000000

variable {config : ReplayConfig} {st st' : Simulator} {candle : Candle} {position : OpenPosition}

/-- A trade was open for the age of its position. -/
theorem closedTrade_minutes (symbol : Symbol) (closedAt : Time) (reference fill : ℚ)
    (reason : String) :
    tradeMinutes (closedTrade config position symbol closedAt reference fill reason) =
      ageMinutes position closedAt := rfl

/-- The net PnL of a trade is the net return at its exit price. -/
theorem closedTrade_netPnlPct {fill netReturn : ℚ}
    (h : netReturnAtPrice config position fill = some netReturn) (symbol : Symbol)
    (closedAt : Time) (reference : ℚ) (reason : String) :
    (closedTrade config position symbol closedAt reference fill reason).netPnlPct =
      netReturn := by
  rw [netReturnAtPrice_exact] at h
  split at h
  · cases h
  · rw [← Option.some.inj h]
    simp only [closedTrade, exitProceeds, OpenPosition.totalCost]
    congr 1
    ring

/-- **The price of a target earns it.** -/
theorem closedTrade_target (hbought : Bought config position) {target fill : ℚ}
    (hprice : priceForNetReturn config position target = some fill) (symbol : Symbol)
    (closedAt : Time) (reference : ℚ) (reason : String) :
    (closedTrade config position symbol closedAt reference fill reason).netPnlPct = target := by
  have hamount : position.amount ≠ 0 := by
    intro hzero
    simp [priceForNetReturn_exact, hzero] at hprice
  have hcost : position.totalCost ≠ 0 := by
    rw [hbought.totalCost_eq]
    exact mul_ne_zero hamount hbought.unitCost_pos.ne'
  have hnet : netReturnAtPrice config position fill =
      some ((position.amount * fill * (1 - config.feeRate) - position.totalCost) /
        position.totalCost) := if_neg hcost
  rw [closedTrade_netPnlPct hnet, (hbought.netReturn_eq hnet).2, hbought.price_eq hprice,
    mul_div_cancel_left₀ _ hbought.unitCost_pos.ne', add_sub_cancel_left]

/-- At the open of a candle, a position held beyond its stop returns what the ROI table asks at
the close, but not what it asks at the open. -/
def EarlyAtOpen (config : ReplayConfig) (candle : Candle) (position : OpenPosition) : Prop :=
  position.stopPrice < candle.low ∧ ∃ netReturn,
    netReturnAtPrice config position (openFill config candle) = some netReturn ∧
    roiTarget (ageMinutes position candle.closeTime) ≤ netReturn ∧
    netReturn < roiTarget (ageMinutes position candle.openTime)

/-- Every ROI exit of a run earned the target in force when it is recorded to have closed. -/
def RoiHonoured (config : ReplayConfig)
    (signalsByKey : Symbol → Time → Option SyntheticSignal) (ordered : List Candle) : Prop :=
  ∀ st candle st', RunStep config signalsByKey ordered st candle st' →
    ∀ trade ∈ newTrades st st', trade.exitReason = "roi" →
      roiTarget (tradeMinutes trade) ≤ trade.netPnlPct

/-- **A safety exit for the ROI** earns the target of its close time, unless it is early. -/
theorem SafetyExit.roi_honoured (hbought : Bought config position)
    (hearly : ¬EarlyAtOpen config candle position) {closedAt : Time} {reference fill : ℚ}
    {reason : String} (h : SafetyExit config candle position id closedAt reference fill reason)
    (hroi : reason = "roi") (symbol : Symbol) :
    roiTarget (ageMinutes position closedAt) ≤
      (closedTrade config position symbol closedAt reference fill reason).netPnlPct := by
  cases h with
  | stop _ => exact absurd hroi (by decide)
  | atOpen netReturn habove hnet hreached =>
    rw [closedTrade_netPnlPct hnet]
    by_contra hshort
    exact hearly ⟨habove, netReturn, hnet, hreached, not_le.mp hshort⟩
  | target netReturn fill _ _ _ hprice _ => exact (closedTrade_target hbought hprice _ _ _ _).ge

/-! ## The table honoured -/

/-- **The ROI table is honoured exactly when no exit is early**: at no candle does the position
held on its symbol return at the open what the table asks at the close but not what it asks at
the open. -/
theorem roi_exits_honoured_iff (config : ReplayConfig) (candles ordered : List Candle)
    (signals : List SyntheticSignal) (signalsByKey : Symbol → Time → Option SyntheticSignal)
    (hvalid : validateAndOrderCandles candles = some ordered)
    (hindex : indexSignals signals = some signalsByKey) :
    (RoiHonoured config signalsByKey ordered ↔
      ∀ st candle st' position, RunStep config signalsByKey ordered st candle st' →
        HeldAt config st candle position → ¬EarlyAtOpen config candle position) ∧
    ∀ result, run config candles signals = some result → ∀ trade ∈ result.trades,
      ∃ st candle st', RunStep config signalsByKey ordered st candle st' ∧
        trade ∈ newTrades st st' := by
  refine ⟨⟨?_, ?_⟩, fun result => result_closed_in_step hvalid hindex⟩
  · rintro hhonoured st candle st' position hstep hheld
      ⟨habove, netReturn, hnet, hreached, hshort⟩
    obtain ⟨_, -, -, hprocess⟩ := id hstep
    have hmem := safetyExit_mem hprocess hheld (.atOpen netReturn habove hnet hreached)
    have htarget := hhonoured st candle st' hstep _ hmem rfl
    rw [closedTrade_minutes, closedTrade_netPnlPct hnet] at htarget
    exact absurd htarget (not_le.mpr hshort)
  · intro hearly st candle st' hstep trade htrade hroi
    obtain ⟨_, -, hbefore, hprocess⟩ := id hstep
    cases closedBy_of_mem hprocess htrade with
    | signal position heq =>
      have hreason : trade.exitReason = "signal_exit" := heq ▸ rfl
      rw [hreason] at hroi
      exact absurd hroi (by decide)
    | safety position closedAt reference fill reason hheld hexit heq =>
      rw [heq] at hroi
      rw [heq, closedTrade_minutes]
      exact hexit.roi_honoured (hheld.bought (simulate_bought hbefore))
        (hearly st candle st' position hstep hheld) hroi candle.symbol

/-- Whether a position would be closed early at the open is computed from its net return there. -/
instance (config : ReplayConfig) (candle : Candle) (position : OpenPosition) :
    Decidable (EarlyAtOpen config candle position) :=
  decidable_of_iff (position.stopPrice < candle.low ∧
    ∃ netReturn ∈ (netReturnAtPrice config position (openFill config candle)).toList,
      roiTarget (ageMinutes position candle.closeTime) ≤ netReturn ∧
      netReturn < roiTarget (ageMinutes position candle.openTime)) <| by
    simp only [EarlyAtOpen, Option.mem_toList]

/-- The third hour of a market that opens where it was and climbs by six percent. -/
def climbedHour : Candle :=
  { firstHour with
    openTime := minutes 120
    closeTime := minutes 180
    high := 106
    times := thirdHour_times
    high_pos := by decide +kernel
    high_ge := by decide +kernel }

/-- The position of the second hour closes for its ROI inside the third, at the two percent that
the table asks after two hours. -/
theorem roi_exit_at_target :
    (run defaultReplay (steadyCandles ++ [climbedHour]) [buySignal "BTC/USDT" (minutes 60)]).map
        (fun result => result.trades.map fun trade => (trade.exitReason, trade.netPnlPct)) =
        some [("roi", 2 / 100)] ∧
      RoiHonoured defaultReplay firstHourSignals (steadyCandles ++ [climbedHour]) := by
  have hvalid : validateAndOrderCandles (steadyCandles ++ [climbedHour]) =
      some (steadyCandles ++ [climbedHour]) := by decide +kernel
  have hearly : ∀ held ∈ heldAlong defaultReplay firstHourSignals (steadyCandles ++ [climbedHour]),
      ¬EarlyAtOpen defaultReplay held.1 held.2 := by decide +kernel
  refine ⟨by decide +kernel, ?_⟩
  exact (roi_exits_honoured_iff defaultReplay _ _ [buySignal "BTC/USDT" (minutes 60)]
    firstHourSignals hvalid firstHourSignals_indexed).1.mpr
      fun st candle st' position hstep hheld => hearly _ (hheld.mem_heldAlong hstep)

/-- The third hour of a market that has risen by four percent. -/
def risenHour : Candle := hourCandle 2 104 (by decide +kernel)

/-- A position closes for its ROI after an hour, having earned less than the five percent the
table asks then. -/
theorem roi_exit_early :
    validateAndOrderCandles (steadyCandles ++ [risenHour]) =
        some (steadyCandles ++ [risenHour]) ∧
      ¬RoiHonoured defaultReplay firstHourSignals (steadyCandles ++ [risenHour]) := by
  refine ⟨by decide +kernel, fun hhonoured => ?_⟩
  have hrun : ((simulate defaultReplay firstHourSignals steadyCandles).bind fun st =>
      (processCandle defaultReplay firstHourSignals st risenHour).map fun st' =>
        (newTrades st st').map fun trade =>
          decide (trade.exitReason = "roi" ∧ trade.netPnlPct < roiTarget (tradeMinutes trade))) =
        some [true] := by
    decide +kernel
  obtain ⟨st, hst, hnext⟩ := Option.bind_eq_some_iff.mp hrun
  obtain ⟨st', hprocess, hearly⟩ := Option.map_eq_some_iff.mp hnext
  obtain ⟨trade, htrade, hshort⟩ := List.mem_map.mp
    (hearly ▸ List.mem_singleton.mpr rfl : true ∈ (newTrades st st').map fun trade =>
      decide (trade.exitReason = "roi" ∧ trade.netPnlPct < roiTarget (tradeMinutes trade)))
  obtain ⟨hroi, hless⟩ := of_decide_eq_true hshort
  exact absurd (hhonoured st risenHour st' ⟨steadyCandles, List.prefix_refl _, hst, hprocess⟩
    trade htrade hroi) (not_le.mpr hless)

end TradeMind.Analysis
