import TradeMind.Analysis.ReplaySteps
import TradeMind.Analysis.ReportFigures
import TradeMind.Library.Drawdown
import TradeMind.Library.KeySort
import TradeMind.Model.BacktestReport

/-!
# The drawdown figures

Three loops compute a drawdown: the Performance Engine's and the offline backtest's over closed
trades, and the historical replay's over its equity curve.  Each finds the greatest decline of
the equity from its highest value so far (`drawdown_is_greatest_decline`).
-/

set_option autoImplicit false

namespace TradeMind.Analysis

open TradeMind.Model TradeMind.Library

/-- The equity after the first `j` of some trades. -/
def equityAfter (startingEquityUsdt : ℚ) (trades : List ClosedTradeMetrics) (j : ℕ) : ℚ :=
  startingEquityUsdt + ((trades.take j).map ClosedTradeMetrics.pnlUsdt).sum

/-- The starting equity of a replay, and then its curve. -/
def curveEquity (config : Replay.ReplayConfig) (curve : List Replay.EquityPoint) (j : ℕ) : ℚ :=
  (config.startingEquityUsdt :: curve.map Replay.EquityPoint.equityUsdt).getD j 0

/-! ## The Performance Engine -/

/-- The trades in the order of their closes; of two that close together, the first given is the
first. -/
def closeOrder (trades : List ClosedTradeMetrics) : List ClosedTradeMetrics :=
  sortBy ClosedTradeMetrics.closedAt trades

/-- There are as many trades in the order of their closes. -/
theorem closeOrder_length (trades : List ClosedTradeMetrics) :
    (closeOrder trades).length = trades.length :=
  (sortBy_perm _ trades).length_eq

/-- No equity is lost before the first trade. -/
@[simp] theorem equityAfter_zero (start : ℚ) (trades : List ClosedTradeMetrics) :
    equityAfter start trades 0 = start := by
  rw [equityAfter, List.take_zero, List.map_nil, List.sum_nil, add_zero]

/-- The equity curve is the equity after each trade. -/
theorem equityCurve_eq (trades : List ClosedTradeMetrics) (start : ℚ) :
    equityCurve trades start =
      laterValues (equityAfter start (closeOrder trades)) trades.length := by
  have hscan := scanl_add_eq ClosedTradeMetrics.pnlUsdt start (closeOrder trades)
  rw [closeOrder_length] at hscan
  exact congrArg List.tail hscan

variable {trades : List ClosedTradeMetrics} {start : ℚ}

theorem computeMaxDrawdownPct_eq (htrades : trades ≠ []) (hstart : 0 < start) :
    computeMaxDrawdownPct trades start =
      some (partialSups (depth (equityAfter start (closeOrder trades))) trades.length) := by
  have hguard : ¬(trades.isEmpty ∨ start ≤ 0) := by simp [htrades, hstart]
  have hloop := @foldl_worstStep ℚ _ _ (equityAfter start (closeOrder trades))
    (by rwa [equityAfter_zero]) trades.length
  rw [← equityCurve_eq, equityAfter_zero] at hloop
  rw [computeMaxDrawdownPct, if_neg hguard]
  exact congrArg (fun acc : ℚ × ℚ => some acc.2) hloop

/-- The average drawdown is the mean of the depths below the peak. -/
theorem computeAvgDrawdownPct_eq (htrades : trades ≠ []) (hstart : 0 < start) :
    computeAvgDrawdownPct trades start =
      some ((meanOf ((underwater (equityAfter start (closeOrder trades)) trades.length).map
        (depth (equityAfter start (closeOrder trades))))).getD 0) := by
  have hguard : ¬(trades.isEmpty ∨ start ≤ 0) := by simp [htrades, hstart]
  have hloop := @foldl_depthsStep ℚ _ _ (equityAfter start (closeOrder trades))
    (by rwa [equityAfter_zero]) trades.length
  rw [← equityCurve_eq, equityAfter_zero] at hloop
  rw [computeAvgDrawdownPct, if_neg hguard]
  exact congrArg (fun acc : ℚ × List ℚ => some ((meanOf acc.2).getD 0)) hloop

/-- **The average drawdown lies between none and the maximal one.** -/
theorem avgDrawdown_bounds {worst avg : ℚ}
    (hworst : computeMaxDrawdownPct trades start = some worst)
    (havg : computeAvgDrawdownPct trades start = some avg) : 0 ≤ avg ∧ avg ≤ worst := by
  have hguard : trades ≠ [] ∧ 0 < start := by
    rw [computeMaxDrawdownPct] at hworst
    split at hworst
    · cases hworst
    · rename_i h
      simpa using h
  obtain ⟨htrades, hstart⟩ := hguard
  rw [computeMaxDrawdownPct_eq htrades hstart] at hworst
  rw [computeAvgDrawdownPct_eq htrades hstart] at havg
  cases Option.some.inj hworst
  cases Option.some.inj havg
  have h0 : 0 < equityAfter start (closeOrder trades) 0 := by rwa [equityAfter_zero]
  have hbound : ∀ j ≤ trades.length, depth (equityAfter start (closeOrder trades)) j ≤
      partialSups (depth (equityAfter start (closeOrder trades))) trades.length :=
    fun j hj => le_partialSups_of_le _ hj
  cases hmean : meanOf ((underwater (equityAfter start (closeOrder trades)) trades.length).map
      (depth (equityAfter start (closeOrder trades)))) with
  | none => exact ⟨le_refl 0, (depth_nonneg h0 0).trans (hbound 0 (Nat.zero_le _))⟩
  | some mean =>
    refine meanOf_bounds hmean ?_ ?_
    · intro d hd
      obtain ⟨j, -, rfl⟩ := List.mem_map.mp hd
      exact depth_nonneg h0 j
    · intro d hd
      obtain ⟨j, hj, rfl⟩ := List.mem_map.mp hd
      have hindex := (List.mem_filter.mp hj).1
      obtain ⟨k, hk, rfl⟩ := List.mem_map.mp hindex
      exact hbound _ (List.mem_range.mp hk)

/-! ## The offline backtest -/

/-- A closed trade of the ledger as the drawdown sees it. -/
def ledgerClose (trade : Backtest.ClosedTrade) : Time × ℚ := (trade.exitTime, trade.pnlUsdt)

/-- A closed trade of the Performance Engine, likewise. -/
def metricsClose (trade : ClosedTradeMetrics) : Time × ℚ := (trade.closedAt, trade.pnlUsdt)

/-- The offline drawdown as a loop over closes. -/
theorem maxDrawdownPct_eq_closes (startingEquity : ℚ) (closed : List Backtest.ClosedTrade) :
    Backtest.maxDrawdownPct startingEquity closed =
      ((((sortBy Backtest.ClosedTrade.exitTime closed).map ledgerClose).scanl
        (fun equity close => equity + close.2) startingEquity).tail.foldl worstStep
          (startingEquity, 0)).2 := by
  have hloop := foldl_totals Prod.snd startingEquity startingEquity 0
    ((sortBy Backtest.ClosedTrade.exitTime closed).map ledgerClose)
  rw [List.foldl_map] at hloop
  exact congrArg Prod.snd hloop

/-- The maximal drawdown of the Performance Engine as the same loop. -/
theorem computeMaxDrawdownPct_eq_closes (htrades : trades ≠ []) (hstart : 0 < start) :
    computeMaxDrawdownPct trades start =
      some ((((closeOrder trades).map metricsClose).scanl
        (fun equity close => equity + close.2) start).tail.foldl worstStep (start, 0)).2 := by
  have hguard : ¬(trades.isEmpty ∨ start ≤ 0) := by simp [htrades, hstart]
  rw [computeMaxDrawdownPct, if_neg hguard, List.scanl_map]
  rfl

/-- **The two loops agree** on the same trades with distinct close times. -/
theorem maxDrawdownPct_agrees (htrades : trades ≠ []) (hstart : 0 < start)
    (hdistinct : (trades.map ClosedTradeMetrics.closedAt).Nodup)
    {closed : List Backtest.ClosedTrade}
    (hsame : (closed.map ledgerClose).Perm (trades.map metricsClose)) :
    computeMaxDrawdownPct trades start = some (Backtest.maxDrawdownPct start closed) := by
  have hsorted : (closeOrder trades).map metricsClose =
      (sortBy Backtest.ClosedTrade.exitTime closed).map ledgerClose := by
    refine @eq_of_ascending _ _ _ Prod.fst _ _ ?_ ?_ ?_ ?_
    · rw [List.map_map]
      exact ((sortBy_perm _ trades).map _).nodup_iff.mpr hdistinct
    · exact (((sortBy_perm _ trades).map _).trans hsame.symm).trans
        ((sortBy_perm _ closed).map _).symm
    · exact List.pairwise_map.mpr (sortBy_ascending _ trades)
    · exact List.pairwise_map.mpr (sortBy_ascending _ closed)
  rw [computeMaxDrawdownPct_eq_closes htrades hstart, maxDrawdownPct_eq_closes, hsorted]

/-! ## The historical replay -/

section Replay

open TradeMind.Model.Replay

variable {config : ReplayConfig} {signalsByKey : Symbol → Time → Option SyntheticSignal}
  {st st' : Simulator} {candle : Candle}

/-- The open of a candle records no equity. -/
theorem executePending_curve (h : executePending config st candle = some st') :
    st'.equityCurve = st.equityCurve := by
  refine executePending_inv (P := fun st' => st'.equityCurve = st.equityCurve) rfl rfl
    (fun _ _ _ _ _ _ => rfl) (fun st' hclose => ?_) h
  obtain ⟨_, -, -, rfl⟩ := closePosition_some hclose
  rfl

theorem applySafetyExits_curve (h : applySafetyExits config st candle = some st') :
    st'.equityCurve = st.equityCurve := by
  rcases applySafetyExits_cases h with rfl | ⟨_, _, _, _, _, _, _, _, hclose⟩
  · rfl
  · obtain ⟨_, -, -, rfl⟩ := closePosition_some hclose
    rfl

/-- A signal moves neither money nor the equity curve. -/
theorem processSignal_curve {signal : SyntheticSignal}
    (h : processSignal config st candle signal = some st') :
    st'.cash = st.cash ∧ st'.positions = st.positions ∧ st'.equityCurve = st.equityCurve := by
  obtain ⟨-, -, _, _, -, rfl | ⟨_, -, -, rfl⟩⟩ := processSignal_cases h
  · exact ⟨rfl, rfl, rfl⟩
  · exact ⟨rfl, rfl, rfl⟩

/-- **One candle** adds one point to the equity curve. -/
theorem processCandle_curve (h : processCandle config signalsByKey st candle = some st') :
    ∃ point, st'.equityCurve = st.equityCurve ++ [point] := by
  obtain ⟨filled, safe, decided, hfilled, hsafe, hdecided, rfl⟩ := processCandle_cases h
  have hcurve : decided.equityCurve = st.equityCurve := by
    rcases hdecided with ⟨-, rfl⟩ | ⟨signal, -, hdecided⟩
    · exact (applySafetyExits_curve hsafe).trans (executePending_curve hfilled)
    · exact (processSignal_curve hdecided).2.2.trans
        ((applySafetyExits_curve hsafe).trans (executePending_curve hfilled))
  exact ⟨_, by rw [recordEquity, hcurve]⟩

/-- **The first candle** records the starting equity: nothing is pending and nothing is open. -/
theorem processCandle_fresh
    (h : processCandle config signalsByKey (Simulator.fresh config) candle = some st') :
    ∃ point, st'.equityCurve = [point] ∧ point.equityUsdt = config.startingEquityUsdt := by
  obtain ⟨filled, safe, decided, hfilled, hsafe, hdecided, rfl⟩ := processCandle_cases h
  have hfilled : filled = Simulator.fresh config := (Option.some.inj hfilled).symm
  have hsafe : safe = Simulator.fresh config := by
    rw [hfilled] at hsafe
    exact (Option.some.inj hsafe).symm
  have hfresh : decided.cash = config.startingEquityUsdt ∧ decided.positions = ∅ ∧
      decided.equityCurve = [] := by
    rcases hdecided with ⟨-, rfl⟩ | ⟨signal, -, hdecided⟩
    · exact hsafe ▸ ⟨rfl, rfl, rfl⟩
    · obtain ⟨hcash, hpositions, hcurve⟩ := processSignal_curve hdecided
      rw [hcash, hpositions, hcurve]
      exact hsafe ▸ ⟨rfl, rfl, rfl⟩
  obtain ⟨hcash, hpositions, hcurve⟩ := hfresh
  refine ⟨⟨candle.closeTime, decided.equity config⟩, by rw [recordEquity, hcurve]; rfl, ?_⟩
  rw [Simulator.equity, hcash, hpositions, Dict.total_empty, add_zero]

/-- The equity curve of a run is empty or begins with the starting equity. -/
theorem simulate_curve {ordered : List Candle}
    (h : simulate config signalsByKey ordered = some st) :
    st.equityCurve = [] ∨ ∃ point rest, st.equityCurve = point :: rest ∧
      point.equityUsdt = config.startingEquityUsdt := by
  have hrun : ordered = [] ∧ st = Simulator.fresh config ∨ ∃ point rest,
      st.equityCurve = point :: rest ∧ point.equityUsdt = config.startingEquityUsdt := by
    refine runPartial_inv (P := fun before st => before = [] ∧ st = Simulator.fresh config ∨
      ∃ point rest, st.equityCurve = point :: rest ∧
        point.equityUsdt = config.startingEquityUsdt) (.inl ⟨rfl, rfl⟩) ?_
      (List.prefix_refl ordered) h
    rintro before candle mid next - (⟨-, rfl⟩ | ⟨point, rest, hcurve, hpoint⟩) hstep
    · obtain ⟨point, hcurve, hpoint⟩ := processCandle_fresh hstep
      exact .inr ⟨point, [], hcurve, hpoint⟩
    · obtain ⟨last, hlast⟩ := processCandle_curve hstep
      exact .inr ⟨point, rest ++ [last], by rw [hlast, hcurve]; rfl, hpoint⟩
  rcases hrun with ⟨-, rfl⟩ | hcurve
  · exact .inl rfl
  · exact .inr hcurve

/-- On a curve that begins with the starting equity, it makes no difference that the loop starts
its peak at zero. -/
theorem maximumDrawdown_eq {curve : List EquityPoint}
    (h : curve = [] ∨ ∃ point rest, curve = point :: rest ∧
      point.equityUsdt = config.startingEquityUsdt) :
    maximumDrawdown curve = partialSups (depth (curveEquity config curve)) curve.length := by
  have hpos := config.equity_pos
  have hloop := foldl_worstStep (e := curveEquity config curve) hpos curve.length
  have hvalues := laterValues_getD config.startingEquityUsdt 0
    (curve.map EquityPoint.equityUsdt)
  rw [List.length_map] at hvalues
  have hcurve : laterValues (curveEquity config curve) curve.length =
      curve.map EquityPoint.equityUsdt := hvalues
  rw [hcurve, List.foldl_map] at hloop
  rcases h with rfl | ⟨point, rest, rfl, hpoint⟩
  · exact congrArg Prod.snd hloop
  · have hfirst : worstStep (0, 0) point.equityUsdt =
        worstStep (config.startingEquityUsdt, 0) point.equityUsdt := by
      rw [hpoint]
      simp [worstStep, hpos, hpos.le]
    have hsame : maximumDrawdown (point :: rest) =
        ((point :: rest).foldl (fun acc (p : EquityPoint) => worstStep acc p.equityUsdt)
          (config.startingEquityUsdt, 0)).2 := by
      rw [List.foldl_cons, ← hfirst]
      rfl
    exact hsame.trans (congrArg Prod.snd hloop)

end Replay

/-! ## The greatest decline -/

/-- **The drawdown figures match their definition.**  For closed trades with distinct close
times, `ordered` being the trades by close, the maximal drawdown is the greatest depth of the
equity, and the greatest decline between two equities where none is negative or zero; the
average lies between zero and it, and the offline backtest finds the same.  The drawdown of a
replay is the greatest depth of its starting equity and curve. -/
theorem drawdown_is_greatest_decline :
    (∀ (trades ordered : List ClosedTradeMetrics) (start : ℚ), trades ≠ [] → 0 < start →
      (trades.map ClosedTradeMetrics.closedAt).Nodup → ordered.Perm trades →
      ordered.Pairwise (fun a b => a.closedAt ≤ b.closedAt) →
      ∃ worst avg, computeMaxDrawdownPct trades start = some worst ∧
        computeAvgDrawdownPct trades start = some avg ∧
        IsGreatest (depth (equityAfter start ordered) '' Set.Iic trades.length) worst ∧
        ((∀ k ≤ trades.length, 0 < equityAfter start ordered k) →
          IsGreatest {d | ∃ i j, i ≤ j ∧ j ≤ trades.length ∧
            d = (equityAfter start ordered i - equityAfter start ordered j) /
              equityAfter start ordered i} worst) ∧
        0 ≤ avg ∧ avg ≤ worst ∧
        ∀ closed : List Backtest.ClosedTrade,
          (closed.map ledgerClose).Perm (trades.map metricsClose) →
          Backtest.maxDrawdownPct start closed = worst) ∧
    ∀ (config : Replay.ReplayConfig) (candles : List Replay.Candle)
      (signals : List Replay.SyntheticSignal) (result : Replay.ReplayResult),
      Replay.run config candles signals = some result →
      IsGreatest (depth (curveEquity config result.equityCurve) ''
        Set.Iic result.equityCurve.length) (Replay.maximumDrawdown result.equityCurve) := by
  constructor
  · intro trades ordered start htrades hstart hdistinct hperm hsorted
    have horder : closeOrder trades = ordered := sortBy_eq_of_perm hdistinct hperm hsorted
    have hworst := computeMaxDrawdownPct_eq htrades hstart
    have havg := computeAvgDrawdownPct_eq htrades hstart
    obtain ⟨hnonneg, hle⟩ := avgDrawdown_bounds hworst havg
    refine ⟨_, _, hworst, havg, ?_, ?_, hnonneg, hle, ?_⟩
    · rw [horder]
      exact isGreatest_partialSups _ _
    · intro hpos
      rw [horder]
      exact isGreatest_declines hpos
    · intro closed hsame
      have hagrees := maxDrawdownPct_agrees htrades hstart hdistinct hsame
      exact Option.some.inj (hagrees.symm.trans hworst)
  · intro config candles signals result hrun
    unfold Replay.run at hrun
    split at hrun
    · cases hrun
    · split at hrun
      · cases hrun
      · obtain ⟨st, hst, rfl⟩ := Option.map_eq_some_iff.mp hrun
        have heq := maximumDrawdown_eq (simulate_curve hst)
        rw [Replay.report, heq]
        exact isGreatest_partialSups _ _

/-- A gain and, an hour later, a loss. -/
def gainThenLoss : List ClosedTradeMetrics :=
  [{ pnlUsdt := 10, rMultiple := none, feesUsdt := none, closedAt := minutes 60 },
    { pnlUsdt := -20, rMultiple := none, feesUsdt := none, closedAt := minutes 120 }]

/-- The same trades as the ledger closed them, the later one first. -/
def gainThenLossClosed : List Backtest.ClosedTrade :=
  [{ symbol := "ETH/USDT", entryTime := 0, exitTime := minutes 120, entryPrice := 100,
      exitPrice := 80, sizeUsdt := 100, pnlUsdt := -20, pnlPct := -1 / 5,
      exitReason := "stop_loss" },
    { symbol := "BTC/USDT", entryTime := 0, exitTime := minutes 60, entryPrice := 100,
      exitPrice := 110, sizeUsdt := 100, pnlUsdt := 10, pnlPct := 1 / 10, exitReason := "roi" }]

/-- A gain and then a loss, and a replay of a steady market. -/
theorem drawdown_is_greatest_decline_examples :
    (∃ worst, computeMaxDrawdownPct gainThenLoss 100 = some worst ∧
      IsGreatest {d | ∃ i j, i ≤ j ∧ j ≤ 2 ∧
        d = (equityAfter 100 gainThenLoss i - equityAfter 100 gainThenLoss j) /
          equityAfter 100 gainThenLoss i} worst ∧
      Backtest.maxDrawdownPct 100 gainThenLossClosed = worst) ∧
    ∃ result, Replay.run Replay.defaultReplay steadyCandles [buySignal "BTC/USDT" (minutes 60)] =
        some result ∧
      IsGreatest (depth (curveEquity Replay.defaultReplay result.equityCurve) ''
        Set.Iic result.equityCurve.length) (Replay.maximumDrawdown result.equityCurve) := by
  constructor
  · obtain ⟨worst, _, hworst, -, -, hdeclines, -, -, hbacktest⟩ :=
      drawdown_is_greatest_decline.1 gainThenLoss gainThenLoss 100 (by decide)
        (by decide +kernel) (by decide) (List.Perm.refl _) (by decide)
    exact ⟨worst, hworst, hdeclines (by decide +kernel),
      hbacktest gainThenLossClosed (by decide +kernel)⟩
  · have hrun : (Replay.run Replay.defaultReplay steadyCandles
        [buySignal "BTC/USDT" (minutes 60)]).isSome = true := by
      simp only [Replay.run, steadyCandles_valid, firstHourSignals_indexed, Option.isSome_map]
      exact (by decide +kernel : ((Replay.simulate Replay.defaultReplay firstHourSignals
        steadyCandles).map Replay.Simulator.cash).isSome = true) ▸ Option.isSome_map.symm
    obtain ⟨result, hresult⟩ := Option.isSome_iff_exists.mp hrun
    exact ⟨result, hresult, drawdown_is_greatest_decline.2 _ _ _ result hresult⟩

end TradeMind.Analysis
