import TradeMind.Analysis.Breakdowns
import TradeMind.Analysis.ScoreBounds
import TradeMind.Library.KeySort
import TradeMind.Library.PartialRun
import TradeMind.Model.BacktestReport

/-!
# The counts of a trades CSV

The CSV keeps whether a trade has R and its journal dimensions, but it rounds the PnL to cents,
so a gain or loss of half a cent at most reads back as break-even (`csv_counts_iff`).
-/

set_option autoImplicit false

namespace TradeMind.Analysis

open TradeMind.Model TradeMind.Library TradeMind.Model.Backtest

/-! ## Counts -/

/-- The counts of a report: trades, wins, losses, break-even, with R. -/
def reportCounts (report : PerformanceReport) : ℕ × ℕ × ℕ × ℕ × ℕ :=
  (report.trades, report.wins, report.losses, report.breakeven, report.tradesWithR)

/-- The key and the counts of a cohort. -/
def cohortCounts (row : BreakdownCohort) : String × ℕ × ℕ × ℕ × ℕ × ℕ :=
  (row.key, reportCounts row.report)

/-- Two lists of trades have the same counts, overall and per cohort. -/
structure SameCounts (trades trades' : List ClosedTradeMetrics) (start : Option ℚ) : Prop where
  overall : reportCounts (summarize trades start) = reportCounts (summarize trades' start)
  byRegime : (summarizeBreakdowns trades start).byRegime.map cohortCounts =
    (summarizeBreakdowns trades' start).byRegime.map cohortCounts
  byVolatility : (summarizeBreakdowns trades start).byVolatility.map cohortCounts =
    (summarizeBreakdowns trades' start).byVolatility.map cohortCounts
  byScoreBucket : (summarizeBreakdowns trades start).byScoreBucket.map cohortCounts =
    (summarizeBreakdowns trades' start).byScoreBucket.map cohortCounts

/-- Two readings of a trade count alike: the sign of the PnL, whether R is known and the
journal dimensions. -/
structure CountsAlike (a b : ClosedTradeMetrics) : Prop where
  gain : 0 < a.pnlUsdt ↔ 0 < b.pnlUsdt
  loss : a.pnlUsdt < 0 ↔ b.pnlUsdt < 0
  flat : a.pnlUsdt = 0 ↔ b.pnlUsdt = 0
  withR : a.rMultiple.isSome = b.rMultiple.isSome
  regime : a.marketRegime = b.marketRegime
  volatility : a.volatilityRegime = b.volatilityRegime
  score : a.tradeScore = b.tradeScore

section Readings

variable {ι : Type} {f g : ι → ClosedTradeMetrics} {items : List ι} {start : Option ℚ}

/-- Where a test treats two readings alike, it selects as many of the ones as of the others. -/
theorem length_filter_readings {p : ClosedTradeMetrics → Bool}
    (h : ∀ i ∈ items, p (f i) = p (g i)) :
    ((items.map f).filter p).length = ((items.map g).filter p).length := by
  rw [List.filter_map, List.filter_map, List.length_map, List.length_map]
  exact congrArg List.length (List.filter_congr h)

/-- **Readings that count alike have the same counts.** -/
theorem reportCounts_readings (h : ∀ i ∈ items, CountsAlike (f i) (g i)) :
    reportCounts (summarize (items.map f) start) =
      reportCounts (summarize (items.map g) start) := by
  have hwins := length_filter_readings (p := fun t => 0 < t.pnlUsdt)
    fun i hi => decide_eq_decide.mpr (h i hi).gain
  have hlosses := length_filter_readings (p := fun t => t.pnlUsdt < 0)
    fun i hi => decide_eq_decide.mpr (h i hi).loss
  have hflat := length_filter_readings (p := fun t => t.pnlUsdt = 0)
    fun i hi => decide_eq_decide.mpr (h i hi).flat
  have hwithR := length_filter_readings (p := fun t => t.rMultiple.isSome)
    fun i hi => (h i hi).withR
  simp only [reportCounts, summarize, wins, losses, List.length_map, hwins, hlosses, hflat,
    hwithR]

/-- The cohort of a key is made of the same trades in both readings. -/
theorem filter_readings {keyOf : ClosedTradeMetrics → Option String} (catchAll key : String)
    (hkey : ∀ i ∈ items, keyOf (f i) = keyOf (g i)) :
    (items.map f).filter (fun t => (keyOf t).getD catchAll = key) =
        (items.filter fun i => (keyOf (f i)).getD catchAll = key).map f ∧
      (items.map g).filter (fun t => (keyOf t).getD catchAll = key) =
        (items.filter fun i => (keyOf (f i)).getD catchAll = key).map g := by
  refine ⟨List.filter_map, List.filter_map.trans (congrArg (List.map g) ?_)⟩
  exact List.filter_congr fun i hi => by simp only [Function.comp_apply, hkey i hi]

/-- Readings that count alike have the cohorts of one another. -/
theorem mem_cohortCounts_readings {keyOf : ClosedTradeMetrics → Option String}
    {catchAll : String} (h : ∀ i ∈ items, CountsAlike (f i) (g i))
    (hkey : ∀ i ∈ items, keyOf (f i) = keyOf (g i)) {entry : String × ℕ × ℕ × ℕ × ℕ × ℕ}
    (hentry : entry ∈ (cohorts (items.map f) keyOf catchAll start).map cohortCounts) :
    entry ∈ (cohorts (items.map g) keyOf catchAll start).map cohortCounts := by
  obtain ⟨row, hrow, rfl⟩ := List.mem_map.mp hentry
  obtain ⟨hfull, hreport⟩ := mem_cohorts.mp hrow
  obtain ⟨hf, hg⟩ := filter_readings catchAll row.key hkey
  have hgroup : ∀ i ∈ items.filter fun i => (keyOf (f i)).getD catchAll = row.key,
      CountsAlike (f i) (g i) := fun i hi => h i (List.mem_filter.mp hi).1
  have hcounts := @reportCounts_readings _ _ _ _ start hgroup
  rw [← hf, ← hg, ← hreport] at hcounts
  refine List.mem_map.mpr ⟨⟨row.key, summarize ((items.map g).filter fun t =>
    (keyOf t).getD catchAll = row.key) start⟩, mem_cohorts.mpr ⟨?_, rfl⟩, ?_⟩
  · rw [hf, ne_eq, List.map_eq_nil_iff] at hfull
    rwa [hg, ne_eq, List.map_eq_nil_iff]
  · rw [cohortCounts, cohortCounts, hcounts]

/-- What counts alike counts alike the other way round. -/
theorem CountsAlike.symm {a b : ClosedTradeMetrics} (h : CountsAlike a b) : CountsAlike b a :=
  ⟨h.gain.symm, h.loss.symm, h.flat.symm, h.withR.symm, h.regime.symm, h.volatility.symm,
    h.score.symm⟩

/-- The sort key of a cohort's counts. -/
def entryRank (catchAll : String) (entry : String × ℕ × ℕ × ℕ × ℕ × ℕ) :
    Bool ×ₗ ℕᵒᵈ ×ₗ String :=
  cohortRank catchAll entry.1 entry.2.1

/-- The counts of a breakdown have distinct sort keys. -/
theorem entryRank_nodup (trades : List ClosedTradeMetrics)
    (keyOf : ClosedTradeMetrics → Option String) (catchAll : String) :
    (((cohorts trades keyOf catchAll start).map cohortCounts).map
      (entryRank catchAll)).Nodup := by
  have hkeys := cohorts_nodup trades keyOf catchAll start
  refine List.Nodup.of_map (fun rank => (ofLex (ofLex rank).2).2) ?_
  rw [List.map_map, List.map_map]
  exact hkeys

/-- **Readings that count alike have the same cohorts**, in the same order. -/
theorem cohortCounts_readings {keyOf : ClosedTradeMetrics → Option String} {catchAll : String}
    (h : ∀ i ∈ items, CountsAlike (f i) (g i))
    (hkey : ∀ i ∈ items, keyOf (f i) = keyOf (g i)) :
    (cohorts (items.map f) keyOf catchAll start).map cohortCounts =
      (cohorts (items.map g) keyOf catchAll start).map cohortCounts := by
  have hperm : ((cohorts (items.map f) keyOf catchAll start).map cohortCounts).Perm
      ((cohorts (items.map g) keyOf catchAll start).map cohortCounts) := by
    refine (List.perm_ext_iff_of_nodup (entryRank_nodup _ _ catchAll).of_map
      (entryRank_nodup _ _ catchAll).of_map).mpr fun entry => ⟨?_, ?_⟩
    · exact mem_cohortCounts_readings h hkey
    · exact mem_cohortCounts_readings (fun i hi => (h i hi).symm) fun i hi => (hkey i hi).symm
  refine eq_of_ascending (entryRank_nodup _ _ catchAll) hperm ?_ ?_
  · exact List.pairwise_map.mpr cohorts_sorted
  · exact List.pairwise_map.mpr cohorts_sorted

/-- Readings that count alike have the same counts, overall and per cohort. -/
theorem sameCounts_readings (h : ∀ i ∈ items, CountsAlike (f i) (g i)) :
    SameCounts (items.map f) (items.map g) start where
  overall := reportCounts_readings h
  byRegime := cohortCounts_readings h fun i hi => (h i hi).regime
  byVolatility := cohortCounts_readings h fun i hi => (h i hi).volatility
  byScoreBucket := cohortCounts_readings h fun i hi => by rw [(h i hi).score]

end Readings

/-! ## Cents -/

/-- What is rounded to cents has the sign of what lies beyond half a cent. -/
theorem quantize_pos_iff {x : ℚ} : 0 < quantize 2 x ↔ 1 / 200 < x := by
  rw [quantize, roundHalfEven_eq, div_pos_iff_of_pos_right (by norm_num), Int.cast_pos,
    halfEven_pos_iff]
  constructor <;> intro h <;> linarith

/-- What is rounded to cents is negative only below minus half a cent. -/
theorem quantize_neg_iff {x : ℚ} : quantize 2 x < 0 ↔ x < -(1 / 200) := by
  rw [quantize, roundHalfEven_eq, div_lt_iff₀ (by norm_num), zero_mul, Int.cast_lt_zero,
    halfEven_neg_iff]
  constructor <;> intro h <;> linarith

/-- **Half a cent at most is rounded to zero.** -/
theorem quantize_eq_zero_iff {x : ℚ} : quantize 2 x = 0 ↔ |x| ≤ 1 / 200 := by
  rw [eq_iff_le_not_lt, ← not_lt, quantize_pos_iff, quantize_neg_iff, abs_le, not_lt, not_lt,
    and_comm]

/-! ## Labels -/

/-- A label that reads back as it was written. -/
def Plain (label : String) : Prop := strip label = label ∧ label ≠ ""

/-- The regimes of the Strategy Selector are plain. -/
theorem strategy_plain (name : Llm.StrategyName) : Plain name.value := by
  cases name <;> exact ⟨by decide +kernel, by decide⟩

theorem volatility_plain (regime : Llm.VolatilityRegime) : Plain regime.value := by
  cases regime <;> exact ⟨by decide +kernel, by decide⟩

/-- The label of a missing regime is plain. -/
theorem unknownRegime_plain : Plain unknownRegime := ⟨by decide +kernel, by decide⟩

/-- Every label of a map is plain. -/
def PlainLabels {κ : Type} (labels : κ → Option String) : Prop :=
  ∀ key label, labels key = some label → Plain label

/-- The labels a mechanical replay has collected are plain. -/
structure LabelsPlain (run : MechanicalRun) : Prop where
  entryRegimes : PlainLabels run.entryRegimes
  entryVolatility : PlainLabels run.entryVolatility
  regimes : PlainLabels run.dims.regimes
  volatilities : PlainLabels run.dims.volatilities

/-- A plain label, or none, may be set at a key. -/
theorem PlainLabels.update {κ : Type} [DecidableEq κ] {labels : κ → Option String}
    (h : PlainLabels labels) (key : κ) {value : Option String}
    (hvalue : ∀ label, value = some label → Plain label) :
    PlainLabels (Function.update labels key value) := by
  intro other label hlabel
  by_cases hother : other = key
  · subst hother
    rw [Function.update_self] at hlabel
    exact hvalue label hlabel
  · rw [Function.update_of_ne hother] at hlabel
    exact h other label hlabel

variable {settings : MechanicalSettings} {run run' : MechanicalRun}

theorem carryEntryDims_plain (h : LabelsPlain run) (key : TradeKey) (symbol : Symbol) :
    LabelsPlain (run.carryEntryDims key symbol) where
  entryRegimes := h.entryRegimes.update symbol fun _ hnone => by cases hnone
  entryVolatility := h.entryVolatility.update symbol fun _ hnone => by cases hnone
  regimes := by
    refine h.regimes.update key fun label hlabel => ?_
    cases hentry : run.entryRegimes symbol with
    | none =>
      rw [hentry] at hlabel
      exact Option.some.inj hlabel ▸ unknownRegime_plain
    | some regime =>
      rw [hentry] at hlabel
      exact Option.some.inj hlabel ▸ h.entryRegimes symbol regime hentry
  volatilities := by
    cases hentry : run.entryVolatility symbol with
    | none =>
      simp only [MechanicalRun.carryEntryDims, hentry]
      exact h.volatilities
    | some label =>
      simp only [MechanicalRun.carryEntryDims, hentry]
      exact h.volatilities.update key fun other hother =>
        Option.some.inj hother ▸ h.entryVolatility symbol label hentry

/-- A decision sets the labels of the entry it makes. -/
theorem decide_plain {symbol : Symbol} {request : Llm.AnalyzeRequest} {now : Time}
    {fillPrice : ℚ} (hrun : LabelsPlain run)
    (h : run.decide settings symbol request now fillPrice = some run') : LabelsPlain run' := by
  have hledger : ∀ ledger, LabelsPlain { run with ledger } := fun ledger =>
    ⟨hrun.entryRegimes, hrun.entryVolatility, hrun.regimes, hrun.volatilities⟩
  obtain ⟨latest, -, h⟩ := Option.bind_eq_some_iff.mp h
  obtain ⟨context, -, h⟩ := Option.bind_eq_some_iff.mp h
  dsimp only at h
  split at h
  · obtain ⟨⟨ledger, result, newPosition⟩, -, h⟩ := Option.bind_eq_some_iff.mp h
    dsimp only at h
    split at h
    · cases Option.some.inj h
      exact
        { entryRegimes := (hledger ledger).entryRegimes.update symbol fun _ hlabel =>
            Option.some.inj hlabel ▸ strategy_plain _
          entryVolatility := (hledger ledger).entryVolatility.update symbol fun _ hlabel =>
            Option.some.inj hlabel ▸ volatility_plain _
          regimes := hrun.regimes
          volatilities := hrun.volatilities }
    · cases Option.some.inj h
      exact hledger ledger
  · obtain ⟨⟨ledger, result, trade⟩, -, h⟩ := Option.bind_eq_some_iff.mp h
    dsimp only at h
    split at h
    · cases Option.some.inj h
      exact carryEntryDims_plain (hledger ledger) _ _
    · cases Option.some.inj h
      exact hledger ledger
  · cases Option.some.inj h
    exact hrun

/-- **One step** of a mechanical replay keeps the labels plain. -/
theorem apply_plain {step : MechanicalStep} (hrun : LabelsPlain run)
    (h : run.apply settings step = some run') : LabelsPlain run' := by
  cases step with
  | staticExit symbol candle now =>
    have hledger : ∀ ledger, LabelsPlain { run with ledger } := fun ledger =>
      ⟨hrun.entryRegimes, hrun.entryVolatility, hrun.regimes, hrun.volatilities⟩
    obtain ⟨⟨ledger, closed⟩, -, h⟩ := Option.bind_eq_some_iff.mp h
    cases closed with
    | none =>
      cases Option.some.inj h
      exact hledger ledger
    | some trade =>
      cases Option.some.inj h
      exact carryEntryDims_plain (hledger ledger) _ _
  | decision symbol request now fillPrice => exact decide_plain hrun h

/-- **The labels of a mechanical replay** are plain. -/
theorem mechanical_plain {ledger : Ledger} {steps : List MechanicalStep}
    (h : runPartial (MechanicalRun.apply settings) { ledger } steps = some run) :
    LabelsPlain run := by
  have hempty : ∀ {κ : Type}, PlainLabels fun _ : κ => none := fun _ _ h => by cases h
  refine runPartial_inv (P := fun _ run => LabelsPlain run) ?_ ?_ (List.prefix_refl steps) h
  · exact ⟨hempty, hempty, hempty, hempty⟩
  · intro before step mid next _ hmid hstep
    exact apply_plain hmid hstep

/-! ## The counts of the file -/

/-- **A row reads back alike** where its labels are plain and its PnL is not lost to rounding. -/
theorem tradeRow_countsAlike {dims : TradeDims} (hregimes : PlainLabels dims.regimes)
    (hvolatilities : PlainLabels dims.volatilities) {trade : ClosedTrade}
    (hpnl : trade.pnlUsdt = 0 ∨ 1 / 200 < |trade.pnlUsdt|) :
    CountsAlike (tradeRow dims trade).toMetrics (trade.toMetrics dims) where
  gain := by
    refine quantize_pos_iff.trans ⟨fun h => lt_trans (by norm_num) h, fun h => ?_⟩
    have hgain : 0 < trade.pnlUsdt := h
    rcases hpnl with hzero | hlarge
    · exact absurd hzero hgain.ne'
    · rwa [abs_of_pos hgain] at hlarge
  loss := by
    refine quantize_neg_iff.trans ⟨fun h => lt_trans h (by norm_num), fun h => ?_⟩
    have hloss : trade.pnlUsdt < 0 := h
    rcases hpnl with hzero | hlarge
    · exact absurd hzero hloss.ne
    · rw [abs_of_neg hloss] at hlarge
      exact lt_neg_of_lt_neg hlarge
  flat := by
    refine quantize_eq_zero_iff.trans ⟨fun h => ?_, fun h => ?_⟩
    · exact hpnl.resolve_right (not_lt.mpr h)
    · rw [show trade.pnlUsdt = 0 from h, abs_zero]
      norm_num
  withR := Option.isSome_map
  regime := by
    cases hregime : dims.regimes trade.key with
    | none => simp [TradeRow.toMetrics, tradeRow, ClosedTrade.toMetrics, hregime,
        unknownRegime_plain.1]
    | some regime =>
      obtain ⟨hstrip, hne⟩ := hregimes _ _ hregime
      by_cases hunknown : regime = unknownRegime
      · simp [TradeRow.toMetrics, tradeRow, ClosedTrade.toMetrics, hregime, hunknown,
          unknownRegime_plain.1, Option.filter]
      · simp [TradeRow.toMetrics, tradeRow, ClosedTrade.toMetrics, hregime, hstrip, hne,
          hunknown, Option.filter]
  volatility := by
    have hempty : strip "" = "" := by decide +kernel
    cases hvolatility : dims.volatilities trade.key with
    | none => simp [TradeRow.toMetrics, tradeRow, ClosedTrade.toMetrics, hvolatility, hempty]
    | some volatility =>
      obtain ⟨hstrip, hne⟩ := hvolatilities _ _ hvolatility
      simp [TradeRow.toMetrics, tradeRow, ClosedTrade.toMetrics, hvolatility, hstrip, hne]
  score := rfl

/-- **A lost PnL changes the number of break-even trades.** -/
theorem breakeven_lost {trades : List ClosedTrade} {dims : TradeDims} (start : Option ℚ)
    (h : (summarize (metricsFromCsv trades dims) start).breakeven =
      (summarize (metricsFromClosedTrades trades dims) start).breakeven) :
    ∀ trade ∈ trades, trade.pnlUsdt = 0 ∨ 1 / 200 < |trade.pnlUsdt| := by
  have hcsv : (summarize (metricsFromCsv trades dims) start).breakeven =
      (trades.filter fun t => quantize 2 t.pnlUsdt = 0).length := by
    simp only [summarize, metricsFromCsv, List.filter_map, List.length_map]
    rfl
  have hledger : (summarize (metricsFromClosedTrades trades dims) start).breakeven =
      (trades.filter fun t => t.pnlUsdt = 0).length := by
    simp only [summarize, metricsFromClosedTrades, List.filter_map, List.length_map]
    rfl
  rw [hcsv, hledger] at h
  -- what was break-even stays so, and as many are, so they are the same trades
  have hsub : (trades.filter fun t => t.pnlUsdt = 0).Sublist
      (trades.filter fun t => quantize 2 t.pnlUsdt = 0) := by
    refine List.monotone_filter_right trades fun t ht => ?_
    refine decide_eq_true (quantize_eq_zero_iff.mpr ?_)
    rw [of_decide_eq_true ht, abs_zero]
    norm_num
  have hsame := hsub.eq_of_length h.symm
  intro trade htrade
  by_contra hlost
  obtain ⟨hne, hsmall⟩ := not_or.mp hlost
  have hmem : trade ∈ trades.filter fun t => quantize 2 t.pnlUsdt = 0 :=
    List.mem_filter.mpr
      ⟨htrade, decide_eq_true (quantize_eq_zero_iff.mpr (not_lt.mp hsmall))⟩
  rw [← hsame] at hmem
  exact hne (of_decide_eq_true (List.mem_filter.mp hmem).2)

/-- **The CSV gives the same counts exactly when no PnL is lost to rounding**: after any run of
the mechanical replay, every closed trade broke even or made more than half a cent of gain or
loss. -/
theorem csv_counts_iff (settings : MechanicalSettings) (ledger : Ledger)
    (steps : List MechanicalStep) (run : MechanicalRun)
    (h : runPartial (MechanicalRun.apply settings) { ledger } steps = some run)
    (startingEquityUsdt : Option ℚ) :
    SameCounts (metricsFromCsv run.ledger.closedTrades run.dims)
        (metricsFromClosedTrades run.ledger.closedTrades run.dims) startingEquityUsdt ↔
      ∀ trade ∈ run.ledger.closedTrades, trade.pnlUsdt = 0 ∨ 1 / 200 < |trade.pnlUsdt| := by
  constructor
  · intro hsame
    have hbreakeven := congrArg (fun counts => counts.2.2.2.1) hsame.overall
    exact breakeven_lost startingEquityUsdt hbreakeven
  · intro hpnl
    have hplain := mechanical_plain h
    rw [metricsFromCsv, metricsFromClosedTrades, List.map_map]
    exact sameCounts_readings fun trade htrade =>
      tradeRow_countsAlike hplain.regimes hplain.volatilities (hpnl trade htrade)

/-- The hourly candles of a market that rises and then gaps down. -/
def risingCandles : List Llm.Candle :=
  [⟨"", 97, 98, 96, 97, 10⟩, ⟨"", 98, 99, 97, 98, 10⟩, ⟨"", 99, 101, 98, 100, 20⟩,
    ⟨"", 100, 1015 / 10, 995 / 10, 101, 20⟩, ⟨"", 101, 1022 / 10, 101, 102, 20⟩]

/-- The request at the close of three of its candles. -/
def risingRequest (first : ℕ) : Llm.AnalyzeRequest :=
  { symbol := "BTC/USDT"
    timeframe := "1h"
    candleCloseTime := ""
    ohlcv := (risingCandles.drop first).take 3
    indicators :=
      { rsi14 := 50
        ema50 := 995 / 10
        ema200 := 99
        macd := ⟨1, 1 / 2, 1 / 2⟩
        atr14 := 2
        volumeSma20 := 10 }
    positionContext := { hasOpenPosition := false } }

/-- A `BUY` at 100, two hours up to 102.20, and an hour that opens at 100.20. -/
def risingSteps : List MechanicalStep :=
  [.decision "BTC/USDT" (risingRequest 0) 0 100,
    .staticExit "BTC/USDT" ⟨100, 1015 / 10, 995 / 10⟩ (minutes 60),
    .decision "BTC/USDT" (risingRequest 1) (minutes 60) 101,
    .staticExit "BTC/USDT" ⟨101, 1022 / 10, 101⟩ (minutes 120),
    .decision "BTC/USDT" (risingRequest 2) (minutes 120) (1002 / 10),
    .staticExit "BTC/USDT" ⟨1002 / 10, 1002 / 10, 100⟩ (minutes 180)]

/-- The settings of the run. -/
def risingSettings : MechanicalSettings :=
  { risk := {}, thresholds := {}, suppressBuyRegimes := [] }

/-- The run of the rising market. -/
def risingRun : Option MechanicalRun :=
  runPartial (MechanicalRun.apply risingSettings)
    { ledger := { startingEquityUsdt := 10000 } } risingSteps

/-- The run closes a trade that lost a tenth of a cent. -/
theorem csv_counts_iff_rising :
    ∃ run, risingRun = some run ∧
      (SameCounts (metricsFromCsv run.ledger.closedTrades run.dims)
          (metricsFromClosedTrades run.ledger.closedTrades run.dims) (some 10000) ↔
        ∀ trade ∈ run.ledger.closedTrades, trade.pnlUsdt = 0 ∨ 1 / 200 < |trade.pnlUsdt|) := by
  have hrun : (risingRun.map fun run => run.ledger.closedTrades.length) = some 1 := by
    decide +kernel
  obtain ⟨run, hrun, -⟩ := Option.map_eq_some_iff.mp hrun
  exact ⟨run, hrun, csv_counts_iff risingSettings _ risingSteps run hrun (some 10000)⟩

/-- The trade of the rising market is a loss to the ledger and breaks even in the CSV. -/
theorem csv_loses_a_loss :
    ∃ run, risingRun = some run ∧
      ¬SameCounts (metricsFromCsv run.ledger.closedTrades run.dims)
        (metricsFromClosedTrades run.ledger.closedTrades run.dims) none := by
  have hrun : (risingRun.map fun run =>
      ((summarize (metricsFromCsv run.ledger.closedTrades run.dims) none).losses,
        (summarize (metricsFromClosedTrades run.ledger.closedTrades run.dims) none).losses)) =
      some (0, 1) := by
    decide +kernel
  obtain ⟨run, hrun, hlosses⟩ := Option.map_eq_some_iff.mp hrun
  refine ⟨run, hrun, fun hsame => ?_⟩
  have hcounts := congrArg (fun counts => counts.2.2.1) hsame.overall
  obtain ⟨hcsv, hledger⟩ := Prod.mk.inj hlosses
  exact absurd (hcsv.symm.trans (hcounts.trans hledger)) (by decide)

end TradeMind.Analysis
