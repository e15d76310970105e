import TradeMind.Analysis.Drawdowns
import TradeMind.Analysis.ExpectancyCohort
import TradeMind.Model.DecimalReport

/-!
# The performance report and the order of the trades

`summarize` sorts by close time alone, so trades that close together are taken in the order they
come in.  Where its decimal sums are exact (`ExactFigures`), only the two drawdown figures can
tell: they are read off the declines of the equity after each trade, and these are the same for
every order exactly if the ties are safe (`declinesAfter_orderFree_iff`).
-/

set_option autoImplicit false

namespace TradeMind.Analysis

open TradeMind.Model TradeMind.Library

/-- The starting equity the drawdown figures take, if any. -/
def drawdownAnchor (startingEquityUsdt : Option ℚ) : Option ℚ :=
  startingEquityUsdt.filter fun equity => 0 < equity

/-- The declines of the equity from its peak, from a starting equity on, after each trade in the
order of their closes. -/
def declinesAfter (start : ℚ) (trades : List ClosedTradeMetrics) : List ℚ :=
  declines (start, start) ((closeOrder trades).map ClosedTradeMetrics.pnlUsdt)

/-- The trades that close together have one PnL, or each of them alone lifts the equity before
that time to its peak. -/
def TieSafe (startingEquityUsdt : Option ℚ) (trades : List ClosedTradeMetrics) : Prop :=
  ∀ start, drawdownAnchor startingEquityUsdt = some start →
    TiesSafe ClosedTradeMetrics.closedAt ClosedTradeMetrics.pnlUsdt (start, start)
      (closeOrder trades)

variable {trades trades' : List ClosedTradeMetrics} {startingEquityUsdt : Option ℚ} {start : ℚ}

theorem drawdownAnchor_pos (h : drawdownAnchor startingEquityUsdt = some start) : 0 < start := by
  simpa using (Option.filter_eq_some_iff.mp h).2

/-! ## Exact sums -/

/-- The figures a report sums up fit the precision: the PnL with the starting equity, the R and the
fees are each multiples of one power of ten, and their absolute values together stay below the
largest coefficient.  So do figures with eight fraction digits below 10^20 in all. -/
structure ExactFigures (startingEquityUsdt : Option ℚ) (trades : List ClosedTradeMetrics) :
    Prop where
  pnl : ∃ unit, FitDigits Decimal.prec unit
    ((drawdownAnchor startingEquityUsdt).toList ++ trades.map ClosedTradeMetrics.pnlUsdt)
  r : ∃ unit, FitDigits Decimal.prec unit (trades.filterMap ClosedTradeMetrics.rMultiple)
  fees : ∃ unit, FitDigits Decimal.prec unit (trades.filterMap ClosedTradeMetrics.feesUsdt)

/-- The figures of the same trades in another order fit as well. -/
theorem ExactFigures.perm (h : ExactFigures startingEquityUsdt trades)
    (hperm : trades'.Perm trades) : ExactFigures startingEquityUsdt trades' where
  pnl := h.pnl.imp fun _ hfit => hfit.subperm ((hperm.map _).append_left _).subperm
  r := h.r.imp fun _ hfit => hfit.subperm (hperm.filterMap _).subperm
  fees := h.fees.imp fun _ hfit => hfit.subperm (hperm.filterMap _).subperm

/-- The PnL of some of the trades fit. -/
theorem ExactFigures.pnl_of (h : ExactFigures startingEquityUsdt trades)
    (hsub : trades'.Sublist trades) :
    ∃ unit, FitDigits Decimal.prec unit (trades'.map ClosedTradeMetrics.pnlUsdt) :=
  h.pnl.imp fun _ hfit =>
    hfit.subperm ((hsub.map _).trans (List.sublist_append_right _ _)).subperm

/-- The R of some of the trades fit. -/
theorem ExactFigures.r_of (h : ExactFigures startingEquityUsdt trades)
    (hsub : trades'.Sublist trades) :
    ∃ unit, FitDigits Decimal.prec unit (trades'.filterMap ClosedTradeMetrics.rMultiple) :=
  h.r.imp fun _ hfit => hfit.subperm (hsub.filterMap _).subperm

/-- The decimal sum of values that fit is their sum. -/
theorem decimalSum_eq {values : List ℚ} (h : ∃ unit, FitDigits Decimal.prec unit values) :
    Decimal.sum values = values.sum :=
  let ⟨_, hfit⟩ := h
  hfit.sumDigits_eq

/-- The decimal mean of values that fit is their mean, rounded once. -/
theorem decimalMean_eq {values : List ℚ} (h : ∃ unit, FitDigits Decimal.prec unit values) :
    Decimal.meanOf values = (meanOf values).map (roundDigits Decimal.prec) := by
  rw [Decimal.meanOf, meanOf, decimalSum_eq h]
  split <;> rfl

/-- The decimal equity curve is the exact one. -/
theorem decimalCurve_eq (h : ExactFigures startingEquityUsdt trades)
    (hanchor : drawdownAnchor startingEquityUsdt = some start) :
    Decimal.equityCurve trades start = equityCurve trades start := by
  obtain ⟨unit, hfit⟩ := h.pnl
  rw [hanchor] at hfit
  have hrows : FitDigits Decimal.prec unit
      ([start] ++ (closeOrder trades).map ClosedTradeMetrics.pnlUsdt) :=
    hfit.subperm (((sortBy_perm _ trades).map _).append_left _).subperm
  have hscan := scanl_roundDigits ClosedTradeMetrics.pnlUsdt hrows
  rw [List.sum_singleton] at hscan
  exact congrArg List.tail hscan

/-- The falls of the equity from its peak are exact. -/
theorem ExactFigures.falls (h : ExactFigures startingEquityUsdt trades)
    (hanchor : drawdownAnchor startingEquityUsdt = some start) :
    ExactFalls Decimal.prec (start, start)
      ((closeOrder trades).map ClosedTradeMetrics.pnlUsdt) := by
  obtain ⟨unit, hfit⟩ := h.pnl
  rw [hanchor] at hfit
  exact FitDigits.exactFalls
    (hfit.subperm (((sortBy_perm _ trades).map _).append_left [start]).subperm)

/-! ## The figures -/

/-- The maximal drawdown is the greatest decline, rounded. -/
theorem computeMaxDrawdownPct_declines (htrades : trades ≠ [])
    (h : ExactFigures startingEquityUsdt trades)
    (hanchor : drawdownAnchor startingEquityUsdt = some start) :
    Decimal.computeMaxDrawdownPct trades start =
      some (((declinesAfter start trades).map (roundDigits Decimal.prec)).foldl max 0) := by
  have hstart := drawdownAnchor_pos hanchor
  have hguard : ¬(trades.isEmpty ∨ start ≤ 0) := by simp [htrades, hstart]
  have hpeak : 0 < ((start, start) : ℚ × ℚ).2 := hstart
  have hloop := foldl_worstRounded ClosedTradeMetrics.pnlUsdt hpeak 0 (closeOrder trades)
    (h.falls hanchor)
  rw [Decimal.computeMaxDrawdownPct, if_neg hguard, decimalCurve_eq h hanchor]
  exact congrArg some hloop

/-- The average drawdown is the mean of the positive declines, each rounded. -/
theorem computeAvgDrawdownPct_declines (htrades : trades ≠ [])
    (h : ExactFigures startingEquityUsdt trades)
    (hanchor : drawdownAnchor startingEquityUsdt = some start) :
    Decimal.computeAvgDrawdownPct trades start =
      some ((Decimal.meanOf (((declinesAfter start trades).filter fun d => 0 < d).map
        (roundDigits Decimal.prec))).getD 0) := by
  have hstart := drawdownAnchor_pos hanchor
  have hguard : ¬(trades.isEmpty ∨ start ≤ 0) := by simp [htrades, hstart]
  have hpeak : 0 < ((start, start) : ℚ × ℚ).2 := hstart
  have hloop := foldl_depthsRounded ClosedTradeMetrics.pnlUsdt hpeak [] (closeOrder trades)
    (h.falls hanchor)
  rw [Decimal.computeAvgDrawdownPct, if_neg hguard, decimalCurve_eq h hanchor]
  exact congrArg (fun depths => some ((Decimal.meanOf depths).getD 0)) hloop

/-- Trades with the same declines have the same drawdown figures. -/
theorem drawdowns_eq_of_declines (h : trades'.Perm trades)
    (hexact : ExactFigures startingEquityUsdt trades)
    (hanchor : drawdownAnchor startingEquityUsdt = some start)
    (hdeclines : declinesAfter start trades' = declinesAfter start trades) :
    Decimal.computeMaxDrawdownPct trades' start = Decimal.computeMaxDrawdownPct trades start ∧
      Decimal.computeAvgDrawdownPct trades' start =
        Decimal.computeAvgDrawdownPct trades start := by
  by_cases hempty : trades = []
  · subst hempty
    rw [h.eq_nil]
    exact ⟨rfl, rfl⟩
  · have hempty' : trades' ≠ [] := fun hnil => hempty (hnil ▸ h).symm.eq_nil
    have hexact' := hexact.perm h
    rw [computeMaxDrawdownPct_declines hempty hexact hanchor,
      computeMaxDrawdownPct_declines hempty' hexact' hanchor,
      computeAvgDrawdownPct_declines hempty hexact hanchor,
      computeAvgDrawdownPct_declines hempty' hexact' hanchor, hdeclines]
    exact ⟨rfl, rfl⟩

/-- A mean of values that fit does not depend on their order. -/
theorem decimalMean_perm {values values' : List ℚ} (hperm : values'.Perm values)
    (h : ∃ unit, FitDigits Decimal.prec unit values) :
    Decimal.meanOf values' = Decimal.meanOf values := by
  rw [decimalMean_eq h, decimalMean_eq (h.imp fun _ hfit => hfit.subperm hperm.subperm), meanOf,
    meanOf, hperm.isEmpty_eq, hperm.sum_eq, hperm.length_eq]

/-- A sum of values that fit does not depend on their order. -/
theorem decimalSum_perm {values values' : List ℚ} (hperm : values'.Perm values)
    (h : ∃ unit, FitDigits Decimal.prec unit values) :
    Decimal.sum values' = Decimal.sum values := by
  rw [decimalSum_eq h, decimalSum_eq (h.imp fun _ hfit => hfit.subperm hperm.subperm),
    hperm.sum_eq]

/-- The losses add up exactly, the minus before each of them included. -/
theorem decimalLoss_eq (h : ExactFigures startingEquityUsdt trades) :
    Decimal.sum ((losses trades).map fun t => roundDigits Decimal.prec (-t.pnlUsdt)) =
      ((losses trades).map fun t => -t.pnlUsdt).sum := by
  have hlosses : (losses trades).Sublist trades := List.filter_sublist
  obtain ⟨unit, hfit⟩ := h.pnl_of hlosses
  have hneg : (losses trades).map (fun t => roundDigits Decimal.prec (-t.pnlUsdt)) =
      ((losses trades).map ClosedTradeMetrics.pnlUsdt).map fun p => -p := by
    rw [List.map_map]
    refine List.map_congr_left fun t ht => ?_
    have hone := (hfit.subperm (List.singleton_sublist.mpr
      (List.mem_map_of_mem (f := ClosedTradeMetrics.pnlUsdt) ht)).subperm).round_neg_sum
    rwa [List.sum_singleton] at hone
  rw [hneg, decimalSum_eq ⟨unit, hfit.neg⟩, List.map_map]
  rfl

/-- **The report depends on the order through the declines only**, where its sums are exact. -/
theorem summarize_eq_of_declines (h : trades'.Perm trades)
    (hexact : ExactFigures startingEquityUsdt trades)
    (hdeclines : ∀ start, drawdownAnchor startingEquityUsdt = some start →
      declinesAfter start trades' = declinesAfter start trades) :
    Decimal.summarize trades' startingEquityUsdt =
      Decimal.summarize trades startingEquityUsdt := by
  have hcount : ∀ test : ClosedTradeMetrics → Bool,
      (trades'.filter test).length = (trades.filter test).length :=
    fun test => (h.filter test).length_eq
  have hwinRate : Decimal.computeWinRate trades' = Decimal.computeWinRate trades := by
    rw [Decimal.computeWinRate, Decimal.computeWinRate, wins, wins, hcount, h.isEmpty_eq,
      h.length_eq]
  have hwinR : Decimal.computeAvgWinR trades' = Decimal.computeAvgWinR trades :=
    decimalMean_perm ((h.filter _).filterMap _) (hexact.r_of List.filter_sublist)
  have hlossR : Decimal.computeAvgLossR trades' = Decimal.computeAvgLossR trades :=
    decimalMean_perm ((h.filter _).filterMap _) (hexact.r_of List.filter_sublist)
  have hexpectancy : Decimal.computeExpectancyR trades' = Decimal.computeExpectancyR trades :=
    decimalMean_perm (h.filterMap _) hexact.r
  have htotalR : Decimal.computeTotalR trades' = Decimal.computeTotalR trades := by
    have hvalues := h.filterMap ClosedTradeMetrics.rMultiple
    simp only [Decimal.computeTotalR, hvalues.isEmpty_eq, decimalSum_perm hvalues hexact.r]
  have hpnl : Decimal.computeTotalPnlUsdt trades' = Decimal.computeTotalPnlUsdt trades :=
    decimalSum_perm (h.map _) (hexact.pnl_of (List.Sublist.refl _))
  have hfactor : Decimal.computeProfitFactor trades' = Decimal.computeProfitFactor trades := by
    have hprofit : Decimal.sum ((wins trades').map ClosedTradeMetrics.pnlUsdt) =
        Decimal.sum ((wins trades).map ClosedTradeMetrics.pnlUsdt) :=
      decimalSum_perm ((h.filter _).map _) (hexact.pnl_of List.filter_sublist)
    have hloss : ((losses trades').map fun t => -t.pnlUsdt).sum =
        ((losses trades).map fun t => -t.pnlUsdt).sum := ((h.filter _).map _).sum_eq
    rw [Decimal.computeProfitFactor, Decimal.computeProfitFactor, decimalLoss_eq hexact,
      decimalLoss_eq (hexact.perm h), hloss, hprofit]
  have hfees : Decimal.computeTotalFeesUsdt trades' = Decimal.computeTotalFeesUsdt trades :=
    decimalSum_perm (h.filterMap _) hexact.fees
  have hdrawdowns : (drawdownAnchor startingEquityUsdt).bind
          (Decimal.computeMaxDrawdownPct trades') =
        (drawdownAnchor startingEquityUsdt).bind (Decimal.computeMaxDrawdownPct trades) ∧
      (drawdownAnchor startingEquityUsdt).bind (Decimal.computeAvgDrawdownPct trades') =
        (drawdownAnchor startingEquityUsdt).bind (Decimal.computeAvgDrawdownPct trades) := by
    cases hanchor : drawdownAnchor startingEquityUsdt with
    | none => exact ⟨rfl, rfl⟩
    | some start => exact drawdowns_eq_of_declines h hexact hanchor (hdeclines start hanchor)
  obtain ⟨hmax, havg⟩ := hdrawdowns
  simp only [drawdownAnchor] at hmax havg
  simp only [Decimal.summarize, wins, losses, hcount, h.length_eq, hwinRate, hwinR, hlossR,
    hexpectancy, htotalR, hpnl, hfactor, hmax, havg, hfees]

/-! ## The order of ties -/

/-- **When the declines do not depend on the order.** -/
theorem declinesAfter_orderFree_iff (trades : List ClosedTradeMetrics)
    (startingEquityUsdt : Option ℚ) :
    (∀ trades', trades'.Perm trades → ∀ start, drawdownAnchor startingEquityUsdt = some start →
      declinesAfter start trades' = declinesAfter start trades) ↔
      TieSafe startingEquityUsdt trades := by
  have hascending : ∀ trades, Ascending ClosedTradeMetrics.closedAt (closeOrder trades) :=
    fun trades => sortBy_ascending _ trades
  have hclose : ∀ trades, (closeOrder trades).Perm trades := fun trades => sortBy_perm _ trades
  constructor
  · intro hfree start hanchor
    have hstart := drawdownAnchor_pos hanchor
    refine (tiesSafe_iff le_rfl hstart (hascending trades)).mpr fun rows hrows hperm => ?_
    -- an ascending arrangement is its own close order
    have hown : closeOrder rows = rows := sortBy_eq_self hrows
    have hdeclines := hfree rows (hperm.trans (hclose trades)) start hanchor
    rwa [declinesAfter, hown] at hdeclines
  · intro hsafe trades' hperm start hanchor
    have hperm := ((hclose trades').trans hperm).trans (hclose trades).symm
    have hstart := drawdownAnchor_pos hanchor
    exact (tiesSafe_iff le_rfl hstart (hascending trades)).mp (hsafe start hanchor) _
      (hascending trades') hperm

-- figures read off different declines may agree by chance: one loss and a trade without PnL
example :
    Decimal.summarize [{ pnlUsdt := 0, rMultiple := none, feesUsdt := none, closedAt := 0 },
        { pnlUsdt := -10, rMultiple := none, feesUsdt := none, closedAt := 0 }] (some 100) =
      Decimal.summarize [{ pnlUsdt := -10, rMultiple := none, feesUsdt := none, closedAt := 0 },
        { pnlUsdt := 0, rMultiple := none, feesUsdt := none, closedAt := 0 }] (some 100) := by
  decide +kernel

/-! ## The report in any order -/

/-- A trade that closed after some minutes. -/
def closedAfter (n : ℤ) (pnlUsdt : ℚ) : ClosedTradeMetrics :=
  { pnlUsdt, rMultiple := none, feesUsdt := none, closedAt := minutes n }

/-- A trade with the given R. -/
def closedWithR (n : ℤ) (rMultiple : ℚ) : ClosedTradeMetrics :=
  { pnlUsdt := 0, rMultiple := some rMultiple, feesUsdt := none, closedAt := minutes n }

-- sums that are not exact depend on the order too: four quotients at four distinct close times
example :
    let third := closedWithR 1 (roundDigits 28 (1 / 3))
    let twenty := closedWithR 2 (roundDigits 28 (20 / 3))
    let loss := closedWithR 3 (roundDigits 28 (-7 / 9))
    let hundred := closedWithR 4 (roundDigits 28 (100 / 7))
    Decimal.computeTotalR [third, twenty, loss, hundred] ≠
      Decimal.computeTotalR [third, loss, hundred, twenty] := by
  decide +kernel

end TradeMind.Analysis
