import TradeMind.Analysis.LedgerCalls
import TradeMind.Analysis.LossEvents
import TradeMind.Model.HistoricalReplay

/-!
# The loss streak of the offline mirrors

Production counts clusters of losses, the ledger keeps a counter and the replay scans its
trades; the two offline figures are one and the same (`mirrors_count_losses`), and they equal
production's exactly where no two successive losses of the newest losing run close within the
cluster window (`mirrors_count_events_iff`).
-/

set_option autoImplicit false

namespace TradeMind.Analysis

open TradeMind.Model TradeMind.Library TradeMind.Model.Backtest TradeMind.Model.Replay

/-- A closed trade as the statistic sees it: its PnL and its close time. -/
abbrev Close := ℚ × Time

/-- The close times of the newest losing run, oldest first. -/
def newestLosses (closes : List Close) : List Time :=
  ((closes.reverse.takeWhile fun close => close.1 < 0).reverse).map Prod.snd

/-- Each time lies past the window from the one before it. -/
def Spaced (window : Time) (times : List Time) : Prop :=
  times.IsChain fun earlier later => window < later - earlier

/-- One more close ends the losing run or makes it longer by one. -/
theorem newestLosses_append (closes : List Close) (close : Close) :
    newestLosses (closes ++ [close]) =
      if close.1 < 0 then newestLosses closes ++ [close.2] else [] := by
  by_cases hloss : close.1 < 0
  · simp [newestLosses, hloss]
  · simp [newestLosses, hloss]

/-! ## The cluster count -/

/-- The loop counts every loss exactly where the losses are spaced. -/
theorem clusterCount_eq_length_iff (window : Time) (times : List Time) :
    ((times.map some).foldl (clusterStep window) (0, none)).1 = times.length ↔
      Spaced window times := by
  have hiff := clusterCount_eq_length window (times.map some)
  rw [List.length_map, List.isChain_map] at hiff
  rw [hiff]
  exact List.IsChain.iff fun _ _ => opensEvent_some_iff

/-- Without a reset, the streak of rows is the newest losing run of their closes. -/
theorem streakCloseTimes_eq (rows : List Position) (closes : List Close)
    (h : rows.map (fun row => (row.pnlUsdt, row.closedAt)) =
      closes.map fun close => (some close.1, some close.2)) :
    streakCloseTimes none rows =
      (closes.takeWhile fun close => close.1 < 0).map fun close => some close.2 := by
  induction rows generalizing closes with
  | nil =>
    cases closes with
    | nil => rfl
    | cons close closes => cases h
  | cons row rows ih =>
    cases closes with
    | nil => cases h
    | cons close closes =>
      simp only [List.map_cons, List.cons.injEq, Prod.mk.injEq] at h
      obtain ⟨⟨hpnl, hclosed⟩, hrest⟩ := h
      by_cases hloss : close.1 < 0
      · simp [streakCloseTimes, hpnl, hclosed, hloss, ih closes hrest]
      · simp [streakCloseTimes, hpnl, hloss]

/-- **Production's count** on rows ordered newest first. -/
theorem countConsecutiveLosses_eq {rows : List Position} {closes : List Close}
    (h : rows.map (fun row => (row.pnlUsdt, row.closedAt)) =
      closes.reverse.map fun close => (some close.1, some close.2)) (window : Time) :
    (countConsecutiveLosses rows none window).1 =
      (((newestLosses closes).map some).foldl (clusterStep window) (0, none)).1 := by
  simp only [countConsecutiveLosses, streakCloseTimes_eq rows _ h, newestLosses,
    List.map_reverse, List.map_map]
  rfl

/-! ## The ledger's counter -/

/-- A call on a ledger; `close` records the close of a position under its symbol. -/
inductive LedgerCall
  | applyEntry (symbol : Symbol) (view : SignalView) (config : RiskConfig) (now : Time)
      (fillPrice : ℚ)
  | applyExitSignal (symbol : Symbol) (view : SignalView) (config : RiskConfig) (now : Time)
      (fillPrice : ℚ)
  | checkStaticExit (symbol : Symbol) (candle : Backtest.Candle) (candleCloseTime : Time)
  | close (position : SimPosition) (exitTime : Time) (exitPrice : ℚ) (reason : String)

/-- The ledger a call leaves, if it does not raise; `_record_close` raises where the ledger
holds no position under the symbol. -/
def LedgerCall.apply (ledger : Ledger) : LedgerCall → Option Ledger
  | .applyEntry symbol view config now fillPrice =>
    (ledger.applyEntry symbol view config now fillPrice).map Prod.fst
  | .applyExitSignal symbol view config now fillPrice =>
    (ledger.applyExitSignal symbol view config now fillPrice).map Prod.fst
  | .checkStaticExit symbol candle candleCloseTime =>
    (ledger.checkStaticExit symbol candle candleCloseTime).map Prod.fst
  | .close position exitTime exitPrice reason =>
    (ledger.positions.lookup position.symbol).map fun _ =>
      (ledger.recordClose position exitTime exitPrice reason).1

/-- The closes a ledger has recorded, oldest first. -/
def ledgerCloses (ledger : Ledger) : List Close :=
  ledger.closedTrades.map fun trade => (trade.pnlUsdt, trade.exitTime)

/-- What a call does to the closes and the counter, where the kill switch is not ignored:
nothing, or one close is recorded and counted. -/
structure CloseEffect (ledger ledger' : Ledger) : Prop where
  enforced : ledger'.ignoreKillswitch = false
  counted : (ledgerCloses ledger' = ledgerCloses ledger ∧
      ledger'.consecutiveLosses = ledger.consecutiveLosses) ∨
    ∃ close : Close, ledgerCloses ledger' = ledgerCloses ledger ++ [close] ∧
      ledger'.consecutiveLosses = if close.1 < 0 then ledger.consecutiveLosses + 1 else 0

theorem recordClose_effect {base ledger : Ledger} (hbase : base.ignoreKillswitch = false)
    (hcloses : ledgerCloses base = ledgerCloses ledger)
    (hcount : base.consecutiveLosses = ledger.consecutiveLosses) (position : SimPosition)
    (exitTime : Time) (exitPrice : ℚ) (reason : String) :
    CloseEffect ledger (base.recordClose position exitTime exitPrice reason).1 := by
  refine ⟨hbase, .inr ⟨((base.recordClose position exitTime exitPrice reason).2.pnlUsdt,
    exitTime), ?_, ?_⟩⟩
  · rw [← hcloses]
    exact List.map_append
  · rw [← hcount]
    rfl

/-- An entry closes nothing, and an auto-trip leaves the counter alone. -/
theorem EntryOutcome.closes {ledger : Ledger} (henforced : ledger.ignoreKillswitch = false)
    {symbol : Symbol} {view : SignalView} {config : RiskConfig} {now : Time} {fillPrice : ℚ}
    {out : Ledger × RiskDecisionResult × Option SimPosition}
    (h : EntryOutcome ledger symbol view config now fillPrice out) :
    CloseEffect ledger out.1 := by
  cases h with
  | entered sized hsizing hadmits => exact ⟨henforced, .inl ⟨rfl, rfl⟩⟩
  | rejected sized violation =>
    dsimp only
    split
    · exact ⟨henforced, .inl ⟨rfl, by simp [tripLedger, henforced]⟩⟩
    · exact ⟨henforced, .inl ⟨rfl, rfl⟩⟩

/-- A look closes nothing. -/
theorem Looked.closes {ledger ledger' : Ledger} (henforced : ledger.ignoreKillswitch = false)
    (h : Looked ledger ledger') :
    ledger'.ignoreKillswitch = false ∧ ledgerCloses ledger' = ledgerCloses ledger ∧
      ledger'.consecutiveLosses = ledger.consecutiveLosses := by
  cases h with
  | same => exact ⟨henforced, rfl, rfl⟩
  | moved symbol position peakPrice hlookup => exact ⟨henforced, rfl, rfl⟩

/-- An exit closes nothing or one position. -/
theorem ExitOutcome.closes {ledger ledger' : Ledger} (henforced : ledger.ignoreKillswitch = false)
    (h : ExitOutcome ledger ledger') : CloseEffect ledger ledger' := by
  cases h with
  | kept base hbase =>
    obtain ⟨hignore, hcloses, hcount⟩ := hbase.closes henforced
    exact ⟨hignore, .inl ⟨hcloses, hcount⟩⟩
  | closed base hbase position exitTime exitPrice reason =>
    obtain ⟨hignore, hcloses, hcount⟩ := hbase.closes henforced
    exact recordClose_effect hignore hcloses hcount position exitTime exitPrice reason

/-- **What a call does to the closes and the counter.** -/
theorem call_effect {ledger ledger' : Ledger} (henforced : ledger.ignoreKillswitch = false)
    (call : LedgerCall) (h : call.apply ledger = some ledger') :
    CloseEffect ledger ledger' := by
  cases call with
  | close position exitTime exitPrice reason =>
    obtain ⟨_, -, rfl⟩ := Option.map_eq_some_iff.mp h
    exact recordClose_effect henforced rfl rfl position exitTime exitPrice reason
  | applyEntry symbol view config now fillPrice =>
    obtain ⟨out, hout, rfl⟩ := Option.map_eq_some_iff.mp h
    exact (applyEntry_outcome hout).closes henforced
  | applyExitSignal symbol view config now fillPrice =>
    obtain ⟨out, hout, rfl⟩ := Option.map_eq_some_iff.mp h
    exact (applyExitSignal_outcome hout).closes henforced
  | checkStaticExit symbol candle candleCloseTime =>
    obtain ⟨out, hout, rfl⟩ := Option.map_eq_some_iff.mp h
    exact (checkStaticExit_outcome hout).closes henforced

/-- A ledger some calls lead to from one that has closed nothing and enforces its kill
switch. -/
def LedgerReached (ledger : Ledger) : Prop :=
  ∃ (start : Ledger) (calls : List LedgerCall), start.ignoreKillswitch = false ∧
    start.closedTrades = [] ∧ start.consecutiveLosses = 0 ∧
    runPartial LedgerCall.apply start calls = some ledger

/-- **The ledger's counter** is the length of the newest losing run of its closes. -/
theorem ledger_counts_losses {ledger : Ledger} (h : LedgerReached ledger) :
    ledger.consecutiveLosses = (newestLosses (ledgerCloses ledger)).length := by
  obtain ⟨start, calls, henforced, htrades, hcount, hrun⟩ := h
  have hinv : ledger.ignoreKillswitch = false ∧
      ledger.consecutiveLosses = (newestLosses (ledgerCloses ledger)).length := by
    apply runPartial_inv (P := fun _ ledger => ledger.ignoreKillswitch = false ∧
      ledger.consecutiveLosses = (newestLosses (ledgerCloses ledger)).length)
      _ _ (List.prefix_refl calls) hrun
    · exact ⟨henforced, by simp [hcount, ledgerCloses, htrades, newestLosses]⟩
    · rintro before call mid next - ⟨hmid, hlosses⟩ hcall
      obtain ⟨hnext, ⟨hcloses, hsame⟩ | ⟨close, hcloses, hnew⟩⟩ := call_effect hmid call hcall
      · exact ⟨hnext, by rw [hcloses, hsame, hlosses]⟩
      · refine ⟨hnext, ?_⟩
        rw [hcloses, hnew, newestLosses_append]
        split
        · simp [hlosses]
        · simp
  exact hinv.2

/-! ## The replay's scan -/

/-- The closes a simulator has recorded, oldest first. -/
def replayCloses (st : Simulator) : List Close :=
  st.trades.map fun trade => (trade.netPnlUsdt, trade.closedAt)

/-- A trade older than all the others goes last. -/
theorem orderedInsert_oldest (trade : ReplayTrade) (later : List ReplayTrade)
    (h : ∀ t ∈ later, trade.closedAt < t.closedAt) :
    later.orderedInsert (fun a b => b.closedAt ≤ a.closedAt) trade = later ++ [trade] := by
  induction later with
  | nil => rfl
  | cons t later ih =>
    have ht : ¬t.closedAt ≤ trade.closedAt := not_le.mpr (h t List.mem_cons_self)
    rw [List.orderedInsert, if_neg ht, ih fun t ht => h t (List.mem_cons_of_mem _ ht)]
    rfl

/-- Trades closed one after another come out reversed. -/
theorem newestFirst_eq_reverse (trades : List ReplayTrade)
    (h : trades.Pairwise fun a b => a.closedAt < b.closedAt) :
    newestFirst trades = trades.reverse := by
  induction trades with
  | nil => rfl
  | cons trade trades ih =>
    obtain ⟨hfirst, hrest⟩ := List.pairwise_cons.mp h
    have hsorted : trades.insertionSort (fun a b => b.closedAt ≤ a.closedAt) = trades.reverse :=
      ih hrest
    rw [newestFirst, List.insertionSort_cons, hsorted, List.reverse_cons]
    exact orderedInsert_oldest trade trades.reverse fun t ht =>
      hfirst t (List.mem_reverse.mp ht)

/-- **The replay's scan** counts the newest losing run of its closes. -/
theorem replay_counts_losses (config : ReplayConfig) (st : Simulator) (now : Time)
    (h : (replayCloses st).Pairwise fun a b => a.2 < b.2) :
    (st.accountState config now).consecutiveLosses = (newestLosses (replayCloses st)).length := by
  have htrades : st.trades.Pairwise fun a b => a.closedAt < b.closedAt := by
    simpa only [replayCloses, List.pairwise_map] using h
  have hsorted : newestFirst st.trades = st.trades.reverse :=
    newestFirst_eq_reverse st.trades htrades
  simp only [Simulator.accountState, hsorted, lossRun, newestLosses, replayCloses,
    List.length_map, List.length_reverse, ← List.map_reverse, List.takeWhile_map]
  rfl

/-! ## The three figures -/

/-- **When the mirrors feed production's streak.**  On the same closes, at distinct increasing
times, the two mirrors always give the same figure, and it is production's exactly where no
two successive losses of the newest losing run close within the cluster window. -/
theorem mirrors_count_events_iff (closes : List Close) (config : RiskConfig)
    (hincreasing : closes.Pairwise fun a b => a.2 < b.2) (ledger : Ledger)
    (hledger : LedgerReached ledger) (hledgerCloses : ledgerCloses ledger = closes)
    (replayConfig : ReplayConfig) (st : Simulator) (hreplay : replayCloses st = closes)
    (rows : List Position)
    (hrows : rows.map (fun row => (row.pnlUsdt, row.closedAt)) =
      closes.reverse.map fun close => (some close.1, some close.2)) (now : Time) :
    let window := minutes config.consecutiveLossClusterMinutes
    let production := (countConsecutiveLosses rows none window).1
    (ledger.accountState now).consecutiveLosses =
        (st.accountState replayConfig now).consecutiveLosses ∧
      ((ledger.accountState now).consecutiveLosses = production ∧
        (st.accountState replayConfig now).consecutiveLosses = production ↔
          Spaced window (newestLosses closes)) := by
  intro window production
  have hledgerCount : (ledger.accountState now).consecutiveLosses =
      (newestLosses closes).length := by
    rw [← hledgerCloses]
    exact ledger_counts_losses hledger
  have hreplayCount : (st.accountState replayConfig now).consecutiveLosses =
      (newestLosses closes).length := by
    rw [← hreplay]
    exact replay_counts_losses replayConfig st now (hreplay ▸ hincreasing)
  refine ⟨hledgerCount.trans hreplayCount.symm, ?_⟩
  rw [hledgerCount, hreplayCount, and_self, ← clusterCount_eq_length_iff,
    ← countConsecutiveLosses_eq hrows window]
  exact eq_comm

/-- A fresh ledger without fees. -/
def freeLedger : Ledger := { startingEquityUsdt := 10000, feePct := 0 }

/-- A position of one coin bought at 100. -/
def boughtAt100 (symbol : Symbol) : SimPosition :=
  { symbol, entryTime := 0, entryPrice := 100, sizeUsdt := 100, sizeBase := 1,
    stopLossPrice := 92, peakPrice := 100 }

/-- The same ledger, holding two such positions. -/
def holdingLedger : Ledger :=
  { freeLedger with
    positions := ((∅ : Dict Symbol SimPosition).insert "BTC/USDT" (boughtAt100 "BTC/USDT")).insert
      "ETH/USDT" (boughtAt100 "ETH/USDT") }

/-- The ledger after its positions were sold at 99, one at each of the given times. -/
def losingLedger (times : List Time) : Option Ledger :=
  runPartial LedgerCall.apply holdingLedger <|
    (["BTC/USDT", "ETH/USDT"].zip times).map fun (symbol, t) =>
      .close (boughtAt100 symbol) t 99 "atr_stoploss"

/-- The simulator with the same losses. -/
def losingSimulator (times : List Time) : Simulator :=
  { cash := 10000
    trades := times.map fun t =>
      { symbol := "BTC/USDT", openedAt := 0, closedAt := t, entryReferencePrice := 100,
        entryPrice := 100, exitReferencePrice := 99, exitPrice := 99, amount := 1,
        stakeUsdt := 100, entryFeeUsdt := 0, exitFeeUsdt := 0, grossPnlUsdt := -1,
        netPnlUsdt := -1, netPnlPct := -1 / 100, exitReason := "stop_loss" } }

/-- The rows of the same losses, newest first. -/
def losingRows (times : List Time) : List Position :=
  times.reverse.map fun t =>
    { id := 0, symbol := "BTC/USDT", status := .CLOSED, entryOrderId := 0, entryPrice := 100,
      amount := 1, pnlUsdt := some (-1), openedAt := 0, closedAt := some t }

/-- Two losses two hours apart. -/
theorem mirrors_count_events_two_hours :
    ∃ ledger, losingLedger [0, minutes 120] = some ledger ∧
      (ledger.accountState 0).consecutiveLosses =
        ((losingSimulator [0, minutes 120]).accountState defaultReplay 0).consecutiveLosses ∧
      ((ledger.accountState 0).consecutiveLosses =
          (countConsecutiveLosses (losingRows [0, minutes 120]) none (minutes 60)).1 ∧
        ((losingSimulator [0, minutes 120]).accountState defaultReplay 0).consecutiveLosses =
          (countConsecutiveLosses (losingRows [0, minutes 120]) none (minutes 60)).1 ↔
        Spaced (minutes 60) (newestLosses [(-1, 0), (-1, minutes 120)])) := by
  have hcloses : (losingLedger [0, minutes 120]).map ledgerCloses =
      some [(-1, 0), (-1, minutes 120)] := by decide +kernel
  obtain ⟨ledger, hrun, hledger⟩ := Option.map_eq_some_iff.mp hcloses
  exact ⟨ledger, hrun,
    mirrors_count_events_iff [(-1, 0), (-1, minutes 120)] {} (by decide +kernel) ledger
      ⟨holdingLedger, _, rfl, rfl, rfl, hrun⟩ hledger defaultReplay
      (losingSimulator [0, minutes 120]) (by decide +kernel) (losingRows [0, minutes 120])
      (by decide +kernel) 0⟩

/-- Two losses ten minutes apart count twice in the mirrors and once in production. -/
theorem mirrors_count_cluster_twice :
    ((losingLedger [0, minutes 10]).map fun ledger =>
        (ledger.accountState 0).consecutiveLosses) = some 2 ∧
      ((losingSimulator [0, minutes 10]).accountState defaultReplay 0).consecutiveLosses = 2 ∧
      (countConsecutiveLosses (losingRows [0, minutes 10]) none
        (minutes ({} : RiskConfig).consecutiveLossClusterMinutes)).1 = 1 := by
  decide +kernel

end TradeMind.Analysis
