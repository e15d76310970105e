import TradeMind.Analysis.ReplayOrders

/-!
# The clock of the historical replay

Candles are taken in the order of their open times, while decisions, equity points and most
closes are stamped with close times.  The stamps are in order, and a signal sees only trades
that have closed, exactly when the candles close in the order they open.
-/

set_option autoImplicit false

namespace TradeMind.Analysis

open TradeMind.Model TradeMind.Library TradeMind.Model.Replay

/-! ## Candles in the order of their closes -/

/-- No candle closes before one that opens earlier, or opens with it under a smaller symbol. -/
def CloseInOrder (candles : List Candle) : Prop :=
  ∀ a ∈ candles, ∀ b ∈ candles, OpensBefore a b → a.closeTime ≤ b.closeTime

instance : IsTrans Candle OpensBefore where
  trans a b c hab hbc := by
    rcases hab with hab | ⟨hab, habSymbol⟩
    · rcases hbc with hbc | ⟨hbc, -⟩
      · exact .inl (hab.trans hbc)
      · exact .inl (hab.trans_eq hbc)
    · rcases hbc with hbc | ⟨hbc, hbcSymbol⟩
      · exact .inl (hab.trans_lt hbc)
      · exact .inr ⟨hab.trans hbc, String.le_trans habSymbol hbcSymbol⟩

instance : Std.Total OpensBefore where
  total a b := by
    rcases lt_trichotomy a.openTime b.openTime with h | h | h
    · exact .inl (.inl h)
    · rcases String.le_total a.symbol b.symbol with hsymbol | hsymbol
      · exact .inl (.inr ⟨h, hsymbol⟩)
      · exact .inr (.inr ⟨h.symm, hsymbol⟩)
    · exact .inr (.inl h)

/-- The validated candles are the given ones in the order of their opens. -/
theorem validate_sorted {candles ordered : List Candle}
    (h : validateAndOrderCandles candles = some ordered) :
    ordered.Pairwise OpensBefore ∧ ordered.Perm candles := by
  unfold validateAndOrderCandles at h
  dsimp only at h
  split at h
  · cases h
  · split at h
    · cases Option.some.inj h
      exact ⟨List.pairwise_insertionSort _ _, List.perm_insertionSort _ _⟩
    · cases h

/-- Two candles of one symbol that do not overlap do not open together. -/
theorem not_opensBefore_of_separated {a b : Candle} (hopen : OpensBefore a b)
    (hseparated : a.symbol = b.symbol → a.closeTime ≤ b.openTime) : ¬ OpensBefore b a := by
  intro hback
  have hsame : a.openTime = b.openTime ∧ a.symbol = b.symbol := by
    rcases hopen with hlt | ⟨heq, hle⟩
    · rcases hback with hback | ⟨hback, -⟩
      · exact absurd hback hlt.asymm
      · exact absurd hback hlt.ne'
    · rcases hback with hback | ⟨-, hge⟩
      · exact absurd heq hback.ne'
      · exact ⟨heq, String.le_antisymm hle hge⟩
  have hclose := hseparated hsame.2
  rw [← hsame.1] at hclose
  exact absurd hclose (not_le.mpr a.times)

/-- **In the order of their opens, candles close in order** when their close times are
nondecreasing. -/
theorem closeInOrder_iff {candles : List Candle} (hsorted : candles.Pairwise OpensBefore)
    (hseparated : Separated candles) :
    CloseInOrder candles ↔ (candles.map Candle.closeTime).Pairwise (· ≤ ·) := by
  rw [List.pairwise_map]
  constructor
  · intro h
    exact hsorted.imp_of_mem fun ha hb hopen => h _ ha _ hb hopen
  · -- of two candles the other way round, the earlier one does not open later
    intro h a ha b hb hopen
    have hforward : candles.Pairwise fun a b => OpensBefore a b → a.closeTime ≤ b.closeTime :=
      h.imp fun {a b} hclose (_ : OpensBefore a b) => hclose
    have hbackward : candles.Pairwise (flip fun a b => OpensBefore a b →
        a.closeTime ≤ b.closeTime) :=
      (hsorted.and hseparated).imp fun h hback =>
        absurd hback (not_opensBefore_of_separated h.1 h.2)
    exact List.Pairwise.forall_of_forall_of_flip (fun _ _ _ => le_rfl) hforward hbackward
      ha hb hopen

/-! ## The stamps -/

/-- Every trade closed at the open or the close of one of `candles`. -/
def ClosedIn (candles : List Candle) (trades : List ReplayTrade) : Prop :=
  ∀ trade ∈ trades, ∃ candle ∈ candles,
    trade.closedAt = candle.openTime ∨ trade.closedAt = candle.closeTime

/-- What a replay has stamped after the candles `past`: an equity point at each close, decisions
at some of them, and trades at opens and closes. -/
structure Stamped (past : List Candle) (st : Simulator) : Prop where
  equity : st.equityCurve.map EquityPoint.timestamp = past.map Candle.closeTime
  decisions : (st.decisions.map ReplayDecision.candleCloseTime).Sublist
    (past.map Candle.closeTime)
  trades : ClosedIn past st.trades

variable {config : ReplayConfig} {signalsByKey : Symbol → Time → Option SyntheticSignal}
  {past candles : List Candle} {st st' : Simulator} {candle : Candle}

theorem closePosition_closedIn {symbol : Symbol} {closedAt : Time} {reference fill : ℚ}
    {reason : String} (hst : ClosedIn candles st.trades) (hcandle : candle ∈ candles)
    (htime : closedAt = candle.openTime ∨ closedAt = candle.closeTime)
    (h : closePosition config st symbol closedAt reference fill reason = some st') :
    ClosedIn candles st'.trades ∧ st'.decisions = st.decisions ∧
      st'.equityCurve = st.equityCurve := by
  obtain ⟨position, -, -, rfl⟩ := closePosition_some h
  refine ⟨fun trade htrade => ?_, rfl, rfl⟩
  rcases List.mem_append.mp htrade with hold | hnew
  · exact hst trade hold
  · cases List.mem_singleton.mp hnew
    exact ⟨candle, hcandle, htime⟩

/-- The open of a candle closes a trade at its open time at most. -/
theorem executePending_closedIn (hst : ClosedIn candles st.trades) (hcandle : candle ∈ candles)
    (h : executePending config st candle = some st') :
    ClosedIn candles st'.trades ∧ st'.decisions = st.decisions ∧
      st'.equityCurve = st.equityCurve := by
  have hdrop : ClosedIn candles (dropPending st candle.symbol).trades := hst
  exact executePending_inv (P := fun st' => ClosedIn candles st'.trades ∧
    st'.decisions = st.decisions ∧ st'.equityCurve = st.equityCurve) ⟨hst, rfl, rfl⟩
    ⟨hst, rfl, rfl⟩ (fun _ _ _ _ _ _ => ⟨hst, rfl, rfl⟩)
    (fun st' => closePosition_closedIn hdrop hcandle (.inl rfl)) h

/-- The safety exits close a trade at the open or the close time at most. -/
theorem applySafetyExits_closedIn (hst : ClosedIn candles st.trades) (hcandle : candle ∈ candles)
    (h : applySafetyExits config st candle = some st') :
    ClosedIn candles st'.trades ∧ st'.decisions = st.decisions ∧
      st'.equityCurve = st.equityCurve := by
  rcases applySafetyExits_cases h with rfl | ⟨_, _, _, _, _, _, htime, _, hclose⟩
  · exact ⟨hst, rfl, rfl⟩
  · exact closePosition_closedIn hst hcandle htime hclose

/-- **What a signal sees**: trades closed in the candles so far or in its own. -/
theorem beforeSignal_closedIn (hst : ClosedIn past st.trades)
    (h : beforeSignal config st candle = some st') :
    ClosedIn (past ++ [candle]) st'.trades ∧ st'.decisions = st.decisions ∧
      st'.equityCurve = st.equityCurve := by
  have hwider : ClosedIn (past ++ [candle]) st.trades := by
    intro trade htrade
    obtain ⟨source, hsource, htime⟩ := hst trade htrade
    exact ⟨source, List.mem_append_left _ hsource, htime⟩
  have hlast : candle ∈ past ++ [candle] := List.mem_append_right _ List.mem_cons_self
  unfold beforeSignal at h
  split at h
  · cases h
  · rename_i filled hfill
    obtain ⟨hfilled, hfilledDecisions, hfilledEquity⟩ :=
      executePending_closedIn hwider hlast hfill
    split at h
    · cases h
    · rename_i safe hsafe
      obtain ⟨hsafe, hsafeDecisions, hsafeEquity⟩ :=
        applySafetyExits_closedIn hfilled hlast hsafe
      cases Option.some.inj h
      exact ⟨hsafe, hsafeDecisions.trans hfilledDecisions, hsafeEquity.trans hfilledEquity⟩

/-- **One candle** stamps one equity point and at most one decision with its close time. -/
theorem processCandle_stamped (hst : Stamped past st)
    (h : processCandle config signalsByKey st candle = some st') :
    Stamped (past ++ [candle]) st' := by
  unfold processCandle at h
  split at h
  · cases h
  · rename_i priced hpriced
    obtain ⟨htrades, hdecisions, hequity⟩ := beforeSignal_closedIn hst.trades hpriced
    split at h
    · cases Option.some.inj h
      refine ⟨?_, ?_, htrades⟩
      · simp [recordEquity, hequity, hst.equity]
      · rw [recordEquity, hdecisions, List.map_append]
        exact hst.decisions.trans (List.sublist_append_left _ _)
    · rename_i signal hsignal
      obtain ⟨decided, hdecided, rfl⟩ := Option.map_eq_some_iff.mp h
      obtain ⟨-, -, decision, _, hstamp, hcases⟩ := processSignal_cases hdecided
      have hdecided : decided.equityCurve = st.equityCurve ∧
          decided.decisions = st.decisions ++ [decision] ∧ decided.trades = priced.trades := by
        rcases hcases with rfl | ⟨_, -, -, rfl⟩
        · exact ⟨hequity, by rw [hdecisions], rfl⟩
        · exact ⟨hequity, by rw [hdecisions], rfl⟩
      refine ⟨?_, ?_, hdecided.2.2 ▸ htrades⟩
      · simp [recordEquity, hdecided.1, hst.equity]
      · rw [recordEquity, hdecided.2.1, List.map_append, List.map_append, List.map_singleton,
          hstamp]
        exact hst.decisions.append (List.Sublist.refl _)

theorem simulate_stamped (h : simulate config signalsByKey candles = some st) :
    Stamped candles st := by
  apply runPartial_inv (P := Stamped) _ _ (List.prefix_refl candles) h
  · exact ⟨rfl, List.Sublist.refl _, fun trade htrade => absurd htrade List.not_mem_nil⟩
  · intro before candle mid next _ hmid hstep
    exact processCandle_stamped hmid hstep

/-! ## The clock of a whole run -/

/-- Each account state a signal of the candles is decided on sees only trades that have closed
by then. -/
def SeesOnlyPast (config : ReplayConfig)
    (signalsByKey : Symbol → Time → Option SyntheticSignal) (candles : List Candle) : Prop :=
  ∀ past candle rest boundary priced, candles = past ++ candle :: rest →
    simulate config signalsByKey past = some boundary →
    beforeSignal config boundary candle = some priced →
    (signalsByKey candle.symbol candle.closeTime).isSome →
    ∀ trade ∈ priced.trades, trade.closedAt ≤ candle.closeTime

/-- The stamps of a replay are in order, and its signals see only the past. -/
structure Chronological (config : ReplayConfig)
    (signalsByKey : Symbol → Time → Option SyntheticSignal) (candles : List Candle)
    (decisions : List ReplayDecision) (equityCurve : List EquityPoint) : Prop where
  equity : (equityCurve.map EquityPoint.timestamp).Pairwise (· ≤ ·)
  decisions : (decisions.map ReplayDecision.candleCloseTime).Pairwise (· ≤ ·)
  account : SeesOnlyPast config signalsByKey candles

/-- Where candles close in order, a signal sees only the past. -/
theorem seesOnlyPast_of_closeInOrder (hsorted : candles.Pairwise OpensBefore)
    (h : CloseInOrder candles) : SeesOnlyPast config signalsByKey candles := by
  rintro past candle rest boundary priced rfl hboundary hpriced - trade htrade
  obtain ⟨source, hsource, htime⟩ :=
    (beforeSignal_closedIn (simulate_stamped hboundary).trades hpriced).1 trade htrade
  have hclosed : source.closeTime ≤ candle.closeTime := by
    rcases List.mem_append.mp hsource with hpast | hlast
    · refine h source (List.mem_append_left _ hpast) candle
        (List.mem_append_right _ List.mem_cons_self) ?_
      exact (List.pairwise_append.mp hsorted).2.2 source hpast candle List.mem_cons_self
    · cases List.mem_singleton.mp hlast
      exact le_rfl
  rcases htime with hopen | hclose
  · exact hopen ▸ source.times.le.trans hclosed
  · exact hclose ▸ hclosed

/-- After sorted and separated candles, the replay is chronological exactly when they close in
order. -/
theorem chronological_iff (hsorted : candles.Pairwise OpensBefore)
    (hseparated : Separated candles) (h : simulate config signalsByKey candles = some st) :
    Chronological config signalsByKey candles st.decisions st.equityCurve ↔
      CloseInOrder candles := by
  have hstamped := simulate_stamped h
  have hiff := closeInOrder_iff hsorted hseparated
  constructor
  · intro hchrono
    exact hiff.mpr (hstamped.equity ▸ hchrono.equity)
  · intro horder
    exact
      { equity := hstamped.equity ▸ hiff.mp horder
        decisions := (hiff.mp horder).sublist hstamped.decisions
        account := seesOnlyPast_of_closeInOrder hsorted horder }

/-- **The replay is chronological exactly when the candles close in the order they open**: after
every list of candles a run gets through, and for the result it returns; where they do, also the
signals of a run that raises see only the past. -/
theorem replay_chronological_iff (config : ReplayConfig) (candles ordered : List Candle)
    (signals : List SyntheticSignal) (signalsByKey : Symbol → Time → Option SyntheticSignal)
    (hvalid : validateAndOrderCandles candles = some ordered)
    (hindex : indexSignals signals = some signalsByKey) :
    (∀ before st, before <+: ordered → simulate config signalsByKey before = some st →
      (Chronological config signalsByKey before st.decisions st.equityCurve ↔
        CloseInOrder before)) ∧
    (∀ result, run config candles signals = some result →
      (Chronological config signalsByKey ordered result.decisions result.equityCurve ↔
        CloseInOrder candles)) ∧
    (CloseInOrder candles → SeesOnlyPast config signalsByKey ordered) := by
  obtain ⟨hsorted, hperm⟩ := validate_sorted hvalid
  have hseparated := validate_separated hvalid
  have hsame : CloseInOrder ordered ↔ CloseInOrder candles := by
    simp only [CloseInOrder, hperm.mem_iff]
  refine ⟨fun before st hpre hst => ?_, fun result hrun => ?_, fun horder => ?_⟩
  · exact chronological_iff (hsorted.sublist hpre.sublist)
      (hseparated.sublist hpre.sublist) hst
  · simp only [run, hvalid, hindex] at hrun
    obtain ⟨st, hst, rfl⟩ := Option.map_eq_some_iff.mp hrun
    exact (chronological_iff hsorted hseparated hst).trans hsame
  · exact seesOnlyPast_of_closeInOrder hsorted (hsame.mpr horder)

theorem closeInOrder_of_duration (duration : Time)
    (h : ∀ candle ∈ candles, candle.closeTime = candle.openTime + duration) :
    CloseInOrder candles := by
  intro a ha b hb hopen
  rw [h a ha, h b hb]
  rcases hopen with hlt | ⟨heq, -⟩
  · exact add_le_add_left hlt.le duration
  · exact heq ▸ le_rfl

/-- Hourly candles of one symbol. -/
theorem replay_chronological_iff_steady :
    ∃ signalsByKey result,
      run defaultReplay steadyCandles [buySignal "BTC/USDT" (minutes 60)] = some result ∧
      Chronological defaultReplay signalsByKey steadyCandles result.decisions
        result.equityCurve := by
  have hrun : ((run defaultReplay steadyCandles [buySignal "BTC/USDT" (minutes 60)]).map
      fun result => result.trades.length).isSome = true := by decide +kernel
  obtain ⟨result, hresult⟩ := Option.isSome_iff_exists.mp (Option.isSome_map.symm.trans hrun)
  refine ⟨_, result, hresult, ((replay_chronological_iff defaultReplay steadyCandles
    steadyCandles [buySignal "BTC/USDT" (minutes 60)] firstHourSignals steadyCandles_valid
    firstHourSignals_indexed).2.1 result hresult).mpr ?_⟩
  refine closeInOrder_of_duration (minutes 60) fun candle hcandle => ?_
  simp only [steadyCandles, List.mem_cons, List.not_mem_nil, or_false] at hcandle
  rcases hcandle with rfl | rfl
  · rfl
  · rfl

/-- A candle of one symbol inside a longer one of another. -/
def nestedCandles : List Candle :=
  [flatCandle "BTC/USDT" 0 (minutes 100) 50 (by decide) (by decide +kernel),
    flatCandle "ETH/USDT" (minutes 10) (minutes 10) 50 (by decide) (by decide +kernel)]

/-- The longer candle is decided and valued first, at its later close. -/
theorem replay_not_chronological :
    (run defaultReplay nestedCandles
      [buySignal "BTC/USDT" (minutes 100), buySignal "ETH/USDT" (minutes 20)]).map
        (fun result => (result.equityCurve.map EquityPoint.timestamp,
          result.decisions.map ReplayDecision.candleCloseTime)) =
      some ([minutes 100, minutes 20], [minutes 100, minutes 20]) := by
  decide +kernel

end TradeMind.Analysis
