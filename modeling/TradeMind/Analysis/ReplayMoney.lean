import Mathlib.Tactic.Ring
import TradeMind.Analysis.ReplaySteps

/-!
# Money in the historical replay

Cash is the starting equity less what the open positions cost plus what the closed trades
earned (`Balanced`), after every candle; where the size scale has a nonnegative floor it is
never negative (`Solvent`).  The reported net PnL is the closed trades' and the open positions'
marked to the last price.
-/

set_option autoImplicit false

namespace TradeMind.Analysis

open TradeMind.Model TradeMind.Library TradeMind.Model.Replay

/-! ## The balance -/

/-- A position bought at a positive price for its stake. -/
def PaidFor (position : OpenPosition) : Prop :=
  0 < position.entryPrice ∧ position.amount * position.entryPrice = position.stakeUsdt

/-- The net PnL of a closed trade is its gross PnL less both fees. -/
def NetOfFees (trade : ReplayTrade) : Prop :=
  trade.netPnlUsdt = trade.grossPnlUsdt - trade.entryFeeUsdt - trade.exitFeeUsdt

/-- The invariant of the replay's books: the cash is what the open positions have not taken and the
trades have returned, and every position and trade accounts for its fees. -/
structure Balanced (config : ReplayConfig) (st : Simulator) : Prop where
  cash : st.cash = config.startingEquityUsdt -
    Dict.total OpenPosition.totalCost st.positions + (st.trades.map ReplayTrade.netPnlUsdt).sum
  paid : ∀ position ∈ Dict.values st.positions, PaidFor position
  net : ∀ trade ∈ st.trades, NetOfFees trade

variable {config : ReplayConfig} {st st' : Simulator} {candle : Candle}

/-- The fill price of an entry is positive. -/
theorem entryPrice_pos (config : ReplayConfig) (candle : Candle) (stakeUsdt : ℚ) :
    0 < (entryPosition config candle stakeUsdt).entryPrice :=
  mul_pos candle.open_pos (add_pos_of_pos_of_nonneg one_pos config.slippage_nonneg)

theorem entryPosition_paid (config : ReplayConfig) (candle : Candle) (stakeUsdt : ℚ) :
    PaidFor (entryPosition config candle stakeUsdt) :=
  ⟨entryPrice_pos config candle stakeUsdt,
    div_mul_cancel₀ stakeUsdt (entryPrice_pos config candle stakeUsdt).ne'⟩

/-- The row of a position that was paid for is net of its fees. -/
theorem closedTrade_net {position : OpenPosition} (h : PaidFor position) (symbol : Symbol)
    (closedAt : Time) (reference fill : ℚ) (reason : String) :
    NetOfFees (closedTrade config position symbol closedAt reference fill reason) := by
  simp only [NetOfFees, closedTrade, exitProceeds]
  rw [mul_sub, h.2]
  ring

/-- A close keeps the balance: what leaves the positions' cost comes back as net PnL. -/
theorem closePosition_balanced {symbol : Symbol} {closedAt : Time} {reference fill : ℚ}
    {reason : String} (hst : Balanced config st)
    (h : closePosition config st symbol closedAt reference fill reason = some st') :
    Balanced config st' := by
  obtain ⟨position, hposition, -, rfl⟩ := closePosition_some h
  have hpaid : PaidFor position := hst.paid position (Dict.mem_values.mpr ⟨symbol, hposition⟩)
  have htotal := Dict.total_erase OpenPosition.totalCost hposition
  refine ⟨?_, fun p hp => hst.paid p (Dict.mem_values_of_erase hp), ?_⟩
  · have hnet : (closedTrade config position symbol closedAt reference fill reason).netPnlUsdt =
        exitProceeds config position fill - position.totalCost := by
      simp only [closedTrade, OpenPosition.totalCost]
      ring
    simp only [List.map_append, List.map_cons, List.map_nil, List.sum_append, List.sum_singleton,
      hnet]
    rw [hst.cash, htotal]
    ring
  · intro trade htrade
    rcases List.mem_append.mp htrade with hold | hnew
    · exact hst.net trade hold
    · rw [List.mem_singleton.mp hnew]
      exact closedTrade_net hpaid symbol closedAt reference fill reason

/-- The open of a candle keeps the balance. -/
theorem executePending_balanced (st st' : Simulator) (hst : Balanced config st)
    (h : executePending config st candle = some st') : Balanced config st' := by
  have hdrop : Balanced config (dropPending st candle.symbol) := ⟨hst.cash, hst.paid, hst.net⟩
  refine executePending_inv hst hdrop ?_ (fun st' => closePosition_balanced hdrop) h
  intro order stakeUsdt _ _ _ hfresh
  refine ⟨?_, ?_, hst.net⟩
  · simp only [dropPending]
    rw [Dict.total_insert OpenPosition.totalCost _ hfresh, hst.cash]
    ring
  · intro position hposition
    rcases Dict.mem_values_of_insert hposition with rfl | hold
    · exact entryPosition_paid config candle stakeUsdt
    · exact hst.paid position hold

theorem applySafetyExits_balanced (st st' : Simulator) (hst : Balanced config st)
    (h : applySafetyExits config st candle = some st') : Balanced config st' := by
  rcases applySafetyExits_cases h with rfl | ⟨_, _, _, _, _, _, _, _, hclose⟩
  · exact hst
  · exact closePosition_balanced hst hclose

theorem processSignal_balanced (st st' : Simulator) (signal : SyntheticSignal)
    (hst : Balanced config st) (h : processSignal config st candle signal = some st') :
    Balanced config st' := by
  obtain ⟨-, -, _, _, -, rfl | ⟨_, -, -, rfl⟩⟩ := processSignal_cases h
  · exact ⟨hst.cash, hst.paid, hst.net⟩
  · exact ⟨hst.cash, hst.paid, hst.net⟩

/-- **The books balance after every candle.** -/
theorem simulate_balanced {signalsByKey : Symbol → Time → Option SyntheticSignal}
    {ordered : List Candle} (h : simulate config signalsByKey ordered = some st) :
    Balanced config st := by
  apply runPartial_inv (P := fun _ st => Balanced config st) _ _ (List.prefix_refl ordered) h
  · exact ⟨by simp [Simulator.fresh], by simp [Simulator.fresh, Dict.values],
      by simp [Simulator.fresh]⟩
  · intro before candle mid next _ hmid hstep
    exact processCandle_inv executePending_balanced applySafetyExits_balanced
      (fun st hst => ⟨hst.cash, hst.paid, hst.net⟩) processSignal_balanced
      (fun st hst => ⟨hst.cash, hst.paid, hst.net⟩) hmid hstep

/-! ## No debt -/

/-- A position that can only bring money in. -/
structure LongPosition (position : OpenPosition) : Prop where
  amount : 0 ≤ position.amount
  cost : 0 ≤ position.totalCost
  stop : 0 ≤ position.stopPrice

/-- Cash and everything that moves it is nonnegative. -/
structure Solvent (st : Simulator) : Prop where
  cash : 0 ≤ st.cash
  positions : ∀ position ∈ Dict.values st.positions, LongPosition position
  pending : ∀ order ∈ Dict.values st.pending, ∀ stakeUsdt, order.side = .BUY stakeUsdt →
    0 ≤ stakeUsdt

/-- An entry with a nonnegative stake is long. -/
theorem entryPosition_long (candle : Candle) {stakeUsdt : ℚ} (h : 0 ≤ stakeUsdt) :
    LongPosition (entryPosition config candle stakeUsdt) where
  amount := div_nonneg h (entryPrice_pos config candle stakeUsdt).le
  cost := add_nonneg h (mul_nonneg h config.fee_nonneg)
  stop := mul_nonneg (entryPrice_pos config candle stakeUsdt).le
    (sub_nonneg.mpr config.stop_lt.le)

/-- A long position brings in a nonnegative amount at a nonnegative price. -/
theorem exitProceeds_nonneg {position : OpenPosition} (h : LongPosition position) {fill : ℚ}
    (hfill : 0 ≤ fill) : 0 ≤ exitProceeds config position fill := by
  have hgross := mul_nonneg h.amount hfill
  have hfee := mul_nonneg hgross (sub_nonneg.mpr config.fee_lt.le)
  simp only [exitProceeds]
  linarith

/-- A target of the ROI table is nonnegative. -/
theorem roiTarget_nonneg (ageMinutes : ℚ) : 0 ≤ roiTarget ageMinutes := by
  unfold roiTarget
  split
  · norm_num
  · split
    · norm_num
    · split <;> norm_num

/-- A safety exit of a long position fills at a nonnegative price. -/
theorem SafetyFill.nonneg {position : OpenPosition} {fill : ℚ}
    (h : SafetyFill config candle position fill id) (hlong : LongPosition position) :
    0 ≤ fill := by
  have hslip : 0 ≤ 1 - config.slippageRate := by linarith [config.slippage_lt]
  cases h with
  | stop heq => exact heq ▸ mul_nonneg hlong.stop hslip
  | atOpen heq => exact heq ▸ mul_nonneg candle.open_pos.le hslip
  | target ageMinutes heq =>
    rw [priceForNetReturn_exact] at heq
    split at heq
    · cases heq
    · cases Option.some.inj heq
      exact div_nonneg
        (mul_nonneg hlong.cost (by linarith [roiTarget_nonneg ageMinutes]))
        (mul_nonneg hlong.amount (by linarith [config.fee_lt]))

/-- A close at a nonnegative price keeps the replay solvent. -/
theorem closePosition_solvent {symbol : Symbol} {closedAt : Time} {reference fill : ℚ}
    {reason : String} (hst : Solvent st)
    (hfill : ∀ position, st.positions.lookup symbol = some position →
      LongPosition position → 0 ≤ fill)
    (h : closePosition config st symbol closedAt reference fill reason = some st') :
    Solvent st' := by
  obtain ⟨position, hposition, -, rfl⟩ := closePosition_some h
  have hlong := hst.positions position (Dict.mem_values.mpr ⟨symbol, hposition⟩)
  exact
    { cash := add_nonneg hst.cash
        (exitProceeds_nonneg hlong (hfill position hposition hlong))
      positions := fun p hp => hst.positions p (Dict.mem_values_of_erase hp)
      pending := hst.pending }

/-- The open of a candle keeps the replay solvent: an entry is paid only from cash. -/
theorem executePending_solvent (st st' : Simulator) (hst : Solvent st)
    (h : executePending config st candle = some st') : Solvent st' := by
  have hdrop : Solvent (dropPending st candle.symbol) :=
    ⟨hst.cash, hst.positions, fun order horder =>
      hst.pending order (Dict.mem_values_of_erase horder)⟩
  refine executePending_inv hst hdrop ?_ ?_ h
  · intro order stakeUsdt horder hside haffordable _
    have hstake : 0 ≤ stakeUsdt :=
      hst.pending order (Dict.mem_values.mpr ⟨_, horder⟩) stakeUsdt hside
    refine ⟨sub_nonneg.mpr haffordable, ?_, hdrop.pending⟩
    intro position hposition
    rcases Dict.mem_values_of_insert hposition with rfl | hold
    · exact entryPosition_long candle hstake
    · exact hst.positions position hold
  · intro st' hclose
    refine closePosition_solvent hdrop (fun _ _ _ => ?_) hclose
    exact mul_nonneg candle.open_pos.le (sub_nonneg.mpr config.slippage_lt.le)

theorem applySafetyExits_solvent (st st' : Simulator) (hst : Solvent st)
    (h : applySafetyExits config st candle = some st') : Solvent st' := by
  rcases applySafetyExits_cases h with rfl | ⟨position, _, _, _, _, hposition, _, hfill, hclose⟩
  · exact hst
  · refine closePosition_solvent hst (fun other hother hlong => ?_) hclose
    rw [hposition] at hother
    cases Option.some.inj hother
    exact hfill.nonneg hlong

/-- A signal leaves a nonnegative stake pending where the scale's floor is nonnegative. -/
theorem processSignal_solvent (hscale : 0 ≤ config.risk.minConfidenceSizeScale)
    (st st' : Simulator) (signal : SyntheticSignal) (hst : Solvent st)
    (h : processSignal config st candle signal = some st') : Solvent st' := by
  obtain ⟨-, -, _, _, -, rfl | ⟨side, hordered, -, rfl⟩⟩ := processSignal_cases h
  · exact ⟨hst.cash, hst.positions, hst.pending⟩
  · refine ⟨hst.cash, hst.positions, fun order horder stakeUsdt hside => ?_⟩
    rcases Dict.mem_values_of_insert horder with rfl | hold
    · subst hside
      cases hordered with
      | entry _ result heval happroved hstake =>
        obtain ⟨candidate, hsizing, -, hresult⟩ := evaluate_admitted heval happroved
        have hsize := congrArg RiskDecisionResult.positionSizeUsdt hresult
        rw [hsize] at hstake
        cases Option.some.inj hstake
        exact computeSizing_size_nonneg hsizing hscale
    · exact hst.pending order hold stakeUsdt hside

/-- **No debt**: cash is nonnegative after every candle. -/
theorem simulate_solvent {signalsByKey : Symbol → Time → Option SyntheticSignal}
    {ordered : List Candle} (hscale : 0 ≤ config.risk.minConfidenceSizeScale)
    (h : simulate config signalsByKey ordered = some st) : Solvent st := by
  apply runPartial_inv (P := fun _ st => Solvent st) _ _ (List.prefix_refl ordered) h
  · exact ⟨config.equity_pos.le, by simp [Simulator.fresh, Dict.values],
      by simp [Simulator.fresh, Dict.values]⟩
  · intro before candle mid next _ hmid hstep
    exact processCandle_inv executePending_solvent applySafetyExits_solvent
      (fun st hst => ⟨hst.cash, hst.positions, hst.pending⟩) (processSignal_solvent hscale)
      (fun st hst => ⟨hst.cash, hst.positions, hst.pending⟩) hmid hstep

/-! ## The mark -/

/-- The close of the last candle of a symbol. -/
def lastClose (candles : List Candle) (symbol : Symbol) : Option ℚ :=
  ((candles.filter fun candle => candle.symbol = symbol).getLast?).map Candle.close

theorem lastClose_append (before : List Candle) (candle : Candle) :
    lastClose (before ++ [candle]) =
      Function.update (lastClose before) candle.symbol (some candle.close) := by
  funext symbol
  by_cases hsymbol : candle.symbol = symbol
  · subst hsymbol
    simp [lastClose]
  · rw [Function.update_of_ne (Ne.symm hsymbol)]
    simp [lastClose, hsymbol]

/-- Every open position is stored under its own symbol, one of `symbols`. -/
def HeldAmong (symbols : Symbol → Prop) (st : Simulator) : Prop :=
  ∀ symbol position, st.positions.lookup symbol = some position →
    position.symbol = symbol ∧ symbols symbol

/-- A close opens no position and prices nothing. -/
theorem closePosition_held {symbols : Symbol → Prop} {symbol : Symbol} {closedAt : Time}
    {reference fill : ℚ} {reason : String} (hst : HeldAmong symbols st)
    (h : closePosition config st symbol closedAt reference fill reason = some st') :
    HeldAmong symbols st' ∧ st'.lastPrices = st.lastPrices := by
  obtain ⟨position, -, -, rfl⟩ := closePosition_some h
  exact ⟨fun j p hp => hst j p (Dict.lookup_of_erase hp).2, rfl⟩

/-- The open of a candle opens a position of its own symbol at most. -/
theorem executePending_held {symbols : Symbol → Prop} (hsymbol : symbols candle.symbol)
    (hst : HeldAmong symbols st) (h : executePending config st candle = some st') :
    HeldAmong symbols st' ∧ st'.lastPrices = st.lastPrices := by
  have hdrop : HeldAmong symbols (dropPending st candle.symbol) := hst
  refine executePending_inv (P := fun st' => HeldAmong symbols st' ∧
    st'.lastPrices = st.lastPrices) ⟨hst, rfl⟩ ⟨hdrop, rfl⟩ ?_
    (fun st' => closePosition_held hdrop) h
  intro order stakeUsdt _ _ _ _
  refine ⟨fun j p hp => ?_, rfl⟩
  rcases Dict.lookup_of_insert hp with ⟨rfl, rfl⟩ | hold
  · exact ⟨rfl, hsymbol⟩
  · exact hst j p hold

/-- The safety exits open no position and price nothing. -/
theorem applySafetyExits_held {symbols : Symbol → Prop} (hst : HeldAmong symbols st)
    (h : applySafetyExits config st candle = some st') :
    HeldAmong symbols st' ∧ st'.lastPrices = st.lastPrices := by
  rcases applySafetyExits_cases h with rfl | ⟨_, _, _, _, _, _, _, _, hclose⟩
  · exact ⟨hst, rfl⟩
  · exact closePosition_held hst hclose

/-- Prices and holdings after a list of candles: each symbol is priced at its last close, and
only symbols with a candle are held. -/
structure Priced (candles : List Candle) (st : Simulator) : Prop where
  prices : st.lastPrices = lastClose candles
  held : HeldAmong (fun symbol => ∃ candle ∈ candles, candle.symbol = symbol) st

/-- **Positions are marked at the last close of their symbol.** -/
theorem simulate_priced {signalsByKey : Symbol → Time → Option SyntheticSignal}
    {ordered : List Candle} (h : simulate config signalsByKey ordered = some st) :
    Priced ordered st := by
  apply runPartial_inv (P := Priced) _ _ (List.prefix_refl ordered) h
  · exact ⟨rfl, fun symbol position hposition => by simp [Simulator.fresh] at hposition⟩
  · intro before candle mid next _ hmid hstep
    obtain ⟨filled, safe, decided, hfilled, hsafe, hdecided, rfl⟩ := processCandle_cases hstep
    have hmidHeld : HeldAmong (fun symbol => ∃ c ∈ before ++ [candle], c.symbol = symbol) mid := by
      intro symbol position hposition
      obtain ⟨hown, c, hc, hcsymbol⟩ := hmid.held symbol position hposition
      exact ⟨hown, c, List.mem_append_left _ hc, hcsymbol⟩
    obtain ⟨hfilledHeld, hfilledPrices⟩ :=
      executePending_held ⟨candle, List.mem_append_right _ List.mem_cons_self, rfl⟩ hmidHeld hfilled
    obtain ⟨hsafeHeld, hsafePrices⟩ := applySafetyExits_held hfilledHeld hsafe
    have hprices : (recordPrice safe candle).lastPrices = lastClose (before ++ [candle]) := by
      rw [lastClose_append, ← hmid.prices, ← hfilledPrices, ← hsafePrices]
      rfl
    rcases hdecided with ⟨-, rfl⟩ | ⟨signal, -, hdecided⟩
    · exact ⟨hprices, hsafeHeld⟩
    · obtain ⟨-, -, _, _, -, rfl | ⟨_, -, -, rfl⟩⟩ := processSignal_cases hdecided
      · exact ⟨hprices, hsafeHeld⟩
      · exact ⟨hprices, hsafeHeld⟩

/-- The mark of an open position is its symbol's last close. -/
theorem markPrice_eq {ordered : List Candle} (h : Priced ordered st) {position : OpenPosition}
    (hposition : position ∈ Dict.values st.positions) :
    lastClose ordered position.symbol = some (st.markPrice position) := by
  obtain ⟨symbol, hlookup⟩ := Dict.mem_values.mp hposition
  obtain ⟨rfl, candle, hcandle, hsymbol⟩ := h.held symbol position hlookup
  have hne : ordered.filter (fun c => c.symbol = position.symbol) ≠ [] := by
    apply List.ne_nil_of_mem (a := candle)
    simp [hcandle, hsymbol]
  rw [Simulator.markPrice, h.prices, lastClose, List.getLast?_eq_getLast_of_ne_nil hne]
  rfl

/-! ## Money over a whole run -/

/-- The unrealized PnL of an open position at a mark, net of the exit fee. -/
def unrealizedPnl (config : ReplayConfig) (mark : ℚ) (position : OpenPosition) : ℚ :=
  mark * position.amount * (1 - config.feeRate) - position.stakeUsdt - position.entryFeeUsdt

/-- The equity is the starting equity and every PnL, realized or not. -/
theorem equity_eq (h : Balanced config st) :
    st.equity config - config.startingEquityUsdt =
      (st.trades.map ReplayTrade.netPnlUsdt).sum +
        Dict.total (fun position => unrealizedPnl config (st.markPrice position) position)
          st.positions := by
  have hsplit : Dict.total
      (fun position => position.amount * st.markPrice position * (1 - config.feeRate))
        st.positions =
      Dict.total (fun position => unrealizedPnl config (st.markPrice position) position)
        st.positions + Dict.total OpenPosition.totalCost st.positions := by
    rw [← Dict.total_add]
    refine congrArg (fun f => Dict.total f st.positions) (funext fun position => ?_)
    simp only [unrealizedPnl, OpenPosition.totalCost]
    ring
  rw [Simulator.equity, hsplit, h.cash]
  ring

/-- **Money is conserved in the replay.**  After every candle of an accepted run the books
balance, cash is nonnegative where the size scale has a nonnegative floor, and each closed trade
is net of its fees; the reported net PnL is that of the closed trades and of the open positions
at the last close of their symbol. -/
theorem replay_conserves_money (config : ReplayConfig) (candles ordered : List Candle)
    (signals : List SyntheticSignal) (signalsByKey : Symbol → Time → Option SyntheticSignal)
    (hvalid : validateAndOrderCandles candles = some ordered)
    (hindex : indexSignals signals = some signalsByKey) :
    (∀ before st, before <+: ordered → simulate config signalsByKey before = some st →
      st.cash = config.startingEquityUsdt -
          Dict.total (fun position => position.stakeUsdt + position.entryFeeUsdt) st.positions +
          (st.trades.map ReplayTrade.netPnlUsdt).sum ∧
        (0 ≤ config.risk.minConfidenceSizeScale → 0 ≤ st.cash) ∧
        ∀ trade ∈ st.trades,
          trade.netPnlUsdt = trade.grossPnlUsdt - trade.entryFeeUsdt - trade.exitFeeUsdt) ∧
    ∀ result, run config candles signals = some result →
      ∃ st, simulate config signalsByKey ordered = some st ∧ result.trades = st.trades ∧
        result.summary.netPnlUsdt = (result.trades.map ReplayTrade.netPnlUsdt).sum +
          Dict.total (fun position => unrealizedPnl config (st.markPrice position) position)
            st.positions ∧
        ∀ position ∈ Dict.values st.positions,
          lastClose ordered position.symbol = some (st.markPrice position) := by
  constructor
  · intro before st _ hrun
    have hbalanced := simulate_balanced hrun
    exact ⟨hbalanced.cash, fun hscale => (simulate_solvent hscale hrun).cash, hbalanced.net⟩
  · intro result hrun
    simp only [run, hvalid, hindex] at hrun
    obtain ⟨st, hst, rfl⟩ := Option.map_eq_some_iff.mp hrun
    exact ⟨st, hst, rfl, equity_eq (simulate_balanced hst),
      fun position hposition => markPrice_eq (simulate_priced hst) hposition⟩

/-- An entry in a steady market. -/
theorem replay_conserves_money_steady :
    ∃ signalsByKey st,
      simulate defaultReplay signalsByKey steadyCandles = some st ∧
      st.cash = 10000 -
          Dict.total (fun position => position.stakeUsdt + position.entryFeeUsdt) st.positions +
          (st.trades.map ReplayTrade.netPnlUsdt).sum ∧
      0 ≤ st.cash := by
  have hrun : ((simulate defaultReplay firstHourSignals steadyCandles).map
      Simulator.cash).isSome = true := by decide +kernel
  obtain ⟨st, hst⟩ := Option.isSome_iff_exists.mp (Option.isSome_map.symm.trans hrun)
  obtain ⟨hcash, hdebt, -⟩ := (replay_conserves_money defaultReplay steadyCandles steadyCandles
    [buySignal "BTC/USDT" (minutes 60)] _ steadyCandles_valid firstHourSignals_indexed).1
    steadyCandles st (List.prefix_refl _) hst
  exact ⟨_, st, hst, hcash, hdebt (by decide +kernel)⟩

/-- The settings with a negative floor of the size scale, which their validators accept. -/
def negativeScaleReplay : ReplayConfig :=
  { defaultReplay with risk := { minConfidenceSizeScale := -1 }, cluster_nonneg := by decide }

/-- A steady market whose price surges in the third hour. -/
def surgingCandles : List Candle := steadyCandles ++ [hourCandle 2 3000 (by decide +kernel)]

/-- A negative stake turns a rise of the price into debt. -/
theorem replay_cash_negative :
    ((validateAndOrderCandles surgingCandles).bind fun ordered =>
      (indexSignals [buySignal "BTC/USDT" (minutes 60)]).bind fun signalsByKey =>
        (simulate negativeScaleReplay signalsByKey ordered).map fun st =>
          decide (st.cash < 0)) = some true := by
  decide +kernel

end TradeMind.Analysis
