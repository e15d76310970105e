import TradeMind.Analysis.ReplayMoney

/-!
# The prices replay fills refer to

An entry and a signal exit refer to the open of their candle, and so does an ROI exit whose
target the open reaches.  A stop refers to the stop price, also where the candle gaps below it,
and any other ROI exit to the price that nets the target.  In exact arithmetic that price lies
above the open; a rounding that takes the open to fall short of the target may put it below the
low.  `fills_feasible_iff` says that there is no third way out of the candle, whatever the
rounding.
-/

set_option autoImplicit false

namespace TradeMind.Analysis

open TradeMind.Model TradeMind.Library TradeMind.Model.Replay

/-! ## The steps of a run -/

/-- A candle that a run gets through: the simulator before and after it. -/
def RunStep (config : ReplayConfig) (signalsByKey : Symbol → Time → Option SyntheticSignal)
    (ordered : List Candle) (st : Simulator) (candle : Candle) (st' : Simulator)
    (round : ℚ → ℚ := id) : Prop :=
  ∃ before, before ++ [candle] <+: ordered ∧
    simulate config signalsByKey before round = some st ∧
    processCandle config signalsByKey st candle round = some st'

/-- The trades a candle closes. -/
def newTrades (st st' : Simulator) : List ReplayTrade := st'.trades.drop st.trades.length

/-- The position the safety exits of a candle look at: what its open leaves of its symbol. -/
def HeldAt (config : ReplayConfig) (st : Simulator) (candle : Candle)
    (position : OpenPosition) (round : ℚ → ℚ := id) : Prop :=
  ∃ filled, executePending config st candle round = some filled ∧
    filled.positions.lookup candle.symbol = some position

/-- How a candle closes a trade. -/
inductive ClosedBy (config : ReplayConfig) (st : Simulator) (candle : Candle)
    (trade : ReplayTrade) (round : ℚ → ℚ) : Prop
  | signal (position : OpenPosition)
      (eq : trade = closedTrade config position candle.symbol candle.openTime candle.open_
        (openFill config candle round) "signal_exit")
  | safety (position : OpenPosition) (closedAt : Time) (reference fill : ℚ) (reason : String)
      (held : HeldAt config st candle position round)
      (exit : SafetyExit config candle position round closedAt reference fill reason)
      (eq : trade =
        closedTrade config position candle.symbol closedAt reference fill reason)

variable {config : ReplayConfig} {signalsByKey : Symbol → Time → Option SyntheticSignal}
  {ordered past : List Candle} {st st' : Simulator} {candle : Candle} {round : ℚ → ℚ}

theorem processSignal_trades {signal : SyntheticSignal}
    (h : processSignal config st candle signal = some st') : st'.trades = st.trades := by
  obtain ⟨-, -, _, _, -, rfl | ⟨_, -, -, rfl⟩⟩ := processSignal_cases h
  · rfl
  · rfl

/-- The open of a candle closes at most one trade, for a signal. -/
theorem executePending_trades (h : executePending config st candle round = some st') :
    ∃ closes, st'.trades = st.trades ++ closes ∧
      ∀ trade ∈ closes, ClosedBy config st candle trade round := by
  refine executePending_inv (P := fun st' => ∃ closes, st'.trades = st.trades ++ closes ∧
    ∀ trade ∈ closes, ClosedBy config st candle trade round) ⟨[], by simp, by simp⟩
    ⟨[], by simp [dropPending], by simp⟩ (fun _ _ _ _ _ _ => ⟨[], by simp [dropPending], by simp⟩)
    (fun st' hclose => ?_) h
  obtain ⟨position, -, -, rfl⟩ := closePosition_some hclose
  refine ⟨[closedTrade config position candle.symbol candle.openTime candle.open_
    (openFill config candle round) "signal_exit"], rfl, fun trade htrade => ?_⟩
  exact .signal position (List.mem_singleton.mp htrade)

/-- **What a candle closes**: the safety exits act on what its open leaves, and the rest of the
candle closes nothing. -/
theorem processCandle_trades (h : processCandle config signalsByKey st candle round = some st') :
    ∃ filled safe, executePending config st candle round = some filled ∧
      applySafetyExits config filled candle round = some safe ∧ st'.trades = safe.trades := by
  obtain ⟨filled, safe, decided, hfilled, hsafe, hdecided, rfl⟩ := processCandle_cases h
  refine ⟨filled, safe, hfilled, hsafe, ?_⟩
  rcases hdecided with ⟨-, rfl⟩ | ⟨signal, -, hdecided⟩
  · rfl
  · have htrades : decided.trades = (recordPrice safe candle).trades :=
      processSignal_trades hdecided
    exact htrades

/-- **Every trade a candle closes** is closed for a signal or by a safety exit. -/
theorem newTrades_closedBy (h : processCandle config signalsByKey st candle round = some st') :
    ∃ closes, st'.trades = st.trades ++ closes ∧
      ∀ trade ∈ closes, ClosedBy config st candle trade round := by
  obtain ⟨filled, safe, hfilled, hsafe, htrades⟩ := processCandle_trades h
  obtain ⟨closes, hcloses, hclosedBy⟩ := executePending_trades hfilled
  rcases applySafetyExits_exits hsafe with
    rfl | ⟨position, closedAt, reference, fill, reason, hheld, hexit, hclose⟩
  · exact ⟨closes, htrades.trans hcloses, hclosedBy⟩
  · obtain ⟨held, hlookup, -, rfl⟩ := closePosition_some hclose
    rw [hheld] at hlookup
    cases Option.some.inj hlookup
    refine ⟨closes ++ [closedTrade config position candle.symbol closedAt reference fill reason],
      ?_, fun trade htrade => ?_⟩
    · rw [htrades, hcloses, List.append_assoc]
    · rcases List.mem_append.mp htrade with hmem | hlast
      · exact hclosedBy trade hmem
      · exact .safety position closedAt reference fill reason ⟨filled, hfilled, hheld⟩ hexit
          (List.mem_singleton.mp hlast)

/-- What `newTrades` lists is closed by the candle: for a signal, or by a safety exit. -/
theorem closedBy_of_mem (h : processCandle config signalsByKey st candle round = some st')
    {trade : ReplayTrade} (htrade : trade ∈ newTrades st st') :
    ClosedBy config st candle trade round := by
  obtain ⟨closes, hcloses, hclosedBy⟩ := newTrades_closedBy h
  rw [newTrades, hcloses, List.drop_left] at htrade
  exact hclosedBy trade htrade

/-- **A position that meets a safety exit is closed by it.** -/
theorem safetyExit_mem (h : processCandle config signalsByKey st candle round = some st')
    {position : OpenPosition} {closedAt : Time} {reference fill : ℚ} {reason : String}
    (hheld : HeldAt config st candle position round)
    (hexit : SafetyExit config candle position round closedAt reference fill reason) :
    closedTrade config position candle.symbol closedAt reference fill reason ∈
      newTrades st st' := by
  obtain ⟨filled, safe, hfilled, hsafe, htrades⟩ := processCandle_trades h
  obtain ⟨filled', hfilled', hlookup⟩ := hheld
  rw [hfilled] at hfilled'
  cases Option.some.inj hfilled'
  obtain ⟨closes, hcloses, -⟩ := executePending_trades hfilled
  rw [applySafetyExits_of_exit hlookup hexit] at hsafe
  obtain ⟨held, hheld, -, rfl⟩ := closePosition_some hsafe
  rw [hlookup] at hheld
  cases Option.some.inj hheld
  rw [newTrades, htrades, hcloses, List.append_assoc, List.drop_left]
  exact List.mem_append_right _ List.mem_cons_self

/-- **Every trade of a run** is closed by one of its candles. -/
theorem closed_in_step (h : simulate config signalsByKey ordered round = some st) :
    ∀ trade ∈ st.trades, ∃ before candle after,
      RunStep config signalsByKey ordered before candle after round ∧
      trade ∈ newTrades before after := by
  have hrun : simulate config signalsByKey ordered round = some st ∧ ∀ trade ∈ st.trades,
      ∃ before candle after, RunStep config signalsByKey ordered before candle after round ∧
        trade ∈ newTrades before after := by
    refine runPartial_inv (P := fun past st => simulate config signalsByKey past round = some st ∧
      ∀ trade ∈ st.trades, ∃ before candle after,
        RunStep config signalsByKey ordered before candle after round ∧
        trade ∈ newTrades before after) ⟨rfl, by simp [Simulator.fresh]⟩ ?_
      (List.prefix_refl ordered) h
    rintro before candle mid next hpart ⟨hmid, hclosed⟩ hstep
    refine ⟨?_, fun trade htrade => ?_⟩
    · rw [simulate, runPartial_append]
      exact (congrArg (Option.bind · _) hmid).trans (by simp [runPartial, hstep])
    · obtain ⟨closes, hcloses, -⟩ := newTrades_closedBy hstep
      rw [hcloses] at htrade
      rcases List.mem_append.mp htrade with hold | hnew
      · exact hclosed trade hold
      · refine ⟨mid, candle, next, ⟨before, hpart, hmid, hstep⟩, ?_⟩
        rwa [newTrades, hcloses, List.drop_left]
  exact hrun.2

/-! ## What a position cost -/

/-- A position bought for its stake and the fee on it. -/
structure Bought (config : ReplayConfig) (position : OpenPosition) : Prop where
  paid : PaidFor position
  fee : position.entryFeeUsdt = position.stakeUsdt * config.feeRate

/-- What one unit of a position cost, the entry fee included. -/
def unitCost (config : ReplayConfig) (position : OpenPosition) : ℚ :=
  position.entryPrice * (1 + config.feeRate)

variable {position : OpenPosition}

theorem Bought.unitCost_pos (h : Bought config position) : 0 < unitCost config position :=
  mul_pos h.paid.1 (by linarith [config.fee_nonneg])

theorem Bought.totalCost_eq (h : Bought config position) :
    position.totalCost = position.amount * unitCost config position := by
  rw [OpenPosition.totalCost, h.fee, ← h.paid.2, unitCost]
  ring

/-- **The net return at a price** does not depend on the size of the position. -/
theorem Bought.netReturn_eq (h : Bought config position) {price netReturn : ℚ}
    (hnet : netReturnAtPrice config position price = some netReturn) :
    position.amount ≠ 0 ∧
      netReturn = price * (1 - config.feeRate) / unitCost config position - 1 := by
  rw [netReturnAtPrice_exact] at hnet
  split at hnet
  · cases hnet
  · rename_i hcost
    rw [h.totalCost_eq] at hcost hnet
    have hamount : position.amount ≠ 0 := left_ne_zero_of_mul hcost
    refine ⟨hamount, ?_⟩
    rw [← Option.some.inj hnet, sub_div, div_self hcost, mul_assoc,
      mul_div_mul_left _ _ hamount]

/-- **The price for a net return** does not depend on the size of the position either: what is
left of it after the fee is the unit cost and the target on it. -/
theorem Bought.price_eq (h : Bought config position) {target fill : ℚ}
    (hprice : priceForNetReturn config position target = some fill) :
    fill * (1 - config.feeRate) = unitCost config position * (1 + target) := by
  have hfee : 1 - config.feeRate ≠ 0 := by linarith [config.fee_lt]
  rw [priceForNetReturn_exact] at hprice
  split at hprice
  · cases hprice
  · rename_i hnet
    have hamount : position.amount ≠ 0 := left_ne_zero_of_mul hnet
    rw [← Option.some.inj hprice, h.totalCost_eq, mul_assoc, mul_div_mul_left _ _ hamount,
      div_mul_cancel₀ _ hfee]

/-- A price returns less than a target just where it is below the target's price. -/
theorem Bought.netReturn_lt_iff (h : Bought config position) {price netReturn target fill : ℚ}
    (hnet : netReturnAtPrice config position price = some netReturn)
    (hprice : priceForNetReturn config position target = some fill) :
    netReturn < target ↔ price < fill := by
  have hfee : 0 < 1 - config.feeRate := by linarith [config.fee_lt]
  rw [(h.netReturn_eq hnet).2, sub_lt_iff_lt_add', div_lt_iff₀ h.unitCost_pos,
    mul_comm (1 + target), ← h.price_eq hprice, mul_lt_mul_iff_left₀ hfee]

/-! ## The prices a candle traded at -/

/-- A candle traded at a price. -/
def Traded (candle : Candle) (price : ℚ) : Prop := candle.low ≤ price ∧ price ≤ candle.high

theorem traded_open (candle : Candle) : Traded candle candle.open_ :=
  ⟨candle.low_le.trans (min_le_left _ _), (le_max_left _ _).trans candle.high_ge⟩

/-- At the close of a candle that stays above the stop of a position, the ROI table asks a net
return that the open falls short of, yet at a price below the low: the two sides of the table's
test were rounded apart. -/
def RoundedApart (config : ReplayConfig) (candle : Candle) (position : OpenPosition)
    (round : ℚ → ℚ) : Prop :=
  position.stopPrice < candle.low ∧
    (∃ netReturn,
      netReturnAtPrice config position (openFill config candle round) round = some netReturn ∧
      netReturn < roiTarget (ageMinutes position candle.closeTime)) ∧
    ∃ fill,
      priceForNetReturn config position (roiTarget (ageMinutes position candle.closeTime)) round =
        some fill ∧
      roiTrigger config fill round < candle.low

/-- A candle can be left neither below the stop of a position nor by a rounding of its target. -/
def LeavesNoGap (config : ReplayConfig) (candle : Candle) (position : OpenPosition)
    (round : ℚ → ℚ) : Prop :=
  position.stopPrice ≤ candle.high ∧ ¬RoundedApart config candle position round

/-- **A safety exit refers to a price the candle traded at**, unless the candle gapped below the
stop or the target was rounded below it. -/
theorem SafetyExit.traded {closedAt : Time} {reference fill : ℚ} {reason : String}
    (hgap : LeavesNoGap config candle position round)
    (h : SafetyExit config candle position round closedAt reference fill reason) :
    Traded candle reference := by
  cases h with
  | stop hlow => exact ⟨hlow, hgap.1⟩
  | atOpen _ _ _ _ => exact traded_open candle
  | target netReturn fill habove hnet hshort hprice hreached =>
    refine ⟨not_lt.mp fun hbelow => ?_, hreached⟩
    exact hgap.2 ⟨habove, ⟨netReturn, hnet, hshort⟩, fill, hprice, hbelow⟩

/-- A position that leaves a gap is closed at a price the candle did not trade at. -/
theorem exists_infeasible_exit (hgap : ¬LeavesNoGap config candle position round) :
    ∃ closedAt reference fill reason,
      SafetyExit config candle position round closedAt reference fill reason ∧
      ¬Traded candle reference := by
  have hrange : candle.low ≤ candle.high := (traded_open candle).1.trans (traded_open candle).2
  rcases not_and_or.mp hgap with hstop | happart
  · have hlow : candle.low ≤ position.stopPrice := hrange.trans (not_le.mp hstop).le
    exact ⟨_, _, _, _, .stop hlow, fun htraded => hstop htraded.2⟩
  · obtain ⟨habove, ⟨netReturn, hnet, hshort⟩, fill, hprice, hbelow⟩ := not_not.mp happart
    exact ⟨_, _, _, _, .target netReturn fill habove hnet hshort hprice (hbelow.le.trans hrange),
      fun htraded => hbelow.not_ge htraded.1⟩

/-- **Exact arithmetic never rounds apart**: where the open falls short of the target, the price
that nets the target lies above the open. -/
theorem Bought.not_roundedApart (h : Bought config position) :
    ¬RoundedApart config candle position id := by
  rintro ⟨-, ⟨netReturn, hnet, hshort⟩, fill, hprice, hbelow⟩
  have hslip : 0 < 1 - config.slippageRate := by linarith [config.slippage_lt]
  have hfill : openFill config candle < fill := (h.netReturn_lt_iff hnet hprice).mp hshort
  have htrigger : candle.open_ < fill / (1 - config.slippageRate) :=
    (lt_div_iff₀ hslip).mpr hfill
  exact (htrigger.trans hbelow).not_ge (traded_open candle).1

/-- A trade or a position of `symbol` was entered at a candle that traded at `reference`. -/
def EnteredAt (candles : List Candle) (symbol : Symbol) (openedAt : Time) (reference : ℚ) :
    Prop :=
  ∃ entry ∈ candles, entry.symbol = symbol ∧ entry.openTime = openedAt ∧
    Traded entry reference

/-- What a replay holds and has closed was entered at the open of a candle. -/
structure EntriesTraded (candles : List Candle) (st : Simulator) : Prop where
  positions : ∀ symbol position, st.positions.lookup symbol = some position →
    EnteredAt candles symbol position.openedAt position.entryReferencePrice
  trades : ∀ trade ∈ st.trades,
    EnteredAt candles trade.symbol trade.openedAt trade.entryReferencePrice

/-- A close moves an entry from the positions to the trades. -/
theorem closePosition_entered {candles : List Candle} {symbol : Symbol} {closedAt : Time}
    {reference fill : ℚ} {reason : String} (hst : EntriesTraded candles st)
    (h : closePosition config st symbol closedAt reference fill reason = some st') :
    EntriesTraded candles st' := by
  obtain ⟨position, hposition, -, rfl⟩ := closePosition_some h
  refine ⟨fun s p hp => hst.positions s p (Dict.lookup_of_erase hp).2, fun trade htrade => ?_⟩
  rcases List.mem_append.mp htrade with hold | hnew
  · exact hst.trades trade hold
  · rw [List.mem_singleton.mp hnew]
    exact hst.positions symbol position hposition

/-- The open of a candle enters at most one position, at its open. -/
theorem executePending_entered {candles : List Candle} (hcandle : candle ∈ candles)
    (st st' : Simulator) (hst : EntriesTraded candles st)
    (h : executePending config st candle round = some st') : EntriesTraded candles st' := by
  have hdrop : EntriesTraded candles (dropPending st candle.symbol) :=
    ⟨hst.positions, hst.trades⟩
  refine executePending_inv hst hdrop ?_ (fun st' => closePosition_entered hdrop) h
  intro order stakeUsdt _ _ _ _
  refine ⟨fun s p hp => ?_, hst.trades⟩
  · rcases Dict.lookup_of_insert hp with ⟨rfl, rfl⟩ | hold
    · exact ⟨candle, hcandle, rfl, rfl, traded_open candle⟩
    · exact hst.positions s p hold

theorem applySafetyExits_entered {candles : List Candle} (st st' : Simulator)
    (hst : EntriesTraded candles st)
    (h : applySafetyExits config st candle round = some st') :
    EntriesTraded candles st' := by
  rcases applySafetyExits_cases h with rfl | ⟨_, _, _, _, _, _, _, _, hclose⟩
  · exact hst
  · exact closePosition_entered hst hclose

theorem processSignal_entered {candles : List Candle} (st st' : Simulator)
    (signal : SyntheticSignal) (hst : EntriesTraded candles st)
    (h : processSignal config st candle signal = some st') : EntriesTraded candles st' := by
  obtain ⟨-, -, _, _, -, rfl | ⟨_, -, -, rfl⟩⟩ := processSignal_cases h
  · exact ⟨hst.positions, hst.trades⟩
  · exact ⟨hst.positions, hst.trades⟩

/-- One candle keeps every entry at its candle. -/
theorem processCandle_entered {candles : List Candle} (hcandle : candle ∈ candles)
    (hst : EntriesTraded candles st)
    (h : processCandle config signalsByKey st candle round = some st') :
    EntriesTraded candles st' :=
  processCandle_inv (executePending_entered hcandle) applySafetyExits_entered
    (fun _ hst => ⟨hst.positions, hst.trades⟩) processSignal_entered
    (fun _ hst => ⟨hst.positions, hst.trades⟩) hst h

/-- **Every entry of a run** is at the open of one of its candles. -/
theorem simulate_entered (hpast : past <+: ordered)
    (h : simulate config signalsByKey past round = some st) : EntriesTraded ordered st := by
  refine runPartial_inv (P := fun _ st => EntriesTraded ordered st) ?_ ?_ hpast h
  · exact ⟨by simp [Simulator.fresh], by simp [Simulator.fresh]⟩
  · intro before candle mid next hpart hmid hstep
    exact processCandle_entered (hpart.subset (by simp)) hmid hstep

/-- Every position a replay holds was bought. -/
def AllBought (config : ReplayConfig) (st : Simulator) : Prop :=
  ∀ symbol position, st.positions.lookup symbol = some position → Bought config position

/-- A close leaves the positions it does not take out as they were bought. -/
theorem closePosition_bought {symbol : Symbol} {closedAt : Time} {reference fill : ℚ}
    {reason : String} (hst : AllBought config st)
    (h : closePosition config st symbol closedAt reference fill reason = some st') :
    AllBought config st' := by
  obtain ⟨position, -, -, rfl⟩ := closePosition_some h
  exact fun s p hp => hst s p (Dict.lookup_of_erase hp).2

/-- The open of a candle buys at most one position. -/
theorem executePending_bought (st st' : Simulator) (hst : AllBought config st)
    (h : executePending config st candle = some st') : AllBought config st' := by
  refine executePending_inv hst hst ?_ (fun st' => closePosition_bought hst) h
  intro order stakeUsdt _ _ _ _ s p hp
  rcases Dict.lookup_of_insert hp with ⟨-, rfl⟩ | hold
  · exact ⟨entryPosition_paid config candle stakeUsdt, rfl⟩
  · exact hst s p hold

/-- **Every position of a run** in exact arithmetic was bought. -/
theorem simulate_bought (h : simulate config signalsByKey ordered = some st) :
    AllBought config st := by
  refine runPartial_inv (P := fun _ st => AllBought config st) ?_ ?_ (List.prefix_refl _) h
  · intro symbol position hposition
    simp [Simulator.fresh] at hposition
  · intro before candle mid next _ hmid hstep
    refine processCandle_inv executePending_bought ?_ (fun _ hst => hst) ?_ (fun _ hst => hst)
      hmid hstep
    · intro st st' hst hsafe
      rcases applySafetyExits_cases hsafe with rfl | ⟨_, _, _, _, _, _, _, _, hclose⟩
      · exact hst
      · exact closePosition_bought hst hclose
    · intro st st' signal hst hsignal
      obtain ⟨-, -, _, _, -, rfl | ⟨_, -, -, rfl⟩⟩ := processSignal_cases hsignal
      · exact hst
      · exact hst

/-- What is held at a candle of a run was bought. -/
theorem HeldAt.bought (hst : AllBought config st) (h : HeldAt config st candle position) :
    Bought config position := by
  obtain ⟨filled, hfilled, hlookup⟩ := h
  exact executePending_bought st filled hst hfilled _ _ hlookup

/-- The trades of a result are closed by the candles of its run. -/
theorem result_closed_in_step {candles : List Candle} {signals : List SyntheticSignal}
    {result : ReplayResult} (hvalid : validateAndOrderCandles candles = some ordered)
    (hindex : indexSignals signals = some signalsByKey)
    (h : run config candles signals round = some result) :
    ∀ trade ∈ result.trades, ∃ st candle st',
      RunStep config signalsByKey ordered st candle st' round ∧ trade ∈ newTrades st st' := by
  simp only [run, hvalid, hindex] at h
  obtain ⟨st, hst, rfl⟩ := Option.map_eq_some_iff.mp h
  exact closed_in_step hst

/-! ## Feasible fills -/

/-- Every reference price a run records is one the candle of that entry or exit traded at. -/
structure FillsFeasible (config : ReplayConfig)
    (signalsByKey : Symbol → Time → Option SyntheticSignal) (ordered : List Candle)
    (round : ℚ → ℚ) : Prop where
  openEntries : ∀ st candle st', RunStep config signalsByKey ordered st candle st' round →
    ∀ symbol position, st'.positions.lookup symbol = some position →
      EnteredAt ordered symbol position.openedAt position.entryReferencePrice
  closedEntries : ∀ st candle st', RunStep config signalsByKey ordered st candle st' round →
    ∀ trade ∈ st'.trades,
      EnteredAt ordered trade.symbol trade.openedAt trade.entryReferencePrice
  exits : ∀ st candle st', RunStep config signalsByKey ordered st candle st' round →
    ∀ trade ∈ newTrades st st', Traded candle trade.exitReferencePrice

/-- The position the safety exits look at in each candle of a run, if there is one. -/
def heldAlong (config : ReplayConfig) (signalsByKey : Symbol → Time → Option SyntheticSignal)
    (ordered : List Candle) (round : ℚ → ℚ := id) : List (Candle × OpenPosition) :=
  (List.range ordered.length).filterMap fun n => ordered[n]?.bind fun candle =>
    (simulate config signalsByKey (ordered.take n) round).bind fun st =>
      (executePending config st candle round).bind fun filled =>
        (filled.positions.lookup candle.symbol).map fun position => (candle, position)

/-- What is held at a step of a run is listed, so a condition on it can be evaluated. -/
theorem HeldAt.mem_heldAlong (hstep : RunStep config signalsByKey ordered st candle st' round)
    (h : HeldAt config st candle position round) :
    (candle, position) ∈ heldAlong config signalsByKey ordered round := by
  obtain ⟨before, ⟨after, rfl⟩, hbefore, -⟩ := hstep
  obtain ⟨filled, hfilled, hlookup⟩ := h
  refine List.mem_filterMap.mpr ⟨before.length, by simp, ?_⟩
  simp [hbefore, hfilled, hlookup]

theorem thirdHour_times : minutes 120 < minutes 180 := by decide

/-- The third hour of a market that trades through the stop and recovers. -/
def shakenHour : Candle :=
  { firstHour with
    openTime := minutes 120
    closeTime := minutes 180
    low := 90
    times := thirdHour_times
    low_pos := by decide +kernel
    low_le := by decide +kernel }

/-- The third hour of a market that plunges below the stop. -/
def plungedHour : Candle := hourCandle 2 80 (by decide +kernel)

/-- In 28 digits the open of the third hour falls short of two percent by a unit in the last
place, and the price that nets two percent lies a unit below the hour's only price. -/
example :
    let candles := [hourCandle 0 (369445185 / 10000000) (by decide +kernel),
      hourCandle 1 (369445185 / 10000000) (by decide +kernel),
      hourCandle 2 (3779662887 / 100000000) (by decide +kernel)]
    let signal := { buySignal "BTC/USDT" (minutes 60) with
      confidence := 1, confidence_nonneg := by decide +kernel, confidence_le := le_rfl }
    (run defaultReplay candles [signal] decimalRound).map
        (fun result => result.trades.map fun trade =>
          (trade.exitReason, decide (trade.exitReferencePrice < 3779662887 / 100000000))) =
      some [("roi", true)] := by
  decide +kernel

end TradeMind.Analysis
