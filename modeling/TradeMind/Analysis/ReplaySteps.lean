import TradeMind.Analysis.EntryVerdict
import TradeMind.Model.HistoricalReplay

/-!
# What one candle of a replay can do

One lemma for each part of the loop body says every way it can change the simulator; the
invariants of the replay are read off these.
-/

set_option autoImplicit false

namespace TradeMind.Analysis

open TradeMind.Model TradeMind.Library TradeMind.Model.Replay

variable {config : ReplayConfig} {st st' : Simulator} {candle : Candle} {round : ℚ → ℚ}

/-- A close takes the position out, books its proceeds and adds its row. -/
theorem closePosition_some {symbol : Symbol} {closedAt : Time} {reference fill : ℚ}
    {reason : String}
    (h : closePosition config st symbol closedAt reference fill reason = some st') :
    ∃ position, st.positions.lookup symbol = some position ∧ position.totalCost ≠ 0 ∧
      st' = { st with
        positions := st.positions.erase symbol
        cash := st.cash + exitProceeds config position fill
        trades := st.trades ++
          [closedTrade config position symbol closedAt reference fill reason] } := by
  unfold closePosition at h
  split at h
  · cases h
  · rename_i position hposition
    split at h
    · cases h
    · rename_i hcost
      exact ⟨position, hposition, hcost, (Option.some.inj h).symm⟩

/-- The simulator without the pending order of a symbol. -/
def dropPending (st : Simulator) (symbol : Symbol) : Simulator :=
  { st with pending := st.pending.erase symbol }

/-- What the open of a candle does with a pending order it consumes. -/
inductive Consumed (config : ReplayConfig) (st : Simulator) (candle : Candle)
    (order : PendingOrder) (st' : Simulator) (round : ℚ → ℚ := id) : Prop
  | opened (stakeUsdt : ℚ) (side : order.side = .BUY stakeUsdt)
      (affordable : (entryPosition config candle stakeUsdt round).totalCost ≤ st.cash)
      (fresh : candle.symbol ∉ st.positions)
      (eq : st' = { dropPending st candle.symbol with
        cash := st.cash - (entryPosition config candle stakeUsdt round).totalCost
        positions :=
          st.positions.insert candle.symbol (entryPosition config candle stakeUsdt round) })
  | rejected (stakeUsdt : ℚ) (side : order.side = .BUY stakeUsdt)
      (why : st.cash < (entryPosition config candle stakeUsdt round).totalCost ∨
        candle.symbol ∈ st.positions)
      (eq : st' = dropPending st candle.symbol)
  | closed (side : order.side = .SELL)
      (eq : closePosition config (dropPending st candle.symbol) candle.symbol candle.openTime
        candle.open_ (slippedFill config candle.open_ round) "signal_exit" = some st')
  | nothingToClose (side : order.side = .SELL) (missing : candle.symbol ∉ st.positions)
      (eq : st' = dropPending st candle.symbol)

/-- **The open of a candle**: no order of its symbol is due and nothing happens, or the order
is consumed there. -/
theorem executePending_cases (h : executePending config st candle round = some st') :
    (st' = st ∧ ∀ order, st.pending.lookup candle.symbol = some order →
      candle.openTime < order.signalTime) ∨
    ∃ order, st.pending.lookup candle.symbol = some order ∧
      order.signalTime ≤ candle.openTime ∧ Consumed config st candle order st' round := by
  unfold executePending at h
  split at h
  · rename_i hnone
    refine .inl ⟨(Option.some.inj h).symm, fun order horder => ?_⟩
    rw [hnone] at horder
    cases horder
  · rename_i order horder
    split at h
    · rename_i hearly
      refine .inl ⟨(Option.some.inj h).symm, fun other hother => ?_⟩
      rw [horder] at hother
      cases Option.some.inj hother
      exact hearly
    · rename_i hdue
      refine .inr ⟨order, horder, not_lt.mp hdue, ?_⟩
      dsimp only at h
      split at h
      · rename_i stakeUsdt hside
        split at h
        · rename_i hwhy
          exact .rejected stakeUsdt hside hwhy (Option.some.inj h).symm
        · rename_i hwhy
          obtain ⟨hcash, hfresh⟩ := not_or.mp hwhy
          exact .opened stakeUsdt hside (not_lt.mp hcash) hfresh (Option.some.inj h).symm
      · rename_i hside
        split at h
        · exact .closed hside h
        · rename_i hmissing
          exact .nothingToClose hside hmissing (Option.some.inj h).symm

/-- **The invariant rule for the open of a candle.**  What holds without the due order, with
the position it opens and after the close it makes, holds after the open. -/
theorem executePending_inv {P : Simulator → Prop} (hst : P st)
    (hdrop : P (dropPending st candle.symbol))
    (hopened : ∀ order stakeUsdt, st.pending.lookup candle.symbol = some order →
      order.side = .BUY stakeUsdt →
      (entryPosition config candle stakeUsdt round).totalCost ≤ st.cash →
      candle.symbol ∉ st.positions →
      P { dropPending st candle.symbol with
        cash := st.cash - (entryPosition config candle stakeUsdt round).totalCost
        positions :=
          st.positions.insert candle.symbol (entryPosition config candle stakeUsdt round) })
    (hclosed : ∀ st', closePosition config (dropPending st candle.symbol) candle.symbol
      candle.openTime candle.open_ (slippedFill config candle.open_ round) "signal_exit" =
        some st' → P st')
    (h : executePending config st candle round = some st') : P st' := by
  rcases executePending_cases h with ⟨rfl, -⟩ | ⟨order, horder, -, hconsumed⟩
  · exact hst
  · cases hconsumed with
    | opened stakeUsdt hside haffordable hfresh heq =>
      exact heq ▸ hopened order stakeUsdt horder hside haffordable hfresh
    | rejected stakeUsdt hside hwhy heq => exact heq ▸ hdrop
    | closed hside heq => exact hclosed st' heq
    | nothingToClose hside hmissing heq => exact heq ▸ hdrop

/-! ## Exact arithmetic -/

/-- Without rounding, the net return at a price is the gain over the cost, in parts of the cost. -/
theorem netReturnAtPrice_exact (position : OpenPosition) (exitPrice : ℚ) :
    netReturnAtPrice config position exitPrice =
      if position.totalCost = 0 then none
      else some ((position.amount * exitPrice * (1 - config.feeRate) - position.totalCost) /
        position.totalCost) := rfl

/-- Without rounding, the price for a net return spreads the proceeds it requires over the amount
that is left after the fee. -/
theorem priceForNetReturn_exact (position : OpenPosition) (target : ℚ) :
    priceForNetReturn config position target =
      if position.amount * (1 - config.feeRate) = 0 then none
      else some (position.totalCost * (1 + target) /
        (position.amount * (1 - config.feeRate))) := rfl

/-! ## The safety exits -/

/-- The prices a safety exit fills at: below the stop or the open by the slippage, or the
price that nets a target of the ROI table. -/
inductive SafetyFill (config : ReplayConfig) (candle : Candle) (position : OpenPosition)
    (fill : ℚ) (round : ℚ → ℚ) : Prop
  | stop (eq : fill = slippedFill config position.stopPrice round)
  | atOpen (eq : fill = slippedFill config candle.open_ round)
  | target (ageMinutes : ℚ)
      (eq : priceForNetReturn config position (roiTarget ageMinutes) round = some fill)

/-- The age of a position at an instant, in minutes. -/
def ageMinutes (position : OpenPosition) (now : Time) : ℚ :=
  (now - position.openedAt : ℤ) / 60000000

/-- The price the open of a candle fills an exit at. -/
def openFill (config : ReplayConfig) (candle : Candle) (round : ℚ → ℚ := id) : ℚ :=
  slippedFill config candle.open_ round

/-- The reference price of an exit that fills at the price of a ROI target. -/
def roiTrigger (config : ReplayConfig) (fill : ℚ) (round : ℚ → ℚ := id) : ℚ :=
  round (fill / round (1 - config.slippageRate))

/-- A safety exit of a position at a candle: when it closes, the reference price, the price it
fills at and the reason. -/
inductive SafetyExit (config : ReplayConfig) (candle : Candle) (position : OpenPosition)
    (round : ℚ → ℚ) : Time → ℚ → ℚ → String → Prop
  | stop (reached : candle.low ≤ position.stopPrice) :
      SafetyExit config candle position round candle.closeTime position.stopPrice
        (slippedFill config position.stopPrice round) "stop_loss"
  | atOpen (netReturn : ℚ) (above : position.stopPrice < candle.low)
      (net : netReturnAtPrice config position (openFill config candle round) round = some netReturn)
      (reached : roiTarget (ageMinutes position candle.closeTime) ≤ netReturn) :
      SafetyExit config candle position round candle.openTime candle.open_
        (openFill config candle round) "roi"
  | target (netReturn fill : ℚ) (above : position.stopPrice < candle.low)
      (net : netReturnAtPrice config position (openFill config candle round) round = some netReturn)
      (short : netReturn < roiTarget (ageMinutes position candle.closeTime))
      (price : priceForNetReturn config position
        (roiTarget (ageMinutes position candle.closeTime)) round = some fill)
      (reached : roiTrigger config fill round ≤ candle.high) :
      SafetyExit config candle position round candle.closeTime (roiTrigger config fill round) fill
        "roi"

/-- **The safety exits**: the position stays, or is closed by the exit it meets. -/
theorem applySafetyExits_exits (h : applySafetyExits config st candle round = some st') :
    st' = st ∨ ∃ position closedAt reference fill reason,
      st.positions.lookup candle.symbol = some position ∧
      SafetyExit config candle position round closedAt reference fill reason ∧
      closePosition config st candle.symbol closedAt reference fill reason = some st' := by
  unfold applySafetyExits at h
  split at h
  · exact .inl (Option.some.inj h).symm
  · rename_i position hposition
    split at h
    · rename_i hlow
      exact .inr ⟨position, _, _, _, _, hposition, .stop hlow, h⟩
    · rename_i hlow
      have habove := not_le.mp hlow
      dsimp only at h
      split at h
      · cases h
      · rename_i netReturn hnet
        split at h
        · rename_i hreached
          exact .inr ⟨position, _, _, _, _, hposition, .atOpen netReturn habove hnet hreached, h⟩
        · rename_i hshort
          split at h
          · cases h
          · rename_i fill hfill
            split at h
            · rename_i hreached
              exact .inr ⟨position, _, _, _, _, hposition,
                .target netReturn fill habove hnet (not_le.mp hshort) hfill hreached, h⟩
            · exact .inl (Option.some.inj h).symm

/-- The exit a position meets is the one that is made. -/
theorem applySafetyExits_of_exit {position : OpenPosition} {closedAt : Time}
    {reference fill : ℚ} {reason : String}
    (hposition : st.positions.lookup candle.symbol = some position)
    (h : SafetyExit config candle position round closedAt reference fill reason) :
    applySafetyExits config st candle round =
      closePosition config st candle.symbol closedAt reference fill reason := by
  cases h with
  | stop hlow => simp only [applySafetyExits, hposition, hlow, if_true]
  | atOpen netReturn habove hnet hreached =>
    rw [openFill] at hnet
    rw [ageMinutes] at hreached
    simp only [applySafetyExits, hposition, not_le.mpr habove, if_false, hnet, hreached, if_true]
    rfl
  | target netReturn fill habove hnet hshort hfill hreached =>
    rw [openFill] at hnet
    rw [ageMinutes] at hshort hfill
    rw [roiTrigger] at hreached
    simp only [applySafetyExits, hposition, not_le.mpr habove, if_false, hnet,
      not_le.mpr hshort, hfill, hreached, if_true]
    rfl

/-- A safety exit closes at the candle's open or close time. -/
theorem SafetyExit.closedAt_eq {position : OpenPosition} {closedAt : Time} {reference fill : ℚ}
    {reason : String} (h : SafetyExit config candle position round closedAt reference fill reason) :
    closedAt = candle.openTime ∨ closedAt = candle.closeTime := by
  cases h with
  | stop _ => exact .inr rfl
  | atOpen _ _ _ _ => exact .inl rfl
  | target _ _ _ _ _ _ _ => exact .inr rfl

theorem SafetyExit.fill_eq {position : OpenPosition} {closedAt : Time} {reference fill : ℚ}
    {reason : String} (h : SafetyExit config candle position round closedAt reference fill reason) :
    SafetyFill config candle position fill round := by
  cases h with
  | stop _ => exact .stop rfl
  | atOpen _ _ _ _ => exact .atOpen rfl
  | target _ _ _ _ _ hprice _ => exact .target _ hprice

/-- What the safety exits do, without their guards. -/
theorem applySafetyExits_cases (h : applySafetyExits config st candle round = some st') :
    st' = st ∨ ∃ position closedAt reference fill reason,
      st.positions.lookup candle.symbol = some position ∧
      (closedAt = candle.openTime ∨ closedAt = candle.closeTime) ∧
      SafetyFill config candle position fill round ∧
      closePosition config st candle.symbol closedAt reference fill reason = some st' := by
  rcases applySafetyExits_exits h with heq | ⟨position, _, _, _, _, hposition, hexit, hclose⟩
  · exact .inl heq
  · exact .inr ⟨position, _, _, _, _, hposition, hexit.closedAt_eq, hexit.fill_eq, hclose⟩

/-- The order a signal leaves pending, and what its approval says. -/
inductive Ordered (config : ReplayConfig) (st : Simulator) (candle : Candle)
    (signal : SyntheticSignal) : PendingSide → Prop
  | entry (stakeUsdt : ℚ) (result : RiskDecisionResult)
      (eval : evaluate (signalView candle signal) (st.accountState config candle.closeTime)
        config.risk candle.closeTime st.killswitchEnabled false noExpectancy = some result)
      (approved : result.approved = true) (stake : result.positionSizeUsdt = some stakeUsdt) :
      Ordered config st candle signal (.BUY stakeUsdt)
  | exit (isOpen : signal.symbol ∈ (st.accountState config candle.closeTime).openPositionSymbols) :
      Ordered config st candle signal .SELL

theorem approved_not_duplicate {view : SignalView} {account : AccountState}
    {risk : RiskConfig} {now : Time} {killswitchEnabled duplicate : Bool}
    {expectancy : ExpectancyView} {result : RiskDecisionResult}
    (h : evaluate view account risk now killswitchEnabled duplicate expectancy = some result)
    (happroved : result.approved = true) : duplicate = false := by
  obtain ⟨_, -, hadmits, -⟩ := evaluate_admitted h happroved
  exact hadmits.notDuplicate

/-- **A signal**: it is decided, and an approved one leaves an order where none is pending. -/
theorem processSignal_cases {signal : SyntheticSignal}
    (h : processSignal config st candle signal = some st') :
    signal.symbol = candle.symbol ∧ signal.candleCloseTime = candle.closeTime ∧
    ∃ decision killswitchEnabled, decision.candleCloseTime = candle.closeTime ∧
      (st' = { st with decisions := st.decisions ++ [decision], killswitchEnabled } ∨
        ∃ side, Ordered config st candle signal side ∧ candle.symbol ∉ st.pending ∧
          st' = { st with
            decisions := st.decisions ++ [decision]
            killswitchEnabled
            pending := st.pending.insert candle.symbol
              { symbol := candle.symbol, side, signalTime := candle.closeTime } }) := by
  unfold processSignal at h
  split at h
  · cases h
  · rename_i hmatch
    obtain ⟨hsymbol, htime⟩ := not_or.mp hmatch
    have hsymbol : signal.symbol = candle.symbol := not_not.mp hsymbol
    have htime : signal.candleCloseTime = candle.closeTime := not_not.mp htime
    refine ⟨hsymbol, htime, ?_⟩
    dsimp only at h
    split at h
    · -- a `SELL`
      split at h
      · cases h
      · rename_i result hresult
        refine ⟨decisionOf signal result.approved result.rejectionReason .SELL,
          st.killswitchEnabled, htime, ?_⟩
        cases happroved : result.approved with
        | false =>
          rw [happroved] at h
          exact .inl (Option.some.inj h).symm
        | true =>
          obtain ⟨hfresh, _, hopen⟩ := evaluateExit_approved hresult happroved
          rw [happroved, hsymbol, htime] at h
          exact .inr ⟨.SELL, .exit hopen, hsymbol ▸ of_decide_eq_false hfresh,
            (Option.some.inj h).symm⟩
    · -- a `BUY` or a `HOLD`
      split at h
      · cases h
      · rename_i result hresult
        refine ⟨decisionOf signal result.approved result.rejectionReason .BUY,
          st.killswitchEnabled || result.autoTripKillswitch, htime, ?_⟩
        split at h
        · rename_i stakeUsdt happroved hstake
          have hfresh := approved_not_duplicate hresult happroved
          rw [hfresh] at hresult
          rw [hsymbol, htime] at h
          exact .inr ⟨.BUY stakeUsdt, .entry stakeUsdt result hresult happroved hstake,
            hsymbol ▸ of_decide_eq_false hfresh, (Option.some.inj h).symm⟩
        · cases h
        · exact .inl (Option.some.inj h).symm

/-! ## One candle -/

/-- **One candle**: the open, the safety exits, the price, the signal if there is one, and the
equity point, in this order. -/
theorem processCandle_cases {signalsByKey : Symbol → Time → Option SyntheticSignal}
    (h : processCandle config signalsByKey st candle round = some st') :
    ∃ filled safe decided, executePending config st candle round = some filled ∧
      applySafetyExits config filled candle round = some safe ∧
      (signalsByKey candle.symbol candle.closeTime = none ∧ decided = recordPrice safe candle ∨
        ∃ signal, signalsByKey candle.symbol candle.closeTime = some signal ∧
          processSignal config (recordPrice safe candle) candle signal = some decided) ∧
      st' = recordEquity config decided candle.closeTime := by
  unfold processCandle beforeSignal at h
  cases hfilled : executePending config st candle round with
  | none => simp [hfilled] at h
  | some filled =>
    cases hsafe : applySafetyExits config filled candle round with
    | none => simp [hfilled, hsafe] at h
    | some safe =>
      simp only [hfilled, hsafe] at h
      cases hsignal : signalsByKey candle.symbol candle.closeTime with
      | none =>
        simp only [hsignal] at h
        exact ⟨filled, safe, _, rfl, hsafe, .inl ⟨rfl, rfl⟩, (Option.some.inj h).symm⟩
      | some signal =>
        simp only [hsignal] at h
        obtain ⟨decided, hdecided, heq⟩ := Option.map_eq_some_iff.mp h
        exact ⟨filled, safe, decided, rfl, hsafe, .inr ⟨signal, rfl, hdecided⟩, heq.symm⟩

/-- **The invariant rule for one candle.**  What each part keeps, the candle keeps. -/
theorem processCandle_inv {P : Simulator → Prop}
    {signalsByKey : Symbol → Time → Option SyntheticSignal}
    (hfill : ∀ st st', P st → executePending config st candle round = some st' → P st')
    (hsafety : ∀ st st', P st → applySafetyExits config st candle round = some st' → P st')
    (hprice : ∀ st, P st → P (recordPrice st candle))
    (hsignal : ∀ st st' signal, P st → processSignal config st candle signal = some st' → P st')
    (hequity : ∀ st, P st → P (recordEquity config st candle.closeTime))
    (hst : P st) (h : processCandle config signalsByKey st candle round = some st') : P st' := by
  obtain ⟨filled, safe, decided, hfilled, hsafe, hdecided, rfl⟩ := processCandle_cases h
  have hpriced : P (recordPrice safe candle) :=
    hprice safe (hsafety filled safe (hfill st filled hst hfilled) hsafe)
  rcases hdecided with ⟨-, rfl⟩ | ⟨signal, -, hdecided⟩
  · exact hequity _ hpriced
  · exact hequity _ (hsignal _ _ signal hpriced hdecided)

/-- A candle that stands at one price. -/
def flatCandle (symbol : Symbol) (openTime duration : Time) (price : ℚ)
    (hduration : 0 < duration) (hprice : 0 < price) : Candle :=
  { symbol
    openTime
    closeTime := openTime + duration
    open_ := price
    high := price
    low := price
    close := price
    volume := 0
    times := lt_add_of_pos_right openTime hduration
    open_pos := hprice
    high_pos := hprice
    low_pos := hprice
    close_pos := hprice
    volume_nonneg := le_refl 0
    high_ge := max_le le_rfl le_rfl
    low_le := le_min le_rfl le_rfl }

/-- A `BUY` of the lowest confidence the shipped settings accept. -/
def buySignal (symbol : Symbol) (candleCloseTime : Time) : SyntheticSignal :=
  { symbol
    candleCloseTime
    action := .BUY
    confidence := 7 / 10
    atr14 := 2
    confidence_nonneg := by decide +kernel
    confidence_le := by decide +kernel
    atr_pos := by decide +kernel }

/-- One hourly candle of a symbol at a price. -/
def hourCandle (hour : ℤ) (price : ℚ) (h : 0 < price) : Candle :=
  flatCandle "BTC/USDT" (minutes (60 * hour)) (minutes 60) price (by decide) h

/-- The first hour of a steady market. -/
def firstHour : Candle := hourCandle 0 100 (by decide +kernel)

/-- The second hour of a steady market. -/
def secondHour : Candle := hourCandle 1 100 (by decide +kernel)

/-- A steady market. -/
def steadyCandles : List Candle := [firstHour, secondHour]

/-- The steady market is accepted as it is. -/
theorem steadyCandles_valid : validateAndOrderCandles steadyCandles = some steadyCandles := by
  decide +kernel

/-- A signal at the close of the first hour, by its key. -/
def firstHourSignals (symbol : Symbol) (closeTime : Time) : Option SyntheticSignal :=
  [buySignal "BTC/USDT" (minutes 60)].find? fun signal =>
    signal.symbol = symbol ∧ signal.candleCloseTime = closeTime

theorem firstHourSignals_indexed :
    indexSignals [buySignal "BTC/USDT" (minutes 60)] = some firstHourSignals := rfl

end TradeMind.Analysis
