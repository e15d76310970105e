import Mathlib.Algebra.Order.Field.Basic
import Mathlib.Tactic.Linarith
import TradeMind.Analysis.LedgerCalls
import TradeMind.Library.PartialRun

/-!
# The static exit over a candle path

The stop is the greatest of the ATR level, the static floor and, once the peak has earned
enough, the trailing level; it rises with the peak, and the peak never falls.  A gap through
the stop or the ROI price fills at the open (`static_exit_correct`).
-/

set_option autoImplicit false

namespace TradeMind.Analysis

open TradeMind.Model TradeMind.Library TradeMind.Model.Backtest

/-! ## The two prices -/

/-- The position once its peak has seen a candle. -/
def peaked (position : SimPosition) (candle : Backtest.Candle) : SimPosition :=
  { position with peakPrice := max position.peakPrice candle.h }

/-- The stop of a candle: it uses the peak of the same candle. -/
def stopAt (position : SimPosition) (candle : Backtest.Candle) : ℚ :=
  (peaked position candle).effectiveStop.1

/-- The row of the ROI table for a holding time. -/
def roiRow (position : SimPosition) (closeTime : Time) : Option (ℚ × ℚ) :=
  minimalRoi.find? fun row => row.1 ≤ ((closeTime - position.entryTime : ℤ) / 60000000 : ℚ)

/-- The ROI price of a candle. -/
def roiPriceAt (position : SimPosition) (closeTime : Time) : Option ℚ :=
  (roiRow position closeTime).map fun row => position.entryPrice * (1 + row.2)

/-- From the entry on, there is an ROI price. -/
theorem roiPriceAt_some {position : SimPosition} {closeTime : Time}
    (h : position.entryTime ≤ closeTime) :
    ∃ roiPrice, roiPriceAt position closeTime = some roiPrice := by
  have helapsed : (0 : ℚ) ≤ (closeTime - position.entryTime : ℤ) / 60000000 :=
    div_nonneg (by exact_mod_cast sub_nonneg.mpr h) (by norm_num)
  have hfound : (roiRow position closeTime).isSome := by
    rw [roiRow, List.find?_isSome]
    exact ⟨(0, 6 / 100), by simp [minimalRoi], decide_eq_true helapsed⟩
  obtain ⟨row, hrow⟩ := Option.isSome_iff_exists.mp hfound
  exact ⟨_, by rw [roiPriceAt, hrow, Option.map_some]⟩

/-- **The stop rises with the peak.** -/
theorem effectiveStop_mono (position : SimPosition) (hentry : 0 < position.entryPrice)
    {low high : ℚ} (h : low ≤ high) :
    ({ position with peakPrice := low } : SimPosition).effectiveStop.1 ≤
      ({ position with peakPrice := high } : SimPosition).effectiveStop.1 := by
  have hactive : TrailingActive position.entryPrice low →
      TrailingActive position.entryPrice high := fun hlow =>
    le_trans hlow (div_le_div_of_nonneg_right (sub_le_sub_right h _) hentry.le)
  have htrail : low * (1 - trailingDistancePct) ≤ high * (1 - trailingDistancePct) :=
    mul_le_mul_of_nonneg_right h (by decide +kernel)
  rw [effectiveStop_eq, effectiveStop_eq]
  by_cases hlow : TrailingActive position.entryPrice low
  · rw [if_pos hlow, if_pos (hactive hlow)]
    exact max_le_max le_rfl htrail
  · rw [if_neg hlow]
    split
    · exact le_max_left _ _
    · exact le_rfl

/-! ## One candle -/

/-- The ledger with the peak of a position moved by a candle. -/
def movedPeak (ledger : Ledger) (position : SimPosition) (candle : Backtest.Candle) : Ledger :=
  { ledger with
    positions := ledger.positions.replace position.symbol (peaked position candle) }

/-- The fill of a stop: the open where the candle gapped below it. -/
def stopFill (position : SimPosition) (candle : Backtest.Candle) : ℚ :=
  if candle.o < stopAt position candle then min candle.o (stopAt position candle)
  else stopAt position candle

/-- The fill of an ROI exit: the open where the candle gapped above its price. -/
def roiFill (candle : Backtest.Candle) (roiPrice : ℚ) : ℚ :=
  if roiPrice < candle.o then max candle.o roiPrice else roiPrice

/-- What closing a position at a candle returns. -/
def closedAt (ledger : Ledger) (position : SimPosition) (candle : Backtest.Candle)
    (closeTime : Time) (fill : ℚ) (reason : String) : Ledger × Option ClosedTrade :=
  let out := (movedPeak ledger position candle).recordClose (peaked position candle) closeTime
    fill reason
  (out.1, some out.2)

variable {ledger : Ledger} {position : SimPosition} {candle : Backtest.Candle}
  {closeTime : Time} {roiPrice : ℚ}

/-- **One candle** closes a position at the stop, or at the ROI price, or moves its peak. -/
theorem checkStaticExit_held (candle : Backtest.Candle)
    (hheld : ledger.positions.lookup position.symbol = some position)
    (hentry : 0 < position.entryPrice) (hroi : roiPriceAt position closeTime = some roiPrice) :
    ledger.checkStaticExit position.symbol candle closeTime =
      some (if candle.l ≤ stopAt position candle then
          closedAt ledger position candle closeTime (stopFill position candle)
            (peaked position candle).effectiveStop.2
        else if roiPrice ≤ candle.h then
          closedAt ledger position candle closeTime (roiFill candle roiPrice) "minimal_roi"
        else (movedPeak ledger position candle, none)) := by
  obtain ⟨row, hrow, rfl⟩ := Option.map_eq_some_iff.mp hroi
  rw [roiRow] at hrow
  rw [Ledger.checkStaticExit, hheld]
  simp only [hentry.ne', if_false]
  rw [hrow, apply_ite some, apply_ite some]
  rfl

/-- A stop fills at or below the stop and where the candle traded. -/
theorem stopFill_bounds (hlow : candle.l ≤ candle.o) (hhigh : candle.o ≤ candle.h)
    (hreached : candle.l ≤ stopAt position candle) :
    stopFill position candle ≤ stopAt position candle ∧
      candle.l ≤ stopFill position candle ∧ stopFill position candle ≤ candle.h := by
  unfold stopFill
  split
  · rename_i hgap
    rw [min_eq_left hgap.le]
    exact ⟨hgap.le, hlow, hhigh⟩
  · rename_i hgap
    exact ⟨le_rfl, hreached, (not_lt.mp hgap).trans hhigh⟩

/-- An ROI exit fills at or above its price and where the candle traded. -/
theorem roiFill_bounds (hlow : candle.l ≤ candle.o) (hhigh : candle.o ≤ candle.h)
    (hreached : roiPrice ≤ candle.h) :
    roiPrice ≤ roiFill candle roiPrice ∧
      candle.l ≤ roiFill candle roiPrice ∧ roiFill candle roiPrice ≤ candle.h := by
  unfold roiFill
  split
  · rename_i hgap
    rw [max_eq_left hgap.le]
    exact ⟨hgap.le, hlow, hhigh⟩
  · rename_i hgap
    exact ⟨le_rfl, hlow.trans (not_lt.mp hgap), hreached⟩

/-- A stop is an ATR stop or a trailing stop. -/
theorem effectiveStop_reason (position : SimPosition) :
    position.effectiveStop.2 = "atr_stoploss" ∨ position.effectiveStop.2 = "trailing_stop" := by
  unfold SimPosition.effectiveStop
  dsimp only
  split
  · exact .inr rfl
  · exact .inl rfl

/-! ## A candle path -/

/-- One candle and its close time fed to the ledger. -/
def feed (symbol : Symbol) (ledger : Ledger) (fed : Backtest.Candle × Time) : Option Ledger :=
  (ledger.checkStaticExit symbol fed.1 fed.2).map Prod.fst

/-- What the ledger still holds of a position is that position with a peak at least as high. -/
def KeptFrom (position : SimPosition) (ledger : Ledger) : Prop :=
  ∀ held, ledger.positions.lookup position.symbol = some held →
    held = { position with peakPrice := held.peakPrice } ∧ position.peakPrice ≤ held.peakPrice

theorem closedAt_lookup (ledger : Ledger) (position : SimPosition) (candle : Backtest.Candle)
    (closeTime : Time) (fill : ℚ) (reason : String) :
    (closedAt ledger position candle closeTime fill reason).1.positions.lookup position.symbol =
      none :=
  AList.lookup_erase _ _

/-- A position that stays is held with its peak moved. -/
theorem movedPeak_lookup (candle : Backtest.Candle)
    (hheld : ledger.positions.lookup position.symbol = some position) :
    (movedPeak ledger position candle).positions.lookup position.symbol =
      some (peaked position candle) :=
  Dict.lookup_replace hheld

/-- **One candle keeps** what is held of a position. -/
theorem feed_kept (candle : Backtest.Candle) (hentry : 0 < position.entryPrice)
    (hkept : KeptFrom position ledger) (htime : position.entryTime ≤ closeTime) :
    ∃ next, feed position.symbol ledger (candle, closeTime) = some next ∧
      KeptFrom position next := by
  cases hlookup : ledger.positions.lookup position.symbol with
  | none =>
    have hsame : ledger.checkStaticExit position.symbol candle closeTime =
        some (ledger, none) := by rw [Ledger.checkStaticExit, hlookup]
    exact ⟨ledger, by rw [feed, hsame]; rfl, hkept⟩
  | some held =>
    obtain ⟨heq, hpeak⟩ := hkept held hlookup
    have hsymbol : held.symbol = position.symbol := heq ▸ rfl
    have hheldEntry : 0 < held.entryPrice := heq ▸ hentry
    have hheldTime : held.entryTime ≤ closeTime := heq ▸ htime
    obtain ⟨roiPrice, hroi⟩ := roiPriceAt_some hheldTime
    rw [← hsymbol] at hlookup ⊢
    have hstep := checkStaticExit_held candle hlookup hheldEntry hroi
    refine ⟨_, by rw [feed, hstep]; rfl, ?_⟩
    have hclosed : ∀ fill reason,
        KeptFrom position (closedAt ledger held candle closeTime fill reason).1 := by
      intro fill reason other hother
      rw [← hsymbol, closedAt_lookup] at hother
      cases hother
    split
    · exact hclosed _ _
    · split
      · exact hclosed _ _
      · intro other hother
        rw [← hsymbol, movedPeak_lookup candle hlookup] at hother
        cases Option.some.inj hother
        refine ⟨?_, hpeak.trans (le_max_left _ _)⟩
        rw [heq]
        rfl

/-- **A candle path keeps** what is held of a position. -/
theorem runPartial_kept (hentry : 0 < position.entryPrice) (hkept : KeptFrom position ledger)
    {path : List (Backtest.Candle × Time)} (htimes : ∀ fed ∈ path, position.entryTime ≤ fed.2) :
    ∃ next, runPartial (feed position.symbol) ledger path = some next ∧
      KeptFrom position next := by
  induction path generalizing ledger with
  | nil => exact ⟨ledger, rfl, hkept⟩
  | cons fed path ih =>
    obtain ⟨mid, hmid, hkeptMid⟩ := feed_kept fed.1 hentry hkept
      (htimes fed List.mem_cons_self)
    obtain ⟨next, hnext, hkeptNext⟩ := ih hkeptMid
      fun later hlater => htimes later (List.mem_cons_of_mem fed hlater)
    refine ⟨next, ?_, hkeptNext⟩
    rw [runPartial_cons, hmid]
    exact hnext

/-- **The stop never falls**: at a later candle it is at least what it was. -/
theorem stopAt_mono (hentry : 0 < position.entryPrice)
    (hheld : ledger.positions.lookup position.symbol = some position)
    (htime : position.entryTime ≤ closeTime) {next mid : Ledger}
    (hnext : feed position.symbol ledger (candle, closeTime) = some next)
    {between : List (Backtest.Candle × Time)}
    (htimes : ∀ fed ∈ between, position.entryTime ≤ fed.2)
    (hmid : runPartial (feed position.symbol) next between = some mid) {later : SimPosition}
    (hlater : mid.positions.lookup position.symbol = some later)
    (laterCandle : Backtest.Candle) :
    stopAt position candle ≤ stopAt later laterCandle := by
  have hkept : KeptFrom (peaked position candle) next := by
    obtain ⟨roiPrice, hroi⟩ := roiPriceAt_some htime
    rw [feed, checkStaticExit_held candle hheld hentry hroi] at hnext
    cases Option.some.inj hnext
    intro other hother
    change AList.lookup position.symbol _ = _ at hother
    split at hother
    · rw [closedAt_lookup] at hother
      cases hother
    · split at hother
      · rw [closedAt_lookup] at hother
        cases hother
      · rw [movedPeak_lookup candle hheld] at hother
        cases Option.some.inj hother
        exact ⟨rfl, le_rfl⟩
  have hentryPeaked : 0 < (peaked position candle).entryPrice := hentry
  obtain ⟨mid', hmid', hkeptMid⟩ := runPartial_kept hentryPeaked hkept htimes
  have hsame : runPartial (feed position.symbol) next between = some mid' := hmid'
  rw [hmid] at hsame
  cases Option.some.inj hsame
  obtain ⟨heq, hpeak⟩ := hkeptMid later hlater
  have hstop := effectiveStop_mono position hentry (hpeak.trans (le_max_left _ laterCandle.h))
  rw [stopAt, stopAt, peaked, peaked, heq]
  exact hstop

/-! ## The exit of a candle -/

/-- What the static exit does with a held position at a candle is right: it closes just where
the stop or the ROI price is reached, the stop first, at a price on the right side of the one
reached and within the candle. -/
structure ExitsRightly (held : SimPosition) (candle : Backtest.Candle) (roiPrice : ℚ)
    (next : Ledger) (outcome : Option ClosedTrade) : Prop where
  closes : outcome.isSome ↔ candle.l ≤ stopAt held candle ∨ roiPrice ≤ candle.h
  gone : outcome.isSome ↔ next.positions.lookup held.symbol = none
  stop : candle.l ≤ stopAt held candle → ∃ trade, outcome = some trade ∧
    (trade.exitReason = "atr_stoploss" ∨ trade.exitReason = "trailing_stop") ∧
    trade.exitPrice ≤ stopAt held candle
  roi : stopAt held candle < candle.l → roiPrice ≤ candle.h → ∃ trade, outcome = some trade ∧
    trade.exitReason = "minimal_roi" ∧ roiPrice ≤ trade.exitPrice
  range : ∀ trade, outcome = some trade →
    candle.l ≤ trade.exitPrice ∧ trade.exitPrice ≤ candle.h

/-- **One candle exits rightly.** -/
theorem checkStaticExit_rightly
    (hheld : ledger.positions.lookup position.symbol = some position)
    (hentry : 0 < position.entryPrice) (hroi : roiPriceAt position closeTime = some roiPrice)
    (hlow : candle.l ≤ candle.o) (hhigh : candle.o ≤ candle.h) :
    ∃ next outcome,
      ledger.checkStaticExit position.symbol candle closeTime = some (next, outcome) ∧
      ExitsRightly position candle roiPrice next outcome := by
  have hstep := checkStaticExit_held candle hheld hentry hroi
  by_cases hstop : candle.l ≤ stopAt position candle
  · rw [if_pos hstop] at hstep
    obtain ⟨hbelow, hrange⟩ := stopFill_bounds hlow hhigh hstop
    exact ⟨_, _, hstep,
      { closes := ⟨fun _ => .inl hstop, fun _ => rfl⟩
        gone := ⟨fun _ => closedAt_lookup _ _ _ _ _ _, fun _ => rfl⟩
        stop := fun _ => ⟨_, rfl, effectiveStop_reason _, hbelow⟩
        roi := fun habove => absurd hstop (not_le.mpr habove)
        range := fun trade htrade => Option.some.inj htrade ▸ hrange }⟩
  · rw [if_neg hstop] at hstep
    by_cases hreached : roiPrice ≤ candle.h
    · rw [if_pos hreached] at hstep
      obtain ⟨habove, hrange⟩ := roiFill_bounds hlow hhigh hreached
      exact ⟨_, _, hstep,
        { closes := ⟨fun _ => .inr hreached, fun _ => rfl⟩
          gone := ⟨fun _ => closedAt_lookup _ _ _ _ _ _, fun _ => rfl⟩
          stop := fun h => absurd h hstop
          roi := fun _ _ => ⟨_, rfl, rfl, habove⟩
          range := fun trade htrade => Option.some.inj htrade ▸ hrange }⟩
    · rw [if_neg hreached] at hstep
      have hstays := movedPeak_lookup candle hheld
      exact ⟨_, _, hstep,
        { closes := ⟨fun h => absurd h Bool.false_ne_true,
            fun h => absurd h (not_or.mpr ⟨hstop, hreached⟩)⟩
          gone := ⟨fun h => absurd h Bool.false_ne_true, fun h => by rw [hstays] at h; cases h⟩
          stop := fun h => absurd h hstop
          roi := fun _ h => absurd h hreached
          range := fun trade htrade => by cases htrade }⟩

/-- **The static exit is correct over any candle path.**  Wherever the position is still held,
the candle exits rightly, and no later candle that finds it held has a lower stop. -/
theorem static_exit_correct (ledger : Ledger) (position : SimPosition)
    (path : List (Backtest.Candle × Time))
    (hheld : ledger.positions.lookup position.symbol = some position)
    (hentry : 0 < position.entryPrice)
    (hpath : ∀ fed ∈ path, fed.1.l ≤ fed.1.o ∧ fed.1.o ≤ fed.1.h ∧
      position.entryTime ≤ fed.2) :
    ∀ before candle closeTime after, path = before ++ (candle, closeTime) :: after →
      ∃ mid, runPartial (feed position.symbol) ledger before = some mid ∧
        ∀ held, mid.positions.lookup position.symbol = some held →
          ∃ next outcome roiPrice,
            mid.checkStaticExit position.symbol candle closeTime = some (next, outcome) ∧
            roiPriceAt held closeTime = some roiPrice ∧
            ExitsRightly held candle roiPrice next outcome ∧
            ∀ between laterCandle laterTime rest mid' later,
              after = between ++ (laterCandle, laterTime) :: rest →
              runPartial (feed position.symbol) next between = some mid' →
              mid'.positions.lookup position.symbol = some later →
              stopAt held candle ≤ stopAt later laterCandle := by
  rintro before candle closeTime after rfl
  have htimes : ∀ fed ∈ before ++ (candle, closeTime) :: after, position.entryTime ≤ fed.2 :=
    fun fed hfed => (hpath fed hfed).2.2
  have hkept : KeptFrom position ledger := by
    intro held hlookup
    rw [hheld] at hlookup
    cases Option.some.inj hlookup
    exact ⟨rfl, le_rfl⟩
  obtain ⟨mid, hmid, hkeptMid⟩ := runPartial_kept hentry hkept
    fun fed hfed => htimes fed (List.mem_append_left _ hfed)
  refine ⟨mid, hmid, fun held hlookup => ?_⟩
  obtain ⟨hlow, hhigh, htime⟩ := hpath (candle, closeTime) (by simp)
  obtain ⟨heq, -⟩ := hkeptMid held hlookup
  have hsymbol : held.symbol = position.symbol := heq ▸ rfl
  have hheldEntry : 0 < held.entryPrice := heq ▸ hentry
  have hheldTime : held.entryTime = position.entryTime := heq ▸ rfl
  obtain ⟨roiPrice, hroi⟩ := roiPriceAt_some (hheldTime.trans_le htime)
  rw [← hsymbol] at hlookup ⊢
  obtain ⟨next, outcome, hstep, hrightly⟩ :=
    checkStaticExit_rightly hlookup hheldEntry hroi hlow hhigh
  refine ⟨next, outcome, roiPrice, hstep, hroi, hrightly, ?_⟩
  rintro between laterCandle laterTime rest mid' later rfl hbetween hlater
  have hnext : feed held.symbol mid (candle, closeTime) = some next := by
    rw [feed, hstep]
    rfl
  refine stopAt_mono hheldEntry hlookup (hheldTime.trans_le htime) hnext (fun fed hfed => ?_)
    hbetween hlater laterCandle
  exact hheldTime.trans_le (htimes fed (by simp [hfed]))

/-- A position bought at 100 with its stop at 95. -/
def hundredPosition : SimPosition :=
  { symbol := "BTC/USDT"
    entryTime := 0
    entryPrice := 100
    sizeUsdt := 100
    sizeBase := 1
    stopLossPrice := 95
    peakPrice := 100 }

/-- A ledger of 1000 USDT that holds the position bought at 100. -/
def hundredLedger : Ledger :=
  { startingEquityUsdt := 1000
    positions := AList.singleton "BTC/USDT" hundredPosition }

/-- An hour that reaches 104 and one that falls back to 102. -/
def hundredPath : List (Backtest.Candle × Time) :=
  [(⟨103, 104, 103⟩, minutes 60), (⟨103, 103, 102⟩, minutes 120)]

/-- The second hour of the path meets the trailing stop of the first. -/
theorem static_exit_correct_trailing :
    (((runPartial (feed "BTC/USDT") hundredLedger hundredPath).map fun ledger =>
      ledger.closedTrades.map fun trade => (trade.exitPrice, trade.exitReason)) =
        some [(104 * (1 - 15 / 1000), "trailing_stop")]) ∧
    ∃ mid, runPartial (feed "BTC/USDT") hundredLedger [(⟨103, 104, 103⟩, minutes 60)] = some mid ∧
      ∀ held, mid.positions.lookup "BTC/USDT" = some held →
        ∃ next outcome roiPrice,
          mid.checkStaticExit "BTC/USDT" ⟨103, 103, 102⟩ (minutes 120) = some (next, outcome) ∧
          ExitsRightly held ⟨103, 103, 102⟩ roiPrice next outcome := by
  obtain ⟨mid, hmid, hexits⟩ := static_exit_correct hundredLedger hundredPosition hundredPath
    rfl (by decide +kernel) (by decide +kernel) [(⟨103, 104, 103⟩, minutes 60)]
    ⟨103, 103, 102⟩ (minutes 120) [] rfl
  refine ⟨by decide +kernel, mid, hmid, fun held hheld => ?_⟩
  obtain ⟨next, outcome, roiPrice, hstep, -, hrightly, -⟩ := hexits held hheld
  exact ⟨next, outcome, roiPrice, hstep, hrightly⟩

end TradeMind.Analysis
