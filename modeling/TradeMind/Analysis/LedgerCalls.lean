import TradeMind.Analysis.EntryVerdict
import TradeMind.Model.BacktestLedger

/-!
# The calls of the backtest ledger

What each method of the ledger does, said once: an entry opens the position its evaluation
sized or leaves the account as it is (`applyEntry_outcome`), and an exit closes a position or
moves its peak (`applyExitSignal_outcome`, `checkStaticExit_outcome`).
-/

set_option autoImplicit false

namespace TradeMind.Analysis

open TradeMind.Model TradeMind.Library TradeMind.Model.Backtest

/-- The input of the evaluation an entry makes. -/
def ledgerInput (ledger : Ledger) (view : SignalView) (config : RiskConfig) (now : Time) :
    EntryInput :=
  { signal := view
    account := ledger.accountState now
    config
    now
    killswitchEnabled := ledger.killswitchTripped && !ledger.ignoreKillswitch
    isDuplicateDecision := false
    expectancy := noExpectancy }

/-- The position an entry with the given sizing opens. -/
def enteredPosition (ledger : Ledger) (symbol : Symbol) (now : Time) (fillPrice : ℚ)
    (sized : SizingResult) : SimPosition :=
  let effectivePrice := fillPrice * (1 + ledger.feePct + ledger.slippagePct)
  { symbol
    entryTime := now
    entryPrice := fillPrice
    sizeUsdt := sized.positionSizeUsdt
    sizeBase := if 0 < effectivePrice then sized.positionSizeUsdt / effectivePrice else 0
    stopLossPrice := sized.stopLossPrice
    peakPrice := fillPrice
    actualRiskUsdt := some sized.actualRiskUsdt }

/-- The ledger after an auto-trip. -/
def tripLedger (ledger : Ledger) : Ledger :=
  { ledger with
    killswitchTripped := true
    consecutiveLosses := if ledger.ignoreKillswitch then 0 else ledger.consecutiveLosses }

/-- What an entry returns: either it is admitted and its position inserted, or a rule is violated
and at most the kill switch is tripped. -/
inductive EntryOutcome (ledger : Ledger) (symbol : Symbol) (view : SignalView)
    (config : RiskConfig) (now : Time) (fillPrice : ℚ) :
    Ledger × RiskDecisionResult × Option SimPosition → Prop
  | entered (sized : SizingResult)
    (hsizing : (ledgerInput ledger view config now).sizing = some sized)
    (hadmits : Admits ((ledgerInput ledger view config now).context sized)) :
    EntryOutcome ledger symbol view config now fillPrice
      ({ ledger with
          positions := ledger.positions.insert symbol
            (enteredPosition ledger symbol now fillPrice sized) },
        approvedWith ((ledgerInput ledger view config now).context sized),
        some (enteredPosition ledger symbol now fillPrice sized))
  | rejected (sized : SizingResult) (violation : RuleViolation) :
    EntryOutcome ledger symbol view config now fillPrice
      (if violation.autoTripKillswitch then tripLedger ledger else ledger,
        rejectedBy ((ledgerInput ledger view config now).context sized) violation, none)

/-- The ledger after a look at a position: itself, or with the position's peak moved. -/
inductive Looked (ledger : Ledger) : Ledger → Prop
  | same : Looked ledger ledger
  | moved (symbol : Symbol) (position : SimPosition) (peakPrice : ℚ)
    (hlookup : ledger.positions.lookup symbol = some position) :
    Looked ledger
      { ledger with positions := ledger.positions.replace symbol { position with peakPrice } }

/-- What an exit may leave: the ledger after the look, or with a position closed. -/
inductive ExitOutcome (ledger : Ledger) : Ledger → Prop
  | kept (base : Ledger) (hbase : Looked ledger base) : ExitOutcome ledger base
  | closed (base : Ledger) (hbase : Looked ledger base) (position : SimPosition)
    (exitTime : Time) (exitPrice : ℚ) (reason : String) :
    ExitOutcome ledger (base.recordClose position exitTime exitPrice reason).1

variable {ledger : Ledger} {symbol : Symbol} {view : SignalView} {config : RiskConfig}
  {now : Time} {fillPrice : ℚ}

/-- **What an entry does.** -/
theorem applyEntry_outcome {out : Ledger × RiskDecisionResult × Option SimPosition}
    (h : ledger.applyEntry symbol view config now fillPrice = some out) :
    EntryOutcome ledger symbol view config now fillPrice out := by
  unfold Ledger.applyEntry at h
  split at h
  · cases h
  · rename_i result hresult
    have hrun : (ledgerInput ledger view config now).run = some result := hresult
    rw [EntryInput.run_eq] at hrun
    obtain ⟨sized, hsizing, hverdict⟩ := Option.bind_eq_some_iff.mp hrun
    rcases verdict_some hverdict with ⟨violation, -, rfl⟩ | ⟨hrules, rfl⟩
    · cases Option.some.inj h
      exact .rejected sized violation
    · cases Option.some.inj h
      exact .entered sized hsizing (admits_iff.mpr hrules)

theorem applyExitSignal_outcome {out : Ledger × ExitDecisionResult × Option ClosedTrade}
    (h : ledger.applyExitSignal symbol view config now fillPrice = some out) :
    ExitOutcome ledger out.1 := by
  unfold Ledger.applyExitSignal at h
  split at h
  · cases h
  · split at h
    · cases Option.some.inj h
      exact .kept ledger .same
    · split at h
      · cases h
      · cases Option.some.inj h
        exact .closed ledger .same _ _ _ _

theorem checkStaticExit_outcome {candle : Backtest.Candle} {candleCloseTime : Time}
    {out : Ledger × Option ClosedTrade}
    (h : ledger.checkStaticExit symbol candle candleCloseTime = some out) :
    ExitOutcome ledger out.1 := by
  unfold Ledger.checkStaticExit at h
  split at h
  · cases Option.some.inj h
    exact .kept ledger .same
  · rename_i position hlookup
    have hmoved := Looked.moved symbol position (max position.peakPrice candle.h) hlookup
    split at h
    · cases h
    · dsimp only at h
      split at h
      · cases Option.some.inj h
        exact .closed _ hmoved _ _ _ _
      · split at h
        · cases Option.some.inj h
          exact .kept _ hmoved
        · split at h
          · cases Option.some.inj h
            exact .closed _ hmoved _ _ _ _
          · cases Option.some.inj h
            exact .kept _ hmoved

/-! ## The stop of a candle -/

/-- The trailing stop's activation at a peak. -/
def TrailingActive (fill peak : ℚ) : Prop :=
  trailingActivationPct ≤ (peak - fill) / fill

instance (fill peak : ℚ) : Decidable (TrailingActive fill peak) :=
  inferInstanceAs (Decidable (_ ≤ _))

/-- The ledger's stop: its own floor, or the trailing stop where that is higher. -/
theorem effectiveStop_eq (position : SimPosition) :
    position.effectiveStop.1 =
      if TrailingActive position.entryPrice position.peakPrice then
        max (max position.stopLossPrice (position.entryPrice * (1 + staticStoplossPct)))
          (position.peakPrice * (1 - trailingDistancePct))
      else max position.stopLossPrice (position.entryPrice * (1 + staticStoplossPct)) := by
  unfold SimPosition.effectiveStop
  dsimp only
  by_cases hactive : TrailingActive position.entryPrice position.peakPrice
  · rw [if_pos hactive]
    split
    · rename_i h
      exact (max_eq_right h.2.le).symm
    · rename_i h
      exact (max_eq_left (not_lt.mp fun hlt => h ⟨hactive, hlt⟩)).symm
  · rw [if_neg hactive, if_neg fun h => hactive h.1]

end TradeMind.Analysis
