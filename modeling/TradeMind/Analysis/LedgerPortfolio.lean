import Mathlib.Data.List.DropRight
import TradeMind.Analysis.LossStreaks
import TradeMind.Library.Machine

/-!
# The portfolio of the backtest ledger

What a call may do to a ledger that does not compound and enforces its kill switch
(`PortfolioEffect`), and what its runs keep: the caps on exposure and positions, the realized
PnL, the loss counter, and the kill switch (`ledger_keeps_portfolio`).  The exposure cap needs
sizes that are not negative.
-/

set_option autoImplicit false

namespace TradeMind.Analysis

open TradeMind.Model TradeMind.Library TradeMind.Model.Backtest

/-- The ledger after a call; one that raises leaves it. -/
def ledgerStep (ledger : Ledger) (call : LedgerCall) : Ledger :=
  (call.apply ledger).getD ledger

/-- A call of one of the three methods with positive prices, under the given configuration. -/
def LedgerCall.Within (config : RiskConfig) : LedgerCall → Prop
  | .applyEntry _ view config' _ fillPrice =>
    config' = config ∧ 0 < view.price ∧ 0 < fillPrice
  | .applyExitSignal _ view config' _ fillPrice =>
    config' = config ∧ 0 < view.price ∧ 0 < fillPrice
  | .checkStaticExit _ candle _ => 0 < candle.o ∧ 0 < candle.h ∧ 0 < candle.l
  | .close _ _ _ _ => False

/-- A ledger without compounding that enforces its kill switch and that nothing has happened to yet.
-/
structure FreshLedger (ledger : Ledger) : Prop where
  plain : ledger.compounding = false
  enforced : ledger.ignoreKillswitch = false
  positions : ledger.positions = ∅
  trades : ledger.closedTrades = []
  losses : ledger.consecutiveLosses = 0
  untripped : ledger.killswitchTripped = false
  realized : ledger.realizedPnlUsdt = 0

/-! ## The effect of a call -/

/-- The positions are on the same symbols and have the same sizes, whatever their peaks. -/
def SameSizes (positions positions' : Dict Symbol SimPosition) : Prop :=
  Dict.keySet positions' = Dict.keySet positions ∧
    (Dict.values positions').map SimPosition.sizeUsdt =
      (Dict.values positions).map SimPosition.sizeUsdt

/-- **What a call may do**: nothing but trip the kill switch, enter a position within the
caps, move a peak, or close a position. -/
inductive PortfolioEffect (config : RiskConfig) (ledger : Ledger) : Ledger → Prop
  | rejected (tripped : Bool) (hlatched : ledger.killswitchTripped = true → tripped = true) :
    PortfolioEffect config ledger { ledger with killswitchTripped := tripped }
  | entered (symbol : Symbol) (position : SimPosition)
    (hlimit : ((Dict.keySet ledger.positions).card : ℤ) < config.maxOpenPositions)
    (hcap : ledger.totalExposureUsdt + position.sizeUsdt ≤
      config.maxTotalExposurePct * ledger.equityUsdt)
    (hsize : 0 ≤ config.minConfidenceSizeScale → 0 ≤ position.sizeUsdt) :
    PortfolioEffect config ledger
      { ledger with positions := ledger.positions.insert symbol position }
  | watched (positions : Dict Symbol SimPosition) (hsame : SameSizes ledger.positions positions) :
    PortfolioEffect config ledger { ledger with positions }
  | closed (positions : Dict Symbol SimPosition) (hsame : SameSizes ledger.positions positions)
    (position : SimPosition) (exitTime : Time) (exitPrice : ℚ) (reason : String) :
    PortfolioEffect config ledger
      (Ledger.recordClose { ledger with positions } position exitTime exitPrice reason).1

variable {config : RiskConfig} {ledger ledger' : Ledger}

/-- **What an entry may do.** -/
theorem EntryOutcome.portfolio (henforced : ledger.ignoreKillswitch = false) {symbol : Symbol}
    {view : SignalView} {now : Time} {fillPrice : ℚ}
    {out : Ledger × RiskDecisionResult × Option SimPosition}
    (h : EntryOutcome ledger symbol view config now fillPrice out) :
    PortfolioEffect config ledger out.1 := by
  cases h with
  | entered sized hsizing hadmits =>
    exact .entered symbol _ hadmits.belowLimit hadmits.exposureCapped
      fun hscale => computeSizing_size_nonneg hsizing hscale
  | rejected sized violation =>
    dsimp only
    split
    · have heffect : PortfolioEffect config ledger { ledger with killswitchTripped := true } :=
        .rejected true fun _ => rfl
      simpa [tripLedger, henforced] using heffect
    · exact .rejected ledger.killswitchTripped id

theorem Looked.sameSizes (h : Looked ledger ledger') :
    ∃ positions, ledger' = { ledger with positions } ∧ SameSizes ledger.positions positions := by
  cases h with
  | same => exact ⟨ledger.positions, rfl, rfl, rfl⟩
  | moved symbol position peakPrice hlookup =>
    exact ⟨_, rfl, Dict.keySet_replace _ _ _,
      Dict.map_values_replace SimPosition.sizeUsdt hlookup rfl⟩

/-- What an exit may do. -/
theorem ExitOutcome.portfolio (h : ExitOutcome ledger ledger') :
    PortfolioEffect config ledger ledger' := by
  cases h with
  | kept base hbase =>
    obtain ⟨positions, rfl, hsame⟩ := hbase.sameSizes
    exact .watched positions hsame
  | closed base hbase position exitTime exitPrice reason =>
    obtain ⟨positions, rfl, hsame⟩ := hbase.sameSizes
    exact .closed positions hsame position exitTime exitPrice reason

/-- **The effect of a call.** -/
theorem ledgerStep_portfolio (henforced : ledger.ignoreKillswitch = false) {call : LedgerCall}
    (hcall : call.Within config) : PortfolioEffect config ledger (ledgerStep ledger call) := by
  unfold ledgerStep
  cases happly : call.apply ledger with
  | none => exact .watched ledger.positions ⟨rfl, rfl⟩
  | some next =>
    rw [Option.getD_some]
    cases call with
    | applyEntry symbol view config' now fillPrice =>
      obtain ⟨out, hout, rfl⟩ := Option.map_eq_some_iff.mp happly
      obtain ⟨rfl, -⟩ := hcall
      exact (applyEntry_outcome hout).portfolio henforced
    | applyExitSignal symbol view config' now fillPrice =>
      obtain ⟨out, hout, rfl⟩ := Option.map_eq_some_iff.mp happly
      exact (applyExitSignal_outcome hout).portfolio
    | checkStaticExit symbol candle candleCloseTime =>
      obtain ⟨out, hout, rfl⟩ := Option.map_eq_some_iff.mp happly
      exact (checkStaticExit_outcome hout).portfolio
    | close position exitTime exitPrice reason => exact absurd hcall id

/-! ## The invariants -/

/-- The closed trades at the end of the list that lost. -/
def losingSuffix (ledger : Ledger) : List ClosedTrade :=
  ledger.closedTrades.rtakeWhile fun trade => trade.pnlUsdt < 0

/-- What every call keeps, whatever the sizes. -/
structure LedgerInvariant (config : RiskConfig) (equity : ℚ) (ledger : Ledger) : Prop where
  plain : ledger.compounding = false
  enforced : ledger.ignoreKillswitch = false
  equity : ledger.startingEquityUsdt = equity
  belowLimit : ((Dict.keySet ledger.positions).card : ℤ) ≤ config.maxOpenPositions
  realized : ledger.realizedPnlUsdt = (ledger.closedTrades.map ClosedTrade.pnlUsdt).sum
  losses : ledger.consecutiveLosses = (losingSuffix ledger).length

theorem ledgerInvariant_fresh (hfresh : FreshLedger ledger) (hlimit : 0 ≤ config.maxOpenPositions) :
    LedgerInvariant config ledger.startingEquityUsdt ledger where
  plain := hfresh.plain
  enforced := hfresh.enforced
  equity := rfl
  belowLimit := by
    rw [hfresh.positions, Dict.keySet_empty, Finset.card_empty]
    exact hlimit
  realized := by
    rw [hfresh.realized, hfresh.trades, List.map_nil, List.sum_nil]
  losses := by
    rw [hfresh.losses, losingSuffix, hfresh.trades, List.rtakeWhile_nil, List.length_nil]
    rfl

/-- Recording a close adds its PnL, and counts or resets the losses. -/
theorem recordClose_trades (base : Ledger) (position : SimPosition) (exitTime : Time)
    (exitPrice : ℚ) (reason : String) :
    ∃ trade : ClosedTrade,
      (base.recordClose position exitTime exitPrice reason).1.closedTrades =
        base.closedTrades ++ [trade] ∧
      (base.recordClose position exitTime exitPrice reason).1.realizedPnlUsdt =
        base.realizedPnlUsdt + trade.pnlUsdt ∧
      (base.recordClose position exitTime exitPrice reason).1.consecutiveLosses =
        if trade.pnlUsdt < 0 then base.consecutiveLosses + 1 else 0 :=
  ⟨(base.recordClose position exitTime exitPrice reason).2, rfl, rfl, rfl⟩

/-- **One call keeps the invariant.** -/
theorem LedgerInvariant.effect {equity : ℚ} (h : LedgerInvariant config equity ledger)
    (heffect : PortfolioEffect config ledger ledger') :
    LedgerInvariant config equity ledger' := by
  cases heffect with
  | rejected tripped hlatched =>
    exact ⟨h.plain, h.enforced, h.equity, h.belowLimit, h.realized, h.losses⟩
  | entered symbol position hlimit hcap hsize =>
    refine ⟨h.plain, h.enforced, h.equity, ?_, h.realized, h.losses⟩
    change ((Dict.keySet (ledger.positions.insert symbol position)).card : ℤ) ≤ _
    rw [Dict.keySet_insert]
    have hcard := Finset.card_insert_le symbol (Dict.keySet ledger.positions)
    omega
  | watched positions hsame =>
    refine ⟨h.plain, h.enforced, h.equity, ?_, h.realized, h.losses⟩
    change ((Dict.keySet positions).card : ℤ) ≤ _
    rw [hsame.1]
    exact h.belowLimit
  | closed positions hsame position exitTime exitPrice reason =>
    obtain ⟨trade, htrades, hrealized, hlosses⟩ :=
      recordClose_trades { ledger with positions } position exitTime exitPrice reason
    refine ⟨h.plain, h.enforced, h.equity, ?_, ?_, ?_⟩
    · change ((Dict.keySet (positions.erase position.symbol)).card : ℤ) ≤ _
      rw [Dict.keySet_erase, hsame.1]
      have hcard := Finset.card_erase_le (s := Dict.keySet ledger.positions) (a := position.symbol)
      have hlimit := h.belowLimit
      omega
    · rw [hrealized, htrades, List.map_append, List.sum_append, List.map_singleton,
        List.sum_singleton, ← h.realized]
    · rw [hlosses, losingSuffix, htrades, List.rtakeWhile_concat]
      by_cases hloss : trade.pnlUsdt < 0
      · rw [if_pos hloss, if_pos (decide_eq_true hloss), List.length_append,
          List.length_singleton, h.losses]
        rfl
      · rw [if_neg hloss, if_neg (by simpa using hloss), List.length_nil]
        rfl

/-- What every call keeps where no size is negative. -/
structure ExposureInvariant (config : RiskConfig) (equity : ℚ) (ledger : Ledger) : Prop where
  sizes : ∀ position ∈ Dict.values ledger.positions, 0 ≤ position.sizeUsdt
  capped : ledger.totalExposureUsdt ≤ config.maxTotalExposurePct * equity

/-- The same sizes add up to the same total, and are as little negative. -/
theorem ExposureInvariant.of_sameSizes {equity : ℚ} {positions : Dict Symbol SimPosition}
    (h : ExposureInvariant config equity ledger)
    (hsame : SameSizes ledger.positions positions) :
    ExposureInvariant config equity { ledger with positions } where
  sizes := by
    intro position hposition
    have hmem : position.sizeUsdt ∈ (Dict.values positions).map SimPosition.sizeUsdt :=
      List.mem_map_of_mem hposition
    rw [hsame.2] at hmem
    obtain ⟨old, hold, heq⟩ := List.mem_map.mp hmem
    rw [← heq]
    exact h.sizes old hold
  capped := by
    change ((Dict.values positions).map SimPosition.sizeUsdt).sum ≤ _
    rw [hsame.2]
    exact h.capped

theorem ExposureInvariant.erase {equity : ℚ} (h : ExposureInvariant config equity ledger)
    (symbol : Symbol) :
    ExposureInvariant config equity { ledger with positions := ledger.positions.erase symbol } where
  sizes := fun position hposition => h.sizes position (Dict.mem_values_of_erase hposition)
  capped := (Dict.total_erase_le h.sizes symbol).trans h.capped

/-- **One call keeps the exposure capped.** -/
theorem ExposureInvariant.effect {equity : ℚ} (hinv : LedgerInvariant config equity ledger)
    (h : ExposureInvariant config equity ledger)
    (hscale : 0 ≤ config.minConfidenceSizeScale)
    (heffect : PortfolioEffect config ledger ledger') :
    ExposureInvariant config equity ledger' := by
  cases heffect with
  | rejected tripped hlatched => exact ⟨h.sizes, h.capped⟩
  | entered symbol position hlimit hcap hsize =>
    refine ⟨fun other hother => ?_, ?_⟩
    · rcases Dict.mem_values_of_insert hother with rfl | hold
      · exact hsize hscale
      · exact h.sizes other hold
    · have hequity : ledger.equityUsdt = equity := by
        rw [Ledger.equityUsdt, hinv.plain, ← hinv.equity]
        rfl
      rw [hequity, Ledger.totalExposureUsdt] at hcap
      have hrest := Dict.total_erase_le h.sizes symbol
      change Dict.total SimPosition.sizeUsdt (ledger.positions.insert symbol position) ≤ _
      rw [Dict.total_insert_erase]
      linarith
  | watched positions hsame => exact h.of_sameSizes hsame
  | closed positions hsame position exitTime exitPrice reason =>
    have herased := (h.of_sameSizes hsame).erase position.symbol
    exact ⟨herased.sizes, herased.capped⟩

theorem PortfolioEffect.tripped (heffect : PortfolioEffect config ledger ledger')
    (h : ledger.killswitchTripped = true) : ledger'.killswitchTripped = true := by
  cases heffect with
  | rejected tripped hlatched => exact hlatched h
  | entered symbol position hlimit hcap hsize => exact h
  | watched positions hsame => exact h
  | closed positions hsame position exitTime exitPrice reason => exact h

theorem applyEntry_of_tripped (henforced : ledger.ignoreKillswitch = false)
    (htripped : ledger.killswitchTripped = true) {symbol : Symbol} {view : SignalView}
    {config' : RiskConfig} {now : Time} {fillPrice : ℚ} {result : RiskDecisionResult}
    {position : Option SimPosition}
    (h : ledger.applyEntry symbol view config' now fillPrice =
      some (ledger', result, position)) :
    result.approved = false ∧ position = none := by
  cases applyEntry_outcome h with
  | entered sized hsizing hadmits =>
    have hoff := hadmits.killswitchOff
    simp [EntryInput.context, ledgerInput, htripped, henforced] at hoff
  | rejected sized violation => exact ⟨rfl, rfl⟩

/-! ## Runs -/

variable {equity : ℚ} {calls : List LedgerCall}

/-- A run keeps the invariant. -/
theorem LedgerInvariant.run (h : LedgerInvariant config equity ledger)
    (hcalls : ∀ call ∈ calls, call.Within config) :
    LedgerInvariant config equity (runFrom ledgerStep ledger calls) :=
  runFrom_inv h calls fun _ call hcall hinv =>
    hinv.effect (ledgerStep_portfolio hinv.enforced (hcalls call hcall))

/-- A run keeps the exposure capped. -/
theorem ExposureInvariant.run (hinv : LedgerInvariant config equity ledger)
    (h : ExposureInvariant config equity ledger) (hscale : 0 ≤ config.minConfidenceSizeScale)
    (hcalls : ∀ call ∈ calls, call.Within config) :
    ExposureInvariant config equity (runFrom ledgerStep ledger calls) := by
  have hboth : LedgerInvariant config equity (runFrom ledgerStep ledger calls) ∧
      ExposureInvariant config equity (runFrom ledgerStep ledger calls) := by
    refine runFrom_inv (P := fun ledger => LedgerInvariant config equity ledger ∧
      ExposureInvariant config equity ledger) ⟨hinv, h⟩ calls ?_
    rintro ledger call hcall ⟨hinv, hexposure⟩
    have heffect := ledgerStep_portfolio hinv.enforced (hcalls call hcall)
    exact ⟨hinv.effect heffect, hexposure.effect hinv hscale heffect⟩
  exact hboth.2

/-- A run leaves a tripped kill switch tripped. -/
theorem tripped_run (hinv : LedgerInvariant config equity ledger)
    (h : ledger.killswitchTripped = true) (hcalls : ∀ call ∈ calls, call.Within config) :
    (runFrom ledgerStep ledger calls).killswitchTripped = true := by
  have hboth : LedgerInvariant config equity (runFrom ledgerStep ledger calls) ∧
      (runFrom ledgerStep ledger calls).killswitchTripped = true := by
    refine runFrom_inv (P := fun ledger => LedgerInvariant config equity ledger ∧
      ledger.killswitchTripped = true) ⟨hinv, h⟩ calls ?_
    rintro ledger call hcall ⟨hinv, htripped⟩
    have heffect := ledgerStep_portfolio hinv.enforced (hcalls call hcall)
    exact ⟨hinv.effect heffect, heffect.tripped htripped⟩
  exact hboth.2

/-- **The ledger keeps its portfolio** over every run: the exposure cap where the equity and
the scale's floor are not negative, the position limit, the realized PnL, the loss counter, and
the kill switch, which once tripped rejects every later entry. -/
theorem ledger_keeps_portfolio (start : Ledger) (config : RiskConfig) (calls : List LedgerCall)
    (hfresh : FreshLedger start) (hcap : 0 ≤ config.maxTotalExposurePct)
    (hlimit : 0 ≤ config.maxOpenPositions) (hcalls : ∀ call ∈ calls, call.Within config) :
    let ledger := runFrom ledgerStep start calls
    (0 ≤ start.startingEquityUsdt → 0 ≤ config.minConfidenceSizeScale →
      ledger.totalExposureUsdt ≤ config.maxTotalExposurePct * start.startingEquityUsdt) ∧
    ((Dict.keySet ledger.positions).card : ℤ) ≤ config.maxOpenPositions ∧
    ledger.realizedPnlUsdt = (ledger.closedTrades.map ClosedTrade.pnlUsdt).sum ∧
    ledger.consecutiveLosses = (losingSuffix ledger).length ∧
    (ledger.killswitchTripped = true →
      ∀ later : List LedgerCall, (∀ call ∈ later, call.Within config) →
        (runFrom ledgerStep ledger later).killswitchTripped = true ∧
        ∀ symbol view now fillPrice ledger' result position,
          (runFrom ledgerStep ledger later).applyEntry symbol view config now fillPrice =
            some (ledger', result, position) →
          result.approved = false ∧ position = none) := by
  intro ledger
  have hstart := ledgerInvariant_fresh hfresh hlimit
  have hinv : LedgerInvariant config start.startingEquityUsdt ledger := hstart.run hcalls
  refine ⟨fun hequity hscale => ?_, hinv.belowLimit, hinv.realized, hinv.losses, ?_⟩
  · have hzero : start.totalExposureUsdt = 0 := by
      rw [Ledger.totalExposureUsdt, hfresh.positions, Dict.total_empty]
    have hfirst : ExposureInvariant config start.startingEquityUsdt start := by
      refine ⟨fun position hposition => ?_, ?_⟩
      · rw [hfresh.positions] at hposition
        exact absurd hposition List.not_mem_nil
      · rw [hzero]
        exact mul_nonneg hcap hequity
    exact (hfirst.run hstart hscale hcalls).capped
  · intro htripped later hlater
    have hlatched := tripped_run hinv htripped hlater
    refine ⟨hlatched, ?_⟩
    intro symbol view now fillPrice ledger' result position hentry
    exact applyEntry_of_tripped (hinv.run hlater).enforced hlatched hentry

/-- An entry signal of a pair. -/
def entryView (symbol : Symbol) (confidence : ℚ) : SignalView :=
  { id := 1, symbol, action := .BUY, confidence, candleTs := 0, price := 100, atr14 := 2 }

/-- The call that enters a pair at 100. -/
def entryCall (config : RiskConfig) (symbol : Symbol) (confidence : ℚ) : LedgerCall :=
  .applyEntry symbol (entryView symbol confidence) config 0 100

/-- The call that exits a pair at 100. -/
def exitCall (config : RiskConfig) (symbol : Symbol) : LedgerCall :=
  .applyExitSignal symbol (entryView symbol 1) config 0 100

theorem entryCall_within (config : RiskConfig) (symbol : Symbol) (confidence : ℚ) :
    (entryCall config symbol confidence).Within config :=
  ⟨rfl, by norm_num [entryView], by norm_num⟩

theorem exitCall_within (config : RiskConfig) (symbol : Symbol) :
    (exitCall config symbol).Within config :=
  ⟨rfl, by norm_num [entryView], by norm_num⟩

theorem freshLedger_freeLedger : FreshLedger freeLedger :=
  ⟨rfl, rfl, rfl, rfl, rfl, rfl, rfl⟩

/-- One entry under the shipped limits. -/
theorem ledger_keeps_portfolio_entry :
    let ledger := runFrom ledgerStep freeLedger [entryCall {} "BTC/USDT" 1]
    (0 ≤ freeLedger.startingEquityUsdt → 0 ≤ ({} : RiskConfig).minConfidenceSizeScale →
      ledger.totalExposureUsdt ≤
        ({} : RiskConfig).maxTotalExposurePct * freeLedger.startingEquityUsdt) ∧
    ((Dict.keySet ledger.positions).card : ℤ) ≤ ({} : RiskConfig).maxOpenPositions ∧
    ledger.realizedPnlUsdt = (ledger.closedTrades.map ClosedTrade.pnlUsdt).sum ∧
    ledger.consecutiveLosses = (losingSuffix ledger).length ∧
    (ledger.killswitchTripped = true →
      ∀ later : List LedgerCall, (∀ call ∈ later, call.Within {}) →
        (runFrom ledgerStep ledger later).killswitchTripped = true ∧
        ∀ symbol view now fillPrice ledger' result position,
          (runFrom ledgerStep ledger later).applyEntry symbol view {} now fillPrice =
            some (ledger', result, position) →
          result.approved = false ∧ position = none) := by
  refine ledger_keeps_portfolio freeLedger {} [entryCall {} "BTC/USDT" 1] freshLedger_freeLedger
    (by norm_num) (by norm_num) fun call hcall => ?_
  cases List.mem_singleton.mp hcall
  exact entryCall_within {} "BTC/USDT" 1

/-- A ledger that starts in debt. -/
def debtLedger : Ledger := { freeLedger with startingEquityUsdt := -1 }

/-- Limits under which an entry of little confidence has a negative size. -/
def negativeScale : RiskConfig :=
  { riskPerTradePct := 1, maxPositionPct := 1, minConfidenceSizeScale := -1 }

/-- A short entry, a long one, and the exit of the short one. -/
def offsetCalls : List LedgerCall :=
  [entryCall negativeScale "ETH/USDT" (7 / 10), entryCall negativeScale "BTC/USDT" 1,
    exitCall negativeScale "ETH/USDT"]

/-- **The exposure cap fails** for a ledger that starts in debt before any call, and with a
negative floor of the scale once the position that offset another is closed. -/
theorem exposure_exceeds_cap :
    (FreshLedger debtLedger ∧
      ¬debtLedger.totalExposureUsdt ≤
        ({} : RiskConfig).maxTotalExposurePct * debtLedger.startingEquityUsdt) ∧
    (∀ call ∈ offsetCalls, call.Within negativeScale) ∧
      ¬(runFrom ledgerStep freeLedger offsetCalls).totalExposureUsdt ≤
        negativeScale.maxTotalExposurePct * freeLedger.startingEquityUsdt := by
  refine ⟨⟨⟨rfl, rfl, rfl, rfl, rfl, rfl, rfl⟩, by decide +kernel⟩, ?_, by decide +kernel⟩
  intro call hcall
  simp only [offsetCalls, List.mem_cons, List.not_mem_nil, or_false] at hcall
  rcases hcall with rfl | rfl | rfl
  · exact entryCall_within _ _ _
  · exact entryCall_within _ _ _
  · exact exitCall_within _ _

end TradeMind.Analysis
