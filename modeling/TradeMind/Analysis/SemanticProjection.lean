import TradeMind.Analysis.AnalysisDecision

/-!
# Semantic validation as a projection

Every exit of `validate_signal_semantics` (`ValidationExit`) returns an answer that comes back
unchanged when it is validated again: a `SELL` is rewritten to itself, and a suppressed answer
is a `HOLD`, which passes.  The exits also say what the validation may do to the action and to
the confidence (`semantic_projection`).
-/

set_option autoImplicit false

namespace TradeMind.Analysis

open TradeMind.Model TradeMind.Model.Llm

variable {context : MarketContext} {output : LLMOutput} {thresholds : Thresholds}

/-- The confirmations the exit rubric counts. -/
def countedConfirmations (context : MarketContext) : List ExitConfirmation :=
  if context.position.hasOpenPosition then context.exitConfirmations else []

/-- A `SELL` stands: a position is open, the bar is met, and the PnL is beyond the cushion. -/
def ExitStands (context : MarketContext) (thresholds : Thresholds) : Prop :=
  context.position.hasOpenPosition = true ∧
    exitIsSufficient (countedConfirmations context) = true ∧
    (isProfitable context.position.unrealizedPnlPct thresholds = true ∨
      isLosing context.position.unrealizedPnlPct thresholds = true)

/-- A `BUY` stands: the account is flat, the bar is met, and the trend is not extended. -/
def EntryStands (context : MarketContext) : Prop :=
  context.position.hasOpenPosition = false ∧
    entryIsSufficient context.entryConfirmations = true ∧
    (selectStrategy context).strategy ≠ .TREND_FOLLOWING

/-! ## The exits one by one -/

theorem validate_of_hardCut (hcut : hardLossCut context.position thresholds = true) :
    validateSignalSemantics context output thresholds =
      { output := hardLossCutOutput (context.position.unrealizedPnlPct.getD 0)
          (countedConfirmations context) thresholds
        actionChanged := output.action ≠ .SELL
        exitConfirmations := countedConfirmations context } := by
  unfold validateSignalSemantics
  dsimp only
  rw [if_pos hcut]
  rfl

/-- A confirmed `SELL`. -/
theorem validate_of_exitStands (hcut : hardLossCut context.position thresholds = false)
    (haction : output.action = .SELL) (hstands : ExitStands context thresholds) :
    validateSignalSemantics context output thresholds =
      { output := confirmedExitOutput (context.position.unrealizedPnlPct.getD 0)
          (isProfitable context.position.unrealizedPnlPct thresholds)
          (countedConfirmations context)
        actionChanged := false
        exitConfirmations := countedConfirmations context } := by
  obtain ⟨hopen, hbar, hpnl⟩ := hstands
  unfold countedConfirmations at hbar ⊢
  simp only [hopen, if_true] at hbar
  simp [validateSignalSemantics, hcut, haction, hopen, hbar, hpnl]

/-- A `HOLD` passes. -/
theorem validate_of_hold (hcut : hardLossCut context.position thresholds = false)
    (haction : output.action = .HOLD) :
    validateSignalSemantics context output thresholds =
      { output, actionChanged := false, exitConfirmations := countedConfirmations context } := by
  simp [validateSignalSemantics, hcut, haction, countedConfirmations]

/-- A `BUY` that stands passes. -/
theorem validate_of_entryStands (hcut : hardLossCut context.position thresholds = false)
    (haction : output.action = .BUY) (hstands : EntryStands context) :
    validateSignalSemantics context output thresholds =
      { output, actionChanged := false, exitConfirmations := countedConfirmations context } := by
  obtain ⟨hflat, hbar, hregime⟩ := hstands
  simp [validateSignalSemantics, hcut, haction, hflat, hbar, hregime, countedConfirmations]

/-- A suppressed `BUY` is a suppressed answer. -/
theorem suppressedEntry_eq (context : MarketContext) (output : LLMOutput) :
    ∃ reason indicators invalidation,
      suppressedEntry context output = suppressed output reason indicators invalidation := by
  unfold suppressedEntry
  split
  · exact ⟨_, _, _, rfl⟩
  · exact ⟨_, _, _, rfl⟩

theorem validate_of_suppressed (hcut : hardLossCut context.position thresholds = false)
    (hhold : output.action ≠ .HOLD)
    (hsell : output.action = .SELL → ¬ExitStands context thresholds)
    (hbuy : output.action = .BUY → ¬EntryStands context) :
    ∃ reason indicators invalidation,
      validateSignalSemantics context output thresholds =
        { output := suppressed output reason indicators invalidation
          actionChanged := true
          exitConfirmations := countedConfirmations context } := by
  have hexit : ¬(output.action = .SELL ∧ context.position.hasOpenPosition = true ∧
      exitIsSufficient (countedConfirmations context) = true ∧
      (isProfitable context.position.unrealizedPnlPct thresholds = true ∨
        isLosing context.position.unrealizedPnlPct thresholds = true)) :=
    fun h => hsell h.1 h.2
  unfold countedConfirmations at hexit ⊢
  unfold validateSignalSemantics
  dsimp only
  rw [if_neg (Bool.eq_false_iff.mp hcut), if_neg hexit, if_neg hhold]
  split
  · rename_i hflat
    have hbar : ¬(entryIsSufficient context.entryConfirmations = true ∧
        (selectStrategy context).strategy ≠ .TREND_FOLLOWING) := fun h =>
      hbuy hflat.1 ⟨by simpa using hflat.2, h⟩
    rw [if_neg hbar]
    obtain ⟨reason, indicators, invalidation, heq⟩ := suppressedEntry_eq context output
    exact ⟨reason, indicators, invalidation, by rw [heq]⟩
  · exact ⟨_, _, _, rfl⟩

/-! ## All exits -/

/-- What the validation returns, and whether it says it changed the action. -/
inductive ValidationExit (context : MarketContext) (thresholds : Thresholds)
    (output : LLMOutput) : LLMOutput → Bool → Prop
  | hardCut (hcut : hardLossCut context.position thresholds = true) :
    ValidationExit context thresholds output
      (hardLossCutOutput (context.position.unrealizedPnlPct.getD 0)
        (countedConfirmations context) thresholds)
      (output.action ≠ .SELL)
  | exitStands (hcut : hardLossCut context.position thresholds = false)
    (haction : output.action = .SELL) (hstands : ExitStands context thresholds) :
    ValidationExit context thresholds output
      (confirmedExitOutput (context.position.unrealizedPnlPct.getD 0)
        (isProfitable context.position.unrealizedPnlPct thresholds)
        (countedConfirmations context))
      false
  | hold (hcut : hardLossCut context.position thresholds = false)
    (haction : output.action = .HOLD) : ValidationExit context thresholds output output false
  | entryStands (hcut : hardLossCut context.position thresholds = false)
    (haction : output.action = .BUY) (hstands : EntryStands context) :
    ValidationExit context thresholds output output false
  | suppressed (hcut : hardLossCut context.position thresholds = false)
    (hhold : output.action ≠ .HOLD) (reason : String) (indicators : List String)
    (invalidation : String) :
    ValidationExit context thresholds output
      (suppressed output reason indicators invalidation) true

/-- **The validation leaves by one of the exits.** -/
theorem validationExit (context : MarketContext) (output : LLMOutput) (thresholds : Thresholds) :
    ValidationExit context thresholds output
      (validateSignalSemantics context output thresholds).output
      (validateSignalSemantics context output thresholds).actionChanged := by
  cases hcut : hardLossCut context.position thresholds with
  | true =>
    rw [validate_of_hardCut hcut]
    exact .hardCut hcut
  | false =>
    by_cases hhold : output.action = .HOLD
    · rw [validate_of_hold hcut hhold]
      exact .hold hcut hhold
    · by_cases hsell : output.action = .SELL ∧ ExitStands context thresholds
      · rw [validate_of_exitStands hcut hsell.1 hsell.2]
        exact .exitStands hcut hsell.1 hsell.2
      · by_cases hbuy : output.action = .BUY ∧ EntryStands context
        · rw [validate_of_entryStands hcut hbuy.1 hbuy.2]
          exact .entryStands hcut hbuy.1 hbuy.2
        · obtain ⟨reason, indicators, invalidation, heq⟩ :=
            validate_of_suppressed hcut hhold (not_and.mp hsell) (not_and.mp hbuy)
          rw [heq]
          exact .suppressed hcut hhold reason indicators invalidation

/-! ## What every exit keeps -/

variable {returned : LLMOutput} {changed : Bool}

/-- What an exit returned passes unchanged. -/
theorem ValidationExit.idempotent (h : ValidationExit context thresholds output returned changed) :
    (validateSignalSemantics context returned thresholds).output = returned ∧
      (validateSignalSemantics context returned thresholds).actionChanged = false := by
  cases h with
  | hardCut hcut =>
    rw [validate_of_hardCut hcut]
    exact ⟨rfl, by simp⟩
  | exitStands hcut haction hstands =>
    rw [validate_of_exitStands hcut rfl hstands]
    exact ⟨rfl, rfl⟩
  | hold hcut haction =>
    rw [validate_of_hold hcut haction]
    exact ⟨rfl, rfl⟩
  | entryStands hcut haction hstands =>
    rw [validate_of_entryStands hcut haction hstands]
    exact ⟨rfl, rfl⟩
  | suppressed hcut hhold reason indicators invalidation =>
    rw [validate_of_hold hcut rfl]
    exact ⟨rfl, rfl⟩

/-- An exit says it changed the action exactly where it did. -/
theorem ValidationExit.changed_iff
    (h : ValidationExit context thresholds output returned changed) :
    changed = true ↔ returned.action ≠ output.action := by
  cases h with
  | hardCut hcut =>
    rw [decide_eq_true_eq, hardLossCutOutput_action]
    exact ne_comm
  | exitStands hcut haction hstands => simp [haction]
  | hold hcut haction => simp
  | entryStands hcut haction hstands => simp
  | suppressed hcut hhold reason indicators invalidation =>
    simpa using Ne.symm hhold

/-- A `HOLD` becomes a `SELL` by the emergency cut only. -/
theorem ValidationExit.hardCut_of_hold
    (h : ValidationExit context thresholds output returned changed)
    (hhold : output.action = .HOLD) (hsell : returned.action = .SELL) :
    hardLossCut context.position thresholds = true := by
  cases h with
  | hardCut hcut => exact hcut
  | exitStands hcut haction hstands => cases hhold.symm.trans haction
  | hold hcut haction => cases haction.symm.trans hsell
  | entryStands hcut haction hstands => cases hhold.symm.trans haction
  | suppressed hcut haction reason indicators invalidation => exact absurd hhold haction

/-- The confidence of a confirmed exit grows from its floor with the confirmations. -/
theorem confirmedExit_confidence {confirmations : List ExitConfirmation} (pnl : ℚ)
    (profitable : Bool) (h : exitIsSufficient confirmations = true) :
    65 / 100 ≤ (confirmedExitOutput pnl profitable confirmations).confidence ∧
      (confirmedExitOutput pnl profitable confirmations).confidence ≤ 80 / 100 := by
  have htwo : (2 : ℚ) ≤ confirmations.length := by
    exact_mod_cast ((exitIsSufficient_iff confirmations).mp h).1
  refine ⟨le_min (by norm_num) ?_, min_le_left _ _⟩
  linarith

/-- The confidence of a returned `SELL`. -/
theorem ValidationExit.sell_confidence
    (h : ValidationExit context thresholds output returned changed)
    (hsell : returned.action = .SELL) :
    65 / 100 ≤ returned.confidence ∧ returned.confidence ≤ 80 / 100 := by
  cases h with
  | hardCut hcut => norm_num [hardLossCutOutput]
  | exitStands hcut haction hstands => exact confirmedExit_confidence _ _ hstands.2.1
  | hold hcut haction => cases haction.symm.trans hsell
  | entryStands hcut haction hstands => cases haction.symm.trans hsell
  | suppressed hcut haction reason indicators invalidation => cases hsell

theorem ValidationExit.suppressed_confidence
    (h : ValidationExit context thresholds output returned changed)
    (haction : output.action ≠ .HOLD) (hhold : returned.action = .HOLD) :
    returned.confidence ≤ 64 / 100 := by
  cases h with
  | hardCut hcut => cases hhold
  | exitStands hcut haction hstands => cases hhold
  | hold hcut hsame => exact absurd hsame haction
  | entryStands hcut hsame hstands => exact absurd hhold haction
  | suppressed hcut haction reason indicators invalidation => exact min_le_right _ _

/-- **Semantic validation is an idempotent projection** that reports its changes; the action it
returns depends on the answer through its action only, a `HOLD` becomes a `SELL` only past the
emergency cut, and a returned `SELL` and a suppressed answer have their confidence bounded. -/
theorem semantic_projection (context : MarketContext) (output : LLMOutput)
    (thresholds : Thresholds) :
    let result := validateSignalSemantics context output thresholds
    ((validateSignalSemantics context result.output thresholds).output = result.output ∧
      (validateSignalSemantics context result.output thresholds).actionChanged = false) ∧
    (result.actionChanged = true ↔ result.output.action ≠ output.action) ∧
    (∀ other : LLMOutput, other.action = output.action →
      (validateSignalSemantics context other thresholds).output.action =
        result.output.action) ∧
    (output.action = .HOLD → result.output.action = .SELL →
      context.position.hasOpenPosition = true ∧
        ∃ pnl, context.position.unrealizedPnlPct = some pnl ∧
          pnl ≤ -thresholds.hardLossCutPct) ∧
    (result.output.action = .SELL →
      65 / 100 ≤ result.output.confidence ∧ result.output.confidence ≤ 80 / 100) ∧
    (output.action ≠ .HOLD → result.output.action = .HOLD →
      result.output.confidence ≤ 64 / 100) := by
  intro result
  have hexit : ValidationExit context thresholds output result.output result.actionChanged :=
    validationExit context output thresholds
  refine ⟨hexit.idempotent, hexit.changed_iff, ?_, ?_, hexit.sell_confidence,
    hexit.suppressed_confidence⟩
  · intro other haction
    rw [semantic_action, semantic_action, haction]
  · intro hhold hsell
    obtain ⟨pnl, ⟨hopen, hpnl⟩, hpast⟩ :=
      (hardLossCut_iff context thresholds).mp (hexit.hardCut_of_hold hhold hsell)
    exact ⟨hopen, pnl, hpnl, hpast⟩

end TradeMind.Analysis
