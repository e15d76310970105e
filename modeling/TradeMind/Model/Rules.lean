import Mathlib.Data.Finset.Card
import TradeMind.Model.Sizing

/-!
# The risk rules and the two evaluators

`risk_engine/schemas.py`, the twelve modules of `risk_engine/rules` in the order of
`RULES_IN_ORDER`, `evaluator.evaluate` for entries and `exit_evaluator.evaluate_exit` for
exits.  Every rule is a pure function of the `RuleContext`; the first violation decides.
-/

set_option autoImplicit false

namespace TradeMind.Model

structure SignalView where
  id : Uuid
  symbol : Symbol
  action : Action
  confidence : ℚ
  candleTs : Time
  price : ℚ
  atr14 : ℚ
  setupRegime : Option String := none
  tradeScore : Option ℤ := none
  deriving DecidableEq, Repr

structure AccountState where
  equityUsdt : ℚ
  freeBalanceUsdt : ℚ
  openPositionSymbols : Finset Symbol
  totalExposureUsdt : ℚ
  dailyPnlPct : ℚ
  consecutiveLosses : ℤ
  lastLossClosedAt : Option Time
  symbolLastClosedAt : Symbol → Option Time

structure ExpectancyView where
  setupKey : String
  sampleSize : ℤ
  expectancyR : Option ℚ
  deriving DecidableEq, Repr

structure RuleContext where
  signal : SignalView
  account : AccountState
  config : RiskConfig
  now : Time
  killswitchEnabled : Bool
  isDuplicateDecision : Bool
  candidate : SizingResult
  expectancy : ExpectancyView

structure RuleViolation where
  reason : RejectionReason
  autoTripKillswitch : Bool := false
  deriving DecidableEq, Repr

/-- How a rule that does not pass ends: it returns a violation, or it raises `OverflowError`
because a number of minutes of the config is out of the range of `timedelta`. -/
inductive RuleStop
  | violation (violation : RuleViolation)
  | overflow
  deriving DecidableEq, Repr

/-- The `check` of a rule; `none` where the rule passes. -/
abbrev RuleFunc := RuleContext → Option RuleStop

/-- The verdict of the expectancy filter, enforced or not. -/
inductive ExpectancyVerdict
  | ALLOW | INSUFFICIENT_DATA | NEGATIVE_EXPECTANCY
  deriving DecidableEq, Repr

def ExpectancyVerdict.value : ExpectancyVerdict → String
  | .ALLOW => "ALLOW"
  | .INSUFFICIENT_DATA => "INSUFFICIENT_DATA"
  | .NEGATIVE_EXPECTANCY => "NEGATIVE_EXPECTANCY"

structure ExpectancyCheck where
  setupKey : String
  sampleSize : ℤ
  historicalExpectancyR : Option ℚ
  decision : ExpectancyVerdict
  enforced : Bool
  deriving DecidableEq, Repr

/-- `ExpectancyCheck.as_payload`. -/
def ExpectancyCheck.asPayload (c : ExpectancyCheck) : List (String × PayloadAtom) :=
  [("setup_key", .text c.setupKey),
    ("sample_size", .number c.sampleSize),
    ("historical_expectancy_r", .ofNumber c.historicalExpectancyR),
    ("decision", .text c.decision.value),
    ("enforced", .bool c.enforced)]

namespace Rules

/-- Rule 1, `kill_switch.check`. -/
def killSwitch : RuleFunc := fun ctx =>
  if ctx.killswitchEnabled then some (.violation { reason := .KILLSWITCH_ACTIVE }) else none

/-- Rule 2, `duplicate_signal.check`. -/
def duplicateSignal : RuleFunc := fun ctx =>
  if ctx.isDuplicateDecision then some (.violation { reason := .DUPLICATE_SIGNAL }) else none

/-- Rule 3, `signal_action.check`. -/
def signalAction : RuleFunc := fun ctx =>
  if ctx.signal.action = .HOLD then some (.violation { reason := .SIGNAL_WAS_HOLD }) else none

/-- Rule 4, `signal_staleness.check`. -/
def signalStaleness : RuleFunc := fun ctx =>
  match timedeltaMinutes ctx.config.signalMaxAgeMinutes with
  | none => some .overflow
  | some maxAge =>
    if ctx.now - ctx.signal.candleTs > maxAge then some (.violation { reason := .STALE_SIGNAL })
    else none

/-- Rule 5, `min_confidence.check`. -/
def minConfidence : RuleFunc := fun ctx =>
  if ctx.signal.confidence < ctx.config.minConfidence then
    some (.violation { reason := .LOW_CONFIDENCE })
  else none

/-- `expectancy_filter._decision`. -/
def expectancyDecision (ctx : RuleContext) : ExpectancyVerdict :=
  match ctx.expectancy.expectancyR with
  | none => .INSUFFICIENT_DATA
  | some expectancyR =>
    if ctx.expectancy.sampleSize < ctx.config.expectancyMinSampleSize then .INSUFFICIENT_DATA
    else if expectancyR < ctx.config.expectancyMinR then .NEGATIVE_EXPECTANCY
    else .ALLOW

/-- `build_expectancy_check`: the shadow verdict. -/
def buildExpectancyCheck (ctx : RuleContext) : ExpectancyCheck :=
  { setupKey := ctx.expectancy.setupKey
    sampleSize := ctx.expectancy.sampleSize
    historicalExpectancyR := ctx.expectancy.expectancyR
    decision := expectancyDecision ctx
    enforced := ctx.config.expectancyFilterEnabled }

/-- Rule 6, `expectancy_filter.check`. -/
def expectancyFilter : RuleFunc := fun ctx =>
  if !ctx.config.expectancyFilterEnabled then none
  else if expectancyDecision ctx = .NEGATIVE_EXPECTANCY then
    some (.violation { reason := .NEGATIVE_EXPECTANCY_SETUP })
  else none

/-- Rule 7, `max_open_positions.check`. -/
def maxOpenPositions : RuleFunc := fun ctx =>
  let alreadyOpen := ctx.signal.symbol ∈ ctx.account.openPositionSymbols
  let atLimit := (ctx.account.openPositionSymbols.card : ℤ) ≥ ctx.config.maxOpenPositions
  if alreadyOpen ∨ atLimit then some (.violation { reason := .MAX_POSITIONS_REACHED }) else none

/-- Rule 8, `max_total_exposure.check`. -/
def maxTotalExposure : RuleFunc := fun ctx =>
  let prospectiveTotal := ctx.account.totalExposureUsdt + ctx.candidate.positionSizeUsdt
  let cap := ctx.config.maxTotalExposurePct * ctx.account.equityUsdt
  if prospectiveTotal > cap then some (.violation { reason := .MAX_EXPOSURE_REACHED }) else none

/-- Rule 9, `max_daily_loss.check`. -/
def maxDailyLoss : RuleFunc := fun ctx =>
  if ctx.account.dailyPnlPct ≤ -ctx.config.maxDailyLossPct then
    some (.violation { reason := .DAILY_LOSS_LIMIT_HIT, autoTripKillswitch := true })
  else none

/-- Rule 10, `consecutive_losses.check`. -/
def consecutiveLosses : RuleFunc := fun ctx =>
  if ctx.account.consecutiveLosses < ctx.config.consecutiveLossLimit then none
  else some (.violation { reason := .CONSECUTIVE_LOSS_PAUSE, autoTripKillswitch := true })

/-- Rule 11, `cooldown.check`. -/
def cooldown : RuleFunc := fun ctx =>
  match ctx.account.symbolLastClosedAt ctx.signal.symbol with
  | none => none
  | some lastClosed =>
    match timedeltaMinutes ctx.config.cooldownMinutes with
    | none => some .overflow
    | some cooldownTime =>
      if ctx.now - lastClosed < cooldownTime then some (.violation { reason := .COOLDOWN_ACTIVE })
      else none

/-- Rule 12, `insufficient_balance.check`. -/
def insufficientBalance : RuleFunc := fun ctx =>
  if ctx.candidate.positionSizeUsdt > ctx.account.freeBalanceUsdt then
    some (.violation { reason := .INSUFFICIENT_BALANCE })
  else none

/-- `RULES_IN_ORDER`. -/
def rulesInOrder : List RuleFunc :=
  [killSwitch, duplicateSignal, signalAction, signalStaleness, minConfidence,
    expectancyFilter, maxOpenPositions, maxTotalExposure, maxDailyLoss, consecutiveLosses,
    cooldown, insufficientBalance]

/-- Only rule 2 gives the reason `DUPLICATE_SIGNAL`. -/
theorem duplicate_of_violation {ctx : RuleContext} {rule : RuleFunc}
    {violation : RuleViolation} (hrule : rule ∈ rulesInOrder)
    (h : rule ctx = some (.violation violation))
    (hreason : violation.reason = .DUPLICATE_SIGNAL) : ctx.isDuplicateDecision = true := by
  simp only [rulesInOrder, List.mem_cons, List.not_mem_nil, or_false] at hrule
  rcases hrule with rfl | rfl | rfl | rfl | rfl | rfl | rfl | rfl | rfl | rfl | rfl | rfl
  case inr.inl =>
    by_contra hfresh
    simp [duplicateSignal, hfresh] at h
  case inr.inr.inr.inl =>
    unfold signalStaleness at h
    split at h
    · cases h
    · split at h
      · cases h
        cases hreason
      · cases h
  case inr.inr.inr.inr.inr.inr.inr.inr.inr.inr.inl =>
    unfold cooldown at h
    split at h
    · cases h
    · split at h
      · cases h
      · split at h
        · cases h
          cases hreason
        · cases h
  case inr.inr.inr.inr.inr.inl =>
    unfold expectancyFilter at h
    split at h
    · cases h
    · split at h
      · cases h
        cases hreason
      · cases h
  all_goals
    simp only [killSwitch, signalAction, minConfidence, maxOpenPositions, maxTotalExposure,
      maxDailyLoss, consecutiveLosses, insufficientBalance] at h
    split at h <;> cases h
    cases hreason

end Rules

/-! ## Entries -/

structure RiskDecisionResult where
  approved : Bool
  rejectionReason : Option RejectionReason
  equitySnapshotUsdt : ℚ
  positionSizeUsdt : Option ℚ := none
  positionSizeBase : Option ℚ := none
  stopLossPrice : Option ℚ := none
  stopDistancePct : Option ℚ := none
  riskPctApplied : Option ℚ := none
  nominalRiskAmountUsdt : Option ℚ := none
  actualRiskUsdt : Option ℚ := none
  autoTripKillswitch : Bool := false
  expectancyCheck : Option ExpectancyCheck := none
  deriving DecidableEq, Repr

/-- `evaluator.evaluate`; `none` where the sizing arithmetic or a rule raises. -/
def evaluate (signal : SignalView) (account : AccountState) (config : RiskConfig)
    (now : Time) (killswitchEnabled isDuplicateDecision : Bool)
    (expectancy : ExpectancyView) : Option RiskDecisionResult :=
  match computeSizing account.equityUsdt account.freeBalanceUsdt signal.price signal.atr14
      signal.confidence config with
  | none => none
  | some candidate =>
    let ctx : RuleContext :=
      { signal, account, config, now, killswitchEnabled, isDuplicateDecision, candidate,
        expectancy }
    let expectancyCheck := Rules.buildExpectancyCheck ctx
    match (Rules.rulesInOrder.findSome? fun rule => rule ctx : Option RuleStop) with
    | some .overflow => none
    | some (.violation violation) =>
      some
        { approved := false
          rejectionReason := some violation.reason
          equitySnapshotUsdt := account.equityUsdt
          autoTripKillswitch := violation.autoTripKillswitch
          expectancyCheck := some expectancyCheck }
    | none =>
      some
        { approved := true
          rejectionReason := none
          equitySnapshotUsdt := account.equityUsdt
          positionSizeUsdt := some candidate.positionSizeUsdt
          positionSizeBase := some candidate.positionSizeBase
          stopLossPrice := some candidate.stopLossPrice
          stopDistancePct := some candidate.stopDistancePct
          riskPctApplied := some candidate.riskPctApplied
          nominalRiskAmountUsdt := some candidate.nominalRiskAmountUsdt
          actualRiskUsdt := some candidate.actualRiskUsdt
          expectancyCheck := some expectancyCheck }

/-! ## Exits -/

structure ExitDecisionResult where
  approved : Bool
  rejectionReason : Option RejectionReason
  equitySnapshotUsdt : ℚ
  deriving DecidableEq, Repr

/-- `exit_evaluator.evaluate_exit`; `none` where `timedelta` raises. -/
def evaluateExit (signal : SignalView) (account : AccountState) (config : RiskConfig)
    (now : Time) (isDuplicateDecision : Bool) : Option ExitDecisionResult :=
  if isDuplicateDecision then
    some
      { approved := false
        rejectionReason := some .DUPLICATE_SIGNAL
        equitySnapshotUsdt := account.equityUsdt }
  else
    match timedeltaMinutes config.signalMaxAgeMinutes with
    | none => none
    | some maxAge =>
      if now - signal.candleTs > maxAge then
        some
          { approved := false
            rejectionReason := some .STALE_SIGNAL
            equitySnapshotUsdt := account.equityUsdt }
      else if signal.symbol ∉ account.openPositionSymbols then
        some
          { approved := false
            rejectionReason := some .NO_POSITION_TO_EXIT
            equitySnapshotUsdt := account.equityUsdt }
      else
        some
          { approved := true
            rejectionReason := none
            equitySnapshotUsdt := account.equityUsdt }

/-- **What an exit approval means**: not a duplicate, not stale, and a position is open. -/
theorem evaluateExit_approved {signal : SignalView} {account : AccountState}
    {config : RiskConfig} {now : Time} {isDuplicateDecision : Bool} {result : ExitDecisionResult}
    (h : evaluateExit signal account config now isDuplicateDecision = some result)
    (happroved : result.approved = true) :
    isDuplicateDecision = false ∧
      now - signal.candleTs ≤ minutes config.signalMaxAgeMinutes ∧
      signal.symbol ∈ account.openPositionSymbols := by
  unfold evaluateExit at h
  split at h
  · cases Option.some.inj h
    cases happroved
  · rename_i hdup
    split at h
    · cases h
    · rename_i maxAge hmaxAge
      split at h
      · cases Option.some.inj h
        cases happroved
      · rename_i hage
        split at h
        · cases Option.some.inj h
          cases happroved
        · rename_i hopen
          rw [timedeltaMinutes_eq hmaxAge] at hage
          exact ⟨by simpa using hdup, not_lt.mp hage, by simpa using hopen⟩

/-- The reason `DUPLICATE_SIGNAL` is given to duplicates only. -/
theorem evaluateExit_duplicate {signal : SignalView} {account : AccountState}
    {config : RiskConfig} {now : Time} {isDuplicateDecision : Bool} {result : ExitDecisionResult}
    (h : evaluateExit signal account config now isDuplicateDecision = some result)
    (hreason : result.rejectionReason = some .DUPLICATE_SIGNAL) : isDuplicateDecision = true := by
  unfold evaluateExit at h
  split at h
  · assumption
  · split at h
    · cases h
    · split at h
      · cases Option.some.inj h
        cases hreason
      · split at h
        · cases Option.some.inj h
          cases hreason
        · cases Option.some.inj h
          cases hreason

end TradeMind.Model
