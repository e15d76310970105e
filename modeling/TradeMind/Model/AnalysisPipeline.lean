import TradeMind.Model.TradeScore

/-!
# The analysis pipeline

`llm_service/validators/` and `services/pipeline.py`: one `/analyze` call from the request to
the trading signal.  Structural parsing (`parse_llm_response`) is a parameter: any function
from a text to an output or a failure reason.  What the provider returns is an input of the
call number and the prompt, so every behaviour over the calls of one run is covered; the
prompt texts are parameters of the `PromptBuilder`.  The `generated_at` stamp is left out.
-/

set_option autoImplicit false

namespace TradeMind.Model.Llm

open TradeMind.Model

/-! ## The model's answer and the semantic rubric -/

structure LLMOutput where
  action : Action
  confidence : ℚ
  reasoning : String
  keyIndicators : List String := []
  invalidationCondition : String
  deriving DecidableEq, Repr

/-- What `LLMOutput.model_validate` accepts. -/
def LLMOutput.Accepted (output : LLMOutput) : Prop :=
  0 ≤ output.confidence ∧ output.confidence ≤ 1 ∧
    1 ≤ output.reasoning.length ∧ output.reasoning.length ≤ 500 ∧
    1 ≤ output.invalidationCondition.length

instance (output : LLMOutput) : Decidable output.Accepted :=
  inferInstanceAs (Decidable (_ ∧ _))

/-- The bands of the exit rubric, as settings hold them. -/
structure Thresholds where
  minExitProfitPct : ℚ := 5 / 1000
  minExitLossPct : ℚ := 5 / 1000
  hardLossCutPct : ℚ := 15 / 1000
  deriving DecidableEq, Repr

structure SemanticValidationResult where
  output : LLMOutput
  actionChanged : Bool
  exitConfirmations : List ExitConfirmation
  deriving DecidableEq, Repr

/-- `_entry_is_sufficient`. -/
def entryIsSufficient (entryConfirmations : List EntryConfirmation) : Bool :=
  let categories := entryConfirmations.map (·.category)
  3 ≤ entryConfirmations.length && categories.contains .trend && categories.contains .momentum

/-- `_exit_is_sufficient`. -/
def exitIsSufficient (exitConfirmations : List ExitConfirmation) : Bool :=
  let categories := exitConfirmations.map (·.category)
  2 ≤ exitConfirmations.length && 2 ≤ categories.dedup.length

/-- `pnl is not None and pnl > min_exit_profit_pct`. -/
def isProfitable (pnl : Option ℚ) (thresholds : Thresholds) : Bool :=
  match pnl with
  | some pnl => thresholds.minExitProfitPct < pnl
  | none => false

/-- `pnl is not None and pnl < -min_exit_loss_pct`. -/
def isLosing (pnl : Option ℚ) (thresholds : Thresholds) : Bool :=
  match pnl with
  | some pnl => pnl < -thresholds.minExitLossPct
  | none => false

/-- `has_open_position and pnl is not None and pnl <= -hard_loss_cut_pct`. -/
def hardLossCut (position : PositionContext) (thresholds : Thresholds) : Bool :=
  position.hasOpenPosition && match position.unrealizedPnlPct with
    | some pnl => pnl ≤ -thresholds.hardLossCutPct
    | none => false

/-- The confirmations' names, as the reasons list them. -/
def joined (names : List String) : String := String.intercalate ", " names

/-- `', '.join(names) or 'none'`. -/
def listed (names : List String) : String :=
  if joined names = "" then "none" else joined names

/-- The `SELL` of the emergency loss cut. -/
def hardLossCutOutput (pnl : ℚ) (confirmations : List ExitConfirmation)
    (thresholds : Thresholds) : LLMOutput :=
  let cut := "-" ++ percent2 thresholds.hardLossCutPct
  { action := .SELL
    confidence := 80 / 100
    reasoning := "Hard loss-cut: unrealized pnl (" ++ percent2 pnl ++ ") breached the " ++ cut
      ++ " emergency threshold — exiting regardless of confirmation count rather than waiting "
      ++ "for two cross-category bearish confirmations that a grinding, non-trending decline "
      ++ "may never produce."
    keyIndicators := confirmations.map (·.value)
    invalidationCondition := "Unrealized pnl no longer breaches " ++ cut
      ++ ", or the position is closed." }

/-- The `SELL` the exit rubric confirms, while the position is profitable or losing. -/
def confirmedExitOutput (pnl : ℚ) (profitable : Bool) (confirmations : List ExitConfirmation) :
    LLMOutput :=
  let names := confirmations.map (·.value)
  let count := toString confirmations.length
  { action := .SELL
    confidence := min (80 / 100) (65 / 100 + 5 / 100 * ((confirmations.length : ℚ) - 2))
    reasoning :=
      if profitable then
        "Deterministic exit rubric found " ++ count ++ " independent bearish confirmations while "
          ++ "the position was profitable (" ++ percent2 pnl ++ "): " ++ joined names ++ "."
      else
        "Deterministic loss-cut rubric found " ++ count ++ " independent bearish confirmations "
          ++ "while the position was losing (" ++ percent2 pnl ++ "): " ++ joined names
          ++ ". Cutting now rather than riding down to the wider ATR/static stop-loss."
    keyIndicators := names
    invalidationCondition :=
      if profitable then
        "Fewer than two bearish confirmations spanning two different categories (trend, "
          ++ "momentum, price action) on a closed candle, or the position is no longer profitable."
      else
        "Fewer than two bearish confirmations spanning two different categories (trend, "
          ++ "momentum, price action) on a closed candle, or the loss no longer clears the "
          ++ "loss-cut threshold." }

/-- The answer turned into `HOLD`. -/
def suppressed (output : LLMOutput) (reason : String) (indicators : List String)
    (invalidation : String) : LLMOutput :=
  { action := .HOLD
    confidence := min output.confidence (64 / 100)
    reasoning := reason
    keyIndicators := indicators
    invalidationCondition := invalidation }

/-- What must hold for a `BUY`. -/
def entryInvalidation : String :=
  "At least three numeric entry confirmations including both trend and momentum while no "
    ++ "position is open"

/-- What must hold for a `SELL`. -/
def exitInvalidation : String :=
  "At least two bearish confirmations spanning two different categories (trend, momentum, price "
    ++ "action) while the position is open and either profitable beyond the margin or losing "
    ++ "beyond the loss-cut threshold."

/-- Why a `BUY` is suppressed in a flat account. -/
def suppressedEntry (context : MarketContext) (output : LLMOutput) : LLMOutput :=
  let names := context.entryConfirmations.map (·.value)
  if entryIsSufficient context.entryConfirmations then
    suppressed output
      ("BUY suppressed because the Strategy Selector classified this entry as trend_following — "
        ++ "the EMA50/EMA200 gap is already past its trend threshold with price aligned, so the "
        ++ "trend is already extended rather than fresh. Backtest evidence: "
        ++ "scripts/backtest/mechanical_replay.py's walk-forward check found this regime the "
        ++ "worst performer of the four and cut realized loss/drawdown ~35-40% out-of-sample "
        ++ "when suppressed.")
      names
      (entryInvalidation
        ++ ", and the Strategy Selector no longer classifies the setup as trend_following.")
  else
    suppressed output
      ("BUY suppressed because deterministic indicator validation found "
        ++ toString names.length ++ " confirmation(s) ("
        ++ listed names
        ++ "); entry requires at least three numeric confirmations including both trend and "
        ++ "momentum.")
      names (entryInvalidation ++ ".")

/-- Why any other trade answer is suppressed. -/
def suppressionReason (context : MarketContext) (confirmations : List ExitConfirmation)
    (thresholds : Thresholds) : String :=
  let position := context.position
  if !position.hasOpenPosition then "SELL suppressed because there is no open position."
  else
    match position.unrealizedPnlPct with
    | none =>
      "Trade action suppressed because the position's unrealized PnL is unknown — the "
        ++ "deterministic exit rubric needs a known PnL to decide between profit-taking and "
        ++ "loss-cutting."
    | some pnl =>
      if !isProfitable (some pnl) thresholds && !isLosing (some pnl) thresholds then
        "Trade action suppressed because the position's PnL (" ++ percent2 pnl
          ++ ") sits within the cushion between the loss-cut threshold (-"
          ++ percent2 thresholds.minExitLossPct ++ ") and the minimum exit profit margin ("
          ++ percent2 thresholds.minExitProfitPct ++ ") — too small a move for the "
          ++ "deterministic rubric to act on in either direction."
      else if confirmations.length < 2 then
        "Trade action suppressed because only " ++ toString confirmations.length
          ++ " independent bearish exit confirmation(s) were present."
      else
        "Trade action suppressed because the bearish exit confirmations present ("
          ++ joined (confirmations.map (·.value)) ++ ") all fall within the same signal "
          ++ "category — at least two categories (trend, momentum, price action) must agree."

/-- `validate_signal_semantics`. -/
def validateSignalSemantics (context : MarketContext) (output : LLMOutput)
    (thresholds : Thresholds) : SemanticValidationResult :=
  let position := context.position
  let pnl := position.unrealizedPnlPct
  let confirmations := if position.hasOpenPosition then context.exitConfirmations else []
  if hardLossCut position thresholds then
    { output := hardLossCutOutput (pnl.getD 0) confirmations thresholds
      actionChanged := output.action ≠ .SELL
      exitConfirmations := confirmations }
  else if output.action = .SELL ∧ position.hasOpenPosition ∧ exitIsSufficient confirmations ∧
      (isProfitable pnl thresholds ∨ isLosing pnl thresholds) then
    { output := confirmedExitOutput (pnl.getD 0) (isProfitable pnl thresholds) confirmations
      actionChanged := output.action ≠ .SELL
      exitConfirmations := confirmations }
  else if output.action = .HOLD then
    { output, actionChanged := false, exitConfirmations := confirmations }
  else if output.action = .BUY ∧ !position.hasOpenPosition then
    if entryIsSufficient context.entryConfirmations ∧
        (selectStrategy context).strategy ≠ .TREND_FOLLOWING then
      { output, actionChanged := false, exitConfirmations := confirmations }
    else
      { output := suppressedEntry context output
        actionChanged := true
        exitConfirmations := confirmations }
  else
    { output := suppressed output (suppressionReason context confirmations thresholds)
        (confirmations.map (·.value)) exitInvalidation
      actionChanged := true
      exitConfirmations := confirmations }

/-! ## The prefilter -/

/-- `llm_can_change_outcome`. -/
def llmCanChangeOutcome (context : MarketContext) (thresholds : Thresholds) : Bool :=
  let position := context.position
  if !position.hasOpenPosition then
    entryIsSufficient context.entryConfirmations &&
      (selectStrategy context).strategy ≠ .TREND_FOLLOWING
  else
    match position.unrealizedPnlPct with
    | none => false
    | some pnl =>
      if pnl ≤ -thresholds.hardLossCutPct then true
      else
        (thresholds.minExitProfitPct < pnl || pnl < -thresholds.minExitLossPct) &&
          exitIsSufficient context.exitConfirmations

/-- `LLMCallPrefilter.should_skip_llm`, with the thresholds the prefilter holds. -/
def shouldSkipLlm (thresholds : Thresholds) (context : MarketContext) : Bool :=
  !llmCanChangeOutcome context thresholds

/-- `LLMCallPrefilter.hold_reason`. -/
def holdReason (context : MarketContext) : String :=
  let position := context.position
  if !position.hasOpenPosition then
    let names := context.entryConfirmations.map (·.value)
    let why :=
      if (selectStrategy context).strategy = .TREND_FOLLOWING then
        "the setup is trend_following, where BUY is always suppressed"
      else "entry needs at least three including both trend and momentum"
    "Pre-filter HOLD without an LLM call: no open position and "
      ++ toString names.length ++ " entry confirmation(s) (" ++ listed names ++ "); "
      ++ why ++ "."
  else
    let names := context.exitConfirmations.map (·.value)
    let pnlText := match position.unrealizedPnlPct with
      | none => "unknown"
      | some pnl => percent2 pnl
    "Pre-filter HOLD without an LLM call: open position with pnl " ++ pnlText ++ " and "
      ++ toString names.length ++ " exit confirmation(s) (" ++ listed names
      ++ "); exit needs a known pnl beyond the cushion and two confirmations from different "
      ++ "categories."

/-! ## Structural validation with repairs -/

/-- `parse_llm_response`: an output, or the reason of the `ValidationFailure`. -/
abbrev Parser := String → Except String LLMOutput

/-- `repair(bad_text, reason)` by the number of repairs before it; `none` where the repair
call produced nothing usable. -/
abbrev RepairFn := ℕ → String → String → Option String

inductive ValidationResult
  | valid (output : LLMOutput) (originalAction : Action) (actionChanged : Bool)
      (exitConfirmations : List ExitConfirmation) (repairAttempted : Bool)
      (finalRawText : String)
  | invalid (failureReason : String) (repairAttempted : Bool) (finalRawText : String)
  deriving DecidableEq, Repr

/-- `is_valid`. -/
def ValidationResult.isValid : ValidationResult → Bool
  | .valid .. => true
  | .invalid .. => false

/-- `output`, `None` where the result is not valid. -/
def ValidationResult.output : ValidationResult → Option LLMOutput
  | .valid output .. => some output
  | .invalid .. => none

/-- `failure_reason`, `None` where the result is valid. -/
def ValidationResult.failureReason : ValidationResult → Option String
  | .valid .. => none
  | .invalid failureReason .. => some failureReason

/-- How the loop of `validate` ends: the text that parsed, or the last one that did not. -/
inductive StructuralResult
  | parsed (output : LLMOutput) (repairAttempted : Bool) (finalRawText : String)
  | failed (failureReason : String) (repairAttempted : Bool) (finalRawText : String)
  deriving DecidableEq, Repr

/-- The `while True` loop, with `attempts` repairs left after `attemptsUsed`. -/
def validateLoop (parse : Parser) (repair : Option RepairFn) :
    (attempts attemptsUsed : ℕ) → (attemptText : String) → StructuralResult
  | attempts, attemptsUsed, attemptText =>
    let repairAttempted := attemptsUsed ≠ 0
    match parse attemptText with
    | .ok output => .parsed output repairAttempted attemptText
    | .error reason =>
      match attempts, repair with
      | 0, _ => .failed reason repairAttempted attemptText
      | _ + 1, none => .failed reason repairAttempted attemptText
      | attempts + 1, some repairFn =>
        match repairFn attemptsUsed attemptText reason with
        | none => .failed reason true attemptText
        | some repairedText =>
          validateLoop parse repair attempts (attemptsUsed + 1) repairedText

structure ResponseValidator where
  thresholds : Thresholds := {}
  maxRepairAttempts : ℕ := 0
  deriving DecidableEq, Repr

/-- The variables of `validate` at the head of its `while True`, and the repair calls made
so far: the bad text and the reason each was given. -/
structure RepairState where
  attemptText : String
  attemptsUsed : ℕ := 0
  repairAttempted : Bool := false
  calls : List (String × String) := []
  deriving DecidableEq, Repr

/-- One iteration of the `while True`: the variables at its head again, or how the loop ends
with the calls it made. -/
def ResponseValidator.iterate (validator : ResponseValidator) (parse : Parser)
    (repair : Option RepairFn) (state : RepairState) :
    RepairState ⊕ StructuralResult × List (String × String) :=
  match parse state.attemptText with
  | .ok output =>
    .inr (.parsed output state.repairAttempted state.attemptText, state.calls)
  | .error reason =>
    match repair with
    | none => .inr (.failed reason state.repairAttempted state.attemptText, state.calls)
    | some repairFn =>
      if validator.maxRepairAttempts ≤ state.attemptsUsed then
        .inr (.failed reason state.repairAttempted state.attemptText, state.calls)
      else
        let calls := state.calls ++ [(state.attemptText, reason)]
        match repairFn state.attemptsUsed state.attemptText reason with
        | none => .inr (.failed reason true state.attemptText, calls)
        | some repairedText =>
          .inl { attemptText := repairedText, attemptsUsed := state.attemptsUsed + 1,
                 repairAttempted := true, calls := calls }

/-- `ResponseValidator.validate`. -/
def ResponseValidator.validate (validator : ResponseValidator) (parse : Parser)
    (rawText : String) (context : MarketContext) (repair : Option RepairFn) :
    ValidationResult :=
  match validateLoop parse repair validator.maxRepairAttempts 0 rawText with
  | .failed reason repairAttempted finalRawText => .invalid reason repairAttempted finalRawText
  | .parsed output repairAttempted finalRawText =>
    let semantic := validateSignalSemantics context output validator.thresholds
    .valid semantic.output output.action semantic.actionChanged semantic.exitConfirmations
      repairAttempted finalRawText

/-! ## Prompts and the client -/

structure LLMRequest where
  systemPrompt : String
  userPrompt : String
  deriving DecidableEq, Repr

/-- Either the raw text or the failure reason, never both. -/
inductive LLMResponse
  | rawText (text : String)
  | failure (reason : String)
  deriving DecidableEq, Repr

/-- `LLMClient`: its label, and what its n-th `generate` call returns. -/
structure LLMClient where
  modelName : String
  generate : ℕ → LLMRequest → LLMResponse

structure PromptBuilder where
  systemPromptV1 : String
  buildUserPrompt : AnalyzeRequest → String
  includeStrategyContext : Bool := false

/-- `_strategy_context_block`. -/
def strategyContextBlock (strategy : SelectedStrategy) : String :=
  "Additional context (advisory only, does not override the rules above): a deterministic "
    ++ "pre-classifier flags this as a '" ++ strategy.strategy.value ++ "' regime ("
    ++ strategy.reasoning ++ ")"

/-- `PromptBuilder.build`. -/
def PromptBuilder.build (builder : PromptBuilder) (context : MarketContext)
    (strategy : SelectedStrategy) : LLMRequest :=
  { systemPrompt :=
      if builder.includeStrategyContext then
        builder.systemPromptV1 ++ "\n\n" ++ strategyContextBlock strategy
      else builder.systemPromptV1
    userPrompt := builder.buildUserPrompt context.request }

/-- `PromptBuilder.build_repair`. -/
def PromptBuilder.buildRepair (builder : PromptBuilder) (context : MarketContext)
    (strategy : SelectedStrategy) (invalidResponse reason : String) : LLMRequest :=
  let base := builder.build context strategy
  { systemPrompt := base.systemPrompt
    userPrompt := "Your previous response failed validation (" ++ reason
      ++ "). Previous response:\n" ++ invalidResponse ++ "\n\n"
      ++ "Re-emit a corrected response for the SAME request below, following the schema and "
      ++ "rules above exactly. Respond with ONLY the corrected JSON object — no markdown, no "
      ++ "commentary.\n\n" ++ base.userPrompt }

/-! ## The signal -/

/-- `raw_response`: the audit trail of one answer. -/
structure RawResponse where
  raw : String
  modelAction : Option Action := none
  semanticAction : Option Action := none
  exitConfirmations : List ExitConfirmation := []
  strategySelected : Option StrategyName := none
  strategyReasoning : Option String := none
  deriving DecidableEq, Repr

structure TradingSignal where
  symbol : Symbol
  timeframe : String
  candleTs : String
  action : Action
  confidence : ℚ
  reasoning : String
  modelName : String
  rawResponse : Option RawResponse := none
  score : TradeScoreResult
  setupRegime : StrategyName
  volatilityRegime : VolatilityRegime
  deriving DecidableEq, Repr

/-- What is computed before the call and attached to every signal. -/
structure Journal where
  strategy : SelectedStrategy
  volatilityRegime : VolatilityRegime
  score : TradeScoreResult
  deriving DecidableEq, Repr

/-- `_enrich`. -/
def enrich (rawResponse : Option RawResponse) (strategy : SelectedStrategy) :
    Option RawResponse :=
  rawResponse.map fun response =>
    { response with
      strategySelected := some strategy.strategy
      strategyReasoning := some strategy.reasoning }

/-- `SignalGenerator.build_hold`. -/
def buildHold (context : MarketContext) (reason modelName : String) (journal : Journal)
    (rawResponse : Option RawResponse) : TradingSignal :=
  { symbol := context.request.symbol
    timeframe := context.request.timeframe
    candleTs := context.request.candleCloseTime
    action := .HOLD
    confidence := 0
    reasoning := reason
    modelName
    rawResponse := enrich rawResponse journal.strategy
    score := journal.score
    setupRegime := journal.strategy.strategy
    volatilityRegime := journal.volatilityRegime }

/-- `SignalGenerator.build_signal`. -/
def buildSignal (context : MarketContext) (output : LLMOutput) (modelName : String)
    (journal : Journal) (rawResponse : Option RawResponse) : TradingSignal :=
  { symbol := context.request.symbol
    timeframe := context.request.timeframe
    candleTs := context.request.candleCloseTime
    action := output.action
    confidence := output.confidence
    reasoning := output.reasoning
    modelName
    rawResponse := enrich rawResponse journal.strategy
    score := journal.score
    setupRegime := journal.strategy.strategy
    volatilityRegime := journal.volatilityRegime }

/-! ## The pipeline -/

/-- `PREFILTER_MODEL_NAME`. -/
def prefilterModelName : String := "deterministic:prefilter"

/-- `AnalysisPipeline`, with the thresholds of its prefilter where it has one. -/
structure AnalysisPipeline where
  assumedRewardMultiple : ℚ := 2
  promptBuilder : PromptBuilder
  llmClient : LLMClient
  parse : Parser
  responseValidator : ResponseValidator := {}
  prefilter : Option Thresholds := none

/-- `_repair`: the next `generate` call, with the repair prompt. -/
def AnalysisPipeline.repair (pipeline : AnalysisPipeline) (context : MarketContext)
    (strategy : SelectedStrategy) : RepairFn := fun attemptsUsed badText reason =>
  match pipeline.llmClient.generate (attemptsUsed + 1)
      (pipeline.promptBuilder.buildRepair context strategy badText reason) with
  | .rawText text => some text
  | .failure _ => none

/-- Whether the pipeline has a prefilter and it skips the call. -/
def AnalysisPipeline.skips (pipeline : AnalysisPipeline) (context : MarketContext) : Bool :=
  match pipeline.prefilter with
  | some thresholds => shouldSkipLlm thresholds context
  | none => false

/-- `AnalysisPipeline.run`. -/
def AnalysisPipeline.run (pipeline : AnalysisPipeline) (request : AnalyzeRequest) :
    TradingSignal :=
  let modelName := pipeline.llmClient.modelName
  let context := buildContext request
  let strategy := selectStrategy context
  let volatilityRegime := classifyVolatility context
  let score := scoreTrade pipeline.assumedRewardMultiple context strategy volatilityRegime
  let journal : Journal := { strategy, volatilityRegime, score }
  if pipeline.skips context then
    buildHold context (holdReason context) prefilterModelName journal none
  else
    match pipeline.llmClient.generate 0 (pipeline.promptBuilder.build context strategy) with
    | .failure reason => buildHold context reason modelName journal none
    | .rawText rawText =>
      match pipeline.responseValidator.validate pipeline.parse rawText context
          (some (pipeline.repair context strategy)) with
      | .invalid reason _ finalRawText =>
        buildHold context reason modelName journal (some { raw := finalRawText })
      | .valid output originalAction _ exitConfirmations _ finalRawText =>
        buildSignal context output modelName journal
          (some
            { raw := finalRawText
              modelAction := some originalAction
              semanticAction := some output.action
              exitConfirmations })

/-! ## The composition root -/

/-- `LLMServiceSettings`, the fields the pipeline is built from. -/
structure LLMServiceSettings where
  thresholds : Thresholds := {}
  maxRepairAttempts : ℕ := 0
  includeStrategyContextInPrompt : Bool := true
  assumedRewardMultiple : ℚ := 2
  llmPrefilterEnabled : Bool := true
  deriving DecidableEq, Repr

/-- `_build_pipeline`: validator and prefilter hold the same thresholds. -/
def buildPipeline (llmClient : LLMClient) (parse : Parser) (systemPromptV1 : String)
    (buildUserPrompt : AnalyzeRequest → String) (settings : LLMServiceSettings) :
    AnalysisPipeline :=
  { assumedRewardMultiple := settings.assumedRewardMultiple
    promptBuilder :=
      { systemPromptV1
        buildUserPrompt
        includeStrategyContext := settings.includeStrategyContextInPrompt }
    llmClient
    parse
    responseValidator :=
      { thresholds := settings.thresholds, maxRepairAttempts := settings.maxRepairAttempts }
    prefilter := if settings.llmPrefilterEnabled then some settings.thresholds else none }

end TradeMind.Model.Llm
