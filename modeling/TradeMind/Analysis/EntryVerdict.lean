import TradeMind.Model.Rules

/-!
# The verdict on an entry

The evaluation of an entry is its sizing followed by a verdict of the twelve rules
(`evaluate_eq`), which is none where a rule raises.  No rule stops exactly a context that
`Admits` the entry, and an approval is the report of a sizing the context admits
(`evaluate_admitted`).
-/

set_option autoImplicit false

namespace TradeMind.Analysis

open TradeMind.Model

/-! ## The verdict -/

/-- The result of a violation. -/
def rejectedBy (ctx : RuleContext) (violation : RuleViolation) : RiskDecisionResult :=
  { approved := false
    rejectionReason := some violation.reason
    equitySnapshotUsdt := ctx.account.equityUsdt
    autoTripKillswitch := violation.autoTripKillswitch
    expectancyCheck := some (Rules.buildExpectancyCheck ctx) }

/-- The result where no rule objects. -/
def approvedWith (ctx : RuleContext) : RiskDecisionResult :=
  { approved := true
    rejectionReason := none
    equitySnapshotUsdt := ctx.account.equityUsdt
    positionSizeUsdt := some ctx.candidate.positionSizeUsdt
    positionSizeBase := some ctx.candidate.positionSizeBase
    stopLossPrice := some ctx.candidate.stopLossPrice
    stopDistancePct := some ctx.candidate.stopDistancePct
    riskPctApplied := some ctx.candidate.riskPctApplied
    nominalRiskAmountUsdt := some ctx.candidate.nominalRiskAmountUsdt
    actualRiskUsdt := some ctx.candidate.actualRiskUsdt
    expectancyCheck := some (Rules.buildExpectancyCheck ctx) }

/-- The result that the first rule which does not pass makes of the context; none where that rule
raises. -/
def verdictOf (ctx : RuleContext) : Option RuleStop → Option RiskDecisionResult
  | none => some (approvedWith ctx)
  | some (.violation violation) => some (rejectedBy ctx violation)
  | some .overflow => none

/-- The first rule that does not pass decides. -/
def verdict (ctx : RuleContext) : Option RiskDecisionResult :=
  verdictOf ctx (Rules.rulesInOrder.findSome? fun rule => rule ctx)

/-- The rules come to a first one that does not pass, and it ends as `stop` says. -/
def FirstStop (ctx : RuleContext) (stop : RuleStop) : Prop :=
  ∃ before rule after, Rules.rulesInOrder = before ++ rule :: after ∧
    (∀ earlier ∈ before, earlier ctx = none) ∧ rule ctx = some stop

/-- The violation of the first failing rule. -/
def FirstViolation (ctx : RuleContext) (violation : RuleViolation) : Prop :=
  FirstStop ctx (.violation violation)

/-- The rule that stops an evaluation is one of the twelve. -/
theorem FirstStop.rule {ctx : RuleContext} {stop : RuleStop} (h : FirstStop ctx stop) :
    ∃ rule ∈ Rules.rulesInOrder, rule ctx = some stop := by
  obtain ⟨before, rule, after, hsplit, -, hrule⟩ := h
  refine ⟨rule, ?_, hrule⟩
  rw [hsplit]
  exact List.mem_append_right _ List.mem_cons_self

/-- The first rule that does not pass is found by going through the list. -/
theorem firstStop_iff {ctx : RuleContext} {stop : RuleStop} :
    FirstStop ctx stop ↔ (Rules.rulesInOrder.findSome? fun rule => rule ctx) = some stop := by
  rw [List.findSome?_eq_some_iff]
  constructor
  · rintro ⟨before, rule, after, hsplit, hbefore, hrule⟩
    exact ⟨before, rule, after, hsplit, hrule, hbefore⟩
  · rintro ⟨before, rule, after, hsplit, hrule, hbefore⟩
    exact ⟨before, rule, after, hsplit, hbefore, hrule⟩

/-- **What a verdict can be**: a rejection with the violation of the first failing rule, nothing
where the first rule that does not pass raises, or an approval. -/
theorem verdict_cases (ctx : RuleContext) :
    (∃ violation, FirstViolation ctx violation ∧ verdict ctx = some (rejectedBy ctx violation)) ∨
      (FirstStop ctx .overflow ∧ verdict ctx = none) ∨
      (∀ rule ∈ Rules.rulesInOrder, rule ctx = none) ∧ verdict ctx = some (approvedWith ctx) := by
  unfold verdict
  cases hfirst : Rules.rulesInOrder.findSome? fun rule => rule ctx with
  | none => exact .inr (.inr ⟨List.findSome?_eq_none_iff.mp hfirst, rfl⟩)
  | some stop =>
    cases stop with
    | violation violation => exact .inl ⟨violation, firstStop_iff.mpr hfirst, rfl⟩
    | overflow => exact .inr (.inl ⟨firstStop_iff.mpr hfirst, rfl⟩)

/-- Where no rule stops the evaluation, the verdict is an approval. -/
theorem verdict_eq_approved {ctx : RuleContext}
    (h : ∀ rule ∈ Rules.rulesInOrder, rule ctx = none) : verdict ctx = some (approvedWith ctx) := by
  unfold verdict
  rw [List.findSome?_eq_none_iff.mpr h]
  rfl

/-- Where a rule is violated first, the verdict is a rejection. -/
theorem verdict_eq_rejected {ctx : RuleContext} {violation : RuleViolation}
    (h : (Rules.rulesInOrder.findSome? fun rule => rule ctx) = some (.violation violation)) :
    verdict ctx = some (rejectedBy ctx violation) := by
  unfold verdict
  rw [h]
  rfl

/-- A verdict reports either the violation of the first failing rule or the sizing. -/
theorem verdict_some {ctx : RuleContext} {result : RiskDecisionResult}
    (h : verdict ctx = some result) :
    (∃ violation, FirstViolation ctx violation ∧ result = rejectedBy ctx violation) ∨
      (∀ rule ∈ Rules.rulesInOrder, rule ctx = none) ∧ result = approvedWith ctx := by
  rcases verdict_cases ctx with ⟨violation, hfirst, hverdict⟩ | ⟨-, hverdict⟩ | ⟨hrules, hverdict⟩
  · exact .inl ⟨violation, hfirst, Option.some.inj (h.symm.trans hverdict)⟩
  · rw [hverdict] at h
    cases h
  · exact .inr ⟨hrules, Option.some.inj (h.symm.trans hverdict)⟩

/-! ## The rules -/

/-- Conditions under which no rule stops the evaluation: one for each rule, one more for the open
positions, and the range of `timedelta` for the two rules that build one. -/
structure Admits (ctx : RuleContext) : Prop where
  killswitchOff : ctx.killswitchEnabled = false
  notDuplicate : ctx.isDuplicateDecision = false
  notHold : ctx.signal.action ≠ .HOLD
  maxAge_inRange : timedeltaMinutes ctx.config.signalMaxAgeMinutes ≠ none
  fresh : ctx.now - ctx.signal.candleTs ≤ minutes ctx.config.signalMaxAgeMinutes
  confident : ctx.config.minConfidence ≤ ctx.signal.confidence
  expectancyAllowed : ctx.config.expectancyFilterEnabled = true →
    Rules.expectancyDecision ctx ≠ .NEGATIVE_EXPECTANCY
  symbolClosed : ctx.signal.symbol ∉ ctx.account.openPositionSymbols
  belowLimit : (ctx.account.openPositionSymbols.card : ℤ) < ctx.config.maxOpenPositions
  exposureCapped : ctx.account.totalExposureUsdt + ctx.candidate.positionSizeUsdt ≤
    ctx.config.maxTotalExposurePct * ctx.account.equityUsdt
  dailyLossAllowed : -ctx.config.maxDailyLossPct < ctx.account.dailyPnlPct
  streakAllowed : ctx.account.consecutiveLosses < ctx.config.consecutiveLossLimit
  cooledDown : ∀ lastClosed ∈ ctx.account.symbolLastClosedAt ctx.signal.symbol,
    timedeltaMinutes ctx.config.cooldownMinutes ≠ none ∧
      minutes ctx.config.cooldownMinutes ≤ ctx.now - lastClosed
  funded : ctx.candidate.positionSizeUsdt ≤ ctx.account.freeBalanceUsdt

/-- A comparison with a `timedelta` of minutes is one with their length, where they are in range. -/
theorem timedeltaMinutes_cases (n : ℤ) :
    timedeltaMinutes n = none ∨ timedeltaMinutes n = some (minutes n) := by
  cases h : timedeltaMinutes n with
  | none => exact .inl rfl
  | some delta => exact .inr (congrArg some (timedeltaMinutes_eq h))

/-- **No rule stops an evaluation exactly where the context admits the entry.** -/
theorem admits_iff {ctx : RuleContext} :
    Admits ctx ↔ ∀ rule ∈ Rules.rulesInOrder, rule ctx = none := by
  have hstaleness : Rules.signalStaleness ctx = none ↔
      timedeltaMinutes ctx.config.signalMaxAgeMinutes ≠ none ∧
        ctx.now - ctx.signal.candleTs ≤ minutes ctx.config.signalMaxAgeMinutes := by
    unfold Rules.signalStaleness
    rcases timedeltaMinutes_cases ctx.config.signalMaxAgeMinutes with hrange | hrange
    · simp [hrange]
    · simp [hrange]
  have hcooldown : Rules.cooldown ctx = none ↔
      ∀ lastClosed ∈ ctx.account.symbolLastClosedAt ctx.signal.symbol,
        timedeltaMinutes ctx.config.cooldownMinutes ≠ none ∧
          minutes ctx.config.cooldownMinutes ≤ ctx.now - lastClosed := by
    unfold Rules.cooldown
    cases ctx.account.symbolLastClosedAt ctx.signal.symbol with
    | none => simp
    | some lastClosed =>
      rcases timedeltaMinutes_cases ctx.config.cooldownMinutes with hrange | hrange
      · simp [hrange]
      · simp [hrange]
  have hfilter : Rules.expectancyFilter ctx = none ↔
      (ctx.config.expectancyFilterEnabled = true →
        Rules.expectancyDecision ctx ≠ .NEGATIVE_EXPECTANCY) := by
    unfold Rules.expectancyFilter
    cases ctx.config.expectancyFilterEnabled with
    | false => simp
    | true => simp
  have hrules : (∀ rule ∈ Rules.rulesInOrder, rule ctx = none) ↔
      ctx.killswitchEnabled = false ∧ ctx.isDuplicateDecision = false ∧
        ctx.signal.action ≠ .HOLD ∧
        Rules.signalStaleness ctx = none ∧
        ctx.config.minConfidence ≤ ctx.signal.confidence ∧
        Rules.expectancyFilter ctx = none ∧
        (ctx.signal.symbol ∉ ctx.account.openPositionSymbols ∧
          (ctx.account.openPositionSymbols.card : ℤ) < ctx.config.maxOpenPositions) ∧
        ctx.account.totalExposureUsdt + ctx.candidate.positionSizeUsdt ≤
          ctx.config.maxTotalExposurePct * ctx.account.equityUsdt ∧
        -ctx.config.maxDailyLossPct < ctx.account.dailyPnlPct ∧
        ctx.account.consecutiveLosses < ctx.config.consecutiveLossLimit ∧
        Rules.cooldown ctx = none ∧
        ctx.candidate.positionSizeUsdt ≤ ctx.account.freeBalanceUsdt := by
    simp [Rules.rulesInOrder, Rules.killSwitch, Rules.duplicateSignal, Rules.signalAction,
      Rules.minConfidence, Rules.maxOpenPositions,
      Rules.maxTotalExposure, Rules.maxDailyLoss, Rules.consecutiveLosses,
      Rules.insufficientBalance]
  rw [hrules, hstaleness, hfilter, hcooldown]
  constructor
  · intro h
    exact ⟨h.killswitchOff, h.notDuplicate, h.notHold, ⟨h.maxAge_inRange, h.fresh⟩, h.confident,
      h.expectancyAllowed, ⟨h.symbolClosed, h.belowLimit⟩, h.exposureCapped,
      h.dailyLossAllowed, h.streakAllowed, h.cooledDown, h.funded⟩
  · rintro ⟨hoff, hdup, hhold, ⟨hrange, hfresh⟩, hconf, hexp, ⟨hsym, hlimit⟩, hcap, hdaily,
      hstreak, hcool, hfunded⟩
    exact ⟨hoff, hdup, hhold, hrange, hfresh, hconf, hexp, hsym, hlimit, hcap, hdaily, hstreak,
      hcool, hfunded⟩

theorem reason_of_autoTrip {ctx : RuleContext} {rule : RuleFunc} {violation : RuleViolation}
    (hrule : rule ∈ Rules.rulesInOrder) (h : rule ctx = some (.violation violation))
    (htrip : violation.autoTripKillswitch = true) :
    violation.reason = .DAILY_LOSS_LIMIT_HIT ∨ violation.reason = .CONSECUTIVE_LOSS_PAUSE := by
  simp only [Rules.rulesInOrder, List.mem_cons, List.not_mem_nil, or_false] at hrule
  rcases hrule with rfl | rfl | rfl | rfl | rfl | rfl | rfl | rfl | rfl | rfl | rfl | rfl
  case inr.inr.inr.inr.inr.inr.inr.inr.inl =>
    unfold Rules.maxDailyLoss at h
    split at h
    · cases h
      exact .inl rfl
    · cases h
  case inr.inr.inr.inr.inr.inr.inr.inr.inr.inl =>
    unfold Rules.consecutiveLosses at h
    split at h
    · cases h
    · cases h
      exact .inr rfl
  case inr.inr.inr.inl =>
    unfold Rules.signalStaleness at h
    split at h
    · cases h
    · split at h <;> cases h
      cases htrip
  case inr.inr.inr.inr.inr.inr.inr.inr.inr.inr.inl =>
    unfold Rules.cooldown at h
    split at h
    · cases h
    · split at h
      · cases h
      · split at h <;> cases h
        cases htrip
  case inr.inr.inr.inr.inr.inl =>
    unfold Rules.expectancyFilter at h
    split at h
    · cases h
    · split at h <;> cases h
      cases htrip
  all_goals
    simp only [Rules.killSwitch, Rules.duplicateSignal, Rules.signalAction, Rules.minConfidence,
      Rules.maxOpenPositions, Rules.maxTotalExposure, Rules.insufficientBalance] at h
    split at h <;> cases h
    cases htrip

/-- Only the staleness rule and the cooldown rule raise, each where the number of minutes it reads
from the config is out of the range of `timedelta`. -/
theorem range_of_overflow {ctx : RuleContext} {rule : RuleFunc}
    (hrule : rule ∈ Rules.rulesInOrder) (h : rule ctx = some .overflow) :
    timedeltaMinutes ctx.config.signalMaxAgeMinutes = none ∨
      timedeltaMinutes ctx.config.cooldownMinutes = none := by
  simp only [Rules.rulesInOrder, List.mem_cons, List.not_mem_nil, or_false] at hrule
  rcases hrule with rfl | rfl | rfl | rfl | rfl | rfl | rfl | rfl | rfl | rfl | rfl | rfl
  case inr.inr.inr.inl =>
    refine .inl ?_
    unfold Rules.signalStaleness at h
    split at h
    · assumption
    · split at h <;> cases h
  case inr.inr.inr.inr.inr.inr.inr.inr.inr.inr.inl =>
    refine .inr ?_
    unfold Rules.cooldown at h
    split at h
    · cases h
    · split at h
      · assumption
      · split at h <;> cases h
  case inr.inr.inr.inr.inr.inl =>
    unfold Rules.expectancyFilter at h
    split at h
    · cases h
    · split at h <;> cases h
  all_goals
    simp only [Rules.killSwitch, Rules.duplicateSignal, Rules.signalAction, Rules.minConfidence,
      Rules.maxOpenPositions, Rules.maxTotalExposure, Rules.maxDailyLoss,
      Rules.consecutiveLosses, Rules.insufficientBalance] at h
    split at h <;> cases h

/-! ## The evaluation -/

/-- **An evaluation is a sizing and a verdict.** -/
theorem evaluate_eq (signal : SignalView) (account : AccountState) (config : RiskConfig)
    (now : Time) (killswitchEnabled isDuplicateDecision : Bool) (expectancy : ExpectancyView) :
    evaluate signal account config now killswitchEnabled isDuplicateDecision expectancy =
      (computeSizing account.equityUsdt account.freeBalanceUsdt signal.price signal.atr14
        signal.confidence config).bind fun candidate => verdict
          { signal, account, config, now, killswitchEnabled, isDuplicateDecision, candidate,
            expectancy } := by
  unfold evaluate
  cases computeSizing account.equityUsdt account.freeBalanceUsdt signal.price signal.atr14
    signal.confidence config with
  | none => rfl
  | some candidate =>
    rw [Option.bind_some]
    unfold verdict
    cases hfirst : Rules.rulesInOrder.findSome? fun rule => rule
        { signal, account, config, now, killswitchEnabled, isDuplicateDecision, candidate,
          expectancy } with
    | none =>
      dsimp only
      rw [hfirst]
      rfl
    | some stop =>
      dsimp only
      rw [hfirst]
      cases stop <;> rfl

section

variable {signal : SignalView} {account : AccountState} {config : RiskConfig} {now : Time}
  {killswitchEnabled isDuplicateDecision : Bool} {expectancy : ExpectancyView}
  {result : RiskDecisionResult}

/-- **What an approval is**: the report of a sizing that the context admits. -/
theorem evaluate_admitted
    (h : evaluate signal account config now killswitchEnabled isDuplicateDecision expectancy =
      some result) (happroved : result.approved = true) :
    ∃ candidate,
      computeSizing account.equityUsdt account.freeBalanceUsdt signal.price signal.atr14
        signal.confidence config = some candidate ∧
      Admits
        { signal, account, config, now, killswitchEnabled, isDuplicateDecision,
          candidate, expectancy } ∧
      result = approvedWith
        { signal, account, config, now, killswitchEnabled, isDuplicateDecision,
          candidate, expectancy } := by
  rw [evaluate_eq] at h
  obtain ⟨candidate, hsizing, hverdict⟩ := Option.bind_eq_some_iff.mp h
  rcases verdict_some hverdict with ⟨violation, -, rfl⟩ | ⟨hrules, hresult⟩
  · cases happroved
  · exact ⟨candidate, hsizing, admits_iff.mpr hrules, hresult⟩

/-- The reason `DUPLICATE_SIGNAL` is given to duplicates only. -/
theorem evaluate_duplicate
    (h : evaluate signal account config now killswitchEnabled isDuplicateDecision expectancy =
      some result) (hreason : result.rejectionReason = some .DUPLICATE_SIGNAL) :
    isDuplicateDecision = true := by
  rw [evaluate_eq] at h
  obtain ⟨candidate, -, hverdict⟩ := Option.bind_eq_some_iff.mp h
  rcases verdict_some hverdict with ⟨violation, hfirst, rfl⟩ | ⟨-, rfl⟩
  · obtain ⟨rule, hmem, hrule⟩ := FirstStop.rule hfirst
    exact Rules.duplicate_of_violation hmem hrule (Option.some.inj hreason)
  · cases hreason

/-- An evaluation whose first violation trips the switch trips it. -/
theorem evaluate_violation {candidate : SizingResult} {violation : RuleViolation}
    (hsizing : computeSizing account.equityUsdt account.freeBalanceUsdt signal.price
      signal.atr14 signal.confidence config = some candidate)
    (hviolation : (Rules.rulesInOrder.findSome? fun rule => rule
      { signal, account, config, now, killswitchEnabled, isDuplicateDecision, candidate,
        expectancy }) = some (.violation violation)) :
    (evaluate signal account config now killswitchEnabled isDuplicateDecision expectancy).map
      RiskDecisionResult.autoTripKillswitch = some violation.autoTripKillswitch := by
  rw [evaluate_eq, hsizing, Option.bind_some, verdict_eq_rejected hviolation, Option.map_some]
  rfl

end

/-! ## The arguments together -/

/-- The arguments that one call of `evaluate` is given. -/
structure EntryInput where
  signal : SignalView
  account : AccountState
  config : RiskConfig
  now : Time
  killswitchEnabled : Bool
  isDuplicateDecision : Bool
  expectancy : ExpectancyView

namespace EntryInput

/-- The sizing the evaluation starts with. -/
def sizing (input : EntryInput) : Option SizingResult :=
  computeSizing input.account.equityUsdt input.account.freeBalanceUsdt input.signal.price
    input.signal.atr14 input.signal.confidence input.config

/-- The context that the rules read, with the candidate the sizing has produced. -/
def context (input : EntryInput) (candidate : SizingResult) : RuleContext :=
  { signal := input.signal
    account := input.account
    config := input.config
    now := input.now
    killswitchEnabled := input.killswitchEnabled
    isDuplicateDecision := input.isDuplicateDecision
    candidate
    expectancy := input.expectancy }

/-- The result of `evaluate` on the input, if it does not raise. -/
def run (input : EntryInput) : Option RiskDecisionResult :=
  evaluate input.signal input.account input.config input.now input.killswitchEnabled
    input.isDuplicateDecision input.expectancy

end EntryInput

/-- The evaluation as a sizing and a verdict. -/
theorem EntryInput.run_eq (input : EntryInput) :
    input.run = input.sizing.bind fun candidate => verdict (input.context candidate) :=
  evaluate_eq ..

/-- The evaluation of an entry that can be sized. -/
theorem EntryInput.run_of_sizing {input : EntryInput} {candidate : SizingResult}
    (h : input.sizing = some candidate) :
    input.run = verdict (input.context candidate) := by
  rw [input.run_eq, h, Option.bind_some]

/-- An approval is the report of a sizing that the context admits. -/
theorem EntryInput.run_admitted {input : EntryInput} {result : RiskDecisionResult}
    (h : input.run = some result) (happroved : result.approved = true) :
    ∃ sized, input.sizing = some sized ∧ Admits (input.context sized) ∧
      result = approvedWith (input.context sized) :=
  evaluate_admitted h happroved

end TradeMind.Analysis
