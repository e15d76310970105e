import TradeMind.Analysis.EntryApproval

/-!
# The shadow mode of the expectancy filter

With the filter off an evaluation records what the filter would have decided.  The sixth rule
alone reads the flag, so that record says how the enforced run ends
(`shadow_predicts_enforcement`).  The one exception is a cooldown so long that the eleventh rule
raises: the enforced run may reject before it comes to that rule.
-/

set_option autoImplicit false

namespace TradeMind.Analysis

open TradeMind.Model

/-- The same evaluation with the filter switched on or off. -/
def EntryInput.filtering (input : EntryInput) (enabled : Bool) : EntryInput :=
  { input with config := { input.config with expectancyFilterEnabled := enabled } }

/-- The same context with the filter switched on or off. -/
def enforcing (ctx : RuleContext) (enabled : Bool) : RuleContext :=
  { ctx with config := { ctx.config with expectancyFilterEnabled := enabled } }

/-- A result without the flag that the expectancy check records. -/
def withoutEnforced (result : RiskDecisionResult) : RiskDecisionResult :=
  { result with expectancyCheck := result.expectancyCheck.map fun check =>
      { check with enforced := false } }

/-- Two results that are equal except for `expectancy_check.enforced`. -/
def EqualExceptEnforced (result result' : RiskDecisionResult) : Prop :=
  withoutEnforced result = withoutEnforced result'

/-- The first five rules. -/
def gateRules : List RuleFunc :=
  [Rules.killSwitch, Rules.duplicateSignal, Rules.signalAction, Rules.signalStaleness,
    Rules.minConfidence]

/-- The rules after the filter. -/
def capitalRules : List RuleFunc :=
  [Rules.maxOpenPositions, Rules.maxTotalExposure, Rules.maxDailyLoss, Rules.consecutiveLosses,
    Rules.cooldown, Rules.insufficientBalance]

/-- The filter stands between the gates and the capital rules. -/
theorem rulesInOrder_eq :
    Rules.rulesInOrder = gateRules ++ Rules.expectancyFilter :: capitalRules :=
  rfl

variable {ctx : RuleContext}

theorem rule_enforcing (enabled : Bool) {rule : RuleFunc}
    (h : rule ∈ gateRules ∨ rule ∈ capitalRules) : rule (enforcing ctx enabled) = rule ctx := by
  simp only [gateRules, capitalRules, List.mem_cons, List.not_mem_nil, or_false] at h
  rcases h with (rfl | rfl | rfl | rfl | rfl) | (rfl | rfl | rfl | rfl | rfl | rfl) <;> rfl

/-- The first rule to stop the evaluation among rules that do not read the flag is the same. -/
theorem findSome?_enforcing (enabled : Bool) {rules : List RuleFunc}
    (h : ∀ rule ∈ rules, rule ∈ gateRules ∨ rule ∈ capitalRules) :
    (rules.findSome? fun rule => rule (enforcing ctx enabled)) =
      rules.findSome? fun rule => rule ctx := by
  induction rules with
  | nil => rfl
  | cons rule rest ih =>
    rw [List.findSome?_cons, List.findSome?_cons,
      rule_enforcing enabled (h rule List.mem_cons_self),
      ih fun later hlater => h later (List.mem_cons_of_mem rule hlater)]

/-- **What stops an evaluation with the filter switched**: a gate, the filter, or a capital
rule. -/
theorem firstStop_enforcing (ctx : RuleContext) (enabled : Bool) :
    (Rules.rulesInOrder.findSome? fun rule => rule (enforcing ctx enabled)) =
      (gateRules.findSome? fun rule => rule ctx).or
        ((Rules.expectancyFilter (enforcing ctx enabled)).or
          (capitalRules.findSome? fun rule => rule ctx)) := by
  rw [rulesInOrder_eq, List.findSome?_append, List.findSome?_cons,
    findSome?_enforcing enabled fun rule hrule => .inl hrule,
    findSome?_enforcing enabled fun rule hrule => .inr hrule]
  cases Rules.expectancyFilter (enforcing ctx enabled) with
  | none => rfl
  | some stop => rfl

theorem expectancyFilter_off : Rules.expectancyFilter (enforcing ctx false) = none := rfl

/-- The filter rejects a negative setup where it is on. -/
theorem expectancyFilter_on :
    Rules.expectancyFilter (enforcing ctx true) =
      if Rules.expectancyDecision ctx = .NEGATIVE_EXPECTANCY then
        some (.violation { reason := .NEGATIVE_EXPECTANCY_SETUP })
      else none :=
  rfl

/-- A rule rejects the context, rather than passing it or raising. -/
def Rejects (rule : RuleFunc) (ctx : RuleContext) : Prop :=
  ∃ violation, rule ctx = some (.violation violation)

/-- What the shadow result and its record say of the enforced result: the two are equal except for
the flag where one of the first five rules rejects, and where another decision than
`NEGATIVE_EXPECTANCY` is on record; and that decision makes the enforced run reject. -/
structure Predicts (ctx : RuleContext) (shadow enforced : RiskDecisionResult) : Prop where
  gate : (∃ rule ∈ Rules.rulesInOrder.take 5, Rejects rule ctx) →
    EqualExceptEnforced shadow enforced
  negative : (¬∃ rule ∈ Rules.rulesInOrder.take 5, Rejects rule ctx) →
    shadow.expectancyCheck.map ExpectancyCheck.decision = some .NEGATIVE_EXPECTANCY →
      enforced.approved = false ∧
        enforced.rejectionReason = some .NEGATIVE_EXPECTANCY_SETUP ∧
        enforced.autoTripKillswitch = false
  other : (¬∃ rule ∈ Rules.rulesInOrder.take 5, Rejects rule ctx) →
    shadow.expectancyCheck.map ExpectancyCheck.decision ≠ some .NEGATIVE_EXPECTANCY →
      EqualExceptEnforced shadow enforced
  approval : shadow.approved = false → enforced.approved = false

/-- The verdicts that one and the same stop makes of the two contexts: both raise, or both return
results that are equal except for the flag, with the same approval. -/
theorem verdictOf_enforcing (ctx : RuleContext) (stop : Option RuleStop) :
    (verdictOf (enforcing ctx false) stop = none ∧ verdictOf (enforcing ctx true) stop = none) ∨
      ∃ shadow enforced, verdictOf (enforcing ctx false) stop = some shadow ∧
        verdictOf (enforcing ctx true) stop = some enforced ∧
        EqualExceptEnforced shadow enforced ∧ shadow.approved = enforced.approved := by
  cases stop with
  | none => exact .inr ⟨_, _, rfl, rfl, rfl, rfl⟩
  | some stop =>
    cases stop with
    | violation violation => exact .inr ⟨_, _, rfl, rfl, rfl, rfl⟩
    | overflow => exact .inl ⟨rfl, rfl⟩

theorem verdict_expectancyCheck {result : RiskDecisionResult} (h : verdict ctx = some result) :
    result.expectancyCheck = some (Rules.buildExpectancyCheck ctx) := by
  rcases verdict_some h with ⟨violation, -, rfl⟩ | ⟨-, rfl⟩
  · rfl
  · rfl

/-- Where the same stop decides both runs, they raise together or the record predicts. -/
theorem predicts_of_stop {stop : Option RuleStop}
    (hoff : (Rules.rulesInOrder.findSome? fun rule => rule (enforcing ctx false)) = stop)
    (hon : (Rules.rulesInOrder.findSome? fun rule => rule (enforcing ctx true)) = stop)
    (hnegative : stop ≠ some .overflow →
      (¬∃ rule ∈ Rules.rulesInOrder.take 5, Rejects rule ctx) →
        Rules.expectancyDecision ctx ≠ .NEGATIVE_EXPECTANCY) :
    (verdict (enforcing ctx false) = none ∧ verdict (enforcing ctx true) = none) ∨
      ∃ shadow enforced, verdict (enforcing ctx false) = some shadow ∧
        verdict (enforcing ctx true) = some enforced ∧ Predicts ctx shadow enforced := by
  have hshadow : verdict (enforcing ctx false) = verdictOf (enforcing ctx false) stop := by
    rw [verdict, hoff]
  have henforced : verdict (enforcing ctx true) = verdictOf (enforcing ctx true) stop := by
    rw [verdict, hon]
  rcases verdictOf_enforcing ctx stop with ⟨hnone, hnone'⟩ |
    ⟨shadow, enforced, hsome, hsome', hequal, happroved⟩
  · exact .inl ⟨hshadow.trans hnone, henforced.trans hnone'⟩
  · refine .inr ⟨shadow, enforced, hshadow.trans hsome, henforced.trans hsome', ?_⟩
    have hrecord := verdict_expectancyCheck (hshadow.trans hsome)
    have hstop : stop ≠ some .overflow := by
      rintro rfl
      cases hsome
    exact
      { gate := fun _ => hequal
        negative := by
          intro hgates hdecision
          rw [hrecord] at hdecision
          exact absurd (Option.some.inj hdecision) (hnegative hstop hgates)
        other := fun _ _ => hequal
        approval := fun hrejected => happroved ▸ hrejected }

/-- Where a gate stops the evaluation by a violation, a gate rejects. -/
theorem rejects_of_gate {violation : RuleViolation}
    (h : (gateRules.findSome? fun rule => rule ctx) = some (.violation violation)) :
    ∃ rule ∈ Rules.rulesInOrder.take 5, Rejects rule ctx := by
  obtain ⟨rule, hmem, hrule⟩ := List.exists_of_findSome?_eq_some h
  exact ⟨rule, hmem, violation, hrule⟩

/-- Where the gates let an evaluation through, none of them rejects. -/
theorem not_rejects_of_gates (h : (gateRules.findSome? fun rule => rule ctx) = none) :
    ¬∃ rule ∈ Rules.rulesInOrder.take 5, Rejects rule ctx := by
  rintro ⟨rule, hmem, violation, hrule⟩
  rw [List.findSome?_eq_none_iff.mp h rule hmem] at hrule
  cases hrule

/-- A capital rule that raises is the cooldown rule, whose number of minutes is out of range. -/
theorem cooldown_of_overflow
    (h : (capitalRules.findSome? fun rule => rule ctx) = some .overflow) :
    timedeltaMinutes ctx.config.cooldownMinutes = none := by
  obtain ⟨rule, hmem, hrule⟩ := List.exists_of_findSome?_eq_some h
  simp only [capitalRules, List.mem_cons, List.not_mem_nil, or_false] at hmem
  rcases hmem with rfl | rfl | rfl | rfl | rfl | rfl
  case inr.inr.inr.inr.inl =>
    unfold Rules.cooldown at hrule
    split at hrule
    · cases hrule
    · split at hrule
      · assumption
      · split at hrule <;> cases hrule
  all_goals
    simp only [Rules.maxOpenPositions, Rules.maxTotalExposure, Rules.maxDailyLoss,
      Rules.consecutiveLosses, Rules.insufficientBalance] at hrule
    split at hrule <;> cases hrule

/-- Past the gates, a negative setup decides the enforced verdict. -/
theorem verdict_of_negative (hgates : (gateRules.findSome? fun rule => rule ctx) = none)
    (hnegative : Rules.expectancyDecision ctx = .NEGATIVE_EXPECTANCY) :
    verdict (enforcing ctx true) =
      some (rejectedBy (enforcing ctx true) { reason := .NEGATIVE_EXPECTANCY_SETUP }) := by
  apply verdict_eq_rejected
  rw [firstStop_enforcing, hgates, Option.none_or, expectancyFilter_on, if_pos hnegative,
    Option.some_or]

/-- The enforced run rejects the setup without tripping the switch. -/
def RejectsSetup (result : RiskDecisionResult) : Prop :=
  result.approved = false ∧ result.rejectionReason = some .NEGATIVE_EXPECTANCY_SETUP ∧
    result.autoTripKillswitch = false

/-- **The two verdicts of a context**: both raise, or the cooldown is out of range and the enforced
run rejects the setup where the shadow run raises, or the record predicts. -/
theorem verdicts_enforcing (ctx : RuleContext) :
    (verdict (enforcing ctx false) = none ∧ verdict (enforcing ctx true) = none) ∨
      (timedeltaMinutes ctx.config.cooldownMinutes = none ∧
        verdict (enforcing ctx false) = none ∧
        ∃ enforced, verdict (enforcing ctx true) = some enforced ∧ RejectsSetup enforced) ∨
      ∃ shadow enforced, verdict (enforcing ctx false) = some shadow ∧
        verdict (enforcing ctx true) = some enforced ∧ Predicts ctx shadow enforced := by
  have hoff := firstStop_enforcing ctx false
  have hon := firstStop_enforcing ctx true
  cases hgates : gateRules.findSome? fun rule => rule ctx with
  | some stop =>
    rw [hgates, Option.some_or] at hoff hon
    refine (predicts_of_stop hoff hon fun hstop hpass => ?_).imp_right .inr
    cases stop with
    | violation violation => exact absurd (rejects_of_gate hgates) hpass
    | overflow => exact absurd rfl hstop
  | none =>
    rw [hgates, Option.none_or] at hoff hon
    rw [expectancyFilter_off, Option.none_or] at hoff
    by_cases hnegative : Rules.expectancyDecision ctx = .NEGATIVE_EXPECTANCY
    · have henforced := verdict_of_negative hgates hnegative
      have hshadow : verdict (enforcing ctx false) = verdictOf (enforcing ctx false)
          (capitalRules.findSome? fun rule => rule ctx) := by
        rw [verdict, hoff]
      refine .inr ?_
      rcases verdictOf_enforcing ctx (capitalRules.findSome? fun rule => rule ctx) with
        ⟨hnone, -⟩ | ⟨shadow, _, hsome, -, -, -⟩
      · refine .inl ⟨cooldown_of_overflow ?_, hshadow.trans hnone, _, henforced, rfl, rfl, rfl⟩
        generalize (capitalRules.findSome? fun rule => rule ctx) = stop at hnone
        rcases stop with _ | _ | _
        · cases hnone
        · cases hnone
        · rfl
      · refine .inr ⟨shadow, _, hshadow.trans hsome, henforced, ?_⟩
        have hrecord := verdict_expectancyCheck (hshadow.trans hsome)
        exact
          { gate := fun hrejects => absurd hrejects (not_rejects_of_gates hgates)
            negative := fun _ _ => ⟨rfl, rfl, rfl⟩
            other := by
              intro _ hother
              rw [hrecord] at hother
              exact absurd (congrArg some hnegative) hother
            approval := fun _ => rfl }
    · rw [expectancyFilter_on, if_neg hnegative, Option.none_or] at hon
      exact (predicts_of_stop hoff hon fun _ _ => hnegative).imp_right .inr

/-! ## The two evaluations -/

/-- An evaluation with the filter switched is the verdict on the switched context. -/
theorem EntryInput.run_filtering (input : EntryInput) (enabled : Bool) :
    (input.filtering enabled).run =
      input.sizing.bind fun candidate => verdict (enforcing (input.context candidate) enabled) :=
  (input.filtering enabled).run_eq

/-- The flat account with a losing setup and a cooldown longer than the longest `timedelta`. -/
def endlessCooldown : EntryInput :=
  { flatInput 10000 with
    account := { (flatInput 10000).account with symbolLastClosedAt := fun _ => some 0 }
    config := { cooldownMinutes := 2000000000000 }
    expectancy := { setupKey := "", sampleSize := 100, expectancyR := some (-1) } }

end TradeMind.Analysis
