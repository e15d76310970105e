import Mathlib.Data.List.Dedup
import Mathlib.Tactic.Linarith
import TradeMind.Model.AnalysisPipeline

/-!
# What an analysis can decide

When the action of one `/analyze` call is `BUY` or `SELL`: as conditions on the context, the
thresholds and the texts the provider returned.  The semantic rubric is read off once
(`semantic_buy_iff`, `semantic_sell_iff`), the repair loop once (`validateLoop_parsed_iff`);
the prefilter and the pipeline follow.
-/

set_option autoImplicit false

namespace TradeMind.Analysis

open TradeMind.Model TradeMind.Model.Llm

/-! ## The rubric as conditions on the context -/

/-- A flat account whose context supports a `BUY`. -/
structure EntryConfirmed (context : MarketContext) : Prop where
  flat : context.position.hasOpenPosition = false
  three : 3 ≤ context.entryConfirmations.length
  trend : ∃ c ∈ context.entryConfirmations, c.category = .trend
  momentum : ∃ c ∈ context.entryConfirmations, c.category = .momentum
  regime : (selectStrategy context).strategy ≠ .TREND_FOLLOWING

/-- Two exit confirmations of different categories. -/
structure ExitConfirmed (context : MarketContext) : Prop where
  two : 2 ≤ context.exitConfirmations.length
  categories : ∃ a ∈ context.exitConfirmations, ∃ b ∈ context.exitConfirmations,
    a.category ≠ b.category

/-- A position is open and its unrealized PnL is known. -/
def OpenAt (context : MarketContext) (pnl : ℚ) : Prop :=
  context.position.hasOpenPosition = true ∧ context.position.unrealizedPnlPct = some pnl

/-- The PnL is past the emergency threshold. -/
def PastHardCut (thresholds : Thresholds) (pnl : ℚ) : Prop := pnl ≤ -thresholds.hardLossCutPct

/-- The PnL is outside the cushion of the exit rubric. -/
def BeyondCushion (thresholds : Thresholds) (pnl : ℚ) : Prop :=
  ¬(-thresholds.minExitLossPct ≤ pnl ∧ pnl ≤ thresholds.minExitProfitPct)

/-- A list without repetitions has two elements where it has two different ones. -/
theorem two_le_length_dedup_iff {α : Type} [DecidableEq α] (l : List α) :
    2 ≤ l.dedup.length ↔ ∃ a ∈ l, ∃ b ∈ l, a ≠ b := by
  constructor
  · intro h
    match hd : l.dedup with
    | [] => simp [hd] at h
    | [_] => simp [hd] at h
    | a :: b :: rest =>
      have hnodup : (a :: b :: rest).Nodup := hd ▸ List.nodup_dedup l
      have ha : a ∈ l := List.mem_dedup.mp (by simp [hd])
      have hb : b ∈ l := List.mem_dedup.mp (by simp [hd])
      exact ⟨a, ha, b, hb, fun hab => (List.nodup_cons.mp hnodup).1 (by simp [hab])⟩
  · rintro ⟨a, ha, b, hb, hab⟩
    have hsub : [a, b] ⊆ l.dedup := by
      intro x hx
      have hx : x = a ∨ x = b := by simpa using hx
      apply List.mem_dedup.mpr
      cases hx with
      | inl h => exact h ▸ ha
      | inr h => exact h ▸ hb
    have hnodup : [a, b].Nodup := by simp [hab]
    exact (List.subperm_of_subset hnodup hsub).length_le

theorem entryIsSufficient_iff (confirmations : List EntryConfirmation) :
    entryIsSufficient confirmations = true ↔
      3 ≤ confirmations.length ∧ (∃ c ∈ confirmations, c.category = .trend) ∧
        ∃ c ∈ confirmations, c.category = .momentum := by
  simp [entryIsSufficient, and_assoc]

theorem exitIsSufficient_iff (confirmations : List ExitConfirmation) :
    exitIsSufficient confirmations = true ↔
      2 ≤ confirmations.length ∧
        ∃ a ∈ confirmations, ∃ b ∈ confirmations, a.category ≠ b.category := by
  simp [exitIsSufficient, two_le_length_dedup_iff]

/-- A known PnL is profitable or losing exactly outside the cushion. -/
theorem profitable_or_losing_iff (pnl : Option ℚ) (thresholds : Thresholds) :
    (isProfitable pnl thresholds = true ∨ isLosing pnl thresholds = true) ↔
      ∃ p, pnl = some p ∧ BeyondCushion thresholds p := by
  cases pnl with
  | none => simp [isProfitable, isLosing]
  | some p =>
    simp only [isProfitable, isLosing, decide_eq_true_eq, BeyondCushion, Option.some.injEq,
      exists_eq_left', not_and_or, not_le]
    exact or_comm

/-- The emergency cut fires exactly for an open position past the threshold. -/
theorem hardLossCut_iff (context : MarketContext) (thresholds : Thresholds) :
    hardLossCut context.position thresholds = true ↔
      ∃ p, OpenAt context p ∧ PastHardCut thresholds p := by
  unfold hardLossCut OpenAt PastHardCut
  cases context.position.unrealizedPnlPct with
  | none => simp
  | some p => simp

/-- The entry bar with a regime that is not extended, in a flat account. -/
theorem entryConfirmed_iff (context : MarketContext) :
    EntryConfirmed context ↔ context.position.hasOpenPosition = false ∧
      entryIsSufficient context.entryConfirmations = true ∧
        (selectStrategy context).strategy ≠ .TREND_FOLLOWING := by
  rw [entryIsSufficient_iff]
  constructor
  · intro h
    exact ⟨h.flat, ⟨h.three, h.trend, h.momentum⟩, h.regime⟩
  · intro h
    exact ⟨h.1, h.2.1.1, h.2.1.2.1, h.2.1.2.2, h.2.2⟩

theorem exitConfirmed_iff (context : MarketContext) :
    ExitConfirmed context ↔ exitIsSufficient context.exitConfirmations = true := by
  rw [exitIsSufficient_iff]
  constructor
  · intro h
    exact ⟨h.two, h.categories⟩
  · intro h
    exact ⟨h.1, h.2⟩

/-! ## The semantic rubric -/

@[simp] theorem hardLossCutOutput_action (pnl : ℚ) (confirmations : List ExitConfirmation)
    (thresholds : Thresholds) :
    (hardLossCutOutput pnl confirmations thresholds).action = .SELL := rfl

@[simp] theorem confirmedExitOutput_action (pnl : ℚ) (profitable : Bool)
    (confirmations : List ExitConfirmation) :
    (confirmedExitOutput pnl profitable confirmations).action = .SELL := rfl

@[simp] theorem suppressed_action (output : LLMOutput) (reason : String)
    (indicators : List String) (invalidation : String) :
    (suppressed output reason indicators invalidation).action = .HOLD := rfl

/-- A suppressed `BUY`'s action. -/
@[simp] theorem suppressedEntry_action (context : MarketContext) (output : LLMOutput) :
    (suppressedEntry context output).action = .HOLD := by
  unfold suppressedEntry
  split <;> rfl

/-- **The action after validation**, for each answer: the emergency cut comes first, then a
`BUY` or a `SELL` stands where its bar is met. -/
theorem semantic_action (context : MarketContext) (output : LLMOutput)
    (thresholds : Thresholds) :
    (validateSignalSemantics context output thresholds).output.action =
      if hardLossCut context.position thresholds then .SELL
      else match output.action with
        | .HOLD => .HOLD
        | .SELL =>
          if context.position.hasOpenPosition ∧ exitIsSufficient context.exitConfirmations ∧
              (isProfitable context.position.unrealizedPnlPct thresholds ∨
                isLosing context.position.unrealizedPnlPct thresholds) then .SELL
          else .HOLD
        | .BUY =>
          if !context.position.hasOpenPosition ∧ entryIsSufficient context.entryConfirmations ∧
              (selectStrategy context).strategy ≠ .TREND_FOLLOWING then .BUY
          else .HOLD := by
  unfold validateSignalSemantics
  by_cases hcut : hardLossCut context.position thresholds = true
  · simp only [hcut, if_true, hardLossCutOutput_action]
  · cases hact : output.action with
    | HOLD => simp [hcut, hact]
    | SELL =>
      cases hopen : context.position.hasOpenPosition with
      | false => simp [hcut, hopen]
      | true =>
        by_cases hexit : exitIsSufficient context.exitConfirmations = true ∧
            (isProfitable context.position.unrealizedPnlPct thresholds = true ∨
              isLosing context.position.unrealizedPnlPct thresholds = true)
        · simp [hcut, hopen, hexit]
        · simp [hcut, hopen, hexit]
    | BUY =>
      cases hopen : context.position.hasOpenPosition with
      | true => simp [hcut, hopen]
      | false =>
        by_cases hentry : entryIsSufficient context.entryConfirmations = true ∧
            (selectStrategy context).strategy ≠ .TREND_FOLLOWING
        · simp [hcut, hopen, hentry, hact]
        · simp [hcut, hopen, hentry]

/-- **`BUY` after validation.**  The answer was `BUY` and the context supports it. -/
theorem semantic_buy_iff (context : MarketContext) (output : LLMOutput)
    (thresholds : Thresholds) :
    (validateSignalSemantics context output thresholds).output.action = .BUY ↔
      output.action = .BUY ∧ EntryConfirmed context := by
  rw [entryConfirmed_iff, semantic_action]
  by_cases hcut : hardLossCut context.position thresholds = true
  · -- the cut needs an open position, the entry a flat account
    have hopen : context.position.hasOpenPosition = true := by
      simp only [hardLossCut, Bool.and_eq_true] at hcut
      exact hcut.1
    simp [hcut, hopen]
  · rw [if_neg hcut]
    cases output.action with
    | HOLD => simp
    | SELL =>
      show (if _ then Action.SELL else .HOLD) = .BUY ↔ _
      split <;> simp
    | BUY => simp

/-- **`SELL` after validation.**  The emergency cut fires whatever the answer, or the answer
was `SELL` and the exit rubric confirms it. -/
theorem semantic_sell_iff (context : MarketContext) (output : LLMOutput)
    (thresholds : Thresholds) :
    (validateSignalSemantics context output thresholds).output.action = .SELL ↔
      ∃ p, OpenAt context p ∧ (PastHardCut thresholds p ∨
        output.action = .SELL ∧ BeyondCushion thresholds p ∧ ExitConfirmed context) := by
  rw [semantic_action, exitConfirmed_iff]
  by_cases hcut : hardLossCut context.position thresholds = true
  · obtain ⟨p, hp, hpast⟩ := (hardLossCut_iff context thresholds).mp hcut
    simp only [hcut, if_true, true_iff]
    exact ⟨p, hp, .inl hpast⟩
  · have hnot : ∀ p, OpenAt context p → ¬PastHardCut thresholds p := fun p hp hpast =>
      hcut ((hardLossCut_iff context thresholds).mpr ⟨p, hp, hpast⟩)
    have hrest : (∃ p, OpenAt context p ∧ (PastHardCut thresholds p ∨ output.action = .SELL ∧
        BeyondCushion thresholds p ∧ exitIsSufficient context.exitConfirmations = true)) ↔
        output.action = .SELL ∧ context.position.hasOpenPosition = true ∧
          exitIsSufficient context.exitConfirmations = true ∧
            ∃ p, context.position.unrealizedPnlPct = some p ∧ BeyondCushion thresholds p := by
      constructor
      · rintro ⟨p, hp, hpast | ⟨hsell, hbeyond, hexit⟩⟩
        · exact absurd hpast (hnot p hp)
        · exact ⟨hsell, hp.1, hexit, p, hp.2, hbeyond⟩
      · rintro ⟨hsell, hopen, hexit, p, hp, hbeyond⟩
        exact ⟨p, ⟨hopen, hp⟩, .inr ⟨hsell, hbeyond, hexit⟩⟩
    rw [hrest, ← profitable_or_losing_iff, if_neg hcut]
    cases output.action with
    | HOLD => simp
    | BUY =>
      show (if _ then Action.BUY else .HOLD) = .SELL ↔ _
      split <;> simp
    | SELL =>
      simp only [true_and, ite_eq_left_iff, reduceCtorEq, imp_false, not_not]

/-! ## The prefilter -/

/-- **When the prefilter calls the model**: exactly where a `BUY` or a `SELL` can stand. -/
theorem llmCanChangeOutcome_iff (context : MarketContext) (thresholds : Thresholds) :
    llmCanChangeOutcome context thresholds = true ↔
      EntryConfirmed context ∨ ∃ p, OpenAt context p ∧ (PastHardCut thresholds p ∨
        BeyondCushion thresholds p ∧ ExitConfirmed context) := by
  rw [entryConfirmed_iff, exitConfirmed_iff]
  unfold llmCanChangeOutcome OpenAt PastHardCut
  cases hopen : context.position.hasOpenPosition with
  | false => simp [hopen]
  | true =>
    cases hpnl : context.position.unrealizedPnlPct with
    | none => simp [hopen, hpnl]
    | some p =>
      by_cases hcut : p ≤ -thresholds.hardLossCutPct
      · simp [hopen, hpnl, hcut]
      · have hbeyond : BeyondCushion thresholds p ↔
            thresholds.minExitProfitPct < p ∨ p < -thresholds.minExitLossPct := by
          rw [BeyondCushion, not_and_or, not_le, not_le, or_comm]
        simp [hopen, hpnl, hcut, hbeyond]

/-- The action whose answer the rubric may let through. -/
def naturalAction (context : MarketContext) : Action :=
  if context.position.hasOpenPosition then .SELL else .BUY

/-- An answer the structural validation accepts, with a given action. -/
def plainOutput (action : Action) : LLMOutput :=
  { action, confidence := 1, reasoning := "-", invalidationCondition := "-" }

/-- The plain answer is accepted whatever its action. -/
theorem plainOutput_accepted (action : Action) : (plainOutput action).Accepted := by
  have hlen : ("-" : String).length = 1 := by decide
  simp only [LLMOutput.Accepted, plainOutput, hlen]
  norm_num

/-- Whatever answer ends in a trade, the prefilter calls the model for its context. -/
theorem llmCanChangeOutcome_of_trade {context : MarketContext} {output : LLMOutput}
    {thresholds : Thresholds}
    (h : (validateSignalSemantics context output thresholds).output.action ≠ .HOLD) :
    llmCanChangeOutcome context thresholds = true := by
  rw [llmCanChangeOutcome_iff]
  cases hact : (validateSignalSemantics context output thresholds).output.action with
  | HOLD => exact absurd hact h
  | BUY => exact .inl ((semantic_buy_iff context output thresholds).mp hact).2
  | SELL =>
    obtain ⟨p, hp, hcut | ⟨_, hbeyond, hexit⟩⟩ :=
      (semantic_sell_iff context output thresholds).mp hact
    · exact .inr ⟨p, hp, .inl hcut⟩
    · exact .inr ⟨p, hp, .inr ⟨hbeyond, hexit⟩⟩

/-- Where the prefilter calls the model, the natural answer stands. -/
theorem natural_stands {context : MarketContext} {thresholds : Thresholds}
    (h : llmCanChangeOutcome context thresholds = true) (output : LLMOutput)
    (hnat : output.action = naturalAction context) :
    (validateSignalSemantics context output thresholds).output.action =
      naturalAction context := by
  rw [llmCanChangeOutcome_iff] at h
  rcases h with hentry | ⟨p, hp, hexit⟩
  · have hbuy : naturalAction context = .BUY := by simp [naturalAction, hentry.flat]
    rw [hbuy] at hnat ⊢
    exact (semantic_buy_iff context output thresholds).mpr ⟨hnat, hentry⟩
  · have hsell : naturalAction context = .SELL := by simp [naturalAction, hp.1]
    rw [hsell] at hnat ⊢
    exact (semantic_sell_iff context output thresholds).mpr
      ⟨p, hp, hexit.imp_right fun h => ⟨hnat, h⟩⟩

theorem naturalAction_ne_hold (context : MarketContext) : naturalAction context ≠ .HOLD := by
  unfold naturalAction
  split <;> simp

/-! ## The texts of a run -/

/-- The texts the repair loop looks at, from `attemptText` on. -/
def textsFrom (parse : Parser) (repair : RepairFn) :
    (attempts attemptsUsed : ℕ) → (attemptText : String) → List String
  | 0, _, attemptText => [attemptText]
  | attempts + 1, attemptsUsed, attemptText =>
    attemptText ::
      match parse attemptText with
      | .ok _ => []
      | .error reason =>
        match repair attemptsUsed attemptText reason with
        | none => []
        | some repairedText => textsFrom parse repair attempts (attemptsUsed + 1) repairedText

/-- There is always a text, the first one. -/
theorem textsFrom_ne_nil (parse : Parser) (repair : RepairFn) (attempts attemptsUsed : ℕ)
    (text : String) : textsFrom parse repair attempts attemptsUsed text ≠ [] := by
  cases attempts <;> simp [textsFrom]

section Loop

variable {parse : Parser} {repair : RepairFn} {attempts attemptsUsed : ℕ} {text : String}

theorem loop_ok {found : LLMOutput} (h : parse text = .ok found) :
    (∃ repaired, validateLoop parse (some repair) attempts attemptsUsed text =
        .parsed found repaired text) ∧
      textsFrom parse repair attempts attemptsUsed text = [text] := by
  constructor
  · unfold validateLoop
    simp only [h]
    exact ⟨_, rfl⟩
  · cases attempts <;> simp [textsFrom, h]

/-- A text that does not parse ends the loop where no repair is left or the repair call
brought nothing. -/
theorem loop_stop {reason : String} (h : parse text = .error reason)
    (hstop : attempts = 0 ∨ repair attemptsUsed text reason = none) :
    (∃ repaired, validateLoop parse (some repair) attempts attemptsUsed text =
        .failed reason repaired text) ∧
      textsFrom parse repair attempts attemptsUsed text = [text] := by
  cases attempts with
  | zero =>
    unfold validateLoop
    simp only [h, textsFrom]
    exact ⟨⟨_, rfl⟩, trivial⟩
  | succ attempts =>
    have hnone : repair attemptsUsed text reason = none := hstop.resolve_left (by omega)
    unfold validateLoop
    simp only [h, hnone, textsFrom]
    exact ⟨⟨_, rfl⟩, trivial⟩

/-- A repaired text goes through the loop again. -/
theorem loop_repaired {reason repairedText : String} (h : parse text = .error reason)
    (hr : repair attemptsUsed text reason = some repairedText) :
    validateLoop parse (some repair) (attempts + 1) attemptsUsed text =
        validateLoop parse (some repair) attempts (attemptsUsed + 1) repairedText ∧
      textsFrom parse repair (attempts + 1) attemptsUsed text =
        text :: textsFrom parse repair attempts (attemptsUsed + 1) repairedText := by
  constructor
  · rw [validateLoop]
    simp only [h, hr]
  · simp only [textsFrom, h, hr]

/-- The loop that ends at a text that parses. -/
theorem parsed_here {found output : LLMOutput} {final : String} (h : parse text = .ok found) :
    (∃ repaired, validateLoop parse (some repair) attempts attemptsUsed text =
        .parsed output repaired final) ↔
      (textsFrom parse repair attempts attemptsUsed text).getLast? = some final ∧
        parse final = .ok output := by
  obtain ⟨⟨repaired, hloop⟩, htexts⟩ :=
    @loop_ok parse repair attempts attemptsUsed text _ h
  simp only [hloop, htexts, StructuralResult.parsed.injEq, List.getLast?_singleton,
    Option.some.injEq]
  constructor
  · rintro ⟨_, rfl, _, rfl⟩
    exact ⟨rfl, h⟩
  · rintro ⟨rfl, hfinal⟩
    exact ⟨_, Except.ok.inj (h.symm.trans hfinal), rfl, rfl⟩

/-- The loop that ends at a text that does not parse. -/
theorem failed_here {reason : String} {output : LLMOutput} {final : String}
    (h : parse text = .error reason)
    (hstop : attempts = 0 ∨ repair attemptsUsed text reason = none) :
    (∃ repaired, validateLoop parse (some repair) attempts attemptsUsed text =
        .parsed output repaired final) ↔
      (textsFrom parse repair attempts attemptsUsed text).getLast? = some final ∧
        parse final = .ok output := by
  obtain ⟨⟨repaired, hloop⟩, htexts⟩ := loop_stop h hstop
  simp only [hloop, htexts, List.getLast?_singleton, Option.some.injEq]
  constructor
  · rintro ⟨_, hne⟩
    cases hne
  · rintro ⟨rfl, hfinal⟩
    rw [h] at hfinal
    cases hfinal

/-- **The repair loop ends in the last text it obtained.**  It parsed exactly where that
text parses. -/
theorem validateLoop_parsed_iff (output : LLMOutput) (final : String) :
    (∃ repaired, validateLoop parse (some repair) attempts attemptsUsed text =
        .parsed output repaired final) ↔
      (textsFrom parse repair attempts attemptsUsed text).getLast? = some final ∧
        parse final = .ok output := by
  -- along the loop: it ends at this text, or goes on with the repaired one
  induction attempts generalizing attemptsUsed text with
  | zero =>
    cases hparse : parse text with
    | ok found => exact parsed_here hparse
    | error reason => exact failed_here hparse (.inl rfl)
  | succ attempts ih =>
    cases hparse : parse text with
    | ok found => exact parsed_here hparse
    | error reason =>
      cases hrepair : repair attemptsUsed text reason with
      | none => exact failed_here hparse (.inr hrepair)
      | some repairedText =>
        obtain ⟨hloop, htexts⟩ :=
          @loop_repaired parse repair attempts attemptsUsed text _ _ hparse hrepair
        rw [hloop, htexts, List.getLast?_cons_of_ne_nil (textsFrom_ne_nil _ _ _ _ _)]
        exact ih

/-- Only the last text of the loop can parse. -/
theorem getLast_of_parses {found : String} {output : LLMOutput}
    (hmem : found ∈ textsFrom parse repair attempts attemptsUsed text)
    (hparse : parse found = .ok output) :
    (textsFrom parse repair attempts attemptsUsed text).getLast? = some found := by
  induction attempts generalizing attemptsUsed text with
  | zero =>
    have hfound : found = text := by simpa [textsFrom] using hmem
    simp [textsFrom, hfound]
  | succ attempts ih =>
    by_cases hfound : found = text
    · subst hfound
      rw [(loop_ok hparse).2, List.getLast?_singleton]
    · cases htext : parse text with
      | ok first =>
        rw [(loop_ok htext).2] at hmem
        exact absurd (List.mem_singleton.mp hmem) hfound
      | error reason =>
        cases hrepair : repair attemptsUsed text reason with
        | none =>
          rw [(loop_stop htext (.inr hrepair)).2] at hmem
          exact absurd (List.mem_singleton.mp hmem) hfound
        | some repairedText =>
          rw [(loop_repaired htext hrepair).2] at hmem ⊢
          rw [List.getLast?_cons_of_ne_nil (textsFrom_ne_nil _ _ _ _ _)]
          exact ih ((List.mem_cons.mp hmem).resolve_left hfound)

end Loop

/-! ## The pipeline -/

/-- The texts one run obtains from the provider, in order. -/
def obtainedTexts (pipeline : AnalysisPipeline) (request : AnalyzeRequest) : List String :=
  let context := buildContext request
  let strategy := selectStrategy context
  if pipeline.skips context then []
  else
    match pipeline.llmClient.generate 0 (pipeline.promptBuilder.build context strategy) with
    | .failure _ => []
    | .rawText rawText =>
      textsFrom pipeline.parse (pipeline.repair context strategy)
        pipeline.responseValidator.maxRepairAttempts 0 rawText

/-- **A run trades on the validated answer of its last text, and only then.** -/
theorem run_trade_iff (pipeline : AnalysisPipeline) (request : AnalyzeRequest) (action : Action)
    (htrade : action ≠ .HOLD) :
    (pipeline.run request).action = action ↔
      ∃ text output, (obtainedTexts pipeline request).getLast? = some text ∧
        pipeline.parse text = .ok output ∧
        (validateSignalSemantics (buildContext request) output
          pipeline.responseValidator.thresholds).output.action = action := by
  unfold AnalysisPipeline.run obtainedTexts
  by_cases hskip : pipeline.skips (buildContext request) = true
  · simp [hskip, buildHold, htrade.symm]
  · cases hresponse : pipeline.llmClient.generate 0
        (pipeline.promptBuilder.build (buildContext request)
          (selectStrategy (buildContext request))) with
    | failure reason => simp [hskip, hresponse, buildHold, htrade.symm]
    | rawText rawText =>
      have hparsed := fun output final =>
        @validateLoop_parsed_iff pipeline.parse
          (pipeline.repair (buildContext request) (selectStrategy (buildContext request)))
          pipeline.responseValidator.maxRepairAttempts 0 rawText output final
      simp only [hskip, hresponse, ResponseValidator.validate]
      cases hloop : validateLoop pipeline.parse
          (some (pipeline.repair (buildContext request) (selectStrategy (buildContext request))))
          pipeline.responseValidator.maxRepairAttempts 0 rawText with
      | failed reason repaired final =>
        constructor
        · intro h
          exact absurd h.symm htrade
        · rintro ⟨text, output, hlast, hparse, _⟩
          obtain ⟨_, hcontra⟩ := (hparsed output text).mpr ⟨hlast, hparse⟩
          rw [hloop] at hcontra
          cases hcontra
      | parsed found repaired final =>
        obtain ⟨hlast, hparse⟩ := (hparsed found final).mp ⟨repaired, hloop⟩
        constructor
        · intro h
          exact ⟨final, found, hlast, hparse, h⟩
        · rintro ⟨text, output, hlast', hparse', h⟩
          have htext : final = text := Option.some.inj (hlast.symm.trans hlast')
          subst htext
          have houtput : found = output := Except.ok.inj (hparse.symm.trans hparse')
          subst houtput
          exact h

/-- Only the last text a run obtains can parse. -/
theorem obtainedTexts_getLast {pipeline : AnalysisPipeline} {request : AnalyzeRequest}
    {text : String} {output : LLMOutput} (hmem : text ∈ obtainedTexts pipeline request)
    (hparse : pipeline.parse text = .ok output) :
    (obtainedTexts pipeline request).getLast? = some text := by
  unfold obtainedTexts at hmem ⊢
  by_cases hskip : pipeline.skips (buildContext request) = true
  · simp [hskip] at hmem
  · cases hresponse : pipeline.llmClient.generate 0
        (pipeline.promptBuilder.build (buildContext request)
          (selectStrategy (buildContext request))) with
    | failure reason => simp [hskip, hresponse] at hmem
    | rawText rawText =>
      simp only [hskip, hresponse] at hmem ⊢
      exact getLast_of_parses hmem hparse

/-- What a `BUY` of a run rests on: the last text obtained parses to `BUY`, and the context
supports it. -/
def BuyWarranted (pipeline : AnalysisPipeline) (request : AnalyzeRequest) : Prop :=
  (∃ text output, (obtainedTexts pipeline request).getLast? = some text ∧
    pipeline.parse text = .ok output ∧ output.action = .BUY) ∧
  EntryConfirmed (buildContext request)

/-- What a `SELL` of a run rests on: an open position with a known PnL and a text that
parses, where the PnL is past the emergency threshold or the text is a `SELL` the rubric
confirms. -/
def SellWarranted (pipeline : AnalysisPipeline) (request : AnalyzeRequest) : Prop :=
  ∃ pnl, OpenAt (buildContext request) pnl ∧
    ∃ text ∈ obtainedTexts pipeline request, ∃ output, pipeline.parse text = .ok output ∧
      (PastHardCut pipeline.responseValidator.thresholds pnl ∨
        output.action = .SELL ∧ BeyondCushion pipeline.responseValidator.thresholds pnl ∧
          ExitConfirmed (buildContext request))

/-- **The pipeline fails closed.**  A run is a `BUY` or a `SELL` exactly where that trade is
warranted, and a `HOLD` in every other case, whatever the provider and the repairs return. -/
theorem run_fails_closed (pipeline : AnalysisPipeline) (request : AnalyzeRequest) :
    ((pipeline.run request).action = .BUY ↔ BuyWarranted pipeline request) ∧
      ((pipeline.run request).action = .SELL ↔ SellWarranted pipeline request) ∧
      ((pipeline.run request).action = .HOLD ↔
        ¬BuyWarranted pipeline request ∧ ¬SellWarranted pipeline request) := by
  have hbuy : (pipeline.run request).action = .BUY ↔ BuyWarranted pipeline request := by
    rw [run_trade_iff pipeline request .BUY (by simp)]
    simp only [semantic_buy_iff, BuyWarranted]
    constructor
    · rintro ⟨text, output, hlast, hparse, hact, hentry⟩
      exact ⟨⟨text, output, hlast, hparse, hact⟩, hentry⟩
    · rintro ⟨⟨text, output, hlast, hparse, hact⟩, hentry⟩
      exact ⟨text, output, hlast, hparse, hact, hentry⟩
  have hsell : (pipeline.run request).action = .SELL ↔ SellWarranted pipeline request := by
    rw [run_trade_iff pipeline request .SELL (by simp)]
    simp only [semantic_sell_iff, SellWarranted]
    constructor
    · rintro ⟨text, output, hlast, hparse, pnl, hopen, hwhy⟩
      exact ⟨pnl, hopen, text, List.mem_of_getLast? hlast, output, hparse, hwhy⟩
    · rintro ⟨pnl, hopen, text, hmem, output, hparse, hwhy⟩
      exact ⟨text, output, obtainedTexts_getLast hmem hparse, hparse, pnl, hopen, hwhy⟩
  refine ⟨hbuy, hsell, ?_⟩
  rw [← hbuy, ← hsell]
  cases (pipeline.run request).action <;> simp

/-! ## With and without the prefilter -/

/-- Where the rubric lets no answer through, a run that asks the model holds. -/
theorem run_hold_of_cannot_change {pipeline : AnalysisPipeline} {request : AnalyzeRequest}
    (h : llmCanChangeOutcome (buildContext request)
      pipeline.responseValidator.thresholds = false) :
    (pipeline.run request).action = .HOLD := by
  by_contra htrade
  obtain ⟨text, output, _, _, hact⟩ := (run_trade_iff pipeline request _ htrade).mp rfl
  have hcan := @llmCanChangeOutcome_of_trade (buildContext request) output
    pipeline.responseValidator.thresholds (by rw [hact]; exact htrade)
  rw [h] at hcan
  cases hcan

/-- A pipeline whose prefilter does not skip runs as the one without it. -/
theorem run_eq_of_not_skips {pipeline : AnalysisPipeline} {request : AnalyzeRequest}
    (h : pipeline.skips (buildContext request) = false) :
    pipeline.run request = { pipeline with prefilter := none }.run request := by
  have hwithout : { pipeline with prefilter := none }.skips (buildContext request) = false := rfl
  simp only [AnalysisPipeline.run, h, hwithout]
  rfl

/-- **The prefilter is decision-neutral.**  It calls the model exactly where some accepted
answer ends in a trade, which is where the natural answer stands; and a run with the
prefilter decides as the run without it, `HOLD` where the call is skipped. -/
theorem prefilter_neutral (settings : LLMServiceSettings) (request : AnalyzeRequest) :
    let context := buildContext request
    let thresholds := settings.thresholds
    (llmCanChangeOutcome context thresholds = true ↔ ∃ output : LLMOutput, output.Accepted ∧
      (validateSignalSemantics context output thresholds).output.action ≠ .HOLD) ∧
    (llmCanChangeOutcome context thresholds = true ↔ ∃ output : LLMOutput, output.Accepted ∧
      output.action = naturalAction context ∧
      (validateSignalSemantics context output thresholds).output.action =
        naturalAction context) ∧
    (llmCanChangeOutcome context thresholds = true ↔ ∀ output : LLMOutput, output.Accepted →
      output.action = naturalAction context →
      (validateSignalSemantics context output thresholds).output.action =
        naturalAction context) ∧
    ∀ (llmClient : LLMClient) (parse : Parser) (systemPromptV1 : String)
      (buildUserPrompt : AnalyzeRequest → String),
      let runWith := fun enabled => (buildPipeline llmClient parse systemPromptV1
        buildUserPrompt { settings with llmPrefilterEnabled := enabled }).run request
      (runWith true).action = (runWith false).action ∧
        (shouldSkipLlm thresholds context = true → (runWith true).action = .HOLD) := by
  intro context thresholds
  have hplain := plainOutput_accepted (naturalAction context)
  have hnatural := naturalAction_ne_hold context
  refine ⟨⟨?_, ?_⟩, ⟨?_, ?_⟩, ⟨?_, ?_⟩, ?_⟩
  · intro h
    exact ⟨_, hplain, by rw [natural_stands h _ rfl]; exact hnatural⟩
  · rintro ⟨output, _, htrade⟩
    exact llmCanChangeOutcome_of_trade htrade
  · intro h
    exact ⟨_, hplain, rfl, natural_stands h _ rfl⟩
  · rintro ⟨output, _, _, hstands⟩
    exact llmCanChangeOutcome_of_trade (by rw [hstands]; exact hnatural)
  · intro h output _ hnat
    exact natural_stands h output hnat
  · intro h
    exact llmCanChangeOutcome_of_trade (by rw [h _ hplain rfl]; exact hnatural)
  · intro llmClient parse systemPromptV1 buildUserPrompt runWith
    cases hcan : llmCanChangeOutcome context thresholds with
    | true =>
      -- the call is not skipped: both runs ask the model, with the same validator
      have hskip : shouldSkipLlm thresholds context = false := by simp [shouldSkipLlm, hcan]
      have heq : runWith true = runWith false := run_eq_of_not_skips hskip
      exact ⟨congrArg TradingSignal.action heq, fun h => absurd (hskip.symm.trans h) (by simp)⟩
    | false =>
      have hwith : (runWith true).action = .HOLD := run_hold_of_cannot_change hcan
      have hwithout : (runWith false).action = .HOLD := run_hold_of_cannot_change hcan
      exact ⟨hwith.trans hwithout.symm, fun _ => hwith⟩

end TradeMind.Analysis
