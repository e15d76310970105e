import TradeMind.Library.WhileLoop
import TradeMind.Model.AnalysisPipeline

/-!
# The repair loop of the response validator

`validate` runs a `while True` that parses a text, asks for a repair where it does not parse
and goes round with the repaired one.  `textAt` is the sequence of these texts.  `AtHead` is
what holds at the head of the loop: it is at text `attemptsUsed` of the sequence, no text
before it parsed, and one call was made for each of them.  The three ways out of an iteration
(`iterate_exit`) then say what the loop ends with.
-/

set_option autoImplicit false

namespace TradeMind.Analysis

open TradeMind.Library TradeMind.Model TradeMind.Model.Llm

/-- The texts of `validate`: the raw text, and after a text that does not parse its repair.
There is none after one that parses, without a repair function, or where the call brought
nothing. -/
def textAt (parse : Parser) (repair : Option RepairFn) (rawText : String) : ℕ → Option String
  | 0 => some rawText
  | k + 1 =>
    match textAt parse repair rawText k, repair with
    | some text, some repairFn =>
      match parse text with
      | .ok _ => none
      | .error reason => repairFn k text reason
    | _, _ => none

/-- The text `k` does not parse, with the reason why. -/
def FailsAt (parse : Parser) (repair : Option RepairFn) (rawText : String) (k : ℕ)
    (text reason : String) : Prop :=
  textAt parse repair rawText k = some text ∧ parse text = .error reason

section Loop

variable {validator : ResponseValidator} {parse : Parser} {repair : Option RepairFn}
  {rawText : String}

/-- The text after one that fails is its repair. -/
theorem textAt_succ {repairFn : RepairFn} {k : ℕ} {text reason : String}
    (h : FailsAt parse (some repairFn) rawText k text reason) :
    textAt parse (some repairFn) rawText (k + 1) = repairFn k text reason := by
  simp only [textAt, h.1, h.2]

/-- Without a repair function there is only the raw text. -/
theorem textAt_none_succ (k : ℕ) : textAt parse none rawText (k + 1) = none := by
  rw [textAt]
  simp

/-- The text before a text of the sequence is there and does not parse. -/
theorem fails_of_textAt_succ {k : ℕ} {text : String}
    (h : textAt parse repair rawText (k + 1) = some text) :
    ∃ before reason, FailsAt parse repair rawText k before reason := by
  cases hbefore : textAt parse repair rawText k with
  | none => simp [textAt, hbefore] at h
  | some before =>
    cases repair with
    | none => simp [textAt] at h
    | some repairFn =>
      cases hparse : parse before with
      | ok output => simp [textAt, hbefore, hparse] at h
      | error reason => exact ⟨before, reason, hbefore, hparse⟩

/-- Every text before a text of the sequence is there and does not parse. -/
theorem fails_before {k : ℕ} {text : String} (h : textAt parse repair rawText k = some text) :
    ∀ j < k, ∃ before reason, FailsAt parse repair rawText j before reason := by
  intro j hj
  induction k generalizing text with
  | zero => omega
  | succ k ih =>
    obtain ⟨before, reason, hbefore⟩ := fails_of_textAt_succ h
    by_cases hjk : j = k
    · exact hjk ▸ ⟨before, reason, hbefore⟩
    · exact ih hbefore.1 (by omega)

theorem FailsAt.not_parses {k : ℕ} {failed text reason : String} {output : LLMOutput}
    (h : FailsAt parse repair rawText k failed reason)
    (htext : textAt parse repair rawText k = some text) : parse text ≠ .ok output := by
  intro hparse
  obtain ⟨hfailed, hfails⟩ := h
  rw [htext] at hfailed
  cases hfailed
  rw [hparse] at hfails
  cases hfails

/-- There is no text after one that parses. -/
theorem le_of_parses {j k : ℕ} {text later : String} {output : LLMOutput}
    (htext : textAt parse repair rawText j = some text) (hparse : parse text = .ok output)
    (hlater : textAt parse repair rawText k = some later) : k ≤ j := by
  by_contra hlt
  obtain ⟨before, reason, hfails⟩ := fails_before hlater j (by omega)
  exact hfails.not_parses htext hparse

/-! ## The head of the loop -/

/-- What holds at the head of the loop: the variables describe the text it is at, and each
call so far was for the text of its number. -/
structure AtHead (validator : ResponseValidator) (parse : Parser) (repair : Option RepairFn)
    (rawText : String) (state : RepairState) : Prop where
  reached : textAt parse repair rawText state.attemptsUsed = some state.attemptText
  within : state.attemptsUsed ≤ validator.maxRepairAttempts
  attempted : state.repairAttempted = decide (state.attemptsUsed ≠ 0)
  counted : state.calls.length = state.attemptsUsed
  called : ∀ k call, state.calls[k]? = some call →
    FailsAt parse repair rawText k call.1 call.2

/-- The loop is entered with the raw text and no call made. -/
theorem atHead_start :
    AtHead validator parse repair rawText { attemptText := rawText } where
  reached := rfl
  within := Nat.zero_le _
  attempted := rfl
  counted := rfl
  called := by simp

/-- The calls so far and one more for the text at the head. -/
theorem called_append {state : RepairState} {reason : String}
    (h : AtHead validator parse repair rawText state)
    (hparse : parse state.attemptText = .error reason) :
    ∀ k call, (state.calls ++ [(state.attemptText, reason)])[k]? = some call →
      FailsAt parse repair rawText k call.1 call.2 := by
  intro k call hcall
  rw [List.getElem?_append] at hcall
  split at hcall
  · exact h.called k call hcall
  · have hcount := h.counted
    have hk : k - state.calls.length = 0 := by
      by_contra hne
      rw [List.getElem?_eq_none (by simp; omega)] at hcall
      cases hcall
    rw [hk] at hcall
    cases Option.some.inj hcall
    have hkused : k = state.attemptsUsed := by omega
    exact ⟨hkused ▸ h.reached, hparse⟩

theorem iterate_again {state next : RepairState}
    (h : validator.iterate parse repair state = .inl next) :
    ∃ repairFn reason repairedText, repair = some repairFn ∧
      parse state.attemptText = .error reason ∧
      state.attemptsUsed < validator.maxRepairAttempts ∧
      repairFn state.attemptsUsed state.attemptText reason = some repairedText ∧
      next = { attemptText := repairedText, attemptsUsed := state.attemptsUsed + 1,
               repairAttempted := true,
               calls := state.calls ++ [(state.attemptText, reason)] } := by
  unfold ResponseValidator.iterate at h
  cases hparse : parse state.attemptText with
  | ok output => simp [hparse] at h
  | error reason =>
    cases repair with
    | none => simp [hparse] at h
    | some repairFn =>
      by_cases hmax : validator.maxRepairAttempts ≤ state.attemptsUsed
      · simp [hparse, hmax] at h
      · cases hrepair : repairFn state.attemptsUsed state.attemptText reason with
        | none => simp [hparse, hmax, hrepair] at h
        | some repairedText =>
          simp only [hparse, hmax, hrepair, ↓reduceIte, Sum.inl.injEq] at h
          exact ⟨repairFn, reason, repairedText, rfl, rfl, by omega, hrepair, h.symm⟩

/-- An iteration that goes round keeps what holds at the head. -/
theorem atHead_again {state next : RepairState}
    (h : AtHead validator parse repair rawText state)
    (hbody : validator.iterate parse repair state = .inl next) :
    AtHead validator parse repair rawText next := by
  obtain ⟨repairFn, reason, repairedText, rfl, hparse, hlt, hrepair, rfl⟩ :=
    iterate_again hbody
  exact {
    reached := (textAt_succ ⟨h.reached, hparse⟩).trans hrepair
    within := hlt
    attempted := by simp
    counted := by simp [h.counted]
    called := called_append h hparse }

/-- **How the loop can be left at the head.**  With the text that parses, or with the reason of
one that does not where no repair is left or the repair called for brought nothing. -/
inductive Leaves (validator : ResponseValidator) (parse : Parser) (repair : Option RepairFn)
    (state : RepairState) : StructuralResult × List (String × String) → Prop
  | parsed {output : LLMOutput} (h : parse state.attemptText = .ok output) :
      Leaves validator parse repair state
        (.parsed output state.repairAttempted state.attemptText, state.calls)
  | spent {reason : String} (h : parse state.attemptText = .error reason)
      (hstop : repair = none ∨ validator.maxRepairAttempts ≤ state.attemptsUsed) :
      Leaves validator parse repair state
        (.failed reason state.repairAttempted state.attemptText, state.calls)
  | unusable {repairFn : RepairFn} {reason : String} (hfn : repair = some repairFn)
      (h : parse state.attemptText = .error reason)
      (hlt : state.attemptsUsed < validator.maxRepairAttempts)
      (hnone : repairFn state.attemptsUsed state.attemptText reason = none) :
      Leaves validator parse repair state
        (.failed reason true state.attemptText, state.calls ++ [(state.attemptText, reason)])

/-- What an iteration that leaves the loop is. -/
theorem iterate_exit {state : RepairState}
    {result : StructuralResult × List (String × String)}
    (h : validator.iterate parse repair state = .inr result) :
    Leaves validator parse repair state result := by
  unfold ResponseValidator.iterate at h
  cases hparse : parse state.attemptText with
  | ok output =>
    simp only [hparse, Sum.inr.injEq] at h
    exact h ▸ .parsed hparse
  | error reason =>
    cases repair with
    | none =>
      simp only [hparse, Sum.inr.injEq] at h
      exact h ▸ .spent hparse (.inl rfl)
    | some repairFn =>
      by_cases hmax : validator.maxRepairAttempts ≤ state.attemptsUsed
      · simp only [hparse, hmax, ↓reduceIte, Sum.inr.injEq] at h
        exact h ▸ .spent hparse (.inr hmax)
      · cases hrepair : repairFn state.attemptsUsed state.attemptText reason with
        | none =>
          simp only [hparse, hmax, hrepair, ↓reduceIte, Sum.inr.injEq] at h
          exact h ▸ .unusable rfl hparse (by omega) hrepair
        | some repairedText => simp [hparse, hmax, hrepair] at h

/-! ## The run of the loop -/

/-- From the head of the loop the body runs to the result of `validateLoop`. -/
theorem validateLoop_runs (attempts : ℕ) {state : RepairState}
    (hleft : state.attemptsUsed + attempts = validator.maxRepairAttempts)
    (hattempted : state.repairAttempted = decide (state.attemptsUsed ≠ 0)) :
    ∃ n calls, LoopRuns (validator.iterate parse repair) state n
      (validateLoop parse repair attempts state.attemptsUsed state.attemptText, calls) := by
  -- the attempts left are the ones the body has not used
  induction attempts generalizing state with
  | zero =>
    have hmax : validator.maxRepairAttempts ≤ state.attemptsUsed := by omega
    rw [validateLoop]
    cases hparse : parse state.attemptText with
    | ok output =>
      refine ⟨1, state.calls, .exit ?_⟩
      simp [ResponseValidator.iterate, hparse, hattempted]
    | error reason =>
      refine ⟨1, state.calls, .exit ?_⟩
      cases repair <;> simp [ResponseValidator.iterate, hparse, hattempted, hmax]
  | succ attempts ih =>
    have hmax : ¬validator.maxRepairAttempts ≤ state.attemptsUsed := by omega
    rw [validateLoop]
    cases hparse : parse state.attemptText with
    | ok output =>
      refine ⟨1, state.calls, .exit ?_⟩
      simp [ResponseValidator.iterate, hparse, hattempted]
    | error reason =>
      cases repair with
      | none =>
        refine ⟨1, state.calls, .exit ?_⟩
        simp [ResponseValidator.iterate, hparse, hattempted]
      | some repairFn =>
        cases hrepair : repairFn state.attemptsUsed state.attemptText reason with
        | none =>
          refine ⟨1, state.calls ++ [(state.attemptText, reason)], .exit ?_⟩
          simp [ResponseValidator.iterate, hparse, hmax, hrepair]
        | some repairedText =>
          obtain ⟨n, calls, hrun⟩ := @ih
            { attemptText := repairedText, attemptsUsed := state.attemptsUsed + 1,
              repairAttempted := true, calls := state.calls ++ [(state.attemptText, reason)] }
            (by simp only; omega) (by simp)
          simp only [hrepair]
          refine ⟨n + 1, calls, .again ?_ hrun⟩
          simp [ResponseValidator.iterate, hparse, hmax, hrepair]

/-- The loop is left after at most one iteration for each repair and one more. -/
theorem iterations_le : ∃ n ≤ validator.maxRepairAttempts + 1, ∃ ending,
    LoopRuns (validator.iterate parse repair) { attemptText := rawText } n ending := by
  have hfall : ∀ state next, validator.iterate parse repair state = .inl next →
      validator.maxRepairAttempts - next.attemptsUsed <
        validator.maxRepairAttempts - state.attemptsUsed := by
    intro state next hbody
    obtain ⟨_, _, _, _, _, hlt, _, rfl⟩ := iterate_again hbody
    simp only
    omega
  exact loopRuns_of_measure
    (fun state : RepairState => validator.maxRepairAttempts - state.attemptsUsed) hfall
    { attemptText := rawText }

/-- **How `validate` leaves its loop.**  At a head that meets the invariant, with the result of
`validateLoop`. -/
theorem validateLoop_leaves (validator : ResponseValidator) (parse : Parser)
    (repair : Option RepairFn) (rawText : String) :
    ∃ n ≤ validator.maxRepairAttempts + 1, ∃ calls state,
      LoopRuns (validator.iterate parse repair) { attemptText := rawText } n
        (validateLoop parse repair validator.maxRepairAttempts 0 rawText, calls) ∧
      AtHead validator parse repair rawText state ∧
      Leaves validator parse repair state
        (validateLoop parse repair validator.maxRepairAttempts 0 rawText, calls) := by
  obtain ⟨n, hn, ending, hterminates⟩ := @iterations_le validator parse repair rawText
  obtain ⟨m, calls, hrun⟩ := @validateLoop_runs validator parse repair
    validator.maxRepairAttempts { attemptText := rawText } (Nat.zero_add _) rfl
  obtain ⟨rfl, rfl⟩ := hterminates.unique hrun
  obtain ⟨state, hhead, hexit⟩ :=
    hrun.exit_inv atHead_start fun _ _ hstate hbody => atHead_again hstate hbody
  exact ⟨n, hn, calls, state, hrun, hhead, iterate_exit hexit⟩

section Ending

variable {state : RepairState} {ending : StructuralResult} {calls : List (String × String)}

/-- The calls of the whole loop are no more than the validator allows, each for the text of
its number. -/
theorem calls_of_leaves (hhead : AtHead validator parse repair rawText state)
    (h : Leaves validator parse repair state (ending, calls)) :
    calls.length ≤ validator.maxRepairAttempts ∧
      ∀ k call, calls[k]? = some call → FailsAt parse repair rawText k call.1 call.2 := by
  have hcount := hhead.counted
  have hwithin := hhead.within
  cases h with
  | parsed _ => exact ⟨by omega, hhead.called⟩
  | spent _ _ => exact ⟨by omega, hhead.called⟩
  | unusable _ hparse hlt _ =>
    constructor
    · simp only [List.length_append, List.length_singleton]
      omega
    · exact called_append hhead hparse

/-- Where the loop fails there was no repair left, or there is no text after the last one. -/
theorem failed_of_leaves (hhead : AtHead validator parse repair rawText state)
    {reason final : String} {repaired : Bool}
    (h : Leaves validator parse repair state (.failed reason repaired final, calls)) :
    FailsAt parse repair rawText state.attemptsUsed final reason ∧
      (state.attemptsUsed = validator.maxRepairAttempts ∨
        textAt parse repair rawText (state.attemptsUsed + 1) = none) := by
  have hwithin := hhead.within
  cases h with
  | spent hparse hstop =>
    refine ⟨⟨hhead.reached, hparse⟩, ?_⟩
    cases hstop with
    | inl hnone =>
      subst hnone
      exact .inr (textAt_none_succ _)
    | inr hmax => exact .inl (by omega)
  | unusable hfn hparse _ hnone =>
    subst hfn
    exact ⟨⟨hhead.reached, hparse⟩, .inr ((textAt_succ ⟨hhead.reached, hparse⟩).trans hnone)⟩

/-- No text within the repairs parses where the loop fails. -/
theorem not_parses_of_failed (hhead : AtHead validator parse repair rawText state)
    {reason final : String} {repaired : Bool}
    (h : Leaves validator parse repair state (.failed reason repaired final, calls))
    {k : ℕ} (hk : k ≤ validator.maxRepairAttempts) {text : String} {output : LLMOutput}
    (htext : textAt parse repair rawText k = some text) (hparse : parse text = .ok output) :
    False := by
  obtain ⟨hfails, hstop⟩ := failed_of_leaves hhead h
  have hreached : state.attemptsUsed ≤ k := le_of_parses htext hparse hfails.1
  have hother : k ≠ state.attemptsUsed := by
    rintro rfl
    exact hfails.not_parses htext hparse
  -- a later text would need the one right after the last
  have hnone : textAt parse repair rawText (state.attemptsUsed + 1) = none :=
    hstop.resolve_left (by omega)
  by_cases hnext : k = state.attemptsUsed + 1
  · rw [hnext, hnone] at htext
    cases htext
  · obtain ⟨_, _, hthere, _⟩ := fails_before htext (state.attemptsUsed + 1) (by omega)
    rw [hnone] at hthere
    cases hthere

/-- Two texts of the sequence that parse are the same. -/
theorem parses_unique {j k : ℕ} {text text' : String} {output output' : LLMOutput}
    (htext : textAt parse repair rawText j = some text) (hparse : parse text = .ok output)
    (htext' : textAt parse repair rawText k = some text') (hparse' : parse text' = .ok output') :
    j = k ∧ text = text' ∧ output = output' := by
  obtain rfl : j = k :=
    (le_of_parses htext' hparse' htext).antisymm (le_of_parses htext hparse htext')
  rw [htext] at htext'
  cases htext'
  rw [hparse] at hparse'
  cases hparse'
  exact ⟨rfl, rfl, rfl⟩

end Ending

end Loop

/-- **`validate` ends and takes the first text that parses.**  Its loop ends with at most
`max_repair_attempts` repair calls.  The result is valid exactly where one of the texts
`0 .. max_repair_attempts` parses, and then is the semantic validation of that text, the first
to parse.  Otherwise it holds no output and the reason of the last text tried. -/
theorem validate_first_parsable (validator : ResponseValidator) (parse : Parser)
    (rawText : String) (context : MarketContext) (repair : Option RepairFn) :
    let result := validator.validate parse rawText context repair
    (∃ iterations calls, LoopRuns (validator.iterate parse repair) { attemptText := rawText }
        iterations (validateLoop parse repair validator.maxRepairAttempts 0 rawText, calls) ∧
      calls.length ≤ validator.maxRepairAttempts ∧
      ∀ k call, calls[k]? = some call → FailsAt parse repair rawText k call.1 call.2) ∧
    (result.isValid = true ↔ ∃ k ≤ validator.maxRepairAttempts, ∃ text output,
      textAt parse repair rawText k = some text ∧ parse text = .ok output) ∧
    (∀ k ≤ validator.maxRepairAttempts, ∀ text output,
      textAt parse repair rawText k = some text → parse text = .ok output →
        (∀ j < k, ∃ before reason, FailsAt parse repair rawText j before reason) ∧
        result =
          let semantic := validateSignalSemantics context output validator.thresholds
          .valid semantic.output output.action semantic.actionChanged
            semantic.exitConfirmations (decide (k ≠ 0)) text) ∧
    (result.isValid = false → result.output = none ∧
      ∃ k ≤ validator.maxRepairAttempts, ∃ text reason,
        FailsAt parse repair rawText k text reason ∧
        (k = validator.maxRepairAttempts ∨ textAt parse repair rawText (k + 1) = none) ∧
        result.failureReason = some reason) := by
  intro result
  obtain ⟨iterations, _, calls, state, hrun, hhead, hleaves⟩ :=
    validateLoop_leaves validator parse repair rawText
  obtain ⟨hcalls, hcalled⟩ := calls_of_leaves hhead hleaves
  refine ⟨⟨iterations, calls, hrun, hcalls, hcalled⟩, ?_⟩
  cases hloop : validateLoop parse repair validator.maxRepairAttempts 0 rawText with
  | parsed found repaired final =>
    rw [hloop] at hleaves
    cases hleaves with
    | parsed hparse =>
      have hresult : result =
          let semantic := validateSignalSemantics context found validator.thresholds
          .valid semantic.output found.action semantic.actionChanged
            semantic.exitConfirmations (decide (state.attemptsUsed ≠ 0)) state.attemptText := by
        simp only [result, ResponseValidator.validate, hloop, hhead.attempted]
      refine ⟨?_, ?_, ?_⟩
      · simp only [hresult, ValidationResult.isValid, true_iff]
        exact ⟨_, hhead.within, _, _, hhead.reached, hparse⟩
      · intro k _ text output htext hparse'
        obtain ⟨rfl, rfl, rfl⟩ := parses_unique hhead.reached hparse htext hparse'
        exact ⟨fails_before htext, hresult⟩
      · intro hinvalid
        rw [hresult] at hinvalid
        cases hinvalid
  | failed reason repaired final =>
    rw [hloop] at hleaves
    have hresult : result = .invalid reason repaired final := by
      simp only [result, ResponseValidator.validate, hloop]
    have hnot := fun {k} (hk : k ≤ validator.maxRepairAttempts) {text} {output} =>
      @not_parses_of_failed _ _ _ _ _ _ hhead _ _ _ hleaves k hk text output
    refine ⟨?_, ?_, ?_⟩
    · simp only [hresult, ValidationResult.isValid, Bool.false_eq_true, false_iff]
      rintro ⟨k, hk, text, output, htext, hparse⟩
      exact hnot hk htext hparse
    · intro k hk text output htext hparse
      exact (hnot hk htext hparse).elim
    · intro _
      obtain ⟨hfails, hstop⟩ := failed_of_leaves hhead hleaves
      rw [hresult]
      exact ⟨rfl, _, hhead.within, _, _, hfails, hstop, rfl⟩

end TradeMind.Analysis
