import TradeMind.Analysis.SignalEffects

/-!
# When an attempt raises

An attempt raises if and only if one of the awaited steps on its way does.  `AttemptRaises`
lists those steps, each with what the attempt has come through before it; it looks at the
delivery and the world the delivery finds, and at nothing the attempt makes of them.
-/

set_option autoImplicit false

namespace TradeMind.Analysis

open TradeMind.Library TradeMind.Model

/-- The trade id `_submit_exit_order` finds behind the open position of the pair. -/
def exitTradeId (db : Database) (d : Delivery) (signal : Signal) : Option ℤ :=
  (d.rows.positions.first (db.positions.filter fun p =>
    p.symbol = signal.symbol ∧ p.status = .OPEN)).bind fun position =>
      (db.getOrder position.entryOrderId).bind Order.freqtradeTradeId

/-- The order half of an approved fresh signal raises: a force-entry answer that is not an
object, or a failing read or flush of the exit. -/
def SubmissionRaises (w : World) (d : Delivery) (signal : Signal)
    (balance : AccountBalanceSnapshot) : Prop :=
  (signal.action ≠ .SELL ∧ (entryEvaluation w d signal balance false).approved = true ∧
      d.forceenterReply = .notObject) ∨
    (signal.action = .SELL ∧ (exitEvaluation w d signal balance false).approved = true ∧
      (d.fails .submitRead = true ∨
        d.fails .submitFlush = true ∧ (exitTradeId w.db d signal).isSome = true))

/-- Something raises once the idempotency key has been asked for. -/
def DecisionRaises (w : World) (d : Delivery) (signal : Signal)
    (balance : AccountBalanceSnapshot) (isDuplicate : Bool) : Prop :=
  EvaluationRaises w d signal balance isDuplicate ∨
    (isDuplicate = false ∧ SubmissionRaises w d signal balance) ∨ d.fails .commit = true

/-- Something raises in `process_signal`. -/
def ProcessingRaises (w : World) (d : Delivery) : Prop :=
  d.fails .loadSignal = true ∨ ∃ signal, w.db.getSignal d.signalId = some signal ∧
    match getAccountBalance d.balance d.now with
    | none => d.fails .auditWrite = true ∨ d.fails .commit = true
    | some balance => d.fails .publishBalance = true ∨ d.fails .claimKey = true ∨
        DecisionRaises w d signal balance (decide (w.redis.holds signal.id d.now))

/-- Something raises in `_handle_message`. -/
def AttemptRaises (w : World) (d : Delivery) : Prop :=
  d.fails .loadConfig = true ∨ ProcessingRaises w d

variable {w : World} {d : Delivery} {signal : Signal}

/-! ## The order half -/

/-- `_submit_entry_order` raises exactly on an answer that is not an object. -/
theorem submitEntryOrder_raises_iff (session : Database) (decisionId : Uuid)
    (sizeUsdt sizeBase : ℚ) (stop : Option ℚ) :
    (submitEntryOrder d session signal decisionId sizeUsdt sizeBase stop).1 = none ↔
      d.forceenterReply = .notObject := by
  have hforceenter : (forceenter d.forceenterReply signal.symbol sizeUsdt
      (entryTagOf signal stop)).1 = .raised ↔ d.forceenterReply = .notObject := by
    unfold forceenter
    dsimp only
    split
    · rename_i hreply
      simp [hreply]
    · rename_i hreply
      simp [hreply]
    · rename_i hreply
      simp [hreply]
    · rename_i response hreply
      split
      · split <;> simp [hreply]
      · simp [hreply]
  rw [← hforceenter]
  unfold submitEntryOrder
  dsimp only
  split
  · rename_i hraised
    simp [hraised]
  · rename_i hunavailable
    simp [hunavailable]
  · rename_i body hok
    simp [hok]

/-- `_submit_exit_order` raises exactly where its read does, or its flush of an order. -/
theorem submitExitOrder_raises_iff (session : Database) (decisionId : Uuid) :
    (submitExitOrder d session signal decisionId).1 = none ↔
      d.fails .submitRead = true ∨
        d.fails .submitFlush = true ∧ (exitTradeId session d signal).isSome = true := by
  unfold submitExitOrder
  split
  · rename_i hread
    simp [hread]
  · rename_i hread
    split
    · rename_i hposition
      have hnone : exitTradeId session d signal = none := by
        rw [exitTradeId, hposition, Option.bind_none]
      simp [hread, hnone]
    · rename_i position hposition
      split
      · rename_i htrade
        have hnone : exitTradeId session d signal = none := by
          rw [exitTradeId, hposition, Option.bind_some, htrade]
        simp [hread, hnone]
      · rename_i tradeId htrade
        have hsome : exitTradeId session d signal = some tradeId := by
          rw [exitTradeId, hposition, Option.bind_some, htrade]
        dsimp only
        split
        · rename_i hflush
          simp [hsome, hflush]
        · rename_i hflush
          simp [hread, hflush]

/-- The session's book shows the exit the committed book shows. -/
theorem exitTradeId_of_sameBook {db session : Database} (h : SameBook db session) :
    exitTradeId session d signal = exitTradeId db d signal := by
  unfold exitTradeId Database.getOrder
  rw [h.positions, h.orders]

/-- The order half of an entry raises on an approval that gets no object for an answer. -/
theorem submitApprovedEntry_raises_iff (session : Database) (id : Uuid)
    {balance : AccountBalanceSnapshot} {isDuplicate : Bool} :
    (submitApprovedEntry d session signal id (entryEvaluation w d signal balance isDuplicate)).1 =
        none ↔
      (entryEvaluation w d signal balance isDuplicate).approved = true ∧
        d.forceenterReply = .notObject := by
  cases hresult : (entryEvaluation w d signal balance isDuplicate).approved with
  | false => simp [submitApprovedEntry, hresult]
  | true =>
    obtain ⟨sizeUsdt, sizeBase, hsubmit⟩ := submitApprovedEntry_approved session id hresult
    rw [hsubmit, submitEntryOrder_raises_iff]
    simp

/-- The order half of an exit raises on an approval whose read or flush fails. -/
theorem submitApprovedExit_raises_iff {session : Database} (h : SameBook w.db session)
    (id : Uuid) (result : ExitDecisionResult) :
    (submitApprovedExit d session signal id result).1 = none ↔
      result.approved = true ∧ (d.fails .submitRead = true ∨
        d.fails .submitFlush = true ∧ (exitTradeId w.db d signal).isSome = true) := by
  unfold submitApprovedExit
  split
  · rename_i happroved
    rw [submitExitOrder_raises_iff, exitTradeId_of_sameBook h]
    simp [happroved]
  · rename_i hrejected
    simp [hrejected]

/-! ## The attempt -/

/-- A commit raises where it is said to. -/
theorem commit_raised_iff (w : World) (session : Database) (calls : List FreqtradeCall)
    (decision : RiskDecision) :
    (w.commit d session calls decision).outcome = .raised ↔ d.fails .commit = true := by
  unfold World.commit Delivery.fails
  split
  · rename_i hfault
    simp [hfault]
  · rename_i hfault
    simp [hfault]
  · rename_i hfault
    simp [hfault]

/-- The tail of a handler raises where its order half or its commit does. -/
theorem finish_raised_iff (w : World) (decision : RiskDecision)
    (submission : Option Database × List FreqtradeCall) :
    (w.finish d decision submission).outcome = .raised ↔
      submission.1 = none ∨ d.fails .commit = true := by
  obtain ⟨session, calls⟩ := submission
  cases session with
  | none => simp [World.finish, World.raised]
  | some session => simp [World.finish, commit_raised_iff]

/-- **Past the key**, an attempt raises exactly where one of its steps does. -/
theorem decideSignal_raised_iff (w : World) (d : Delivery) (signal : Signal)
    (balance : AccountBalanceSnapshot) (isDuplicate : Bool) :
    (decideSignal w d signal balance isDuplicate).outcome = .raised ↔
      DecisionRaises w d signal balance isDuplicate := by
  cases decideSignal_deciding w d signal balance isDuplicate with
  | stopped hraises redis _ h =>
    refine iff_of_true ?_ (Or.inl hraises)
    rw [h]
    rfl
  | entry hclean haction _ _ session decision _ _ _ h =>
    rw [h, finish_raised_iff, submitApprovedEntry_raises_iff]
    unfold DecisionRaises SubmissionRaises
    cases isDuplicate with
    | false => simp [hclean, haction]
    | true => simp [hclean, entryEvaluation_duplicate]
  | exit hclean haction session decision hrecorded _ _ h =>
    rw [h, finish_raised_iff, submitApprovedExit_raises_iff hrecorded.book]
    unfold DecisionRaises SubmissionRaises
    cases isDuplicate with
    | false => simp [hclean, haction]
    | true => simp [hclean, exitEvaluation_duplicate]

/-- A decision without a balance raises where its audit event or its commit does. -/
theorem recordBalanceUnavailable_raised_iff (w : World) (d : Delivery) (signal : Signal) :
    (recordBalanceUnavailable w d signal).outcome = .raised ↔
      d.fails .auditWrite = true ∨ d.fails .commit = true := by
  unfold recordBalanceUnavailable
  dsimp only
  split
  · rename_i haudit
    simp [World.raised, haudit]
  · rename_i haudit
    simp [commit_raised_iff, haudit]

/-- **`process_signal` raises** exactly where one of its steps does. -/
theorem processSignal_raised_iff (w : World) (d : Delivery) :
    (processSignal w d).outcome = .raised ↔ ProcessingRaises w d := by
  unfold processSignal ProcessingRaises
  cases hload : d.fails .loadSignal with
  | true => simp [World.raised]
  | false =>
    cases hsignal : w.db.getSignal d.signalId with
    | none => simp
    | some signal =>
      cases hbalance : getAccountBalance d.balance d.now with
      | none => simp [recordBalanceUnavailable_raised_iff]
      | some balance =>
        cases hpublish : d.fails .publishBalance with
        | true => simp [World.raised]
        | false =>
          by_cases hheld : w.redis.holds signal.id d.now
          · cases hclaim : d.fails .claimKey with
            | true => simp [World.raised, hheld]
            | false => simp [hheld, decideSignal_raised_iff]
          · cases hfault : d.fault .claimKey with
            | none =>
              have hclaim : d.fails .claimKey = false := by simp [Delivery.fails, hfault]
              -- what raises does not look at the idempotency keys
              have hdecides : (decideSignal { w with redis := w.redis.claim signal.id d.now } d
                  signal balance false).outcome = .raised ↔
                    DecisionRaises w d signal balance false :=
                decideSignal_raised_iff _ d signal balance false
              simp [hheld, hclaim, hdecides]
            | some fault =>
              have hclaim : d.fails .claimKey = true := by simp [Delivery.fails, hfault]
              cases fault with
              | before => simp [World.raised, hheld, hclaim]
              | after => simp [World.raised, hheld, hclaim]

/-- **`_handle_message` acknowledges** exactly where nothing raises. -/
theorem handleMessage_acks_iff (w : World) (d : Delivery) :
    (handleMessage w d).2 = true ↔ ¬ AttemptRaises w d := by
  unfold handleMessage AttemptRaises
  cases hconfig : d.fails .loadConfig with
  | true => simp
  | false => simp [processSignal_raised_iff]

end TradeMind.Analysis
