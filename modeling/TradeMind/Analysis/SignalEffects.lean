import TradeMind.Analysis.EntryVerdict
import TradeMind.Model.System

/-!
# What one delivered signal does

`Course` and `Deciding` are the ways an attempt of `process_signal` can go, said once.
What it does to each table is read off them in `processSignal_effect`: the orders and
positions tables are the book, and an attempt leaves the book alone, or appends one BUY
order, or appends one SELL order and links it to the open position it exits; it records at
most one decision; and it reaches for Freqtrade's trading endpoints only on an approval.
-/

set_option autoImplicit false

namespace TradeMind.Analysis

open TradeMind.Library TradeMind.Model

/-- `db'` has the book of `db`. -/
structure SameBook (db db' : Database) : Prop where
  orders : db'.orders = db.orders
  positions : db'.positions = db.positions
  signals : db'.signals = db.signals
  nextId : db.nextId ≤ db'.nextId

namespace SameBook

theorem refl (db : Database) : SameBook db db := ⟨rfl, rfl, rfl, Nat.le_refl _⟩

theorem trans {db db' db'' : Database} (h : SameBook db db') (h' : SameBook db' db'') :
    SameBook db db'' :=
  ⟨h'.orders.trans h.orders, h'.positions.trans h.positions, h'.signals.trans h.signals,
    Nat.le_trans h.nextId h'.nextId⟩

theorem insertRiskDecision (db : Database) (d : RiskDecision) :
    SameBook db (db.insertRiskDecision d) :=
  ⟨rfl, rfl, rfl, Nat.le_succ _⟩

/-- Recording an audit event leaves the book alone. -/
theorem addAuditEvent (db : Database) (startedAt : Time) (traceId : Uuid)
    (type : AuditEventType) (payload : Payload) :
    SameBook db (db.addAuditEvent startedAt traceId type payload) :=
  ⟨rfl, rfl, rfl, Nat.le_succ _⟩

end SameBook

/-- The book after an entry was submitted for `signal`: one more BUY order. -/
structure Entered (d : Delivery) (signal : Signal) (order : Order) (db db' : Database) :
    Prop where
  orders : db'.orders = db.orders ++ [order]
  positions : db'.positions = db.positions
  signals : db'.signals = db.signals
  le_id : db.nextId ≤ order.id
  id_lt : order.id < db'.nextId
  side : order.side = .BUY
  symbol : order.symbol = signal.symbol
  createdAt : order.createdAt = d.startedAt
  status : order.status = .SUBMITTED ∨ (order.status = .FAILED ∧ order.freqtradeTradeId = none)

/-- The book after an exit was submitted for `signal`: one more SELL order of the trade of
an OPEN position on the pair, linked to that position if Freqtrade took it. -/
structure Exited (d : Delivery) (signal : Signal) (order : Order) (position : Position)
    (db db' : Database) : Prop where
  orders : db'.orders = db.orders ++ [order]
  positions : (order.status = .SUBMITTED ∧ db'.positions = modifyRow Position.id position.id
      (fun p => { p with exitOrderId := some order.id }) db.positions) ∨
    (order.status = .FAILED ∧ db'.positions = db.positions)
  signals : db'.signals = db.signals
  le_id : db.nextId ≤ order.id
  id_lt : order.id < db'.nextId
  side : order.side = .SELL
  symbol : order.symbol = signal.symbol
  createdAt : order.createdAt = d.startedAt
  mem : position ∈ db.positions
  isOpen : position.status = .OPEN
  onPair : position.symbol = signal.symbol
  trade : ∃ entry, db.getOrder position.entryOrderId = some entry ∧
    entry.freqtradeTradeId ≠ none ∧ order.freqtradeTradeId = entry.freqtradeTradeId

variable {w : World} {d : Delivery} {signal : Signal}

/-- `_submit_entry_order` appends the entry's order. -/
theorem submitEntryOrder_entered {session session' : Database} {decisionId : Uuid}
    {sizeUsdt sizeBase : ℚ} {stop : Option ℚ} {calls : List FreqtradeCall}
    (h : submitEntryOrder d session signal decisionId sizeUsdt sizeBase stop =
      (some session', calls)) : ∃ order, Entered d signal order session session' := by
  unfold submitEntryOrder at h
  dsimp only at h
  split at h
  · cases h
  · cases h
    exact ⟨_, rfl, rfl, rfl, Nat.le_refl _, Nat.lt_succ_of_lt (Nat.lt_succ_self _), rfl, rfl,
      rfl, Or.inr ⟨rfl, rfl⟩⟩
  · cases h
    exact ⟨_, rfl, rfl, rfl, Nat.le_refl _, Nat.lt_succ_of_lt (Nat.lt_succ_self _), rfl, rfl,
      rfl, Or.inl rfl⟩

/-- `_submit_exit_order` does nothing or appends the exit's order. -/
theorem submitExitOrder_exited {session session' : Database} {decisionId : Uuid}
    {calls : List FreqtradeCall}
    (h : submitExitOrder d session signal decisionId = (some session', calls)) :
    session' = session ∨ ∃ order position, Exited d signal order position session session' := by
  unfold submitExitOrder at h
  split at h
  · cases h
  · split at h
    · cases h
      exact Or.inl rfl
    · rename_i position hfirst
      have hmem := Arrangement.first_mem _ hfirst
      rw [List.mem_filter] at hmem
      have hrow : position.symbol = signal.symbol ∧ position.status = .OPEN := by
        simpa using hmem.2
      split at h
      · cases h
        exact Or.inl rfl
      · rename_i tradeId htrade
        obtain ⟨entry, hentry, htradeId⟩ := Option.bind_eq_some_iff.mp htrade
        have htradeOf : ∃ e, session.getOrder position.entryOrderId = some e ∧
            e.freqtradeTradeId ≠ none ∧ some tradeId = e.freqtradeTradeId :=
          ⟨entry, hentry, by simp [htradeId], htradeId.symm⟩
        dsimp only at h
        split at h
        · cases h
        · cases hsub : (forceexitOpenTrade d signal.symbol tradeId).1 with
          | true =>
            simp only [hsub, if_true] at h
            cases h
            exact Or.inr ⟨_, position, rfl, Or.inl ⟨rfl, rfl⟩, rfl, Nat.le_refl _,
              Nat.lt_succ_of_lt (Nat.lt_succ_self _), rfl, rfl, rfl, hmem.1, hrow.2, hrow.1,
              htradeOf⟩
          | false =>
            simp only [hsub, Bool.false_eq_true, if_false] at h
            cases h
            exact Or.inr ⟨_, position, rfl, Or.inr ⟨rfl, rfl⟩, rfl, Nat.le_refl _,
              Nat.lt_succ_of_lt (Nat.lt_succ_self _), rfl, rfl, rfl, hmem.1, hrow.2, hrow.1,
              htradeOf⟩

/-- Entering from a session with the committed book enters from the committed book. -/
theorem Entered.of_sameBook {order : Order} {db session db' : Database}
    (hs : SameBook db session) (h : Entered d signal order session db') :
    Entered d signal order db db' :=
  { h with
    orders := hs.orders ▸ h.orders
    positions := h.positions.trans hs.positions
    signals := h.signals.trans hs.signals
    le_id := Nat.le_trans hs.nextId h.le_id }

/-- Exiting from a session with the committed book exits from the committed book. -/
theorem Exited.of_sameBook {order : Order} {position : Position} {db session db' : Database}
    (hs : SameBook db session) (h : Exited d signal order position session db') :
    Exited d signal order position db db' :=
  { h with
    orders := hs.orders ▸ h.orders
    positions := hs.positions ▸ h.positions
    signals := h.signals.trans hs.signals
    le_id := Nat.le_trans hs.nextId h.le_id
    mem := hs.positions ▸ h.mem
    trade := by
      have hget : session.getOrder position.entryOrderId = db.getOrder position.entryOrderId := by
        unfold Database.getOrder
        rw [hs.orders]
      exact hget ▸ h.trade }

/-! ## The course of an attempt -/

/-- The attempt gets as far as asking for the idempotency key of its signal. -/
structure AsksForKey (w : World) (d : Delivery) (signal : Signal)
    (balance : AccountBalanceSnapshot) : Prop where
  loadSignal : d.fails .loadSignal = false
  found : w.db.getSignal d.signalId = some signal
  snapshot : getAccountBalance d.balance d.now = some balance
  publishBalance : d.fails .publishBalance = false

/-- How an attempt goes up to the point where the idempotency key has been asked for. -/
inductive Course (w : World) (d : Delivery) : Prop
  | stopped (hfails : d.fails .loadSignal = true ∨ d.fails .publishBalance = true ∨
        d.fails .claimKey = true)
      (h : processSignal w d = w.raised [])
  | notFound (hsignal : w.db.getSignal d.signalId = none)
      (h : processSignal w d = ⟨w, [], .signalNotFound⟩)
  | balanceUnavailable (signal : Signal) (hsignal : w.db.getSignal d.signalId = some signal)
      (hbalance : getAccountBalance d.balance d.now = none)
      (h : processSignal w d = recordBalanceUnavailable w d signal)
  | claimLost (signal : Signal) (balance : AccountBalanceSnapshot)
      (hasks : AsksForKey w d signal balance)
      (hfree : ¬ w.redis.holds signal.id d.now) (hfault : d.fault .claimKey = some .after)
      (h : processSignal w d = World.raised { w with redis := w.redis.claim signal.id d.now } [])
  | duplicate (signal : Signal) (balance : AccountBalanceSnapshot)
      (hasks : AsksForKey w d signal balance)
      (hheld : w.redis.holds signal.id d.now)
      (h : processSignal w d = decideSignal w d signal balance true)
  | evaluated (signal : Signal) (balance : AccountBalanceSnapshot)
      (hasks : AsksForKey w d signal balance)
      (hfree : ¬ w.redis.holds signal.id d.now) (hfault : d.fault .claimKey = none)
      (h : processSignal w d =
        decideSignal { w with redis := w.redis.claim signal.id d.now } d signal balance false)

theorem processSignal_course (w : World) (d : Delivery) : Course w d := by
  cases hload : d.fails .loadSignal with
  | true => exact .stopped (Or.inl hload) (by simp [processSignal, hload])
  | false =>
    cases hsignal : w.db.getSignal d.signalId with
    | none => exact .notFound hsignal (by simp [processSignal, hload, hsignal])
    | some signal =>
      cases hbalance : getAccountBalance d.balance d.now with
      | none =>
        exact .balanceUnavailable signal hsignal hbalance
          (by simp [processSignal, hload, hsignal, hbalance])
      | some balance =>
        cases hpublish : d.fails .publishBalance with
        | true =>
          exact .stopped (Or.inr (Or.inl hpublish))
            (by simp [processSignal, hload, hsignal, hbalance, hpublish])
        | false =>
          have hasks : AsksForKey w d signal balance := ⟨hload, hsignal, hbalance, hpublish⟩
          by_cases hheld : w.redis.holds signal.id d.now
          · cases hclaim : d.fails .claimKey with
            | true =>
              exact .stopped (Or.inr (Or.inr hclaim))
                (by simp [processSignal, hload, hsignal, hbalance, hpublish, hheld, hclaim])
            | false =>
              exact .duplicate signal balance hasks hheld
                (by simp [processSignal, hload, hsignal, hbalance, hpublish, hheld, hclaim])
          · cases hfault : d.fault .claimKey with
            | none =>
              exact .evaluated signal balance hasks hheld hfault
                (by simp [processSignal, hload, hsignal, hbalance, hpublish, hheld, hfault])
            | some fault =>
              cases fault with
              | before =>
                exact .stopped (Or.inr (Or.inr (by simp [Delivery.fails, hfault])))
                  (by simp [processSignal, hload, hsignal, hbalance, hpublish, hheld, hfault])
              | after =>
                exact .claimLost signal balance hasks hheld hfault
                  (by simp [processSignal, hload, hsignal, hbalance, hpublish, hheld, hfault])

/-- The session after `decision` about `signal` was recorded: the committed book and one
more decision. -/
structure Recorded (signal : Signal) (decision : RiskDecision) (db session : Database) :
    Prop where
  book : SameBook db session
  riskDecisions : session.riskDecisions = db.riskDecisions ++ [decision]
  signalId : decision.signalId = signal.id

theorem Recorded.mem {decision : RiskDecision} {db session : Database}
    (h : Recorded signal decision db session) : decision ∈ session.riskDecisions := by
  rw [h.riskDecisions]
  exact List.mem_append_right _ (List.mem_singleton_self _)

theorem recorded_audit {db session : Database} (hs : SameBook db session)
    (hdecisions : session.riskDecisions = db.riskDecisions) (decision : RiskDecision)
    (hid : decision.signalId = signal.id) (startedAt : Time) (approved : Bool)
    (reason : Option RejectionReason) (figures : DecisionFigures) :
    Recorded signal decision db
      (writeDecisionAuditEvent (session.insertRiskDecision decision) startedAt signal approved
        reason figures) where
  book := (hs.trans (SameBook.insertRiskDecision session decision)).trans
    (SameBook.addAuditEvent _ _ _ _ _)
  riskDecisions := by
    unfold writeDecisionAuditEvent
    rw [Database.addAuditEvent_riskDecisions, Database.insertRiskDecision_riskDecisions,
      hdecisions]
  signalId := hid

/-- `_handle_entry_signal` records its decision. -/
theorem entryDecision_recorded (d : Delivery) {db session : Database}
    (hs : SameBook db session) (hdecisions : session.riskDecisions = db.riskDecisions)
    (result : RiskDecisionResult) :
    Recorded signal (entryDecision session.nextId signal result) db
      (writeDecisionAuditEvent
        (session.insertRiskDecision (entryDecision session.nextId signal result)) d.startedAt
        signal result.approved result.rejectionReason
        { nominalRiskAmountUsdt := result.nominalRiskAmountUsdt
          actualRiskUsdt := result.actualRiskUsdt
          stopDistancePct := result.stopDistancePct
          expectancyCheck := result.expectancyCheck }) :=
  recorded_audit hs hdecisions _ rfl _ _ _ _

/-- `_handle_exit_signal` records its decision. -/
theorem exitDecision_recorded (w : World) (d : Delivery) (result : ExitDecisionResult) :
    Recorded signal (exitDecision w.db.nextId signal result) w.db
      (writeDecisionAuditEvent
        (w.db.insertRiskDecision (exitDecision w.db.nextId signal result)) d.startedAt signal
        result.approved result.rejectionReason) :=
  recorded_audit (SameBook.refl _) rfl _ rfl _ _ _ _

/-- The result of the entry evaluation an attempt makes. -/
def entryEvaluation (w : World) (d : Delivery) (signal : Signal)
    (balance : AccountBalanceSnapshot) (isDuplicate : Bool) : RiskDecisionResult :=
  entryResult w.db d signal.view (d.account w.db balance) isDuplicate (d.expectancy w.db signal)

/-- The result of the exit evaluation an attempt makes. -/
def exitEvaluation (w : World) (d : Delivery) (signal : Signal)
    (balance : AccountBalanceSnapshot) (isDuplicate : Bool) : ExitDecisionResult :=
  exitResult d signal.view (d.account w.db balance) isDuplicate

/-- A step raises before the decision and its audit event are written: an awaited one, or the
`timedelta` of the cluster window. -/
def EvaluationRaises (w : World) (d : Delivery) (signal : Signal)
    (balance : AccountBalanceSnapshot) (isDuplicate : Bool) : Prop :=
  d.accountRaises = true ∨
    (signal.action ≠ .SELL ∧ (d.fails .expectancy = true ∨ d.fails .killSwitchRead = true ∨
      ((entryEvaluation w d signal balance isDuplicate).autoTripKillswitch = true ∧
        (d.fails .killSwitchWrite = true ∨ d.fails .killSwitchMirror = true)))) ∨
    d.fails .decisionFlush = true ∨ d.fails .auditWrite = true

/-- How an attempt goes once it knows whether the signal is a duplicate: it raises before
anything is submitted, or it records the decision of one of the two pipelines and goes on
to the order half. -/
inductive Deciding (w : World) (d : Delivery) (signal : Signal)
    (balance : AccountBalanceSnapshot) (isDuplicate : Bool) : Prop
  | stopped (hraises : EvaluationRaises w d signal balance isDuplicate) (redis : Redis)
      (hkeys : redis.decisionKeys = w.redis.decisionKeys)
      (h : decideSignal w d signal balance isDuplicate = World.raised { w with redis } [])
  | entry (hclean : ¬ EvaluationRaises w d signal balance isDuplicate)
      (haction : signal.action ≠ .SELL) (redis : Redis)
      (hkeys : redis.decisionKeys = w.redis.decisionKeys) (session : Database)
      (decision : RiskDecision) (hrecorded : Recorded signal decision w.db session)
      (happroved : decision.approved = (entryEvaluation w d signal balance isDuplicate).approved)
      (hreason : decision.rejectionReason =
        (entryEvaluation w d signal balance isDuplicate).rejectionReason)
      (h : decideSignal w d signal balance isDuplicate =
        World.finish { w with redis } d decision (submitApprovedEntry d session signal
          decision.id (entryEvaluation w d signal balance isDuplicate)))
  | exit (hclean : ¬ EvaluationRaises w d signal balance isDuplicate)
      (haction : signal.action = .SELL) (session : Database) (decision : RiskDecision)
      (hrecorded : Recorded signal decision w.db session)
      (happroved : decision.approved = (exitEvaluation w d signal balance isDuplicate).approved)
      (hreason : decision.rejectionReason =
        (exitEvaluation w d signal balance isDuplicate).rejectionReason)
      (h : decideSignal w d signal balance isDuplicate =
        w.finish d decision (submitApprovedExit d session signal decision.id
          (exitEvaluation w d signal balance isDuplicate)))

/-- The world after the mirror was set to `"1"`. -/
def mirrorOn (w : World) : World :=
  { w with redis := { w.redis with killswitchGlobal := some true } }

theorem isEnabled_enable (db : Database) (startedAt : Time) (reason updatedBy : String)
    (traceId : Uuid) :
    KillSwitch.isEnabled (KillSwitch.enable db startedAt reason updatedBy traceId) = true := rfl

/-- What the auto-trip of an evaluation leaves. -/
inductive Trip (w : World) (d : Delivery) (signal : Signal) (result : RiskDecisionResult) : Prop
  | untripped (htrip : result.autoTripKillswitch = false)
      (h : autoTrip w d signal result = (w, some w.db))
  | tripped (session : Database) (htrip : result.autoTripKillswitch = true)
      (hwrite : d.fails .killSwitchWrite = false) (hmirror : d.fault .killSwitchMirror = none)
      (hflag : KillSwitch.isEnabled session = true) (hbook : SameBook w.db session)
      (hdecisions : session.riskDecisions = w.db.riskDecisions)
      (h : autoTrip w d signal result = (mirrorOn w, some session))
  | lost (w' : World) (htrip : result.autoTripKillswitch = true)
      (hfails : d.fails .killSwitchWrite = true ∨ d.fails .killSwitchMirror = true)
      (hw' : w' = w ∨ w' = mirrorOn w) (h : autoTrip w d signal result = (w', none))

theorem autoTrip_trip (w : World) (d : Delivery) (signal : Signal)
    (result : RiskDecisionResult) : Trip w d signal result := by
  cases htrip : result.autoTripKillswitch with
  | false => exact .untripped htrip (by simp [autoTrip, htrip])
  | true =>
    cases hwrite : d.fails .killSwitchWrite with
    | true =>
      exact .lost w htrip (Or.inl hwrite) (Or.inl rfl) (by simp [autoTrip, htrip, hwrite])
    | false =>
      cases hmirror : d.fault .killSwitchMirror with
      | none =>
        exact .tripped _ htrip hwrite hmirror
          (isEnabled_enable w.db d.startedAt
            ((result.rejectionReason.map RejectionReason.value).getD "AUTO_TRIP") "SYSTEM"
            signal.traceId)
          ⟨rfl, rfl, rfl, Nat.le_succ _⟩ rfl
          (by simp [autoTrip, htrip, hwrite, hmirror, mirrorOn])
      | some fault =>
        have hfails : d.fails .killSwitchMirror = true := by simp [Delivery.fails, hmirror]
        cases fault with
        | before =>
          exact .lost w htrip (Or.inr hfails) (Or.inl rfl)
            (by simp [autoTrip, htrip, hwrite, hmirror])
        | after =>
          exact .lost (mirrorOn w) htrip (Or.inr hfails) (Or.inr rfl)
            (by simp [autoTrip, htrip, hwrite, hmirror, mirrorOn])

/-- The auto-trip goes through with the committed book and decisions, or a step of it
raises; the idempotency keys are not touched. -/
theorem autoTrip_cases (w : World) (d : Delivery) (signal : Signal)
    (result : RiskDecisionResult) :
    ∃ redis, redis.decisionKeys = w.redis.decisionKeys ∧
      ((∃ session, autoTrip w d signal result = ({ w with redis }, some session) ∧
          (result.autoTripKillswitch = true →
            ¬ (d.fails .killSwitchWrite = true ∨ d.fails .killSwitchMirror = true)) ∧
          SameBook w.db session ∧ session.riskDecisions = w.db.riskDecisions) ∨
        ((result.autoTripKillswitch = true ∧
            (d.fails .killSwitchWrite = true ∨ d.fails .killSwitchMirror = true)) ∧
          autoTrip w d signal result = ({ w with redis }, none))) := by
  cases autoTrip_trip w d signal result with
  | untripped htrip h =>
    exact ⟨w.redis, rfl, Or.inl ⟨w.db, h, by simp [htrip], SameBook.refl _, rfl⟩⟩
  | tripped session _ hwrite hmirror _ hbook hdecisions h =>
    refine ⟨(mirrorOn w).redis, rfl, Or.inl ⟨session, h, fun _ => ?_, hbook, hdecisions⟩⟩
    rw [hwrite]
    simp [Delivery.fails, hmirror]
  | lost w' htrip hfails hw' h =>
    rcases hw' with rfl | rfl
    · exact ⟨w'.redis, rfl, Or.inr ⟨⟨htrip, hfails⟩, h⟩⟩
    · exact ⟨(mirrorOn w).redis, rfl, Or.inr ⟨⟨htrip, hfails⟩, h⟩⟩

theorem decideSignal_deciding (w : World) (d : Delivery) (signal : Signal)
    (balance : AccountBalanceSnapshot) (isDuplicate : Bool) :
    Deciding w d signal balance isDuplicate := by
  cases haccount : d.accountRaises with
  | true => exact .stopped (Or.inl haccount) w.redis rfl (by simp [decideSignal, haccount])
  | false =>
    by_cases haction : signal.action = .SELL
    · cases hflush : d.fails .decisionFlush with
      | true =>
        exact .stopped (Or.inr (Or.inr (Or.inl hflush))) w.redis rfl
          (by simp [decideSignal, haccount, haction, handleExitSignal, hflush])
      | false =>
        cases haudit : d.fails .auditWrite with
        | true =>
          exact .stopped (Or.inr (Or.inr (Or.inr haudit))) w.redis rfl
            (by simp [decideSignal, haccount, haction, handleExitSignal, hflush, haudit])
        | false =>
          refine .exit (by simp [EvaluationRaises, haccount, haction, hflush, haudit]) haction _ _
            (exitDecision_recorded w d
            (exitEvaluation w d signal balance isDuplicate)) rfl rfl ?_
          simp [decideSignal, haccount, haction, handleExitSignal, hflush, haudit,
            exitEvaluation]
    · cases hexpectancy : d.fails .expectancy with
      | true =>
        exact .stopped (Or.inr (Or.inl ⟨haction, Or.inl hexpectancy⟩)) w.redis rfl
          (by simp [decideSignal, haccount, haction, hexpectancy])
      | false =>
        cases hread : d.fails .killSwitchRead with
        | true =>
          exact .stopped (Or.inr (Or.inl ⟨haction, Or.inr (Or.inl hread)⟩)) w.redis rfl
            (by simp [decideSignal, haccount, haction, hexpectancy, handleEntrySignal, hread])
        | false =>
          obtain ⟨redis, hkeys, htrip | ⟨hfails, htrip⟩⟩ :=
            autoTrip_cases w d signal (entryEvaluation w d signal balance isDuplicate)
          · obtain ⟨session, htrip, hquiet, hbook, hdecisions⟩ := htrip
            unfold entryEvaluation at htrip
            cases hflush : d.fails .decisionFlush with
            | true =>
              exact .stopped (Or.inr (Or.inr (Or.inl hflush))) redis hkeys
                (by simp [decideSignal, haccount, haction, hexpectancy, handleEntrySignal, hread,
                  htrip, hflush])
            | false =>
              cases haudit : d.fails .auditWrite with
              | true =>
                exact .stopped (Or.inr (Or.inr (Or.inr haudit))) redis hkeys
                  (by simp [decideSignal, haccount, haction, hexpectancy, handleEntrySignal,
                    hread, htrip, hflush, haudit])
              | false =>
                have hclean : ¬ EvaluationRaises w d signal balance isDuplicate := by
                  simp only [EvaluationRaises, haccount, hexpectancy, hread, hflush, haudit,
                    Bool.false_eq_true, false_or, or_false, not_and]
                  exact fun _ => hquiet
                refine .entry hclean haction redis hkeys _ _ (entryDecision_recorded d hbook
                  hdecisions (entryEvaluation w d signal balance isDuplicate)) rfl rfl ?_
                simp only [decideSignal, haccount, haction, hexpectancy, handleEntrySignal,
                  hread, htrip, hflush, haudit, entryEvaluation, Bool.false_eq_true, if_false]
          · unfold entryEvaluation at htrip
            exact .stopped (Or.inr (Or.inl ⟨haction, Or.inr (Or.inr hfails)⟩)) redis hkeys
              (by simp [decideSignal, haccount, haction, hexpectancy, handleEntrySignal, hread,
                htrip])

/-! ## Approvals -/

/-- The delivery is evaluated as a fresh signal and no step raises before its decision is
written. -/
structure Evaluates (w : World) (d : Delivery) (signal : Signal)
    (balance : AccountBalanceSnapshot) : Prop where
  asks : AsksForKey w d signal balance
  free : ¬ w.redis.holds signal.id d.now
  claimed : d.fault .claimKey = none
  clean : ¬ EvaluationRaises w d signal balance false

/-- The delivery gets a fresh entry approved. -/
structure ApprovesEntry (w : World) (d : Delivery) (signal : Signal)
    (balance : AccountBalanceSnapshot) : Prop extends Evaluates w d signal balance where
  action : signal.action ≠ .SELL
  approved : (entryEvaluation w d signal balance false).approved = true

/-- The delivery gets a fresh exit approved. -/
structure ApprovesExit (w : World) (d : Delivery) (signal : Signal)
    (balance : AccountBalanceSnapshot) : Prop extends Evaluates w d signal balance where
  action : signal.action = .SELL
  approved : (exitEvaluation w d signal balance false).approved = true

/-- An approved entry result comes from `evaluate`, not from the fail-closed fallback. -/
theorem evaluate_of_entryResult_approved {db : Database} {view : SignalView}
    {account : AccountState} {isDuplicate : Bool} {expectancy : ExpectancyView}
    (h : (entryResult db d view account isDuplicate expectancy).approved = true) :
    evaluate view account d.config d.now (KillSwitch.isEnabled db) isDuplicate expectancy =
      some (entryResult db d view account isDuplicate expectancy) := by
  cases heval : evaluate view account d.config d.now (KillSwitch.isEnabled db) isDuplicate
    expectancy with
  | none =>
    unfold entryResult at h
    rw [heval] at h
    cases h
  | some result =>
    unfold entryResult
    rw [heval]
    rfl

/-- An approved exit result comes from `evaluate_exit`, not from the fail-closed fallback. -/
theorem evaluateExit_of_exitResult_approved {view : SignalView} {account : AccountState}
    {isDuplicate : Bool} (h : (exitResult d view account isDuplicate).approved = true) :
    evaluateExit view account d.config d.now isDuplicate =
      some (exitResult d view account isDuplicate) := by
  cases heval : evaluateExit view account d.config d.now isDuplicate with
  | none =>
    unfold exitResult at h
    rw [heval] at h
    cases h
  | some result =>
    unfold exitResult
    rw [heval]
    rfl

/-- The exit evaluation gives the reason `DUPLICATE_SIGNAL` to duplicates only. -/
theorem exitEvaluation_reason {w : World} {balance : AccountBalanceSnapshot} {isDuplicate : Bool}
    (h : (exitEvaluation w d signal balance isDuplicate).rejectionReason =
      some .DUPLICATE_SIGNAL) : isDuplicate = true := by
  unfold exitEvaluation exitResult at h
  cases heval : evaluateExit signal.view (d.account w.db balance) d.config d.now isDuplicate with
  | none =>
    rw [heval] at h
    cases h
  | some result =>
    rw [heval] at h
    exact evaluateExit_duplicate heval h

theorem entryEvaluation_duplicate (w : World) (d : Delivery) (signal : Signal)
    (balance : AccountBalanceSnapshot) :
    (entryEvaluation w d signal balance true).approved = false := by
  rw [← Bool.not_eq_true]
  intro h
  obtain ⟨_, -, hadmits, -⟩ := evaluate_admitted (evaluate_of_entryResult_approved h) h
  exact absurd hadmits.notDuplicate (by simp)

theorem exitEvaluation_duplicate (w : World) (d : Delivery) (signal : Signal)
    (balance : AccountBalanceSnapshot) :
    (exitEvaluation w d signal balance true).approved = false := rfl

/-- The rules an approved entry has passed. -/
theorem ApprovesEntry.rules {balance : AccountBalanceSnapshot}
    (h : ApprovesEntry w d signal balance) :
    signal.action = .BUY ∧ d.now - signal.candleTs ≤ minutes d.config.signalMaxAgeMinutes ∧
      signal.symbol ∉ (d.account w.db balance).openPositionSymbols ∧
      ((d.account w.db balance).openPositionSymbols.card : ℤ) < d.config.maxOpenPositions := by
  obtain ⟨_, -, hadmits, -⟩ :=
    evaluate_admitted (evaluate_of_entryResult_approved h.approved) h.approved
  have hbuy : signal.action = .BUY := by
    cases haction : signal.action with
    | BUY => rfl
    | SELL => exact absurd haction h.action
    | HOLD => exact absurd haction hadmits.notHold
  exact ⟨hbuy, hadmits.fresh, hadmits.symbolClosed, hadmits.belowLimit⟩

/-- An approved exit is not stale, and a position is open on its pair. -/
theorem ApprovesExit.rules {balance : AccountBalanceSnapshot}
    (h : ApprovesExit w d signal balance) :
    d.now - signal.candleTs ≤ minutes d.config.signalMaxAgeMinutes ∧
      signal.symbol ∈ (d.account w.db balance).openPositionSymbols :=
  (evaluateExit_approved (evaluateExit_of_exitResult_approved h.approved) h.approved).2

/-! ## Effects -/

/-- The order half keeps the decisions of the session it is given. -/
theorem submitEntryOrder_riskDecisions {session session' : Database} {decisionId : Uuid}
    {sizeUsdt sizeBase : ℚ} {stop : Option ℚ} {calls : List FreqtradeCall}
    (h : submitEntryOrder d session signal decisionId sizeUsdt sizeBase stop =
      (some session', calls)) : session'.riskDecisions = session.riskDecisions := by
  unfold submitEntryOrder at h
  dsimp only at h
  split at h
  · cases h
  · cases h
    rfl
  · cases h
    rfl

/-- `forceenter` makes one request, and perhaps the emergency exit after it. -/
theorem forceenter_calls (reply : ForceenterReply) (pair : Symbol) (stake : ℚ)
    (tag : Option EntryTag) :
    (forceenter reply pair stake tag).2 = [.forceenter pair stake tag] ∨
      ∃ tradeId, (forceenter reply pair stake tag).2 =
        [.forceenter pair stake tag, .forceexit tradeId] := by
  unfold forceenter
  dsimp only
  split
  · exact Or.inl rfl
  · exact Or.inl rfl
  · exact Or.inl rfl
  · split
    · split
      · exact Or.inr ⟨_, rfl⟩
      · exact Or.inl rfl
    · exact Or.inl rfl

/-- `_submit_entry_order` makes the requests of one `forceenter`. -/
theorem submitEntryOrder_calls (d : Delivery) (session : Database) (signal : Signal)
    (decisionId : Uuid) (sizeUsdt sizeBase : ℚ) (stop : Option ℚ) :
    (submitEntryOrder d session signal decisionId sizeUsdt sizeBase stop).2 =
      (forceenter d.forceenterReply signal.symbol sizeUsdt (entryTagOf signal stop)).2 := by
  unfold submitEntryOrder
  dsimp only
  split <;> rfl

/-- The exit's order half keeps the decisions and the `SystemState` row of the session it is
given. -/
theorem submitExitOrder_frame {session session' : Database} {decisionId : Uuid}
    (h : (submitExitOrder d session signal decisionId).1 = some session') :
    session'.riskDecisions = session.riskDecisions ∧
      session'.systemState = session.systemState := by
  unfold submitExitOrder at h
  split at h
  · cases h
  · split at h
    · cases h
      exact ⟨rfl, rfl⟩
    · split at h
      · cases h
        exact ⟨rfl, rfl⟩
      · dsimp only at h
        split at h
        · cases h
        · cases h
          unfold writeOrderAuditEvent
          rw [Database.addAuditEvent_riskDecisions, Database.addAuditEvent_systemState]
          split <;> exact ⟨rfl, rfl⟩

/-- Closing the open trade makes at most one request. -/
theorem forceexitOpenTrade_calls (d : Delivery) (symbol : Symbol) (tradeId : ℤ) :
    (forceexitOpenTrade d symbol tradeId).2 = [] ∨
      ∃ t, (forceexitOpenTrade d symbol tradeId).2 = [.forceexit t] := by
  unfold forceexitOpenTrade
  split
  · exact Or.inl rfl
  · split
    · exact Or.inl rfl
    · exact Or.inr ⟨tradeId, rfl⟩

/-- The exit's order half makes at most one request. -/
theorem submitExitOrder_calls (d : Delivery) (session : Database) (signal : Signal)
    (decisionId : Uuid) :
    (submitExitOrder d session signal decisionId).2 = [] ∨
      ∃ t, (submitExitOrder d session signal decisionId).2 = [.forceexit t] := by
  unfold submitExitOrder
  split
  · exact Or.inl rfl
  · split
    · exact Or.inl rfl
    · split
      · exact Or.inl rfl
      · rename_i tradeId _
        have hcalls := forceexitOpenTrade_calls d signal.symbol tradeId
        dsimp only
        split
        · exact hcalls
        · exact hcalls

/-- A finished attempt made the requests of its order half. -/
theorem finish_calls (w : World) (d : Delivery) (decision : RiskDecision)
    (submission : Option Database × List FreqtradeCall) :
    (w.finish d decision submission).calls = submission.2 := by
  obtain ⟨session, calls⟩ := submission
  cases session with
  | none => rfl
  | some session =>
    simp only [World.finish, World.commit]
    split <;> rfl

/-- A finished attempt committed the session of its order half, or nothing. -/
theorem finish_world (w : World) (d : Delivery) (decision : RiskDecision)
    (submission : Option Database × List FreqtradeCall) :
    (w.finish d decision submission).world = w ∨
      ∃ session, submission.1 = some session ∧
        (w.finish d decision submission).world = { w with db := session } := by
  obtain ⟨session, calls⟩ := submission
  cases session with
  | none => exact Or.inl rfl
  | some session =>
    simp only [World.finish, World.commit]
    split
    · exact Or.inr ⟨session, rfl, rfl⟩
    · exact Or.inl rfl
    · exact Or.inr ⟨session, rfl, rfl⟩

/-- The decision an attempt committed about `signal`. -/
structure Decided (w : World) (signal : Signal) (decision : RiskDecision) (db : Database) :
    Prop where
  signalId : decision.signalId = signal.id
  riskDecisions : db.riskDecisions = w.db.riskDecisions ++ [decision]

/-- What an attempt does to the world and what it asks of Freqtrade. -/
inductive Effect (w : World) (d : Delivery) (attempt : Attempt) : Prop
  | quiet (hcalls : attempt.calls = []) (hbook : SameBook w.db attempt.world.db)
      (hkeys : attempt.world.redis.decisionKeys = w.redis.decisionKeys ∨
        ∃ signal, w.db.getSignal d.signalId = some signal ∧
          ¬ w.redis.holds signal.id d.now ∧
          attempt.world.redis.decisionKeys = (w.redis.claim signal.id d.now).decisionKeys)
      (hdecision : attempt.world.db.riskDecisions = w.db.riskDecisions ∨
        ∃ signal decision, w.db.getSignal d.signalId = some signal ∧
          Decided w signal decision attempt.world.db ∧ decision.approved = false ∧
          (decision.rejectionReason = some .DUPLICATE_SIGNAL → w.redis.holds signal.id d.now))
  | entry (signal : Signal) (balance : AccountBalanceSnapshot)
      (happroves : ApprovesEntry w d signal balance)
      (hkeys : attempt.world.redis.decisionKeys = (w.redis.claim signal.id d.now).decisionKeys)
      (hcalls : ∃ sizeUsdt tag,
        attempt.calls = (forceenter d.forceenterReply signal.symbol sizeUsdt tag).2)
      (hbook : attempt.world.db = w.db ∨ ∃ decision order,
        Decided w signal decision attempt.world.db ∧ decision.rejectionReason = none ∧
          Entered d signal order w.db attempt.world.db)
  | exit (signal : Signal) (balance : AccountBalanceSnapshot)
      (happroves : ApprovesExit w d signal balance)
      (hkeys : attempt.world.redis.decisionKeys = (w.redis.claim signal.id d.now).decisionKeys)
      (hcalls : attempt.calls = [] ∨ ∃ tradeId, attempt.calls = [.forceexit tradeId])
      (hbook : attempt.world.db = w.db ∨ ∃ decision,
        Decided w signal decision attempt.world.db ∧
          decision.rejectionReason ≠ some .DUPLICATE_SIGNAL ∧
          (SameBook w.db attempt.world.db ∨
            ∃ order position, Exited d signal order position w.db attempt.world.db))

/-- Recording a rejection and committing it is quiet. -/
theorem effect_of_rejection {attempt : Attempt} {decision : RiskDecision} {session : Database}
    {redis : Redis} (hsignal : w.db.getSignal d.signalId = some signal)
    (hrecorded : Recorded signal decision w.db session)
    (hrejected : decision.approved = false)
    (hduplicate : decision.rejectionReason = some .DUPLICATE_SIGNAL →
      w.redis.holds signal.id d.now)
    (hkeys : redis.decisionKeys = w.redis.decisionKeys ∨ ¬ w.redis.holds signal.id d.now ∧
      redis.decisionKeys = (w.redis.claim signal.id d.now).decisionKeys)
    (h : attempt = World.finish { w with redis } d decision (some session, [])) :
    Effect w d attempt := by
  have hkeys' : attempt.world.redis.decisionKeys = w.redis.decisionKeys ∨
      ∃ signal, w.db.getSignal d.signalId = some signal ∧
        ¬ w.redis.holds signal.id d.now ∧
        attempt.world.redis.decisionKeys = (w.redis.claim signal.id d.now).decisionKeys := by
    have hredis : attempt.world.redis = redis := by
      rcases finish_world { w with redis } d decision (some session, []) with hw | ⟨_, _, hw⟩
      · rw [h, hw]
      · rw [h, hw]
    rw [hredis]
    exact hkeys.imp_right fun hk => ⟨signal, hsignal, hk⟩
  have hcalls : attempt.calls = [] := by
    rw [h, finish_calls]
  rcases finish_world { w with redis } d decision (some session, []) with hw | ⟨_, hs, hw⟩
  · have hdb : attempt.world.db = w.db := by rw [h, hw]
    exact .quiet hcalls (hdb ▸ SameBook.refl _) hkeys' (Or.inl (by rw [hdb]))
  · cases hs
    have hdb : attempt.world.db = session := by rw [h, hw]
    exact .quiet hcalls (hdb ▸ hrecorded.book) hkeys'
      (Or.inr ⟨signal, decision, hsignal, ⟨hrecorded.signalId, hdb ▸ hrecorded.riskDecisions⟩,
        hrejected, hduplicate⟩)

/-- The entry evaluation calls duplicates only by that name. -/
theorem entryEvaluation_reason {w : World} {balance : AccountBalanceSnapshot}
    {isDuplicate : Bool}
    (h : (entryEvaluation w d signal balance isDuplicate).rejectionReason =
      some .DUPLICATE_SIGNAL) : isDuplicate = true := by
  unfold entryEvaluation entryResult at h
  cases heval : evaluate signal.view (d.account w.db balance) d.config d.now
    (KillSwitch.isEnabled w.db) isDuplicate (d.expectancy w.db signal) with
  | none =>
    rw [heval] at h
    cases h
  | some result =>
    rw [heval] at h
    exact evaluate_duplicate heval h

/-- An approved entry goes to `_submit_entry_order`. -/
theorem submitApprovedEntry_approved (session : Database) (id : Uuid)
    {balance : AccountBalanceSnapshot} {isDuplicate : Bool}
    (h : (entryEvaluation w d signal balance isDuplicate).approved = true) :
    ∃ sizeUsdt sizeBase,
      submitApprovedEntry d session signal id (entryEvaluation w d signal balance isDuplicate) =
        submitEntryOrder d session signal id sizeUsdt sizeBase
          (entryEvaluation w d signal balance isDuplicate).stopLossPrice := by
  obtain ⟨candidate, -, -, hresult⟩ :=
    evaluate_admitted (evaluate_of_entryResult_approved h) h
  have hsizeUsdt : (entryEvaluation w d signal balance isDuplicate).positionSizeUsdt =
      some candidate.positionSizeUsdt :=
    congrArg RiskDecisionResult.positionSizeUsdt hresult
  have hsizeBase : (entryEvaluation w d signal balance isDuplicate).positionSizeBase =
      some candidate.positionSizeBase :=
    congrArg RiskDecisionResult.positionSizeBase hresult
  refine ⟨candidate.positionSizeUsdt, candidate.positionSizeBase, ?_⟩
  simp only [submitApprovedEntry, h, hsizeUsdt, hsizeBase, if_true]

/-- A decision about a duplicate has a quiet effect. -/
theorem effect_of_duplicate {balance : AccountBalanceSnapshot}
    (hsignal : w.db.getSignal d.signalId = some signal)
    (hheld : w.redis.holds signal.id d.now) :
    Effect w d (decideSignal w d signal balance true) := by
  cases decideSignal_deciding w d signal balance true with
  | stopped _ redis hkeys h =>
    rw [h]
    exact .quiet rfl (SameBook.refl _) (Or.inl hkeys) (Or.inl rfl)
  | entry _ _ redis hkeys session decision hrecorded happroved _ h =>
    rw [entryEvaluation_duplicate] at happroved
    refine effect_of_rejection hsignal hrecorded happroved (fun _ => hheld) (Or.inl hkeys) ?_
    rw [h, submitApprovedEntry, entryEvaluation_duplicate, if_neg Bool.false_ne_true]
  | exit _ _ session decision hrecorded happroved _ h =>
    rw [exitEvaluation_duplicate] at happroved
    refine effect_of_rejection hsignal hrecorded happroved (fun _ => hheld) (Or.inl rfl) ?_
    rw [h, submitApprovedExit, exitEvaluation_duplicate, if_neg Bool.false_ne_true]

theorem effect_of_approved_entry {attempt : Attempt} {balance : AccountBalanceSnapshot}
    {session : Database} {decision : RiskDecision} {redis : Redis}
    (happroves : ApprovesEntry w d signal balance)
    (hrecorded : Recorded signal decision w.db session)
    (hreason : decision.rejectionReason =
      (entryEvaluation w d signal balance false).rejectionReason)
    (hkeys : redis.decisionKeys = (w.redis.claim signal.id d.now).decisionKeys)
    (h : attempt = World.finish { w with redis } d decision (submitApprovedEntry d session signal
      decision.id (entryEvaluation w d signal balance false))) :
    Effect w d attempt := by
  obtain ⟨sizeUsdt, sizeBase, hsubmit⟩ :=
    submitApprovedEntry_approved session decision.id happroves.approved
  rw [hsubmit] at h
  obtain ⟨_, -, -, hresult⟩ :=
    evaluate_admitted (evaluate_of_entryResult_approved happroves.approved) happroves.approved
  have hnone := congrArg RiskDecisionResult.rejectionReason hresult
  generalize (entryEvaluation w d signal balance false).stopLossPrice = stop at h
  have hcalls := submitEntryOrder_calls d session signal decision.id sizeUsdt sizeBase stop
  rcases finish_world { w with redis } d decision
    (submitEntryOrder d session signal decision.id sizeUsdt sizeBase stop)
    with hw | ⟨session', hs, hw⟩
  · refine .entry signal balance happroves ?_ ⟨sizeUsdt, entryTagOf signal stop, ?_⟩ (Or.inl ?_)
    · rw [h, hw, hkeys]
    · rw [h, finish_calls, hcalls]
    · rw [h, hw]
  · have hpair : submitEntryOrder d session signal decision.id sizeUsdt sizeBase stop =
        (some session', _) := Prod.ext hs rfl
    obtain ⟨order, hentered⟩ := submitEntryOrder_entered hpair
    refine .entry signal balance happroves ?_ ⟨sizeUsdt, entryTagOf signal stop, ?_⟩
      (Or.inr ⟨decision, order, ⟨hrecorded.signalId, ?_⟩, hreason.trans hnone, ?_⟩)
    · rw [h, hw, hkeys]
    · rw [h, finish_calls, hcalls]
    · rw [h, hw]
      exact (submitEntryOrder_riskDecisions hpair).trans hrecorded.riskDecisions
    · rw [h, hw]
      exact hentered.of_sameBook hrecorded.book

theorem effect_of_approved_exit {attempt : Attempt} {balance : AccountBalanceSnapshot}
    {session : Database} {decision : RiskDecision} {redis : Redis}
    (happroves : ApprovesExit w d signal balance)
    (hrecorded : Recorded signal decision w.db session)
    (hreason : decision.rejectionReason ≠ some .DUPLICATE_SIGNAL)
    (hkeys : redis.decisionKeys = (w.redis.claim signal.id d.now).decisionKeys)
    (h : attempt = World.finish { w with redis } d decision
      (submitExitOrder d session signal decision.id)) :
    Effect w d attempt := by
  have hcalls : attempt.calls = [] ∨ ∃ t, attempt.calls = [.forceexit t] := by
    rw [h, finish_calls]
    exact submitExitOrder_calls d session signal decision.id
  rcases finish_world { w with redis } d decision
    (submitExitOrder d session signal decision.id) with hw | ⟨session', hs, hw⟩
  · refine .exit signal balance happroves ?_ hcalls (Or.inl ?_)
    · rw [h, hw, hkeys]
    · rw [h, hw]
  · have hpair : submitExitOrder d session signal decision.id = (some session', _) :=
      Prod.ext hs rfl
    have hbook : SameBook w.db session' ∨
        ∃ order position, Exited d signal order position w.db session' := by
      rcases submitExitOrder_exited hpair with hsame | ⟨order, position, hexited⟩
      · exact Or.inl (hsame ▸ hrecorded.book)
      · exact Or.inr ⟨order, position, hexited.of_sameBook hrecorded.book⟩
    refine .exit signal balance happroves ?_ hcalls
      (Or.inr ⟨decision, ⟨hrecorded.signalId, ?_⟩, hreason, ?_⟩)
    · rw [h, hw, hkeys]
    · rw [h, hw]
      exact (submitExitOrder_frame hs).1.trans hrecorded.riskDecisions
    · rw [h, hw]
      exact hbook

/-- A decision about a fresh signal is a quiet rejection or an approval. -/
theorem effect_of_fresh {balance : AccountBalanceSnapshot}
    (hasks : AsksForKey w d signal balance) (hfree : ¬ w.redis.holds signal.id d.now)
    (hfault : d.fault .claimKey = none) :
    Effect w d
      (decideSignal { w with redis := w.redis.claim signal.id d.now } d signal balance false) := by
  cases decideSignal_deciding { w with redis := w.redis.claim signal.id d.now } d signal balance
    false with
  | stopped _ redis hkeys h =>
    rw [h]
    exact .quiet rfl (SameBook.refl _) (Or.inr ⟨signal, hasks.found, hfree, hkeys⟩) (Or.inl rfl)
  | entry hclean haction redis hkeys session decision hrecorded happroved hreason h =>
    cases hresult : (entryEvaluation w d signal balance false).approved with
    | true =>
      exact effect_of_approved_entry ⟨⟨hasks, hfree, hfault, hclean⟩, haction, hresult⟩ hrecorded
        hreason hkeys h
    | false =>
      refine effect_of_rejection hasks.found hrecorded (happroved.trans hresult) (fun hdup => ?_)
        (Or.inr ⟨hfree, hkeys⟩) ?_
      · exact absurd (entryEvaluation_reason (hreason.symm.trans hdup)) Bool.false_ne_true
      · rw [h, submitApprovedEntry, if_neg]
        exact ne_true_of_eq_false hresult
  | exit hclean haction session decision hrecorded happroved hreason h =>
    have hfresh : decision.rejectionReason ≠ some .DUPLICATE_SIGNAL := fun hdup =>
      absurd (exitEvaluation_reason (hreason.symm.trans hdup)) Bool.false_ne_true
    cases hresult : (exitEvaluation w d signal balance false).approved with
    | true =>
      refine effect_of_approved_exit ⟨⟨hasks, hfree, hfault, hclean⟩, haction, hresult⟩ hrecorded
        hfresh rfl ?_
      rw [h, submitApprovedExit, if_pos]
      exact hresult
    | false =>
      refine effect_of_rejection hasks.found hrecorded (happroved.trans hresult)
        (fun hdup => absurd hdup hfresh) (Or.inr ⟨hfree, rfl⟩) ?_
      rw [h, submitApprovedExit, if_neg]
      exact ne_true_of_eq_false hresult

/-- **What one attempt does.** -/
theorem processSignal_effect (w : World) (d : Delivery) : Effect w d (processSignal w d) := by
  cases processSignal_course w d with
  | stopped _ h =>
    rw [h]
    exact .quiet rfl (SameBook.refl _) (Or.inl rfl) (Or.inl rfl)
  | notFound _ h =>
    rw [h]
    exact .quiet rfl (SameBook.refl _) (Or.inl rfl) (Or.inl rfl)
  | balanceUnavailable signal hsignal _ h =>
    rw [h]
    unfold recordBalanceUnavailable
    dsimp only
    split
    · exact .quiet rfl (SameBook.refl _) (Or.inl rfl) (Or.inl rfl)
    · exact effect_of_rejection hsignal
        (recorded_audit (SameBook.refl _) rfl _ rfl d.startedAt false _ {}) rfl
        (fun hdup => by cases hdup) (Or.inl rfl) rfl
  | claimLost signal balance hasks hfree _ h =>
    rw [h]
    exact .quiet rfl (SameBook.refl _) (Or.inr ⟨signal, hasks.found, hfree, rfl⟩) (Or.inl rfl)
  | duplicate signal balance hasks hheld h =>
    rw [h]
    exact effect_of_duplicate hasks.found hheld
  | evaluated signal balance hasks hfree hfault h =>
    rw [h]
    exact effect_of_fresh hasks hfree hfault

/-- A delivered signal writes no column of a position but `exit_order_id`. -/
theorem signal_positions (w : World) (d : Delivery) {p' : Position}
    (h : p' ∈ (processSignal w d).world.db.positions) :
    ∃ p ∈ w.db.positions, ∃ link, p' = { p with exitOrderId := link } := by
  have hsame : (processSignal w d).world.db.positions = w.db.positions →
      ∃ p ∈ w.db.positions, ∃ link, p' = { p with exitOrderId := link } :=
    fun hpositions => ⟨p', hpositions ▸ h, p'.exitOrderId, rfl⟩
  cases processSignal_effect w d with
  | quiet _ hbook _ _ => exact hsame hbook.positions
  | entry _ _ _ _ _ hbook =>
    rcases hbook with hdb | ⟨_, _, _, _, hentered⟩
    · exact hsame (by rw [hdb])
    · exact hsame hentered.positions
  | exit _ _ _ _ _ hbook =>
    rcases hbook with hdb | ⟨_, _, _, hquiet | ⟨order, _, hexited⟩⟩
    · exact hsame (by rw [hdb])
    · exact hsame hquiet.positions
    · rcases hexited.positions with ⟨_, hpositions⟩ | ⟨_, hpositions⟩
      · rw [hpositions] at h
        rcases mem_modifyRow.mp h with ⟨hmem, _⟩ | ⟨p, hmem, _, rfl⟩
        · exact ⟨p', hmem, p'.exitOrderId, rfl⟩
        · exact ⟨p, hmem, some order.id, rfl⟩
      · exact hsame hpositions

/-! ## A concrete delivery -/

/-- A BUY signal with a 2% stop. -/
def btcBuy : Signal :=
  { id := 1
    traceId := 1
    symbol := "BTC/USDT"
    candleTs := 0
    action := .BUY
    confidence := 9 / 10
    price := 100
    atr14 := 1 }

/-- The world before the BUY signal is delivered. -/
def beforeEntry : World := { db := { signals := [btcBuy] } }

/-- A flat account of 1000 USDT. -/
def flatBalances : FreqtradeBalances where
  currencies := [⟨"USDT", 1000, "USDT", by decide +kernel⟩]
  total := 1000
  stake := "USDT"
  total_nonneg := by decide +kernel

/-- A delivery under the shipped configuration that meets no failure; Freqtrade opens
trade 7 and echoes the stop tag. -/
def cleanDelivery (signalId : Uuid) (now : Time) : Delivery where
  signalId
  config := {}
  startedAt := now
  now
  rows := RowOrder.stored
  balance := some flatBalances
  forceenterReply := .body { tradeId := some 7, enterTag := some (.slpct (2 / 100)) }
  getTrade := none
  exitRetryAttempts := 3
  forceexitPost := fun _ => true
  fault := fun _ => none

/-- The clean delivery at time 0 for which Freqtrade opens the given trade. -/
def deliveryOpening (signalId : Uuid) (tradeId : ℤ) : Delivery :=
  { cleanDelivery signalId 0 with
    forceenterReply := .body
      { tradeId := some tradeId, enterTag := some (.slpct (2 / 100)) } }

/-- The snapshot of the flat account. -/
def flatSnapshot (now : Time) : AccountBalanceSnapshot where
  equityUsdt := 1000
  freeBalanceUsdt := 1000
  capturedAt := now
  equity_nonneg := by decide +kernel
  free_nonneg := by decide +kernel
  free_le_equity := by decide +kernel

theorem flatBalances_snapshot (now : Time) :
    getAccountBalance (some flatBalances) now = some (flatSnapshot now) := by
  simp [getAccountBalance, flatBalances, flatSnapshot]

/-- The clean delivery of the BUY signal is approved and submitted. -/
example : (processSignal { db := { signals := [btcBuy] } } (cleanDelivery 1 0)).world.db.orders.map
    (fun o => (o.side, o.status, o.freqtradeTradeId)) = [(.BUY, .SUBMITTED, some 7)] := by
  decide +kernel

end TradeMind.Analysis
