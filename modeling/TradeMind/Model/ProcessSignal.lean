import TradeMind.Model.Freqtrade
import TradeMind.Model.KillSwitch

/-!
# One delivery of a signal

`risk_engine/main.py`: `process_signal` and the handlers it calls.  A `Delivery` is one
attempt with everything the outside decides about it: the clocks, the row orders, the
answers of Freqtrade and which awaited steps raise.  Redis and Freqtrade are touched as
the attempt goes along; the database only by the final commit, so the session is a local
copy of the tables that an exception throws away.
-/

set_option autoImplicit false

namespace TradeMind.Model

/-- The awaited steps of one attempt that may raise. -/
inductive Await
  | loadConfig | loadSignal | publishBalance | claimKey | accountState | expectancy
  | killSwitchRead | killSwitchWrite | killSwitchMirror | decisionFlush | auditWrite
  | submitRead | submitFlush | commit
  deriving DecidableEq, Repr

/-- A failing step raises before its effect, or after it (the reply is lost). -/
inductive Fault
  | before | after
  deriving DecidableEq, Repr

/-- One delivery of a signal id and the environment it meets. -/
structure Delivery where
  signalId : Uuid
  config : RiskConfig
  /-- The start of the transaction, Postgres `now()`. -/
  startedAt : Time
  /-- The clock the attempt and Redis read. -/
  now : Time
  rows : RowOrder
  balance : Option FreqtradeBalances
  forceenterReply : ForceenterReply
  getTrade : Option FreqtradeTrade
  exitRetryAttempts : ℤ
  forceexitPost : ℕ → Bool
  fault : Await → Option Fault

/-- The awaited step raises. -/
def Delivery.fails (d : Delivery) (a : Await) : Bool := (d.fault a).isSome

/-- The state that the services share: the committed tables of Postgres and the keys of Redis. -/
structure World where
  db : Database := {}
  redis : Redis := {}
  deriving DecidableEq, Repr

/-- How an attempt to process a signal ends: it raises, it finds no row for the signal, or it has a
decision on record. -/
inductive AttemptOutcome
  | raised
  | signalNotFound
  | recorded (decision : RiskDecision)
  deriving DecidableEq, Repr

/-- What one attempt leaves behind: the world, the requests it sent to Freqtrade's
trading endpoints, and how it ended. -/
structure Attempt where
  world : World
  calls : List FreqtradeCall
  outcome : AttemptOutcome
  deriving DecidableEq, Repr

/-- The attempt ends with an exception; its session is discarded. -/
def World.raised (w : World) (calls : List FreqtradeCall) : Attempt := ⟨w, calls, .raised⟩

/-- `session.commit()` at the end of the attempt. -/
def World.commit (w : World) (d : Delivery) (session : Database)
    (calls : List FreqtradeCall) (decision : RiskDecision) : Attempt :=
  match d.fault .commit with
  | none => ⟨{ w with db := session }, calls, .recorded decision⟩
  | some .before => ⟨w, calls, .raised⟩
  | some .after => ⟨{ w with db := session }, calls, .raised⟩

/-- The tail of both signal handlers: an exception in the order half leaves the attempt,
otherwise the session is committed. -/
def World.finish (w : World) (d : Delivery) (decision : RiskDecision) :
    Option Database × List FreqtradeCall → Attempt
  | (none, calls) => w.raised calls
  | (some session, calls) => w.commit d session calls decision

/-- The `SignalView` of a signal row. -/
def Signal.view (s : Signal) : SignalView :=
  { id := s.id
    symbol := s.symbol
    action := s.action
    confidence := s.confidence
    candleTs := s.candleTs
    price := s.price
    atr14 := s.atr14
    setupRegime := s.setupRegime
    tradeScore := s.tradeScore }

/-! ## Audit and order records -/

/-- The sizing figures an approval's audit payload shows. -/
structure DecisionFigures where
  nominalRiskAmountUsdt : Option ℚ := none
  actualRiskUsdt : Option ℚ := none
  stopDistancePct : Option ℚ := none
  expectancyCheck : Option ExpectancyCheck := none

/-- `_write_decision_audit_event`. -/
def writeDecisionAuditEvent (session : Database) (startedAt : Time) (signal : Signal)
    (approved : Bool) (rejectionReason : Option RejectionReason)
    (figures : DecisionFigures := {}) : Database :=
  let eventType := if approved then AuditEventType.RISK_APPROVED else .RISK_REJECTED
  let payload : Payload :=
    [("signal_id", PayloadAtom.uuid signal.id),
      ("approved", PayloadAtom.bool approved),
      ("rejection_reason", PayloadAtom.ofReason rejectionReason)]
  let sizing : Payload :=
    if approved then
      [("nominal_risk_amount_usdt", PayloadAtom.ofNumber figures.nominalRiskAmountUsdt),
        ("actual_risk_usdt", PayloadAtom.ofNumber figures.actualRiskUsdt),
        ("stop_distance_pct", PayloadAtom.ofNumber figures.stopDistancePct)]
    else []
  let check : Payload :=
    match figures.expectancyCheck with
    | some c => [("expectancy_check", .object c.asPayload)]
    | none => []
  session.addAuditEvent startedAt signal.traceId eventType (payload ++ sizing ++ check)

/-- The audit event of a submitted or failed order. -/
def writeOrderAuditEvent (session : Database) (startedAt : Time) (signal : Signal)
    (side : OrderSide) (status : OrderStatus) : Database :=
  let eventType := if status = .SUBMITTED then AuditEventType.ORDER_SUBMITTED else .ORDER_FAILED
  session.addAuditEvent startedAt signal.traceId eventType
    [("symbol", PayloadAtom.text signal.symbol), ("side", PayloadAtom.side side),
      ("status", PayloadAtom.status status)]

/-- The tag `_submit_entry_order` sends: the stop distance implied by the stop price. -/
def entryTagOf (signal : Signal) (stopLossPrice : Option ℚ) : Option EntryTag :=
  match stopLossPrice with
  | some stop => if 0 < signal.price then some (.slpct (1 - stop / signal.price)) else none
  | none => none

/-- `_submit_entry_order`; no session where an exception leaves it. -/
def submitEntryOrder (d : Delivery) (session : Database) (signal : Signal)
    (riskDecisionId : Uuid) (positionSizeUsdt positionSizeBase : ℚ)
    (stopLossPrice : Option ℚ) : Option Database × List FreqtradeCall :=
  let (response, calls) := forceenter d.forceenterReply signal.symbol positionSizeUsdt
    (entryTagOf signal stopLossPrice)
  let order (freqtradeTradeId : Option ℤ) (status : OrderStatus) : Order :=
    { id := session.nextId
      traceId := signal.traceId
      riskDecisionId
      freqtradeTradeId
      symbol := signal.symbol
      side := .BUY
      status
      requestedAmount := positionSizeBase
      dryRun := d.config.dryRun
      createdAt := d.startedAt }
  match response with
  | .raised => (none, calls)
  | .unavailable =>
    let session := session.insertOrder (order none .FAILED)
    (some (writeOrderAuditEvent session d.startedAt signal .BUY .FAILED), calls)
  | .ok body =>
    let session := session.insertOrder (order body.tradeRef .SUBMITTED)
    (some (writeOrderAuditEvent session d.startedAt signal .BUY .SUBMITTED), calls)

/-- Whether `_submit_exit_order` gets the trade closed, and the requests it makes: the
trade is fetched first, and must be the open trade of the signal's pair. -/
def forceexitOpenTrade (d : Delivery) (symbol : Symbol) (tradeId : ℤ) :
    Bool × List FreqtradeCall :=
  match d.getTrade with
  | none => (false, [])
  | some trade =>
    if trade.pair ≠ symbol ∨ !trade.isOpen then (false, [])
    else (forceexit d.exitRetryAttempts d.forceexitPost, [.forceexit tradeId])

/-- `_submit_exit_order`. -/
def submitExitOrder (d : Delivery) (session : Database) (signal : Signal)
    (riskDecisionId : Uuid) : Option Database × List FreqtradeCall :=
  if d.fails .submitRead then (none, [])
  else
    match d.rows.positions.first (session.positions.filter fun p =>
        p.symbol = signal.symbol ∧ p.status = .OPEN) with
    | none => (some session, [])
    | some position =>
      match (session.getOrder position.entryOrderId).bind Order.freqtradeTradeId with
      | none => (some session, [])
      | some tradeId =>
        let (submitted, calls) := forceexitOpenTrade d signal.symbol tradeId
        let status := if submitted then OrderStatus.SUBMITTED else .FAILED
        let order : Order :=
          { id := session.nextId
            traceId := signal.traceId
            riskDecisionId
            freqtradeTradeId := some tradeId
            symbol := signal.symbol
            side := .SELL
            status
            requestedAmount := position.amount
            dryRun := d.config.dryRun
            createdAt := d.startedAt }
        if d.fails .submitFlush then (none, calls)
        else
          let session := session.insertOrder order
          let session :=
            if submitted then
              session.modifyPosition position.id fun p => { p with exitOrderId := some order.id }
            else session
          (some (writeOrderAuditEvent session d.startedAt signal .SELL status), calls)

/-! ## Entry and exit signals -/

/-- The fail-closed result of an evaluation that raised. -/
def internalErrorResult (account : AccountState) : RiskDecisionResult :=
  { approved := false
    rejectionReason := some .INTERNAL_ERROR
    equitySnapshotUsdt := account.equityUsdt }

/-- The evaluation `_handle_entry_signal` acts on. -/
def entryResult (db : Database) (d : Delivery) (view : SignalView) (account : AccountState)
    (isDuplicate : Bool) (expectancy : ExpectancyView) : RiskDecisionResult :=
  (evaluate view account d.config d.now (KillSwitch.isEnabled db) isDuplicate
    expectancy).getD (internalErrorResult account)

/-- The auto-trip of the kill switch: the world after it and the session, which is gone
where a step of `kill_switch.enable` raises. -/
def autoTrip (w : World) (d : Delivery) (signal : Signal) (result : RiskDecisionResult) :
    World × Option Database :=
  if !result.autoTripKillswitch then (w, some w.db)
  else if d.fails .killSwitchWrite then (w, none)
  else
    let reason := (result.rejectionReason.map RejectionReason.value).getD "AUTO_TRIP"
    let session := KillSwitch.enable w.db d.startedAt reason "SYSTEM" signal.traceId
    let mirrored := { w with redis := { w.redis with killswitchGlobal := some true } }
    match d.fault .killSwitchMirror with
    | none => (mirrored, some session)
    | some .before => (w, none)
    | some .after => (mirrored, none)

/-- The `RiskDecision` row of an entry evaluation. -/
def entryDecision (id : Uuid) (signal : Signal) (result : RiskDecisionResult) :
    RiskDecision :=
  { id
    traceId := signal.traceId
    signalId := signal.id
    approved := result.approved
    rejectionReason := result.rejectionReason
    positionSizeUsdt := result.positionSizeUsdt
    positionSizeBase := result.positionSizeBase
    stopLossPrice := result.stopLossPrice
    stopDistancePct := result.stopDistancePct
    equitySnapshotUsdt := some result.equitySnapshotUsdt
    riskPctApplied := result.riskPctApplied
    nominalRiskAmountUsdt := result.nominalRiskAmountUsdt
    actualRiskUsdt := result.actualRiskUsdt }

/-- The order half of `_handle_entry_signal`: nothing for a rejection. -/
def submitApprovedEntry (d : Delivery) (session : Database) (signal : Signal)
    (riskDecisionId : Uuid) (result : RiskDecisionResult) :
    Option Database × List FreqtradeCall :=
  if result.approved then
    match result.positionSizeUsdt, result.positionSizeBase with
    | some positionSizeUsdt, some positionSizeBase =>
      submitEntryOrder d session signal riskDecisionId positionSizeUsdt positionSizeBase
        result.stopLossPrice
    | _, _ => (none, [])
  else (some session, [])

/-- `_handle_entry_signal`. -/
def handleEntrySignal (w : World) (d : Delivery) (signal : Signal) (view : SignalView)
    (account : AccountState) (isDuplicate : Bool) (expectancy : ExpectancyView) : Attempt :=
  if d.fails .killSwitchRead then w.raised []
  else
    let result := entryResult w.db d view account isDuplicate expectancy
    match autoTrip w d signal result with
    | (w, none) => w.raised []
    | (w, some session) =>
      if d.fails .decisionFlush then w.raised []
      else
        let decision := entryDecision session.nextId signal result
        let session := session.insertRiskDecision decision
        if d.fails .auditWrite then w.raised []
        else
          let session := writeDecisionAuditEvent session d.startedAt signal result.approved
            result.rejectionReason
            { nominalRiskAmountUsdt := result.nominalRiskAmountUsdt
              actualRiskUsdt := result.actualRiskUsdt
              stopDistancePct := result.stopDistancePct
              expectancyCheck := result.expectancyCheck }
          w.finish d decision (submitApprovedEntry d session signal decision.id result)

/-- The evaluation `_handle_exit_signal` acts on: one that raised is answered fail-closed. -/
def exitResult (d : Delivery) (view : SignalView) (account : AccountState)
    (isDuplicate : Bool) : ExitDecisionResult :=
  (evaluateExit view account d.config d.now isDuplicate).getD
    { approved := false
      rejectionReason := some .INTERNAL_ERROR
      equitySnapshotUsdt := account.equityUsdt }

/-- The `RiskDecision` row of an exit evaluation. -/
def exitDecision (id : Uuid) (signal : Signal) (result : ExitDecisionResult) :
    RiskDecision :=
  { id
    traceId := signal.traceId
    signalId := signal.id
    approved := result.approved
    rejectionReason := result.rejectionReason
    equitySnapshotUsdt := some result.equitySnapshotUsdt }

/-- The order half of `_handle_exit_signal`. -/
def submitApprovedExit (d : Delivery) (session : Database) (signal : Signal)
    (riskDecisionId : Uuid) (result : ExitDecisionResult) :
    Option Database × List FreqtradeCall :=
  if result.approved then submitExitOrder d session signal riskDecisionId
  else (some session, [])

/-- `_handle_exit_signal`. -/
def handleExitSignal (w : World) (d : Delivery) (signal : Signal) (view : SignalView)
    (account : AccountState) (isDuplicate : Bool) : Attempt :=
  let result := exitResult d view account isDuplicate
  if d.fails .decisionFlush then w.raised []
  else
    let decision := exitDecision w.db.nextId signal result
    let session := w.db.insertRiskDecision decision
    if d.fails .auditWrite then w.raised []
    else
      let session := writeDecisionAuditEvent session d.startedAt signal result.approved
        result.rejectionReason
      w.finish d decision (submitApprovedExit d session signal decision.id result)

/-- `_record_balance_unavailable`. -/
def recordBalanceUnavailable (w : World) (d : Delivery) (signal : Signal) : Attempt :=
  let decision : RiskDecision :=
    { id := w.db.nextId
      traceId := signal.traceId
      signalId := signal.id
      approved := false
      rejectionReason := some .FREQTRADE_BALANCE_UNAVAILABLE
      equitySnapshotUsdt := none }
  let session := w.db.insertRiskDecision decision
  if d.fails .auditWrite then w.raised []
  else
    let session := writeDecisionAuditEvent session d.startedAt signal false
      (some .FREQTRADE_BALANCE_UNAVAILABLE)
    w.commit d session [] decision

/-! ## The attempt -/

/-- An attempt does not come by its account state: a dependency fails, or the cluster window of
the config is out of the range of `timedelta`. -/
def Delivery.accountRaises (d : Delivery) : Bool :=
  d.fails .accountState || (timedeltaMinutes d.config.consecutiveLossClusterMinutes).isNone

/-- The account state an attempt loads. -/
def Delivery.account (d : Delivery) (db : Database) (balance : AccountBalanceSnapshot) :
    AccountState :=
  loadAccountState d.rows db balance (minutes d.config.consecutiveLossClusterMinutes) d.now

/-- The expectancy view an attempt loads for the signal's setup. -/
def Delivery.expectancy (d : Delivery) (db : Database) (signal : Signal) : ExpectancyView :=
  loadExpectancyState d.rows db signal.setupRegime signal.tradeScore

/-- The part of `process_signal` after the idempotency key has been asked for. -/
def decideSignal (w : World) (d : Delivery) (signal : Signal)
    (balance : AccountBalanceSnapshot) (isDuplicate : Bool) : Attempt :=
  if d.accountRaises then w.raised []
  else
    let account := d.account w.db balance
    if signal.action = .SELL then
      handleExitSignal w d signal signal.view account isDuplicate
    else if d.fails .expectancy then w.raised []
    else
      let expectancy := d.expectancy w.db signal
      handleEntrySignal w d signal signal.view account isDuplicate expectancy

/-- `process_signal`. -/
def processSignal (w : World) (d : Delivery) : Attempt :=
  if d.fails .loadSignal then w.raised []
  else
    match w.db.getSignal d.signalId with
    | none => ⟨w, [], .signalNotFound⟩
    | some signal =>
      match getAccountBalance d.balance d.now with
      | none => recordBalanceUnavailable w d signal
      | some balance =>
        if d.fails .publishBalance then w.raised []
        else if w.redis.holds signal.id d.now then
          if d.fails .claimKey then w.raised [] else decideSignal w d signal balance true
        else
          let claimed := { w with redis := w.redis.claim signal.id d.now }
          match d.fault .claimKey with
          | some .before => w.raised []
          | some .after => claimed.raised []
          | none => decideSignal claimed d signal balance false

/-- `_handle_message` for a message that names a signal: the attempt, and whether the
message is acknowledged. -/
def handleMessage (w : World) (d : Delivery) : Attempt × Bool :=
  if d.fails .loadConfig then (w.raised [], false)
  else
    let attempt := processSignal w d
    (attempt, attempt.outcome ≠ .raised)

end TradeMind.Model
