import TradeMind.Model.AccountState

/-!
# The Freqtrade webhook receiver

`admin_api/routers/webhooks.py`.  One request is one transaction: the handler rewrites the
session's rows and the router commits whatever it changed, early returns included.  A
date field stands for what `datetime.fromisoformat` makes of it.
-/

set_option autoImplicit false

namespace TradeMind.Model

/-- A date string of the payload. -/
inductive DateText
  | empty
  | instant (t : Time)
  | unparseable (text : String)
  deriving DecidableEq, Repr

/-- The events the router has handlers for; any other is ignored. -/
inductive WebhookEvent
  | entry_fill | exit_fill | entry_cancel | exit_cancel
  | other (name : String)
  deriving DecidableEq, Repr

structure FreqtradeWebhookPayload where
  event : WebhookEvent
  tradeId : ℤ
  pair : Symbol
  secret : String
  openRate : Option ℚ := none
  amount : Option ℚ := none
  openDate : Option DateText := none
  closeRate : Option ℚ := none
  profitAmount : Option ℚ := none
  profitRatio : Option ℚ := none
  closeDate : Option DateText := none
  exitReason : Option String := none
  deriving DecidableEq, Repr

/-- What a webhook request meets: its transaction's start, the clock, the row orders, the
effective risk config and the configured secret. -/
structure WebhookContext where
  startedAt : Time
  now : Time
  rows : RowOrder
  config : RiskConfig
  sharedSecret : String

/-- `_parse_freqtrade_datetime`. -/
def parseFreqtradeDatetime (value : Option DateText) : Option Time :=
  match value with
  | some (.instant t) => some t
  | _ => none

/-- `_find_order`: the newest order of the trade, else the newest unmatched SUBMITTED
order of the pair and side, which then gets the trade id. -/
def findOrder (rows : RowOrder) (db : Database) (tradeId : ℤ) (pair : Symbol)
    (side : OrderSide) : Option Order × Database :=
  match rows.orders.firstDesc Order.createdAt (db.orders.filter fun o =>
      o.freqtradeTradeId = some tradeId ∧ o.symbol = pair ∧ o.side = side) with
  | some order => (some order, db)
  | none =>
    match rows.orders.firstDesc Order.createdAt (db.orders.filter fun o =>
        o.symbol = pair ∧ o.side = side ∧ o.status = .SUBMITTED ∧ o.freqtradeTradeId = none) with
    | some order =>
      let backfill (o : Order) : Order := { o with freqtradeTradeId := some tradeId }
      (some (backfill order), db.modifyOrder order.id backfill)
    | none => (none, db)

/-- The three columns a fill writes on its order. -/
def Order.fill (o : Order) (amount price : ℚ) : Order :=
  { o with status := .FILLED, filledAmount := some amount, avgPrice := some price }

/-! ## Entry fills -/

/-- `_load_entry_signal`. -/
def loadEntrySignal (db : Database) (entryOrder : Order) : Option Signal :=
  (db.getRiskDecision entryOrder.riskDecisionId).bind fun d => db.getSignal d.signalId

/-- The position `_handle_entry_fill` opens. -/
def entryFillPosition (ctx : WebhookContext) (db : Database)
    (payload : FreqtradeWebhookPayload) (order : Order) (openRate amount : ℚ) : Position :=
  let entrySignal := loadEntrySignal db order
  { id := db.nextId
    symbol := payload.pair
    status := .OPEN
    entryOrderId := order.id
    entryPrice := openRate
    amount
    openedAt := (parseFreqtradeDatetime payload.openDate).getD ctx.startedAt
    marketRegime := entrySignal.bind Signal.setupRegime
    tradeScore := entrySignal.bind Signal.tradeScore
    volatilityRegime := entrySignal.bind Signal.volatilityRegime }

/-- `_handle_entry_fill`. -/
def handleEntryFill (ctx : WebhookContext) (db : Database)
    (payload : FreqtradeWebhookPayload) : Database :=
  match findOrder ctx.rows db payload.tradeId payload.pair .BUY, payload.openRate,
      payload.amount with
  | (some order, db), some openRate, some amount =>
    let db := db.modifyOrder order.id fun o => o.fill amount openRate
    let db := db.insertPosition (entryFillPosition ctx db payload order openRate amount)
    let db := db.addAuditEvent ctx.startedAt order.traceId .ORDER_FILLED
      [("trade_id", PayloadAtom.number payload.tradeId), ("pair", PayloadAtom.text payload.pair),
        ("side", PayloadAtom.side .BUY)]
    db.addAuditEvent ctx.startedAt order.traceId .POSITION_OPENED
      [("trade_id", PayloadAtom.number payload.tradeId), ("pair", PayloadAtom.text payload.pair),
        ("entry_price", PayloadAtom.number openRate), ("amount", PayloadAtom.number amount)]
  | (_, db), _, _ => db

/-! ## Exit fills -/

/-- `_load_actual_risk_usdt`. -/
def loadActualRiskUsdt (db : Database) (position : Position) : Option ℚ :=
  ((db.getOrder position.entryOrderId).bind fun entryOrder =>
    db.getRiskDecision entryOrder.riskDecisionId).bind RiskDecision.actualRiskUsdt

/-- The R-multiple of a close; an unknown or zero risk has none. -/
def rMultipleOf (actualRiskUsdt profitAmount : Option ℚ) : Option ℚ :=
  match actualRiskUsdt, profitAmount with
  | some risk, some profit => if risk = 0 then none else some (profit / risk)
  | _, _ => none

/-- `_estimate_fees_usdt` for a payload with close rate and amount. -/
def estimateFeesUsdt (config : RiskConfig) (position : Position) (closeRate amount : ℚ) : ℚ :=
  let entryNotional := position.entryPrice * position.amount
  let exitNotional := closeRate * amount
  config.estimatedFeePct * (entryNotional + exitNotional)

/-- The OPEN position on the pair whose BUY order carries the trade id, with that order. -/
def autonomousExitMatch (rows : RowOrder) (db : Database) (tradeId : ℤ) (pair : Symbol) :
    Option (Position × Order) :=
  rows.joined.first ((db.positions.product db.orders).filter fun row =>
    row.1.entryOrderId = row.2.id ∧ row.1.symbol = pair ∧ row.1.status = .OPEN ∧
      row.2.freqtradeTradeId = some tradeId ∧ row.2.side = .BUY)

/-- The SELL order an exit fill settles: the one found, else a synthetic one anchored to
the entry of the position the trade belongs to. -/
def exitOrder (ctx : WebhookContext) (db : Database) (payload : FreqtradeWebhookPayload)
    (closeRate amount : ℚ) (found : Option Order) : Option (Order × Database) :=
  match found with
  | some order => some (order, db)
  | none =>
    match autonomousExitMatch ctx.rows db payload.tradeId payload.pair with
    | none => none
    | some (position, entryOrder) =>
      let order : Order :=
        { id := db.nextId
          traceId := entryOrder.traceId
          riskDecisionId := entryOrder.riskDecisionId
          freqtradeTradeId := some payload.tradeId
          symbol := payload.pair
          side := .SELL
          status := .FILLED
          requestedAmount := position.amount
          filledAmount := some amount
          avgPrice := some closeRate
          dryRun := entryOrder.dryRun
          createdAt := ctx.startedAt }
      some (order, db.insertOrder order)

/-- The position an exit fill closes: the one linked to the order, else any OPEN position
on the pair. -/
def exitPosition (rows : RowOrder) (db : Database) (orderId : Uuid) (pair : Symbol) :
    Option Position :=
  match rows.positions.first (db.positions.filter fun p => p.exitOrderId = some orderId) with
  | some position => some position
  | none => rows.positions.first (db.positions.filter fun p => p.symbol = pair ∧ p.status = .OPEN)

/-- The columns `_handle_exit_fill` writes on the position it closes. -/
def closeByFill (ctx : WebhookContext) (payload : FreqtradeWebhookPayload) (orderId : Uuid)
    (closeRate : ℚ) (rMultiple : Option ℚ) (feesUsdt : ℚ) (p : Position) : Position :=
  { p with
    status := .CLOSED
    exitOrderId := some orderId
    exitPrice := some closeRate
    pnlUsdt := payload.profitAmount
    pnlPct := payload.profitRatio
    closedAt := some ((parseFreqtradeDatetime payload.closeDate).getD ctx.now)
    exitReason := payload.exitReason
    rMultiple
    feesUsdt := some feesUsdt
    feesEstimated := true }

/-- The close of a position by an exit fill, with its two audit events. -/
def settleExit (ctx : WebhookContext) (db : Database) (payload : FreqtradeWebhookPayload)
    (order : Order) (position : Position) (closeRate amount : ℚ) : Database :=
  let rMultiple := rMultipleOf (loadActualRiskUsdt db position) payload.profitAmount
  let feesUsdt := estimateFeesUsdt ctx.config position closeRate amount
  let db := db.modifyPosition position.id
    (closeByFill ctx payload order.id closeRate rMultiple feesUsdt)
  let db := db.addAuditEvent ctx.startedAt order.traceId .ORDER_FILLED
    [("trade_id", PayloadAtom.number payload.tradeId), ("pair", PayloadAtom.text payload.pair),
      ("side", PayloadAtom.side .SELL), ("source", PayloadAtom.text "freqtrade_webhook"),
      ("exit_reason", PayloadAtom.ofText payload.exitReason)]
  db.addAuditEvent ctx.startedAt order.traceId .POSITION_CLOSED
    [("trade_id", PayloadAtom.number payload.tradeId), ("pair", PayloadAtom.text payload.pair),
      ("pnl_usdt", PayloadAtom.ofNumber payload.profitAmount),
      ("source", PayloadAtom.text "freqtrade_webhook"),
      ("exit_reason", PayloadAtom.ofText payload.exitReason),
      ("r_multiple", PayloadAtom.ofNumber rMultiple), ("fees_usdt", PayloadAtom.number feesUsdt),
      ("fees_estimated", PayloadAtom.bool true)]

/-- `_handle_exit_fill`. -/
def handleExitFill (ctx : WebhookContext) (db : Database)
    (payload : FreqtradeWebhookPayload) : Database :=
  let (found, db) := findOrder ctx.rows db payload.tradeId payload.pair .SELL
  match payload.closeRate, payload.amount with
  | some closeRate, some amount =>
    match exitOrder ctx db payload closeRate amount found with
    | none => db
    | some (order, db) =>
      let db := db.modifyOrder order.id fun o => o.fill amount closeRate
      match exitPosition ctx.rows db order.id payload.pair with
      | none => db
      | some position => settleExit ctx db payload order position closeRate amount
  | _, _ => db

/-! ## Cancellations -/

/-- `_mark_cancelled`. -/
def markCancelled (ctx : WebhookContext) (db : Database)
    (payload : FreqtradeWebhookPayload) (side : OrderSide) : Database :=
  match findOrder ctx.rows db payload.tradeId payload.pair side with
  | (none, db) => db
  | (some order, db) =>
    let db := db.modifyOrder order.id fun o => { o with status := .CANCELLED }
    db.addAuditEvent ctx.startedAt order.traceId .ORDER_CANCELLED
      [("trade_id", PayloadAtom.number payload.tradeId), ("pair", PayloadAtom.text payload.pair),
        ("side", PayloadAtom.side side)]

/-- `_handle_entry_cancel`. -/
def handleEntryCancel (ctx : WebhookContext) (db : Database)
    (payload : FreqtradeWebhookPayload) : Database :=
  markCancelled ctx db payload .BUY

/-- `_handle_exit_cancel`. -/
def handleExitCancel (ctx : WebhookContext) (db : Database)
    (payload : FreqtradeWebhookPayload) : Database :=
  markCancelled ctx db payload .SELL

/-- `freqtrade_webhook`; `none` is the 401 answer. -/
def freqtradeWebhook (ctx : WebhookContext) (db : Database)
    (payload : FreqtradeWebhookPayload) : Option Database :=
  if ctx.sharedSecret = "" ∨ payload.secret ≠ ctx.sharedSecret then none
  else
    some (match payload.event with
      | .entry_fill => handleEntryFill ctx db payload
      | .exit_fill => handleExitFill ctx db payload
      | .entry_cancel => handleEntryCancel ctx db payload
      | .exit_cancel => handleExitCancel ctx db payload
      | .other _ => db)

end TradeMind.Model
