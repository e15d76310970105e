import TradeMind.Model.Freqtrade
import TradeMind.Model.Webhooks

/-!
# Reconciliation

`risk_engine/reconciliation.py`: one pass over the stale SUBMITTED orders and then over
the OPEN positions, against Freqtrade's trade records.  Every lookup is made for one row,
so the remote answers are a function of the row asked about and the trade id; two rows
with one trade id may get different answers.
-/

set_option autoImplicit false

namespace TradeMind.Model

/-- What one pass meets.  `getTrade row tradeId` is the answer to the lookup made for the
order or position with id `row`; `none` is `FreqtradeUnavailable`. -/
structure ReconcileContext where
  startedAt : Time
  now : Time
  staleAfter : Time
  rows : RowOrder
  getTrade : Uuid → ℤ → Option FreqtradeTrade

/-- `_alert_once`: one RECONCILIATION_REQUIRED event per trace. -/
def alertOnce (ctx : ReconcileContext) (db : Database) (order : Order) (reason : String) :
    Database :=
  if db.auditEvents.any fun e =>
      e.traceId = order.traceId ∧ e.eventType = .RECONCILIATION_REQUIRED then db
  else
    db.addAuditEvent ctx.startedAt order.traceId .RECONCILIATION_REQUIRED
      [("order_id", PayloadAtom.uuid order.id), ("symbol", PayloadAtom.text order.symbol),
        ("reason", PayloadAtom.text reason)]

/-- The ORDER_FILLED event of a reconciled order. -/
def auditReconciledFill (ctx : ReconcileContext) (db : Database) (order : Order)
    (tradeId : ℤ) (pair : Symbol) (side : OrderSide) (source : String) : Database :=
  db.addAuditEvent ctx.startedAt order.traceId .ORDER_FILLED
    [("order_id", PayloadAtom.uuid order.id), ("trade_id", PayloadAtom.number tradeId),
      ("pair", PayloadAtom.text pair), ("side", PayloadAtom.side side),
      ("source", PayloadAtom.text source)]

/-- The POSITION_CLOSED event of a reconciled exit. -/
def auditReconciledClose (ctx : ReconcileContext) (db : Database) (order : Order)
    (trade : FreqtradeTrade) (pair : Symbol) (source : String) : Database :=
  db.addAuditEvent ctx.startedAt order.traceId .POSITION_CLOSED
    [("order_id", PayloadAtom.uuid order.id), ("trade_id", PayloadAtom.number trade.tradeId),
      ("pair", PayloadAtom.text pair), ("pnl_usdt", PayloadAtom.ofNumber trade.profitAbs),
      ("source", PayloadAtom.text source)]

/-- The columns a reconciled close writes on the position. -/
def closeByTrade (ctx : ReconcileContext) (trade : FreqtradeTrade) (closeRate : ℚ)
    (p : Position) : Position :=
  { p with
    status := .CLOSED
    exitPrice := some closeRate
    pnlUsdt := trade.profitAbs
    pnlPct := trade.profitRatio
    closedAt := some (trade.closeDate.getD ctx.now) }

/-- The open rate and amount of a trade whose entry is confirmed filled. -/
def confirmedEntry (trade : FreqtradeTrade) : Option (ℚ × ℚ) :=
  match trade.openRate, trade.amount with
  | some openRate, some amount =>
    if amount ≤ 0 ∨ trade.hasOpenOrders ≠ some false ∨ trade.openFillDate = none then none
    else some (openRate, amount)
  | _, _ => none

/-- `_reconcile_open_entry`. -/
def reconcileOpenEntry (ctx : ReconcileContext) (db : Database) (order : Order)
    (trade : FreqtradeTrade) : Database × Bool :=
  match confirmedEntry trade with
  | none => (alertOnce ctx db order "entry_not_confirmed_filled", false)
  | some (openRate, amount) =>
    let position := ctx.rows.positions.first
      (db.positions.filter fun p => p.entryOrderId = order.id)
    let db := db.modifyOrder order.id fun o => o.fill amount openRate
    let db :=
      match position with
      | some _ => db
      | none =>
        db.insertPosition
          { id := db.nextId
            symbol := order.symbol
            status := .OPEN
            entryOrderId := order.id
            entryPrice := openRate
            amount
            openedAt := trade.openDate.getD ctx.now }
    let db := auditReconciledFill ctx db order trade.tradeId order.symbol .BUY "reconciliation"
    let db := db.addAuditEvent ctx.startedAt order.traceId .POSITION_OPENED
      [("order_id", PayloadAtom.uuid order.id), ("trade_id", PayloadAtom.number trade.tradeId),
        ("pair", PayloadAtom.text order.symbol), ("source", PayloadAtom.text "reconciliation")]
    (db, true)

/-- `_reconcile_closed_exit`. -/
def reconcileClosedExit (ctx : ReconcileContext) (db : Database) (order : Order)
    (trade : FreqtradeTrade) : Database × Bool :=
  match trade.closeRate, trade.amount with
  | some closeRate, some amount =>
    match ctx.rows.positions.first
        (db.positions.filter fun p => p.exitOrderId = some order.id) with
    | none => (alertOnce ctx db order "open_position_missing", false)
    | some position =>
      let db := db.modifyOrder order.id fun o => o.fill amount closeRate
      let db := db.modifyPosition position.id (closeByTrade ctx trade closeRate)
      let db := auditReconciledFill ctx db order trade.tradeId order.symbol .SELL
        "reconciliation"
      (auditReconciledClose ctx db order trade order.symbol "reconciliation", true)
  | _, _ => (alertOnce ctx db order "exit_fill_fields_missing", false)

/-- The loop body over the stale SUBMITTED orders. -/
def reconcileOrder (ctx : ReconcileContext) (db : Database) (order : Order) :
    Database × Bool :=
  match order.freqtradeTradeId with
  | none => (alertOnce ctx db order "missing_freqtrade_trade_id", false)
  | some tradeId =>
    match ctx.getTrade order.id tradeId with
    | none => (alertOnce ctx db order "freqtrade_lookup_failed", false)
    | some trade =>
      if trade.pair ≠ order.symbol then (alertOnce ctx db order "freqtrade_pair_mismatch", false)
      else if order.side = .BUY ∧ trade.isOpen then reconcileOpenEntry ctx db order trade
      else if order.side = .SELL ∧ !trade.isOpen then reconcileClosedExit ctx db order trade
      else (alertOnce ctx db order "remote_state_ambiguous", false)

/-- The loop body of `_reconcile_open_positions`. -/
def reconcilePosition (ctx : ReconcileContext) (db : Database) (row : Position × Order) :
    Database × Bool :=
  let (position, entryOrder) := row
  match entryOrder.freqtradeTradeId with
  | none => (db, false)
  | some tradeId =>
    match ctx.getTrade position.id tradeId with
    | none => (alertOnce ctx db entryOrder "freqtrade_position_lookup_failed", false)
    | some trade =>
      if trade.pair ≠ position.symbol then
        (alertOnce ctx db entryOrder "freqtrade_position_pair_mismatch", false)
      else if trade.isOpen then (db, false)
      else
        match trade.closeRate, trade.amount with
        | some closeRate, some amount =>
          let exitOrder : Order :=
            { id := db.nextId
              traceId := entryOrder.traceId
              riskDecisionId := entryOrder.riskDecisionId
              freqtradeTradeId := some trade.tradeId
              symbol := position.symbol
              side := .SELL
              status := .FILLED
              requestedAmount := position.amount
              filledAmount := some amount
              avgPrice := some closeRate
              dryRun := entryOrder.dryRun
              createdAt := ctx.startedAt }
          let db := db.insertOrder exitOrder
          let db := db.modifyPosition position.id fun p =>
            closeByTrade ctx trade closeRate { p with exitOrderId := some exitOrder.id }
          let db := auditReconciledFill ctx db exitOrder trade.tradeId position.symbol .SELL
            "position_reconciliation"
          (auditReconciledClose ctx db exitOrder trade position.symbol
            "position_reconciliation", true)
        | _, _ => (alertOnce ctx db entryOrder "position_exit_fields_missing", false)

/-- A loop that counts the rows its body reconciled. -/
def reconcileEach {α : Type} (body : Database → α → Database × Bool) (db : Database)
    (rows : List α) : Database × ℕ :=
  rows.foldl (fun acc row =>
    let (db, done) := body acc.1 row
    (db, if done then acc.2 + 1 else acc.2)) (db, 0)

/-- The stale SUBMITTED orders of a pass. -/
def staleOrders (ctx : ReconcileContext) (db : Database) : List Order :=
  ctx.rows.orders.arrange (db.orders.filter fun o =>
    o.status = .SUBMITTED ∧ o.createdAt ≤ ctx.now - ctx.staleAfter)

/-- The OPEN positions of a pass with their BUY orders that carry a trade id. -/
def trackedPositions (ctx : ReconcileContext) (db : Database) : List (Position × Order) :=
  ctx.rows.joined.arrange ((db.positions.product db.orders).filter fun row =>
    row.1.entryOrderId = row.2.id ∧ row.1.status = .OPEN ∧
      row.2.freqtradeTradeId ≠ none ∧ row.2.side = .BUY)

/-- `_reconcile_open_positions`. -/
def reconcileOpenPositions (ctx : ReconcileContext) (db : Database) : Database × ℕ :=
  reconcileEach (reconcilePosition ctx) db (trackedPositions ctx db)

/-- `reconcile_submitted_orders`: the committed tables and the number of rows reconciled. -/
def reconcileSubmittedOrders (ctx : ReconcileContext) (db : Database) : Database × ℕ :=
  let (db, orders) := reconcileEach (reconcileOrder ctx) db (staleOrders ctx db)
  let (db, positions) := reconcileOpenPositions ctx db
  (db, orders + positions)

end TradeMind.Model
