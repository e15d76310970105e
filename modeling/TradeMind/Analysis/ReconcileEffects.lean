import TradeMind.Analysis.SignalEffects

/-!
# What one reconciliation pass does

A pass is two loops.  `OrderReconciled` and `PositionReconciled` say what one round of
each does to the book, alerts aside, and `reconcileSubmittedOrders_inv` carries what the
rounds keep over the whole pass.
-/

set_option autoImplicit false

namespace TradeMind.Analysis

open TradeMind.Library TradeMind.Model

/-- The position that a reconciliation opens for an entry order it finds filled, without fees, R or
labels. -/
structure OpenedFor (order : Order) (nextId : Uuid) (position : Position) : Prop where
  id : position.id = nextId
  symbol : position.symbol = order.symbol
  status : position.status = .OPEN
  entryOrderId : position.entryOrderId = order.id
  exitOrderId : position.exitOrderId = none
  bare : position.feesUsdt = none ∧ position.rMultiple = none ∧ position.marketRegime = none ∧
    position.tradeScore = none ∧ position.volatilityRegime = none

/-- The lookup made for a row answers that the trade is on the pair and closed, with a close
rate and an amount. -/
def ReportsClosed (ctx : ReconcileContext) (row : Uuid) (tradeId : ℤ) (pair : Symbol) : Prop :=
  ∃ trade, ctx.getTrade row tradeId = some trade ∧ trade.pair = pair ∧ trade.isOpen = false ∧
    trade.closeRate ≠ none ∧ trade.amount ≠ none

/-- What a round over a stale SUBMITTED order does to the book. -/
inductive OrderReconciled (ctx : ReconcileContext) (db : Database) (order : Order)
    (db' : Database) : Prop
  | alerted (hbook : SameBook db db')
  | entered (openRate amount : ℚ) (hside : order.side = .BUY)
      (horders : db'.orders =
        modifyRow Order.id order.id (fun o => o.fill amount openRate) db.orders)
      (hpositions : db'.positions = db.positions ∨
        ∃ position, (∀ p ∈ db.positions, p.entryOrderId ≠ order.id) ∧
          OpenedFor order db.nextId position ∧ db'.positions = db.positions ++ [position])
      (hsignals : db'.signals = db.signals) (hnextId : db.nextId < db'.nextId)
  | exited (position : Position) (trade : FreqtradeTrade) (closeRate amount : ℚ) (tradeId : ℤ)
      (htradeId : order.freqtradeTradeId = some tradeId)
      (hreports : ReportsClosed ctx order.id tradeId order.symbol)
      (hside : order.side = .SELL) (hmem : position ∈ db.positions)
      (hlinked : position.exitOrderId = some order.id)
      (horders : db'.orders =
        modifyRow Order.id order.id (fun o => o.fill amount closeRate) db.orders)
      (hpositions : db'.positions =
        modifyRow Position.id position.id (closeByTrade ctx trade closeRate) db.positions)
      (hsignals : db'.signals = db.signals) (hnextId : db.nextId ≤ db'.nextId)

/-- What a round over an OPEN position does to the book. -/
inductive PositionReconciled (ctx : ReconcileContext) (db : Database) (position : Position)
    (entry : Order) (db' : Database) : Prop
  | alerted (hbook : SameBook db db')
  | closed (exit : Order) (trade : FreqtradeTrade) (closeRate : ℚ) (tradeId : ℤ)
      (htradeId : entry.freqtradeTradeId = some tradeId)
      (hreports : ReportsClosed ctx position.id tradeId position.symbol)
      (hid : exit.id = db.nextId) (hside : exit.side = .SELL) (hstatus : exit.status = .FILLED)
      (hsymbol : exit.symbol = position.symbol) (hsome : exit.freqtradeTradeId ≠ none)
      (horders : db'.orders = db.orders ++ [exit])
      (hpositions : db'.positions = modifyRow Position.id position.id
        (fun p => closeByTrade ctx trade closeRate { p with exitOrderId := some exit.id })
        db.positions)
      (hsignals : db'.signals = db.signals) (hnextId : db.nextId < db'.nextId)

theorem alertOnce_sameBook (ctx : ReconcileContext) (db : Database) (order : Order)
    (reason : String) : SameBook db (alertOnce ctx db order reason) := by
  unfold alertOnce
  split
  · exact SameBook.refl db
  · exact SameBook.addAuditEvent _ _ _ _ _

/-- `_reconcile_open_entry` alerts, or fills the order and sees to its position. -/
theorem reconcileOpenEntry_reconciled (ctx : ReconcileContext) (db : Database) (order : Order)
    (trade : FreqtradeTrade) (hside : order.side = .BUY) :
    OrderReconciled ctx db order (reconcileOpenEntry ctx db order trade).1 := by
  unfold reconcileOpenEntry
  split
  · exact .alerted (alertOnce_sameBook ctx db order _)
  · rename_i openRate amount _
    dsimp only
    split
    · exact .entered openRate amount hside rfl (Or.inl rfl) rfl
        (Nat.lt_succ_of_lt (Nat.lt_succ_self _))
    · rename_i hnone
      have hempty := (Arrangement.first_eq_none _).mp hnone
      refine .entered openRate amount hside rfl (Or.inr ⟨_, ?_, ?_, rfl⟩) rfl
        (Nat.lt_succ_of_lt (Nat.lt_succ_of_lt (Nat.lt_succ_self _)))
      · intro p hp heq
        have := List.filter_eq_nil_iff.mp hempty p hp
        exact this (by simpa using heq)
      · exact ⟨rfl, rfl, rfl, rfl, rfl, rfl, rfl, rfl, rfl, rfl⟩

/-- `_reconcile_closed_exit` alerts, or fills the order and closes its position. -/
theorem reconcileClosedExit_reconciled (ctx : ReconcileContext) (db : Database) (order : Order)
    {trade : FreqtradeTrade} {tradeId : ℤ} (htradeId : order.freqtradeTradeId = some tradeId)
    (hlookup : ctx.getTrade order.id tradeId = some trade) (hpair : trade.pair = order.symbol)
    (hclosed : trade.isOpen = false) (hside : order.side = .SELL) :
    OrderReconciled ctx db order (reconcileClosedExit ctx db order trade).1 := by
  unfold reconcileClosedExit
  split
  · rename_i closeRate amount hcloseRate hamount
    split
    · exact .alerted (alertOnce_sameBook ctx db order _)
    · rename_i position hfirst
      have hmem := List.mem_filter.mp (Arrangement.first_mem _ hfirst)
      have hreports : ReportsClosed ctx order.id tradeId order.symbol :=
        ⟨trade, hlookup, hpair, hclosed, by simp [hcloseRate], by simp [hamount]⟩
      exact .exited position trade closeRate amount tradeId htradeId hreports hside hmem.1
        (by simpa using hmem.2) rfl rfl rfl (Nat.le_succ_of_le (Nat.le_succ _))
  · exact .alerted (alertOnce_sameBook ctx db order _)

/-- Every round of the first loop does one of the three things. -/
theorem reconcileOrder_reconciled (ctx : ReconcileContext) (db : Database) (order : Order) :
    OrderReconciled ctx db order (reconcileOrder ctx db order).1 := by
  unfold reconcileOrder
  split
  · exact .alerted (alertOnce_sameBook ctx db order _)
  · rename_i tradeId htradeId
    split
    · exact .alerted (alertOnce_sameBook ctx db order _)
    · rename_i trade hlookup
      split
      · exact .alerted (alertOnce_sameBook ctx db order _)
      · rename_i hpair
        split
        · rename_i hentry
          exact reconcileOpenEntry_reconciled ctx db order _ hentry.1
        · split
          · rename_i hexit
            exact reconcileClosedExit_reconciled ctx db order htradeId hlookup
              (not_not.mp hpair) (by simpa using hexit.2) hexit.1
          · exact .alerted (alertOnce_sameBook ctx db order _)

/-- Every round of the second loop alerts or closes its position. -/
theorem reconcilePosition_reconciled (ctx : ReconcileContext) (db : Database)
    (row : Position × Order) :
    PositionReconciled ctx db row.1 row.2 (reconcilePosition ctx db row).1 := by
  obtain ⟨position, entry⟩ := row
  unfold reconcilePosition
  dsimp only
  split
  · exact .alerted (SameBook.refl db)
  · rename_i tradeId htradeId
    split
    · exact .alerted (alertOnce_sameBook ctx db entry _)
    · rename_i trade hlookup
      split
      · exact .alerted (alertOnce_sameBook ctx db entry _)
      · rename_i hpair
        split
        · exact .alerted (SameBook.refl db)
        · rename_i hopen
          split
          · rename_i closeRate amount hcloseRate hamount
            have hreports : ReportsClosed ctx position.id tradeId position.symbol :=
              ⟨trade, hlookup, not_not.mp hpair, by simpa using hopen, by simp [hcloseRate],
                by simp [hamount]⟩
            exact .closed _ trade closeRate tradeId htradeId hreports rfl rfl rfl rfl
              (Option.some_ne_none _) rfl rfl rfl
              (Nat.lt_succ_of_lt (Nat.lt_succ_of_lt (Nat.lt_succ_self _)))
          · exact .alerted (alertOnce_sameBook ctx db entry _)

/-- A round over an exit order whose lookup reports the close, and to which a position is
linked, is not an alert. -/
theorem reconcileOrder_closes {ctx : ReconcileContext} {db : Database} {order : Order}
    {tradeId : ℤ} (hside : order.side = .SELL) (htradeId : order.freqtradeTradeId = some tradeId)
    (hreports : ReportsClosed ctx order.id tradeId order.symbol)
    (hlinked : ∃ p ∈ db.positions, p.exitOrderId = some order.id) :
    ∃ position ∈ db.positions, position.exitOrderId = some order.id ∧
      ∃ p' ∈ (reconcileOrder ctx db order).1.positions, p'.id = position.id ∧
        p'.status = .CLOSED := by
  obtain ⟨trade, hlookup, hpair, hclosed, hcloseRate, hamount⟩ := hreports
  obtain ⟨closeRate, hcloseRate⟩ := Option.ne_none_iff_exists'.mp hcloseRate
  obtain ⟨amount, hamount⟩ := Option.ne_none_iff_exists'.mp hamount
  cases hfirst : ctx.rows.positions.first
      (db.positions.filter fun p => p.exitOrderId = some order.id) with
  | none =>
    obtain ⟨p, hp, hlink⟩ := hlinked
    have := List.filter_eq_nil_iff.mp ((Arrangement.first_eq_none _).mp hfirst) p hp
    exact absurd (by simpa using hlink) this
  | some position =>
    have hmem := List.mem_filter.mp (Arrangement.first_mem _ hfirst)
    refine ⟨position, hmem.1, by simpa using hmem.2,
      closeByTrade ctx trade closeRate position, ?_, rfl, rfl⟩
    have hpositions : (reconcileOrder ctx db order).1.positions =
        modifyRow Position.id position.id (closeByTrade ctx trade closeRate) db.positions := by
      simp [reconcileOrder, reconcileClosedExit, auditReconciledClose, auditReconciledFill,
        htradeId, hlookup, hpair, hside, hclosed, hcloseRate, hamount, hfirst]
    rw [hpositions]
    exact mem_modifyRow.mpr (Or.inr ⟨position, hmem.1, rfl, rfl⟩)

/-- The stale orders are the SUBMITTED ones that are old enough. -/
theorem mem_staleOrders {ctx : ReconcileContext} {db : Database} {o : Order} :
    o ∈ staleOrders ctx db ↔
      o ∈ db.orders ∧ o.status = .SUBMITTED ∧ o.createdAt ≤ ctx.now - ctx.staleAfter := by
  unfold staleOrders
  rw [Arrangement.mem_arrange, List.mem_filter, decide_eq_true_iff]

/-- The tracked rows are the OPEN positions with their BUY orders that carry a trade id. -/
theorem mem_trackedPositions {ctx : ReconcileContext} {db : Database} {row : Position × Order} :
    row ∈ trackedPositions ctx db ↔
      row.1 ∈ db.positions ∧ row.2 ∈ db.orders ∧ row.1.entryOrderId = row.2.id ∧
        row.1.status = .OPEN ∧ row.2.freqtradeTradeId ≠ none ∧ row.2.side = .BUY := by
  unfold trackedPositions
  rw [Arrangement.mem_arrange, List.mem_filter, decide_eq_true_iff, List.pair_mem_product,
    and_assoc]

/-- The rows a loop leaves are those of the run of its rounds. -/
theorem reconcileEach_runFrom {α : Type} (body : Database → α → Database × Bool) (db : Database)
    (rows : List α) :
    (reconcileEach body db rows).1 = runFrom (fun db row => (body db row).1) db rows := by
  have hfold : ∀ (rest : List α) (acc : Database × ℕ),
      (rest.foldl (fun acc row =>
        ((body acc.1 row).1, if (body acc.1 row).2 then acc.2 + 1 else acc.2)) acc).1 =
          runFrom (fun db row => (body db row).1) acc.1 rest := by
    intro rest
    induction rest with
    | nil => exact fun _ => rfl
    | cons row rest ih => exact fun acc => ih _
  exact hfold rows (db, 0)

theorem reconcileEach_inv {α : Type} {body : Database → α → Database × Bool}
    {P : Database → Prop} (rows : List α)
    (hbody : ∀ db, ∀ row ∈ rows, P db → P (body db row).1) {db : Database} (h : P db) :
    P (reconcileEach body db rows).1 := by
  rw [reconcileEach_runFrom]
  exact runFrom_inv h rows hbody

/-- **A pass keeps what its rounds keep.** -/
theorem reconcileSubmittedOrders_inv (P : Database → Prop) (ctx : ReconcileContext)
    (horder : ∀ db order db', P db → OrderReconciled ctx db order db' → P db')
    (hposition : ∀ db position entry db', P db →
      PositionReconciled ctx db position entry db' → P db') {db : Database} (h : P db) :
    P (reconcileSubmittedOrders ctx db).1 := by
  unfold reconcileSubmittedOrders reconcileOpenPositions
  dsimp only
  refine reconcileEach_inv _ (fun db row _ hdb => ?_) ?_
  · exact hposition db row.1 row.2 _ hdb (reconcilePosition_reconciled ctx db row)
  · refine reconcileEach_inv _ (fun db row _ hdb => ?_) h
    exact horder db row _ hdb (reconcileOrder_reconciled ctx db row)

/-! ## One trade, as Freqtrade reports it -/

/-- What Freqtrade knows about a trade. -/
structure TradeFacts where
  tradeId : ℤ
  pair : Symbol
  amount : ℚ
  openRate : ℚ
  openDate : Time
  closeRate : ℚ
  closeDate : Time
  profitAbs : ℚ
  profitRatio : ℚ

namespace TradeFacts

/-- The `entry_fill` that reports the facts. -/
def entryFill (facts : TradeFacts) (secret : String) : FreqtradeWebhookPayload :=
  { event := .entry_fill
    tradeId := facts.tradeId
    pair := facts.pair
    secret
    openRate := some facts.openRate
    amount := some facts.amount
    openDate := some (.instant facts.openDate) }

/-- The `exit_fill` that reports the facts. -/
def exitFill (facts : TradeFacts) (secret : String) : FreqtradeWebhookPayload :=
  { event := .exit_fill
    tradeId := facts.tradeId
    pair := facts.pair
    secret
    closeRate := some facts.closeRate
    amount := some facts.amount
    profitAmount := some facts.profitAbs
    profitRatio := some facts.profitRatio
    closeDate := some (.instant facts.closeDate) }

/-- The trade record while the trade is open. -/
def openTrade (facts : TradeFacts) : FreqtradeTrade :=
  { tradeId := facts.tradeId
    pair := facts.pair
    isOpen := true
    amount := some facts.amount
    hasOpenOrders := some false
    openRate := some facts.openRate
    openFillDate := some facts.openDate
    openDate := some facts.openDate }

/-- The trade record once the trade is closed. -/
def closedTrade (facts : TradeFacts) : FreqtradeTrade :=
  { facts.openTrade with
    isOpen := false
    closeRate := some facts.closeRate
    profitAbs := some facts.profitAbs
    profitRatio := some facts.profitRatio
    closeDate := some facts.closeDate }

end TradeFacts

/-- A pass at `now` in which every lookup answers with the same record. -/
def passAt (now : Time) (trade : FreqtradeTrade) : ReconcileContext where
  startedAt := now
  now
  staleAfter := minutes 5
  rows := RowOrder.stored
  getTrade := fun _ _ => some trade

/-- Trade 7, bought at 100 and sold at 110. -/
def btcTrade : TradeFacts where
  tradeId := 7
  pair := "BTC/USDT"
  amount := 1 / 2
  openRate := 100
  openDate := minutes 1
  closeRate := 110
  closeDate := minutes 20
  profitAbs := 5
  profitRatio := 1 / 10

end TradeMind.Analysis
