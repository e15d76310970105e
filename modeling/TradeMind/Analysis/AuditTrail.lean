import TradeMind.Analysis.ReconcileEffects
import TradeMind.Analysis.WebhookEffects
import TradeMind.Model.AuditTimeline

/-!
# The writes of the trail

`Write` lists the ways a transaction of any service writes the tables that an audit timeline
and its positions are read from, each with the rows it is on behalf of; a transaction is a
chain of them.  What every write keeps then holds in every run.
-/

set_option autoImplicit false

namespace TradeMind.Analysis

open TradeMind.Library TradeMind.Model TradeMind.Model.Scheduler

/-! ## What is written -/

/-- The events that a webhook or a reconciliation adds for an order. -/
def isFillEvent : AuditEventType → Bool
  | .ORDER_FILLED | .ORDER_CANCELLED | .POSITION_OPENED | .POSITION_CLOSED
  | .RECONCILIATION_REQUIRED => true
  | _ => false

/-- The row is about the same order. -/
structure SameOrder (o o' : Order) : Prop where
  id : o'.id = o.id
  traceId : o'.traceId = o.traceId
  riskDecisionId : o'.riskDecisionId = o.riskDecisionId
  symbol : o'.symbol = o.symbol
  side : o'.side = o.side

/-- The two events of a fill, the order's and the position's. -/
def addFillEvents (db : Database) (startedAt : Time) (traceId : Uuid)
    (positionEvent : AuditEventType) (ofOrder ofPosition : Payload) : Database :=
  (db.addAuditEvent startedAt traceId .ORDER_FILLED ofOrder).addAuditEvent startedAt traceId
    positionEvent ofPosition

/-- The alert is one that `_track_llm_analyze_health` adds on behalf of the cycle. -/
def AlertOf (traceId : Uuid) (alert : HealthAlert) : Prop :=
  alert.traceId = traceId ∧
    (alert.eventType = .LLM_TIMEOUT_STREAK ∨ alert.eventType = .LLM_TIMEOUT_RECOVERED)

/-- Whatever edge the counter is at, the alert of a cycle is one of its own. -/
theorem alertOf_alert {symbol : Symbol} {answer : CycleAnswer} {alert : HealthAlert}
    (h : alert ∈ answer.alert symbol) : AlertOf answer.traceId alert := by
  obtain ⟨edge, -, rfl⟩ := Option.map_eq_some_iff.mp h
  cases edge with
  | streak streak threshold => exact ⟨rfl, .inl rfl⟩
  | recovered previous => exact ⟨rfl, .inr rfl⟩

/-- A write on behalf of the rows that are there. -/
inductive Write (db : Database) : Database → Prop
  | order (id : Uuid) (f : Order → Order) (hsame : ∀ o, SameOrder o (f o)) :
      Write db (db.modifyOrder id f)
  | exitOrder (entry o : Order) (hentry : entry ∈ db.orders) (hbuy : entry.side = .BUY)
      (hid : o.id = db.nextId) (htrace : o.traceId = entry.traceId)
      (hdecision : o.riskDecisionId = entry.riskDecisionId) (hsell : o.side = .SELL) :
      Write db (db.insertOrder o)
  | opening (order : Order) (p : Position) (startedAt : Time) (ofOrder ofPosition : Payload)
      (horder : order ∈ db.orders) (hid : p.id = db.nextId) (hentry : p.entryOrderId = order.id)
      (hopen : p.status = .OPEN) :
      Write db (addFillEvents (db.insertPosition p) startedAt order.traceId .POSITION_OPENED
        ofOrder ofPosition)
  | closing (order : Order) (position : Position) (f : Position → Position) (startedAt : Time)
      (ofOrder ofPosition : Payload) (horder : order ∈ db.orders)
      (hposition : position ∈ db.positions) (hid : ∀ p, (f p).id = p.id)
      (hentry : ∀ p, (f p).entryOrderId = p.entryOrderId)
      (hexit : (f position).exitOrderId = some order.id) :
      Write db (addFillEvents (db.modifyPosition position.id f) startedAt order.traceId
        .POSITION_CLOSED ofOrder ofPosition)
  | link (position : Position) (exitOrderId : Uuid) (hposition : position ∈ db.positions)
      (hopen : position.status = .OPEN) :
      Write db (db.modifyPosition position.id fun p => { p with exitOrderId := some exitOrderId })
  | event (order : Order) (startedAt : Time) (type : AuditEventType) (payload : Payload)
      (horder : order ∈ db.orders) (htype : isFillEvent type = true) :
      Write db (db.addAuditEvent startedAt order.traceId type payload)
  | trip (signal : Signal) (startedAt : Time) (reason : String) (hsignal : signal ∈ db.signals) :
      Write db (KillSwitch.enable db startedAt reason "SYSTEM" signal.traceId)
  | decision (signal : Signal) (d : RiskDecision) (startedAt : Time)
      (check : Option ExpectancyCheck) (hsignal : signal ∈ db.signals) (hid : d.id = db.nextId)
      (htrace : d.traceId = signal.traceId) (hof : d.signalId = signal.id) :
      Write db (writeDecisionAuditEvent (db.insertRiskDecision d) startedAt signal d.approved
        d.rejectionReason ⟨d.nominalRiskAmountUsdt, d.actualRiskUsdt, d.stopDistancePct, check⟩)
  | submission (signal : Signal) (d : RiskDecision) (o : Order) (startedAt : Time)
      (status : OrderStatus) (hsignal : signal ∈ db.signals) (hd : d ∈ db.riskDecisions)
      (hid : o.id = db.nextId) (htrace : o.traceId = signal.traceId)
      (hdecision : o.riskDecisionId = d.id) (hof : d.signalId = signal.id)
      (hsymbol : o.symbol = signal.symbol)
      (hside : o.side = if signal.action = .SELL then .SELL else .BUY) :
      Write db (writeOrderAuditEvent (db.insertOrder o) startedAt signal o.side status)
  | received (signal : Signal) (startedAt : Time) (alert : Option HealthAlert)
      (hid : signal.id = db.nextId) (halert : ∀ a ∈ alert, AlertOf signal.traceId a) :
      Write db (recordSignal db startedAt signal alert)

/-- A transaction, write by write. -/
abbrev WriteChain : Database → Database → Prop := Relation.ReflTransGen Write

variable {db db' : Database}

/-- A write is a transaction. -/
theorem Write.writes (h : Write db db') : WriteChain db db' := .single h

/-- An order that is there stays, in all that the trail reads of it. -/
theorem Write.order_stays (h : Write db db') {o : Order} (ho : o ∈ db.orders) :
    ∃ o' ∈ db'.orders, SameOrder o o' := by
  have hstays : ∀ {rest : List Order}, db'.orders = db.orders ++ rest →
      ∃ o' ∈ db'.orders, SameOrder o o' := fun horders =>
    ⟨o, horders ▸ List.mem_append_left _ ho, rfl, rfl, rfl, rfl, rfl⟩
  have hkept : db'.orders = db.orders → ∃ o' ∈ db'.orders, SameOrder o o' := fun horders =>
    hstays (horders.trans (List.append_nil _).symm)
  cases h with
  | order id f hsame =>
    by_cases hid : o.id = id
    · exact ⟨f o, mem_modifyRow.mpr (.inr ⟨o, ho, hid, rfl⟩), hsame o⟩
    · exact ⟨o, mem_modifyRow.mpr (.inl ⟨ho, hid⟩), rfl, rfl, rfl, rfl, rfl⟩
  | exitOrder => exact hstays rfl
  | submission => exact hstays rfl
  | received signal startedAt alert => exact hkept (by cases alert <;> rfl)
  | _ => exact hkept rfl

/-- An order stays, under its id and with what identifies it, through a whole transaction. -/
theorem WriteChain.order_stays (h : WriteChain db db') {o : Order} (ho : o ∈ db.orders) :
    ∃ o' ∈ db'.orders, SameOrder o o' := by
  induction h with
  | refl => exact ⟨o, ho, rfl, rfl, rfl, rfl, rfl⟩
  | tail _ hwrite ih =>
    obtain ⟨o', ho', hsame⟩ := ih
    obtain ⟨o'', ho'', hsame'⟩ := hwrite.order_stays ho'
    exact ⟨o'', ho'', hsame'.id.trans hsame.id, hsame'.traceId.trans hsame.traceId,
      hsame'.riskDecisionId.trans hsame.riskDecisionId, hsame'.symbol.trans hsame.symbol,
      hsame'.side.trans hsame.side⟩

/-- A write leaves every position in the table, under its id. -/
theorem Write.position_stays (h : Write db db') {p : Position} (hp : p ∈ db.positions) :
    ∃ p' ∈ db'.positions, p'.id = p.id := by
  have hmodified : ∀ {id : Uuid} {f : Position → Position}, (∀ p, (f p).id = p.id) →
      ∃ p' ∈ modifyRow Position.id id f db.positions, p'.id = p.id := by
    intro id f hf
    by_cases hid : p.id = id
    · exact ⟨f p, mem_modifyRow.mpr (.inr ⟨p, hp, hid, rfl⟩), hf p⟩
    · exact ⟨p, mem_modifyRow.mpr (.inl ⟨hp, hid⟩), rfl⟩
  have hkept : db'.positions = db.positions → ∃ p' ∈ db'.positions, p'.id = p.id :=
    fun hpositions => ⟨p, hpositions ▸ hp, rfl⟩
  cases h with
  | opening => exact ⟨p, List.mem_append_left _ hp, rfl⟩
  | closing _ _ _ _ _ _ _ _ hf => exact hmodified hf
  | link => exact hmodified fun _ => rfl
  | received signal startedAt alert => exact hkept (by cases alert <;> rfl)
  | _ => exact hkept rfl

/-- A position stays in the table, under its id, through a whole transaction. -/
theorem WriteChain.position_stays (h : WriteChain db db') {p : Position} (hp : p ∈ db.positions) :
    ∃ p' ∈ db'.positions, p'.id = p.id := by
  induction h with
  | refl => exact ⟨p, hp, rfl⟩
  | tail _ hwrite ih =>
    obtain ⟨p', hp', hid⟩ := ih
    obtain ⟨p'', hp'', hid'⟩ := hwrite.position_stays hp'
    exact ⟨p'', hp'', hid'.trans hid⟩

/-! ## The webhook receiver -/

section Webhook

variable (ctx : WebhookContext) (db : Database) (payload : FreqtradeWebhookPayload)

theorem findOrder_writes (side : OrderSide) :
    WriteChain db (findOrder ctx.rows db payload.tradeId payload.pair side).2 := by
  cases findOrder_found ctx.rows db payload.tradeId payload.pair side with
  | known _ _ _ _ h => rw [h]
  | backfilled order _ _ _ h =>
    rw [h]
    exact (Write.order order.id (backfill payload.tradeId) fun _ =>
      ⟨rfl, rfl, rfl, rfl, rfl⟩).writes
  | missing _ _ h => rw [h]

theorem fill_writes {db : Database} {order : Order} (horder : order ∈ db.orders)
    (amount price : ℚ) :
    WriteChain db (db.modifyOrder order.id fun o => o.fill amount price) ∧
      order.fill amount price ∈ (db.modifyOrder order.id fun o => o.fill amount price).orders :=
  ⟨(Write.order order.id (fun o => o.fill amount price) fun _ =>
      ⟨rfl, rfl, rfl, rfl, rfl⟩).writes,
    mem_modifyRow.mpr (.inr ⟨order, horder, rfl, rfl⟩)⟩

theorem handleEntryFill_writes : WriteChain db (handleEntryFill ctx db payload) := by
  have hfind := findOrder_writes ctx db payload .BUY
  have hrow := @findOrder_row ctx.rows db payload.tradeId payload.pair .BUY
  unfold handleEntryFill
  generalize findOrder ctx.rows db payload.tradeId payload.pair .BUY = found at hfind hrow ⊢
  split
  · next order db₁ openRate amount _ _ =>
    obtain ⟨hfilled, hmem⟩ := fill_writes (hrow rfl).1 amount openRate
    refine (hfind.trans hfilled).tail ?_
    exact Write.opening (order.fill amount openRate) _ ctx.startedAt _ _ hmem rfl rfl rfl
  · exact hfind

/-- The entry that a matched position belongs to is one of the BUY orders. -/
theorem autonomousExitMatch_entry {tradeId : ℤ} {pair : Symbol} {position : Position}
    {entry : Order}
    (h : autonomousExitMatch ctx.rows db tradeId pair = some (position, entry)) :
    entry ∈ db.orders ∧ entry.side = .BUY := by
  have hmem := List.mem_filter.mp (Arrangement.first_mem _ h)
  have hrow := of_decide_eq_true hmem.2
  exact ⟨(List.mem_product.mp hmem.1).2, hrow.2.2.2.2⟩

/-- The order an exit fill settles is there, or made for its entry. -/
theorem exitOrder_writes {closeRate amount : ℚ} {order : Order} {db₂ : Database}
    (h : exitOrder ctx (findOrder ctx.rows db payload.tradeId payload.pair .SELL).2 payload
      closeRate amount (findOrder ctx.rows db payload.tradeId payload.pair .SELL).1 =
        some (order, db₂)) : WriteChain db db₂ := by
  have hfind := findOrder_writes ctx db payload .SELL
  generalize findOrder ctx.rows db payload.tradeId payload.pair .SELL = found at hfind h
  unfold exitOrder at h
  split at h
  · cases h
    exact hfind
  · split at h
    · cases h
    · next position entry hmatch =>
      obtain ⟨hentry, hbuy⟩ := autonomousExitMatch_entry ctx _ hmatch
      cases h
      exact hfind.tail (Write.exitOrder entry _ hentry hbuy rfl rfl rfl rfl)

theorem handleExitFill_writes : WriteChain db (handleExitFill ctx db payload) := by
  cases handleExitFill_exitFill ctx db payload with
  | ignored _ h =>
    rw [h]
    exact findOrder_writes ctx db payload .SELL
  | untracked _ _ h => rw [h]
  | unlinked closeRate amount order _ _ _ horder _ h =>
    rw [h]
    exact (exitOrder_writes ctx db payload horder).trans
      (fill_writes (exitOrder_row horder).2.1 amount closeRate).1
  | settled closeRate amount order db₂ position _ _ horder hposition h =>
    rw [h]
    obtain ⟨hfilled, hmem⟩ := fill_writes (exitOrder_row horder).2.1 amount closeRate
    refine ((exitOrder_writes ctx db payload horder).trans hfilled).tail ?_
    have hrow : position ∈ (db₂.modifyOrder order.id fun o =>
        o.fill amount closeRate).positions := by
      unfold exitPosition at hposition
      split at hposition
      · next hlinked =>
        cases hposition
        exact (List.mem_filter.mp (Arrangement.first_mem _ hlinked)).1
      · exact (List.mem_filter.mp (Arrangement.first_mem _ hposition)).1
    exact Write.closing (order.fill amount closeRate) position _ ctx.startedAt _ _ hmem hrow
      (fun _ => rfl) (fun _ => rfl) rfl

theorem markCancelled_writes (side : OrderSide) :
    WriteChain db (markCancelled ctx db payload side) := by
  have hfind := findOrder_writes ctx db payload side
  unfold markCancelled
  rcases hfound : findOrder ctx.rows db payload.tradeId payload.pair side with ⟨found, db₁⟩
  rw [hfound] at hfind
  cases found with
  | none => exact hfind
  | some order =>
    let cancel (o : Order) : Order := { o with status := .CANCELLED }
    have hmem : cancel order ∈ (db₁.modifyOrder order.id cancel).orders :=
      mem_modifyRow.mpr (.inr ⟨order, (findOrder_row hfound).1, rfl, rfl⟩)
    refine (hfind.tail (Write.order order.id cancel fun _ => ⟨rfl, rfl, rfl, rfl, rfl⟩)).tail ?_
    exact Write.event (cancel order) ctx.startedAt .ORDER_CANCELLED _ hmem rfl

/-- **A webhook request** is a chain of writes. -/
theorem freqtradeWebhook_writes : WriteChain db ((freqtradeWebhook ctx db payload).getD db) := by
  unfold freqtradeWebhook
  split
  · exact .refl
  · rw [Option.getD_some]
    split
    · exact handleEntryFill_writes ctx db payload
    · exact handleExitFill_writes ctx db payload
    · exact markCancelled_writes ctx db payload .BUY
    · exact markCancelled_writes ctx db payload .SELL
    · exact .refl

end Webhook

/-! ## The reconciliation -/

section Reconciliation

variable (ctx : ReconcileContext) {db : Database}

/-- An event for an order, of which a row is there. -/
theorem event_writes {order row : Order} (hrow : row ∈ db.orders) (hsame : SameOrder order row)
    (startedAt : Time) {type : AuditEventType} (htype : isFillEvent type = true)
    (payload : Payload) :
    WriteChain db (db.addAuditEvent startedAt order.traceId type payload) := by
  rw [← hsame.traceId]
  exact (Write.event row startedAt type payload hrow htype).writes

theorem alertOnce_writes {order row : Order} (hrow : row ∈ db.orders)
    (hsame : SameOrder order row) (reason : String) :
    WriteChain db (alertOnce ctx db order reason) := by
  unfold alertOnce
  split
  · exact .refl
  · exact event_writes hrow hsame ctx.startedAt rfl _

theorem fill_row_writes {order row : Order} (hrow : row ∈ db.orders)
    (hsame : SameOrder order row) (amount price : ℚ) :
    WriteChain db (db.modifyOrder order.id fun o => o.fill amount price) ∧
      ∃ row' ∈ (db.modifyOrder order.id fun o => o.fill amount price).orders,
        SameOrder order row' := by
  rw [← hsame.id]
  obtain ⟨hfilled, hmem⟩ := fill_writes hrow amount price
  exact ⟨hfilled, row.fill amount price, hmem, hsame.id, hsame.traceId, hsame.riskDecisionId,
    hsame.symbol, hsame.side⟩

theorem opening_writes {order row : Order} (hrow : row ∈ db.orders)
    (hsame : SameOrder order row) {p : Position} (hid : p.id = db.nextId)
    (hentry : p.entryOrderId = order.id) (hopen : p.status = .OPEN) (startedAt : Time)
    (ofOrder ofPosition : Payload) :
    WriteChain db (addFillEvents (db.insertPosition p) startedAt order.traceId .POSITION_OPENED
      ofOrder ofPosition) := by
  rw [← hsame.traceId]
  exact (Write.opening row p startedAt ofOrder ofPosition hrow hid
    (hentry.trans hsame.id.symm) hopen).writes

theorem closing_writes {order row : Order} (hrow : row ∈ db.orders)
    (hsame : SameOrder order row) (f : Position → Position) {position p : Position}
    (hp : p ∈ db.positions) (hpid : p.id = position.id) (hid : ∀ p, (f p).id = p.id)
    (hentry : ∀ p, (f p).entryOrderId = p.entryOrderId)
    (hexit : (f p).exitOrderId = some order.id) (startedAt : Time)
    (ofOrder ofPosition : Payload) :
    WriteChain db (addFillEvents (db.modifyPosition position.id f) startedAt order.traceId
      .POSITION_CLOSED ofOrder ofPosition) := by
  rw [← hsame.traceId, ← hpid]
  exact (Write.closing row p f startedAt ofOrder ofPosition hrow hp hid hentry
    (hexit.trans (congrArg some hsame.id.symm))).writes

theorem reconcileOpenEntry_writes {order row : Order} (hrow : row ∈ db.orders)
    (hsame : SameOrder order row) (trade : FreqtradeTrade) :
    WriteChain db (reconcileOpenEntry ctx db order trade).1 := by
  unfold reconcileOpenEntry
  split
  · exact alertOnce_writes ctx hrow hsame _
  · next openRate amount _ =>
    obtain ⟨hfilled, row', hrow', hsame'⟩ := fill_row_writes hrow hsame amount openRate
    refine hfilled.trans ?_
    dsimp only
    split
    · exact (event_writes hrow' hsame' ctx.startedAt rfl _).trans
        (event_writes (by exact hrow') hsame' ctx.startedAt rfl _)
    · exact opening_writes hrow' hsame' rfl rfl rfl ctx.startedAt _ _

theorem reconcileClosedExit_writes {order row : Order} (hrow : row ∈ db.orders)
    (hsame : SameOrder order row) (trade : FreqtradeTrade) :
    WriteChain db (reconcileClosedExit ctx db order trade).1 := by
  unfold reconcileClosedExit
  split
  · next closeRate amount _ _ =>
    split
    · exact alertOnce_writes ctx hrow hsame _
    · next position hfirst =>
      have hmem := List.mem_filter.mp (Arrangement.first_mem _ hfirst)
      obtain ⟨hfilled, row', hrow', hsame'⟩ := fill_row_writes hrow hsame amount closeRate
      refine hfilled.trans ?_
      exact closing_writes hrow' hsame' (closeByTrade ctx trade closeRate) hmem.1 rfl
        (fun _ => rfl) (fun _ => rfl) (of_decide_eq_true hmem.2) ctx.startedAt _ _
  · exact alertOnce_writes ctx hrow hsame _

theorem reconcileOrder_writes {order row : Order} (hrow : row ∈ db.orders)
    (hsame : SameOrder order row) : WriteChain db (reconcileOrder ctx db order).1 := by
  unfold reconcileOrder
  split
  · exact alertOnce_writes ctx hrow hsame _
  · split
    · exact alertOnce_writes ctx hrow hsame _
    · split_ifs
      · exact alertOnce_writes ctx hrow hsame _
      · exact reconcileOpenEntry_writes ctx hrow hsame _
      · exact reconcileClosedExit_writes ctx hrow hsame _
      · exact alertOnce_writes ctx hrow hsame _

/-- A round over an open position: its exit order is made, and closes it. -/
theorem reconcilePosition_writes {position p : Position} {entry row : Order}
    (hrow : row ∈ db.orders) (hsame : SameOrder entry row) (hbuy : entry.side = .BUY)
    (hp : p ∈ db.positions) (hid : p.id = position.id) :
    WriteChain db (reconcilePosition ctx db (position, entry)).1 := by
  unfold reconcilePosition
  dsimp only
  split
  · exact .refl
  · split
    · exact alertOnce_writes ctx hrow hsame _
    · next trade _ =>
      split_ifs
      · exact alertOnce_writes ctx hrow hsame _
      · exact .refl
      · split
        · next closeRate amount _ _ =>
          let exit : Order :=
            { id := db.nextId
              traceId := entry.traceId
              riskDecisionId := entry.riskDecisionId
              freqtradeTradeId := some trade.tradeId
              symbol := position.symbol
              side := .SELL
              status := .FILLED
              requestedAmount := position.amount
              filledAmount := some amount
              avgPrice := some closeRate
              dryRun := entry.dryRun
              createdAt := ctx.startedAt }
          have hmade : WriteChain db (db.insertOrder exit) :=
            (Write.exitOrder row exit hrow (hsame.side.trans hbuy) rfl hsame.traceId.symm
              hsame.riskDecisionId.symm rfl).writes
          let close (p : Position) : Position :=
            closeByTrade ctx trade closeRate { p with exitOrderId := some exit.id }
          have hexit : exit ∈ (db.insertOrder exit).orders :=
            List.mem_append_right _ (List.mem_singleton_self exit)
          refine hmade.trans ?_
          exact closing_writes hexit
            ⟨rfl, rfl, rfl, rfl, rfl⟩ close hp hid (fun _ => rfl) (fun _ => rfl) rfl
            ctx.startedAt _ _
        · exact alertOnce_writes ctx hrow hsame _

/-- **A reconciliation pass** is a chain of writes: the rows its loops are over stay. -/
theorem reconcileSubmittedOrders_writes (ctx : ReconcileContext) (db : Database) :
    WriteChain db (reconcileSubmittedOrders ctx db).1 := by
  unfold reconcileSubmittedOrders reconcileOpenPositions
  dsimp only
  have hstale : WriteChain db (reconcileEach (reconcileOrder ctx) db (staleOrders ctx db)).1 := by
    refine reconcileEach_inv (P := WriteChain db) _ (fun db' order horder h => ?_) .refl
    obtain ⟨row, hrow, hsame⟩ := h.order_stays (mem_staleOrders.mp horder).1
    exact h.trans (reconcileOrder_writes ctx hrow hsame)
  refine hstale.trans ?_
  refine reconcileEach_inv (P := WriteChain _) _ (fun db' tracked htracked h => ?_) .refl
  obtain ⟨hposition, hentry, -, -, -, hbuy⟩ := mem_trackedPositions.mp htracked
  obtain ⟨row, hrow, hsame⟩ := h.order_stays hentry
  obtain ⟨p, hp, hid⟩ := h.position_stays hposition
  exact h.trans (reconcilePosition_writes ctx hrow hsame hbuy hp hid)

end Reconciliation

/-! ## An attempt at a signal -/

section Attempts

variable {w : World} {d : Delivery} {signal : Signal}

/-- A commit leaves the session, or nothing of it. -/
theorem commit_writes {session : Database} (h : WriteChain w.db session)
    (calls : List FreqtradeCall) (decision : RiskDecision) :
    WriteChain w.db (w.commit d session calls decision).world.db := by
  unfold World.commit
  split
  · exact h
  · exact .refl
  · exact h

/-- The end of a handler writes what its submission wrote, and otherwise nothing. -/
theorem finish_writes (decision : RiskDecision)
    {submission : Option Database × List FreqtradeCall}
    (h : ∀ session, submission.1 = some session → WriteChain w.db session) :
    WriteChain w.db (w.finish d decision submission).world.db := by
  rcases submission with ⟨session | session, calls⟩
  · exact .refl
  · exact commit_writes (h session rfl) calls decision

/-- The session of a signal: it holds the row and the decision about it. -/
structure DecisionWritten (signal : Signal) (decision : RiskDecision) (session : Database) :
    Prop where
  stored : signal ∈ session.signals
  recorded : decision ∈ session.riskDecisions
  signalId : decision.signalId = signal.id

theorem submitEntryOrder_writes {session session' : Database} {decision : RiskDecision}
    (hdecided : DecisionWritten signal decision session) (haction : signal.action ≠ .SELL)
    {sizeUsdt sizeBase : ℚ} {stop : Option ℚ}
    (h : (submitEntryOrder d session signal decision.id sizeUsdt sizeBase stop).1 =
      some session') : WriteChain session session' := by
  have hside : OrderSide.BUY = if signal.action = .SELL then .SELL else .BUY :=
    (if_neg haction).symm
  unfold submitEntryOrder at h
  dsimp only at h
  split at h
  · cases h
  · cases h
    exact (Write.submission signal decision _ d.startedAt .FAILED hdecided.stored
      hdecided.recorded rfl rfl rfl hdecided.signalId rfl hside).writes
  · cases h
    exact (Write.submission signal decision _ d.startedAt .SUBMITTED hdecided.stored
      hdecided.recorded rfl rfl rfl hdecided.signalId rfl hside).writes

theorem submitExitOrder_writes {session session' : Database} {decision : RiskDecision}
    (hdecided : DecisionWritten signal decision session) (haction : signal.action = .SELL)
    (h : (submitExitOrder d session signal decision.id).1 = some session') :
    WriteChain session session' := by
  have hside : OrderSide.SELL = if signal.action = .SELL then .SELL else .BUY :=
    (if_pos haction).symm
  unfold submitExitOrder at h
  split at h
  · cases h
  · split at h
    · cases h
      exact .refl
    · next position hfirst =>
      have hmem := List.mem_filter.mp (Arrangement.first_mem _ hfirst)
      split at h
      · cases h
        exact .refl
      · next tradeId _ =>
        dsimp only at h
        split at h
        · cases h
        · cases hsub : (forceexitOpenTrade d signal.symbol tradeId).1 with
          | true =>
            simp only [hsub, if_true] at h
            cases h
            -- the position is linked before the event is written: the two commute
            have hsubmitted := (Write.submission signal decision
              { id := session.nextId
                traceId := signal.traceId
                riskDecisionId := decision.id
                freqtradeTradeId := some tradeId
                symbol := signal.symbol
                side := .SELL
                status := .SUBMITTED
                requestedAmount := position.amount
                dryRun := d.config.dryRun
                createdAt := d.startedAt } d.startedAt .SUBMITTED
              hdecided.stored hdecided.recorded rfl rfl rfl hdecided.signalId rfl hside).writes
            refine hsubmitted.tail ?_
            exact (Write.link position session.nextId hmem.1 (of_decide_eq_true hmem.2).2)
          | false =>
            simp only [hsub, Bool.false_eq_true, if_false] at h
            cases h
            exact (Write.submission signal decision _ d.startedAt .FAILED hdecided.stored
              hdecided.recorded rfl rfl rfl hdecided.signalId rfl hside).writes

theorem decision_writes {session : Database} (hstored : signal ∈ session.signals)
    (decision : RiskDecision) (hid : decision.id = session.nextId)
    (htrace : decision.traceId = signal.traceId) (hof : decision.signalId = signal.id)
    (startedAt : Time) (check : Option ExpectancyCheck) :
    WriteChain session (writeDecisionAuditEvent (session.insertRiskDecision decision) startedAt
        signal decision.approved decision.rejectionReason ⟨decision.nominalRiskAmountUsdt,
          decision.actualRiskUsdt, decision.stopDistancePct, check⟩) ∧
      DecisionWritten signal decision
        (writeDecisionAuditEvent (session.insertRiskDecision decision) startedAt signal
          decision.approved decision.rejectionReason ⟨decision.nominalRiskAmountUsdt,
            decision.actualRiskUsdt, decision.stopDistancePct, check⟩) :=
  ⟨(Write.decision signal decision startedAt check hstored hid htrace hof).writes, hstored,
    List.mem_append_right _ (List.mem_singleton_self _), hof⟩

/-- The auto-trip writes the kill switch, or is lost with the session. -/
theorem autoTrip_writes (hstored : signal ∈ w.db.signals) (result : RiskDecisionResult) :
    (autoTrip w d signal result).1.db = w.db ∧
      ∀ session, (autoTrip w d signal result).2 = some session →
        WriteChain w.db session ∧ signal ∈ session.signals := by
  unfold autoTrip
  dsimp only
  split
  · exact ⟨rfl, fun session h => by cases h; exact ⟨.refl, hstored⟩⟩
  · split
    · exact ⟨rfl, fun session h => by cases h⟩
    · split
      · refine ⟨rfl, fun session h => ?_⟩
        cases h
        exact ⟨(Write.trip signal d.startedAt _ hstored).writes, hstored⟩
      · exact ⟨rfl, fun session h => by cases h⟩
      · exact ⟨rfl, fun session h => by cases h⟩

theorem handleEntrySignal_writes (hstored : signal ∈ w.db.signals) (haction : signal.action ≠ .SELL)
    (view : SignalView) (account : AccountState) (isDuplicate : Bool)
    (expectancy : ExpectancyView) :
    WriteChain w.db
      (handleEntrySignal w d signal view account isDuplicate expectancy).world.db := by
  unfold handleEntrySignal
  dsimp only
  split
  · exact .refl
  · generalize entryResult w.db d view account isDuplicate expectancy = result
    obtain ⟨hdb, htrip⟩ := autoTrip_writes (d := d) hstored result
    generalize autoTrip w d signal result = tripped at hdb htrip ⊢
    rcases tripped with ⟨w', session | session⟩
    · exact hdb ▸ .refl
    · obtain ⟨hwrites, hsession⟩ := htrip session rfl
      replace hdb : w'.db = w.db := hdb
      dsimp only
      split_ifs
      · exact hdb ▸ .refl
      · exact hdb ▸ .refl
      · obtain ⟨hdecision, hdecided⟩ := decision_writes hsession
          (entryDecision session.nextId signal result) rfl rfl rfl d.startedAt
          result.expectancyCheck
        rw [← hdb] at hwrites ⊢
        refine finish_writes _ fun session' h => (hwrites.trans hdecision).trans ?_
        unfold submitApprovedEntry at h
        split at h
        · split at h
          · exact submitEntryOrder_writes hdecided haction h
          · cases h
        · cases h
          exact .refl

theorem handleExitSignal_writes (hstored : signal ∈ w.db.signals) (haction : signal.action = .SELL)
    (view : SignalView) (account : AccountState) (isDuplicate : Bool) :
    WriteChain w.db (handleExitSignal w d signal view account isDuplicate).world.db := by
  unfold handleExitSignal
  dsimp only
  generalize exitResult d view account isDuplicate = result
  split_ifs
  · exact .refl
  · exact .refl
  · obtain ⟨hdecision, hdecided⟩ := decision_writes hstored
      (exitDecision w.db.nextId signal result) rfl rfl rfl d.startedAt none
    refine finish_writes _ fun session' h => hdecision.trans ?_
    unfold submitApprovedExit at h
    split at h
    · exact submitExitOrder_writes hdecided haction h
    · cases h
      exact .refl

theorem decideSignal_writes (hstored : signal ∈ w.db.signals) (balance : AccountBalanceSnapshot)
    (isDuplicate : Bool) :
    WriteChain w.db (decideSignal w d signal balance isDuplicate).world.db := by
  unfold decideSignal
  dsimp only
  split_ifs with hfails hsell
  · exact .refl
  · exact handleExitSignal_writes hstored hsell _ _ _
  · exact .refl
  · exact handleEntrySignal_writes hstored hsell _ _ _ _

/-- **An attempt at a signal** is a chain of writes, or leaves the tables. -/
theorem processSignal_writes (w : World) (d : Delivery) :
    WriteChain w.db (processSignal w d).world.db := by
  have hstored : ∀ {signal}, w.db.getSignal d.signalId = some signal → signal ∈ w.db.signals :=
    fun h => List.mem_of_find?_eq_some h
  cases processSignal_course w d with
  | stopped _ h => rw [h]; exact .refl
  | notFound _ h => rw [h]
  | balanceUnavailable signal hsignal _ h =>
    rw [h]
    unfold recordBalanceUnavailable
    dsimp only
    split
    · exact .refl
    · exact commit_writes (decision_writes (hstored hsignal)
        { id := w.db.nextId
          traceId := signal.traceId
          signalId := signal.id
          approved := false
          rejectionReason := some .FREQTRADE_BALANCE_UNAVAILABLE
          equitySnapshotUsdt := none } rfl rfl rfl d.startedAt none).1 [] _
  | claimLost _ _ _ _ _ h => rw [h]; exact .refl
  | duplicate signal balance hasks _ h =>
    rw [h]
    exact decideSignal_writes (hstored hasks.found) balance true
  | evaluated signal balance hasks _ _ h =>
    rw [h]
    exact decideSignal_writes (w := { w with redis := w.redis.claim signal.id d.now })
      (hstored hasks.found) balance false

end Attempts

/-- **Every transaction of the services is a chain of writes.** -/
theorem step_writes (w : World) (s : Step) : WriteChain w.db (step w s).db := by
  cases s with
  | signal d => exact processSignal_writes w d
  | webhook ctx payload => exact freqtradeWebhook_writes ctx w.db payload
  | reconcile ctx => exact reconcileSubmittedOrders_writes ctx w.db

end TradeMind.Analysis
