import TradeMind.Analysis.Ledger
import TradeMind.Analysis.ReconcileEffects
import TradeMind.Analysis.WebhookEffects

/-!
# A pass run twice

For fixed remote answers and a fixed clock a pass leaves a book on which it finds nothing
more to do: every stale order that is still SUBMITTED, and every position that is still
OPEN, is one the answers do not settle, and its alert has been raised.  `Reconciled` says
so, and a pass over such a book changes nothing (`reconcile_of_reconciled`).  `OrderRound`
and `PositionRound` say which rows the answers settle, so a row they do not settle keeps
its columns.
-/

set_option autoImplicit false

namespace TradeMind.Analysis

open TradeMind.Library TradeMind.Model

/-- A RECONCILIATION_REQUIRED event of the trace. -/
def IsAlert (traceId : Uuid) (e : AuditEvent) : Prop :=
  e.traceId = traceId ∧ e.eventType = .RECONCILIATION_REQUIRED

instance (traceId : Uuid) (e : AuditEvent) : Decidable (IsAlert traceId e) :=
  inferInstanceAs (Decidable (_ ∧ _))

/-- The alerts of a trace. -/
def alertCount (db : Database) (traceId : Uuid) : ℕ :=
  db.auditEvents.countP fun e => IsAlert traceId e

/-- An alert of the trace has been raised. -/
def AlertRaised (db : Database) (traceId : Uuid) : Prop :=
  ∃ e ∈ db.auditEvents, IsAlert traceId e

/-- The answer to the lookup made for a BUY order is a record of an open trade on its pair
whose entry is confirmed filled. -/
def ConfirmsEntry (ctx : ReconcileContext) (o : Order) : Prop :=
  o.side = .BUY ∧ ∃ tradeId trade, o.freqtradeTradeId = some tradeId ∧
    ctx.getTrade o.id tradeId = some trade ∧ trade.pair = o.symbol ∧ trade.isOpen = true ∧
    confirmedEntry trade ≠ none

/-- The answer to the lookup made for a SELL order reports the trade closed on its pair. -/
def ConfirmsExit (ctx : ReconcileContext) (o : Order) : Prop :=
  o.side = .SELL ∧ ∃ tradeId, o.freqtradeTradeId = some tradeId ∧
    ReportsClosed ctx o.id tradeId o.symbol

/-- A position is linked to the order. -/
def LinkedTo (db : Database) (orderId : Uuid) : Prop :=
  ∃ p ∈ db.positions, p.exitOrderId = some orderId

/-- The first loop confirms the order, as an entry or as an exit that a position is linked to. -/
def Settles (ctx : ReconcileContext) (db : Database) (o : Order) : Prop :=
  ConfirmsEntry ctx o ∨ (ConfirmsExit ctx o ∧ LinkedTo db o.id)

/-- The second loop has nothing to say about the row: its trade is open on its pair. -/
def Passes (ctx : ReconcileContext) (row : Position × Order) : Prop :=
  ∀ tradeId, row.2.freqtradeTradeId = some tradeId →
    ∃ trade, ctx.getTrade row.1.id tradeId = some trade ∧ trade.pair = row.1.symbol ∧
      trade.isOpen = true

/-- The second loop closes the position of the row. -/
def Closes (ctx : ReconcileContext) (row : Position × Order) : Prop :=
  ∃ tradeId, row.2.freqtradeTradeId = some tradeId ∧
    ReportsClosed ctx row.1.id tradeId row.1.symbol

theorem Passes.not_closes {ctx : ReconcileContext} {row : Position × Order}
    (h : Passes ctx row) : ¬ Closes ctx row := by
  rintro ⟨tradeId, htradeId, trade, hlookup, _, hclosed, _⟩
  obtain ⟨trade', hlookup', _, hopen⟩ := h tradeId htradeId
  cases hlookup.symm.trans hlookup'
  rw [hclosed] at hopen
  cases hopen

/-- A pass has nothing more to do. -/
structure Reconciled (ctx : ReconcileContext) (db : Database) : Prop where
  orders : ∀ o ∈ staleOrders ctx db, ¬ Settles ctx db o ∧ AlertRaised db o.traceId
  positions : ∀ row ∈ trackedPositions ctx db,
    Passes ctx row ∨ (¬ Closes ctx row ∧ AlertRaised db row.2.traceId)

/-- The events of a round that settles a row: two, neither of them an alert. -/
def LogsSettlement (db db' : Database) : Prop :=
  ∃ filled other : AuditEvent, db'.auditEvents = db.auditEvents ++ [filled, other] ∧
    filled.eventType ≠ .RECONCILIATION_REQUIRED ∧ other.eventType ≠ .RECONCILIATION_REQUIRED

/-- A fill and the event of its position, logged in turn, are a settlement. -/
theorem logsSettlement_of {db db' : Database} {filled other : AuditEvent}
    (hlog : db'.auditEvents = db.auditEvents ++ [filled] ++ [other])
    (hfilled : filled.eventType = .ORDER_FILLED)
    (hother : other.eventType = .POSITION_OPENED ∨ other.eventType = .POSITION_CLOSED) :
    LogsSettlement db db' := by
  refine ⟨filled, other, hlog.trans (List.append_assoc _ [filled] [other]), ?_, ?_⟩
  · rw [hfilled]
    decide
  · rcases hother with hother | hother
    all_goals
      rw [hother]
      decide

/-- What a round over a stale order does, by what the answers say about it. -/
inductive OrderRound (ctx : ReconcileContext) (db : Database) (o : Order) :
    Database × Bool → Prop
  | alerted (reason : String) (hunsettled : ¬ Settles ctx db o) :
      OrderRound ctx db o (alertOnce ctx db o reason, false)
  | settled (db' : Database) (hsettles : Settles ctx db o)
      (hfilled : ∀ row ∈ db'.orders, row.id = o.id → row.status = .FILLED)
      (hevents : LogsSettlement db db') : OrderRound ctx db o (db', true)

/-- What a round over an OPEN position does, by what the answers say about it. -/
inductive PositionRound (ctx : ReconcileContext) (db : Database) (row : Position × Order) :
    Database × Bool → Prop
  | passed (hpasses : Passes ctx row) : PositionRound ctx db row (db, false)
  | alerted (reason : String) (hblocked : ¬ Passes ctx row) (hunsettled : ¬ Closes ctx row) :
      PositionRound ctx db row (alertOnce ctx db row.2 reason, false)
  | closed (db' : Database) (hcloses : Closes ctx row)
      (hclosed : ∀ p ∈ db'.positions, p.id = row.1.id → p.status = .CLOSED)
      (hevents : LogsSettlement db db') : PositionRound ctx db row (db', true)

variable {ctx : ReconcileContext} {db db' : Database}

/-! ## Alerts -/

theorem alertOnce_raised (ctx : ReconcileContext) (db : Database) (o : Order) (reason : String) :
    AlertRaised (alertOnce ctx db o reason) o.traceId := by
  unfold alertOnce
  split
  · rename_i h
    obtain ⟨e, he, halert⟩ := List.any_eq_true.mp h
    exact ⟨e, he, of_decide_eq_true halert⟩
  · exact ⟨_, List.mem_append_right _ (List.mem_singleton_self _), rfl, rfl⟩

/-- Where an alert has been raised, another does nothing. -/
theorem alertOnce_of_raised {o : Order} (h : AlertRaised db o.traceId) (reason : String) :
    alertOnce ctx db o reason = db := by
  obtain ⟨e, he, halert⟩ := h
  unfold alertOnce
  exact if_pos (List.any_eq_true.mpr ⟨e, he, decide_eq_true halert⟩)

/-- An alert raised stays raised by further alerts. -/
theorem AlertRaised.alertOnce {traceId : Uuid} (h : AlertRaised db traceId) (o : Order)
    (reason : String) : AlertRaised (alertOnce ctx db o reason) traceId := by
  obtain ⟨e, he, halert⟩ := h
  unfold Model.alertOnce
  split
  · exact ⟨e, he, halert⟩
  · exact ⟨e, List.mem_append_left _ he, halert⟩

/-- An alert raised stays raised when a settlement is logged. -/
theorem AlertRaised.settlement {traceId : Uuid} (h : AlertRaised db traceId)
    (hevents : LogsSettlement db db') : AlertRaised db' traceId := by
  obtain ⟨e, he, halert⟩ := h
  obtain ⟨_, _, hlog, _⟩ := hevents
  exact ⟨e, hlog ▸ List.mem_append_left _ he, halert⟩

/-- **One alert per trace**: where one has been raised, no other is. -/
theorem alertCount_alertOnce {traceId : Uuid} (h : alertCount db traceId ≤ 1) (o : Order)
    (reason : String) : alertCount (alertOnce ctx db o reason) traceId ≤ 1 := by
  unfold alertOnce
  split
  · exact h
  · rename_i hnone
    unfold alertCount Database.addAuditEvent
    rw [List.countP_append]
    by_cases htrace : o.traceId = traceId
    · have hzero : db.auditEvents.countP (fun e => IsAlert traceId e) = 0 := by
        rw [List.countP_eq_zero]
        intro e he halert
        exact hnone (List.any_eq_true.mpr ⟨e, he, by
          rw [htrace]
          exact halert⟩)
      rw [hzero, Nat.zero_add]
      exact List.countP_le_length
    · rw [List.countP_singleton, if_neg, Nat.add_zero]
      · exact h
      · exact fun halert => htrace (of_decide_eq_true halert).1

theorem alertCount_settlement {traceId : Uuid} (hevents : LogsSettlement db db') :
    alertCount db' traceId = alertCount db traceId := by
  obtain ⟨filled, other, hlog, hfilled, hother⟩ := hevents
  unfold alertCount
  rw [hlog, List.countP_append]
  have hnone : [filled, other].countP (fun e => IsAlert traceId e) = 0 := by
    rw [List.countP_eq_zero]
    intro e he halert
    have htype := (of_decide_eq_true halert).2
    rcases List.mem_cons.mp he with rfl | he
    · exact hfilled htype
    · rw [List.mem_singleton.mp he] at htype
      exact hother htype
  rw [hnone, Nat.add_zero]

/-! ## Rounds -/

/-- `_reconcile_open_entry` settles the order exactly where its entry is confirmed. -/
theorem reconcileOpenEntry_round {o : Order} {trade : FreqtradeTrade} {tradeId : ℤ}
    (hside : o.side = .BUY) (htradeId : o.freqtradeTradeId = some tradeId)
    (hlookup : ctx.getTrade o.id tradeId = some trade) (hpair : trade.pair = o.symbol)
    (hopen : trade.isOpen = true) :
    OrderRound ctx db o (reconcileOpenEntry ctx db o trade) := by
  unfold reconcileOpenEntry
  split
  · rename_i hnone
    refine .alerted _ ?_
    rintro (⟨_, tradeId', trade', htradeId', hlookup', _, _, hsome⟩ | ⟨⟨hsell, _⟩, _⟩)
    · cases htradeId.symm.trans htradeId'
      cases hlookup.symm.trans hlookup'
      exact hsome hnone
    · rw [hside] at hsell
      cases hsell
  · rename_i openRate amount hsome
    refine .settled _ (Or.inl ⟨hside, tradeId, trade, htradeId, hlookup, hpair, hopen, by
      simp [hsome]⟩) ?_ ?_
    · intro row hrow hid
      have hrow' : row ∈ modifyRow Order.id o.id (fun o => o.fill amount openRate) db.orders := by
        revert hrow
        split <;> exact id
      rcases mem_modifyRow.mp hrow' with ⟨_, hother⟩ | ⟨_, _, _, rfl⟩
      · exact absurd hid hother
      · rfl
    · split
      · exact logsSettlement_of rfl rfl (Or.inl rfl)
      · exact logsSettlement_of rfl rfl (Or.inl rfl)

/-- A trade without a rate and an amount does not report both. -/
theorem not_reportsFigures {trade : FreqtradeTrade}
    (hnone : ∀ closeRate amount, trade.closeRate = some closeRate →
      trade.amount = some amount → False)
    (hcloseRate : trade.closeRate ≠ none) (hamount : trade.amount ≠ none) : False := by
  obtain ⟨closeRate, hcloseRate⟩ := Option.ne_none_iff_exists'.mp hcloseRate
  obtain ⟨amount, hamount⟩ := Option.ne_none_iff_exists'.mp hamount
  exact hnone closeRate amount hcloseRate hamount

/-- `_reconcile_closed_exit` settles the order exactly where the close is reported and a
position is linked to it. -/
theorem reconcileClosedExit_round {o : Order} {trade : FreqtradeTrade} {tradeId : ℤ}
    (hside : o.side = .SELL) (htradeId : o.freqtradeTradeId = some tradeId)
    (hlookup : ctx.getTrade o.id tradeId = some trade) (hpair : trade.pair = o.symbol)
    (hclosed : trade.isOpen = false) :
    OrderRound ctx db o (reconcileClosedExit ctx db o trade) := by
  have hnotBuy : ¬ ConfirmsEntry ctx o := by
    rintro ⟨hbuy, _⟩
    rw [hside] at hbuy
    cases hbuy
  unfold reconcileClosedExit
  split
  · rename_i closeRate amount hcloseRate hamount
    split
    · rename_i hnone
      refine .alerted _ ?_
      rintro (hentry | ⟨_, p, hp, hlink⟩)
      · exact hnotBuy hentry
      · have := List.filter_eq_nil_iff.mp ((Arrangement.first_eq_none _).mp hnone) p hp
        exact this (by simpa using hlink)
    · rename_i position hfirst
      have hmem := List.mem_filter.mp (Arrangement.first_mem _ hfirst)
      refine .settled _ (Or.inr ⟨⟨hside, tradeId, htradeId, trade, hlookup, hpair, hclosed,
        by simp [hcloseRate], by simp [hamount]⟩, position, hmem.1, by simpa using hmem.2⟩) ?_
        (logsSettlement_of rfl rfl (Or.inr rfl))
      intro row hrow hid
      rcases mem_modifyRow.mp hrow with ⟨_, hother⟩ | ⟨_, _, _, rfl⟩
      · exact absurd hid hother
      · rfl
  · rename_i hnone
    refine .alerted _ ?_
    rintro (hentry | ⟨⟨_, tradeId', htradeId', trade', hlookup', _, _, hcloseRate, hamount⟩, _⟩)
    · exact hnotBuy hentry
    · cases htradeId.symm.trans htradeId'
      cases hlookup.symm.trans hlookup'
      exact not_reportsFigures hnone hcloseRate hamount

/-- Every round of the first loop settles its order or alerts. -/
theorem reconcileOrder_round (ctx : ReconcileContext) (db : Database) (o : Order) :
    OrderRound ctx db o (reconcileOrder ctx db o) := by
  unfold reconcileOrder
  split
  · rename_i hnone
    refine .alerted _ ?_
    rintro (⟨_, _, _, htradeId, _⟩ | ⟨⟨_, _, htradeId, _⟩, _⟩)
    · rw [hnone] at htradeId
      cases htradeId
    · rw [hnone] at htradeId
      cases htradeId
  · rename_i tradeId htradeId
    split
    · rename_i hnone
      refine .alerted _ ?_
      rintro (⟨_, _, _, htradeId', hlookup, _⟩ | ⟨⟨_, _, htradeId', _, hlookup, _⟩, _⟩)
      · cases htradeId.symm.trans htradeId'
        rw [hnone] at hlookup
        cases hlookup
      · cases htradeId.symm.trans htradeId'
        rw [hnone] at hlookup
        cases hlookup
    · rename_i trade hlookup
      split
      · rename_i hpair
        refine .alerted _ ?_
        rintro (⟨_, _, _, htradeId', hlookup', hpair', _⟩ |
          ⟨⟨_, _, htradeId', _, hlookup', hpair', _⟩, _⟩)
        · cases htradeId.symm.trans htradeId'
          cases hlookup.symm.trans hlookup'
          exact hpair hpair'
        · cases htradeId.symm.trans htradeId'
          cases hlookup.symm.trans hlookup'
          exact hpair hpair'
      · rename_i hpair
        split
        · rename_i hentry
          exact reconcileOpenEntry_round hentry.1 htradeId hlookup (not_not.mp hpair) hentry.2
        · rename_i hnotEntry
          split
          · rename_i hexit
            exact reconcileClosedExit_round hexit.1 htradeId hlookup (not_not.mp hpair)
              (by simpa using hexit.2)
          · rename_i hnotExit
            refine .alerted _ ?_
            rintro (⟨hside, _, _, htradeId', hlookup', _, hopen, _⟩ |
              ⟨⟨hside, _, htradeId', _, hlookup', _, hclosed, _⟩, _⟩)
            · cases htradeId.symm.trans htradeId'
              cases hlookup.symm.trans hlookup'
              exact hnotEntry ⟨hside, hopen⟩
            · cases htradeId.symm.trans htradeId'
              cases hlookup.symm.trans hlookup'
              exact hnotExit ⟨hside, by simpa using hclosed⟩

/-- Every round of the second loop passes over its position, alerts, or closes it. -/
theorem reconcilePosition_round (ctx : ReconcileContext) (db : Database)
    (row : Position × Order) : PositionRound ctx db row (reconcilePosition ctx db row) := by
  obtain ⟨position, entry⟩ := row
  unfold reconcilePosition
  dsimp only
  split
  · rename_i hnone
    refine .passed fun tradeId htradeId => ?_
    exact absurd (hnone.symm.trans htradeId) (by simp)
  · rename_i tradeId htradeId
    split
    · rename_i hnone
      refine .alerted _ ?_ ?_
      · intro hpasses
        obtain ⟨trade, hlookup, _⟩ := hpasses tradeId htradeId
        rw [hnone] at hlookup
        cases hlookup
      · rintro ⟨tradeId', htradeId', trade, hlookup, _⟩
        cases htradeId.symm.trans htradeId'
        rw [hnone] at hlookup
        cases hlookup
    · rename_i trade hlookup
      split
      · rename_i hpair
        refine .alerted _ ?_ ?_
        · intro hpasses
          obtain ⟨trade', hlookup', hpair', _⟩ := hpasses tradeId htradeId
          cases hlookup.symm.trans hlookup'
          exact hpair hpair'
        · rintro ⟨tradeId', htradeId', trade', hlookup', hpair', _⟩
          cases htradeId.symm.trans htradeId'
          cases hlookup.symm.trans hlookup'
          exact hpair hpair'
      · rename_i hpair
        split
        · rename_i hopen
          refine .passed fun tradeId' htradeId' => ⟨trade, ?_, not_not.mp hpair, hopen⟩
          cases htradeId.symm.trans htradeId'
          exact hlookup
        · rename_i hopen
          split
          · rename_i closeRate amount hcloseRate hamount
            refine .closed _ ⟨tradeId, htradeId, trade, hlookup, not_not.mp hpair,
              by simpa using hopen, by simp [hcloseRate], by simp [hamount]⟩ ?_
              (logsSettlement_of rfl rfl (Or.inr rfl))
            intro p hp hid
            rcases mem_modifyRow.mp hp with ⟨_, hother⟩ | ⟨_, _, _, rfl⟩
            · exact absurd hid hother
            · rfl
          · rename_i hnone
            refine .alerted _ ?_ ?_
            · intro hpasses
              obtain ⟨trade', hlookup', _, hopen'⟩ := hpasses tradeId htradeId
              cases hlookup.symm.trans hlookup'
              exact hopen hopen'
            · rintro ⟨tradeId', htradeId', trade', hlookup', _, _, hcloseRate, hamount⟩
              cases htradeId.symm.trans htradeId'
              cases hlookup.symm.trans hlookup'
              exact not_reportsFigures hnone hcloseRate hamount

/-! ## What the rounds keep -/

/-- What a round of either loop does not undo: a row that is still SUBMITTED is one that was
there, no link to an order that was there appears, and alerts stay. -/
structure Onward (db db' : Database) : Prop where
  submitted : ∀ o ∈ db'.orders, o.status = .SUBMITTED → o ∈ db.orders
  linked : ∀ id < db.nextId, LinkedTo db' id → LinkedTo db id
  raised : ∀ traceId, AlertRaised db traceId → AlertRaised db' traceId
  nextId : db.nextId ≤ db'.nextId

theorem Onward.refl (db : Database) : Onward db db :=
  ⟨fun _ h _ => h, fun _ _ h => h, fun _ h => h, Nat.le_refl _⟩

theorem Onward.trans {db'' : Database} (h : Onward db db') (h' : Onward db' db'') :
    Onward db db'' where
  submitted := fun o ho hstatus => h.submitted o (h'.submitted o ho hstatus) hstatus
  linked := fun id hid hlinked =>
    h.linked id hid (h'.linked id (Nat.lt_of_lt_of_le hid h.nextId) hlinked)
  raised := fun traceId hraised => h'.raised traceId (h.raised traceId hraised)
  nextId := Nat.le_trans h.nextId h'.nextId

/-- A pass moves onward where the book stays and so do the alerts. -/
theorem Onward.of_sameBook (hbook : SameBook db db')
    (hraised : ∀ traceId, AlertRaised db traceId → AlertRaised db' traceId) : Onward db db' where
  submitted := fun _ hrow _ => hbook.orders ▸ hrow
  linked := fun _ _ ⟨p, hp, hlink⟩ => ⟨p, hbook.positions ▸ hp, hlink⟩
  raised := hraised
  nextId := hbook.nextId

theorem alertOnce_onward (ctx : ReconcileContext) (db : Database) (o : Order)
    (reason : String) : Onward db (alertOnce ctx db o reason) :=
  Onward.of_sameBook (alertOnce_sameBook ctx db o reason)
    fun _ hraised => hraised.alertOnce o reason

/-- An order that is SUBMITTED after a fill was there before it. -/
theorem submitted_of_fill {rows : List Order} {id : Uuid} {amount rate : ℚ} {row : Order}
    (hrow : row ∈ modifyRow Order.id id (fun o => o.fill amount rate) rows)
    (hstatus : row.status = .SUBMITTED) : row ∈ rows := by
  rcases mem_modifyRow.mp hrow with ⟨hrow, _⟩ | ⟨_, _, _, rfl⟩
  · exact hrow
  · cases hstatus

/-- A round of the first loop moves the pass onward. -/
theorem OrderRound.onward {o : Order} {result : Database × Bool}
    (hround : OrderRound ctx db o result) (hbook : OrderReconciled ctx db o result.1) :
    Onward db result.1 := by
  cases hround with
  | alerted reason _ => exact alertOnce_onward ctx db o reason
  | settled db' _ _ hevents =>
    cases hbook with
    | alerted hbook =>
      exact Onward.of_sameBook hbook fun _ hraised => hraised.settlement hevents
    | entered openRate amount _ horders hpositions _ hnextId =>
      refine ⟨?_, ?_, fun _ hraised => hraised.settlement hevents, hnextId.le⟩
      · intro row hrow hstatus
        exact submitted_of_fill (horders ▸ hrow) hstatus
      · rintro id _ ⟨p, hp, hlink⟩
        rcases hpositions with hpositions | ⟨position, _, hopened, hpositions⟩
        · exact ⟨p, hpositions ▸ hp, hlink⟩
        · rw [hpositions] at hp
          rcases List.mem_append.mp hp with hp | hp
          · exact ⟨p, hp, hlink⟩
          · cases List.mem_singleton.mp hp
            rw [hopened.exitOrderId] at hlink
            cases hlink
    | exited position trade closeRate amount _ _ _ _ _ _ horders hpositions _ hnextId =>
      refine ⟨?_, ?_, fun _ hraised => hraised.settlement hevents, hnextId⟩
      · intro row hrow hstatus
        exact submitted_of_fill (horders ▸ hrow) hstatus
      · rintro id _ ⟨p, hp, hlink⟩
        rw [hpositions] at hp
        rcases mem_modifyRow.mp hp with ⟨hp, _⟩ | ⟨x, hx, _, rfl⟩
        · exact ⟨p, hp, hlink⟩
        · exact ⟨x, hx, hlink⟩

/-- A round of the second loop moves the pass onward: it inserts FILLED orders only, and
links positions to them only. -/
theorem PositionRound.onward {row : Position × Order} {result : Database × Bool}
    (hround : PositionRound ctx db row result)
    (hbook : PositionReconciled ctx db row.1 row.2 result.1) : Onward db result.1 := by
  cases hround with
  | passed _ => exact Onward.refl db
  | alerted reason _ _ => exact alertOnce_onward ctx db row.2 reason
  | closed db' _ _ hevents =>
    cases hbook with
    | alerted hbook =>
      exact Onward.of_sameBook hbook fun _ hraised => hraised.settlement hevents
    | closed exit trade closeRate _ _ _ hid _ hfilled _ _ horders hpositions _ hnextId =>
      refine ⟨?_, ?_, fun _ hraised => hraised.settlement hevents, hnextId.le⟩
      · intro o ho hstatus
        rw [horders] at ho
        rcases List.mem_append.mp ho with ho | ho
        · exact ho
        · cases List.mem_singleton.mp ho
          rw [hfilled] at hstatus
          cases hstatus
      · rintro id hlt ⟨p, hp, hlink⟩
        rw [hpositions] at hp
        rcases mem_modifyRow.mp hp with ⟨hp, _⟩ | ⟨_, _, _, rfl⟩
        · exact ⟨p, hp, hlink⟩
        · -- the link written is to the order just inserted
          have hexit : exit.id = id := Option.some.inj hlink
          rw [← hexit, hid] at hlt
          exact absurd hlt (Nat.lt_irrefl _)

/-- The orders and positions the second loop reads, it reads again afterwards. -/
structure Shrinks (db db' : Database) : Prop where
  opens : ∀ p ∈ db'.positions, p.status = .OPEN → p ∈ db.positions
  buys : ∀ o ∈ db'.orders, o.side = .BUY → o ∈ db.orders

theorem Shrinks.refl (db : Database) : Shrinks db db :=
  ⟨fun _ h _ => h, fun _ h _ => h⟩

theorem Shrinks.trans {db'' : Database} (h : Shrinks db db') (h' : Shrinks db' db'') :
    Shrinks db db'' where
  opens := fun p hp hopen => h.opens p (h'.opens p hp hopen) hopen
  buys := fun o ho hside => h.buys o (h'.buys o ho hside) hside

/-- A round of the second loop opens no position and inserts no BUY order. -/
theorem PositionReconciled.shrinks {position : Position} {entry : Order}
    (h : PositionReconciled ctx db position entry db') : Shrinks db db' := by
  cases h with
  | alerted hbook =>
    exact ⟨fun p hp _ => hbook.positions ▸ hp, fun o ho _ => hbook.orders ▸ ho⟩
  | closed exit trade closeRate _ _ _ _ hside _ _ _ horders hpositions _ _ =>
    constructor
    · intro p hp hopen
      rw [hpositions] at hp
      rcases mem_modifyRow.mp hp with ⟨hp, _⟩ | ⟨_, _, _, rfl⟩
      · exact hp
      · cases hopen
    · intro o ho hbuy
      rw [horders] at ho
      rcases List.mem_append.mp ho with ho | ho
      · exact ho
      · cases List.mem_singleton.mp ho
        rw [hside] at hbuy
        cases hbuy

/-! ## The two loops -/

/-- The book after the first loop. -/
def afterOrders (ctx : ReconcileContext) (db : Database) : Database :=
  runFrom (fun db o => (reconcileOrder ctx db o).1) db (staleOrders ctx db)

/-- The book after the second loop. -/
def afterPositions (ctx : ReconcileContext) (db : Database) : Database :=
  runFrom (fun db row => (reconcilePosition ctx db row).1) db (trackedPositions ctx db)

/-- A pass is the one loop after the other. -/
theorem reconcileSubmittedOrders_db (ctx : ReconcileContext) (db : Database) :
    (reconcileSubmittedOrders ctx db).1 = afterPositions ctx (afterOrders ctx db) := by
  unfold reconcileSubmittedOrders reconcileOpenPositions
  dsimp only
  rw [reconcileEach_runFrom, reconcileEach_runFrom]
  rfl

theorem afterOrders_onward (ctx : ReconcileContext) (db : Database) :
    Onward db (afterOrders ctx db) :=
  @runFrom_inv _ _ _ (Onward db) db (Onward.refl db) _ fun s o _ hs =>
    hs.trans ((reconcileOrder_round ctx s o).onward (reconcileOrder_reconciled ctx s o))

theorem afterPositions_onward (ctx : ReconcileContext) (db : Database) :
    Onward db (afterPositions ctx db) :=
  @runFrom_inv _ _ _ (Onward db) db (Onward.refl db) _ fun s row _ hs =>
    hs.trans ((reconcilePosition_round ctx s row).onward (reconcilePosition_reconciled ctx s row))

/-- The second loop reads nothing it did not read. -/
theorem afterPositions_shrinks (ctx : ReconcileContext) (db : Database) :
    Shrinks db (afterPositions ctx db) :=
  @runFrom_inv _ _ _ (Shrinks db) db (Shrinks.refl db) _ fun s row _ hs =>
    hs.trans (reconcilePosition_reconciled ctx s row).shrinks

/-- A SUBMITTED order that, if it is still there as it was, the answers do not settle and
whose alert has been raised. -/
structure OrderLeft (ctx : ReconcileContext) (o : Order) (db : Database) : Prop where
  submitted : o.status = .SUBMITTED
  known : o.id < db.nextId
  left : o ∈ db.orders → ¬ Settles ctx db o ∧ AlertRaised db o.traceId

/-- What is not settled is not settled further on. -/
theorem Onward.unsettled (h : Onward db db') {o : Order} (hknown : o.id < db.nextId)
    (hunsettled : ¬ Settles ctx db o) : ¬ Settles ctx db' o := by
  rintro (hentry | ⟨hexit, hlinked⟩)
  · exact hunsettled (Or.inl hentry)
  · exact hunsettled (Or.inr ⟨hexit, h.linked o.id hknown hlinked⟩)

theorem OrderLeft.onward {o : Order} (h : OrderLeft ctx o db) (honward : Onward db db') :
    OrderLeft ctx o db' where
  submitted := h.submitted
  known := Nat.lt_of_lt_of_le h.known honward.nextId
  left := by
    intro ho
    obtain ⟨hunsettled, hraised⟩ := h.left (honward.submitted o ho h.submitted)
    exact ⟨honward.unsettled h.known hunsettled, honward.raised _ hraised⟩

/-- A round leaves its order, or settles it. -/
theorem reconcileOrder_left {o : Order} (hsubmitted : o.status = .SUBMITTED)
    (hknown : o.id < db.nextId) : OrderLeft ctx o (reconcileOrder ctx db o).1 := by
  have hround := reconcileOrder_round ctx db o
  have honward := hround.onward (reconcileOrder_reconciled ctx db o)
  refine ⟨hsubmitted, Nat.lt_of_lt_of_le hknown honward.nextId, ?_⟩
  generalize reconcileOrder ctx db o = result at hround honward ⊢
  intro ho
  cases hround with
  | alerted reason hunsettled =>
    exact ⟨honward.unsettled hknown hunsettled, alertOnce_raised ctx db o reason⟩
  | settled db' _ hfilled _ =>
    have hstatus := hfilled o ho rfl
    rw [hsubmitted] at hstatus
    cases hstatus

/-- **The first loop leaves** of its rows those the answers do not settle. -/
theorem afterOrders_left (h : db.WellKeyed) :
    ∀ o ∈ staleOrders ctx db, OrderLeft ctx o (afterOrders ctx db) := by
  have hround : ∀ s o, Onward s (reconcileOrder ctx s o).1 := fun s o =>
    (reconcileOrder_round ctx s o).onward (reconcileOrder_reconciled ctx s o)
  refine @runFrom_marks _ _ (fun s o => (reconcileOrder ctx s o).1) (Onward db)
    (OrderLeft ctx) _ (fun s o _ hs => hs.trans (hround s o)) ?_
    (fun s o _ j _ hleft => hleft.onward (hround s o)) db (Onward.refl db)
  intro s o ho hs
  have hstale := mem_staleOrders.mp ho
  exact reconcileOrder_left hstale.2.1
    (Nat.lt_of_lt_of_le (h.orders_lt o hstale.1) hs.nextId)

/-- An OPEN position that, if it is still there as it was, the second loop passes over, or
cannot close and has alerted about. -/
structure PositionLeft (ctx : ReconcileContext) (row : Position × Order) (db : Database) :
    Prop where
  opened : row.1.status = .OPEN
  left : row.1 ∈ db.positions →
    Passes ctx row ∨ (¬ Closes ctx row ∧ AlertRaised db row.2.traceId)

/-- A position left stays left by the rounds of the second loop. -/
theorem PositionLeft.onward {row : Position × Order} (h : PositionLeft ctx row db)
    (honward : Onward db db') (hshrinks : Shrinks db db') : PositionLeft ctx row db' where
  opened := h.opened
  left := fun hp => (h.left (hshrinks.opens row.1 hp h.opened)).imp_right fun hleft =>
    ⟨hleft.1, honward.raised _ hleft.2⟩

/-- A round leaves its position, or closes it. -/
theorem reconcilePosition_left {row : Position × Order} (hopen : row.1.status = .OPEN) :
    PositionLeft ctx row (reconcilePosition ctx db row).1 := by
  have hround := reconcilePosition_round ctx db row
  refine ⟨hopen, ?_⟩
  generalize reconcilePosition ctx db row = result at hround ⊢
  intro hp
  cases hround with
  | passed hpasses => exact Or.inl hpasses
  | alerted reason _ hunsettled =>
    exact Or.inr ⟨hunsettled, alertOnce_raised ctx db row.2 reason⟩
  | closed db' _ hclosed _ =>
    have hstatus := hclosed row.1 hp rfl
    rw [hopen] at hstatus
    cases hstatus

/-- **The second loop leaves** of its rows those the answers do not close. -/
theorem afterPositions_left (ctx : ReconcileContext) (db : Database) :
    ∀ row ∈ trackedPositions ctx db, PositionLeft ctx row (afterPositions ctx db) := by
  have hround : ∀ s row, Onward s (reconcilePosition ctx s row).1 := fun s row =>
    (reconcilePosition_round ctx s row).onward (reconcilePosition_reconciled ctx s row)
  refine @runFrom_marks _ _ (fun s row => (reconcilePosition ctx s row).1) (fun _ => True)
    (PositionLeft ctx) _ (fun _ _ _ _ => trivial) ?_ ?_ db trivial
  · exact fun s row hrow _ => reconcilePosition_left (mem_trackedPositions.mp hrow).2.2.2.1
  · exact fun s row _ j _ hleft =>
      hleft.onward (hround s row) (reconcilePosition_reconciled ctx s row).shrinks

/-- **A pass leaves nothing to do.** -/
theorem reconciled_after (h : db.WellKeyed) :
    Reconciled ctx (reconcileSubmittedOrders ctx db).1 := by
  rw [reconcileSubmittedOrders_db]
  have hfirst := afterOrders_onward ctx db
  have hsecond := afterPositions_onward ctx (afterOrders ctx db)
  have hshrinks := afterPositions_shrinks ctx (afterOrders ctx db)
  constructor
  · intro o ho
    obtain ⟨hmem, hstatus, hold⟩ := mem_staleOrders.mp ho
    -- a stale order of the book afterwards was one before
    have hmiddle := hsecond.submitted o hmem hstatus
    have hstale : o ∈ staleOrders ctx db :=
      mem_staleOrders.mpr ⟨hfirst.submitted o hmiddle hstatus, hstatus, hold⟩
    exact ((afterOrders_left h o hstale).onward hsecond).left hmem
  · intro row hrow
    obtain ⟨hposition, hentry, hjoin, hopen, hsome, hbuy⟩ := mem_trackedPositions.mp hrow
    have htracked : row ∈ trackedPositions ctx (afterOrders ctx db) :=
      mem_trackedPositions.mpr ⟨hshrinks.opens _ hposition hopen, hshrinks.buys _ hentry hbuy,
        hjoin, hopen, hsome, hbuy⟩
    exact (afterPositions_left ctx _ row htracked).left hposition

/-! ## A pass with nothing to do -/

/-- A loop whose rounds do nothing does nothing. -/
theorem reconcileEach_idle {α : Type} {body : Database → α → Database × Bool}
    (rows : List α) (hidle : ∀ row ∈ rows, body db row = (db, false)) :
    reconcileEach body db rows = (db, 0) := by
  unfold reconcileEach
  induction rows with
  | nil => rfl
  | cons row rest ih =>
    rw [List.foldl_cons, hidle row List.mem_cons_self]
    exact ih fun row hrow => hidle row (List.mem_cons_of_mem _ hrow)

/-- **A pass over a reconciled book** changes nothing and reconciles nothing. -/
theorem reconcile_of_reconciled (h : Reconciled ctx db) :
    reconcileSubmittedOrders ctx db = (db, 0) := by
  have horders : reconcileEach (reconcileOrder ctx) db (staleOrders ctx db) = (db, 0) := by
    refine reconcileEach_idle _ fun o ho => ?_
    obtain ⟨hunsettled, hraised⟩ := h.orders o ho
    have hround := reconcileOrder_round ctx db o
    generalize reconcileOrder ctx db o = result at hround ⊢
    cases hround with
    | alerted reason _ => rw [alertOnce_of_raised hraised]
    | settled _ hsettles _ _ => exact absurd hsettles hunsettled
  have hpositions :
      reconcileEach (reconcilePosition ctx) db (trackedPositions ctx db) = (db, 0) := by
    refine reconcileEach_idle _ fun row hrow => ?_
    have hround := reconcilePosition_round ctx db row
    generalize reconcilePosition ctx db row = result at hround ⊢
    rcases h.positions row hrow with hpasses | ⟨hunsettled, hraised⟩
    · cases hround with
      | passed _ => rfl
      | alerted _ hblocked _ => exact absurd hpasses hblocked
      | closed _ hcloses _ _ => exact absurd hcloses hpasses.not_closes
    · cases hround with
      | passed _ => rfl
      | alerted reason _ _ => rw [alertOnce_of_raised hraised]
      | closed _ hcloses _ _ => exact absurd hcloses hunsettled
  unfold reconcileSubmittedOrders reconcileOpenPositions
  rw [horders]
  dsimp only
  rw [hpositions]
  rfl

/-! ## What a pass leaves alone -/

/-- The answer to a lookup confirms the order filled. -/
def ConfirmsFill (ctx : ReconcileContext) (o : Order) : Prop :=
  ConfirmsEntry ctx o ∨ ConfirmsExit ctx o

/-- The answer to a lookup reports the trade of the position closed: the lookup made for the
position itself, or the one made for the exit order it is linked to. -/
def ReportedClosed (ctx : ReconcileContext) (db : Database) (p : Position) : Prop :=
  (∃ entry ∈ db.orders, entry.id = p.entryOrderId ∧ entry.side = .BUY ∧ Closes ctx (p, entry)) ∨
    ∃ exit ∈ db.orders, p.exitOrderId = some exit.id ∧ ConfirmsExit ctx exit

/-- A round over another order, or one that its answer does not confirm, keeps the row. -/
theorem reconcileOrder_keeps {o j : Order} (ho : o ∈ db.orders)
    (hother : o.id = j.id → ¬ ConfirmsFill ctx j) :
    o ∈ (reconcileOrder ctx db j).1.orders := by
  have hround := reconcileOrder_round ctx db j
  have hbook := reconcileOrder_reconciled ctx db j
  generalize reconcileOrder ctx db j = result at hround hbook ⊢
  cases hround with
  | alerted reason _ => exact (alertOnce_sameBook ctx db j reason).orders ▸ ho
  | settled db' hsettles _ _ =>
    have hid : o.id ≠ j.id := fun hid =>
      hother hid (hsettles.imp_right fun hexit => hexit.1)
    cases hbook with
    | alerted hbook => exact hbook.orders ▸ ho
    | entered _ _ _ horders _ _ _ => exact horders ▸ mem_modifyRow.mpr (Or.inl ⟨ho, hid⟩)
    | exited _ _ _ _ _ _ _ _ _ _ horders _ _ _ =>
      exact horders ▸ mem_modifyRow.mpr (Or.inl ⟨ho, hid⟩)

/-- Every order afterwards has the id, the side and the trade id of one before. -/
def SameTrades (db db' : Database) : Prop :=
  ∀ o' ∈ db'.orders, ∃ o ∈ db.orders, o.id = o'.id ∧ o.side = o'.side ∧
    o.freqtradeTradeId = o'.freqtradeTradeId

theorem SameTrades.trans {db'' : Database} (h : SameTrades db db') (h' : SameTrades db' db'') :
    SameTrades db db'' := by
  intro o'' ho''
  obtain ⟨o', ho', hid', hside', htrade'⟩ := h' o'' ho''
  obtain ⟨o, ho, hid, hside, htrade⟩ := h o' ho'
  exact ⟨o, ho, hid.trans hid', hside.trans hside', htrade.trans htrade'⟩

/-- Filling an order changes none of the three. -/
theorem SameTrades.fill {id : Uuid} {amount rate : ℚ}
    (h : db'.orders = modifyRow Order.id id (fun o => o.fill amount rate) db.orders) :
    SameTrades db db' := by
  intro o' ho'
  rw [h] at ho'
  rcases mem_modifyRow.mp ho' with ⟨ho, _⟩ | ⟨o, ho, _, rfl⟩
  · exact ⟨o', ho, rfl, rfl, rfl⟩
  · exact ⟨o, ho, rfl, rfl, rfl⟩

/-- What holds of the first loop's book so far: keys are unique, the orders are the ones
there were, and the position, which no lookup reports closed, is still there. -/
structure Spares (ctx : ReconcileContext) (db : Database) (p : Position) (db' : Database) :
    Prop where
  keyed : db'.WellKeyed
  trades : SameTrades db db'
  mem : p ∈ db'.positions

/-- A round of the first loop spares a position that no lookup reports closed. -/
theorem OrderReconciled.spares {before : Database} {o : Order} {p : Position}
    (h : OrderReconciled ctx db o db') (hspares : Spares ctx before p db)
    (ho : o ∈ before.orders) (hreported : ¬ ReportedClosed ctx before p) :
    Spares ctx before p db' := by
  cases h with
  | alerted hbook =>
    refine ⟨?_, ?_, hbook.positions ▸ hspares.mem⟩
    · exact wellKeyed_of_keys hspares.keyed (by rw [hbook.orders]) (by rw [hbook.positions])
        hbook.nextId
    · unfold SameTrades
      rw [hbook.orders]
      exact hspares.trades
  | entered openRate amount _ horders hpositions _ hnextId =>
    have hids : db'.orders.map Order.id = db.orders.map Order.id := by
      rw [horders]
      exact map_modifyRow Order.id fun _ _ _ => rfl
    have htrades := hspares.trades.trans (SameTrades.fill horders)
    rcases hpositions with hpositions | ⟨position, _, hopened, hpositions⟩
    · refine ⟨?_, htrades, hpositions ▸ hspares.mem⟩
      exact wellKeyed_of_keys hspares.keyed hids (by rw [hpositions]) hnextId.le
    · refine ⟨?_, htrades, hpositions ▸ List.mem_append_left _ hspares.mem⟩
      have hfilled : { db with orders := db'.orders }.WellKeyed :=
        wellKeyed_of_keys hspares.keyed hids rfl (Nat.le_refl _)
      exact wellKeyed_insertPosition hfilled rfl hpositions hopened.id.ge
        (hopened.id ▸ hnextId)
  | exited position trade closeRate amount tradeId htradeId hreports hside hmem hlinked horders
      hpositions _ hnextId =>
    have hids : db'.orders.map Order.id = db.orders.map Order.id := by
      rw [horders]
      exact map_modifyRow Order.id fun _ _ _ => rfl
    refine ⟨?_, hspares.trades.trans (SameTrades.fill horders), ?_⟩
    · refine wellKeyed_of_keys hspares.keyed hids ?_ hnextId
      rw [hpositions]
      exact map_modifyRow Position.id fun _ _ _ => rfl
    · rw [hpositions]
      refine mem_modifyRow.mpr (Or.inl ⟨hspares.mem, fun hid => hreported (Or.inr ?_)⟩)
      rw [position_ext hspares.keyed hspares.mem hmem hid]
      exact ⟨o, ho, hlinked, hside, tradeId, htradeId, hreports⟩

/-- The first loop spares a position that no lookup reports closed. -/
theorem afterOrders_spares (h : db.WellKeyed) {p : Position} (hp : p ∈ db.positions)
    (hreported : ¬ ReportedClosed ctx db p) : Spares ctx db p (afterOrders ctx db) := by
  refine @runFrom_inv _ _ _ (Spares ctx db p) db
    ⟨h, fun o ho => ⟨o, ho, rfl, rfl, rfl⟩, hp⟩ _ fun s o ho hs => ?_
  exact (reconcileOrder_reconciled ctx s o).spares hs (mem_staleOrders.mp ho).1 hreported

/-- **A position that no lookup reports closed** keeps its columns. -/
theorem reconcile_position_kept (h : db.WellKeyed) {p : Position} (hp : p ∈ db.positions)
    (hreported : ¬ ReportedClosed ctx db p) :
    p ∈ (reconcileSubmittedOrders ctx db).1.positions := by
  rw [reconcileSubmittedOrders_db]
  have hspares := afterOrders_spares h hp hreported
  generalize afterOrders ctx db = middle at hspares ⊢
  refine @runFrom_inv _ _ _ (fun s : Database => p ∈ s.positions) middle hspares.mem _
    fun s row hrow hs => ?_
  cases reconcilePosition_reconciled ctx s row with
  | alerted hbook => exact hbook.positions ▸ hs
  | closed exit trade closeRate tradeId htradeId hreports _ _ _ _ _ _ hpositions _ _ =>
    rw [hpositions]
    refine mem_modifyRow.mpr (Or.inl ⟨hs, fun hid => hreported (Or.inl ?_)⟩)
    obtain ⟨hposition, hentry, hjoin, _, _, hbuy⟩ := mem_trackedPositions.mp hrow
    -- the row the lookup was made for is the position itself, with its own entry order
    have hrow : p = row.1 := position_ext hspares.keyed hspares.mem hposition hid
    obtain ⟨entry, hmem, hentryId, hside, htrade⟩ := hspares.trades row.2 hentry
    refine ⟨entry, hmem, ?_, hside.trans hbuy, tradeId, htrade.trans htradeId, ?_⟩
    · rw [hentryId, hrow]
      exact hjoin.symm
    · rw [hrow]
      exact hreports

/-- **An order that no lookup confirms filled** keeps its columns. -/
theorem reconcile_order_kept (h : db.WellKeyed) {o : Order} (ho : o ∈ db.orders)
    (hconfirms : ¬ ConfirmsFill ctx o) : o ∈ (reconcileSubmittedOrders ctx db).1.orders := by
  rw [reconcileSubmittedOrders_db]
  have hfirst : o ∈ (afterOrders ctx db).orders := by
    refine @runFrom_inv _ _ _ (fun s : Database => o ∈ s.orders) db ho _ fun s j hj hs => ?_
    refine reconcileOrder_keeps hs fun hid => ?_
    rwa [← order_ext h ho (mem_staleOrders.mp hj).1 hid]
  refine @runFrom_inv _ _ _ (fun s : Database => o ∈ s.orders) _ hfirst _ fun s row _ hs => ?_
  cases reconcilePosition_reconciled ctx s row with
  | alerted hbook => exact hbook.orders ▸ hs
  | closed _ _ _ _ _ _ _ _ _ _ _ horders _ _ _ =>
    exact horders ▸ List.mem_append_left _ hs

/-- **A pass raises no second alert** in a trace. -/
theorem reconcile_alertCount {traceId : Uuid} (h : alertCount db traceId ≤ 1) :
    alertCount (reconcileSubmittedOrders ctx db).1 traceId ≤ 1 := by
  rw [reconcileSubmittedOrders_db]
  refine @runFrom_inv _ _ _ (fun s : Database => alertCount s traceId ≤ 1) _ ?_ _
    fun s row _ hs => ?_
  · refine @runFrom_inv _ _ _ (fun s : Database => alertCount s traceId ≤ 1) db h _
      fun s o _ hs => ?_
    have hround := reconcileOrder_round ctx s o
    generalize reconcileOrder ctx s o = result at hround ⊢
    cases hround with
    | alerted reason _ => exact alertCount_alertOnce hs o reason
    | settled _ _ _ hevents => exact (alertCount_settlement hevents).trans_le hs
  · have hround := reconcilePosition_round ctx s row
    generalize reconcilePosition ctx s row = result at hround ⊢
    cases hround with
    | passed _ => exact hs
    | alerted reason _ _ => exact alertCount_alertOnce hs row.2 reason
    | closed _ _ _ hevents => exact (alertCount_settlement hevents).trans_le hs

/-- What is reconciled for one pass is so for a pass at another moment, in which the database
returns its rows in another order. -/
theorem Reconciled.again (h : Reconciled ctx db) (startedAt : Time) (rows : RowOrder) :
    Reconciled { ctx with startedAt, rows } db where
  orders := by
    intro o ho
    have hstale := mem_staleOrders.mp ho
    exact h.orders o (mem_staleOrders.mpr hstale)
  positions := by
    intro row hrow
    have htracked := mem_trackedPositions.mp hrow
    exact h.positions row (mem_trackedPositions.mpr htracked)

/-- Some lookup for the trade of the position's entry order answers with a record of that trade on
the position's pair that is unambiguously closed. -/
def OwnTradeClosed (ctx : ReconcileContext) (db : Database) (p : Position) : Prop :=
  ∃ entry ∈ db.orders, entry.id = p.entryOrderId ∧ ∃ tradeId,
    entry.freqtradeTradeId = some tradeId ∧ ∃ row, ReportsClosed ctx row tradeId p.symbol

/-- The exit order a position is linked to, where it carries a trade id, is on the position's pair
and carries the trade id of the position's entry order. -/
def LinksOwnTrade (db : Database) (p : Position) : Prop :=
  ∀ exit ∈ db.orders, p.exitOrderId = some exit.id → ∀ tradeId,
    exit.freqtradeTradeId = some tradeId → exit.symbol = p.symbol ∧
      ∃ entry ∈ db.orders, entry.id = p.entryOrderId ∧ entry.freqtradeTradeId = some tradeId

/-- Where a position is linked to an order of its own trade, a lookup reports it closed only by a
record of that trade. -/
theorem ownTradeClosed_of_reported {p : Position} (hlinks : LinksOwnTrade db p)
    (h : ReportedClosed ctx db p) : OwnTradeClosed ctx db p := by
  rcases h with ⟨entry, hentry, hid, -, tradeId, htradeId, hreports⟩ |
    ⟨exit, hexit, hlink, -, tradeId, htradeId, hreports⟩
  · exact ⟨entry, hentry, hid, tradeId, htradeId, p.id, hreports⟩
  · obtain ⟨hpair, entry, hentry, hid, hsame⟩ := hlinks exit hexit hlink tradeId htradeId
    exact ⟨entry, hentry, hid, tradeId, hsame, exit.id, hpair ▸ hreports⟩

/-- **Reconciliation is idempotent and fails closed.**  With the same answers and the same
clock a second pass changes nothing and returns 0; an order whose fill no lookup confirms keeps
all its columns, and so does a position linked to no exit order of another trade whose own trade
no lookup reports closed; and no trace gets a second alert. -/
theorem reconcile_idempotent (ctx : ReconcileContext) (db : Database) (h : db.WellKeyed) :
    (∀ startedAt rows,
      reconcileSubmittedOrders { ctx with startedAt, rows } (reconcileSubmittedOrders ctx db).1 =
        ((reconcileSubmittedOrders ctx db).1, 0)) ∧
      (∀ o ∈ db.orders, ¬ ConfirmsFill ctx o → o ∈ (reconcileSubmittedOrders ctx db).1.orders) ∧
      (∀ p ∈ db.positions, LinksOwnTrade db p → ¬ OwnTradeClosed ctx db p →
        p ∈ (reconcileSubmittedOrders ctx db).1.positions) ∧
      ∀ traceId, alertCount db traceId ≤ 1 →
        alertCount (reconcileSubmittedOrders ctx db).1 traceId ≤ 1 := by
  refine ⟨fun startedAt rows => reconcile_of_reconciled ((reconciled_after h).again startedAt rows),
    fun _ ho => reconcile_order_kept h ho, fun p hp hlinks hopen => ?_,
    fun _ => reconcile_alertCount⟩
  exact reconcile_position_kept h hp fun hreported =>
    hopen (ownTradeClosed_of_reported hlinks hreported)

/-- A pass that opens the position of a filled entry, and the pass after it. -/
theorem entry_reconciled_once :
    (reconcileSubmittedOrders (passAt (minutes 20) btcTrade.openTrade) awaitingFill.db).2 = 1 ∧
      (reconcileSubmittedOrders (passAt (minutes 20) btcTrade.openTrade)
        (reconcileSubmittedOrders (passAt (minutes 20) btcTrade.openTrade) awaitingFill.db).1).2 =
          0 := by
  have hkeyed : awaitingFill.db.WellKeyed :=
    ⟨by decide +kernel, by decide +kernel, by decide +kernel, by decide +kernel⟩
  have hagain := (reconcile_idempotent (passAt (minutes 20) btcTrade.openTrade) _ hkeyed).1
    (minutes 20) RowOrder.stored
  exact ⟨by decide +kernel, congrArg Prod.snd hagain⟩

/-- A book whose open position of trade 7 is linked to a submitted exit order that carries the id
of trade 8. -/
def crossLinkedBook : Database where
  orders :=
    [{ id := 0, traceId := 1, riskDecisionId := 10, freqtradeTradeId := some 7,
       symbol := "BTC/USDT", side := .BUY, status := .FILLED, requestedAmount := 1 / 2,
       dryRun := true, createdAt := 0 },
      { id := 1, traceId := 2, riskDecisionId := 11, freqtradeTradeId := some 8,
        symbol := "BTC/USDT", side := .SELL, status := .SUBMITTED, requestedAmount := 1 / 2,
        dryRun := true, createdAt := 0 }]
  positions :=
    [{ id := 2, symbol := "BTC/USDT", status := .OPEN, entryOrderId := 0, exitOrderId := some 1,
       entryPrice := 100, amount := 1 / 2, openedAt := 0 }]
  nextId := 3

/-- A pass that gets a record of trade 8 only, which is closed. -/
def onlyTradeEight : ReconcileContext :=
  { passAt (minutes 20) btcTrade.closedTrade with
    getTrade := fun _ tradeId =>
      if tradeId = 8 then some { btcTrade.closedTrade with tradeId := 8 } else none }

/-- **A record of another trade closes a position** that is linked to an order of that trade,
although the record of its own trade is unavailable. -/
theorem cross_linked_position_closed :
    ¬ ∀ (ctx : ReconcileContext) (db : Database), db.WellKeyed → ∀ p ∈ db.positions,
      ¬ OwnTradeClosed ctx db p → p ∈ (reconcileSubmittedOrders ctx db).1.positions := by
  intro h
  have hkeyed : crossLinkedBook.WellKeyed :=
    ⟨by decide +kernel, by decide +kernel, by decide +kernel, by decide +kernel⟩
  obtain ⟨p, hp, hentry, hgone⟩ : ∃ p ∈ crossLinkedBook.positions, p.entryOrderId = 0 ∧
      p ∉ (reconcileSubmittedOrders onlyTradeEight crossLinkedBook).1.positions := by
    decide +kernel
  refine hgone (h onlyTradeEight crossLinkedBook hkeyed p hp ?_)
  -- the lookups for trade 7 fail
  rintro ⟨entry, hmem, hid, tradeId, htradeId, row, trade, hanswer, -⟩
  have htrade : tradeId = 7 := by
    have hall : ∀ entry ∈ crossLinkedBook.orders, entry.id = 0 →
        entry.freqtradeTradeId = some 7 := by decide +kernel
    exact Option.some.inj (htradeId.symm.trans (hall entry hmem (hid.trans hentry)))
  rw [htrade] at hanswer
  cases hanswer

end TradeMind.Analysis
