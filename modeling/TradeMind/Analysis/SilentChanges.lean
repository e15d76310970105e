import TradeMind.Analysis.Ledger
import TradeMind.Analysis.WebhookEffects

/-!
# The audit trail of a webhook request

A handler writes its order before it knows whether it will come to the audit event, and
the router commits whatever was written.  Three returns leave a change behind and no
event: a fill that lacks a figure after the lookup has written the trade id, on either
side, and an exit fill whose order is filled and for which no position is found.
`ChangesSilently` names them; every other request that changes the book is on record.
-/

set_option autoImplicit false

namespace TradeMind.Analysis

open TradeMind.Library TradeMind.Model

/-- The events a transaction inserts. -/
def newEvents (db db' : Database) : List AuditEvent :=
  db'.auditEvents.drop db.auditEvents.length

/-- An event of the trace is inserted. -/
def OnRecord (db db' : Database) (traceId : Uuid) : Prop :=
  ∃ e ∈ newEvents db db', e.traceId = traceId

/-- The order a position's row is about: the one that closes it, else the one that opened
it. -/
def rowOrderId (p : Position) : Uuid := p.exitOrderId.getD p.entryOrderId

/-- Every order that is new or different is on record, and every position that is, under the
trace of the order its row is about. -/
structure Audited (db db' : Database) : Prop where
  orders : ∀ o ∈ db'.orders, o ∉ db.orders → OnRecord db db' o.traceId
  positions : ∀ p ∈ db'.positions, p ∉ db.positions →
    ∃ o ∈ db'.orders, o.id = rowOrderId p ∧ OnRecord db db' o.traceId

/-- The lookup writes the trade id on an order: none carries it yet, and one waits for it. -/
def Backfills (db : Database) (tradeId : ℤ) (pair : Symbol) (side : OrderSide) : Prop :=
  (∀ o ∈ db.orders, ¬ IsOrderFor o tradeId pair side) ∧ ∃ o ∈ db.orders, IsUnmatched o pair side

/-- The order is not linked to a position, and no position is OPEN on the pair. -/
def NothingToClose (db : Database) (orderId : Uuid) (pair : Symbol) : Prop :=
  ∀ p ∈ db.positions, p.exitOrderId ≠ some orderId ∧ ¬ (p.symbol = pair ∧ p.status = .OPEN)

/-- The requests that change the book and insert no event. -/
def ChangesSilently (ctx : WebhookContext) (db : Database) (payload : FreqtradeWebhookPayload) :
    Prop :=
  match payload.event with
  | .entry_fill =>
    (payload.openRate = none ∨ payload.amount = none) ∧
      Backfills db payload.tradeId payload.pair .BUY
  | .exit_fill =>
    ((payload.closeRate = none ∨ payload.amount = none) ∧
        Backfills db payload.tradeId payload.pair .SELL) ∨
      ∃ closeRate amount order, payload.closeRate = some closeRate ∧
        payload.amount = some amount ∧
        (findOrder ctx.rows db payload.tradeId payload.pair .SELL).1 = some order ∧
        order.fill amount closeRate ∉ db.orders ∧ NothingToClose db order.id payload.pair
  | _ => False

variable {db db' : Database} {ctx : WebhookContext} {payload : FreqtradeWebhookPayload}

/-- A request that leaves the rows as they are needs no event. -/
theorem Audited.of_same (horders : ∀ o ∈ db'.orders, o ∈ db.orders)
    (hpositions : ∀ p ∈ db'.positions, p ∈ db.positions) : Audited db db' :=
  ⟨fun o ho hnew => absurd (horders o ho) hnew, fun p hp hnew => absurd (hpositions p hp) hnew⟩

/-- A change of one order and of positions about it, with an event of its trace, is
audited. -/
theorem Audited.of_event {order : Order} {e : AuditEvent} {events : List AuditEvent}
    (hmem : order ∈ db'.orders) (horders : ∀ o ∈ db'.orders, o ∉ db.orders → o = order)
    (hpositions : ∀ p ∈ db'.positions, p ∉ db.positions → rowOrderId p = order.id)
    (hevents : db'.auditEvents = db.auditEvents ++ e :: events)
    (htrace : e.traceId = order.traceId) : Audited db db' := by
  have hrecord : OnRecord db db' order.traceId := by
    refine ⟨e, ?_, htrace⟩
    rw [newEvents, hevents, List.drop_left]
    exact List.mem_cons_self
  refine ⟨fun o ho hnew => ?_, fun p hp hnew => ?_⟩
  · rw [horders o ho hnew]
    exact hrecord
  · exact ⟨order, hmem, (hpositions p hp hnew).symm, hrecord⟩

/-- A new order row without any new event is not audited. -/
theorem not_audited {order : Order} (hmem : order ∈ db'.orders) (hnew : order ∉ db.orders)
    (hevents : db'.auditEvents = db.auditEvents) : ¬ Audited db db' := by
  intro h
  obtain ⟨e, he, _⟩ := h.orders order hmem hnew
  rw [newEvents, hevents, List.drop_length] at he
  exact List.not_mem_nil he

/-! ## Lookups -/

theorem findOrder_auditEvents {side : OrderSide} :
    (findOrder ctx.rows db payload.tradeId payload.pair side).2.auditEvents = db.auditEvents := by
  cases findOrder_found ctx.rows db payload.tradeId payload.pair side with
  | known _ _ _ _ h => rw [h]
  | backfilled _ _ _ _ h => rw [h]; rfl
  | missing _ _ h => rw [h]

/-- A trade id written on an order that waits for one makes a new row. -/
theorem backfill_new (h : db.WellKeyed) {tradeId : ℤ} {o : Order} (ho : o ∈ db.orders)
    (hnone : o.freqtradeTradeId = none) {f : Order → Order} (hid : (f o).id = o.id)
    (htrade : (f o).freqtradeTradeId = some tradeId) : f o ∉ db.orders := by
  intro hmem
  have hsame : f o = o := order_ext h hmem ho hid
  rw [hsame, hnone] at htrade
  cases htrade

/-- What a lookup alone leaves is audited exactly where it does not write the trade id. -/
theorem findOrder_audited_iff (h : db.WellKeyed) {side : OrderSide} :
    Audited db (findOrder ctx.rows db payload.tradeId payload.pair side).2 ↔
      ¬ Backfills db payload.tradeId payload.pair side := by
  cases findOrder_found ctx.rows db payload.tradeId payload.pair side with
  | known order hmem hfor _ hfound =>
    rw [hfound]
    exact iff_of_true (Audited.of_same (fun _ ho => ho) fun _ hp => hp)
      fun hback => hback.1 order hmem hfor
  | backfilled order hmem hnone hunmatched hfound =>
    refine iff_of_false ?_ (not_not.mpr ⟨hnone, order, hmem, hunmatched⟩)
    rw [hfound]
    exact not_audited (mem_modifyRow.mpr (Or.inr ⟨order, hmem, rfl, rfl⟩))
      (backfill_new h hmem hunmatched.2.2.2 rfl rfl) rfl
  | missing _ hmatched hfound =>
    rw [hfound]
    refine iff_of_true (Audited.of_same (fun _ ho => ho) fun _ hp => hp) ?_
    rintro ⟨_, o, ho, hwaiting⟩
    exact hmatched o ho hwaiting

theorem not_backfills {side : OrderSide}
    (hnone : (findOrder ctx.rows db payload.tradeId payload.pair side).1 = none) :
    ¬ Backfills db payload.tradeId payload.pair side := by
  rintro ⟨_, o, ho, hwaiting⟩
  cases findOrder_found ctx.rows db payload.tradeId payload.pair side with
  | known _ _ _ _ hfound => rw [hfound] at hnone; cases hnone
  | backfilled _ _ _ _ hfound => rw [hfound] at hnone; cases hnone
  | missing _ hmatched _ => exact hmatched o ho hwaiting

/-- After a lookup and a write of the order it found, no other row is new. -/
theorem new_of_found (h : db.WellKeyed) {side : OrderSide} {order : Order} {db₁ : Database}
    (hfound : findOrder ctx.rows db payload.tradeId payload.pair side = (some order, db₁))
    {f : Order → Order} {o : Order} (ho : o ∈ modifyRow Order.id order.id f db₁.orders)
    (hnew : o ∉ db.orders) : o = f order := by
  cases findOrder_found ctx.rows db payload.tradeId payload.pair side with
  | known found hmem _ _ hknown =>
    rw [hfound] at hknown
    cases hknown
    rcases mem_modifyRow.mp ho with ⟨ho, _⟩ | ⟨x, hx, hid, rfl⟩
    · exact absurd ho hnew
    · rw [order_ext h hx hmem hid]
  | backfilled found hmem _ _ hback =>
    rw [hfound] at hback
    cases hback
    rcases mem_modifyRow.mp ho with ⟨ho, hother⟩ | ⟨x, hx, hid, rfl⟩
    · rcases mem_modifyRow.mp ho with ⟨ho, _⟩ | ⟨y, _, hyid, rfl⟩
      · exact absurd ho hnew
      · exact absurd hyid hother
    · rcases mem_modifyRow.mp hx with ⟨_, hother⟩ | ⟨y, hy, hyid, rfl⟩
      · exact absurd hid hother
      · rw [order_ext h hy hmem hyid]
  | missing _ _ hmissing =>
    rw [hfound] at hmissing
    cases hmissing

/-! ## Entry fills -/

/-- A complete entry fill of a found order inserts two events of its trace. -/
theorem entryFill_events {order : Order} {db₁ : Database} {openRate amount : ℚ}
    (hfound : findOrder ctx.rows db payload.tradeId payload.pair .BUY = (some order, db₁))
    (hopenRate : payload.openRate = some openRate) (hamount : payload.amount = some amount) :
    ∃ filled opened : AuditEvent, filled.traceId = order.traceId ∧
      (handleEntryFill ctx db payload).auditEvents = db.auditEvents ++ [filled, opened] := by
  have hevents := @findOrder_auditEvents db ctx payload .BUY
  rw [hfound] at hevents
  have h := handleEntryFill.eq_def ctx db payload
  rw [hfound, hopenRate, hamount] at h
  rw [h, ← hevents]
  exact ⟨_, _, rfl, List.append_assoc _ [_] [_]⟩

/-- A fill with its rate and its amount misses neither. -/
theorem not_missing {rate amount : Option ℚ} {r a : ℚ} (hrate : rate = some r)
    (hamount : amount = some a) : ¬ (rate = none ∨ amount = none) := by
  rintro (hnone | hnone)
  · rw [hrate] at hnone
    cases hnone
  · rw [hamount] at hnone
    cases hnone

/-- **An entry fill** is audited exactly where it does not return after the trade id was
written. -/
theorem entryFill_audited_iff (h : db.WellKeyed) :
    Audited db (handleEntryFill ctx db payload) ↔
      ¬ ((payload.openRate = none ∨ payload.amount = none) ∧
        Backfills db payload.tradeId payload.pair .BUY) := by
  cases handleEntryFill_entryFill ctx db payload with
  | ignored hwhy hignored =>
    rw [hignored, findOrder_audited_iff h]
    rcases hwhy with hnone | hwhy
    · exact iff_of_true (not_backfills hnone) fun hback => not_backfills hnone hback.2
    · exact not_congr (and_iff_right hwhy).symm
  | filled order db₁ openRate amount hfound hopenRate hamount horders hpositions _ =>
    refine iff_of_true ?_ ?_
    · obtain ⟨filled, opened, htrace, hevents⟩ := entryFill_events hfound hopenRate hamount
      obtain ⟨hmem, _⟩ := findOrder_row hfound
      have hrow : order.fill amount openRate ∈ (handleEntryFill ctx db payload).orders := by
        rw [horders]
        exact mem_modifyRow.mpr (Or.inr ⟨order, hmem, rfl, rfl⟩)
      refine Audited.of_event hrow ?_ ?_ hevents htrace
      · intro o ho hnew
        rw [horders] at ho
        exact new_of_found h hfound ho hnew
      · intro p hp hnew
        rw [hpositions] at hp
        rcases List.mem_append.mp hp with hp | hp
        · exact absurd hp hnew
        · cases List.mem_singleton.mp hp
          rfl
    · exact fun hsilent => not_missing hopenRate hamount hsilent.1

/-! ## Exit fills -/

/-- An exit fill finds a position to close unless there is nothing to close. -/
theorem exitPosition_eq_none {orderId : Uuid} {pair : Symbol} :
    exitPosition ctx.rows db orderId pair = none ↔ NothingToClose db orderId pair := by
  unfold exitPosition
  cases hlinked : ctx.rows.positions.first
      (db.positions.filter fun p => p.exitOrderId = some orderId) with
  | some position =>
    have hmem := List.mem_filter.mp (Arrangement.first_mem _ hlinked)
    exact iff_of_false (fun h => by cases h)
      fun hnothing => (hnothing position hmem.1).1 (by simpa using hmem.2)
  | none =>
    have hempty := List.filter_eq_nil_iff.mp ((Arrangement.first_eq_none _).mp hlinked)
    dsimp only
    rw [Arrangement.first_eq_none, List.filter_eq_nil_iff]
    constructor
    · exact fun h p hp => ⟨by simpa using hempty p hp, by simpa using h p hp⟩
    · exact fun h p hp => by simpa using (h p hp).2

/-- A position matched by its trade is one to close. -/
theorem not_nothingToClose {tradeId : ℤ} {orderId : Uuid} {pair : Symbol}
    (hmatch : autonomousExitMatch ctx.rows db tradeId pair ≠ none) :
    ¬ NothingToClose db orderId pair := by
  obtain ⟨row, hrow⟩ := Option.ne_none_iff_exists'.mp hmatch
  have hmem := List.mem_filter.mp (Arrangement.first_mem _ hrow)
  have hopen : row.1.entryOrderId = row.2.id ∧ row.1.symbol = pair ∧ row.1.status = .OPEN ∧
      row.2.freqtradeTradeId = some tradeId ∧ row.2.side = .BUY := by
    simpa using hmem.2
  exact fun hnothing => (hnothing row.1 (List.pair_mem_product.mp hmem.1).1).2
    ⟨hopen.2.1, hopen.2.2.1⟩

/-- The order of an exit fill that closes nothing is the one the lookup found; what is left
is audited exactly where that order was filled so already. -/
theorem unlinked_audited_iff (h : db.WellKeyed) {closeRate amount : ℚ} {order : Order}
    {db₂ : Database}
    (horder : exitOrder ctx (findOrder ctx.rows db payload.tradeId payload.pair .SELL).2 payload
      closeRate amount (findOrder ctx.rows db payload.tradeId payload.pair .SELL).1 =
        some (order, db₂))
    (hposition : exitPosition ctx.rows (db₂.modifyOrder order.id fun o => o.fill amount closeRate)
      order.id payload.pair = none) :
    (findOrder ctx.rows db payload.tradeId payload.pair .SELL).1 = some order ∧
      NothingToClose db order.id payload.pair ∧
      (Audited db (db₂.modifyOrder order.id fun o => o.fill amount closeRate) ↔
        order.fill amount closeRate ∈ db.orders) := by
  have hpositions : db₂.positions = db.positions :=
    (exitOrder_positions horder).trans findOrder_positions
  have hnothing : NothingToClose db order.id payload.pair := by
    have hnone := exitPosition_eq_none.mp hposition
    unfold NothingToClose at hnone
    rw [Database.modifyOrder_positions, hpositions] at hnone
    exact hnone
  obtain ⟨_, hmem, hfound | ⟨_, hmatch, _⟩⟩ := exitOrder_row horder
  · refine ⟨by rw [hfound], hnothing, ?_, ?_⟩
    · have hevents : (db₂.modifyOrder order.id fun o => o.fill amount closeRate).auditEvents =
          db.auditEvents := by
        rw [← @findOrder_auditEvents db ctx payload .SELL, hfound]
        rfl
      intro haudited
      by_contra hnew
      refine not_audited ?_ hnew hevents haudited
      exact mem_modifyRow.mpr (Or.inr ⟨order, hmem, rfl, rfl⟩)
    · intro hsame
      refine Audited.of_same (fun o ho => ?_) fun p hp => ?_
      · by_contra hnew
        rw [new_of_found h hfound ho hnew] at hnew
        exact hnew hsame
      · rw [Database.modifyOrder_positions, hpositions] at hp
        exact hp
  · exact absurd hnothing (not_nothingToClose hmatch)

/-- A settled exit inserts two events of its order's trace. -/
theorem settleExit_events (order : Order) (position : Position) (closeRate amount : ℚ) :
    ∃ filled closed : AuditEvent, filled.traceId = order.traceId ∧
      (settleExit ctx db payload order position closeRate amount).auditEvents =
        db.auditEvents ++ [filled, closed] :=
  ⟨_, _, rfl, List.append_assoc _ [_] [_]⟩

/-- A settled exit is audited: its order and the position it closes are the rows that
change. -/
theorem settled_audited (h : db.WellKeyed) {closeRate amount : ℚ} {order : Order}
    {db₂ : Database} {position : Position}
    (horder : exitOrder ctx (findOrder ctx.rows db payload.tradeId payload.pair .SELL).2 payload
      closeRate amount (findOrder ctx.rows db payload.tradeId payload.pair .SELL).1 =
        some (order, db₂)) :
    Audited db (settleExit ctx (db₂.modifyOrder order.id fun o => o.fill amount closeRate) payload
      order position closeRate amount) := by
  have hpositions : db₂.positions = db.positions :=
    (exitOrder_positions horder).trans findOrder_positions
  obtain ⟨_, hmem, hcase⟩ := exitOrder_row horder
  have hevents₂ : db₂.auditEvents = db.auditEvents := by
    rcases hcase with hfound | ⟨_, _, _, _, rfl⟩
    · have hevents := @findOrder_auditEvents db ctx payload .SELL
      rw [hfound] at hevents
      exact hevents
    · rfl
  obtain ⟨filled, closed, htrace, hevents⟩ := settleExit_events order position closeRate amount
  obtain ⟨rMultiple, fees, hwritten⟩ := settleExit_positions ctx
    (db₂.modifyOrder order.id fun o => o.fill amount closeRate) payload order position closeRate
    amount
  have hrow : order.fill amount closeRate ∈
      (settleExit ctx (db₂.modifyOrder order.id fun o => o.fill amount closeRate) payload
        order position closeRate amount).orders :=
    mem_modifyRow.mpr (Or.inr ⟨order, hmem, rfl, rfl⟩)
  refine Audited.of_event hrow ?_ ?_ (hevents.trans (by rw [← hevents₂]; rfl)) htrace
  · intro o ho hnew
    rcases hcase with hfound | ⟨_, _, hid, _, rfl⟩
    · exact new_of_found h hfound ho hnew
    · -- the inserted order is the only row under its id
      rcases mem_modifyRow.mp ho with ⟨ho, hother⟩ | ⟨x, hx, hxid, rfl⟩
      · rcases List.mem_append.mp ho with ho | ho
        · exact absurd ho hnew
        · exact absurd (congrArg Order.id (List.mem_singleton.mp ho)) hother
      · rcases List.mem_append.mp hx with hx | hx
        · have hlt := h.orders_lt x hx
          rw [hxid, hid] at hlt
          exact absurd hlt (Nat.lt_irrefl _)
        · rw [List.mem_singleton.mp hx]
  · intro p hp hnew
    rw [hwritten] at hp
    rcases mem_modifyRow.mp hp with ⟨hp, _⟩ | ⟨q, _, _, rfl⟩
    · rw [Database.modifyOrder_positions, hpositions] at hp
      exact absurd hp hnew
    · rfl

/-- The order a settled exit fill has found closes a position. -/
theorem settled_closes {closeRate amount : ℚ} {order found : Order} {db₂ : Database}
    {position : Position}
    (horder : exitOrder ctx (findOrder ctx.rows db payload.tradeId payload.pair .SELL).2 payload
      closeRate amount (findOrder ctx.rows db payload.tradeId payload.pair .SELL).1 =
        some (order, db₂))
    (hposition : exitPosition ctx.rows (db₂.modifyOrder order.id fun o => o.fill amount closeRate)
      order.id payload.pair = some position)
    (hfound : (findOrder ctx.rows db payload.tradeId payload.pair .SELL).1 = some found) :
    ¬ NothingToClose db found.id payload.pair := by
  intro hnothing
  have hsame : found = order := by
    rcases (exitOrder_row horder).2.2 with hlookup | ⟨hmissing, _⟩
    · rw [hlookup] at hfound
      exact (Option.some.inj hfound).symm
    · rw [hmissing] at hfound
      cases hfound
  have hnone : exitPosition ctx.rows
      (db₂.modifyOrder order.id fun o => o.fill amount closeRate) order.id payload.pair =
        none := by
    rw [exitPosition_eq_none]
    unfold NothingToClose
    rw [Database.modifyOrder_positions, exitOrder_positions horder, findOrder_positions]
    exact hsame ▸ hnothing
  rw [hnone] at hposition
  cases hposition

/-- **An exit fill** is audited exactly where it does not return after the trade id was
written, or after an order was filled that closes nothing. -/
theorem exitFill_audited_iff (h : db.WellKeyed) :
    Audited db (handleExitFill ctx db payload) ↔
      ¬ (((payload.closeRate = none ∨ payload.amount = none) ∧
          Backfills db payload.tradeId payload.pair .SELL) ∨
        ∃ closeRate amount order, payload.closeRate = some closeRate ∧
          payload.amount = some amount ∧
          (findOrder ctx.rows db payload.tradeId payload.pair .SELL).1 = some order ∧
          order.fill amount closeRate ∉ db.orders ∧ NothingToClose db order.id payload.pair) := by
  cases handleExitFill_exitFill ctx db payload with
  | ignored hwhy hignored =>
    rw [hignored, findOrder_audited_iff h]
    refine not_congr ⟨fun hback => Or.inl ⟨hwhy, hback⟩, ?_⟩
    rintro (⟨_, hback⟩ | ⟨closeRate, amount, _, hcloseRate, hamount, _⟩)
    · exact hback
    · exact absurd hwhy (not_missing hcloseRate hamount)
  | untracked hfound _ huntracked =>
    rw [huntracked]
    refine iff_of_true (Audited.of_same (fun _ ho => ho) fun _ hp => hp) ?_
    rintro (⟨_, hback⟩ | ⟨_, _, _, _, _, hsome, _⟩)
    · exact not_backfills hfound hback
    · rw [hfound] at hsome
      cases hsome
  | unlinked closeRate amount order db₂ hcloseRate hamount horder hposition hunlinked =>
    obtain ⟨hfound, hnothing, haudited⟩ := unlinked_audited_iff h horder hposition
    rw [hunlinked, haudited]
    constructor
    · rintro hsame (⟨hwhy, _⟩ |
        ⟨closeRate', amount', order', hcloseRate', hamount', horder', hnew, _⟩)
      · exact not_missing hcloseRate hamount hwhy
      · cases hcloseRate.symm.trans hcloseRate'
        cases hamount.symm.trans hamount'
        cases hfound.symm.trans horder'
        exact hnew hsame
    · intro hloud
      by_contra hnew
      exact hloud (Or.inr ⟨closeRate, amount, order, hcloseRate, hamount, hfound, hnew, hnothing⟩)
  | settled closeRate amount order db₂ position hcloseRate hamount horder hposition hsettled =>
    rw [hsettled]
    refine iff_of_true (settled_audited h horder) ?_
    rintro (⟨hwhy, _⟩ | ⟨_, _, order', _, _, hfound, _, hnothing⟩)
    · exact not_missing hcloseRate hamount hwhy
    · exact settled_closes horder hposition hfound hnothing

/-! ## Requests -/

/-- **A cancellation** is always audited. -/
theorem markCancelled_audited (h : db.WellKeyed) (side : OrderSide) :
    Audited db (markCancelled ctx db payload side) := by
  have hevents := @findOrder_auditEvents db ctx payload side
  unfold markCancelled
  rcases hfound : findOrder ctx.rows db payload.tradeId payload.pair side with ⟨_ | order, db₁⟩
  · have hsame : db₁ = db := by
      cases findOrder_found ctx.rows db payload.tradeId payload.pair side with
      | known _ _ _ _ hknown => rw [hfound] at hknown; cases hknown
      | backfilled _ _ _ _ hback => rw [hfound] at hback; cases hback
      | missing _ _ hmissing => rw [hfound] at hmissing; cases hmissing; rfl
    rw [hsame]
    exact Audited.of_same (fun _ ho => ho) fun _ hp => hp
  · have hpositions := @findOrder_positions ctx.rows db payload.tradeId payload.pair side
    rw [hfound] at hevents hpositions
    obtain ⟨hmem, _⟩ := findOrder_row hfound
    have hrow : { order with status := .CANCELLED } ∈ (db₁.modifyOrder order.id fun o =>
        { o with status := .CANCELLED }).orders :=
      mem_modifyRow.mpr (Or.inr ⟨order, hmem, rfl, rfl⟩)
    refine Audited.of_event hrow (fun o ho hnew => new_of_found h hfound ho hnew) ?_
      (congrArg (· ++ [_]) hevents) rfl
    intro p hp hnew
    exact absurd (hpositions ▸ hp) hnew

/-- **The audit trail of the receiver.**  What an accepted request changes in the book is on
record if and only if the request is not one of those that change it silently. -/
theorem webhook_audited_iff (ctx : WebhookContext) (db db' : Database)
    (payload : FreqtradeWebhookPayload) (h : db.WellKeyed)
    (hreply : freqtradeWebhook ctx db payload = some db') :
    Audited db db' ↔ ¬ ChangesSilently ctx db payload := by
  by_cases hauth : Authenticated ctx payload
  · rw [freqtradeWebhook_of_authenticated hauth] at hreply
    cases hreply
    unfold ChangesSilently
    cases payload.event with
    | entry_fill => exact entryFill_audited_iff h
    | exit_fill => exact exitFill_audited_iff h
    | entry_cancel => exact iff_of_true (markCancelled_audited h _) not_false
    | exit_cancel => exact iff_of_true (markCancelled_audited h _) not_false
    | other _ =>
      exact iff_of_true (Audited.of_same (fun _ ho => ho) fun _ hp => hp) not_false
  · rw [freqtradeWebhook_of_not_authenticated hauth] at hreply
    cases hreply

/-- The fill of a submitted entry is on record. -/
theorem submitted_entry_audited :
    ∃ db', freqtradeWebhook (receivedAt 1) awaitingFill.db (btcEntryFill 7) = some db' ∧
      Audited awaitingFill.db db' := by
  have hreply : freqtradeWebhook (receivedAt 1) awaitingFill.db (btcEntryFill 7) =
      some (handleEntryFill (receivedAt 1) awaitingFill.db (btcEntryFill 7)) :=
    freqtradeWebhook_of_authenticated (by decide)
  have hkeyed : awaitingFill.db.WellKeyed :=
    ⟨by decide +kernel, by decide +kernel, by decide +kernel, by decide +kernel⟩
  refine ⟨_, hreply, (webhook_audited_iff _ _ _ _ hkeyed hreply).mpr ?_⟩
  rintro ⟨hnone | hnone, _⟩
  · exact absurd hnone (by decide +kernel)
  · exact absurd hnone (by decide +kernel)

/-- The book after an entry for which the answer of Freqtrade named no trade. -/
def unnamedEntry : Database :=
  (processSignal { db := { signals := [btcBuy] } }
    { cleanDelivery 1 0 with
      forceenterReply := .body { enterTag := some (.slpct (2 / 100)) } }).world.db

/-- An `entry_fill` without an amount writes the trade id on its order and nothing else. -/
theorem incomplete_fill_changes_silently :
    ¬ ∀ (ctx : WebhookContext) (db db' : Database) (payload : FreqtradeWebhookPayload),
      db.WellKeyed → freqtradeWebhook ctx db payload = some db' → Audited db db' := by
  intro h
  have hkeyed : unnamedEntry.WellKeyed :=
    ⟨by decide +kernel, by decide +kernel, by decide +kernel, by decide +kernel⟩
  have haudited := h (receivedAt 1) unnamedEntry _ { btcEntryFill 7 with amount := none } hkeyed
    (freqtradeWebhook_of_authenticated (by decide))
  have hnew : ∃ o ∈ (handleEntryFill (receivedAt 1) unnamedEntry
      { btcEntryFill 7 with amount := none }).orders, o ∉ unnamedEntry.orders := by
    decide +kernel
  obtain ⟨o, ho, hnew⟩ := hnew
  obtain ⟨e, he, _⟩ := haudited.orders o ho hnew
  have hnone : newEvents unnamedEntry (handleEntryFill (receivedAt 1) unnamedEntry
      { btcEntryFill 7 with amount := none }) = [] := by
    decide +kernel
  exact List.not_mem_nil (hnone ▸ he)

end TradeMind.Analysis
