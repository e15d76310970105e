import TradeMind.Analysis.Ledger
import TradeMind.Analysis.ReconcileEffects
import TradeMind.Analysis.WebhookEffects

/-!
# Order and position statuses

The handlers write an order's status without looking at the one it has.  Fills only ever
write FILLED, so the statuses of a book stay consistent under them in any order; a
cancellation that arrives late finds the newest order of its trade, filled or not, and
marks it CANCELLED.  `SparesFilled` says that it does not find a FILLED one, and a run of
signals, webhook requests and reconciliation passes keeps its statuses consistent exactly
when all its requests meet it.
-/

set_option autoImplicit false

namespace TradeMind.Analysis

open TradeMind.Library TradeMind.Model

/-- The entry order of every position is FILLED, and every CLOSED position is linked to a
FILLED SELL order on its pair. -/
structure Consistent (db : Database) : Prop where
  entries : ∀ p ∈ db.positions, ∃ o ∈ db.orders, o.id = p.entryOrderId ∧ o.status = .FILLED
  exits : ∀ p ∈ db.positions, p.status = .CLOSED → ∃ o ∈ db.orders,
    p.exitOrderId = some o.id ∧ o.side = .SELL ∧ o.status = .FILLED ∧ o.symbol = p.symbol

/-- No order that is FILLED before the step is CANCELLED after it. -/
def FilledStays (w : World) (s : Step) : Prop :=
  ∀ o ∈ w.db.orders, o.status = .FILLED →
    ∀ o' ∈ (step w s).db.orders, o'.id = o.id → o'.status ≠ .CANCELLED

/-- The newest order that carries the trade of the request, on its pair and the given side,
is not FILLED. -/
def NewestNotFilled (ctx : WebhookContext) (db : Database) (payload : FreqtradeWebhookPayload)
    (side : OrderSide) : Prop :=
  ∀ order, ctx.rows.orders.firstDesc Order.createdAt (db.orders.filter fun o =>
    o.freqtradeTradeId = some payload.tradeId ∧ o.symbol = payload.pair ∧ o.side = side) =
      some order → order.status ≠ .FILLED

/-- An authenticated cancellation does not come for a FILLED order. -/
def SparesFilled (w : World) : Step → Prop
  | .webhook ctx payload =>
    Authenticated ctx payload →
      (payload.event = .entry_cancel → NewestNotFilled ctx w.db payload .BUY) ∧
        (payload.event = .exit_cancel → NewestNotFilled ctx w.db payload .SELL)
  | .signal _ => True
  | .reconcile _ => True

/-- How a book stands that was `base` before: keys are unique, every link goes to a SELL
order on the position's pair, no row of `base` is lost; and, in the `strict` reading, the
statuses are consistent and what was FILLED is FILLED. -/
structure StatusBook (strict : Prop) (base db : Database) : Prop where
  keyed : db.WellKeyed
  links : ∀ p ∈ db.positions, ∀ e, p.exitOrderId = some e →
    ∃ o ∈ db.orders, o.id = e ∧ o.side = .SELL ∧ o.symbol = p.symbol
  consistent : strict → Consistent db
  orders : ∀ o ∈ base.orders, ∃ o' ∈ db.orders, o'.id = o.id ∧
    (strict → o.status = .FILLED → o'.status = .FILLED)
  positions : ∀ p ∈ base.positions, ∃ p' ∈ db.positions, p'.id = p.id ∧ p'.symbol = p.symbol

namespace StatusBook

variable {strict : Prop} {base db db' : Database}

/-- The links of a book are in order, whatever its statuses. -/
theorem loose (h : StatusBook strict base db) : StatusBook False base db :=
  ⟨h.keyed, h.links, False.elim, fun o ho => by
    obtain ⟨o', ho', hid, _⟩ := h.orders o ho
    exact ⟨o', ho', hid, False.elim⟩, h.positions⟩

theorem rebase (h : StatusBook strict base db) : StatusBook strict db db :=
  ⟨h.keyed, h.links, h.consistent, fun o ho => ⟨o, ho, rfl, fun _ hfilled => hfilled⟩,
    fun p hp => ⟨p, hp, rfl, rfl⟩⟩

/-- A book whose statuses are consistent stands so in the strict reading. -/
theorem tight (h : StatusBook False base db) (hconsistent : Consistent db) :
    StatusBook True db db :=
  ⟨h.keyed, h.links, fun _ => hconsistent, fun o ho => ⟨o, ho, rfl, fun _ hfilled => hfilled⟩,
    fun p hp => ⟨p, hp, rfl, rfl⟩⟩

theorem of_empty (horders : db.orders = []) (hpositions : db.positions = []) :
    StatusBook True db db where
  keyed :=
    { orders := by rw [horders]; exact List.nodup_nil
      positions := by rw [hpositions]; exact List.nodup_nil
      orders_lt := by rw [horders]; exact fun _ ho => absurd ho List.not_mem_nil
      positions_lt := by rw [hpositions]; exact fun _ hp => absurd hp List.not_mem_nil }
  links := by rw [hpositions]; exact fun _ hp => absurd hp List.not_mem_nil
  consistent := fun _ =>
    { entries := by rw [hpositions]; exact fun _ hp => absurd hp List.not_mem_nil
      exits := by rw [hpositions]; exact fun _ hp => absurd hp List.not_mem_nil }
  orders := by rw [horders]; exact fun _ ho => absurd ho List.not_mem_nil
  positions := by rw [hpositions]; exact fun _ hp => absurd hp List.not_mem_nil

/-! ## The ways the book is written -/

/-- Orders are written or inserted: each stays on its side and pair, and what is FILLED
stays so in the strict reading. -/
theorem ofOrders (h : StatusBook strict base db) (hkeyed : db'.WellKeyed)
    (hkept : ∀ o ∈ db.orders, ∃ o' ∈ db'.orders, o'.id = o.id ∧ o'.side = o.side ∧
      o'.symbol = o.symbol ∧ (strict → o.status = .FILLED → o'.status = .FILLED))
    (hpositions : db'.positions = db.positions) : StatusBook strict base db' where
  keyed := hkeyed
  links := by
    intro p hp e he
    rw [hpositions] at hp
    obtain ⟨o, ho, hid, hside, hsymbol⟩ := h.links p hp e he
    obtain ⟨o', ho', hid', hside', hsymbol', _⟩ := hkept o ho
    exact ⟨o', ho', hid'.trans hid, hside'.trans hside, hsymbol'.trans hsymbol⟩
  consistent := by
    intro hstrict
    have hconsistent := h.consistent hstrict
    constructor
    · intro p hp
      rw [hpositions] at hp
      obtain ⟨o, ho, hid, hfilled⟩ := hconsistent.entries p hp
      obtain ⟨o', ho', hid', _, _, hfilled'⟩ := hkept o ho
      exact ⟨o', ho', hid'.trans hid, hfilled' hstrict hfilled⟩
    · intro p hp hclosed
      rw [hpositions] at hp
      obtain ⟨o, ho, hlink, hside, hfilled, hsymbol⟩ := hconsistent.exits p hp hclosed
      obtain ⟨o', ho', hid', hside', hsymbol', hfilled'⟩ := hkept o ho
      exact ⟨o', ho', by rw [hlink, hid'], hside'.trans hside, hfilled' hstrict hfilled,
        hsymbol'.trans hsymbol⟩
  orders := by
    intro o ho
    obtain ⟨o', ho', hid', hfilled'⟩ := h.orders o ho
    obtain ⟨o'', ho'', hid'', _, _, hfilled''⟩ := hkept o' ho'
    exact ⟨o'', ho'', hid''.trans hid', fun hstrict hfilled =>
      hfilled'' hstrict (hfilled' hstrict hfilled)⟩
  positions := hpositions ▸ h.positions

theorem of_sameBook (h : StatusBook strict base db) (hbook : SameBook db db') :
    StatusBook strict base db' := by
  refine h.ofOrders ?_ ?_ hbook.positions
  · exact wellKeyed_of_keys h.keyed (by rw [hbook.orders]) (by rw [hbook.positions]) hbook.nextId
  · exact fun o ho => ⟨o, hbook.orders ▸ ho, rfl, rfl, rfl, fun _ hfilled => hfilled⟩

theorem insertOrder (h : StatusBook strict base db) {o : Order}
    (horders : db'.orders = db.orders ++ [o]) (hpositions : db'.positions = db.positions)
    (hle : db.nextId ≤ o.id) (hlt : o.id < db'.nextId) : StatusBook strict base db' :=
  h.ofOrders (wellKeyed_insertOrder h.keyed horders hpositions hle hlt)
    (fun x hx => ⟨x, horders ▸ List.mem_append_left _ hx, rfl, rfl, rfl, fun _ hf => hf⟩)
    hpositions

/-- An order is written; what it does to a FILLED one matters in the strict reading only. -/
theorem modifyOrder (h : StatusBook strict base db) {id : Uuid} {f : Order → Order}
    (horders : db'.orders = modifyRow Order.id id f db.orders)
    (hpositions : db'.positions = db.positions) (hnextId : db.nextId ≤ db'.nextId)
    (hf : ∀ o, (f o).id = o.id ∧ (f o).side = o.side ∧ (f o).symbol = o.symbol)
    (hfilled : strict → ∀ o ∈ db.orders, o.id = id → o.status = .FILLED →
      (f o).status = .FILLED) : StatusBook strict base db' := by
  refine h.ofOrders ?_ ?_ hpositions
  · refine wellKeyed_of_keys h.keyed ?_ (by rw [hpositions]) hnextId
    rw [horders]
    exact map_modifyRow Order.id fun o _ _ => (hf o).1
  · intro o ho
    rw [horders]
    by_cases hrow : o.id = id
    · exact ⟨f o, mem_modifyRow.mpr (Or.inr ⟨o, ho, hrow, rfl⟩), (hf o).1, (hf o).2.1, (hf o).2.2,
        fun hstrict => hfilled hstrict o ho hrow⟩
    · exact ⟨o, mem_modifyRow.mpr (Or.inl ⟨ho, hrow⟩), rfl, rfl, rfl, fun _ hf => hf⟩

theorem fillOrder (h : StatusBook strict base db) {id : Uuid} {amount price : ℚ}
    (horders : db'.orders = modifyRow Order.id id (fun o => o.fill amount price) db.orders)
    (hpositions : db'.positions = db.positions) (hnextId : db.nextId ≤ db'.nextId) :
    StatusBook strict base db' :=
  h.modifyOrder horders hpositions hnextId (fun _ => ⟨rfl, rfl, rfl⟩) fun _ _ _ _ _ => rfl

/-- A new OPEN position on a FILLED order. -/
theorem insertPosition (h : StatusBook strict base db) {p : Position}
    (horders : db'.orders = db.orders) (hpositions : db'.positions = db.positions ++ [p])
    (hle : db.nextId ≤ p.id) (hlt : p.id < db'.nextId) (hopen : p.status = .OPEN)
    (hexit : p.exitOrderId = none)
    (hentry : ∃ o ∈ db.orders, o.id = p.entryOrderId ∧ o.status = .FILLED) :
    StatusBook strict base db' where
  keyed := wellKeyed_insertPosition h.keyed horders hpositions hle hlt
  links := by
    intro q hq e he
    rw [hpositions] at hq
    rw [horders]
    rcases List.mem_append.mp hq with hq | hq
    · exact h.links q hq e he
    · rw [List.mem_singleton.mp hq, hexit] at he
      cases he
  consistent := by
    intro hstrict
    have hconsistent := h.consistent hstrict
    constructor
    · intro q hq
      rw [hpositions] at hq
      rw [horders]
      rcases List.mem_append.mp hq with hq | hq
      · exact hconsistent.entries q hq
      · cases List.mem_singleton.mp hq
        exact hentry
    · intro q hq hclosed
      rw [hpositions] at hq
      rw [horders]
      rcases List.mem_append.mp hq with hq | hq
      · exact hconsistent.exits q hq hclosed
      · rw [List.mem_singleton.mp hq, hopen] at hclosed
        cases hclosed
  orders := horders ▸ h.orders
  positions := by
    intro q hq
    obtain ⟨q', hq', hrest⟩ := h.positions q hq
    exact ⟨q', hpositions ▸ List.mem_append_left _ hq', hrest⟩

/-- A position is written: afterwards it is linked to a SELL order on its pair, and to a
FILLED one if it is CLOSED. -/
theorem writePosition (h : StatusBook strict base db) {id : Uuid} {g : Position → Position}
    (horders : db'.orders = db.orders)
    (hpositions : db'.positions = modifyRow Position.id id g db.positions)
    (hnextId : db.nextId ≤ db'.nextId)
    (hg : ∀ p, (g p).id = p.id ∧ (g p).symbol = p.symbol ∧ (g p).entryOrderId = p.entryOrderId)
    (hlink : ∀ p ∈ db.positions, p.id = id → ∃ o ∈ db.orders, (g p).exitOrderId = some o.id ∧
      o.side = .SELL ∧ o.symbol = p.symbol ∧ ((g p).status = .CLOSED → o.status = .FILLED)) :
    StatusBook strict base db' where
  keyed := by
    refine wellKeyed_of_keys h.keyed (by rw [horders]) ?_ hnextId
    rw [hpositions]
    exact map_modifyRow Position.id fun p _ _ => (hg p).1
  links := by
    intro p hp e he
    rw [hpositions] at hp
    rw [horders]
    rcases mem_modifyRow.mp hp with ⟨hp, _⟩ | ⟨q, hq, hrow, rfl⟩
    · exact h.links p hp e he
    · obtain ⟨o, ho, hlinked, hside, hsymbol, _⟩ := hlink q hq hrow
      rw [hlinked] at he
      cases he
      exact ⟨o, ho, rfl, hside, hsymbol.trans (hg q).2.1.symm⟩
  consistent := by
    intro hstrict
    have hconsistent := h.consistent hstrict
    constructor
    · intro p hp
      rw [hpositions] at hp
      rw [horders]
      rcases mem_modifyRow.mp hp with ⟨hp, _⟩ | ⟨q, hq, _, rfl⟩
      · exact hconsistent.entries p hp
      · rw [(hg q).2.2]
        exact hconsistent.entries q hq
    · intro p hp hclosed
      rw [hpositions] at hp
      rw [horders]
      rcases mem_modifyRow.mp hp with ⟨hp, _⟩ | ⟨q, hq, hrow, rfl⟩
      · exact hconsistent.exits p hp hclosed
      · obtain ⟨o, ho, hlinked, hside, hsymbol, hfilled⟩ := hlink q hq hrow
        exact ⟨o, ho, hlinked, hside, hfilled hclosed, hsymbol.trans (hg q).2.1.symm⟩
  orders := horders ▸ h.orders
  positions := by
    intro p hp
    obtain ⟨q, hq, hid, hsymbol⟩ := h.positions p hp
    rw [hpositions]
    by_cases hrow : q.id = id
    · exact ⟨g q, mem_modifyRow.mpr (Or.inr ⟨q, hq, hrow, rfl⟩), (hg q).1.trans hid,
        (hg q).2.1.trans hsymbol⟩
    · exact ⟨q, mem_modifyRow.mpr (Or.inl ⟨hq, hrow⟩), hid, hsymbol⟩

end StatusBook

variable {strict : Prop} {base : Database}

/-! ## Signals -/

/-- **A delivered signal** writes no status: it adds an order, and may link the OPEN position
it exits to it. -/
theorem signal_statuses {w : World} (d : Delivery) (h : StatusBook strict base w.db) :
    StatusBook strict base (processSignal w d).world.db := by
  cases processSignal_effect w d with
  | quiet _ hbook _ _ => exact h.of_sameBook hbook
  | entry _ _ _ _ _ hbook =>
    rcases hbook with hdb | ⟨_, order, _, _, hentered⟩
    · rw [hdb]
      exact h
    · exact h.insertOrder hentered.orders hentered.positions hentered.le_id hentered.id_lt
  | exit _ _ _ _ _ hbook =>
    rcases hbook with hdb | ⟨_, _, _, hquiet | ⟨order, position, hexited⟩⟩
    · rw [hdb]
      exact h
    · exact h.of_sameBook hquiet
    · rcases hexited.positions with ⟨_, hpositions⟩ | ⟨_, hpositions⟩
      · -- the book with the order inserted, before the position is linked to it
        have hinserted : StatusBook strict base { w.db with
            orders := w.db.orders ++ [order]
            nextId := (processSignal w d).world.db.nextId } :=
          h.insertOrder rfl rfl hexited.le_id hexited.id_lt
        refine hinserted.writePosition hexited.orders hpositions (Nat.le_refl _)
          (fun _ => ⟨rfl, rfl, rfl⟩) ?_
        intro p hp hid
        have hrow : p = position := position_ext h.keyed hp hexited.mem hid
        subst hrow
        refine ⟨order, List.mem_append_right _ (List.mem_singleton_self _), rfl, hexited.side,
          hexited.symbol.trans hexited.onPair.symm, ?_⟩
        intro hclosed
        rw [hexited.isOpen] at hclosed
        cases hclosed
      · exact h.insertOrder hexited.orders hpositions hexited.le_id hexited.id_lt

/-! ## Webhook requests -/

section Webhook

variable {ctx : WebhookContext} {db : Database} {payload : FreqtradeWebhookPayload}

theorem findOrder_statuses {side : OrderSide} (h : StatusBook strict base db) :
    StatusBook strict base (findOrder ctx.rows db payload.tradeId payload.pair side).2 := by
  cases findOrder_found ctx.rows db payload.tradeId payload.pair side with
  | known _ _ _ _ hfound => rw [hfound]; exact h
  | backfilled order _ _ _ hfound =>
    rw [hfound]
    exact h.modifyOrder rfl rfl (Nat.le_refl _) (fun _ => ⟨rfl, rfl, rfl⟩)
      fun _ _ _ _ hfilled => hfilled
  | missing _ _ hfound => rw [hfound]; exact h

/-- The order a lookup finds is FILLED only if it is the newest of the trade. -/
theorem newestNotFilled_iff {side : OrderSide} : NewestNotFilled ctx db payload side ↔
    ∀ order, (findOrder ctx.rows db payload.tradeId payload.pair side).1 = some order →
      order.status ≠ .FILLED := by
  unfold NewestNotFilled findOrder
  cases hknown : ctx.rows.orders.firstDesc Order.createdAt (db.orders.filter fun o =>
      o.freqtradeTradeId = some payload.tradeId ∧ o.symbol = payload.pair ∧ o.side = side) with
  | some order => exact Iff.rfl
  | none =>
    refine iff_of_true (fun _ h => by cases h) ?_
    cases hunmatched : ctx.rows.orders.firstDesc Order.createdAt (db.orders.filter fun o =>
        o.symbol = payload.pair ∧ o.side = side ∧ o.status = .SUBMITTED ∧
          o.freqtradeTradeId = none) with
    | none => exact fun _ h => by cases h
    | some order =>
      -- what the fallback finds is SUBMITTED
      have hmem := List.mem_filter.mp (Arrangement.firstDesc_mem _ hunmatched)
      have hwaiting : order.symbol = payload.pair ∧ order.side = side ∧
          order.status = .SUBMITTED ∧ order.freqtradeTradeId = none := by simpa using hmem.2
      intro found hfound hfilled
      cases hfound
      rw [hwaiting.2.2.1] at hfilled
      cases hfilled

/-- **An entry fill** fills its order before it opens a position on it. -/
theorem entryFill_statuses (h : StatusBook strict base db) :
    StatusBook strict base (handleEntryFill ctx db payload) := by
  have hfound := @findOrder_statuses strict base ctx db payload .BUY h
  cases handleEntryFill_entryFill ctx db payload with
  | ignored _ hignored => rw [hignored]; exact hfound
  | filled order db₁ openRate amount hlookup _ _ horders hpositions hnextId =>
    obtain ⟨hmem, _⟩ := findOrder_row hlookup
    have hsame := @findOrder_positions ctx.rows db payload.tradeId payload.pair .BUY
    have hnext := @findOrder_nextId ctx.rows db payload.tradeId payload.pair .BUY
    rw [hlookup] at hfound hsame hnext
    have hfilled : StatusBook strict base
        (db₁.modifyOrder order.id fun o => o.fill amount openRate) :=
      hfound.fillOrder rfl rfl (Nat.le_refl _)
    rw [← hsame] at hpositions
    refine hfilled.insertPosition horders hpositions (Nat.le_refl _) ?_ rfl rfl
      ⟨order.fill amount openRate, mem_modifyRow.mpr (Or.inr ⟨order, hmem, rfl, rfl⟩), rfl, rfl⟩
    show db₁.nextId < _
    rw [hnextId, hnext]
    exact Nat.lt_add_of_pos_right (by decide)

/-- **An exit fill** fills its SELL order before it closes a position with it. -/
theorem exitFill_statuses (h : StatusBook strict base db) :
    StatusBook strict base (handleExitFill ctx db payload) := by
  have hfound := @findOrder_statuses strict base ctx db payload .SELL h
  have hsold : ∀ {closeRate amount : ℚ} {order : Order} {db₂ : Database},
      exitOrder ctx (findOrder ctx.rows db payload.tradeId payload.pair .SELL).2 payload closeRate
        amount (findOrder ctx.rows db payload.tradeId payload.pair .SELL).1 = some (order, db₂) →
      IsOrderFor order payload.tradeId payload.pair .SELL ∧ order ∈ db₂.orders ∧
        StatusBook strict base (db₂.modifyOrder order.id fun o => o.fill amount closeRate) := by
    intro closeRate amount order db₂ hmade
    obtain ⟨hfor, hmem, hlookup | ⟨_, _, hid, _, rfl⟩⟩ := exitOrder_row hmade
    · rw [hlookup] at hfound
      exact ⟨hfor, hmem, hfound.fillOrder rfl rfl (Nat.le_refl _)⟩
    · have hinserted : StatusBook strict base (db.insertOrder order) :=
        h.insertOrder rfl rfl (Nat.le_of_eq hid.symm) (by rw [hid]; exact Nat.lt_succ_self _)
      exact ⟨hfor, hmem, hinserted.fillOrder rfl rfl (Nat.le_refl _)⟩
  cases handleExitFill_exitFill ctx db payload with
  | ignored _ hignored => rw [hignored]; exact hfound
  | untracked _ _ huntracked => rw [huntracked]; exact h
  | unlinked closeRate amount order db₂ _ _ horder _ hunlinked =>
    rw [hunlinked]
    exact (hsold horder).2.2
  | settled closeRate amount order db₂ position _ _ horder hposition hsettled =>
    obtain ⟨hfor, hmem, hbook⟩ := hsold horder
    rw [hsettled]
    obtain ⟨rMultiple, fees, hpositions⟩ := settleExit_positions ctx
      (db₂.modifyOrder order.id fun o => o.fill amount closeRate) payload order position closeRate
      amount
    have hrow : order.fill amount closeRate ∈
        (db₂.modifyOrder order.id fun o => o.fill amount closeRate).orders :=
      mem_modifyRow.mpr (Or.inr ⟨order, hmem, rfl, rfl⟩)
    refine hbook.writePosition rfl hpositions (Nat.le_succ_of_le (Nat.le_succ _))
      (fun _ => ⟨rfl, rfl, rfl⟩) ?_
    intro p hp hid
    refine ⟨_, hrow, rfl, hfor.2.2, ?_, fun _ => rfl⟩
    -- the position is linked to the order, or was OPEN on the pair of the fill
    unfold exitPosition at hposition
    split at hposition
    · rename_i hlinked
      cases hposition
      have hfirst := List.mem_filter.mp (Arrangement.first_mem _ hlinked)
      have hsame : p = position := position_ext hbook.keyed hp hfirst.1 hid
      obtain ⟨o, ho, hoid, _, hsymbol⟩ := hbook.links p hp order.id (by
        rw [hsame]
        simpa using hfirst.2)
      have hrow' : order.fill amount closeRate = o :=
        order_ext hbook.keyed hrow ho (by rw [hoid]; rfl)
      rw [hrow', hsymbol]
    · have hfirst := List.mem_filter.mp (Arrangement.first_mem _ hposition)
      have hopen : position.symbol = payload.pair ∧ position.status = .OPEN := by
        simpa using hfirst.2
      have hsame : p = position := position_ext hbook.keyed hp hfirst.1 hid
      rw [hsame, hopen.1]
      exact hfor.2.1

/-- **A cancellation** leaves the links alone, and the statuses where it does not come for a
FILLED order. -/
theorem markCancelled_statuses {side : OrderSide} (h : StatusBook strict base db)
    (hspares : strict → NewestNotFilled ctx db payload side) :
    StatusBook strict base (markCancelled ctx db payload side) := by
  have hbook := @findOrder_statuses strict base ctx db payload side h
  have hspared : strict → ∀ order,
      (findOrder ctx.rows db payload.tradeId payload.pair side).1 = some order →
        order.status ≠ .FILLED := fun hstrict => newestNotFilled_iff.mp (hspares hstrict)
  unfold markCancelled
  rcases hfound : findOrder ctx.rows db payload.tradeId payload.pair side with ⟨_ | order, db₁⟩
  · rw [hfound] at hbook
    exact hbook
  · rw [hfound] at hbook hspared
    obtain ⟨hmem, _⟩ := findOrder_row hfound
    refine hbook.modifyOrder rfl rfl (Nat.le_succ _) (fun _ => ⟨rfl, rfl, rfl⟩) ?_
    intro hstrict o ho hid hfilled
    rw [order_ext hbook.keyed ho hmem hid] at hfilled
    exact absurd hfilled (hspared hstrict order rfl)

end Webhook

/-! ## Passes -/

section Pass

variable {ctx : ReconcileContext} {db db' : Database}

/-- A round over a stale order that is in the book writes FILLED only. -/
theorem reconcileOrder_statuses {order : Order} (h : StatusBook strict base db)
    (hmem : ∃ o ∈ base.orders, o.id = order.id) (hround : OrderReconciled ctx db order db') :
    StatusBook strict base db' := by
  obtain ⟨row₀, hrow₀, hid₀⟩ := hmem
  obtain ⟨row, hrow, hid, _⟩ := h.orders row₀ hrow₀
  cases hround with
  | alerted hbook => exact h.of_sameBook hbook
  | entered openRate amount _ horders hpositions _ hnextId =>
    rcases hpositions with hsame | ⟨position, _, hopened, happend⟩
    · exact h.fillOrder horders hsame (Nat.le_of_lt hnextId)
    · have hfilled : StatusBook strict base
          (db.modifyOrder order.id fun o => o.fill amount openRate) :=
        h.fillOrder rfl rfl (Nat.le_refl _)
      refine hfilled.insertPosition horders happend (Nat.le_of_eq hopened.id.symm) ?_
        hopened.status hopened.exitOrderId ⟨row.fill amount openRate, ?_, ?_, rfl⟩
      · rw [hopened.id]
        exact hnextId
      · exact mem_modifyRow.mpr (Or.inr ⟨row, hrow, hid.trans hid₀, rfl⟩)
      · rw [hopened.entryOrderId]
        exact hid.trans hid₀
  | exited position trade closeRate amount _ _ _ _ hposition hlinked horders hpositions _ hnextId =>
    have hfilled : StatusBook strict base
        (db.modifyOrder order.id fun o => o.fill amount closeRate) :=
      h.fillOrder rfl rfl (Nat.le_refl _)
    refine hfilled.writePosition horders hpositions hnextId (fun _ => ⟨rfl, rfl, rfl⟩) ?_
    intro p hp hpid
    have hsame : p = position := position_ext h.keyed hp hposition hpid
    subst hsame
    obtain ⟨o, ho, hoid, hside, hsymbol⟩ := h.links p hp order.id hlinked
    refine ⟨o.fill amount closeRate, mem_modifyRow.mpr (Or.inr ⟨o, ho, hoid, rfl⟩), ?_, hside,
      hsymbol, fun _ => rfl⟩
    exact hlinked.trans (congrArg some hoid.symm)

/-- A round over an OPEN position that is in the book closes it with a FILLED SELL order. -/
theorem reconcilePosition_statuses {position : Position} {entry : Order} {start : Database}
    (h : StatusBook strict base db)
    (hstart : ∀ p ∈ start.positions, ∃ p' ∈ db.positions, p'.id = p.id ∧ p'.symbol = p.symbol)
    (hmem : position ∈ start.positions)
    (hround : PositionReconciled ctx db position entry db') : StatusBook strict base db' := by
  cases hround with
  | alerted hbook => exact h.of_sameBook hbook
  | closed exit trade closeRate _ _ _ hid hside hstatus hsymbol _ horders hpositions _ hnextId =>
    have hinserted : StatusBook strict base (db.insertOrder exit) :=
      h.insertOrder rfl rfl (Nat.le_of_eq hid.symm) (by rw [hid]; exact Nat.lt_succ_self _)
    refine hinserted.writePosition horders hpositions hnextId (fun _ => ⟨rfl, rfl, rfl⟩) ?_
    intro p hp hpid
    obtain ⟨p', hp', hid', hsymbol'⟩ := hstart position hmem
    have hsame : p = p' := position_ext h.keyed hp hp' (hpid.trans hid'.symm)
    exact ⟨exit, List.mem_append_right _ (List.mem_singleton_self _), rfl, hside,
      by rw [hsymbol, hsame, hsymbol'], fun _ => hstatus⟩

/-- **A pass** writes FILLED only, and closes positions with FILLED SELL orders. -/
theorem reconcile_statuses (ctx : ReconcileContext) (h : StatusBook strict db db) :
    StatusBook strict db (reconcileSubmittedOrders ctx db).1 := by
  have horders : StatusBook strict db
      (reconcileEach (reconcileOrder ctx) db (staleOrders ctx db)).1 := by
    refine reconcileEach_inv _ (fun db₁ order horder hdb₁ => ?_) h
    exact reconcileOrder_statuses hdb₁ ⟨order, (mem_staleOrders.mp horder).1, rfl⟩
      (reconcileOrder_reconciled ctx db₁ order)
  unfold reconcileSubmittedOrders reconcileOpenPositions
  dsimp only
  generalize (reconcileEach (reconcileOrder ctx) db (staleOrders ctx db)).1 = start at horders ⊢
  -- the second loop goes over the positions the first one left
  have hboth : StatusBook strict db
        (reconcileEach (reconcilePosition ctx) start (trackedPositions ctx start)).1 ∧
      StatusBook strict start
        (reconcileEach (reconcilePosition ctx) start (trackedPositions ctx start)).1 := by
    refine @reconcileEach_inv _ (reconcilePosition ctx)
      (fun db₁ => StatusBook strict db db₁ ∧ StatusBook strict start db₁) _
      (fun db₁ row hrow hdb₁ => ?_) start ⟨horders, horders.rebase⟩
    have hmem : row.1 ∈ start.positions := (mem_trackedPositions.mp hrow).1
    have hround := reconcilePosition_reconciled ctx db₁ row
    exact ⟨reconcilePosition_statuses hdb₁.1 hdb₁.2.positions hmem hround,
      reconcilePosition_statuses hdb₁.2 hdb₁.2.positions hmem hround⟩
  exact hboth.1

end Pass

/-! ## Steps and runs -/

variable {w : World}

/-- **One step** keeps the links, and the statuses where it spares what is FILLED. -/
theorem step_statuses (s : Step) (h : StatusBook strict w.db w.db)
    (hspares : strict → SparesFilled w s) : StatusBook strict w.db (step w s).db := by
  cases s with
  | signal d => exact signal_statuses d h
  | reconcile ctx => exact reconcile_statuses ctx h
  | webhook ctx payload =>
    by_cases hauth : Authenticated ctx payload
    · simp only [step, freqtradeWebhook_of_authenticated hauth, Option.getD_some]
      cases hevent : payload.event with
      | entry_fill => exact entryFill_statuses h
      | exit_fill => exact exitFill_statuses h
      | entry_cancel =>
        exact markCancelled_statuses h fun hstrict => (hspares hstrict hauth).1 hevent
      | exit_cancel =>
        exact markCancelled_statuses h fun hstrict => (hspares hstrict hauth).2 hevent
      | other _ => exact h
    · simp only [step, freqtradeWebhook_of_not_authenticated hauth, Option.getD_none]
      exact h

/-- A cancellation that leaves every FILLED order as it is does not come for one. -/
theorem newestNotFilled_of_stays {ctx : WebhookContext} {payload : FreqtradeWebhookPayload}
    {side : OrderSide} {db : Database}
    (hstays : ∀ o ∈ db.orders, o.status = .FILLED →
      ∀ o' ∈ (markCancelled ctx db payload side).orders, o'.id = o.id → o'.status ≠ .CANCELLED) :
    NewestNotFilled ctx db payload side := by
  rw [newestNotFilled_iff]
  intro order horder hfilled
  cases findOrder_found ctx.rows db payload.tradeId payload.pair side with
  | known found hmem _ _ hfound =>
    rw [hfound] at horder
    cases horder
    refine hstays order hmem hfilled { order with status := .CANCELLED } ?_ rfl rfl
    unfold markCancelled
    rw [hfound]
    exact mem_modifyRow.mpr (Or.inr ⟨order, hmem, rfl, rfl⟩)
  | backfilled found _ _ hunmatched hfound =>
    rw [hfound] at horder
    cases horder
    exact absurd (hunmatched.2.2.1.symm.trans hfilled) (by decide)
  | missing _ _ hfound =>
    rw [hfound] at horder
    cases horder

/-- A step after which no FILLED order is CANCELLED spares what is FILLED. -/
theorem sparesFilled_of_stays {s : Step} (h : FilledStays w s) : SparesFilled w s := by
  cases s with
  | signal _ => trivial
  | reconcile _ => trivial
  | webhook ctx payload =>
    intro hauth
    simp only [FilledStays, step, freqtradeWebhook_of_authenticated hauth,
      Option.getD_some] at h
    constructor
    · intro hevent
      rw [hevent] at h
      exact newestNotFilled_of_stays h
    · intro hevent
      rw [hevent] at h
      exact newestNotFilled_of_stays h

/-- **One step, exactly**: it keeps the statuses consistent and what is FILLED from being
CANCELLED if and only if it spares what is FILLED. -/
theorem step_statuses_iff (s : Step) (hlinks : StatusBook False w.db w.db)
    (hconsistent : Consistent w.db) :
    Consistent (step w s).db ∧ FilledStays w s ↔ SparesFilled w s := by
  refine ⟨fun h => sparesFilled_of_stays h.2, fun hspares => ?_⟩
  have hbook := step_statuses s (hlinks.tight hconsistent) fun _ => hspares
  refine ⟨hbook.consistent trivial, ?_⟩
  intro o ho hfilled o' ho' hid hcancelled
  obtain ⟨kept, hkept, hkeptId, hkeptFilled⟩ := hbook.orders o ho
  have hrow : o' = kept := order_ext hbook.keyed ho' hkept (hid.trans hkeptId.symm)
  rw [hrow, hkeptFilled trivial hfilled] at hcancelled
  cases hcancelled

/-- **Statuses over runs** of signals, webhook requests and reconciliation passes: they are
consistent in every state and no FILLED order is ever CANCELLED if and only if no cancellation
of the run comes for a FILLED order. -/
theorem run_statuses_iff (w : World) (h : StatusBook True w.db w.db) (steps : List Step) :
    AllStates step (fun w => Consistent w.db) w steps ∧ AllSteps step FilledStays w steps ↔
      AllSteps step SparesFilled w steps :=
  allStates_and_allSteps_iff (fun w : World => StatusBook False w.db w.db)
    (fun _ s hlinks => (step_statuses s hlinks False.elim).rebase)
    (fun _ s hlinks hconsistent => step_statuses_iff s hlinks hconsistent)
    h.loose (h.consistent trivial) steps

/-- A delivered signal, the fill of its trade and then the exit keep the statuses
consistent. -/
theorem filled_and_exited_consistent :
    AllStates step (fun w => Consistent w.db) beforeEntry
        [.signal (cleanDelivery 1 0), .webhook (receivedAt 1) (btcEntryFill 7),
          .webhook (receivedAt 2) (btcExitFill 7)] ∧
      AllSteps step FilledStays beforeEntry
        [.signal (cleanDelivery 1 0), .webhook (receivedAt 1) (btcEntryFill 7),
          .webhook (receivedAt 2) (btcExitFill 7)] := by
  refine (run_statuses_iff beforeEntry (StatusBook.of_empty rfl rfl) _).mpr ?_
  exact ⟨trivial, fun _ => ⟨nofun, nofun⟩, fun _ => ⟨nofun, nofun⟩, trivial⟩

/-- The `entry_cancel` of a BTC trade. -/
def btcEntryCancel (tradeId : ℤ) : FreqtradeWebhookPayload :=
  { event := .entry_cancel
    tradeId
    pair := "BTC/USDT"
    secret := "s3cret" }

/-- A cancellation after the fill leaves a position whose entry order is CANCELLED. -/
theorem late_cancel_overwrites_fill :
    ¬ ∀ (w : World) (steps : List Step), StatusBook True w.db w.db →
      (∀ s ∈ steps, ∀ d, s ≠ .signal d) →
        AllStates step (fun w => Consistent w.db) w steps ∧ AllSteps step FilledStays w steps := by
  intro h
  have hbook : StatusBook True awaitingFill.db awaitingFill.db :=
    (step_statuses (.signal (cleanDelivery 1 0)) (StatusBook.of_empty rfl rfl)
      fun _ => trivial).rebase
  have hrun := h awaitingFill
    [.webhook (receivedAt 1) (btcEntryFill 7), .webhook (receivedAt 2) (btcEntryCancel 7)]
    hbook (by simp)
  have hcancelled : ∃ p ∈ (runFrom step awaitingFill
      [.webhook (receivedAt 1) (btcEntryFill 7),
        .webhook (receivedAt 2) (btcEntryCancel 7)]).db.positions,
      ∀ o ∈ (runFrom step awaitingFill
        [.webhook (receivedAt 1) (btcEntryFill 7),
          .webhook (receivedAt 2) (btcEntryCancel 7)]).db.orders,
        o.id = p.entryOrderId → o.status ≠ .FILLED := by
    decide +kernel
  obtain ⟨p, hp, hnone⟩ := hcancelled
  obtain ⟨o, ho, hid, hfilled⟩ := hrun.1.2.2.entries p hp
  exact hnone o ho hid hfilled

end TradeMind.Analysis
