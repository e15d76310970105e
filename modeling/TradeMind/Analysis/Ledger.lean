import TradeMind.Analysis.SignalEffects

/-!
# The ledger invariant

What signals and webhook requests keep about the book: keys are unique, SELL orders carry
a trade id, every position stands on a BUY order with a trade id, and the exit order a
position is linked to is a SELL order of the same trade.  Each way the code writes the book
has one lemma.
-/

set_option autoImplicit false

namespace TradeMind.Analysis

open TradeMind.Library TradeMind.Model

/-- The invariant of the book of trades: rows are keyed by their ids, a SELL order knows its trade,
and a position is linked to a BUY and, once it is left, to a SELL of the same trade. -/
structure Ledger (db : Database) : Prop where
  keyed : db.WellKeyed
  sells : ∀ o ∈ db.orders, o.side = .SELL → o.freqtradeTradeId ≠ none
  entries : ∀ p ∈ db.positions, ∃ entry ∈ db.orders, entry.id = p.entryOrderId ∧
    entry.side = .BUY ∧ entry.freqtradeTradeId ≠ none
  exits : ∀ p ∈ db.positions, ∀ e, p.exitOrderId = some e → ∃ exit ∈ db.orders, exit.id = e ∧
    exit.side = .SELL ∧ ∀ entry ∈ db.orders, entry.id = p.entryOrderId →
      exit.freqtradeTradeId = entry.freqtradeTradeId

/-- Every order is still there, on its side, with the trade id it had. -/
def OrdersKept (db db' : Database) : Prop :=
  ∀ o ∈ db.orders, ∃ o' ∈ db'.orders, o'.id = o.id ∧ o'.side = o.side ∧
    (o.freqtradeTradeId ≠ none → o'.freqtradeTradeId = o.freqtradeTradeId)

variable {db db' : Database}

theorem OrdersKept.trans {db'' : Database} (h : OrdersKept db db') (h' : OrdersKept db' db'') :
    OrdersKept db db'' := by
  intro o ho
  obtain ⟨o', ho', hid', hside', htrade'⟩ := h o ho
  obtain ⟨o'', ho'', hid'', hside'', htrade''⟩ := h' o' ho'
  refine ⟨o'', ho'', hid''.trans hid', hside''.trans hside', fun hsome => ?_⟩
  have hkept := htrade' hsome
  exact (htrade'' (hkept ▸ hsome)).trans hkept

theorem OrdersKept.append {orders : List Order} (h : db'.orders = db.orders ++ orders) :
    OrdersKept db db' :=
  fun o ho => ⟨o, h ▸ List.mem_append_left _ ho, rfl, rfl, fun _ => rfl⟩

/-- An update that keeps the id, the side and a trade id keeps the orders. -/
theorem OrdersKept.modify {id : Uuid} {f : Order → Order}
    (h : db'.orders = modifyRow Order.id id f db.orders) (hid : ∀ o, (f o).id = o.id)
    (hside : ∀ o, (f o).side = o.side)
    (htrade : ∀ o ∈ db.orders, o.id = id → o.freqtradeTradeId ≠ none →
      (f o).freqtradeTradeId = o.freqtradeTradeId) : OrdersKept db db' := by
  intro o ho
  rw [h]
  by_cases hrow : o.id = id
  · exact ⟨f o, mem_modifyRow.mpr (Or.inr ⟨o, ho, hrow, rfl⟩), hid o, hside o, htrade o ho hrow⟩
  · exact ⟨o, mem_modifyRow.mpr (Or.inl ⟨ho, hrow⟩), rfl, rfl, fun _ => rfl⟩

/-! ## Keys -/

/-- Two order rows with one id are one row. -/
theorem order_ext (h : db.WellKeyed) {o o' : Order} (ho : o ∈ db.orders) (ho' : o' ∈ db.orders)
    (hid : o.id = o'.id) : o = o' :=
  List.inj_on_of_nodup_map h.orders ho ho' hid

/-- Two position rows with one id are one row. -/
theorem position_ext (h : db.WellKeyed) {p p' : Position} (hp : p ∈ db.positions)
    (hp' : p' ∈ db.positions) (hid : p.id = p'.id) : p = p' :=
  List.inj_on_of_nodup_map h.positions hp hp' hid

/-- A row is found by its primary key. -/
theorem getOrder_of_mem (h : db.WellKeyed) {o : Order} (ho : o ∈ db.orders) :
    db.getOrder o.id = some o :=
  find_key_of_mem h.orders ho

/-- A row found by primary key is in the table under that key. -/
theorem mem_of_getOrder {id : Uuid} {o : Order} (h : db.getOrder id = some o) :
    o ∈ db.orders ∧ o.id = id :=
  ⟨List.mem_of_find?_eq_some h, by simpa using List.find?_some h⟩

/-- Keys stay unique when an order is inserted under a new id. -/
theorem wellKeyed_insertOrder (h : db.WellKeyed) {o : Order}
    (horders : db'.orders = db.orders ++ [o]) (hpositions : db'.positions = db.positions)
    (hle : db.nextId ≤ o.id) (hlt : o.id < db'.nextId) : db'.WellKeyed where
  orders := horders ▸ nodup_append_fresh h.orders h.orders_lt hle
  positions := hpositions ▸ h.positions
  orders_lt := by
    intro x hx
    rw [horders] at hx
    rcases List.mem_append.mp hx with hx | hx
    · exact Nat.lt_trans (Nat.lt_of_lt_of_le (h.orders_lt x hx) hle) hlt
    · rw [List.mem_singleton] at hx
      exact hx ▸ hlt
  positions_lt := by
    intro p hp
    rw [hpositions] at hp
    exact Nat.lt_trans (Nat.lt_of_lt_of_le (h.positions_lt p hp) hle) hlt

/-- Keys stay unique when a position is inserted under a new id. -/
theorem wellKeyed_insertPosition (h : db.WellKeyed) {p : Position}
    (horders : db'.orders = db.orders) (hpositions : db'.positions = db.positions ++ [p])
    (hle : db.nextId ≤ p.id) (hlt : p.id < db'.nextId) : db'.WellKeyed where
  orders := horders ▸ h.orders
  positions := hpositions ▸ nodup_append_fresh h.positions h.positions_lt hle
  orders_lt := by
    intro o ho
    rw [horders] at ho
    exact Nat.lt_trans (Nat.lt_of_lt_of_le (h.orders_lt o ho) hle) hlt
  positions_lt := by
    intro x hx
    rw [hpositions] at hx
    rcases List.mem_append.mp hx with hx | hx
    · exact Nat.lt_trans (Nat.lt_of_lt_of_le (h.positions_lt x hx) hle) hlt
    · rw [List.mem_singleton] at hx
      exact hx ▸ hlt

/-- Keys stay unique where no key is written. -/
theorem wellKeyed_of_keys (h : db.WellKeyed)
    (horders : db'.orders.map Order.id = db.orders.map Order.id)
    (hpositions : db'.positions.map Position.id = db.positions.map Position.id)
    (hnextId : db.nextId ≤ db'.nextId) : db'.WellKeyed where
  orders := horders ▸ h.orders
  positions := hpositions ▸ h.positions
  orders_lt := by
    intro o ho
    have hid : o.id ∈ db.orders.map Order.id := horders ▸ List.mem_map_of_mem ho
    obtain ⟨x, hx, heq⟩ := List.mem_map.mp hid
    exact heq ▸ Nat.lt_of_lt_of_le (h.orders_lt x hx) hnextId
  positions_lt := by
    intro p hp
    have hid : p.id ∈ db.positions.map Position.id := hpositions ▸ List.mem_map_of_mem hp
    obtain ⟨x, hx, heq⟩ := List.mem_map.mp hid
    exact heq ▸ Nat.lt_of_lt_of_le (h.positions_lt x hx) hnextId

/-! ## The ways the book is written -/

/-- The ledger keeps where orders are kept and positions are not touched. -/
theorem Ledger.of_ordersKept (h : Ledger db) (hkept : OrdersKept db db')
    (hkeyed : db'.WellKeyed)
    (hsells : ∀ o ∈ db'.orders, o.side = .SELL → o.freqtradeTradeId ≠ none)
    (hpositions : db'.positions = db.positions) : Ledger db' where
  keyed := hkeyed
  sells := hsells
  entries := by
    intro p hp
    rw [hpositions] at hp
    obtain ⟨entry, hentry, hid, hside, htrade⟩ := h.entries p hp
    obtain ⟨entry', hentry', hid', hside', htrade'⟩ := hkept entry hentry
    exact ⟨entry', hentry', hid'.trans hid, hside'.trans hside, by rwa [htrade' htrade]⟩
  exits := by
    intro p hp e he
    rw [hpositions] at hp
    obtain ⟨exit, hexit, hid, hside, hsame⟩ := h.exits p hp e he
    obtain ⟨exit', hexit', hid', hside', htrade'⟩ := hkept exit hexit
    refine ⟨exit', hexit', hid'.trans hid, hside'.trans hside, ?_⟩
    intro entry' hentry' hentryId'
    obtain ⟨entry, hentry, hentryId, _, htrade⟩ := h.entries p hp
    obtain ⟨entry'', hentry'', hid'', _, htrade''⟩ := hkept entry hentry
    have hrow : entry' = entry'' :=
      order_ext hkeyed hentry' hentry'' (hentryId'.trans (hid''.trans hentryId).symm)
    rw [hrow, htrade'' htrade, htrade' (h.sells exit hexit hside)]
    exact hsame entry hentry hentryId

/-- The same book is as much in order. -/
theorem Ledger.of_sameBook (h : Ledger db) (hbook : SameBook db db') : Ledger db' := by
  refine h.of_ordersKept (fun o ho => ⟨o, hbook.orders ▸ ho, rfl, rfl, fun _ => rfl⟩) ?_ ?_
    hbook.positions
  · exact wellKeyed_of_keys h.keyed (by rw [hbook.orders]) (by rw [hbook.positions]) hbook.nextId
  · rw [hbook.orders]
    exact h.sells

/-- A new order; a SELL one carries a trade id. -/
theorem Ledger.insertOrder (h : Ledger db) {o : Order} (horders : db'.orders = db.orders ++ [o])
    (hpositions : db'.positions = db.positions) (hle : db.nextId ≤ o.id)
    (hlt : o.id < db'.nextId) (hsell : o.side = .SELL → o.freqtradeTradeId ≠ none) :
    Ledger db' := by
  refine h.of_ordersKept (OrdersKept.append horders)
    (wellKeyed_insertOrder h.keyed horders hpositions hle hlt) ?_ hpositions
  intro x hx hside
  rw [horders] at hx
  rcases List.mem_append.mp hx with hx | hx
  · exact h.sells x hx hside
  · cases List.mem_singleton.mp hx
    exact hsell hside

/-- An update of an order that keeps its id, its side and a trade id it has. -/
theorem Ledger.modifyOrder (h : Ledger db) (id : Uuid) (f : Order → Order)
    (hid : ∀ o, (f o).id = o.id) (hside : ∀ o, (f o).side = o.side)
    (htrade : ∀ o ∈ db.orders, o.id = id → o.freqtradeTradeId ≠ none →
      (f o).freqtradeTradeId = o.freqtradeTradeId) : Ledger (db.modifyOrder id f) := by
  refine h.of_ordersKept (OrdersKept.modify rfl hid hside htrade) ?_ ?_ rfl
  · exact wellKeyed_of_keys h.keyed (map_modifyRow Order.id fun o _ _ => hid o) rfl
      (Nat.le_refl _)
  · intro o ho hsell
    rcases mem_modifyRow.mp ho with ⟨ho, _⟩ | ⟨x, hx, hrow, rfl⟩
    · exact h.sells o ho hsell
    · have hsome := h.sells x hx ((hside x).symm.trans hsell)
      rw [htrade x hx hrow hsome]
      exact hsome

/-- A new position on a BUY order with a trade id. -/
theorem Ledger.insertPosition (h : Ledger db) (entry : Order) {p : Position}
    (horders : db'.orders = db.orders) (hpositions : db'.positions = db.positions ++ [p])
    (hle : db.nextId ≤ p.id) (hlt : p.id < db'.nextId) (hentry : entry ∈ db.orders)
    (hid : entry.id = p.entryOrderId) (hside : entry.side = .BUY)
    (htrade : entry.freqtradeTradeId ≠ none) (hexit : p.exitOrderId = none) : Ledger db' where
  keyed := wellKeyed_insertPosition h.keyed horders hpositions hle hlt
  sells := horders ▸ h.sells
  entries := by
    intro q hq
    rw [hpositions] at hq
    rw [horders]
    rcases List.mem_append.mp hq with hq | hq
    · exact h.entries q hq
    · cases List.mem_singleton.mp hq
      exact ⟨entry, hentry, hid, hside, htrade⟩
  exits := by
    intro q hq e he
    rw [hpositions] at hq
    rw [horders]
    rcases List.mem_append.mp hq with hq | hq
    · exact h.exits q hq e he
    · cases List.mem_singleton.mp hq
      rw [hexit] at he
      cases he

/-- An update of a position that links it to a SELL order of its own trade. -/
theorem Ledger.linkExit (h : Ledger db) (exit : Order) {id : Uuid} {g : Position → Position}
    (horders : db'.orders = db.orders)
    (hpositions : db'.positions = modifyRow Position.id id g db.positions)
    (hnextId : db.nextId ≤ db'.nextId) (hid : ∀ p, (g p).id = p.id)
    (hentry : ∀ p, (g p).entryOrderId = p.entryOrderId)
    (hlink : ∀ p, (g p).exitOrderId = some exit.id) (hexit : exit ∈ db.orders)
    (hside : exit.side = .SELL)
    (hown : ∀ p ∈ db.positions, p.id = id → ∀ entry ∈ db.orders, entry.id = p.entryOrderId →
      exit.freqtradeTradeId = entry.freqtradeTradeId) : Ledger db' where
  keyed := by
    refine wellKeyed_of_keys h.keyed (by rw [horders]) ?_ hnextId
    rw [hpositions]
    exact map_modifyRow Position.id fun p _ _ => hid p
  sells := horders ▸ h.sells
  entries := by
    intro p hp
    rw [hpositions] at hp
    rw [horders]
    rcases mem_modifyRow.mp hp with ⟨hp, _⟩ | ⟨q, hq, _, rfl⟩
    · exact h.entries p hp
    · rw [hentry]
      exact h.entries q hq
  exits := by
    intro p hp e he
    rw [hpositions] at hp
    rw [horders]
    rcases mem_modifyRow.mp hp with ⟨hp, _⟩ | ⟨q, hq, hrow, rfl⟩
    · exact h.exits p hp e he
    · rw [hlink] at he
      cases he
      refine ⟨exit, hexit, rfl, hside, ?_⟩
      rw [hentry]
      exact hown q hq hrow

/-! ## Signals -/

/-- **A delivered signal** keeps the ledger: an entry adds a BUY order, an exit a SELL
order of the trade of the position it is linked to. -/
theorem signal_ledger {w : World} (d : Delivery) (h : Ledger w.db) :
    Ledger (processSignal w d).world.db := by
  cases processSignal_effect w d with
  | quiet _ hbook _ _ => exact h.of_sameBook hbook
  | entry signal _ _ _ _ hbook =>
    rcases hbook with hdb | ⟨_, order, _, _, hentered⟩
    · rw [hdb]
      exact h
    · refine h.insertOrder hentered.orders hentered.positions hentered.le_id hentered.id_lt ?_
      intro hsell
      rw [hentered.side] at hsell
      cases hsell
  | exit signal _ _ _ _ hbook =>
    rcases hbook with hdb | ⟨_, _, _, hquiet | ⟨order, position, hexited⟩⟩
    · rw [hdb]
      exact h
    · exact h.of_sameBook hquiet
    · obtain ⟨entry, hentry, hsome, htrade⟩ := hexited.trade
      have hsell : order.side = .SELL → order.freqtradeTradeId ≠ none := by
        intro _
        rw [htrade]
        exact hsome
      rcases hexited.positions with ⟨_, hpositions⟩ | ⟨_, hpositions⟩
      · -- the book with the order inserted, before the position is linked to it
        have hinserted : Ledger { w.db with
            orders := w.db.orders ++ [order]
            nextId := (processSignal w d).world.db.nextId } :=
          h.insertOrder rfl rfl hexited.le_id hexited.id_lt hsell
        refine hinserted.linkExit order hexited.orders hpositions (Nat.le_refl _)
          (fun _ => rfl) (fun _ => rfl) (fun _ => rfl)
          (List.mem_append_right _ (List.mem_singleton_self _)) hexited.side ?_
        intro p hp hid e he heq
        have hrow : p = position := position_ext h.keyed hp hexited.mem hid
        subst hrow
        have hentryMem := mem_of_getOrder hentry
        have heEntry : e = entry := order_ext hinserted.keyed he
          (List.mem_append_left _ hentryMem.1) (heq.trans hentryMem.2.symm)
        rw [heEntry]
        exact htrade
      · exact h.insertOrder hexited.orders hpositions hexited.le_id hexited.id_lt hsell

end TradeMind.Analysis
