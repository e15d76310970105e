import TradeMind.Analysis.Ledger

/-!
# The book around one trade

`TradeBook` is what holds of the book as long as one trade is the only open one on its
pair: its position is `p`, its exit orders are the SELL orders that carry it, and once `p`
is CLOSED the exits are settled.  Each way the services write the book has one lemma.
-/

set_option autoImplicit false

namespace TradeMind.Analysis

open TradeMind.Library TradeMind.Model

/-- The order is an exit order of the trade. -/
def IsExit (tradeId : ℤ) (pair : Symbol) (o : Order) : Prop :=
  o.side = .SELL ∧ o.symbol = pair ∧ o.freqtradeTradeId = some tradeId

instance (tradeId : ℤ) (pair : Symbol) (o : Order) : Decidable (IsExit tradeId pair o) :=
  inferInstanceAs (Decidable (_ ∧ _))

/-- No SELL order of the trade is left SUBMITTED, and the position's exit order is a FILLED
SELL order. -/
def Settled (tradeId : ℤ) (db : Database) (p : Position) : Prop :=
  (∀ o ∈ db.orders, o.side = .SELL → o.freqtradeTradeId = some tradeId →
      o.status ≠ .SUBMITTED) ∧
    ∃ exit ∈ db.orders, p.exitOrderId = some exit.id ∧ exit.side = .SELL ∧ exit.status = .FILLED

instance (tradeId : ℤ) (db : Database) (p : Position) : Decidable (Settled tradeId db p) :=
  inferInstanceAs (Decidable (_ ∧ _))

/-- The book around the trade, whose position is `p`. -/
structure TradeBook (tradeId : ℤ) (pair : Symbol) (db : Database) (p : Position) : Prop where
  keyed : db.WellKeyed
  row : p ∈ db.positions
  symbol : p.symbol = pair
  entry : ∃ entry ∈ db.orders, entry.id = p.entryOrderId ∧ entry.side = .BUY ∧
    entry.freqtradeTradeId = some tradeId
  /-- No other position is open on the pair. -/
  alone : ∀ q ∈ db.positions, q.status = .OPEN → q.symbol = pair → q = p
  /-- No entry on the pair awaits its fill. -/
  buys : ∀ o ∈ db.orders, o.side = .BUY → o.symbol = pair → o.status ≠ .SUBMITTED
  sells : ∀ o ∈ db.orders, o.side = .SELL → o.freqtradeTradeId ≠ none
  /-- The trade is on no other pair. -/
  exits : ∀ o ∈ db.orders, o.side = .SELL → o.freqtradeTradeId = some tradeId →
    o.status = .SUBMITTED → o.symbol = pair
  /-- An open position is linked to exit orders of its trade only. -/
  link : p.status = .OPEN → ∀ e, p.exitOrderId = some e →
    ∃ exit ∈ db.orders, exit.id = e ∧ IsExit tradeId pair exit
  /-- Exit orders of the trade are linked to no other position. -/
  others : ∀ q ∈ db.positions, q.id ≠ p.id → ∀ o ∈ db.orders, IsExit tradeId pair o →
    q.exitOrderId ≠ some o.id
  links_lt : ∀ q ∈ db.positions, ∀ e, q.exitOrderId = some e → e < db.nextId
  settled : p.status = .CLOSED → Settled tradeId db p

variable {tradeId : ℤ} {pair : Symbol} {db db' : Database} {p : Position}

namespace TradeBook

theorem of_sameBook (h : TradeBook tradeId pair db p) (hbook : SameBook db db') :
    TradeBook tradeId pair db' p where
  keyed := wellKeyed_of_keys h.keyed (by rw [hbook.orders]) (by rw [hbook.positions])
    hbook.nextId
  row := hbook.positions ▸ h.row
  symbol := h.symbol
  entry := hbook.orders ▸ h.entry
  alone := hbook.positions ▸ h.alone
  buys := hbook.orders ▸ h.buys
  sells := hbook.orders ▸ h.sells
  exits := hbook.orders ▸ h.exits
  link := hbook.orders ▸ h.link
  others := by
    rw [hbook.orders, hbook.positions]
    exact h.others
  links_lt := by
    rw [hbook.positions]
    exact fun q hq e he => Nat.lt_of_lt_of_le (h.links_lt q hq e he) hbook.nextId
  settled := by
    unfold Settled
    rw [hbook.orders]
    exact h.settled

theorem fillOrder (h : TradeBook tradeId pair db p) {id : Uuid} {amount price : ℚ}
    (horders : db'.orders = modifyRow Order.id id (fun o => o.fill amount price) db.orders)
    (hpositions : db'.positions = db.positions) (hnextId : db.nextId ≤ db'.nextId) :
    TradeBook tradeId pair db' p := by
  -- every row of the table is a row of the old one, filled or not
  have hrows : ∀ o' ∈ db'.orders, ∃ o ∈ db.orders, o'.id = o.id ∧ o'.side = o.side ∧
      o'.symbol = o.symbol ∧ o'.freqtradeTradeId = o.freqtradeTradeId ∧
        (o'.status = .FILLED ∨ o' = o) := by
    intro o' ho'
    rw [horders] at ho'
    rcases mem_modifyRow.mp ho' with ⟨ho, _⟩ | ⟨o, ho, _, rfl⟩
    · exact ⟨o', ho, rfl, rfl, rfl, rfl, Or.inr rfl⟩
    · exact ⟨o, ho, rfl, rfl, rfl, rfl, Or.inl rfl⟩
  have hkept : ∀ o ∈ db.orders, ∃ o' ∈ db'.orders, o'.id = o.id ∧ o'.side = o.side ∧
      o'.symbol = o.symbol ∧ o'.freqtradeTradeId = o.freqtradeTradeId ∧
        (o.status = .FILLED → o'.status = .FILLED) := by
    intro o ho
    rw [horders]
    by_cases hid : o.id = id
    · exact ⟨o.fill amount price, mem_modifyRow.mpr (Or.inr ⟨o, ho, hid, rfl⟩), rfl, rfl, rfl,
        rfl, fun _ => rfl⟩
    · exact ⟨o, mem_modifyRow.mpr (Or.inl ⟨ho, hid⟩), rfl, rfl, rfl, rfl, fun hf => hf⟩
  refine ⟨?_, hpositions ▸ h.row, h.symbol, ?_, hpositions ▸ h.alone, ?_, ?_, ?_, ?_, ?_, ?_, ?_⟩
  · refine wellKeyed_of_keys h.keyed ?_ (by rw [hpositions]) hnextId
    rw [horders]
    exact map_modifyRow Order.id fun _ _ _ => rfl
  · obtain ⟨entry, hentry, hid, hside, htrade⟩ := h.entry
    obtain ⟨entry', hentry', hid', hside', _, htrade', _⟩ := hkept entry hentry
    exact ⟨entry', hentry', hid'.trans hid, hside'.trans hside, htrade'.trans htrade⟩
  · intro o' ho' hside hsymbol hstatus
    obtain ⟨o, ho, _, hside', hsymbol', _, hfilled | rfl⟩ := hrows o' ho'
    · rw [hfilled] at hstatus
      cases hstatus
    · exact h.buys o' ho hside hsymbol hstatus
  · intro o' ho' hside
    obtain ⟨o, ho, _, hside', _, htrade', _⟩ := hrows o' ho'
    rw [htrade']
    exact h.sells o ho (hside'.symm.trans hside)
  · intro o' ho' hside htrade hstatus
    obtain ⟨o, ho, _, _, _, _, hfilled | rfl⟩ := hrows o' ho'
    · rw [hfilled] at hstatus
      cases hstatus
    · exact h.exits o' ho hside htrade hstatus
  · intro hopen e he
    obtain ⟨exit, hexit, hid, hside, hsymbol, htrade⟩ := h.link hopen e he
    obtain ⟨exit', hexit', hid', hside', hsymbol', htrade', _⟩ := hkept exit hexit
    exact ⟨exit', hexit', hid'.trans hid, hside'.trans hside, hsymbol'.trans hsymbol,
      htrade'.trans htrade⟩
  · intro q hq hne o' ho' hexit
    rw [hpositions] at hq
    obtain ⟨o, ho, hid, hside, hsymbol, htrade, _⟩ := hrows o' ho'
    rw [hid]
    exact h.others q hq hne o ho
      ⟨hside.symm.trans hexit.1, hsymbol.symm.trans hexit.2.1, htrade.symm.trans hexit.2.2⟩
  · intro q hq e he
    rw [hpositions] at hq
    exact Nat.lt_of_lt_of_le (h.links_lt q hq e he) hnextId
  · intro hclosed
    obtain ⟨hnone, exit, hexit, hlinked, hside, hfilled⟩ := h.settled hclosed
    refine ⟨?_, ?_⟩
    · intro o' ho' hside' htrade' hstatus
      obtain ⟨o, ho, _, _, _, _, hfilled' | rfl⟩ := hrows o' ho'
      · rw [hfilled'] at hstatus
        cases hstatus
      · exact hnone o' ho hside' htrade' hstatus
    · obtain ⟨exit', hexit', hid', hside', _, _, hfilled'⟩ := hkept exit hexit
      exact ⟨exit', hexit', hid'.symm ▸ hlinked, hside'.trans hside, hfilled' hfilled⟩

/-- A SELL order is inserted; one that is SUBMITTED is on the pair and finds the position
open. -/
theorem insertOrder (h : TradeBook tradeId pair db p) {o : Order}
    (horders : db'.orders = db.orders ++ [o]) (hpositions : db'.positions = db.positions)
    (hle : db.nextId ≤ o.id) (hlt : o.id < db'.nextId) (hside : o.side = .SELL)
    (htrade : o.freqtradeTradeId ≠ none)
    (hwaiting : o.status = .SUBMITTED → o.symbol = pair ∧ p.status = .OPEN) :
    TradeBook tradeId pair db' p := by
  have hrows : ∀ x ∈ db'.orders, x ∈ db.orders ∨ x = o := by
    intro x hx
    rw [horders] at hx
    exact (List.mem_append.mp hx).imp_right List.mem_singleton.mp
  have hkept : ∀ x ∈ db.orders, x ∈ db'.orders := by
    intro x hx
    rw [horders]
    exact List.mem_append_left _ hx
  exact
    { keyed := wellKeyed_insertOrder h.keyed horders hpositions hle hlt
      row := hpositions ▸ h.row
      symbol := h.symbol
      entry := by
        obtain ⟨entry, hentry, hrest⟩ := h.entry
        exact ⟨entry, hkept entry hentry, hrest⟩
      alone := hpositions ▸ h.alone
      buys := by
        intro x hx hbuy
        rcases hrows x hx with hold | rfl
        · exact h.buys x hold hbuy
        · rw [hside] at hbuy
          cases hbuy
      sells := by
        intro x hx hsell
        rcases hrows x hx with hold | rfl
        · exact h.sells x hold hsell
        · exact htrade
      exits := by
        intro x hx hsell hid hstatus
        rcases hrows x hx with hold | rfl
        · exact h.exits x hold hsell hid hstatus
        · exact (hwaiting hstatus).1
      link := by
        intro hopen e he
        obtain ⟨exit, hexit, hrest⟩ := h.link hopen e he
        exact ⟨exit, hkept exit hexit, hrest⟩
      others := by
        intro q hq hne x hx hexit hlink
        rw [hpositions] at hq
        rcases hrows x hx with hold | rfl
        · exact h.others q hq hne x hold hexit hlink
        · exact Nat.lt_irrefl _ (Nat.lt_of_lt_of_le (h.links_lt q hq _ hlink) hle)
      links_lt := by
        intro q hq e he
        rw [hpositions] at hq
        exact Nat.lt_trans (Nat.lt_of_lt_of_le (h.links_lt q hq e he) hle) hlt
      settled := by
        intro hclosed
        obtain ⟨hnone, exit, hexit, hrest⟩ := h.settled hclosed
        refine ⟨fun x hx hsell hid hstatus => ?_, exit, hkept exit hexit, hrest⟩
        rcases hrows x hx with hold | rfl
        · exact hnone x hold hsell hid hstatus
        · rw [hclosed] at hwaiting
          cases (hwaiting hstatus).2 }

theorem insertPosition (h : TradeBook tradeId pair db p) {q : Position}
    (horders : db'.orders = db.orders) (hpositions : db'.positions = db.positions ++ [q])
    (hle : db.nextId ≤ q.id) (hlt : q.id < db'.nextId) (hsymbol : q.symbol ≠ pair)
    (hexit : q.exitOrderId = none) : TradeBook tradeId pair db' p where
  keyed := wellKeyed_insertPosition h.keyed horders hpositions hle hlt
  row := hpositions ▸ List.mem_append_left _ h.row
  symbol := h.symbol
  entry := horders ▸ h.entry
  alone := by
    intro x hx hopen hpair
    rw [hpositions] at hx
    rcases List.mem_append.mp hx with hx | hx
    · exact h.alone x hx hopen hpair
    · rw [List.mem_singleton.mp hx] at hpair
      exact absurd hpair hsymbol
  buys := horders ▸ h.buys
  sells := horders ▸ h.sells
  exits := horders ▸ h.exits
  link := horders ▸ h.link
  others := by
    intro x hx hne o ho hown hlink
    rw [hpositions] at hx
    rw [horders] at ho
    rcases List.mem_append.mp hx with hx | hx
    · exact h.others x hx hne o ho hown hlink
    · rw [List.mem_singleton.mp hx, hexit] at hlink
      cases hlink
  links_lt := by
    intro x hx e he
    rw [hpositions] at hx
    rcases List.mem_append.mp hx with hx | hx
    · exact Nat.lt_trans (Nat.lt_of_lt_of_le (h.links_lt x hx e he) hle) hlt
    · rw [List.mem_singleton.mp hx, hexit] at he
      cases he
  settled := by
    unfold Settled
    rw [horders]
    exact h.settled

/-- Another position is closed; the exit order it is linked to is none of the trade's. -/
theorem closeOther (h : TradeBook tradeId pair db p) {id : Uuid} {g : Position → Position}
    (horders : db'.orders = db.orders)
    (hpositions : db'.positions = modifyRow Position.id id g db.positions)
    (hnextId : db.nextId ≤ db'.nextId) (hne : p.id ≠ id) (hid : ∀ q, (g q).id = q.id)
    (hclosed : ∀ q, (g q).status = .CLOSED)
    (hlink : ∀ q ∈ db.positions, q.id = id → ∀ e, (g q).exitOrderId = some e →
      e < db.nextId ∧ ∀ o ∈ db.orders, IsExit tradeId pair o → e ≠ o.id) :
    TradeBook tradeId pair db' p where
  keyed := by
    refine wellKeyed_of_keys h.keyed (by rw [horders]) ?_ hnextId
    rw [hpositions]
    exact map_modifyRow Position.id fun q _ _ => hid q
  row := by
    rw [hpositions]
    exact mem_modifyRow.mpr (Or.inl ⟨h.row, hne⟩)
  symbol := h.symbol
  entry := horders ▸ h.entry
  alone := by
    intro x hx hopen hpair
    rw [hpositions] at hx
    rcases mem_modifyRow.mp hx with ⟨hx, _⟩ | ⟨q, _, _, rfl⟩
    · exact h.alone x hx hopen hpair
    · rw [hclosed] at hopen
      cases hopen
  buys := horders ▸ h.buys
  sells := horders ▸ h.sells
  exits := horders ▸ h.exits
  link := horders ▸ h.link
  others := by
    intro x hx hxne o ho hown hxlink
    rw [hpositions] at hx
    rw [horders] at ho
    rcases mem_modifyRow.mp hx with ⟨hx, _⟩ | ⟨q, hq, hqid, rfl⟩
    · exact h.others x hx hxne o ho hown hxlink
    · exact (hlink q hq hqid o.id hxlink).2 o ho hown rfl
  links_lt := by
    intro x hx e he
    rw [hpositions] at hx
    rcases mem_modifyRow.mp hx with ⟨hx, _⟩ | ⟨q, hq, hqid, rfl⟩
    · exact Nat.lt_of_lt_of_le (h.links_lt x hx e he) hnextId
    · exact Nat.lt_of_lt_of_le (hlink q hq hqid e he).1 hnextId
  settled := by
    unfold Settled
    rw [horders]
    exact h.settled

theorem writeRow (h : TradeBook tradeId pair db p) {g : Position → Position}
    (horders : db'.orders = db.orders)
    (hpositions : db'.positions = modifyRow Position.id p.id g db.positions)
    (hnextId : db.nextId ≤ db'.nextId) (hid : ∀ q, (g q).id = q.id)
    (hsymbol : (g p).symbol = p.symbol) (hentry : (g p).entryOrderId = p.entryOrderId)
    (hlt : ∀ e, (g p).exitOrderId = some e → e < db.nextId)
    (hlink : (g p).status = .OPEN → ∀ e, (g p).exitOrderId = some e →
      ∃ exit ∈ db.orders, exit.id = e ∧ IsExit tradeId pair exit)
    (hsettled : (g p).status = .CLOSED → Settled tradeId db (g p)) :
    TradeBook tradeId pair db' (g p) := by
  have hrows : ∀ x ∈ db'.positions, (x ∈ db.positions ∧ x.id ≠ p.id) ∨ x = g p := by
    intro x hx
    rw [hpositions] at hx
    rcases mem_modifyRow.mp hx with hx | ⟨q, hq, hqid, rfl⟩
    · exact Or.inl hx
    · exact Or.inr (by rw [position_ext h.keyed hq h.row hqid])
  refine ⟨?_, ?_, hsymbol.trans h.symbol, ?_, ?_, horders ▸ h.buys, horders ▸ h.sells,
    horders ▸ h.exits, ?_, ?_, ?_, ?_⟩
  · refine wellKeyed_of_keys h.keyed (by rw [horders]) ?_ hnextId
    rw [hpositions]
    exact map_modifyRow Position.id fun q _ _ => hid q
  · rw [hpositions]
    exact mem_modifyRow.mpr (Or.inr ⟨p, h.row, rfl, rfl⟩)
  · rw [horders, hentry]
    exact h.entry
  · intro x hx hopen hpair
    rcases hrows x hx with ⟨hx, hne⟩ | hx
    · exact absurd (congrArg Position.id (h.alone x hx hopen hpair)) hne
    · exact hx
  · rw [horders]
    exact hlink
  · intro x hx hne o ho hown hxlink
    rw [horders] at ho
    rw [hid] at hne
    rcases hrows x hx with ⟨hx, _⟩ | rfl
    · exact h.others x hx hne o ho hown hxlink
    · exact hne (hid p)
  · intro x hx e he
    rcases hrows x hx with ⟨hx, _⟩ | rfl
    · exact Nat.lt_of_lt_of_le (h.links_lt x hx e he) hnextId
    · exact Nat.lt_of_lt_of_le (hlt e he) hnextId
  · unfold Settled
    rw [horders]
    exact hsettled

/-- A position linked to an exit order of the trade is the trade's. -/
theorem row_of_linked (h : TradeBook tradeId pair db p) {q : Position} {o : Order}
    (hq : q ∈ db.positions) (ho : o ∈ db.orders) (hexit : IsExit tradeId pair o)
    (hlink : q.exitOrderId = some o.id) : q = p := by
  by_contra hne
  have hid : q.id ≠ p.id := fun hid => hne (position_ext h.keyed hq h.row hid)
  exact h.others q hq hid o ho hexit hlink

end TradeBook

end TradeMind.Analysis
