import TradeMind.Analysis.ReconcileEffects
import TradeMind.Analysis.TradeBook
import TradeMind.Analysis.WebhookEffects

/-!
# How the exits of one trade settle

Approved SELL signals, exit fills and reconciliation passes about one open trade, in any
order.  A repeated SELL signal makes a second SELL order and moves the position's link to
it; a pass that finds the trade closed may insert a third.  Whatever closes the position
settles one order, and nothing looks for the others afterwards.  `SettlesExits` says when
no other is left; over histories of such steps a closed position is always settled.
-/

set_option autoImplicit false

namespace TradeMind.Analysis

open TradeMind.Library TradeMind.Model

/-- The step is about the trade: a SELL signal on its pair, an exit fill of it, or a pass. -/
def AboutTrade (tradeId : ℤ) (pair : Symbol) (w : World) : Step → Prop
  | .signal d => ∀ signal, w.db.getSignal d.signalId = some signal →
      signal.action = .SELL ∧ signal.symbol = pair
  | .webhook _ payload =>
      payload.event = .exit_fill ∧ payload.tradeId = tradeId ∧ payload.pair = pair
  | .reconcile _ => True

/-- The pass settles the exit order: it is old enough, the position is linked to it, and
the lookup made for it reports the close. -/
def SettledBy (ctx : ReconcileContext) (tradeId : ℤ) (p : Position) (o : Order) : Prop :=
  o.createdAt ≤ ctx.now - ctx.staleAfter ∧ p.exitOrderId = some o.id ∧
    ReportsClosed ctx o.id tradeId o.symbol

/-- The pass closes the position: the lookup made for it reports the close, or the pass
settles an exit order. -/
def PassCloses (ctx : ReconcileContext) (tradeId : ℤ) (pair : Symbol) (db : Database)
    (p : Position) : Prop :=
  ReportsClosed ctx p.id tradeId pair ∨
    ∃ o ∈ db.orders, IsExit tradeId pair o ∧ o.status = .SUBMITTED ∧ SettledBy ctx tradeId p o

/-- A complete exit fill finds the only exit order that waits; a pass that closes the
position settles every exit order that waits. -/
def SettlesExits (tradeId : ℤ) (pair : Symbol) (row : Uuid) (w : World) : Step → Prop
  | .signal _ => True
  | .webhook ctx payload =>
      Authenticated ctx payload → payload.closeRate ≠ none → payload.amount ≠ none →
        ∀ o ∈ w.db.orders, IsExit tradeId pair o → o.status = .SUBMITTED →
          (findOrder ctx.rows w.db tradeId pair .SELL).1 = some o
  | .reconcile ctx =>
      ∀ p ∈ w.db.positions, p.id = row → p.status = .OPEN → PassCloses ctx tradeId pair w.db p →
        ∀ o ∈ w.db.orders, IsExit tradeId pair o → o.status = .SUBMITTED →
          SettledBy ctx tradeId p o

variable {tradeId : ℤ} {pair : Symbol} {w : World} {db : Database} {p : Position}

/-- An order that still waits after a fill is another one, and as it was. -/
theorem waiting_of_fill {id : Uuid} {amount price : ℚ} {orders : List Order} {o : Order}
    (ho : o ∈ modifyRow Order.id id (fun o => o.fill amount price) orders)
    (hstatus : o.status = .SUBMITTED) : o ∈ orders ∧ o.id ≠ id := by
  rcases mem_modifyRow.mp ho with h | ⟨_, _, _, rfl⟩
  · exact h
  · cases hstatus

/-- An order that waits beside an appended FILLED one was there before it. -/
theorem waiting_of_append {orders : List Order} {exit o : Order}
    (hfilled : exit.status = .FILLED) (ho : o ∈ orders ++ [exit])
    (hwaiting : o.status = .SUBMITTED) : o ∈ orders := by
  rcases List.mem_append.mp ho with ho | ho
  · exact ho
  · rw [List.mem_singleton.mp ho, hfilled] at hwaiting
    cases hwaiting

theorem TradeBook.insertFilled (h : TradeBook tradeId pair db p) {exit : Order}
    (hid : exit.id = db.nextId) (hside : exit.side = .SELL) (hfilled : exit.status = .FILLED)
    (hsome : exit.freqtradeTradeId ≠ none) : TradeBook tradeId pair (db.insertOrder exit) p := by
  refine h.insertOrder rfl rfl (Nat.le_of_eq hid.symm) ?_ hside hsome ?_
  · rw [hid]
    exact Nat.lt_succ_self _
  · intro hwaiting
    rw [hfilled] at hwaiting
    cases hwaiting

/-! ## Signals -/

/-- **A SELL signal** on the pair leaves a book around the trade: its order is one more
exit order of the trade. -/
theorem signal_tradeBook {d : Delivery} (h : TradeBook tradeId pair w.db p)
    (habout : AboutTrade tradeId pair w (.signal d)) :
    ∃ p', p'.id = p.id ∧ TradeBook tradeId pair (processSignal w d).world.db p' := by
  cases processSignal_effect w d with
  | quiet _ hbook _ _ => exact ⟨p, rfl, h.of_sameBook hbook⟩
  | entry signal _ happroves _ _ _ =>
    exact absurd (habout signal happroves.asks.found).1 happroves.action
  | exit signal _ happroves _ _ hbook =>
    rcases hbook with hdb | ⟨_, _, _, hquiet | ⟨order, position, hexited⟩⟩
    · rw [hdb]
      exact ⟨p, rfl, h⟩
    · exact ⟨p, rfl, h.of_sameBook hquiet⟩
    · obtain ⟨_, hpair⟩ := habout signal happroves.asks.found
      have hrow : position = p :=
        h.alone position hexited.mem hexited.isOpen (hexited.onPair.trans hpair)
      subst hrow
      have hsymbol : order.symbol = pair := hexited.symbol.trans hpair
      have htrade : order.freqtradeTradeId = some tradeId := by
        obtain ⟨entry, hget, _, hsame⟩ := hexited.trade
        obtain ⟨hentry, hid⟩ := mem_of_getOrder hget
        obtain ⟨entry', hentry', hid', _, htrade'⟩ := h.entry
        rw [hsame, order_ext h.keyed hentry hentry' (hid.trans hid'.symm), htrade']
      have hsome : order.freqtradeTradeId ≠ none := by simp [htrade]
      rcases hexited.positions with ⟨_, hpositions⟩ | ⟨_, hpositions⟩
      · -- the book with the order inserted, before the position is linked to it
        have hinserted : TradeBook tradeId pair { w.db with
            orders := w.db.orders ++ [order]
            nextId := (processSignal w d).world.db.nextId } position :=
          h.insertOrder rfl rfl hexited.le_id hexited.id_lt hexited.side hsome
            fun _ => ⟨hsymbol, hexited.isOpen⟩
        refine ⟨_, ?_, hinserted.writeRow hexited.orders hpositions (Nat.le_refl _)
          (fun _ => rfl) rfl rfl ?_ ?_ ?_⟩
        · rfl
        · intro e he
          cases he
          exact hexited.id_lt
        · intro _ e he
          cases he
          exact ⟨order, List.mem_append_right _ (List.mem_singleton_self _), rfl, hexited.side,
            hsymbol, htrade⟩
        · intro hclosed
          have hopen := hexited.isOpen
          rw [hclosed] at hopen
          cases hopen
      · exact ⟨position, rfl, h.insertOrder hexited.orders hpositions hexited.le_id
          hexited.id_lt hexited.side hsome fun _ => ⟨hsymbol, hexited.isOpen⟩⟩

/-! ## Exit fills -/

section ExitFill

variable {ctx : WebhookContext} {payload : FreqtradeWebhookPayload}

/-- The position an exit fill closes is the trade's. -/
theorem exitPosition_row (h : TradeBook tradeId pair db p) {order : Order}
    (horder : order ∈ db.orders) (hexit : IsExit tradeId pair order) {position : Position}
    (hposition : exitPosition ctx.rows db order.id pair = some position) : position = p := by
  unfold exitPosition at hposition
  split at hposition
  · rename_i linked hlinked
    cases hposition
    have hmem := List.mem_filter.mp (Arrangement.first_mem _ hlinked)
    exact h.row_of_linked hmem.1 horder hexit (by simpa using hmem.2)
  · have hmem := List.mem_filter.mp (Arrangement.first_mem _ hposition)
    have hrow : position.symbol = pair ∧ position.status = .OPEN := by simpa using hmem.2
    exact h.alone position hmem.1 hrow.2 hrow.1

/-- The book around the trade with the order of an exit fill in it and filled; an exit order
that still waits is one the lookup did not find. -/
theorem exitOrder_tradeBook (h : TradeBook payload.tradeId payload.pair db p)
    {closeRate amount : ℚ} {order : Order} {db₂ : Database}
    (hmade : exitOrder ctx (findOrder ctx.rows db payload.tradeId payload.pair .SELL).2 payload
      closeRate amount (findOrder ctx.rows db payload.tradeId payload.pair .SELL).1 =
        some (order, db₂)) :
    TradeBook payload.tradeId payload.pair
        (db₂.modifyOrder order.id fun o => o.fill amount closeRate) p ∧
      order.fill amount closeRate ∈
        (db₂.modifyOrder order.id fun o => o.fill amount closeRate).orders ∧
      ∀ o ∈ (db₂.modifyOrder order.id fun o => o.fill amount closeRate).orders,
        o.status = .SUBMITTED → o ∈ db.orders ∧
          (findOrder ctx.rows db payload.tradeId payload.pair .SELL).1 ≠ some o := by
  obtain ⟨⟨htrade, _, hside⟩, _, hcase⟩ := exitOrder_made h.sells hmade
  have hfilled : order ∈ db₂.orders → order.fill amount closeRate ∈
      (db₂.modifyOrder order.id fun o => o.fill amount closeRate).orders :=
    fun hmem => mem_modifyRow.mpr (Or.inr ⟨order, hmem, rfl, rfl⟩)
  rcases hcase with ⟨hfound, hmem, rfl⟩ | ⟨hfound, _, hid, hstatus, rfl⟩
  · refine ⟨h.fillOrder rfl rfl (Nat.le_refl _), hfilled hmem, ?_⟩
    intro o ho hwaiting
    obtain ⟨ho, hne⟩ := waiting_of_fill ho hwaiting
    refine ⟨ho, fun hsame => hne ?_⟩
    cases Option.some.inj (hfound.symm.trans hsame)
    rfl
  · have hinserted : TradeBook payload.tradeId payload.pair (db.insertOrder order) p :=
      h.insertFilled hid hside hstatus (by simp [htrade])
    refine ⟨hinserted.fillOrder rfl rfl (Nat.le_refl _),
      hfilled (List.mem_append_right _ (List.mem_singleton_self _)), ?_⟩
    intro o ho hwaiting
    obtain ⟨ho, hne⟩ := waiting_of_fill ho hwaiting
    rcases List.mem_append.mp ho with ho | ho
    · refine ⟨ho, fun hsame => ?_⟩
      rw [hfound] at hsame
      cases hsame
    · exact absurd (congrArg Order.id (List.mem_singleton.mp ho)) hne

/-- **An exit fill** of the trade that finds the only exit order that waits leaves a book
around the trade. -/
theorem exitFill_tradeBook (h : TradeBook payload.tradeId payload.pair db p)
    (hsettles : payload.closeRate ≠ none → payload.amount ≠ none →
      ∀ o ∈ db.orders, IsExit payload.tradeId payload.pair o → o.status = .SUBMITTED →
        (findOrder ctx.rows db payload.tradeId payload.pair .SELL).1 = some o) :
    ∃ p', p'.id = p.id ∧
      TradeBook payload.tradeId payload.pair (handleExitFill ctx db payload) p' := by
  cases handleExitFill_exitFill ctx db payload with
  | ignored _ hignored =>
    rw [hignored, findOrder_sell h.sells]
    exact ⟨p, rfl, h⟩
  | untracked _ _ huntracked =>
    rw [huntracked]
    exact ⟨p, rfl, h⟩
  | unlinked closeRate amount order db₂ _ _ horder _ hunlinked =>
    rw [hunlinked]
    exact ⟨p, rfl, (exitOrder_tradeBook h horder).1⟩
  | settled closeRate amount order db₂ position hcloseRate hamount horder hposition hsettled =>
    obtain ⟨hbook, hfilled, hwaiting⟩ := exitOrder_tradeBook h horder
    obtain ⟨⟨htrade, hpair, hside⟩, _⟩ := exitOrder_made h.sells horder
    have hrow : position = p :=
      exitPosition_row hbook hfilled ⟨hside, hpair, htrade⟩ hposition
    subst hrow
    rw [hsettled]
    obtain ⟨rMultiple, fees, hpositions⟩ := settleExit_positions ctx
      (db₂.modifyOrder order.id fun o => o.fill amount closeRate) payload order position closeRate
      amount
    refine ⟨_, ?_, hbook.writeRow rfl hpositions (Nat.le_succ_of_le (Nat.le_succ _))
      (fun _ => rfl) rfl rfl ?_ ?_ ?_⟩
    · rfl
    · intro e he
      cases he
      exact hbook.keyed.orders_lt (order.fill amount closeRate) hfilled
    · intro hopen
      cases hopen
    · refine fun _ => ⟨?_, _, hfilled, rfl, hside, rfl⟩
      intro o ho hsell htradeId hstatus
      obtain ⟨hmem, hne⟩ := hwaiting o ho hstatus
      exact hne (hsettles (by simp [hcloseRate]) (by simp [hamount]) o hmem
        ⟨hsell, h.exits o hmem hsell htradeId hstatus, htradeId⟩ hstatus)

end ExitFill

/-! ## Passes -/

section Pass

variable {ctx : ReconcileContext} {db₀ : Database} {p₀ : Position}

/-- While a pass runs over the book `db₀`: as long as the position is open it is the row
`p₀` the loop started with, and no exit order waits that did not wait then. -/
def DuringPass (tradeId : ℤ) (pair : Symbol) (db₀ : Database) (p₀ : Position) (db : Database) :
    Prop :=
  ∃ p, p.id = p₀.id ∧ TradeBook tradeId pair db p ∧
    (p.status = .OPEN → p = p₀ ∧ ∀ o ∈ db.orders, IsExit tradeId pair o →
      o.status = .SUBMITTED → o ∈ db₀.orders)

/-- The position under the id is CLOSED, if there is one. -/
def Shut (id : Uuid) (db : Database) : Prop :=
  ∀ p ∈ db.positions, p.id = id → p.status = .CLOSED

/-- A loop starts as a pass that has done nothing. -/
theorem TradeBook.duringPass (h : TradeBook tradeId pair db p) :
    DuringPass tradeId pair db p db :=
  ⟨p, rfl, h, fun _ => ⟨rfl, fun _ ho _ _ => ho⟩⟩

theorem DuringPass.of_sameBook {db' : Database} (h : DuringPass tradeId pair db₀ p₀ db)
    (hbook : SameBook db db') : DuringPass tradeId pair db₀ p₀ db' := by
  obtain ⟨p, hid, hp, hopen⟩ := h
  refine ⟨p, hid, hp.of_sameBook hbook, ?_⟩
  rw [hbook.orders]
  exact hopen

theorem entered_tradeBook {order : Order} {db' : Database} (h : TradeBook tradeId pair db p)
    (hsymbol : order.symbol ≠ pair) {openRate amount : ℚ}
    (horders : db'.orders =
      modifyRow Order.id order.id (fun o => o.fill amount openRate) db.orders)
    (hpositions : db'.positions = db.positions ∨
      ∃ position, (∀ p ∈ db.positions, p.entryOrderId ≠ order.id) ∧
        OpenedFor order db.nextId position ∧ db'.positions = db.positions ++ [position])
    (hnextId : db.nextId < db'.nextId) : TradeBook tradeId pair db' p := by
  rcases hpositions with hpositions | ⟨position, _, hopened, hpositions⟩
  · exact h.fillOrder horders hpositions (Nat.le_of_lt hnextId)
  · have hfilled : TradeBook tradeId pair
        (db.modifyOrder order.id fun o => o.fill amount openRate) p :=
      h.fillOrder rfl rfl (Nat.le_refl _)
    refine hfilled.insertPosition horders hpositions (Nat.le_of_eq hopened.id.symm) ?_ ?_
      hopened.exitOrderId
    · rw [hopened.id]
      exact hnextId
    · rw [hopened.symbol]
      exact hsymbol

/-- The position is closed by the fill of the exit order it is linked to, no other exit
order waiting. -/
theorem exited_tradeBook {order : Order} {db' : Database} (h : TradeBook tradeId pair db p)
    (hlinked : p.exitOrderId = some order.id) {trade : FreqtradeTrade} {closeRate amount : ℚ}
    (horders : db'.orders =
      modifyRow Order.id order.id (fun o => o.fill amount closeRate) db.orders)
    (hpositions : db'.positions =
      modifyRow Position.id p.id (closeByTrade ctx trade closeRate) db.positions)
    (hnextId : db.nextId ≤ db'.nextId)
    (honly : p.status = .OPEN → ∀ o ∈ db.orders, IsExit tradeId pair o →
      o.status = .SUBMITTED → o.id = order.id) :
    TradeBook tradeId pair db' (closeByTrade ctx trade closeRate p) := by
  have hfilled : TradeBook tradeId pair
      (db.modifyOrder order.id fun o => o.fill amount closeRate) p :=
    h.fillOrder rfl rfl (Nat.le_refl _)
  refine hfilled.writeRow horders hpositions hnextId (fun _ => rfl) rfl rfl
    (hfilled.links_lt p hfilled.row) (fun hopen => by cases hopen) fun _ => ?_
  cases hstatus : p.status with
  | CLOSED => exact hfilled.settled hstatus
  | OPEN =>
    refine ⟨?_, ?_⟩
    · intro o ho hsell htrade hwaiting
      obtain ⟨hmem, hne⟩ := waiting_of_fill ho hwaiting
      exact hne (honly hstatus o hmem ⟨hsell, h.exits o hmem hsell htrade hwaiting, htrade⟩
        hwaiting)
    · obtain ⟨exit, hexit, hid, hside, _⟩ := h.link hstatus order.id hlinked
      exact ⟨exit.fill amount closeRate, mem_modifyRow.mpr (Or.inr ⟨exit, hexit, hid, rfl⟩),
        hlinked.trans (congrArg some hid.symm), hside, rfl⟩

/-- Another position is closed by the fill of the exit order it is linked to. -/
theorem exitedOther_tradeBook {order : Order} {position : Position} {db' : Database}
    (h : TradeBook tradeId pair db p) (hmem : position ∈ db.positions)
    (hne : position.id ≠ p.id) {trade : FreqtradeTrade} {closeRate amount : ℚ}
    (horders : db'.orders =
      modifyRow Order.id order.id (fun o => o.fill amount closeRate) db.orders)
    (hpositions : db'.positions =
      modifyRow Position.id position.id (closeByTrade ctx trade closeRate) db.positions)
    (hnextId : db.nextId ≤ db'.nextId) : TradeBook tradeId pair db' p := by
  have hfilled : TradeBook tradeId pair
      (db.modifyOrder order.id fun o => o.fill amount closeRate) p :=
    h.fillOrder rfl rfl (Nat.le_refl _)
  refine hfilled.closeOther horders hpositions hnextId hne.symm (fun _ => rfl) (fun _ => rfl) ?_
  intro q hq hid e he
  have hrow : q = position := position_ext h.keyed hq hmem hid
  subst hrow
  refine ⟨h.links_lt q hq e he, fun o ho hexit heq => ?_⟩
  subst heq
  exact hfilled.others q hq hne o ho hexit he

/-- **A round of the first loop.**  Its order waited when the pass began; if the pass closes
the position, it settles every exit order that waits. -/
theorem reconcileOrder_duringPass (h₀ : TradeBook tradeId pair db₀ p₀)
    (hsettles : p₀.status = .OPEN → PassCloses ctx tradeId pair db₀ p₀ →
      ∀ o ∈ db₀.orders, IsExit tradeId pair o → o.status = .SUBMITTED →
        SettledBy ctx tradeId p₀ o)
    {order : Order} (hstale : order ∈ staleOrders ctx db₀)
    (h : DuringPass tradeId pair db₀ p₀ db) :
    DuringPass tradeId pair db₀ p₀ (reconcileOrder ctx db order).1 := by
  have hrow := List.mem_filter.mp ((Arrangement.mem_arrange _).mp hstale)
  have hwaiting : order.status = .SUBMITTED ∧ order.createdAt ≤ ctx.now - ctx.staleAfter := by
    simpa using hrow.2
  obtain ⟨p, hid, hbook, hopen⟩ := h
  cases reconcileOrder_reconciled ctx db order with
  | alerted hsame => exact DuringPass.of_sameBook ⟨p, hid, hbook, hopen⟩ hsame
  | entered openRate amount hside horders hpositions _ hnextId =>
    have hsymbol : order.symbol ≠ pair :=
      fun hsymbol => h₀.buys order hrow.1 hside hsymbol hwaiting.1
    refine ⟨p, hid, entered_tradeBook hbook hsymbol horders hpositions hnextId, fun hstatus => ?_⟩
    refine ⟨(hopen hstatus).1, fun o ho hexit hsubmitted => ?_⟩
    rw [horders] at ho
    exact (hopen hstatus).2 o (waiting_of_fill ho hsubmitted).1 hexit hsubmitted
  | exited position trade closeRate amount trade' htrade' hreports hside hmem hlinked horders
      hpositions _ hnextId =>
    by_cases hsame : position.id = p.id
    · have hposition : position = p := position_ext hbook.keyed hmem hbook.row hsame
      subst hposition
      refine ⟨closeByTrade ctx trade closeRate position, hid,
        exited_tradeBook hbook hlinked horders hpositions hnextId ?_, fun hstatus => by
          cases hstatus⟩
      -- the order is the exit order the position was linked to when the pass began
      intro hstatus o ho hexit hsubmitted
      obtain ⟨rfl, honly⟩ := hopen hstatus
      obtain ⟨exit, hexitMem, hexitId, hown⟩ := h₀.link hstatus order.id hlinked
      cases order_ext h₀.keyed hexitMem hrow.1 hexitId
      have hsettled : SettledBy ctx tradeId position order := by
        refine ⟨hwaiting.2, hlinked, ?_⟩
        rw [← Option.some.inj (htrade'.symm.trans hown.2.2)]
        exact hreports
      have hcloses : PassCloses ctx tradeId pair db₀ position :=
        Or.inr ⟨order, hrow.1, hown, hwaiting.1, hsettled⟩
      have hlink := (hsettles hstatus hcloses o (honly o ho hexit hsubmitted) hexit
        hsubmitted).2.1
      exact Option.some.inj (hlink.symm.trans hlinked)
    · refine ⟨p, hid, exitedOther_tradeBook hbook hmem hsame horders hpositions hnextId,
        fun hstatus => ⟨(hopen hstatus).1, fun o ho hexit hsubmitted => ?_⟩⟩
      rw [horders] at ho
      exact (hopen hstatus).2 o (waiting_of_fill ho hsubmitted).1 hexit hsubmitted

/-- A round of the first loop reopens no position. -/
theorem shut_of_reconciled {order : Order} {db' : Database} {id : Uuid} (hid : id < db.nextId)
    (hround : OrderReconciled ctx db order db') (h : Shut id db) : Shut id db' := by
  intro q hq hrow
  cases hround with
  | alerted hsame =>
    rw [hsame.positions] at hq
    exact h q hq hrow
  | entered _ _ _ _ hpositions _ _ =>
    rcases hpositions with hpositions | ⟨position, _, hopened, hpositions⟩
    · rw [hpositions] at hq
      exact h q hq hrow
    · rw [hpositions] at hq
      rcases List.mem_append.mp hq with hq | hq
      · exact h q hq hrow
      · rw [List.mem_singleton.mp hq, hopened.id] at hrow
        exact absurd hid (hrow ▸ Nat.lt_irrefl _)
  | exited _ _ _ _ _ _ _ _ _ _ _ hpositions _ _ =>
    rw [hpositions] at hq
    rcases mem_modifyRow.mp hq with ⟨hq, _⟩ | ⟨_, _, _, rfl⟩
    · exact h q hq hrow
    · rfl

/-- A round over an exit order the pass settles leaves the position closed. -/
theorem reconcileOrder_shuts {order : Order} (hexit : IsExit tradeId pair order)
    (hsettled : SettledBy ctx tradeId p₀ order) (h : DuringPass tradeId pair db₀ p₀ db)
    (h' : DuringPass tradeId pair db₀ p₀ (reconcileOrder ctx db order).1) :
    Shut p₀.id (reconcileOrder ctx db order).1 := by
  obtain ⟨p, hid, hbook, hopen⟩ := h
  obtain ⟨_, _, hbook', _⟩ := h'
  cases hstatus : p.status with
  | CLOSED =>
    have hlt : p₀.id < db.nextId := hid ▸ hbook.keyed.positions_lt p hbook.row
    refine shut_of_reconciled hlt (reconcileOrder_reconciled ctx db order) fun q hq hrow => ?_
    rw [position_ext hbook.keyed hq hbook.row (hrow.trans hid.symm)]
    exact hstatus
  | OPEN =>
    obtain ⟨rfl, _⟩ := hopen hstatus
    obtain ⟨position, hmem, hlinked, closed, hclosedMem, hclosedId, hclosed⟩ :=
      reconcileOrder_closes hexit.1 hexit.2.2 hsettled.2.2 ⟨p, hbook.row, hsettled.2.1⟩
    obtain ⟨exit, hexitMem, hexitId, hown⟩ := hbook.link hstatus order.id hsettled.2.1
    have hrow : position = p := hbook.row_of_linked hmem hexitMem hown (by rw [hlinked, hexitId])
    intro q hq hqid
    rw [position_ext hbook'.keyed hq hclosedMem (by rw [hqid, hclosedId, hrow])]
    exact hclosed

/-- **The first loop.**  If the position is still open when it ends, it settled no exit
order. -/
theorem reconcileOrders_duringPass (h₀ : TradeBook tradeId pair db₀ p₀)
    (hsettles : p₀.status = .OPEN → PassCloses ctx tradeId pair db₀ p₀ →
      ∀ o ∈ db₀.orders, IsExit tradeId pair o → o.status = .SUBMITTED →
        SettledBy ctx tradeId p₀ o) :
    DuringPass tradeId pair db₀ p₀
        (reconcileEach (reconcileOrder ctx) db₀ (staleOrders ctx db₀)).1 ∧
      ∀ o ∈ staleOrders ctx db₀, IsExit tradeId pair o → SettledBy ctx tradeId p₀ o →
        Shut p₀.id (reconcileEach (reconcileOrder ctx) db₀ (staleOrders ctx db₀)).1 := by
  have hkeep : ∀ db, ∀ o ∈ staleOrders ctx db₀, DuringPass tradeId pair db₀ p₀ db →
      DuringPass tradeId pair db₀ p₀ (reconcileOrder ctx db o).1 :=
    fun db o ho h => reconcileOrder_duringPass h₀ hsettles ho h
  refine ⟨reconcileEach_inv _ hkeep h₀.duringPass, ?_⟩
  rw [reconcileEach_runFrom]
  refine @runFrom_marks Database Order _ (DuringPass tradeId pair db₀ p₀)
    (fun o db => IsExit tradeId pair o → SettledBy ctx tradeId p₀ o → Shut p₀.id db)
    (staleOrders ctx db₀) hkeep ?_ ?_ _ h₀.duringPass
  · intro db o ho h hexit hsettled
    exact reconcileOrder_shuts hexit hsettled h (hkeep db o ho h)
  · intro db o _ j h hshut hexit hsettled
    obtain ⟨p, hid, hbook, _⟩ := h
    exact shut_of_reconciled (hid ▸ hbook.keyed.positions_lt p hbook.row)
      (reconcileOrder_reconciled ctx db o) (hshut hexit hsettled)

/-- The position is closed by a synthetic exit order, no other exit order waiting. -/
theorem closed_tradeBook {exit : Order} {db' : Database} (h : TradeBook tradeId pair db p)
    (hid : exit.id = db.nextId) (hside : exit.side = .SELL) (hfilled : exit.status = .FILLED)
    (hsome : exit.freqtradeTradeId ≠ none) {trade : FreqtradeTrade} {closeRate : ℚ}
    (horders : db'.orders = db.orders ++ [exit])
    (hpositions : db'.positions = modifyRow Position.id p.id
      (fun p => closeByTrade ctx trade closeRate { p with exitOrderId := some exit.id })
      db.positions)
    (hnextId : db.nextId < db'.nextId)
    (hnone : p.status = .OPEN → ∀ o ∈ db.orders, IsExit tradeId pair o →
      o.status ≠ .SUBMITTED) :
    TradeBook tradeId pair db'
      (closeByTrade ctx trade closeRate { p with exitOrderId := some exit.id }) := by
  have hmem : exit ∈ db.orders ++ [exit] :=
    List.mem_append_right _ (List.mem_singleton_self _)
  refine (h.insertFilled hid hside hfilled hsome).writeRow horders hpositions hnextId
    (fun _ => rfl) rfl rfl ?_ (fun hopen => by cases hopen)
    fun _ => ⟨?_, exit, hmem, rfl, hside, hfilled⟩
  · intro e he
    cases he
    rw [hid]
    exact Nat.lt_succ_self _
  · intro o ho hsell htrade hwaiting
    have hold : o ∈ db.orders := waiting_of_append hfilled ho hwaiting
    cases hstatus : p.status with
    | CLOSED => exact (h.settled hstatus).1 o hold hsell htrade hwaiting
    | OPEN =>
      exact hnone hstatus o hold ⟨hsell, h.exits o hold hsell htrade hwaiting, htrade⟩ hwaiting

/-- Another position is closed by a synthetic exit order, which is on another pair. -/
theorem closedOther_tradeBook {exit : Order} {position : Position} {db' : Database}
    (h : TradeBook tradeId pair db p) (hne : position.id ≠ p.id) (hother : exit.symbol ≠ pair)
    (hid : exit.id = db.nextId) (hside : exit.side = .SELL) (hfilled : exit.status = .FILLED)
    (hsome : exit.freqtradeTradeId ≠ none) {trade : FreqtradeTrade} {closeRate : ℚ}
    (horders : db'.orders = db.orders ++ [exit])
    (hpositions : db'.positions = modifyRow Position.id position.id
      (fun p => closeByTrade ctx trade closeRate { p with exitOrderId := some exit.id })
      db.positions)
    (hnextId : db.nextId < db'.nextId) : TradeBook tradeId pair db' p := by
  have hinserted := h.insertFilled hid hside hfilled hsome
  have hmem : exit ∈ db.orders ++ [exit] :=
    List.mem_append_right _ (List.mem_singleton_self _)
  refine hinserted.closeOther horders hpositions hnextId hne.symm (fun _ => rfl) (fun _ => rfl) ?_
  intro q _ _ e he
  cases he
  refine ⟨?_, fun o ho hown heq => ?_⟩
  · rw [hid]
    exact Nat.lt_succ_self _
  · cases order_ext hinserted.keyed hmem ho heq
    exact hother hown.2.1

/-- The lookup made for the row of the trade's position is about the trade. -/
theorem reportsClosed_of_row (h : TradeBook tradeId pair db p) {row : Position × Order}
    (hrow : row ∈ trackedPositions ctx db) (hposition : row.1 = p) {trade' : ℤ}
    (htrade' : row.2.freqtradeTradeId = some trade')
    (hreports : ReportsClosed ctx row.1.id trade' row.1.symbol) :
    ReportsClosed ctx p.id tradeId pair := by
  obtain ⟨_, hentryMem, hentryId, _⟩ := mem_trackedPositions.mp hrow
  obtain ⟨entry, hentry, hentryRow, _, hentryTrade⟩ := h.entry
  have hsameEntry : row.2 = entry :=
    order_ext h.keyed hentryMem hentry (by rw [hentryRow, ← hposition, hentryId])
  have hsameTrade : trade' = tradeId := by
    rw [← hsameEntry, htrade'] at hentryTrade
    exact Option.some.inj hentryTrade
  rw [← h.symbol, ← hposition, ← hsameTrade]
  exact hreports

/-- **A round of the second loop.**  The position it closes was open when the loop began; if
it is the trade's, no exit order waits. -/
theorem reconcilePosition_duringPass (h₀ : TradeBook tradeId pair db₀ p₀)
    (hnone : p₀.status = .OPEN → ReportsClosed ctx p₀.id tradeId pair →
      ∀ o ∈ db₀.orders, IsExit tradeId pair o → o.status ≠ .SUBMITTED)
    {row : Position × Order} (hrow : row ∈ trackedPositions ctx db₀)
    (h : DuringPass tradeId pair db₀ p₀ db) :
    DuringPass tradeId pair db₀ p₀ (reconcilePosition ctx db row).1 := by
  obtain ⟨hpositionMem, _, _, hpositionOpen, _⟩ := mem_trackedPositions.mp hrow
  obtain ⟨p, hid, hbook, hopen⟩ := h
  cases reconcilePosition_reconciled ctx db row with
  | alerted hsame => exact DuringPass.of_sameBook ⟨p, hid, hbook, hopen⟩ hsame
  | closed exit trade closeRate trade' htrade' hreports hexitId hside hfilled hsymbol hsome
      horders hpositions _ hnextId =>
    by_cases hsame : row.1.id = p.id
    · have hposition : row.1 = p₀ :=
        position_ext h₀.keyed hpositionMem h₀.row (hsame.trans hid)
      rw [hsame] at hpositions
      refine ⟨closeByTrade ctx trade closeRate { p with exitOrderId := some exit.id }, hid,
        closed_tradeBook hbook hexitId hside hfilled hsome horders hpositions hnextId ?_,
        fun hstatus => by cases hstatus⟩
      intro hstatus o ho hown hwaiting
      obtain ⟨rfl, honly⟩ := hopen hstatus
      exact hnone hstatus (reportsClosed_of_row h₀ hrow hposition htrade' hreports) o
        (honly o ho hown hwaiting) hown hwaiting
    · have hother : row.1.symbol ≠ pair := fun hpair =>
        hsame ((congrArg Position.id
          (h₀.alone row.1 hpositionMem hpositionOpen hpair)).trans hid.symm)
      refine ⟨p, hid, closedOther_tradeBook hbook hsame (hsymbol ▸ hother) hexitId hside hfilled
        hsome horders hpositions hnextId, fun hstatus => ⟨(hopen hstatus).1, ?_⟩⟩
      intro o ho hown hwaiting
      rw [horders] at ho
      exact (hopen hstatus).2 o (waiting_of_append hfilled ho hwaiting) hown hwaiting

/-- **A pass** that settles every exit order when it closes the position leaves a book
around the trade. -/
theorem reconcile_tradeBook (h : TradeBook tradeId pair db p)
    (hsettles : p.status = .OPEN → PassCloses ctx tradeId pair db p →
      ∀ o ∈ db.orders, IsExit tradeId pair o → o.status = .SUBMITTED →
        SettledBy ctx tradeId p o) :
    ∃ p', p'.id = p.id ∧
      TradeBook tradeId pair (reconcileSubmittedOrders ctx db).1 p' := by
  obtain ⟨⟨p₁, hid₁, h₁, hopen₁⟩, hshut⟩ := reconcileOrders_duringPass h hsettles
  have hnone : p₁.status = .OPEN → ReportsClosed ctx p₁.id tradeId pair →
      ∀ o ∈ (reconcileEach (reconcileOrder ctx) db (staleOrders ctx db)).1.orders,
        IsExit tradeId pair o → o.status ≠ .SUBMITTED := by
    intro hstatus hreports o ho hown hwaiting
    obtain ⟨rfl, honly⟩ := hopen₁ hstatus
    have hmem : o ∈ db.orders := honly o ho hown hwaiting
    have hsettled : SettledBy ctx tradeId p₁ o :=
      hsettles hstatus (Or.inl hreports) o hmem hown hwaiting
    -- so the first loop went over it and closed the position
    have hstale : o ∈ staleOrders ctx db := mem_staleOrders.mpr ⟨hmem, hwaiting, hsettled.1⟩
    have hclosed := hshut o hstale hown hsettled p₁ h₁.row rfl
    rw [hstatus] at hclosed
    cases hclosed
  have hpass : DuringPass tradeId pair
      (reconcileEach (reconcileOrder ctx) db (staleOrders ctx db)).1 p₁
      (reconcileSubmittedOrders ctx db).1 :=
    reconcileEach_inv _ (fun _ row hrow hdb => reconcilePosition_duringPass h₁ hnone hrow hdb)
      h₁.duringPass
  obtain ⟨p₂, hid₂, h₂, _⟩ := hpass
  exact ⟨p₂, hid₂.trans hid₁, h₂⟩

end Pass

/-! ## Histories -/

/-- **A step** about the trade that settles its exits leaves a book around it. -/
theorem step_tradeBook {s : Step} (h : TradeBook tradeId pair w.db p)
    (habout : AboutTrade tradeId pair w s) (hsettles : SettlesExits tradeId pair p.id w s) :
    ∃ p', p'.id = p.id ∧ TradeBook tradeId pair (step w s).db p' := by
  cases s with
  | signal d => exact signal_tradeBook h habout
  | webhook ctx payload =>
    obtain ⟨hevent, rfl, rfl⟩ := habout
    by_cases hauth : Authenticated ctx payload
    · have hdb : (step w (.webhook ctx payload)).db = handleExitFill ctx w.db payload := by
        simp [step, freqtradeWebhook_of_authenticated hauth, hevent]
      rw [hdb]
      exact exitFill_tradeBook h (hsettles hauth)
    · have hdb : (step w (.webhook ctx payload)).db = w.db := by
        simp [step, freqtradeWebhook_of_not_authenticated hauth]
      rw [hdb]
      exact ⟨p, rfl, h⟩
  | reconcile ctx => exact reconcile_tradeBook h (hsettles p h.row rfl)

/-- Over every history of steps about an open trade that settle its exits, the exits of a
closed position are settled. -/
theorem exits_settle (tradeId : ℤ) (pair : Symbol) (p₀ : Position) (w : World)
    (hw : Reachable step
      (fun w s => AboutTrade tradeId pair w s ∧ SettlesExits tradeId pair p₀.id w s)
      (fun w => TradeBook tradeId pair w.db p₀ ∧ p₀.status = .OPEN) w) :
    ∀ p ∈ w.db.positions, p.id = p₀.id → p.status = .CLOSED → Settled tradeId w.db p := by
  have hbook : ∃ p, p.id = p₀.id ∧ TradeBook tradeId pair w.db p := by
    refine @Reachable.inv World Step step _ _
      (fun w => ∃ p, p.id = p₀.id ∧ TradeBook tradeId pair w.db p) ?_ ?_ w hw
    · exact fun w h => ⟨p₀, rfl, h.1⟩
    · rintro w s ⟨p, hid, hp⟩ ⟨habout, hsettles⟩
      obtain ⟨p', hid', hp'⟩ := step_tradeBook hp habout (hid ▸ hsettles)
      exact ⟨p', hid'.trans hid, hp'⟩
  obtain ⟨p, hid, hp⟩ := hbook
  intro q hq hqid hclosed
  have hrow : q = p := position_ext hp.keyed hq hp.row (hqid.trans hid.symm)
  subst hrow
  exact hp.settled hclosed

/-! ## Trade 7 and its exits -/

/-- A SELL signal on BTC. -/
def btcSell (id : Uuid) : Signal :=
  { btcBuy with
    id
    traceId := id
    action := .SELL }

/-- The delivery of a SELL signal while Freqtrade still has trade 7 open. -/
def exitDelivery (signalId : Uuid) (now : Time) : Delivery :=
  { cleanDelivery signalId now with getTrade := some btcTrade.openTrade }

/-- The position of trade 7. -/
def btcPosition : Position :=
  { id := 4
    symbol := "BTC/USDT"
    status := .OPEN
    entryOrderId := 2
    entryPrice := 100
    amount := 1 / 2
    openedAt := minutes 2 }

/-- Trade 7 bought and filled, with two SELL signals to come. -/
def btcHeld : World :=
  runFrom step { db := { signals := [btcBuy, btcSell 2, btcSell 3] } }
    [.signal (cleanDelivery 1 0), .webhook (receivedAt (minutes 2)) (btcEntryFill 7)]

/-- The book of `btcHeld` is one around trade 7. -/
theorem btcHeld_tradeBook : TradeBook 7 "BTC/USDT" btcHeld.db btcPosition where
  keyed := ⟨by decide +kernel, by decide +kernel, by decide +kernel, by decide +kernel⟩
  row := by decide +kernel
  symbol := rfl
  entry := by decide +kernel
  alone := by decide +kernel
  buys := by decide +kernel
  sells := by decide +kernel
  exits := by decide +kernel
  link := fun _ e he => by cases he
  others := by decide +kernel
  links_lt := by
    have hnone : ∀ q ∈ btcHeld.db.positions, q.exitOrderId = none := by decide +kernel
    intro q hq e he
    rw [hnone q hq] at he
    cases he
  settled := fun hclosed => by cases hclosed

/-- One SELL signal and the exit fill settle the exit of trade 7. -/
theorem single_exit_settles :
    (∃ p ∈ (runFrom step btcHeld [.signal (exitDelivery 2 (minutes 3)),
        .webhook (receivedAt (minutes 5)) (btcExitFill 7)]).db.positions,
      p.id = 4 ∧ p.status = .CLOSED) ∧
    ∀ p ∈ (runFrom step btcHeld [.signal (exitDelivery 2 (minutes 3)),
        .webhook (receivedAt (minutes 5)) (btcExitFill 7)]).db.positions,
      p.id = 4 → p.status = .CLOSED →
        Settled 7 (runFrom step btcHeld [.signal (exitDelivery 2 (minutes 3)),
          .webhook (receivedAt (minutes 5)) (btcExitFill 7)]).db p := by
  refine ⟨by decide +kernel, exits_settle 7 "BTC/USDT" btcPosition _ ?_⟩
  refine reachable_runFrom (.start _ ⟨btcHeld_tradeBook, rfl⟩) _ ⟨⟨?_, trivial⟩, ⟨?_, ?_⟩, trivial⟩
  · intro signal hsignal
    have hfound : btcHeld.db.getSignal 2 = some (btcSell 2) := by decide +kernel
    cases hfound.symm.trans hsignal
    exact ⟨rfl, rfl⟩
  · exact ⟨rfl, rfl, rfl⟩
  · intro _ _ _
    decide +kernel

/-- Two SELL signals for trade 7, the exit fill, and no further step. -/
def twoExits : List Step :=
  [.signal (exitDelivery 2 (minutes 3)), .signal (exitDelivery 3 (minutes 4)),
    .webhook (receivedAt (minutes 5)) (btcExitFill 7)]

/-- A second SELL signal leaves the order of the first SUBMITTED for good: the position is
not linked to it any more, so no later pass settles it. -/
theorem repeated_exit_left_submitted :
    ¬ ∀ (tradeId : ℤ) (pair : Symbol) (p₀ : Position) (w : World),
      Reachable step (AboutTrade tradeId pair)
          (fun w => TradeBook tradeId pair w.db p₀ ∧ p₀.status = .OPEN) w →
        (∃ p ∈ w.db.positions, p.id = p₀.id ∧ p.status = .CLOSED) →
          ∀ (ctx : ReconcileContext) (trade : FreqtradeTrade),
            (∀ o ∈ w.db.orders, o.createdAt ≤ ctx.now - ctx.staleAfter) →
            (∀ row, ctx.getTrade row tradeId = some trade) → trade.isOpen = false →
              ∀ p ∈ (step w (.reconcile ctx)).db.positions, p.id = p₀.id →
                Settled tradeId (step w (.reconcile ctx)).db p := by
  intro h
  have hreached : Reachable step (AboutTrade 7 "BTC/USDT")
      (fun w => TradeBook 7 "BTC/USDT" w.db btcPosition ∧ btcPosition.status = .OPEN)
      (runFrom step btcHeld twoExits) := by
    refine reachable_runFrom (.start _ ⟨btcHeld_tradeBook, rfl⟩) twoExits
      ⟨?_, ?_, ⟨rfl, rfl, rfl⟩, trivial⟩
    · intro signal hsignal
      have hfound : btcHeld.db.getSignal 2 = some (btcSell 2) := by decide +kernel
      cases hfound.symm.trans hsignal
      exact ⟨rfl, rfl⟩
    · intro signal hsignal
      have hfound : (step btcHeld (.signal (exitDelivery 2 (minutes 3)))).db.getSignal 3 =
          some (btcSell 3) := by decide +kernel
      cases hfound.symm.trans hsignal
      exact ⟨rfl, rfl⟩
  have hsettled := h 7 "BTC/USDT" btcPosition _ hreached (by decide +kernel)
    (passAt (minutes 30) btcTrade.closedTrade) btcTrade.closedTrade (by decide +kernel)
    (fun _ => rfl) rfl
  have hleft : ∃ p ∈ (step (runFrom step btcHeld twoExits)
      (.reconcile (passAt (minutes 30) btcTrade.closedTrade))).db.positions, p.id = 4 ∧
        ¬ Settled 7 (step (runFrom step btcHeld twoExits)
          (.reconcile (passAt (minutes 30) btcTrade.closedTrade))).db p := by
    decide +kernel
  obtain ⟨p, hp, hid, hunsettled⟩ := hleft
  exact hunsettled (hsettled p hp hid)

end TradeMind.Analysis
