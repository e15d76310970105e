import TradeMind.Analysis.Ledger
import TradeMind.Analysis.WebhookEffects

/-!
# Which position an exit fill closes

`_handle_exit_fill` knows the trade of a fill, finds or makes its SELL order, and then
looks the position up again: by the order it is linked to, else any OPEN position on the
pair.  Neither lookup asks for the trade.  A fill that meets `ClosesOwn` writes rows of its
own trade only, in every state that signals and webhook requests reach (`Book`); over
histories in which every exit fill meets it, no other fill does (`Ledger`).
-/

set_option autoImplicit false

namespace TradeMind.Analysis

open TradeMind.Library TradeMind.Model

/-- The entry order of the position carries the trade id. -/
def CarriesTrade (db : Database) (p : Position) (tradeId : ℤ) : Prop :=
  ∃ entry, db.getOrder p.entryOrderId = some entry ∧ entry.freqtradeTradeId = some tradeId

/-- Every position row that `db'` does not have any more belongs to the trade. -/
def OwnRowsOnly (db db' : Database) (tradeId : ℤ) : Prop :=
  ∀ p ∈ db.positions, p ∉ db'.positions → CarriesTrade db p tradeId

/-- The fallback of the handler: the first OPEN position on the pair, if there is one, is
of the trade. -/
def FallbackOwn (rows : RowOrder) (db : Database) (tradeId : ℤ) (pair : Symbol) : Prop :=
  ∀ p, rows.positions.first (db.positions.filter fun p => p.symbol = pair ∧ p.status = .OPEN) =
    some p → CarriesTrade db p tradeId

/-- A position is linked to the order. -/
def Linked (db : Database) (order : Order) : Prop :=
  ∃ p ∈ db.positions, p.exitOrderId = some order.id

/-- A complete exit fill either has a SELL order that positions of its trade are linked to,
and no others; or it matches no SELL order and no open position of its trade; or no position
is linked to the order it has, if it has one, and it falls back on a position of its trade. -/
def ClosesOwn (ctx : WebhookContext) (db : Database) (payload : FreqtradeWebhookPayload) :
    Prop :=
  payload.closeRate ≠ none → payload.amount ≠ none →
    (∃ order, (findOrder ctx.rows db payload.tradeId payload.pair .SELL).1 = some order ∧
        Linked db order ∧
        ∀ p ∈ db.positions, p.exitOrderId = some order.id → CarriesTrade db p payload.tradeId) ∨
      ((findOrder ctx.rows db payload.tradeId payload.pair .SELL).1 = none ∧
        autonomousExitMatch ctx.rows db payload.tradeId payload.pair = none) ∨
      ((∀ order, (findOrder ctx.rows db payload.tradeId payload.pair .SELL).1 = some order →
          ¬ Linked db order) ∧
        FallbackOwn ctx.rows db payload.tradeId payload.pair)

variable {ctx : WebhookContext} {db : Database} {payload : FreqtradeWebhookPayload}

/-! ## The ledger through webhook requests -/

theorem findOrder_ledger (h : Ledger db) (rows : RowOrder) (tradeId : ℤ) (pair : Symbol)
    (side : OrderSide) : Ledger (findOrder rows db tradeId pair side).2 := by
  cases findOrder_found rows db tradeId pair side with
  | known _ _ _ _ hfound =>
    rw [hfound]
    exact h
  | backfilled order hmem _ hunmatched hfound =>
    rw [hfound]
    refine h.modifyOrder order.id _ (fun _ => rfl) (fun _ => rfl) ?_
    intro o ho hid hsome
    cases order_ext h.keyed ho hmem hid
    exact absurd hunmatched.2.2.2 hsome
  | missing _ _ hfound =>
    rw [hfound]
    exact h

/-- **An entry fill** keeps the ledger: it opens a position on the BUY order it found. -/
theorem entryFill_ledger (h : Ledger db) : Ledger (handleEntryFill ctx db payload) := by
  cases handleEntryFill_entryFill ctx db payload with
  | ignored _ hignored =>
    rw [hignored]
    exact findOrder_ledger h _ _ _ _
  | filled order db₁ openRate amount hfound _ _ horders hpositions hnextId =>
    have hfoundLedger := findOrder_ledger h ctx.rows payload.tradeId payload.pair .BUY
    have hnext := @findOrder_nextId ctx.rows db payload.tradeId payload.pair .BUY
    have hpos := @findOrder_positions ctx.rows db payload.tradeId payload.pair .BUY
    rw [hfound] at hfoundLedger hnext hpos
    have hfilled : Ledger (db₁.modifyOrder order.id fun o => o.fill amount openRate) :=
      hfoundLedger.modifyOrder order.id _ (fun _ => rfl) (fun _ => rfl) fun _ _ _ _ => rfl
    obtain ⟨hmem, htrade, _, hside⟩ := findOrder_row hfound
    have hopened : (handleEntryFill ctx db payload).positions =
        (db₁.modifyOrder order.id fun o => o.fill amount openRate).positions ++
          [entryFillPosition ctx (db₁.modifyOrder order.id fun o => o.fill amount openRate)
            payload order openRate amount] := by
      rw [hpositions, Database.modifyOrder_positions, hpos]
    refine hfilled.insertPosition (order.fill amount openRate) horders hopened (Nat.le_refl _) ?_
      (mem_modifyRow.mpr (Or.inr ⟨order, hmem, rfl, rfl⟩)) rfl hside ?_ rfl
    · have hid : (entryFillPosition ctx
          (db₁.modifyOrder order.id fun o => o.fill amount openRate) payload order openRate
          amount).id = db.nextId := hnext
      rw [hid, hnextId]
      exact Nat.lt_succ_of_lt (Nat.lt_succ_of_lt (Nat.lt_succ_self _))
    · intro hnone
      exact Option.some_ne_none _ (htrade.symm.trans hnone)

theorem markCancelled_ledger (h : Ledger db) (side : OrderSide) :
    Ledger (markCancelled ctx db payload side) := by
  have hfound := findOrder_ledger h ctx.rows payload.tradeId payload.pair side
  unfold markCancelled
  split
  · rename_i heq
    rw [heq] at hfound
    exact hfound
  · rename_i order db₁ heq
    rw [heq] at hfound
    have hcancelled := hfound.modifyOrder order.id
      (fun o => { o with status := .CANCELLED }) (fun _ => rfl) (fun _ => rfl)
      fun _ _ _ _ => rfl
    exact hcancelled.of_sameBook (SameBook.addAuditEvent _ _ _ _ _)

/-! ## The order and the position of an exit fill -/

/-- The ledger with the order of an exit fill in it. -/
theorem exitOrder_ledger (h : Ledger db) {closeRate amount : ℚ} {order : Order}
    {db₂ : Database}
    (hmade : exitOrder ctx (findOrder ctx.rows db payload.tradeId payload.pair .SELL).2 payload
      closeRate amount (findOrder ctx.rows db payload.tradeId payload.pair .SELL).1 =
        some (order, db₂)) :
    Ledger db₂ ∧ order ∈ db₂.orders ∧ OrdersKept db db₂ := by
  obtain ⟨⟨htrade, _, _⟩, _, ⟨_, hmem, rfl⟩ | ⟨_, _, hid, _, rfl⟩⟩ := exitOrder_made h.sells hmade
  · exact ⟨h, hmem, OrdersKept.append (List.append_nil _).symm⟩
  · refine ⟨h.insertOrder rfl rfl (Nat.le_of_eq hid.symm) ?_ fun _ => ?_,
      List.mem_append_right _ (List.mem_singleton_self _), OrdersKept.append rfl⟩
    · rw [hid]
      exact Nat.lt_succ_self _
    · rw [htrade]
      exact Option.some_ne_none _

/-- A position linked to a row of its ledger is of that row's trade. -/
theorem carriesTrade_of_linked (h : Ledger db) {p : Position} {order : Order} {tradeId : ℤ}
    (hp : p ∈ db.positions) (hlinked : p.exitOrderId = some order.id) (hmem : order ∈ db.orders)
    (htrade : order.freqtradeTradeId = some tradeId) : CarriesTrade db p tradeId := by
  obtain ⟨entry, hentry, hid, _, _⟩ := h.entries p hp
  obtain ⟨exit, hexit, hexitId, _, hsame⟩ := h.exits p hp order.id hlinked
  cases order_ext h.keyed hexit hmem hexitId
  refine ⟨entry, ?_, ?_⟩
  · rw [← hid]
    exact getOrder_of_mem h.keyed hentry
  · rw [← hsame entry hentry hid]
    exact htrade

/-- No position is linked to an order that is not there yet. -/
theorem not_linked_next (h : Ledger db) {p : Position} (hp : p ∈ db.positions) :
    p.exitOrderId ≠ some db.nextId := by
  intro hlinked
  obtain ⟨exit, hexit, hid, _⟩ := h.exits p hp db.nextId hlinked
  exact Nat.lt_irrefl _ (hid ▸ h.keyed.orders_lt exit hexit)

/-- The position an exit fill closes is linked to its order, or none is and it is the first
OPEN one on the pair. -/
theorem exitPosition_cases {orderId : Uuid} {pair : Symbol} {position : Position}
    (h : exitPosition ctx.rows db orderId pair = some position) : position ∈ db.positions ∧
      (position.exitOrderId = some orderId ∨
        ((∀ p ∈ db.positions, p.exitOrderId ≠ some orderId) ∧ position.status = .OPEN ∧
          ctx.rows.positions.first
            (db.positions.filter fun p => p.symbol = pair ∧ p.status = .OPEN) =
              some position)) := by
  unfold exitPosition at h
  split at h
  · rename_i linked hlinked
    cases h
    have hmem := List.mem_filter.mp (Arrangement.first_mem _ hlinked)
    exact ⟨hmem.1, .inl (by simpa using hmem.2)⟩
  · rename_i hnone
    have hempty := List.filter_eq_nil_iff.mp ((Arrangement.first_eq_none _).mp hnone)
    have hmem := List.mem_filter.mp (Arrangement.first_mem _ h)
    have hrow : position.symbol = pair ∧ position.status = .OPEN := by
      simpa using hmem.2
    exact ⟨hmem.1, .inr ⟨fun p hp hlink => hempty p hp (by simpa using hlink), hrow.2, h⟩⟩

/-- The position an exit fill settles, in terms of the rows that the fill started from. -/
theorem settled_cases {closeRate amount : ℚ} {order : Order} {db₂ : Database}
    {position : Position}
    (hmade : exitOrder ctx (findOrder ctx.rows db payload.tradeId payload.pair .SELL).2 payload
      closeRate amount (findOrder ctx.rows db payload.tradeId payload.pair .SELL).1 =
        some (order, db₂))
    (hposition : exitPosition ctx.rows (db₂.modifyOrder order.id fun o => o.fill amount closeRate)
      order.id payload.pair = some position) : position ∈ db.positions ∧
      (position.exitOrderId = some order.id ∨
        ((∀ p ∈ db.positions, p.exitOrderId ≠ some order.id) ∧ position.status = .OPEN ∧
          ctx.rows.positions.first
            (db.positions.filter fun p => p.symbol = payload.pair ∧ p.status = .OPEN) =
              some position)) := by
  have hcases := exitPosition_cases hposition
  rwa [Database.modifyOrder_positions, exitOrder_positions hmade, findOrder_positions] at hcases

section Settled

variable {closeRate amount : ℚ} {order : Order} {db₂ : Database} {position : Position}

/-- A fill that meets the condition closes a position of its trade, where no position is
linked to an order that is not there yet. -/
theorem settled_carries (hfresh : ∀ p ∈ db.positions, p.exitOrderId ≠ some db.nextId)
    (hcloseRate : payload.closeRate = some closeRate) (hamount : payload.amount = some amount)
    (hmade : exitOrder ctx (findOrder ctx.rows db payload.tradeId payload.pair .SELL).2 payload
      closeRate amount (findOrder ctx.rows db payload.tradeId payload.pair .SELL).1 =
        some (order, db₂))
    (hposition : exitPosition ctx.rows (db₂.modifyOrder order.id fun o => o.fill amount closeRate)
      order.id payload.pair = some position)
    (hown : ClosesOwn ctx db payload) : CarriesTrade db position payload.tradeId := by
  obtain ⟨hmem, hcase⟩ := settled_cases hmade hposition
  obtain ⟨-, -, hfound | ⟨hmissing, hmatch, hid, -, -⟩⟩ := exitOrder_row hmade
  · have hfound : (findOrder ctx.rows db payload.tradeId payload.pair .SELL).1 = some order :=
      congrArg Prod.fst hfound
    rcases hown (by simp [hcloseRate]) (by simp [hamount]) with
      ⟨order', hfound', ⟨p, hp, hlink⟩, hlinked⟩ | ⟨hnone, -⟩ | ⟨hunlinked, hfallback⟩
    · cases Option.some.inj (hfound.symm.trans hfound')
      rcases hcase with hposition | ⟨hempty, -, -⟩
      · exact hlinked position hmem hposition
      · exact absurd hlink (hempty p hp)
    · rw [hfound] at hnone
      cases hnone
    · rcases hcase with hposition | ⟨-, -, hfirst⟩
      · exact absurd ⟨position, hmem, hposition⟩ (hunlinked order hfound)
      · exact hfallback position hfirst
  · -- the synthetic order is new, so the fallback is taken
    rcases hcase with hposition | ⟨-, -, hfirst⟩
    · exact absurd (hid ▸ hposition) (hfresh position hmem)
    · rcases hown (by simp [hcloseRate]) (by simp [hamount]) with
        ⟨order', hfound', -⟩ | ⟨-, hnone⟩ | ⟨-, hfallback⟩
      · rw [hmissing] at hfound'
        cases hfound'
      · exact absurd hnone hmatch
      · exact hfallback position hfirst

/-- On a book in order, a fill that closes a position of its trade meets the condition. -/
theorem closesOwn_of_carries (h : Ledger db)
    (hmade : exitOrder ctx (findOrder ctx.rows db payload.tradeId payload.pair .SELL).2 payload
      closeRate amount (findOrder ctx.rows db payload.tradeId payload.pair .SELL).1 =
        some (order, db₂))
    (hposition : exitPosition ctx.rows (db₂.modifyOrder order.id fun o => o.fill amount closeRate)
      order.id payload.pair = some position)
    (hcarries : CarriesTrade db position payload.tradeId) : ClosesOwn ctx db payload := by
  intro _ _
  obtain ⟨hmem, hlink | ⟨hunlinked, -, hfirst⟩⟩ := settled_cases hmade hposition
  · obtain ⟨⟨htrade, -, -⟩, -, ⟨hfound, horder, -⟩ | ⟨-, -, hid, -, -⟩⟩ :=
      exitOrder_made h.sells hmade
    · exact .inl ⟨order, hfound, ⟨position, hmem, hlink⟩,
        fun p hp hlinked => carriesTrade_of_linked h hp hlinked horder htrade⟩
    · exact absurd (hid ▸ hlink) (not_linked_next h hmem)
  · refine .inr (.inr ⟨?_, fun p hp => Option.some.inj (hp.symm.trans hfirst) ▸ hcarries⟩)
    rintro order' hfound' ⟨p, hp, hlinked⟩
    obtain ⟨-, -, hfound | ⟨hmissing, -⟩⟩ := exitOrder_row hmade
    · have hfound : (findOrder ctx.rows db payload.tradeId payload.pair .SELL).1 = some order :=
        congrArg Prod.fst hfound
      cases Option.some.inj (hfound.symm.trans hfound')
      exact hunlinked p hp hlinked
    · rw [hmissing] at hfound'
      cases hfound'

end Settled

/-- Where the orders are kept, the entry order of a position keeps its trade. -/
theorem trade_of_carries {db' : Database} (hkept : OrdersKept db db') (hkeyed : db'.WellKeyed)
    {p : Position} {tradeId : ℤ} (hcarries : CarriesTrade db p tradeId) :
    ∀ entry ∈ db'.orders, entry.id = p.entryOrderId → entry.freqtradeTradeId = some tradeId := by
  intro entry' hentry' hid'
  obtain ⟨entry, hget, htrade⟩ := hcarries
  obtain ⟨hentry, hid⟩ := mem_of_getOrder hget
  obtain ⟨kept, hkeptMem, hkeptId, _, hkeptTrade⟩ := hkept entry hentry
  have hrow : entry' = kept :=
    order_ext hkeyed hentry' hkeptMem (hid'.trans (hkeptId.trans hid).symm)
  rw [hrow, hkeptTrade (by simp [htrade])]
  exact htrade

/-! ## Exit fills -/

/-- An update of one row of the trade writes no row of another. -/
theorem ownRowsOnly_of_carries {db' : Database} (h : db.WellKeyed) {position : Position}
    {g : Position → Position} {tradeId : ℤ} (hmem : position ∈ db.positions)
    (hpositions : db'.positions = modifyRow Position.id position.id g db.positions)
    (hcarries : CarriesTrade db position tradeId) : OwnRowsOnly db db' tradeId := by
  intro p hp hgone
  by_cases hrow : p.id = position.id
  · rw [position_ext h hp hmem hrow]
    exact hcarries
  · refine absurd ?_ hgone
    rw [hpositions]
    exact mem_modifyRow.mpr (Or.inl ⟨hp, hrow⟩)

/-- An update that changes a row has to be of that row's trade. -/
theorem carries_of_ownRowsOnly {db' : Database} (h : db.WellKeyed) {position : Position}
    {g : Position → Position} {tradeId : ℤ} (hmem : position ∈ db.positions)
    (hpositions : db'.positions = modifyRow Position.id position.id g db.positions)
    (hchanged : g position ≠ position) (hown : OwnRowsOnly db db' tradeId) :
    CarriesTrade db position tradeId := by
  refine hown position hmem fun hkept => ?_
  rw [hpositions] at hkept
  rcases mem_modifyRow.mp hkept with ⟨_, hne⟩ | ⟨q, hq, hrow, heq⟩
  · exact hne rfl
  · rw [position_ext h hq hmem hrow] at heq
    exact hchanged heq

/-- Nothing is written where the positions are the same. -/
theorem ownRowsOnly_of_positions {db' : Database} {tradeId : ℤ}
    (h : db'.positions = db.positions) : OwnRowsOnly db db' tradeId :=
  fun _ hp hgone => absurd (h ▸ hp) hgone

/-- **An exit fill that meets the condition** writes no row of another trade. -/
theorem exitFill_ownRows (hkeyed : db.WellKeyed)
    (hfresh : ∀ p ∈ db.positions, p.exitOrderId ≠ some db.nextId)
    (hown : ClosesOwn ctx db payload) :
    OwnRowsOnly db (handleExitFill ctx db payload) payload.tradeId := by
  cases handleExitFill_exitFill ctx db payload with
  | ignored _ hignored => exact ownRowsOnly_of_positions (by rw [hignored, findOrder_positions])
  | untracked _ _ huntracked => exact ownRowsOnly_of_positions (by rw [huntracked])
  | unlinked closeRate amount order db₂ _ _ horder _ hunlinked =>
    refine ownRowsOnly_of_positions ?_
    rw [hunlinked, Database.modifyOrder_positions, exitOrder_positions horder,
      findOrder_positions]
  | settled closeRate amount order db₂ position hcloseRate hamount horder hposition hsettled =>
    obtain ⟨hmem, -⟩ := settled_cases horder hposition
    obtain ⟨rMultiple, fees, hclosed⟩ := settleExit_positions ctx
      (db₂.modifyOrder order.id fun o => o.fill amount closeRate) payload order position
      closeRate amount
    rw [Database.modifyOrder_positions, exitOrder_positions horder, findOrder_positions] at hclosed
    rw [hsettled]
    exact ownRowsOnly_of_carries hkeyed hmem hclosed
      (settled_carries hfresh hcloseRate hamount horder hposition hown)

/-- **An exit fill** on a book in order writes no row of another trade if and only if it
meets the condition. -/
theorem exitFill_ownRows_iff (h : Ledger db) :
    OwnRowsOnly db (handleExitFill ctx db payload) payload.tradeId ↔
      ClosesOwn ctx db payload := by
  refine ⟨fun hrows => ?_, exitFill_ownRows h.keyed fun p hp => not_linked_next h hp⟩
  cases handleExitFill_exitFill ctx db payload with
  | ignored hwhy _ =>
    intro hcloseRate hamount
    exact (hwhy.elim hcloseRate hamount).elim
  | untracked hfound hmatch _ => exact fun _ _ => .inr (.inl ⟨hfound, hmatch⟩)
  | unlinked closeRate amount order db₂ _ _ horder hposition _ =>
    -- there is no position to fall back on
    unfold exitPosition at hposition
    rw [Database.modifyOrder_positions, (exitOrder_made h.sells horder).2.1] at hposition
    split at hposition
    · cases hposition
    · rename_i hnone
      have hempty := List.filter_eq_nil_iff.mp ((Arrangement.first_eq_none _).mp hnone)
      intro _ _
      refine .inr (.inr ⟨?_, fun p hp => ?_⟩)
      · rintro order' hfound' ⟨p, hp, hlinked⟩
        obtain ⟨-, -, ⟨hfound, -, -⟩ | ⟨hmissing, -⟩⟩ := exitOrder_made h.sells horder
        · cases Option.some.inj (hfound.symm.trans hfound')
          exact hempty p hp (by simpa using hlinked)
        · rw [hmissing] at hfound'
          cases hfound'
      · rw [hposition] at hp
        cases hp
  | settled closeRate amount order db₂ position hcloseRate hamount horder hposition hsettled =>
    refine closesOwn_of_carries h horder hposition ?_
    obtain ⟨hmem, hlink | ⟨-, hopen, -⟩⟩ := settled_cases horder hposition
    · obtain ⟨⟨htrade, -, -⟩, -, ⟨-, hordered, -⟩ | ⟨-, -, hid, -, -⟩⟩ :=
        exitOrder_made h.sells horder
      · exact carriesTrade_of_linked h hmem hlink hordered htrade
      · exact absurd (hid ▸ hlink) (not_linked_next h hmem)
    · -- the open position it closes is a row that changes
      obtain ⟨rMultiple, fees, hclosed⟩ := settleExit_positions ctx
        (db₂.modifyOrder order.id fun o => o.fill amount closeRate) payload order position
        closeRate amount
      rw [Database.modifyOrder_positions, (exitOrder_made h.sells horder).2.1] at hclosed
      rw [hsettled] at hrows
      have hchanged : closeByFill ctx payload order.id closeRate rMultiple fees position ≠
          position := by
        intro heq
        have hstatus := congrArg Position.status heq
        rw [hopen] at hstatus
        cases hstatus
      exact carries_of_ownRowsOnly h.keyed hmem hclosed hchanged hrows

/-- **An exit fill** that closes its own keeps the ledger. -/
theorem exitFill_ledger (h : Ledger db) (hown : ClosesOwn ctx db payload) :
    Ledger (handleExitFill ctx db payload) := by
  cases handleExitFill_exitFill ctx db payload with
  | ignored _ hignored =>
    rw [hignored]
    exact findOrder_ledger h _ _ _ _
  | untracked _ _ huntracked =>
    rw [huntracked]
    exact h
  | unlinked closeRate amount order db₂ _ _ horder _ hunlinked =>
    rw [hunlinked]
    exact (exitOrder_ledger h horder).1.modifyOrder order.id _ (fun _ => rfl) (fun _ => rfl)
      fun _ _ _ _ => rfl
  | settled closeRate amount order db₂ position hcloseRate hamount horder hposition hsettled =>
    obtain ⟨hmem, -⟩ := settled_cases horder hposition
    obtain ⟨⟨htrade, _, hside⟩, hpositions, _⟩ := exitOrder_made h.sells horder
    obtain ⟨hmade, horderMem, hkept⟩ := exitOrder_ledger h horder
    have hcarries := settled_carries (fun p hp => not_linked_next h hp) hcloseRate hamount horder
      hposition hown
    have hfilled := hmade.modifyOrder order.id (fun o => o.fill amount closeRate) (fun _ => rfl)
      (fun _ => rfl) fun _ _ _ _ => rfl
    have hkept' : OrdersKept db (db₂.modifyOrder order.id fun o => o.fill amount closeRate) :=
      hkept.trans (OrdersKept.modify rfl (fun _ => rfl) (fun _ => rfl) fun _ _ _ _ => rfl)
    obtain ⟨rMultiple, fees, hclosed⟩ := settleExit_positions ctx
      (db₂.modifyOrder order.id fun o => o.fill amount closeRate) payload order position
      closeRate amount
    rw [hsettled]
    refine hfilled.linkExit (order.fill amount closeRate) rfl hclosed
      (Nat.le_succ_of_le (Nat.le_succ _)) (fun _ => rfl) (fun _ => rfl) (fun _ => rfl)
      (mem_modifyRow.mpr (Or.inr ⟨order, horderMem, rfl, rfl⟩)) hside ?_
    intro p hp hid entry hentry hentryId
    rw [Database.modifyOrder_positions, hpositions] at hp
    rw [position_ext h.keyed hp hmem hid] at hentryId
    rw [trade_of_carries hkept' hfilled.keyed hcarries entry hentry hentryId]
    exact htrade

/-! ## The keys through any step -/

/-- The keys are in order, and the exit orders of the positions have ids handed out. -/
structure Book (db : Database) : Prop where
  keyed : db.WellKeyed
  exits_lt : ∀ p ∈ db.positions, ∀ e, p.exitOrderId = some e → e < db.nextId

/-- No position of a book is linked to an order that is not there yet. -/
theorem Book.fresh (h : Book db) : ∀ p ∈ db.positions, p.exitOrderId ≠ some db.nextId :=
  fun p hp hlink => Nat.lt_irrefl _ (h.exits_lt p hp _ hlink)

/-- What a step may do to the exit links of the positions: it keeps them, leaves them empty or
makes them to an order of the table. -/
theorem Book.next {db' : Database} (h : Book db) (hkeyed : db'.WellKeyed)
    (hnextId : db.nextId ≤ db'.nextId)
    (hlinks : ∀ p ∈ db'.positions, p.exitOrderId = none ∨
      (∃ q ∈ db.positions, q.exitOrderId = p.exitOrderId) ∨
      ∃ o ∈ db'.orders, p.exitOrderId = some o.id) : Book db' where
  keyed := hkeyed
  exits_lt := by
    intro p hp e he
    rcases hlinks p hp with hnone | ⟨q, hq, hsame⟩ | ⟨o, ho, hlink⟩
    · rw [hnone] at he
      cases he
    · exact Nat.lt_of_lt_of_le (h.exits_lt q hq e (hsame.trans he)) hnextId
    · rw [hlink] at he
      exact Option.some.inj he ▸ hkeyed.orders_lt o ho

theorem Book.of_positions {db' : Database} (h : Book db) (hkeyed : db'.WellKeyed)
    (hnextId : db.nextId ≤ db'.nextId) (hpositions : db'.positions = db.positions) : Book db' :=
  h.next hkeyed hnextId fun p hp => .inr (.inl ⟨p, hpositions ▸ hp, rfl⟩)

/-- An update of an order that keeps its id. -/
theorem Book.modifyOrder (h : Book db) (id : Uuid) {f : Order → Order}
    (hid : ∀ o, (f o).id = o.id) : Book (db.modifyOrder id f) :=
  h.of_positions (wellKeyed_of_keys h.keyed (map_modifyRow Order.id fun o _ _ => hid o) rfl
    (Nat.le_refl _)) (Nat.le_refl _) rfl

theorem signal_book {w : World} (d : Delivery) (h : Book w.db) :
    Book (processSignal w d).world.db := by
  cases processSignal_effect w d with
  | quiet _ hbook _ _ =>
    exact h.of_positions (wellKeyed_of_keys h.keyed (by rw [hbook.orders])
      (by rw [hbook.positions]) hbook.nextId) hbook.nextId hbook.positions
  | entry signal _ _ _ _ hbook =>
    rcases hbook with hdb | ⟨_, order, _, _, hentered⟩
    · rwa [hdb]
    · exact h.of_positions (wellKeyed_insertOrder h.keyed hentered.orders hentered.positions
        hentered.le_id hentered.id_lt) (hentered.le_id.trans hentered.id_lt.le)
        hentered.positions
  | exit signal _ _ _ _ hbook =>
    rcases hbook with hdb | ⟨_, _, _, hquiet | ⟨order, position, hexited⟩⟩
    · rwa [hdb]
    · exact h.of_positions (wellKeyed_of_keys h.keyed (by rw [hquiet.orders])
        (by rw [hquiet.positions]) hquiet.nextId) hquiet.nextId hquiet.positions
    · have hle := hexited.le_id.trans hexited.id_lt.le
      -- the book with the order inserted, before the position is linked to it
      have hinserted : ({ w.db with
          orders := w.db.orders ++ [order]
          nextId := (processSignal w d).world.db.nextId } : Database).WellKeyed :=
        wellKeyed_insertOrder h.keyed rfl rfl hexited.le_id hexited.id_lt
      rcases hexited.positions with ⟨_, hpositions⟩ | ⟨_, hpositions⟩
      · have hkeyed : (processSignal w d).world.db.WellKeyed :=
          wellKeyed_of_keys hinserted (by rw [hexited.orders])
            (by rw [hpositions]; exact map_modifyRow Position.id fun _ _ _ => rfl)
            (Nat.le_refl _)
        refine h.next hkeyed hle fun p hp => ?_
        rw [hpositions] at hp
        rcases mem_modifyRow.mp hp with ⟨hp, _⟩ | ⟨q, _, _, rfl⟩
        · exact .inr (.inl ⟨p, hp, rfl⟩)
        · refine .inr (.inr ⟨order, ?_, rfl⟩)
          rw [hexited.orders]
          exact List.mem_append_right _ (List.mem_singleton_self _)
      · have hkeyed : (processSignal w d).world.db.WellKeyed :=
          wellKeyed_of_keys hinserted (by rw [hexited.orders]) (by rw [hpositions])
            (Nat.le_refl _)
        exact h.of_positions hkeyed hle hpositions

theorem findOrder_book (h : Book db) (rows : RowOrder) (tradeId : ℤ) (pair : Symbol)
    (side : OrderSide) : Book (findOrder rows db tradeId pair side).2 := by
  cases findOrder_found rows db tradeId pair side with
  | known _ _ _ _ hfound => rwa [hfound]
  | backfilled order _ _ _ hfound =>
    rw [hfound]
    exact h.modifyOrder order.id fun _ => rfl
  | missing _ _ hfound => rwa [hfound]

theorem entryFill_book (h : Book db) : Book (handleEntryFill ctx db payload) := by
  cases handleEntryFill_entryFill ctx db payload with
  | ignored _ hignored =>
    rw [hignored]
    exact findOrder_book h _ _ _ _
  | filled order db₁ openRate amount hfound _ _ horders hpositions hnextId =>
    have hbook := findOrder_book h ctx.rows payload.tradeId payload.pair .BUY
    have hnext := @findOrder_nextId ctx.rows db payload.tradeId payload.pair .BUY
    have hpos := @findOrder_positions ctx.rows db payload.tradeId payload.pair .BUY
    rw [hfound] at hbook hnext hpos
    have hfilled : Book (db₁.modifyOrder order.id fun o => o.fill amount openRate) :=
      hbook.modifyOrder order.id fun _ => rfl
    have hopened : (handleEntryFill ctx db payload).positions =
        (db₁.modifyOrder order.id fun o => o.fill amount openRate).positions ++
          [entryFillPosition ctx (db₁.modifyOrder order.id fun o => o.fill amount openRate)
            payload order openRate amount] := by
      rw [hpositions, Database.modifyOrder_positions, hpos]
    have hlt : (db₁.modifyOrder order.id fun o => o.fill amount openRate).nextId <
        (handleEntryFill ctx db payload).nextId := by
      rw [hnextId, Database.modifyOrder_nextId, hnext]
      exact Nat.lt_add_of_pos_right (Nat.succ_pos 2)
    refine hfilled.next (wellKeyed_insertPosition hfilled.keyed horders hopened (Nat.le_refl _)
      hlt) hlt.le fun p hp => ?_
    rw [hopened] at hp
    rcases List.mem_append.mp hp with hp | hp
    · exact .inr (.inl ⟨p, hp, rfl⟩)
    · exact .inl (List.mem_singleton.mp hp ▸ rfl)

theorem markCancelled_book (h : Book db) (side : OrderSide) :
    Book (markCancelled ctx db payload side) := by
  have hfound := findOrder_book h ctx.rows payload.tradeId payload.pair side
  unfold markCancelled
  split
  · rename_i heq
    rwa [heq] at hfound
  · rename_i order db₁ heq
    rw [heq] at hfound
    have hcancelled := hfound.modifyOrder order.id (f := fun o => { o with status := .CANCELLED })
      fun _ => rfl
    have hsame := SameBook.addAuditEvent (db₁.modifyOrder order.id fun o =>
      { o with status := .CANCELLED }) ctx.startedAt order.traceId .ORDER_CANCELLED
      [("trade_id", PayloadAtom.number payload.tradeId),
        ("pair", PayloadAtom.text payload.pair), ("side", PayloadAtom.side side)]
    exact hcancelled.of_positions (wellKeyed_of_keys hcancelled.keyed (by rw [hsame.orders])
      (by rw [hsame.positions]) hsame.nextId) hsame.nextId hsame.positions

/-- The order of an exit fill keeps it. -/
theorem exitOrder_book (h : Book db) {closeRate amount : ℚ} {order : Order} {db₂ : Database}
    (hmade : exitOrder ctx (findOrder ctx.rows db payload.tradeId payload.pair .SELL).2 payload
      closeRate amount (findOrder ctx.rows db payload.tradeId payload.pair .SELL).1 =
        some (order, db₂)) :
    Book (db₂.modifyOrder order.id fun o => o.fill amount closeRate) ∧ order ∈ db₂.orders := by
  obtain ⟨-, hmem, hlookup | ⟨-, -, hid, -, rfl⟩⟩ := exitOrder_row hmade
  · have hfound := findOrder_book h ctx.rows payload.tradeId payload.pair .SELL
    rw [hlookup] at hfound
    exact ⟨hfound.modifyOrder order.id fun _ => rfl, hmem⟩
  · have hlt : order.id < (db.insertOrder order).nextId := by
      rw [hid]
      exact Nat.lt_succ_self _
    have hinserted : Book (db.insertOrder order) :=
      h.of_positions (wellKeyed_insertOrder h.keyed rfl rfl hid.ge hlt) (hid.ge.trans hlt.le) rfl
    exact ⟨hinserted.modifyOrder order.id fun _ => rfl, hmem⟩

/-- An exit fill keeps it, whichever position it closes. -/
theorem exitFill_book (h : Book db) : Book (handleExitFill ctx db payload) := by
  cases handleExitFill_exitFill ctx db payload with
  | ignored _ hignored =>
    rw [hignored]
    exact findOrder_book h _ _ _ _
  | untracked _ _ huntracked => rwa [huntracked]
  | unlinked closeRate amount order db₂ _ _ horder _ hunlinked =>
    rw [hunlinked]
    exact (exitOrder_book h horder).1
  | settled closeRate amount order db₂ position _ _ horder _ hsettled =>
    obtain ⟨hfilled, hmem⟩ := exitOrder_book h horder
    obtain ⟨rMultiple, fees, hclosed⟩ := settleExit_positions ctx
      (db₂.modifyOrder order.id fun o => o.fill amount closeRate) payload order position
      closeRate amount
    have hle : (db₂.modifyOrder order.id fun o => o.fill amount closeRate).nextId ≤
        (settleExit ctx (db₂.modifyOrder order.id fun o => o.fill amount closeRate) payload order
          position closeRate amount).nextId := Nat.le_succ_of_le (Nat.le_succ _)
    rw [hsettled]
    refine hfilled.next (wellKeyed_of_keys hfilled.keyed rfl
      (by rw [hclosed]; exact map_modifyRow Position.id fun _ _ _ => rfl) hle) hle fun p hp => ?_
    rw [hclosed] at hp
    rcases mem_modifyRow.mp hp with ⟨hp, _⟩ | ⟨q, _, _, rfl⟩
    · exact .inr (.inl ⟨p, hp, rfl⟩)
    · exact .inr (.inr ⟨order.fill amount closeRate,
        mem_modifyRow.mpr (.inr ⟨order, hmem, rfl, rfl⟩), rfl⟩)

/-- **Signals and webhook requests keep the book**, whatever they close. -/
theorem step_book {w : World} {s : Step} (h : Book w.db) (hs : WebhookPath s) :
    Book (step w s).db := by
  cases s with
  | reconcile _ => exact hs.elim
  | signal d => exact signal_book d h
  | webhook ctx payload =>
    by_cases hauth : Authenticated ctx payload
    · simp only [step, freqtradeWebhook_of_authenticated hauth, Option.getD_some]
      cases payload.event with
      | entry_fill => exact entryFill_book h
      | exit_fill => exact exitFill_book h
      | entry_cancel => exact markCancelled_book h .BUY
      | exit_cancel => exact markCancelled_book h .SELL
      | other _ => exact h
    · simp only [step, freqtradeWebhook_of_not_authenticated hauth, Option.getD_none]
      exact h

/-! ## Histories of signals and webhook requests -/

/-- A signal, or a webhook request that closes its own position if it is an authenticated
exit fill. -/
def ClosesOwnStep (w : World) : Step → Prop
  | .signal _ => True
  | .webhook ctx payload =>
    Authenticated ctx payload → payload.event = .exit_fill → ClosesOwn ctx w.db payload
  | .reconcile _ => False

/-- There are no orders and no positions yet. -/
def Blank (w : World) : Prop := w.db.orders = [] ∧ w.db.positions = []

/-- A step that closes its own keeps the ledger. -/
theorem step_ledger {w : World} {s : Step} (h : Ledger w.db) (hs : ClosesOwnStep w s) :
    Ledger (step w s).db := by
  cases s with
  | reconcile _ => exact hs.elim
  | signal d => exact signal_ledger d h
  | webhook ctx payload =>
    by_cases hauth : Authenticated ctx payload
    · simp only [step, freqtradeWebhook_of_authenticated hauth, Option.getD_some]
      cases hevent : payload.event with
      | entry_fill => exact entryFill_ledger h
      | exit_fill => exact exitFill_ledger h (hs hauth hevent)
      | entry_cancel => exact markCancelled_ledger h .BUY
      | exit_cancel => exact markCancelled_ledger h .SELL
      | other _ => exact h
    · simp only [step, freqtradeWebhook_of_not_authenticated hauth, Option.getD_none]
      exact h

/-- **An exit fill closes only its own trade** where it meets the condition, in every state
that signals and webhook requests reach.  And exactly there: over histories in which every
exit fill met it, an `exit_fill` writes no position row of another trade if and only if it
meets it too. -/
theorem exit_fill_own_rows_iff (ctx : WebhookContext) (payload : FreqtradeWebhookPayload)
    (hevent : payload.event = .exit_fill) :
    (∀ w, Reachable step (fun _ s => WebhookPath s) Blank w →
      ClosesOwnStep w (.webhook ctx payload) →
      OwnRowsOnly w.db (step w (.webhook ctx payload)).db payload.tradeId) ∧
    ∀ w, Reachable step ClosesOwnStep Blank w →
      (OwnRowsOnly w.db (step w (.webhook ctx payload)).db payload.tradeId ↔
        ClosesOwnStep w (.webhook ctx payload)) := by
  constructor
  · intro w h hown
    have hblank : ∀ w, Blank w → Book w.db := by
      rintro w ⟨horders, hpositions⟩
      refine ⟨⟨?_, ?_, ?_, ?_⟩, ?_⟩ <;> simp [horders, hpositions]
    have hbook : Book w.db := Reachable.inv hblank (fun _ _ hw hs => step_book hw hs) h
    by_cases hauth : Authenticated ctx payload
    · simp only [step, freqtradeWebhook_of_authenticated hauth, Option.getD_some, hevent]
      exact exitFill_ownRows hbook.keyed hbook.fresh (hown hauth hevent)
    · simp only [step, freqtradeWebhook_of_not_authenticated hauth, Option.getD_none]
      exact ownRowsOnly_of_positions rfl
  · intro w h
    have hblank : ∀ w, Blank w → Ledger w.db := by
      rintro w ⟨horders, hpositions⟩
      refine ⟨⟨?_, ?_, ?_, ?_⟩, ?_, ?_, ?_⟩ <;> simp [horders, hpositions]
    have hledger : Ledger w.db := Reachable.inv hblank (fun _ _ hw hs => step_ledger hw hs) h
    by_cases hauth : Authenticated ctx payload
    · simp only [step, freqtradeWebhook_of_authenticated hauth, Option.getD_some, hevent,
        ClosesOwnStep, hauth, true_implies]
      exact exitFill_ownRows_iff hledger
    · simp only [step, freqtradeWebhook_of_not_authenticated hauth, Option.getD_none,
        ClosesOwnStep, hauth, false_implies, iff_true]
      exact ownRowsOnly_of_positions rfl

/-- An entry and its fill, and then the exit of that trade. -/
theorem single_trade_closes_own :
    OwnRowsOnly (step awaitingFill (.webhook (receivedAt 1) (btcEntryFill 7))).db
        (step (step awaitingFill (.webhook (receivedAt 1) (btcEntryFill 7)))
          (.webhook (receivedAt 2) (btcExitFill 7))).db 7 ↔
      ClosesOwnStep (step awaitingFill (.webhook (receivedAt 1) (btcEntryFill 7)))
        (.webhook (receivedAt 2) (btcExitFill 7)) := by
  have hstart : Reachable step ClosesOwnStep Blank { db := { signals := [btcBuy] } } :=
    .start _ ⟨rfl, rfl⟩
  have hordered : Reachable step ClosesOwnStep Blank
      (step { db := { signals := [btcBuy] } } (.signal (cleanDelivery 1 0))) :=
    .next _ _ hstart trivial
  have hreached : Reachable step ClosesOwnStep Blank
      (step awaitingFill (.webhook (receivedAt 1) (btcEntryFill 7))) := by
    refine .next _ _ hordered ?_
    intro _ hevent
    cases hevent
  exact (exit_fill_own_rows_iff (receivedAt 2) (btcExitFill 7) rfl).2 _ hreached

/-- Two entries on one pair, approved before either is filled, and their fills. -/
def twoOpen : List Step :=
  [.signal (deliveryOpening 1 7), .signal (deliveryOpening 2 8),
    .webhook (receivedAt 1) (btcEntryFill 7), .webhook (receivedAt 1) (btcEntryFill 8)]

/-- With two positions open on one pair, the exit fill of the second trade closes the
position of the first. -/
theorem exit_fill_closes_other_trade :
    ¬ ∀ w : World, Reachable step (fun _ s => WebhookPath s) Blank w →
      ∀ (ctx : WebhookContext) (payload : FreqtradeWebhookPayload),
        payload.event = .exit_fill →
          OwnRowsOnly w.db (step w (.webhook ctx payload)).db payload.tradeId := by
  intro h
  have hreached : Reachable step (fun _ s => WebhookPath s) Blank
      (runFrom step { db := { signals := [btcBuy, { btcBuy with id := 2 }] } } twoOpen) :=
    reachable_runFrom (.start _ ⟨rfl, rfl⟩) twoOpen ⟨trivial, trivial, trivial, trivial, trivial⟩
  have hown := h _ hreached (receivedAt 2) (btcExitFill 8) rfl
  have hwrong : ∃ p ∈ (runFrom step { db := { signals := [btcBuy, { btcBuy with id := 2 }] } }
        twoOpen).db.positions,
      p ∉ (step (runFrom step { db := { signals := [btcBuy, { btcBuy with id := 2 }] } } twoOpen)
        (.webhook (receivedAt 2) (btcExitFill 8))).db.positions ∧
      ((runFrom step { db := { signals := [btcBuy, { btcBuy with id := 2 }] } }
        twoOpen).db.getOrder p.entryOrderId).bind Order.freqtradeTradeId = some 7 := by
    decide +kernel
  obtain ⟨p, hp, hgone, htrade⟩ := hwrong
  obtain ⟨entry, hentry, hcarries⟩ := hown p hp hgone
  rw [hentry, Option.bind_some, hcarries] at htrade
  exact absurd htrade (by decide)

end TradeMind.Analysis
