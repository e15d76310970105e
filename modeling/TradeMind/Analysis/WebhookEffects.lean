import TradeMind.Analysis.SignalEffects

/-!
# What one webhook request does

`Found` lists what `_find_order` can answer, `EntryFill` and `ExitFill` the ways the two
fill handlers can go; each is proved exhaustive once.  The frame lemmas after them say
which tables a handler leaves alone.
-/

set_option autoImplicit false

namespace TradeMind.Analysis

open TradeMind.Library TradeMind.Model

variable {rows : RowOrder} {db : Database} {tradeId : ℤ} {pair : Symbol} {side : OrderSide}
  {ctx : WebhookContext} {payload : FreqtradeWebhookPayload}

/-! ## Looking up the order -/

/-- The order carries the trade on the pair and side. -/
def IsOrderFor (o : Order) (tradeId : ℤ) (pair : Symbol) (side : OrderSide) : Prop :=
  o.freqtradeTradeId = some tradeId ∧ o.symbol = pair ∧ o.side = side

/-- The order waits for a trade id on the pair and side. -/
def IsUnmatched (o : Order) (pair : Symbol) (side : OrderSide) : Prop :=
  o.symbol = pair ∧ o.side = side ∧ o.status = .SUBMITTED ∧ o.freqtradeTradeId = none

/-- The trade id written on an order. -/
def backfill (tradeId : ℤ) (o : Order) : Order := { o with freqtradeTradeId := some tradeId }

/-- What `_find_order` can answer. -/
inductive Found (rows : RowOrder) (db : Database) (tradeId : ℤ) (pair : Symbol)
    (side : OrderSide) : Prop
  | known (order : Order) (hmem : order ∈ db.orders) (hfor : IsOrderFor order tradeId pair side)
      (hnewest : ∀ o ∈ db.orders, IsOrderFor o tradeId pair side → o.createdAt ≤ order.createdAt)
      (h : findOrder rows db tradeId pair side = (some order, db))
  | backfilled (order : Order) (hmem : order ∈ db.orders)
      (hnone : ∀ o ∈ db.orders, ¬ IsOrderFor o tradeId pair side)
      (hunmatched : IsUnmatched order pair side)
      (h : findOrder rows db tradeId pair side =
        (some (backfill tradeId order), db.modifyOrder order.id (backfill tradeId)))
  | missing (hnone : ∀ o ∈ db.orders, ¬ IsOrderFor o tradeId pair side)
      (hmatched : ∀ o ∈ db.orders, ¬ IsUnmatched o pair side)
      (h : findOrder rows db tradeId pair side = (none, db))

theorem findOrder_found (rows : RowOrder) (db : Database) (tradeId : ℤ) (pair : Symbol)
    (side : OrderSide) : Found rows db tradeId pair side := by
  cases hknown : rows.orders.firstDesc Order.createdAt (db.orders.filter fun o =>
      o.freqtradeTradeId = some tradeId ∧ o.symbol = pair ∧ o.side = side) with
  | some order =>
    have hmem := List.mem_filter.mp (Arrangement.firstDesc_mem _ hknown)
    refine .known order hmem.1 (by simpa [IsOrderFor] using hmem.2) ?_
      (by unfold findOrder; rw [hknown])
    intro o ho hfor
    exact Arrangement.le_firstDesc _ hknown
      (List.mem_filter.mpr ⟨ho, by simpa [IsOrderFor] using hfor⟩)
  | none =>
    have hempty := (Arrangement.firstDesc_eq_none _).mp hknown
    have hnone : ∀ o ∈ db.orders, ¬ IsOrderFor o tradeId pair side := by
      intro o ho hfor
      have := List.filter_eq_nil_iff.mp hempty o ho
      exact this (by simpa [IsOrderFor] using hfor)
    cases hunmatched : rows.orders.firstDesc Order.createdAt (db.orders.filter fun o =>
        o.symbol = pair ∧ o.side = side ∧ o.status = .SUBMITTED ∧
          o.freqtradeTradeId = none) with
    | some order =>
      have hmem := List.mem_filter.mp (Arrangement.firstDesc_mem _ hunmatched)
      refine .backfilled order hmem.1 hnone (by simpa [IsUnmatched] using hmem.2) ?_
      unfold findOrder
      rw [hknown, hunmatched]
      rfl
    | none =>
      have hempty' := (Arrangement.firstDesc_eq_none _).mp hunmatched
      refine .missing hnone ?_ (by unfold findOrder; rw [hknown, hunmatched])
      intro o ho hwaiting
      have := List.filter_eq_nil_iff.mp hempty' o ho
      exact this (by simpa [IsUnmatched] using hwaiting)

@[simp] theorem findOrder_positions :
    (findOrder rows db tradeId pair side).2.positions = db.positions := by
  cases findOrder_found rows db tradeId pair side with
  | known _ _ _ _ h => rw [h]
  | backfilled _ _ _ _ h => rw [h]; rfl
  | missing _ _ h => rw [h]

@[simp] theorem findOrder_nextId :
    (findOrder rows db tradeId pair side).2.nextId = db.nextId := by
  cases findOrder_found rows db tradeId pair side with
  | known _ _ _ _ h => rw [h]
  | backfilled _ _ _ _ h => rw [h]; rfl
  | missing _ _ h => rw [h]

/-- The order a lookup finds is a row of the table it leaves, for the trade on the pair and
side asked for. -/
theorem findOrder_row {order : Order} {db₁ : Database}
    (h : findOrder rows db tradeId pair side = (some order, db₁)) :
    order ∈ db₁.orders ∧ IsOrderFor order tradeId pair side := by
  cases findOrder_found rows db tradeId pair side with
  | known found hmem hfor _ hfound =>
    rw [h] at hfound
    cases hfound
    exact ⟨hmem, hfor⟩
  | backfilled found hmem _ hunmatched hfound =>
    rw [h] at hfound
    cases hfound
    exact ⟨mem_modifyRow.mpr (Or.inr ⟨found, hmem, rfl, rfl⟩), rfl, hunmatched.1, hunmatched.2.1⟩
  | missing _ _ hfound =>
    rw [h] at hfound
    cases hfound

/-- Where SELL orders all carry trade ids, a SELL lookup writes nothing. -/
theorem findOrder_sell (hsells : ∀ o ∈ db.orders, o.side = .SELL → o.freqtradeTradeId ≠ none) :
    (findOrder rows db tradeId pair .SELL).2 = db := by
  cases findOrder_found rows db tradeId pair .SELL with
  | known _ _ _ _ hfound => rw [hfound]
  | backfilled order hmem _ hunmatched _ =>
    exact absurd hunmatched.2.2.2 (hsells order hmem hunmatched.2.1)
  | missing _ _ hfound => rw [hfound]

/-! ## Entry fills -/

/-- How `_handle_entry_fill` can go. -/
inductive EntryFill (ctx : WebhookContext) (db : Database) (payload : FreqtradeWebhookPayload) :
    Prop
  | ignored (hwhy : (findOrder ctx.rows db payload.tradeId payload.pair .BUY).1 = none ∨
        payload.openRate = none ∨ payload.amount = none)
      (h : handleEntryFill ctx db payload =
        (findOrder ctx.rows db payload.tradeId payload.pair .BUY).2)
  | filled (order : Order) (db₁ : Database) (openRate amount : ℚ)
      (hfound : findOrder ctx.rows db payload.tradeId payload.pair .BUY = (some order, db₁))
      (hopenRate : payload.openRate = some openRate) (hamount : payload.amount = some amount)
      (horders : (handleEntryFill ctx db payload).orders =
        modifyRow Order.id order.id (fun o => o.fill amount openRate) db₁.orders)
      (hpositions : (handleEntryFill ctx db payload).positions = db.positions ++
        [entryFillPosition ctx (db₁.modifyOrder order.id fun o => o.fill amount openRate) payload
          order openRate amount])
      (hnextId : (handleEntryFill ctx db payload).nextId = db.nextId + 3)

/-- Every entry fill goes one of the ways. -/
theorem handleEntryFill_entryFill (ctx : WebhookContext) (db : Database)
    (payload : FreqtradeWebhookPayload) : EntryFill ctx db payload := by
  have hpos := @findOrder_positions ctx.rows db payload.tradeId payload.pair .BUY
  have hnext := @findOrder_nextId ctx.rows db payload.tradeId payload.pair .BUY
  rcases hf : findOrder ctx.rows db payload.tradeId payload.pair .BUY with ⟨found, db₁⟩
  rw [hf] at hpos hnext
  cases found with
  | none =>
    exact .ignored (Or.inl (by rw [hf])) (by unfold handleEntryFill; rw [hf])
  | some order =>
    cases hopenRate : payload.openRate with
    | none =>
      exact .ignored (Or.inr (Or.inl hopenRate))
        (by unfold handleEntryFill; rw [hf, hopenRate])
    | some openRate =>
      cases hamount : payload.amount with
      | none =>
        exact .ignored (Or.inr (Or.inr hamount))
          (by unfold handleEntryFill; rw [hf, hopenRate, hamount])
      | some amount =>
        have h := handleEntryFill.eq_def ctx db payload
        rw [hf, hopenRate, hamount] at h
        refine .filled order db₁ openRate amount hf hopenRate hamount ?_ ?_ ?_
        · rw [h]
          rfl
        · rw [h]
          simp only [Database.addAuditEvent_positions, Database.insertPosition_positions,
            Database.modifyOrder_positions]
          rw [hpos]
        · rw [h]
          simp only [Database.addAuditEvent_nextId, Database.insertPosition_nextId,
            Database.modifyOrder_nextId]
          rw [hnext]

/-! ## Exit fills -/

/-- How `_handle_exit_fill` can go. -/
inductive ExitFill (ctx : WebhookContext) (db : Database) (payload : FreqtradeWebhookPayload) :
    Prop
  | ignored (hwhy : payload.closeRate = none ∨ payload.amount = none)
      (h : handleExitFill ctx db payload =
        (findOrder ctx.rows db payload.tradeId payload.pair .SELL).2)
  | untracked (hfound : (findOrder ctx.rows db payload.tradeId payload.pair .SELL).1 = none)
      (hmatch : autonomousExitMatch ctx.rows db payload.tradeId payload.pair = none)
      (h : handleExitFill ctx db payload = db)
  | unlinked (closeRate amount : ℚ) (order : Order) (db₂ : Database)
      (hcloseRate : payload.closeRate = some closeRate) (hamount : payload.amount = some amount)
      (horder : exitOrder ctx (findOrder ctx.rows db payload.tradeId payload.pair .SELL).2 payload
        closeRate amount (findOrder ctx.rows db payload.tradeId payload.pair .SELL).1 =
          some (order, db₂))
      (hposition : exitPosition ctx.rows (db₂.modifyOrder order.id fun o => o.fill amount closeRate)
        order.id payload.pair = none)
      (h : handleExitFill ctx db payload =
        db₂.modifyOrder order.id fun o => o.fill amount closeRate)
  | settled (closeRate amount : ℚ) (order : Order) (db₂ : Database) (position : Position)
      (hcloseRate : payload.closeRate = some closeRate) (hamount : payload.amount = some amount)
      (horder : exitOrder ctx (findOrder ctx.rows db payload.tradeId payload.pair .SELL).2 payload
        closeRate amount (findOrder ctx.rows db payload.tradeId payload.pair .SELL).1 =
          some (order, db₂))
      (hposition : exitPosition ctx.rows (db₂.modifyOrder order.id fun o => o.fill amount closeRate)
        order.id payload.pair = some position)
      (h : handleExitFill ctx db payload =
        settleExit ctx (db₂.modifyOrder order.id fun o => o.fill amount closeRate) payload order
          position closeRate amount)

/-- Every exit fill goes one of the ways. -/
theorem handleExitFill_exitFill (ctx : WebhookContext) (db : Database)
    (payload : FreqtradeWebhookPayload) : ExitFill ctx db payload := by
  have h := handleExitFill.eq_def ctx db payload
  cases hcloseRate : payload.closeRate with
  | none =>
    rw [hcloseRate] at h
    exact .ignored (Or.inl hcloseRate) h
  | some closeRate =>
    cases hamount : payload.amount with
    | none =>
      rw [hcloseRate, hamount] at h
      exact .ignored (Or.inr hamount) h
    | some amount =>
      rw [hcloseRate, hamount] at h
      dsimp only at h
      cases horder : exitOrder ctx
        (findOrder ctx.rows db payload.tradeId payload.pair .SELL).2 payload closeRate amount
        (findOrder ctx.rows db payload.tradeId payload.pair .SELL).1 with
      | none =>
        rw [horder] at h
        cases findOrder_found ctx.rows db payload.tradeId payload.pair .SELL with
        | known _ _ _ _ hfound =>
          rw [hfound] at horder
          cases horder
        | backfilled _ _ _ _ hfound =>
          rw [hfound] at horder
          cases horder
        | missing _ _ hfound =>
          rw [hfound] at horder h
          refine .untracked (by rw [hfound]) ?_ h
          cases hmatch : autonomousExitMatch ctx.rows db payload.tradeId payload.pair with
          | none => rfl
          | some row =>
            unfold exitOrder at horder
            rw [hmatch] at horder
            cases horder
      | some result =>
        obtain ⟨order, db₂⟩ := result
        rw [horder] at h
        dsimp only at h
        cases hposition : exitPosition ctx.rows
          (db₂.modifyOrder order.id fun o => o.fill amount closeRate) order.id payload.pair with
        | none =>
          rw [hposition] at h
          exact .unlinked closeRate amount order db₂ hcloseRate hamount horder hposition h
        | some position =>
          rw [hposition] at h
          exact .settled closeRate amount order db₂ position hcloseRate hamount horder hposition h

/-- The order an exit fill settles is a row for the trade: the one found, or a FILLED one
inserted for a matched position. -/
theorem exitOrder_row {closeRate amount : ℚ} {order : Order} {db₂ : Database}
    (hmade : exitOrder ctx (findOrder ctx.rows db payload.tradeId payload.pair .SELL).2 payload
      closeRate amount (findOrder ctx.rows db payload.tradeId payload.pair .SELL).1 =
        some (order, db₂)) :
    IsOrderFor order payload.tradeId payload.pair .SELL ∧ order ∈ db₂.orders ∧
      (findOrder ctx.rows db payload.tradeId payload.pair .SELL = (some order, db₂) ∨
        ((findOrder ctx.rows db payload.tradeId payload.pair .SELL).1 = none ∧
          autonomousExitMatch ctx.rows db payload.tradeId payload.pair ≠ none ∧
          order.id = db.nextId ∧ order.status = .FILLED ∧ db₂ = db.insertOrder order)) := by
  rcases hfound : findOrder ctx.rows db payload.tradeId payload.pair .SELL with ⟨found, db₁⟩
  rw [hfound] at hmade
  dsimp only at hmade
  cases found with
  | some found =>
    cases hmade
    obtain ⟨hmem, hfor⟩ := findOrder_row hfound
    exact ⟨hfor, hmem, Or.inl rfl⟩
  | none =>
    have hsame : db₁ = db := by
      cases findOrder_found ctx.rows db payload.tradeId payload.pair .SELL with
      | known _ _ _ _ h => rw [hfound] at h; cases h
      | backfilled _ _ _ _ h => rw [hfound] at h; cases h
      | missing _ _ h => rw [hfound] at h; cases h; rfl
    subst hsame
    unfold exitOrder at hmade
    dsimp only at hmade
    split at hmade
    · cases hmade
    · rename_i position entryOrder hmatch
      cases hmade
      exact ⟨⟨rfl, rfl, rfl⟩, List.mem_append_right _ (List.mem_singleton_self _),
        Or.inr ⟨rfl, by simp [hmatch], rfl, rfl, rfl⟩⟩

/-- The order an exit fill settles: the SELL order found, or a new one for a matched
position. -/
theorem exitOrder_made (hsells : ∀ o ∈ db.orders, o.side = .SELL → o.freqtradeTradeId ≠ none)
    {closeRate amount : ℚ} {order : Order} {db₂ : Database}
    (hmade : exitOrder ctx (findOrder ctx.rows db payload.tradeId payload.pair .SELL).2 payload
      closeRate amount (findOrder ctx.rows db payload.tradeId payload.pair .SELL).1 =
        some (order, db₂)) :
    IsOrderFor order payload.tradeId payload.pair .SELL ∧ db₂.positions = db.positions ∧
      (((findOrder ctx.rows db payload.tradeId payload.pair .SELL).1 = some order ∧
          order ∈ db.orders ∧ db₂ = db) ∨
        ((findOrder ctx.rows db payload.tradeId payload.pair .SELL).1 = none ∧
          autonomousExitMatch ctx.rows db payload.tradeId payload.pair ≠ none ∧
          order.id = db.nextId ∧ order.status = .FILLED ∧ db₂ = db.insertOrder order)) := by
  have hsame := @findOrder_sell ctx.rows db payload.tradeId payload.pair hsells
  obtain ⟨hfor, hmem, hlookup | ⟨hmissing, hmatch, hid, hfilled, rfl⟩⟩ := exitOrder_row hmade
  · rw [hlookup] at hsame ⊢
    subst hsame
    exact ⟨hfor, rfl, Or.inl ⟨rfl, hmem, rfl⟩⟩
  · exact ⟨hfor, rfl, Or.inr ⟨hmissing, hmatch, hid, hfilled, rfl⟩⟩

/-! ## Frames -/

/-- The exit order of a fill is found, or inserted. -/
theorem exitOrder_database {ctx : WebhookContext} {db db₂ : Database}
    {payload : FreqtradeWebhookPayload} {closeRate amount : ℚ} {found : Option Order}
    {order : Order}
    (h : exitOrder ctx db payload closeRate amount found = some (order, db₂)) :
    db₂ = db ∨ db₂ = db.insertOrder order := by
  unfold exitOrder at h
  split at h
  · cases h
    exact Or.inl rfl
  · split at h
    · cases h
    · cases h
      exact Or.inr rfl

theorem exitOrder_positions {ctx : WebhookContext} {db db₂ : Database}
    {payload : FreqtradeWebhookPayload} {closeRate amount : ℚ} {found : Option Order}
    {order : Order}
    (h : exitOrder ctx db payload closeRate amount found = some (order, db₂)) :
    db₂.positions = db.positions := by
  rcases exitOrder_database h with rfl | rfl
  · rfl
  · rfl

theorem markCancelled_positions (ctx : WebhookContext) (db : Database)
    (payload : FreqtradeWebhookPayload) (side : OrderSide) :
    (markCancelled ctx db payload side).positions = db.positions := by
  have hfound := @findOrder_positions ctx.rows db payload.tradeId payload.pair side
  unfold markCancelled
  split
  · rename_i heq
    rw [heq] at hfound
    exact hfound
  · rename_i heq
    rw [heq] at hfound
    exact hfound

/-- A settled exit closes its position and writes no other row. -/
theorem settleExit_positions (ctx : WebhookContext) (db : Database)
    (payload : FreqtradeWebhookPayload) (order : Order) (position : Position)
    (closeRate amount : ℚ) :
    ∃ rMultiple fees, (settleExit ctx db payload order position closeRate amount).positions =
      modifyRow Position.id position.id
        (closeByFill ctx payload order.id closeRate rMultiple fees) db.positions :=
  ⟨_, _, rfl⟩

/-- A step of the webhook path: a signal or a webhook request. -/
def WebhookPath : Step → Prop
  | .reconcile _ => False
  | .signal _ => True
  | .webhook _ _ => True

/-! ## Concrete requests -/

/-- The receiver as a request finds it at `now`. -/
def receivedAt (now : Time) : WebhookContext where
  startedAt := now
  now
  rows := RowOrder.stored
  config := {}
  sharedSecret := "s3cret"

/-- The `entry_fill` of a BTC trade at 100 USDT. -/
def btcEntryFill (tradeId : ℤ) : FreqtradeWebhookPayload :=
  { event := .entry_fill
    tradeId
    pair := "BTC/USDT"
    secret := "s3cret"
    openRate := some 100
    amount := some (1 / 2) }

/-- The `exit_fill` of a BTC trade at 110 USDT. -/
def btcExitFill (tradeId : ℤ) : FreqtradeWebhookPayload :=
  { event := .exit_fill
    tradeId
    pair := "BTC/USDT"
    secret := "s3cret"
    closeRate := some 110
    amount := some (1 / 2)
    profitAmount := some 5
    profitRatio := some (1 / 10) }

/-- The world after the clean delivery of the BUY signal: trade 7 awaits its fill. -/
def awaitingFill : World :=
  (processSignal { db := { signals := [btcBuy] } } (cleanDelivery 1 0)).world

end TradeMind.Analysis
