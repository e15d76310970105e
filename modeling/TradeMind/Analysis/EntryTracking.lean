import TradeMind.Analysis.WebhookEffects

/-!
# Whether an opened trade is tracked

Freqtrade opens the trade before the attempt that asked for it commits.  Whatever comes
back, the trade's `entry_fill` follows; it is tracked when the database then has a BUY
order with the trade id and an OPEN position on it.  `entry_tracked_iff` says exactly when:
the answer echoed the stop tag and the commit took effect, or some row for the fill to land
on was there beforehand.
-/

set_option autoImplicit false

namespace TradeMind.Analysis

open TradeMind.Library TradeMind.Model

/-- The database has a BUY order with the trade id and an OPEN position on it. -/
def Tracked (db : Database) (tradeId : ℤ) : Prop :=
  ∃ order ∈ db.orders, order.side = .BUY ∧ order.freqtradeTradeId = some tradeId ∧
    ∃ p ∈ db.positions, p.status = .OPEN ∧ p.entryOrderId = order.id

instance (db : Database) (tradeId : ℤ) : Decidable (Tracked db tradeId) :=
  inferInstanceAs (Decidable (∃ order ∈ db.orders, order.side = .BUY ∧
    order.freqtradeTradeId = some tradeId ∧
      ∃ p ∈ db.positions, p.status = .OPEN ∧ p.entryOrderId = order.id))

/-- There is a BUY order on the pair that carries the trade id or waits for one. -/
def AwaitsFill (db : Database) (tradeId : ℤ) (pair : Symbol) : Prop :=
  ∃ o ∈ db.orders, IsOrderFor o tradeId pair .BUY ∨ IsUnmatched o pair .BUY

/-- The stop tag sent with an approved entry. -/
def sentTag (w : World) (d : Delivery) (signal : Signal) (balance : AccountBalanceSnapshot) :
    Option EntryTag :=
  entryTagOf signal (entryEvaluation w d signal balance false).stopLossPrice

/-- The answer is a JSON object and echoes the tag, if one was sent. -/
def Echoes (reply : ForceenterReply) (tag : Option EntryTag) : Prop :=
  ∃ response, reply = .body response ∧ (tag = none ∨ response.enterTag = tag)

/-- An answer about trade `tradeId` names no other trade. -/
def AnswersFor (reply : ForceenterReply) (tradeId : ℤ) : Prop :=
  ∀ response, reply = .body response →
    response.tradeRef = some tradeId ∨ response.tradeRef = none

/-- The request is the complete, authenticated `entry_fill` of the trade. -/
structure ReportsEntry (ctx : WebhookContext) (payload : FreqtradeWebhookPayload)
    (tradeId : ℤ) (pair : Symbol) : Prop where
  authenticated : Authenticated ctx payload
  event : payload.event = .entry_fill
  tradeId : payload.tradeId = tradeId
  pair : payload.pair = pair
  openRate : payload.openRate ≠ none
  amount : payload.amount ≠ none

variable {w : World} {d : Delivery} {signal : Signal} {balance : AccountBalanceSnapshot}
  {ctx : WebhookContext} {payload : FreqtradeWebhookPayload} {tradeId : ℤ}

/-! ## What the attempt leaves behind -/

/-- An approved entry records its decision and submits the order. -/
theorem processSignal_of_approvesEntry (h : ApprovesEntry w d signal balance) :
    ∃ redis session decision sizeUsdt sizeBase, Recorded signal decision w.db session ∧
      processSignal w d = World.finish { w with redis } d decision
        (submitEntryOrder d session signal decision.id sizeUsdt sizeBase
          (entryEvaluation w d signal balance false).stopLossPrice) := by
  have hclaim : d.fails .claimKey = false := by simp [Delivery.fails, h.claimed]
  cases processSignal_course w d with
  | stopped hfails _ =>
    rw [h.asks.loadSignal, h.asks.publishBalance, hclaim] at hfails
    simp at hfails
  | notFound hsignal _ =>
    rw [h.asks.found] at hsignal
    cases hsignal
  | balanceUnavailable _ _ hbalance _ =>
    rw [h.asks.snapshot] at hbalance
    cases hbalance
  | claimLost _ _ _ _ hfault _ =>
    rw [h.claimed] at hfault
    cases hfault
  | duplicate signal' balance' hasks hheld _ =>
    cases Option.some.inj (h.asks.found.symm.trans hasks.found)
    exact absurd hheld h.free
  | evaluated signal' balance' hasks _ _ hprocess =>
    cases Option.some.inj (h.asks.found.symm.trans hasks.found)
    cases Option.some.inj (h.asks.snapshot.symm.trans hasks.snapshot)
    cases decideSignal_deciding { w with redis := w.redis.claim signal.id d.now } d signal
      balance false with
    | stopped hraises _ _ _ => exact absurd hraises h.clean
    | exit _ haction _ _ _ _ _ _ => exact absurd haction h.action
    | entry _ _ redis _ session decision hrecorded _ _ hdecide =>
      obtain ⟨sizeUsdt, sizeBase, hsubmit⟩ :=
        submitApprovedEntry_approved session decision.id h.approved
      refine ⟨redis, session, decision, sizeUsdt, sizeBase, hrecorded, ?_⟩
      rw [hprocess, hdecide, ← hsubmit]
      rfl

/-- An echoed tag leaves a SUBMITTED order with the trade id of the answer. -/
theorem submitEntryOrder_echoed (session : Database) (decisionId : Uuid)
    (sizeUsdt sizeBase : ℚ) {stop : Option ℚ} {response : ForceenterBody}
    (hreply : d.forceenterReply = .body response)
    (htag : entryTagOf signal stop = none ∨ response.enterTag = entryTagOf signal stop) :
    ∃ session' order,
      (submitEntryOrder d session signal decisionId sizeUsdt sizeBase stop).1 = some session' ∧
      session'.orders = session.orders ++ [order] ∧ session'.positions = session.positions ∧
      order.symbol = signal.symbol ∧ order.side = .BUY ∧ order.status = .SUBMITTED ∧
      order.freqtradeTradeId = response.tradeRef := by
  have hok : (forceenter d.forceenterReply signal.symbol sizeUsdt (entryTagOf signal stop)).1 =
      .ok response := by
    unfold forceenter
    rw [hreply]
    dsimp only
    rw [if_neg]
    rintro ⟨hsome, hmismatch⟩
    rcases htag with hnone | hecho
    · rw [hnone] at hsome
      cases hsome
    · exact hmismatch hecho
  unfold submitEntryOrder
  dsimp only
  rw [hok]
  exact ⟨_, _, rfl, rfl, rfl, rfl, rfl, rfl, rfl⟩

/-- Without an echo the attempt raises, or leaves a FAILED order without a trade id. -/
theorem submitEntryOrder_not_echoed {session session' : Database} {decisionId : Uuid}
    {sizeUsdt sizeBase : ℚ} {stop : Option ℚ}
    (hecho : ¬ Echoes d.forceenterReply (entryTagOf signal stop))
    (h : (submitEntryOrder d session signal decisionId sizeUsdt sizeBase stop).1 =
      some session') :
    session'.positions = session.positions ∧ ∃ order, session'.orders = session.orders ++ [order] ∧
      order.status = .FAILED ∧ order.freqtradeTradeId = none := by
  unfold submitEntryOrder at h
  dsimp only at h
  split at h
  · cases h
  · cases h
    exact ⟨rfl, _, rfl, rfl, rfl⟩
  · rename_i body hok
    refine absurd ?_ hecho
    unfold forceenter at hok
    dsimp only at hok
    split at hok
    · cases hok
    · cases hok
    · cases hok
    · rename_i response hreply
      split at hok
      · split at hok <;> cases hok
      · rename_i hmatch
        refine ⟨response, hreply, ?_⟩
        by_cases htag : entryTagOf signal stop = none
        · exact Or.inl htag
        · refine Or.inr ?_
          by_contra hne
          exact hmatch ⟨Option.isSome_iff_ne_none.mpr htag, hne⟩

/-! ## What the fill finds -/

/-- A fill that finds a row is tracked. -/
theorem tracked_of_awaitsFill {db : Database} {pair : Symbol}
    (hreports : ReportsEntry ctx payload tradeId pair) (h : AwaitsFill db tradeId pair) :
    Tracked (handleEntryFill ctx db payload) tradeId := by
  cases handleEntryFill_entryFill ctx db payload with
  | ignored hwhy _ =>
    rcases hwhy with hnone | hnone | hnone
    · obtain ⟨o, ho, hwaits⟩ := h
      cases findOrder_found ctx.rows db payload.tradeId payload.pair .BUY with
      | known _ _ _ _ hfound =>
        rw [hfound] at hnone
        cases hnone
      | backfilled _ _ _ _ hfound =>
        rw [hfound] at hnone
        cases hnone
      | missing hunknown hmatched _ =>
        rw [hreports.tradeId, hreports.pair] at hunknown
        rw [hreports.pair] at hmatched
        rcases hwaits with hwaits | hwaits
        · exact absurd hwaits (hunknown o ho)
        · exact absurd hwaits (hmatched o ho)
    · exact absurd hnone hreports.openRate
    · exact absurd hnone hreports.amount
  | filled order db₁ openRate amount hfound _ _ horders hpositions _ =>
    have hrow : ∃ o ∈ db₁.orders, o.id = order.id ∧ o.side = .BUY ∧
        o.freqtradeTradeId = some tradeId := by
      cases findOrder_found ctx.rows db payload.tradeId payload.pair .BUY with
      | known found hmem hfor _ hfound' =>
        rw [hfound] at hfound'
        cases hfound'
        exact ⟨order, hmem, rfl, hfor.2.2, hreports.tradeId ▸ hfor.1⟩
      | backfilled found hmem _ hunmatched hfound' =>
        rw [hfound] at hfound'
        cases hfound'
        refine ⟨backfill payload.tradeId found, ?_, rfl, hunmatched.2.1, ?_⟩
        · exact mem_modifyRow.mpr (Or.inr ⟨found, hmem, rfl, rfl⟩)
        · exact congrArg some hreports.tradeId
      | missing _ _ hfound' =>
        rw [hfound] at hfound'
        cases hfound'
    obtain ⟨o, ho, hid, hside, htrade⟩ := hrow
    refine ⟨o.fill amount openRate, ?_, hside, htrade, ?_⟩
    · rw [horders]
      exact mem_modifyRow.mpr (Or.inr ⟨o, ho, hid, rfl⟩)
    · rw [hpositions]
      exact ⟨_, List.mem_append_right _ (List.mem_singleton_self _), rfl, hid.symm⟩

/-- A fill that finds no row changes nothing. -/
theorem entryFill_of_not_awaitsFill {db : Database} {pair : Symbol}
    (hreports : ReportsEntry ctx payload tradeId pair) (h : ¬ AwaitsFill db tradeId pair) :
    handleEntryFill ctx db payload = db := by
  have hmissing : findOrder ctx.rows db payload.tradeId payload.pair .BUY = (none, db) := by
    cases findOrder_found ctx.rows db payload.tradeId payload.pair .BUY with
    | known order hmem hfor _ _ =>
      rw [hreports.tradeId, hreports.pair] at hfor
      exact absurd ⟨order, hmem, Or.inl hfor⟩ h
    | backfilled order hmem _ hunmatched _ =>
      rw [hreports.pair] at hunmatched
      exact absurd ⟨order, hmem, Or.inr hunmatched⟩ h
    | missing _ _ hfound => exact hfound
  cases handleEntryFill_entryFill ctx db payload with
  | ignored _ hignored => rw [hignored, hmissing]
  | filled _ _ _ _ hfound _ _ _ _ _ =>
    rw [hmissing] at hfound
    cases hfound

/-- The attempt and then the trade's `entry_fill`. -/
def enterThenFill (w : World) (d : Delivery) (ctx : WebhookContext)
    (payload : FreqtradeWebhookPayload) : World :=
  step (step w (.signal d)) (.webhook ctx payload)

/-- What an unconfirmed entry leaves in the book: nothing, or a FAILED order without a
trade id. -/
structure Unconfirmed (db db' : Database) : Prop where
  positions : db'.positions = db.positions
  orders : db'.orders = db.orders ∨ ∃ order, db'.orders = db.orders ++ [order] ∧
    order.status = .FAILED ∧ order.freqtradeTradeId = none

/-- A confirmed entry leaves a row for the fill. -/
theorem awaitsFill_of_confirmed (happroves : ApprovesEntry w d signal balance)
    (hanswers : AnswersFor d.forceenterReply tradeId)
    (hecho : Echoes d.forceenterReply (sentTag w d signal balance))
    (hcommit : d.fault .commit ≠ some .before) :
    AwaitsFill (processSignal w d).world.db tradeId signal.symbol := by
  obtain ⟨redis, session, decision, sizeUsdt, sizeBase, _, hprocess⟩ :=
    processSignal_of_approvesEntry happroves
  obtain ⟨response, hreply, htag⟩ := hecho
  obtain ⟨session', order, hsession, horders, _, hsymbol, hside, hstatus, htrade⟩ :=
    submitEntryOrder_echoed session decision.id sizeUsdt sizeBase hreply htag
  have hdb : (processSignal w d).world.db = session' := by
    rw [hprocess]
    rcases hpair : submitEntryOrder d session signal decision.id sizeUsdt sizeBase
      (entryEvaluation w d signal balance false).stopLossPrice with ⟨result, calls⟩
    rw [hpair] at hsession
    cases hsession
    simp only [World.finish, World.commit]
    split
    · rfl
    · rename_i hbefore
      exact absurd hbefore hcommit
    · rfl
  rw [hdb]
  refine ⟨order, ?_, ?_⟩
  · rw [horders]
    exact List.mem_append_right _ (List.mem_singleton_self _)
  · rcases hanswers response hreply with hknown | hunknown
    · exact Or.inl ⟨htrade.trans hknown, hsymbol, hside⟩
    · exact Or.inr ⟨hsymbol, hside, hstatus, htrade.trans hunknown⟩

/-- An entry that is not confirmed leaves at most a FAILED order. -/
theorem unconfirmed_of_not_confirmed (happroves : ApprovesEntry w d signal balance)
    (h : ¬ (Echoes d.forceenterReply (sentTag w d signal balance) ∧
      d.fault .commit ≠ some .before)) :
    Unconfirmed w.db (processSignal w d).world.db := by
  obtain ⟨redis, session, decision, sizeUsdt, sizeBase, hrecorded, hprocess⟩ :=
    processSignal_of_approvesEntry happroves
  have hnothing : Unconfirmed w.db w.db := ⟨rfl, Or.inl rfl⟩
  by_cases hcommit : d.fault .commit = some .before
  · have hdb : (processSignal w d).world.db = w.db := by
      rw [hprocess]
      unfold World.finish
      split
      · rfl
      · rw [World.commit, hcommit]
    rw [hdb]
    exact hnothing
  · have hecho : ¬ Echoes d.forceenterReply (sentTag w d signal balance) :=
      fun hecho => h ⟨hecho, hcommit⟩
    rw [hprocess]
    rcases finish_world { w with redis } d decision (submitEntryOrder d session signal
      decision.id sizeUsdt sizeBase (entryEvaluation w d signal balance false).stopLossPrice)
      with hw | ⟨session', hsession, hw⟩
    · rw [hw]
      exact hnothing
    · rw [hw]
      obtain ⟨hpositions, order, horders, hfailed⟩ := submitEntryOrder_not_echoed hecho hsession
      exact ⟨hpositions.trans hrecorded.book.positions,
        Or.inr ⟨order, hrecorded.book.orders ▸ horders, hfailed⟩⟩

/-- A FAILED order without a trade id is no row for a fill to land on. -/
theorem Unconfirmed.awaitsFill_iff {db db' : Database} {pair : Symbol}
    (h : Unconfirmed db db') : AwaitsFill db' tradeId pair ↔ AwaitsFill db tradeId pair := by
  rcases h.orders with hsame | ⟨order, happend, hstatus, htrade⟩
  · unfold AwaitsFill
    rw [hsame]
  · unfold AwaitsFill
    rw [happend]
    constructor
    · rintro ⟨o, ho, hwaits⟩
      rcases List.mem_append.mp ho with ho | ho
      · exact ⟨o, ho, hwaits⟩
      · cases List.mem_singleton.mp ho
        rcases hwaits with hfor | hunmatched
        · rw [hfor.1] at htrade
          cases htrade
        · rw [hunmatched.2.2.1] at hstatus
          cases hstatus
    · rintro ⟨o, ho, hwaits⟩
      exact ⟨o, List.mem_append_left _ ho, hwaits⟩

/-- A FAILED order without a trade id tracks nothing. -/
theorem Unconfirmed.tracked_iff {db db' : Database} (h : Unconfirmed db db') :
    Tracked db' tradeId ↔ Tracked db tradeId := by
  rcases h.orders with hsame | ⟨order, happend, _, htrade⟩
  · unfold Tracked
    rw [hsame, h.positions]
  · unfold Tracked
    rw [happend, h.positions]
    constructor
    · rintro ⟨o, ho, hside, hid, hposition⟩
      rcases List.mem_append.mp ho with ho | ho
      · exact ⟨o, ho, hside, hid, hposition⟩
      · cases List.mem_singleton.mp ho
        rw [htrade] at hid
        cases hid
    · rintro ⟨o, ho, htracked⟩
      exact ⟨o, List.mem_append_left _ ho, htracked⟩

/-- **When an opened trade is tracked.**  Freqtrade opened trade `tradeId` for an approved
entry; after its `entry_fill` the trade is tracked if and only if the answer echoed the
stop tag and the commit took effect, or a row for the fill to land on was there before the
attempt, or the trade was tracked already. -/
theorem entry_tracked_iff (happroves : ApprovesEntry w d signal balance)
    (hanswers : AnswersFor d.forceenterReply tradeId)
    (hreports : ReportsEntry ctx payload tradeId signal.symbol) :
    Tracked (enterThenFill w d ctx payload).db tradeId ↔
      (Echoes d.forceenterReply (sentTag w d signal balance) ∧ d.fault .commit ≠ some .before) ∨
        AwaitsFill w.db tradeId signal.symbol ∨ Tracked w.db tradeId := by
  have hstep : (enterThenFill w d ctx payload).db =
      handleEntryFill ctx (processSignal w d).world.db payload := by
    simp only [enterThenFill, step, freqtradeWebhook_of_authenticated hreports.authenticated,
      Option.getD_some, hreports.event]
  rw [hstep]
  by_cases hconfirmed : Echoes d.forceenterReply (sentTag w d signal balance) ∧
    d.fault .commit ≠ some .before
  · have hawaits := awaitsFill_of_confirmed happroves hanswers hconfirmed.1 hconfirmed.2
    exact iff_of_true (tracked_of_awaitsFill hreports hawaits) (Or.inl hconfirmed)
  · have hresidue := unconfirmed_of_not_confirmed happroves hconfirmed
    by_cases hawaits : AwaitsFill w.db tradeId signal.symbol
    · exact iff_of_true
        (tracked_of_awaitsFill hreports (hresidue.awaitsFill_iff.mpr hawaits))
        (Or.inr (Or.inl hawaits))
    · rw [entryFill_of_not_awaitsFill hreports (mt hresidue.awaitsFill_iff.mp hawaits),
        hresidue.tracked_iff]
      constructor
      · exact fun h => Or.inr (Or.inr h)
      · rintro (h | h | h)
        · exact absurd h hconfirmed
        · exact absurd h hawaits
        · exact h

/-! ## Answers that lose the trade -/

/-- The delivery of the BUY signal that gets the given answer. -/
def answeredDelivery (reply : ForceenterReply) : Delivery :=
  { cleanDelivery 1 0 with forceenterReply := reply }

/-- Whatever the answer, the entry is approved before it is asked for. -/
theorem answeredDelivery_approves (reply : ForceenterReply) :
    ApprovesEntry beforeEntry (answeredDelivery reply) btcBuy (flatSnapshot 0) where
  asks := ⟨rfl, rfl, flatBalances_snapshot 0, rfl⟩
  free := by simp [Redis.holds, beforeEntry]
  claimed := rfl
  clean := by
    simp [EvaluationRaises, Delivery.accountRaises, timedeltaMinutes, Delivery.fails,
      answeredDelivery, cleanDelivery]
  action := by decide
  approved := by
    have h : (entryEvaluation beforeEntry (cleanDelivery 1 0) btcBuy (flatSnapshot 0)
        false).approved = true := by decide +kernel
    exact h

theorem btcEntryFill_reports : ReportsEntry (receivedAt 1) (btcEntryFill 7) 7 "BTC/USDT" :=
  ⟨by decide, rfl, rfl, rfl, by decide +kernel, by decide +kernel⟩

/-- A confirmed entry is tracked. -/
theorem confirmed_entry_tracked :
    ApprovesEntry beforeEntry
        (answeredDelivery (.body { tradeId := some 7, enterTag := some (.slpct (2 / 100)) }))
        btcBuy (flatSnapshot 0) ∧
      Tracked (enterThenFill beforeEntry
        (answeredDelivery (.body { tradeId := some 7, enterTag := some (.slpct (2 / 100)) }))
        (receivedAt 1) (btcEntryFill 7)).db 7 := by
  have hanswers : AnswersFor
      (answeredDelivery (.body { tradeId := some 7, enterTag := some (.slpct (2 / 100)) })
        ).forceenterReply 7 := by
    intro response hresponse
    cases hresponse
    exact Or.inl (by decide)
  refine ⟨answeredDelivery_approves _,
    (entry_tracked_iff (answeredDelivery_approves _) hanswers btcEntryFill_reports).mpr ?_⟩
  exact Or.inl ⟨⟨_, rfl, Or.inr (by decide +kernel)⟩, by decide⟩

/-- A trade whose answer was lost is not tracked: its fill finds no order. -/
theorem lost_answer_not_tracked :
    ¬ ∀ (w : World) (d : Delivery) (signal : Signal) (balance : AccountBalanceSnapshot)
      (ctx : WebhookContext) (payload : FreqtradeWebhookPayload) (tradeId : ℤ),
      ApprovesEntry w d signal balance → AnswersFor d.forceenterReply tradeId →
        ReportsEntry ctx payload tradeId signal.symbol →
          Tracked (enterThenFill w d ctx payload).db tradeId := by
  intro h
  have htracked := h beforeEntry (answeredDelivery .httpError) btcBuy (flatSnapshot 0)
    (receivedAt 1) (btcEntryFill 7) 7 (answeredDelivery_approves _)
    (fun response hresponse => by cases hresponse) btcEntryFill_reports
  exact absurd htracked (by decide +kernel)

end TradeMind.Analysis
