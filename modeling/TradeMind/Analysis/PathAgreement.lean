import TradeMind.Analysis.ReconcileEffects
import TradeMind.Analysis.WebhookEffects

/-!
# The webhook path and the reconciliation path

Both paths open and close the position of an entry order from the same Freqtrade facts.
The webhook path writes the fees of a close and copies the signal's setup; the
reconciliation path writes neither.  So no position closed by the one ever equals a
position closed by the other, whatever the facts, and a trade recorded by reconciliation
is in no setup cohort.
-/

set_option autoImplicit false

namespace TradeMind.Analysis

open TradeMind.Library TradeMind.Model

/-- The columns in which the two paths should agree. -/
structure Agree (p q : Position) : Prop where
  status : p.status = q.status
  entryPrice : p.entryPrice = q.entryPrice
  exitPrice : p.exitPrice = q.exitPrice
  amount : p.amount = q.amount
  pnlUsdt : p.pnlUsdt = q.pnlUsdt
  rMultiple : p.rMultiple = q.rMultiple
  feesUsdt : p.feesUsdt = q.feesUsdt
  marketRegime : p.marketRegime = q.marketRegime
  tradeScore : p.tradeScore = q.tradeScore
  volatilityRegime : p.volatilityRegime = q.volatilityRegime

/-- The position of the entry order shows its fees once it is closed. -/
def FeesOnClose (entryOrderId : Uuid) (p : Position) : Prop :=
  p.entryOrderId = entryOrderId → p.status = .CLOSED → p.feesUsdt ≠ none

/-- The position of the entry order shows no fees, no R-multiple and no setup. -/
def Bare (entryOrderId : Uuid) (p : Position) : Prop :=
  p.entryOrderId = entryOrderId → p.feesUsdt = none ∧ p.rMultiple = none ∧
    p.marketRegime = none ∧ p.tradeScore = none ∧ p.volatilityRegime = none

/-- A step of the reconciliation path: a signal or a reconciliation pass. -/
def ReconcilePath : Step → Prop
  | .webhook _ _ => False
  | .signal _ => True
  | .reconcile _ => True

/-- What every position keeps through the update of one row. -/
theorem forall_modifyRow {P : Position → Prop} {id : Uuid} {f : Position → Position}
    {rows : List Position} (h : ∀ p ∈ rows, P p) (hf : ∀ p ∈ rows, P p → P (f p)) :
    ∀ p ∈ modifyRow Position.id id f rows, P p := by
  intro p hp
  rcases mem_modifyRow.mp hp with ⟨hp, _⟩ | ⟨q, hq, _, rfl⟩
  · exact h p hp
  · exact hf q hq (h q hq)

/-- A delivered signal keeps what does not look at `exit_order_id`. -/
theorem signal_keeps {P : Position → Prop}
    (hlink : ∀ p link, P p → P { p with exitOrderId := link }) {w : World} (d : Delivery)
    (h : ∀ p ∈ w.db.positions, P p) :
    ∀ p ∈ (processSignal w d).world.db.positions, P p := by
  intro p' hp'
  obtain ⟨p, hp, link, rfl⟩ := signal_positions w d hp'
  exact hlink p link (h p hp)

/-- An entry fill keeps the fees of closed positions: what it opens is OPEN. -/
theorem entryFill_feesOnClose {id : Uuid} {ctx : WebhookContext} {db : Database}
    {payload : FreqtradeWebhookPayload} (h : ∀ p ∈ db.positions, FeesOnClose id p) :
    ∀ p ∈ (handleEntryFill ctx db payload).positions, FeesOnClose id p := by
  cases handleEntryFill_entryFill ctx db payload with
  | ignored _ hignored =>
    rw [hignored, findOrder_positions]
    exact h
  | filled _ _ _ _ _ _ _ _ hpositions _ =>
    rw [hpositions]
    intro p hp
    rcases List.mem_append.mp hp with hp | hp
    · exact h p hp
    · rw [List.mem_singleton] at hp
      subst hp
      intro _ hclosed
      cases hclosed

/-- An exit fill keeps the fees of closed positions: what it closes shows them. -/
theorem exitFill_feesOnClose {id : Uuid} {ctx : WebhookContext} {db : Database}
    {payload : FreqtradeWebhookPayload} (h : ∀ p ∈ db.positions, FeesOnClose id p) :
    ∀ p ∈ (handleExitFill ctx db payload).positions, FeesOnClose id p := by
  cases handleExitFill_exitFill ctx db payload with
  | ignored _ hignored =>
    rw [hignored, findOrder_positions]
    exact h
  | untracked _ _ huntracked =>
    rw [huntracked]
    exact h
  | unlinked _ _ _ _ _ _ horder _ hunlinked =>
    rw [hunlinked, Database.modifyOrder_positions, exitOrder_positions horder,
      findOrder_positions]
    exact h
  | settled closeRate amount order db₂ position _ _ horder _ hsettled =>
    obtain ⟨rMultiple, fees, hpositions⟩ := settleExit_positions ctx
      (db₂.modifyOrder order.id fun o => o.fill amount closeRate) payload order position
      closeRate amount
    rw [hsettled, hpositions, Database.modifyOrder_positions, exitOrder_positions horder,
      findOrder_positions]
    refine forall_modifyRow h fun p _ _ _ _ => ?_
    exact Option.some_ne_none fees

/-- **The webhook path** shows the fees of what it closes. -/
theorem webhookPath_feesOnClose {id : Uuid} {w : World} {s : Step} (hs : WebhookPath s)
    (h : ∀ p ∈ w.db.positions, FeesOnClose id p) :
    ∀ p ∈ (step w s).db.positions, FeesOnClose id p := by
  cases s with
  | reconcile _ => exact hs.elim
  | signal d => exact signal_keeps (fun _ _ hp => hp) d h
  | webhook ctx payload =>
    by_cases hauth : Authenticated ctx payload
    · simp only [step, freqtradeWebhook_of_authenticated hauth, Option.getD_some]
      cases payload.event with
      | entry_fill => exact entryFill_feesOnClose h
      | exit_fill => exact exitFill_feesOnClose h
      | entry_cancel =>
        rw [handleEntryCancel, markCancelled_positions]
        exact h
      | exit_cancel =>
        rw [handleExitCancel, markCancelled_positions]
        exact h
      | other _ => exact h
    · simp only [step, freqtradeWebhook_of_not_authenticated hauth, Option.getD_none]
      exact h

/-- A reconciled close writes none of the columns of `Bare`. -/
theorem closeByTrade_bare {id : Uuid} {ctx : ReconcileContext} {trade : FreqtradeTrade}
    {closeRate : ℚ} {p : Position} (h : Bare id p) :
    Bare id (closeByTrade ctx trade closeRate p) := h

/-- **The reconciliation path** writes no fees, no R-multiple and no setup. -/
theorem reconcilePath_bare {id : Uuid} {w : World} {s : Step} (hs : ReconcilePath s)
    (h : ∀ p ∈ w.db.positions, Bare id p) : ∀ p ∈ (step w s).db.positions, Bare id p := by
  cases s with
  | webhook _ _ => exact hs.elim
  | signal d => exact signal_keeps (fun _ _ hp => hp) d h
  | reconcile ctx =>
    refine reconcileSubmittedOrders_inv (fun db => ∀ p ∈ db.positions, Bare id p) ctx
      (fun db order db' hdb hround => ?_) (fun db position entry db' hdb hround => ?_) h
    · cases hround with
      | alerted hbook =>
        rw [hbook.positions]
        exact hdb
      | entered _ _ _ _ hpositions _ _ =>
        rcases hpositions with hsame | ⟨opened, _, hopened, happend⟩
        · rw [hsame]
          exact hdb
        · rw [happend]
          intro p hp
          rcases List.mem_append.mp hp with hp | hp
          · exact hdb p hp
          · rw [List.mem_singleton] at hp
            subst hp
            exact fun _ => hopened.bare
      | exited _ _ _ _ _ _ _ _ _ _ _ hpositions _ _ =>
        rw [hpositions]
        exact forall_modifyRow hdb fun p _ hp => closeByTrade_bare hp
    · cases hround with
      | alerted hbook =>
        rw [hbook.positions]
        exact hdb
      | closed _ _ _ _ _ _ _ _ _ _ _ _ hpositions _ _ =>
        rw [hpositions]
        exact forall_modifyRow hdb fun p _ hp => closeByTrade_bare hp

/-- **The two paths never agree.**  Take any history of the webhook path and any history of
the reconciliation path from a world in which the entry order has no position yet: a
position of that order closed in the first never agrees with one of the second. -/
theorem paths_never_agree (entryOrderId : Uuid) (w : World)
    (hstart : ∀ p ∈ w.db.positions, p.entryOrderId ≠ entryOrderId)
    (webhookSteps reconcileSteps : List Step) (hwebhook : ∀ s ∈ webhookSteps, WebhookPath s)
    (hreconcile : ∀ s ∈ reconcileSteps, ReconcilePath s) :
    ∀ p ∈ (runFrom step w webhookSteps).db.positions,
      ∀ q ∈ (runFrom step w reconcileSteps).db.positions,
        p.entryOrderId = entryOrderId → q.entryOrderId = entryOrderId →
          p.status = .CLOSED → q.status = .CLOSED → ¬ Agree p q := by
  have hfees : ∀ p ∈ (runFrom step w webhookSteps).db.positions, FeesOnClose entryOrderId p :=
    runFrom_inv (fun p hp heq => absurd heq (hstart p hp)) webhookSteps
      fun w s hs h => webhookPath_feesOnClose (w := w) (hwebhook s hs) h
  have hbare : ∀ q ∈ (runFrom step w reconcileSteps).db.positions, Bare entryOrderId q :=
    runFrom_inv (fun q hq heq => absurd heq (hstart q hq)) reconcileSteps
      fun w s hs h => reconcilePath_bare (w := w) (hreconcile s hs) h
  intro p hp q hq hpEntry hqEntry hpClosed _ hagree
  have hp' : p.feesUsdt ≠ none := hfees p hp hpEntry hpClosed
  have hq' : q.feesUsdt = none := (hbare q hq hqEntry).1
  exact hp' (hagree.feesUsdt.trans hq')

/-- A trade recorded by reconciliation is in no setup cohort. -/
theorem bare_not_selected {entryOrderId : Uuid} {q : Position} (h : Bare entryOrderId q)
    (hentry : q.entryOrderId = entryOrderId) (f : MetricsFilter) (hregime : f.regime ≠ none) :
    f.selects q = false := by
  obtain ⟨regime, hregime⟩ := Option.ne_none_iff_exists'.mp hregime
  simp [MetricsFilter.selects, hregime, (h hentry).2.2.1]

/-! ## One trade, recorded twice -/

/-- The two histories in which trade 7 is reported: by its webhooks alone, and by two
reconciliations alone. -/
def btcByWebhook : List Step :=
  [.webhook (receivedAt (minutes 2)) (btcTrade.entryFill "s3cret"),
    .webhook (receivedAt (minutes 21)) (btcTrade.exitFill "s3cret")]

def btcByReconciliation : List Step :=
  [.reconcile (passAt (minutes 10) btcTrade.openTrade),
    .reconcile (passAt (minutes 30) btcTrade.closedTrade)]

/-- Trade 7 closed over either path: the two positions do not agree. -/
theorem btc_paths_never_agree :
    ∃ p ∈ (runFrom step awaitingFill btcByWebhook).db.positions,
      ∃ q ∈ (runFrom step awaitingFill btcByReconciliation).db.positions,
        p.entryOrderId = 2 ∧ q.entryOrderId = 2 ∧ p.status = .CLOSED ∧ q.status = .CLOSED ∧
          ¬ Agree p q := by
  have hp : ∃ p ∈ (runFrom step awaitingFill btcByWebhook).db.positions,
      p.entryOrderId = 2 ∧ p.status = .CLOSED := by decide +kernel
  have hq : ∃ q ∈ (runFrom step awaitingFill btcByReconciliation).db.positions,
      q.entryOrderId = 2 ∧ q.status = .CLOSED := by decide +kernel
  obtain ⟨p, hp, hpEntry, hpClosed⟩ := hp
  obtain ⟨q, hq, hqEntry, hqClosed⟩ := hq
  exact ⟨p, hp, q, hq, hpEntry, hqEntry, hpClosed, hqClosed,
    paths_never_agree 2 awaitingFill (by decide +kernel) btcByWebhook btcByReconciliation
      (by simp [btcByWebhook, WebhookPath]) (by simp [btcByReconciliation, ReconcilePath])
      p hp q hq hpEntry hqEntry hpClosed hqClosed⟩

/-- The same facts about one trade lead to two different positions. -/
theorem same_facts_disagree :
    ¬ ∀ (w : World) (facts : TradeFacts) (secret : String)
      (ctxEntry ctxExit : WebhookContext) (ctxOpen ctxClosed : ReconcileContext),
      ctxEntry.sharedSecret = secret → ctxExit.sharedSecret = secret →
      (∀ row tradeId, ctxOpen.getTrade row tradeId = some facts.openTrade) →
      (∀ row tradeId, ctxClosed.getTrade row tradeId = some facts.closedTrade) →
        ∀ p ∈ (runFrom step w [.webhook ctxEntry (facts.entryFill secret),
            .webhook ctxExit (facts.exitFill secret)]).db.positions,
          ∀ q ∈ (runFrom step w [.reconcile ctxOpen, .reconcile ctxClosed]).db.positions,
            p.status = .CLOSED → q.status = .CLOSED → p.entryOrderId = q.entryOrderId →
              Agree p q := by
  intro h
  have hp : ∃ p ∈ (runFrom step awaitingFill btcByWebhook).db.positions,
      p.status = .CLOSED ∧ p.entryOrderId = 2 ∧ p.feesUsdt ≠ none := by decide +kernel
  have hq : ∃ q ∈ (runFrom step awaitingFill btcByReconciliation).db.positions,
      q.status = .CLOSED ∧ q.entryOrderId = 2 ∧ q.feesUsdt = none := by decide +kernel
  obtain ⟨p, hp, hpClosed, hpEntry, hpFees⟩ := hp
  obtain ⟨q, hq, hqClosed, hqEntry, hqFees⟩ := hq
  have hagree := h awaitingFill btcTrade "s3cret" (receivedAt (minutes 2))
    (receivedAt (minutes 21)) (passAt (minutes 10) btcTrade.openTrade)
    (passAt (minutes 30) btcTrade.closedTrade) rfl rfl (fun _ _ => rfl) (fun _ _ => rfl)
    p hp q hq hpClosed hqClosed (hpEntry.trans hqEntry.symm)
  exact hpFees (hagree.feesUsdt.trans hqFees)

end TradeMind.Analysis
