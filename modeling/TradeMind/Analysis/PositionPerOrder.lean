import TradeMind.Analysis.ReconcileEffects
import TradeMind.Analysis.WebhookEffects

/-!
# One position per entry order

Two writers open positions.  Reconciliation looks for the order's position before it opens
one; the webhook handler does not, so a repeated `entry_fill`, or one that arrives after a
reconciliation pass, opens a second position on the same order.  `OpensFresh` is the
condition on a request under which that does not happen, and a run keeps one position per
entry order exactly when all its requests meet it.
-/

set_option autoImplicit false

namespace TradeMind.Analysis

open TradeMind.Library TradeMind.Model

/-- No two positions have the same entry order. -/
def OnePositionPerEntryOrder (w : World) : Prop :=
  (w.db.positions.map Position.entryOrderId).Nodup

instance (w : World) : Decidable (OnePositionPerEntryOrder w) :=
  inferInstanceAs (Decidable (List.Nodup _))

/-- A complete, authenticated `entry_fill` whose order is found meets no position on that
order yet. -/
def OpensFresh (w : World) : Step → Prop
  | .webhook ctx payload =>
    Authenticated ctx payload → payload.event = .entry_fill →
      payload.openRate ≠ none → payload.amount ≠ none →
        ∀ order, (findOrder ctx.rows w.db payload.tradeId payload.pair .BUY).1 = some order →
          ∀ p ∈ w.db.positions, p.entryOrderId ≠ order.id
  | .signal _ => True
  | .reconcile _ => True

variable {w : World}

/-- A delivered signal opens no position and leaves the entry orders alone. -/
theorem signal_entryOrderIds (w : World) (d : Delivery) :
    (processSignal w d).world.db.positions.map Position.entryOrderId =
      w.db.positions.map Position.entryOrderId := by
  cases processSignal_effect w d with
  | quiet _ hbook _ _ => rw [hbook.positions]
  | entry _ _ _ _ _ hbook =>
    rcases hbook with hdb | ⟨_, _, _, _, hentered⟩
    · rw [hdb]
    · rw [hentered.positions]
  | exit _ _ _ _ _ hbook =>
    rcases hbook with hdb | ⟨_, _, _, hsame | ⟨_, _, hexited⟩⟩
    · rw [hdb]
    · rw [hsame.positions]
    · rcases hexited.positions with ⟨_, hpositions⟩ | ⟨_, hpositions⟩
      · rw [hpositions, map_modifyRow]
        exact fun _ _ _ => rfl
      · rw [hpositions]

theorem settleExit_entryOrderIds (ctx : WebhookContext) (db : Database)
    (payload : FreqtradeWebhookPayload) (order : Order) (position : Position)
    (closeRate amount : ℚ) :
    (settleExit ctx db payload order position closeRate amount).positions.map
      Position.entryOrderId = db.positions.map Position.entryOrderId := by
  unfold settleExit
  simp only [Database.addAuditEvent_positions, Database.modifyPosition_positions]
  exact map_modifyRow _ fun _ _ _ => rfl

theorem exitFill_entryOrderIds (ctx : WebhookContext) (db : Database)
    (payload : FreqtradeWebhookPayload) :
    (handleExitFill ctx db payload).positions.map Position.entryOrderId =
      db.positions.map Position.entryOrderId := by
  cases handleExitFill_exitFill ctx db payload with
  | ignored _ h => rw [h, findOrder_positions]
  | untracked _ _ h => rw [h]
  | unlinked _ _ _ _ _ _ horder _ h =>
    rw [h, Database.modifyOrder_positions, exitOrder_positions horder, findOrder_positions]
  | settled _ _ _ _ _ _ _ horder _ h =>
    rw [h, settleExit_entryOrderIds, Database.modifyOrder_positions,
      exitOrder_positions horder, findOrder_positions]

/-- **An entry fill** keeps one position per entry order exactly where it opens a fresh
one. -/
theorem entryFill_nodup_iff {ctx : WebhookContext} {db : Database}
    {payload : FreqtradeWebhookPayload} (h : (db.positions.map Position.entryOrderId).Nodup) :
    ((handleEntryFill ctx db payload).positions.map Position.entryOrderId).Nodup ↔
      (payload.openRate ≠ none → payload.amount ≠ none →
        ∀ order, (findOrder ctx.rows db payload.tradeId payload.pair .BUY).1 = some order →
          ∀ p ∈ db.positions, p.entryOrderId ≠ order.id) := by
  cases handleEntryFill_entryFill ctx db payload with
  | ignored hwhy hignored =>
    rw [hignored, findOrder_positions]
    refine ⟨fun _ hopenRate hamount order horder => ?_, fun _ => h⟩
    rcases hwhy with hnone | hnone | hnone
    · rw [hnone] at horder
      cases horder
    · exact absurd hnone hopenRate
    · exact absurd hnone hamount
  | filled order db₁ openRate amount hfound hopenRate hamount _ hpositions _ =>
    rw [hpositions, List.map_append, List.map_singleton, List.nodup_append]
    constructor
    · rintro ⟨_, _, hdisjoint⟩ _ _ found hfound' p hp heq
      rw [hfound] at hfound'
      cases hfound'
      exact hdisjoint p.entryOrderId (List.mem_map_of_mem hp) _ (List.mem_singleton_self _) heq
    · intro hfresh
      have hfresh' := hfresh (by simp [hopenRate]) (by simp [hamount]) order (by rw [hfound])
      refine ⟨h, List.nodup_singleton _, ?_⟩
      intro id hid id' hid' heq
      obtain ⟨p, hp, rfl⟩ := List.mem_map.mp hid
      rw [List.mem_singleton] at hid'
      exact hfresh' p hp (heq.trans hid')

/-- A round of reconciliation keeps one position per entry order: it looks before it
opens. -/
theorem reconcile_nodup (ctx : ReconcileContext) {db : Database}
    (h : (db.positions.map Position.entryOrderId).Nodup) :
    ((reconcileSubmittedOrders ctx db).1.positions.map Position.entryOrderId).Nodup := by
  refine reconcileSubmittedOrders_inv
    (fun db => (db.positions.map Position.entryOrderId).Nodup) ctx
    (fun db order db' hdb hround => ?_)
    (fun db position entry db' hdb hround => ?_) h
  · cases hround with
    | alerted hbook => rw [hbook.positions]; exact hdb
    | entered _ _ _ _ hpositions _ _ =>
      rcases hpositions with hsame | ⟨p, hfresh, hopened, happend⟩
      · rw [hsame]
        exact hdb
      · rw [happend, List.map_append, List.map_singleton, List.nodup_append]
        refine ⟨hdb, List.nodup_singleton _, ?_⟩
        intro id hid id' hid' heq
        obtain ⟨q, hq, rfl⟩ := List.mem_map.mp hid
        rw [List.mem_singleton, hopened.entryOrderId] at hid'
        exact hfresh q hq (heq.trans hid')
    | exited _ _ _ _ _ _ _ _ _ _ _ hpositions _ _ =>
      rw [hpositions, map_modifyRow]
      · exact hdb
      · exact fun _ _ _ => rfl
  · cases hround with
    | alerted hbook => rw [hbook.positions]; exact hdb
    | closed _ _ _ _ _ _ _ _ _ _ _ _ hpositions _ _ =>
      rw [hpositions, map_modifyRow]
      · exact hdb
      · exact fun _ _ _ => rfl

/-- **One step** keeps one position per entry order exactly where it opens a fresh one. -/
theorem step_onePosition_iff (w : World) (s : Step) (h : OnePositionPerEntryOrder w) :
    OnePositionPerEntryOrder (step w s) ↔ OpensFresh w s := by
  unfold OnePositionPerEntryOrder at h ⊢
  cases s with
  | signal d =>
    refine ⟨fun _ => trivial, fun _ => ?_⟩
    have hids := signal_entryOrderIds w d
    exact hids ▸ h
  | reconcile ctx => exact ⟨fun _ => trivial, fun _ => reconcile_nodup ctx h⟩
  | webhook ctx payload =>
    by_cases hauth : Authenticated ctx payload
    · simp only [step, freqtradeWebhook_of_authenticated hauth, Option.getD_some, OpensFresh,
        hauth, true_implies]
      cases hevent : payload.event with
      | entry_fill => simpa using entryFill_nodup_iff h
      | exit_fill =>
        rw [exitFill_entryOrderIds]
        simpa using h
      | entry_cancel =>
        rw [handleEntryCancel, markCancelled_positions]
        simpa using h
      | exit_cancel =>
        rw [handleExitCancel, markCancelled_positions]
        simpa using h
      | other _ => simpa using h
    · simp only [step, freqtradeWebhook_of_not_authenticated hauth, Option.getD_none, OpensFresh,
        hauth, false_implies, iff_true]
      exact h

/-- **One position per entry order**, over every run of signals, webhook requests and
reconciliation passes: it holds in every state of the run if and only if every `entry_fill`
of the run meets an order without a position. -/
theorem run_onePosition_iff (w : World) (h : OnePositionPerEntryOrder w) (steps : List Step) :
    AllStates step OnePositionPerEntryOrder w steps ↔ AllSteps step OpensFresh w steps :=
  allStates_iff_allSteps (fun _ => True) (fun _ _ _ => trivial)
    (fun w s _ => step_onePosition_iff w s) trivial h steps

/-- A fill and then the exit of one trade open one position. -/
theorem fill_then_exit_onePosition : OnePositionPerEntryOrder awaitingFill ∧
    (AllStates step OnePositionPerEntryOrder awaitingFill
        [.webhook (receivedAt 1) (btcEntryFill 7), .webhook (receivedAt 2) (btcExitFill 7)] ↔
      AllSteps step OpensFresh awaitingFill
        [.webhook (receivedAt 1) (btcEntryFill 7), .webhook (receivedAt 2) (btcExitFill 7)]) :=
  ⟨by decide +kernel, run_onePosition_iff _ (by decide +kernel) _⟩

/-- The same `entry_fill` delivered twice opens two positions on one entry order. -/
theorem repeated_fill_opens_twice :
    ¬ ∀ (w : World) (steps : List Step), OnePositionPerEntryOrder w →
      (∀ s ∈ steps, ∀ d, s ≠ .signal d) →
        AllStates step OnePositionPerEntryOrder w steps := by
  intro h
  have hrun := h awaitingFill
    [.webhook (receivedAt 1) (btcEntryFill 7), .webhook (receivedAt 2) (btcEntryFill 7)]
    (by decide +kernel) (by simp)
  have hlast : ¬ OnePositionPerEntryOrder (runFrom step awaitingFill
      [.webhook (receivedAt 1) (btcEntryFill 7), .webhook (receivedAt 2) (btcEntryFill 7)]) := by
    decide +kernel
  exact hlast hrun.2.2

end TradeMind.Analysis
