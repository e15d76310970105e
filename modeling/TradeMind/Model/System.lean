import TradeMind.Library.Machine
import TradeMind.Model.ProcessSignal
import TradeMind.Model.Reconciliation

/-!
# The system the writers form

The three writers of orders and positions as one machine: a delivered signal, a webhook
request and a reconciliation pass, each an atomic transaction, in any order.
-/

set_option autoImplicit false

namespace TradeMind.Model

/-- One transaction of one of the writers. -/
inductive Step
  | signal (d : Delivery)
  | webhook (ctx : WebhookContext) (payload : FreqtradeWebhookPayload)
  | reconcile (ctx : ReconcileContext)

/-- What the transaction leaves behind; a refused webhook changes nothing. -/
def step (w : World) : Step → World
  | .signal d => (processSignal w d).world
  | .webhook ctx payload =>
    { w with db := (freqtradeWebhook ctx w.db payload).getD w.db }
  | .reconcile ctx => { w with db := (reconcileSubmittedOrders ctx w.db).1 }

/-- The request carries the configured secret. -/
def Authenticated (ctx : WebhookContext) (payload : FreqtradeWebhookPayload) : Prop :=
  ctx.sharedSecret ≠ "" ∧ payload.secret = ctx.sharedSecret

instance (ctx : WebhookContext) (payload : FreqtradeWebhookPayload) :
    Decidable (Authenticated ctx payload) :=
  inferInstanceAs (Decidable (_ ∧ _))

theorem freqtradeWebhook_of_authenticated {ctx : WebhookContext} {db : Database}
    {payload : FreqtradeWebhookPayload} (h : Authenticated ctx payload) :
    freqtradeWebhook ctx db payload = some (match payload.event with
      | .entry_fill => handleEntryFill ctx db payload
      | .exit_fill => handleExitFill ctx db payload
      | .entry_cancel => handleEntryCancel ctx db payload
      | .exit_cancel => handleExitCancel ctx db payload
      | .other _ => db) := by
  unfold freqtradeWebhook
  apply if_neg
  rintro (h1 | h2)
  · exact h.1 h1
  · exact h2 h.2

theorem freqtradeWebhook_of_not_authenticated {ctx : WebhookContext} {db : Database}
    {payload : FreqtradeWebhookPayload} (h : ¬ Authenticated ctx payload) :
    freqtradeWebhook ctx db payload = none := by
  unfold freqtradeWebhook
  apply if_pos
  by_contra hn
  push Not at hn
  exact h hn

end TradeMind.Model
