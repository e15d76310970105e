import TradeMind.Model.SignalPublishing

/-!
# The audit timeline of a cycle

`GET /audit` of `admin_api/app/routers/audit.py`: one query for each table, by the trace id
that a scheduler cycle mints and every row written on its behalf carries.  `created_at` is a
column of the model for orders and events only; signals and decisions come in any order.
-/

set_option autoImplicit false

namespace TradeMind.Model

open TradeMind.Library

/-- The row orders the database picks for the queries of a timeline. -/
structure TimelineRows where
  signals : Arrangement Signal
  riskDecisions : Arrangement RiskDecision
  orders : Arrangement Order
  auditEvents : Arrangement AuditEvent

/-- `AuditTimelineOut`. -/
structure AuditTimelineOut where
  traceId : Uuid
  signals : List Signal
  riskDecisions : List RiskDecision
  orders : List Order
  auditEvents : List AuditEvent
  deriving DecidableEq, Repr

/-- `get_audit_timeline` of an authorised request. -/
def getAuditTimeline (rows : TimelineRows) (db : Database) (traceId : Uuid) :
    AuditTimelineOut where
  traceId
  signals := rows.signals.arrange (db.signals.filter fun row => row.traceId = traceId)
  riskDecisions :=
    rows.riskDecisions.arrange (db.riskDecisions.filter fun row => row.traceId = traceId)
  orders :=
    rows.orders.sortedAsc Order.createdAt (db.orders.filter fun row => row.traceId = traceId)
  auditEvents :=
    rows.auditEvents.sortedAsc AuditEvent.createdAt
      (db.auditEvents.filter fun row => row.traceId = traceId)

section Rows

variable {rows : TimelineRows} {db : Database} {traceId : Uuid}

@[simp] theorem mem_timeline_signals {row : Signal} :
    row ∈ (getAuditTimeline rows db traceId).signals ↔
      row ∈ db.signals ∧ row.traceId = traceId := by
  rw [getAuditTimeline, Arrangement.mem_arrange, List.mem_filter, decide_eq_true_iff]

@[simp] theorem mem_timeline_riskDecisions {row : RiskDecision} :
    row ∈ (getAuditTimeline rows db traceId).riskDecisions ↔
      row ∈ db.riskDecisions ∧ row.traceId = traceId := by
  rw [getAuditTimeline, Arrangement.mem_arrange, List.mem_filter, decide_eq_true_iff]

@[simp] theorem mem_timeline_orders {row : Order} :
    row ∈ (getAuditTimeline rows db traceId).orders ↔
      row ∈ db.orders ∧ row.traceId = traceId := by
  rw [getAuditTimeline, Arrangement.mem_sortedAsc, List.mem_filter, decide_eq_true_iff]

@[simp] theorem mem_timeline_auditEvents {row : AuditEvent} :
    row ∈ (getAuditTimeline rows db traceId).auditEvents ↔
      row ∈ db.auditEvents ∧ row.traceId = traceId := by
  rw [getAuditTimeline, Arrangement.mem_sortedAsc, List.mem_filter, decide_eq_true_iff]

end Rows

end TradeMind.Model
