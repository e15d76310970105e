import Mathlib.Data.Prod.Lex
import TradeMind.Library.CursorWalk
import TradeMind.Model.Records

/-!
# The audit poll of the notifier

`notifier/main.py`: `_poll_audit_events` beside the transactions that write the audit log.
A row carries the start of its transaction as `created_at` and becomes visible when the
transaction commits.  One step is one statement of a writer or one point of the poll: the
select, one event of the batch, the commit.
-/

set_option autoImplicit false

namespace TradeMind.Model

open TradeMind.Library

/-- `_NOTIFY_EVENT_TYPES`. -/
def notifyEventTypes : List AuditEventType :=
  [.POSITION_OPENED, .POSITION_CLOSED, .KILLSWITCH_ENABLED, .KILLSWITCH_DISABLED,
    .RECONCILIATION_REQUIRED, .LLM_TIMEOUT_STREAK, .LLM_TIMEOUT_RECOVERED]

/-- `_AUDIT_BATCH_SIZE`. -/
def auditBatchSize : ℕ := 50

/-- `_NIL_UUID`. -/
def nilUuid : Uuid := 0

/-- `(last_audit_created_at, last_audit_id)`. -/
abbrev AuditCursor := Time ×ₗ Uuid

/-- An audit row with the transaction that inserted it. -/
structure AuditRow where
  event : AuditEvent
  transaction : ℕ
  /-- The cursor had been initialised when the row was inserted. -/
  sinceInit : Bool
  deriving DecidableEq, Repr

/-- `(created_at, id)`. -/
def AuditRow.cursor (r : AuditRow) : AuditCursor := toLex (r.event.createdAt, r.event.id)

/-- A poll between its select and its commit. -/
structure Poll where
  /-- The rows that were committed when the batch was selected. -/
  visible : List AuditRow
  /-- The rows of the batch still to be handled. -/
  events : List AuditRow
  /-- The cursor on the session's `NotifierState`, not stored yet. -/
  cursor : AuditCursor

/-- The audit log, its writers and the notifier. -/
structure Notifier where
  /-- The open transactions with their start times. -/
  transactions : List (ℕ × Time) := []
  uncommitted : List AuditRow := []
  committed : List AuditRow := []
  /-- The stored cursor, once there is one. -/
  cursor : Option AuditCursor := none
  poll : Option Poll := none
  /-- The ids of the events Telegram has taken. -/
  sent : List Uuid := []

/-- A statement of a writer or a point of the poll. -/
inductive NotifierStep
  | begin (transaction : ℕ) (startedAt : Time)
  | insert (transaction : ℕ) (id traceId : Uuid) (eventType : AuditEventType) (payload : Payload)
  | commit (transaction : ℕ)
  | rollback (transaction : ℕ)
  | initState (now : Time)
  | select
  | handle (sent : Bool)
  | store
  | abandon

namespace Notifier

variable (n : Notifier)

/-- A transaction begins. -/
def begin (transaction : ℕ) (startedAt : Time) : Notifier :=
  if n.transactions.lookup transaction = none then
    { n with transactions := (transaction, startedAt) :: n.transactions }
  else n

/-- An open transaction inserts an audit event; the primary key refuses an id that is
taken. -/
def insert (transaction : ℕ) (id traceId : Uuid) (eventType : AuditEventType)
    (payload : Payload) : Notifier :=
  match n.transactions.lookup transaction with
  | none => n
  | some startedAt =>
    if (n.committed ++ n.uncommitted).any fun r => r.event.id = id then n
    else
      { n with
        uncommitted := n.uncommitted ++
          [{ event := { id, traceId, eventType, payload, createdAt := startedAt }
             transaction
             sinceInit := n.cursor.isSome }] }

/-- The rows of a transaction leave it. -/
def close (transaction : ℕ) : Notifier :=
  { n with
    transactions := n.transactions.filter fun t => t.1 ≠ transaction
    uncommitted := n.uncommitted.filter fun r => r.transaction ≠ transaction }

/-- The rows of a transaction become visible. -/
def commit (transaction : ℕ) : Notifier :=
  { n.close transaction with
    committed := n.committed ++ n.uncommitted.filter fun r => r.transaction = transaction }

/-- `_get_or_init_state`. -/
def initState (now : Time) : Notifier :=
  match n.cursor with
  | some _ => n
  | none => { n with cursor := some (toLex (now, nilUuid)) }

/-- The select of `_poll_audit_events`. -/
def select : Notifier :=
  match n.poll, n.cursor with
  | none, some cursor =>
    { n with
      poll := some
        { visible := n.committed
          events := batch AuditRow.cursor cursor auditBatchSize n.committed
          cursor } }
  | _, _ => n

/-- The loop body of `_poll_audit_events`; `sent` is what `send_message` answers. -/
def handle (sent : Bool) : Notifier :=
  match n.poll with
  | none => n
  | some p =>
    match p.events with
    | [] => n
    | row :: rest =>
      if row.event.eventType ∈ notifyEventTypes then
        if sent then
          { n with
            sent := row.event.id :: n.sent
            poll := some { p with events := rest, cursor := row.cursor } }
        else { n with poll := some { p with events := [] } }
      else { n with poll := some { p with events := rest, cursor := row.cursor } }

/-- The commit at the end of a poll. -/
def store : Notifier :=
  match n.poll with
  | none => n
  | some p =>
    match p.events with
    | [] => { n with cursor := some p.cursor, poll := none }
    | _ :: _ => n

end Notifier

/-- What the step leaves.  A poll that raises, or ends with its process, stores nothing. -/
def notifierStep (n : Notifier) : NotifierStep → Notifier
  | .begin transaction startedAt => n.begin transaction startedAt
  | .insert transaction id traceId eventType payload =>
    n.insert transaction id traceId eventType payload
  | .commit transaction => n.commit transaction
  | .rollback transaction => n.close transaction
  | .initState now => n.initState now
  | .select => n.select
  | .handle sent => n.handle sent
  | .store => n.store
  | .abandon => { n with poll := none }

end TradeMind.Model
