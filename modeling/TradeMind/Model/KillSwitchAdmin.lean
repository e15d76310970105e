import TradeMind.Library.RowTransactions
import TradeMind.Model.System

/-!
# The kill-switch endpoints

`admin_api/routers/killswitch.py`: a request switches the `SystemState` row and the Redis
mirror in one transaction.  The mirror is written before the commit, so a request that
fails may leave it written.  `operate` is the machine of the writers and the operator's
requests together; `killSwitchRow` is what requests that overlap do to the row.
-/

set_option autoImplicit false

namespace TradeMind.Model

open TradeMind.Library

/-- The two endpoints of the kill switch. -/
inductive KillSwitchAction
  | enable | disable
  deriving DecidableEq, Repr

/-- The awaited steps of a kill-switch request that may raise. -/
inductive ApplyAwait
  | stateRead | stateFlush | auditFlush | mirror | commit | reload
  deriving DecidableEq, Repr

/-- A kill-switch request, its trace's `uuid4`, and what it meets. -/
structure KillSwitchRequest where
  action : KillSwitchAction
  reason : String
  updatedBy : Option String
  traceId : Uuid
  /-- The start of the transaction, Postgres `now()`. -/
  startedAt : Time
  now : Time
  fault : ApplyAwait → Option Fault

/-- The awaited step raises. -/
def KillSwitchRequest.fails (r : KillSwitchRequest) (a : ApplyAwait) : Bool := (r.fault a).isSome

/-- `body.updated_by or "api:admin"`. -/
def KillSwitchRequest.actor (r : KillSwitchRequest) : String :=
  match r.updatedBy with
  | some updatedBy => if updatedBy.isEmpty then "api:admin" else updatedBy
  | none => "api:admin"

/-- The session after `kill_switch.enable` or `kill_switch.disable` has flushed. -/
def KillSwitchRequest.session (r : KillSwitchRequest) (db : Database) : Database :=
  match r.action with
  | .enable => KillSwitch.enable db r.startedAt r.reason r.actor r.traceId
  | .disable => KillSwitch.disable db r.startedAt r.now r.reason r.actor r.traceId

/-- `redis_client.set(KILLSWITCH_GLOBAL_KEY, ...)`: `"1"` on enable and `"0"` on disable. -/
def KillSwitchRequest.mirrored (r : KillSwitchRequest) (w : World) : World :=
  { w with redis := { w.redis with killswitchGlobal := some (r.action = .enable) } }

/-- `_apply`: the world it leaves, and whether the endpoint answers. -/
def applyKillSwitch (w : World) (r : KillSwitchRequest) : World × Bool :=
  if r.fails .stateRead ∨ r.fails .stateFlush ∨ r.fails .auditFlush then (w, false)
  else
    match r.fault .mirror with
    | some .before => (w, false)
    | some .after => (r.mirrored w, false)
    | none =>
      let committed := { r.mirrored w with db := r.session w.db }
      match r.fault .commit with
      | some .before => (r.mirrored w, false)
      | some .after => (committed, false)
      | none => (committed, !r.fails .reload)

/-- A transaction of one of the writers, or a kill-switch request. -/
inductive Operation
  | transaction (t : Step)
  | killSwitch (r : KillSwitchRequest)

/-- What the operation leaves behind. -/
def operate (w : World) : Operation → World
  | .transaction t => step w t
  | .killSwitch r => (applyKillSwitch w r).1

/-! ## Overlapping requests -/

/-- The columns of `system_state` that a request assigns. -/
def systemStateColumns : List (Column SystemState) :=
  [⟨Bool, inferInstance, SystemState.killswitchEnabled,
      fun v s => { s with killswitchEnabled := v }⟩,
    ⟨Option String, inferInstance, SystemState.killswitchReason,
      fun v s => { s with killswitchReason := v }⟩,
    ⟨Option String, inferInstance, SystemState.killswitchUpdatedBy,
      fun v s => { s with killswitchUpdatedBy := v }⟩,
    ⟨Option Time, inferInstance, SystemState.consecutiveLossResetAt,
      fun v s => { s with consecutiveLossResetAt := v }⟩]

/-- `kill_switch.enable` and `disable` as transactions on the `SystemState` row: the row is
loaded by `session.get`, assigned, and flushed. -/
def killSwitchRow : RowProgram KillSwitchRequest SystemState where
  columns := systemStateColumns
  plan := fun r loaded => (r.session { systemState := loaded }).systemState

end TradeMind.Model
