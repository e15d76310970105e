import TradeMind.Model.Database

/-!
# Redis keys and the kill switch

The Redis state the Risk Engine touches (`common/redis_keys.py`): the decision idempotency
keys with their expiry and the kill-switch mirror.  The kill switch itself is the
`SystemState` row (`common/kill_switch.py`).
-/

set_option autoImplicit false

namespace TradeMind.Model

/-- `DECISION_IDEMPOTENCY_TTL_SECONDS` as an interval. -/
def decisionIdempotencyTtl : Time := 24 * 60 * 60 * 1000000

structure Redis where
  /-- `idempotency:decision:<signal id>` and the instant it expires. -/
  decisionKeys : List (Uuid × Time) := []
  /-- `killswitch:global`. -/
  killswitchGlobal : Option Bool := none
  deriving DecidableEq, Repr

/-- The idempotency key of a signal exists at `now`. -/
def Redis.holds (r : Redis) (signalId : Uuid) (now : Time) : Prop :=
  ∃ entry ∈ r.decisionKeys, entry.1 = signalId ∧ now < entry.2

instance (r : Redis) (signalId : Uuid) (now : Time) : Decidable (r.holds signalId now) :=
  inferInstanceAs (Decidable (∃ entry ∈ r.decisionKeys, entry.1 = signalId ∧ now < entry.2))

/-- `SET key "1" NX EX ttl` where the key does not exist. -/
def Redis.claim (r : Redis) (signalId : Uuid) (now : Time) : Redis :=
  { r with decisionKeys := (signalId, now + decisionIdempotencyTtl) :: r.decisionKeys }

namespace KillSwitch

/-- `is_enabled`. -/
def isEnabled (db : Database) : Bool :=
  (db.systemState.map SystemState.killswitchEnabled).getD false

/-- The database half of `enable`. -/
def enable (db : Database) (startedAt : Time) (reason updatedBy : String) (traceId : Uuid) :
    Database :=
  let state := db.systemState.getD {}
  let db := { db with
    systemState := some { state with
      killswitchEnabled := true
      killswitchReason := some reason
      killswitchUpdatedBy := some updatedBy } }
  db.addAuditEvent startedAt traceId .KILLSWITCH_ENABLED
    [("reason", PayloadAtom.text reason), ("updated_by", PayloadAtom.text updatedBy)]

/-- The database half of `disable`; resuming also moves the loss-streak boundary. -/
def disable (db : Database) (startedAt now : Time) (reason updatedBy : String)
    (traceId : Uuid) : Database :=
  let state := db.systemState.getD {}
  let db := { db with
    systemState := some { state with
      killswitchEnabled := false
      killswitchReason := some reason
      killswitchUpdatedBy := some updatedBy
      consecutiveLossResetAt := some now } }
  db.addAuditEvent startedAt traceId .KILLSWITCH_DISABLED
    [("reason", PayloadAtom.text reason), ("updated_by", PayloadAtom.text updatedBy)]

end KillSwitch

end TradeMind.Model
