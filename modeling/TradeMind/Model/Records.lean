import Mathlib.Data.Rat.Defs
import Mathlib.Order.Lattice
import Mathlib.Algebra.Order.Ring.Unbundled.Rat

/-!
# The shared domain records

The enumerations of `common/enums.py` and the rows of `common/db/models.py`.  Amounts
(`Decimal`, `Numeric` columns) are exact rationals, instants are microseconds since the
epoch in UTC, and a UUID is a number: only its being fresh matters.  Columns that no
modelled function reads or compares (prompt and response documents, update stamps) are
left out.
-/

set_option autoImplicit false

namespace TradeMind.Model

abbrev Uuid := ℕ

abbrev Symbol := String

/-- Microseconds since the epoch, UTC. -/
abbrev Time := ℤ

/-- The length of `n` minutes, in microseconds. -/
def minutes (n : ℤ) : Time := n * 60 * 1000000

/-- `timedelta(minutes=n)`.  The days of a `timedelta`, rounded down, are at most 999999999 either
way, and beyond that the constructor raises `OverflowError` (`none`). -/
def timedeltaMinutes (n : ℤ) : Option Time :=
  if -999999999 ≤ n / 1440 ∧ n / 1440 ≤ 999999999 then some (minutes n) else none

/-- A `timedelta` of minutes, where there is one, is their length. -/
theorem timedeltaMinutes_eq {n : ℤ} {delta : Time} (h : timedeltaMinutes n = some delta) :
    delta = minutes n := by
  unfold timedeltaMinutes at h
  split at h
  · exact (Option.some.inj h).symm
  · cases h

/-- `datetime.date()` of an instant in UTC, as a day number. -/
def dateOf (t : Time) : ℤ := t / (24 * 60 * 60 * 1000000)

/-! ## Enumerations -/

inductive Action
  | BUY | SELL | HOLD
  deriving DecidableEq, Repr

inductive RejectionReason
  | LOW_CONFIDENCE | STALE_SIGNAL | SIGNAL_WAS_HOLD | NEGATIVE_EXPECTANCY_SETUP
  | MAX_POSITIONS_REACHED | MAX_EXPOSURE_REACHED | DAILY_LOSS_LIMIT_HIT
  | CONSECUTIVE_LOSS_PAUSE | COOLDOWN_ACTIVE | KILLSWITCH_ACTIVE | DUPLICATE_SIGNAL
  | INSUFFICIENT_BALANCE | INVALID_SIGNAL_SCHEMA | FREQTRADE_BALANCE_UNAVAILABLE
  | INTERNAL_ERROR | NO_POSITION_TO_EXIT
  deriving DecidableEq, Repr

/-- The member's `.value`. -/
def RejectionReason.value : RejectionReason → String
  | .LOW_CONFIDENCE => "LOW_CONFIDENCE"
  | .STALE_SIGNAL => "STALE_SIGNAL"
  | .SIGNAL_WAS_HOLD => "SIGNAL_WAS_HOLD"
  | .NEGATIVE_EXPECTANCY_SETUP => "NEGATIVE_EXPECTANCY_SETUP"
  | .MAX_POSITIONS_REACHED => "MAX_POSITIONS_REACHED"
  | .MAX_EXPOSURE_REACHED => "MAX_EXPOSURE_REACHED"
  | .DAILY_LOSS_LIMIT_HIT => "DAILY_LOSS_LIMIT_HIT"
  | .CONSECUTIVE_LOSS_PAUSE => "CONSECUTIVE_LOSS_PAUSE"
  | .COOLDOWN_ACTIVE => "COOLDOWN_ACTIVE"
  | .KILLSWITCH_ACTIVE => "KILLSWITCH_ACTIVE"
  | .DUPLICATE_SIGNAL => "DUPLICATE_SIGNAL"
  | .INSUFFICIENT_BALANCE => "INSUFFICIENT_BALANCE"
  | .INVALID_SIGNAL_SCHEMA => "INVALID_SIGNAL_SCHEMA"
  | .FREQTRADE_BALANCE_UNAVAILABLE => "FREQTRADE_BALANCE_UNAVAILABLE"
  | .INTERNAL_ERROR => "INTERNAL_ERROR"
  | .NO_POSITION_TO_EXIT => "NO_POSITION_TO_EXIT"

inductive OrderSide
  | BUY | SELL
  deriving DecidableEq, Repr

inductive OrderStatus
  | SUBMITTED | FILLED | FAILED | CANCELLED
  deriving DecidableEq, Repr

inductive PositionStatus
  | OPEN | CLOSED
  deriving DecidableEq, Repr

inductive AuditEventType
  | SIGNAL_RECEIVED | SIGNAL_VALIDATION_FAILED | RISK_APPROVED | RISK_REJECTED
  | ORDER_SUBMITTED | ORDER_FILLED | ORDER_FAILED | ORDER_CANCELLED | POSITION_OPENED
  | POSITION_CLOSED | KILLSWITCH_ENABLED | KILLSWITCH_DISABLED | CONFIG_CHANGED
  | RECONCILIATION_REQUIRED | LLM_TIMEOUT_STREAK | LLM_TIMEOUT_RECOVERED
  deriving DecidableEq, Repr

/-! ## Rows -/

structure Signal where
  id : Uuid
  traceId : Uuid
  symbol : Symbol
  candleTs : Time
  action : Action
  confidence : ℚ
  price : ℚ
  atr14 : ℚ
  tradeScore : Option ℤ := none
  setupRegime : Option String := none
  volatilityRegime : Option String := none
  deriving DecidableEq, Repr

structure RiskDecision where
  id : Uuid
  traceId : Uuid
  signalId : Uuid
  approved : Bool
  rejectionReason : Option RejectionReason
  positionSizeUsdt : Option ℚ := none
  positionSizeBase : Option ℚ := none
  stopLossPrice : Option ℚ := none
  stopDistancePct : Option ℚ := none
  equitySnapshotUsdt : Option ℚ
  riskPctApplied : Option ℚ := none
  nominalRiskAmountUsdt : Option ℚ := none
  actualRiskUsdt : Option ℚ := none
  deriving DecidableEq, Repr

structure Order where
  id : Uuid
  traceId : Uuid
  riskDecisionId : Uuid
  freqtradeTradeId : Option ℤ
  symbol : Symbol
  side : OrderSide
  status : OrderStatus
  requestedAmount : ℚ
  filledAmount : Option ℚ := none
  avgPrice : Option ℚ := none
  dryRun : Bool
  createdAt : Time
  deriving DecidableEq, Repr

structure Position where
  id : Uuid
  symbol : Symbol
  status : PositionStatus
  entryOrderId : Uuid
  exitOrderId : Option Uuid := none
  entryPrice : ℚ
  exitPrice : Option ℚ := none
  amount : ℚ
  pnlUsdt : Option ℚ := none
  pnlPct : Option ℚ := none
  openedAt : Time
  closedAt : Option Time := none
  exitReason : Option String := none
  feesUsdt : Option ℚ := none
  feesEstimated : Bool := false
  rMultiple : Option ℚ := none
  marketRegime : Option String := none
  tradeScore : Option ℤ := none
  volatilityRegime : Option String := none
  deriving DecidableEq, Repr

/-- A scalar of an audit payload.  Enumeration members stand for their `.value`, and a
`Decimal` rendered by `str` for its value. -/
inductive PayloadAtom
  | null
  | bool (b : Bool)
  | text (s : String)
  | number (q : ℚ)
  | uuid (id : Uuid)
  | side (s : OrderSide)
  | status (s : OrderStatus)
  | reason (r : RejectionReason)
  deriving DecidableEq, Repr

/-- `str(x) if x is not None else None`. -/
def PayloadAtom.ofNumber : Option ℚ → PayloadAtom
  | some q => .number q
  | none => .null

/-- A nullable string column or field. -/
def PayloadAtom.ofText : Option String → PayloadAtom
  | some s => .text s
  | none => .null

/-- `reason.value if reason else None`. -/
def PayloadAtom.ofReason : Option RejectionReason → PayloadAtom
  | some r => .reason r
  | none => .null

inductive PayloadValue
  | atom (a : PayloadAtom)
  | object (entries : List (String × PayloadAtom))
  deriving DecidableEq, Repr

instance : Coe PayloadAtom PayloadValue := ⟨PayloadValue.atom⟩

/-- The JSON object an audit event carries, in insertion order. -/
abbrev Payload := List (String × PayloadValue)

structure AuditEvent where
  id : Uuid
  traceId : Uuid
  eventType : AuditEventType
  payload : Payload
  createdAt : Time
  deriving DecidableEq, Repr

structure SystemState where
  killswitchEnabled : Bool := false
  killswitchReason : Option String := none
  killswitchUpdatedBy : Option String := none
  consecutiveLossResetAt : Option Time := none
  deriving DecidableEq, Repr

end TradeMind.Model
