import TradeMind.Library.ExpiringStore
import TradeMind.Model.AnalysisPipeline

/-!
# The scheduler's cycles

`scheduler/app/jobs.py` at the granularity of single Redis operations: the lock that
`run_cycle` takes and gives back around its locked section, and the global counter
`_track_llm_analyze_health` keeps of `/analyze` calls without a usable answer.
-/

set_option autoImplicit false

namespace TradeMind.Model.Scheduler

open TradeMind.Model TradeMind.Library

universe u

/-! ## Keys and settings -/

/-- A number of seconds. -/
def seconds (n : ℤ) : Time := n * 1000000

/-- `CYCLE_LOCK_TTL_SECONDS`. -/
def cycleLockTtl : Time := seconds (5 * 60)

/-- `SchedulerSettings.llm_request_timeout_seconds`. -/
def llmRequestTimeout : Time := seconds 455

/-- `redis_keys.cycle_lock`. -/
def cycleLock (symbol : Symbol) : String := "lock:cycle:" ++ symbol

/-- The other keys a locked section writes. -/
inductive SectionKey
  /-- `redis_keys.candle_idempotency`. -/
  | candleIdempotency (symbol : Symbol) (timeframe candleTs : String)
  /-- `redis_keys.llm_timeout_streak`. -/
  | llmTimeoutStreak
  /-- `SIGNALS_PENDING_STREAM`. -/
  | signalsPending
  deriving DecidableEq, Repr

def SectionKey.name : SectionKey → String
  | .candleIdempotency symbol timeframe candleTs =>
    "idempotency:candle:" ++ symbol ++ ":" ++ timeframe ++ ":" ++ candleTs
  | .llmTimeoutStreak => "llm:analyze:timeout_streak"
  | .signalsPending => "signals:pending"

/-! ## The cycle lock -/

/-- Where an invocation of `run_cycle` stands. -/
inductive CyclePhase
  | idle
  /-- In the locked section, since the lock was acquired. -/
  | locked (symbol : Symbol) (since : Time)
  /-- Returned or raised, or skipped as the lock was held. -/
  | ended
  deriving DecidableEq, Repr

variable {ι : Type u}

/-- Redis and the invocations of `run_cycle`, scheduled or triggered by hand. -/
structure CycleWorld (ι : Type u) where
  now : Time
  redis : ExpiringStore String String
  phase : ι → CyclePhase
  /-- Who set a lock last.  Redis does not record it. -/
  setBy : String → Option ι

/-- One event of the scheduler's cycles: time passes, or an invocation makes its next Redis call. -/
inductive CycleEvent (ι : Type u)
  | pass (duration : ℕ)
  /-- `set(lock_key, "1", nx=True, ex=CYCLE_LOCK_TTL_SECONDS)`. -/
  | acquire (i : ι) (symbol : Symbol)
  /-- A write of `_run_locked_cycle` to another key. -/
  | write (i : ι) (key : SectionKey) (entry : Option (Expiring String))
  /-- The `finally` block: `delete(lock_key)`. -/
  | release (i : ι)

variable [DecidableEq ι]

/-- One step.  A locked section takes any time and ends in any way, so its `release` comes
whenever the run says. -/
def cycleStep (w : CycleWorld ι) : CycleEvent ι → CycleWorld ι
  | .pass duration => { w with now := w.now + duration }
  | .acquire i symbol =>
    match w.phase i with
    | .idle =>
      match w.redis.setNx w.now cycleLockTtl (cycleLock symbol) "1" with
      | (redis, true) =>
        { w with
          redis
          phase := Function.update w.phase i (.locked symbol w.now)
          setBy := Function.update w.setBy (cycleLock symbol) (some i) }
      | (_, false) => { w with phase := Function.update w.phase i .ended }
    | _ => w
  | .write i key entry =>
    match w.phase i with
    | .locked _ _ => { w with redis := Function.update w.redis key.name entry }
    | _ => w
  | .release i =>
    match w.phase i with
    | .locked symbol _ =>
      { w with
        redis := w.redis.delete (cycleLock symbol)
        phase := Function.update w.phase i .ended }
    | _ => w

/-! ## LLM outage alerts -/

/-- `_LLM_TIMEOUT_REASONS`. -/
def llmTimeoutReasons : List String := ["llm_timeout", "llm_service_unreachable", "provider_error"]

/-- The arguments of one `_track_llm_analyze_health` call, but for the threshold all share. -/
structure HealthCall where
  symbol : Symbol
  traceId : Uuid
  reasoning : String
  modelName : String
  deriving DecidableEq, Repr

/-- `timed_out`. -/
def HealthCall.timedOut (call : HealthCall) : Prop := call.reasoning ∈ llmTimeoutReasons

instance (call : HealthCall) : Decidable call.timedOut :=
  inferInstanceAs (Decidable (call.reasoning ∈ llmTimeoutReasons))

/-- The operator-alert event a call adds to its session. -/
structure HealthAlert where
  traceId : Uuid
  eventType : AuditEventType
  payload : Payload
  deriving DecidableEq, Repr

/-- The `LLM_TIMEOUT_STREAK` event. -/
def streakAlert (call : HealthCall) (streak threshold : ℤ) : HealthAlert :=
  { traceId := call.traceId
    eventType := .LLM_TIMEOUT_STREAK
    payload :=
      [("streak", PayloadAtom.number streak), ("threshold", PayloadAtom.number threshold),
        ("symbol", PayloadAtom.text call.symbol), ("reason", PayloadAtom.text call.reasoning)] }

/-- The `LLM_TIMEOUT_RECOVERED` event. -/
def recoveredAlert (call : HealthCall) (previous : ℤ) : HealthAlert :=
  { traceId := call.traceId
    eventType := .LLM_TIMEOUT_RECOVERED
    payload :=
      [("recovered_after", PayloadAtom.number previous),
        ("symbol", PayloadAtom.text call.symbol)] }

/-- Where a call that reports the health of the LLM stands between its Redis requests. -/
inductive HealthPhase
  | ready
  /-- Between the `get` that answered `previous` and the `delete`. -/
  | toDelete (previous : ℤ)
  | ended
  deriving DecidableEq, Repr

/-- The counter under `llm_timeout_streak`, the calls, and the alerts in the order of the
Redis answers that decide them. -/
structure HealthWorld (ι : Type u) where
  counter : Option ℤ := none
  phase : ι → HealthPhase := fun _ => .ready
  alerts : List HealthAlert := []

/-- The next Redis operation of a call of `_track_llm_analyze_health`.  The answer of `incr`
decides a streak, that of `get` a recovery; without expiry the `expire` changes nothing. -/
def healthStep (threshold : ℤ) (calls : ι → HealthCall) (w : HealthWorld ι) (i : ι) :
    HealthWorld ι :=
  match w.phase i with
  | .ready =>
    if threshold ≤ 0 ∨ (calls i).modelName = Llm.prefilterModelName then
      { w with phase := Function.update w.phase i .ended }
    else if (calls i).timedOut then
      let streak := w.counter.getD 0 + 1
      { counter := some streak
        phase := Function.update w.phase i .ended
        alerts := if streak = threshold then w.alerts ++ [streakAlert (calls i) streak threshold]
          else w.alerts }
    else
      let previous := w.counter.getD 0
      { w with
        phase := Function.update w.phase i (if previous = 0 then .ended else .toDelete previous)
        alerts := if threshold ≤ previous then w.alerts ++ [recoveredAlert (calls i) previous]
          else w.alerts }
  | .toDelete _ => { w with counter := none, phase := Function.update w.phase i .ended }
  | .ended => w

end TradeMind.Model.Scheduler
