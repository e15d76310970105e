import TradeMind.Analysis.AuditTrail
import TradeMind.Analysis.SignalPublishing

/-!
# What an audit timeline shows

Every row that is written on behalf of a signal carries the trace of its cycle, so a timeline is
one cycle, whole.  The events recite the tables: each signal, each decision with its figures,
each submitted order, in order.  And no position opens or closes without its event.
-/

set_option autoImplicit false

namespace TradeMind.Analysis

open TradeMind.Library TradeMind.Model TradeMind.Model.Scheduler

/-! ## A step of the cycles -/

universe u

variable {ι : Type u}

/-- The trace id of the row a step may commit. -/
def commitTrace : PublishingStep ι → Option Uuid
  | .commit _ _ answer _ => some answer.traceId
  | _ => none

/-- What a step does to the tables. -/
inductive TableEffect (db : Database) (event : PublishingStep ι) : Database → Prop
  | kept : TableEffect db event db
  | committed (signal : Signal) (startedAt : Time) (alert : Option HealthAlert)
      (hid : signal.id = db.nextId) (htrace : commitTrace event = some signal.traceId)
      (halert : ∀ a ∈ alert, AlertOf signal.traceId a) :
      TableEffect db event (recordSignal db startedAt signal alert)
  | transaction (db' : Database) (hwrites : WriteChain db db')
      (hsignals : db'.signals = db.signals) :
      TableEffect db event db'

theorem publishingStep_tables [DecidableEq ι] (settings : CycleSettings) (w : PublishingWorld ι)
    (event : PublishingStep ι) :
    TableEffect w.world.db event (publishingStep settings w event).world.db := by
  cases event with
  | pass duration => exact .kept
  | acquire i symbol =>
    simp only [publishingStep]
    split <;> exact .kept
  | claim i raw nowMs fault =>
    simp only [publishingStep]
    split
    · split
      · split_ifs
        · exact .kept
        · unfold PublishingWorld.claim
          dsimp only
          split_ifs <;> exact .kept
      · exact .kept
    · exact .kept
  | commit i startedAt answer fault =>
    simp only [publishingStep]
    split
    · next symbol candleOpenMs _ =>
      have hcommitted : TableEffect w.world.db (.commit i startedAt answer fault)
          (recordSignal w.world.db startedAt (signalRow w.world.db.nextId settings.timeframe
            symbol candleOpenMs answer) (answer.alert symbol)) :=
        .committed _ startedAt _ rfl rfl fun _ => alertOf_alert
      unfold PublishingWorld.commit
      dsimp only
      split
      · exact .kept
      · exact hcommitted
      · exact hcommitted
    · exact .kept
  | xadd i fault =>
    simp only [publishingStep]
    split
    · unfold PublishingWorld.xadd
      split_ifs <;> exact .kept
    · exact .kept
  | leave i =>
    simp only [publishingStep]
    split <;> exact .kept
  | release i =>
    simp only [publishingStep]
    split <;> exact .kept
  | kill i => exact .kept
  | other s =>
    exact .transaction _ (step_writes w.world s) (step_signalsKept w.world s).signals

/-- So every step is a chain of writes. -/
theorem TableEffect.writes {db db' : Database} {event : PublishingStep ι}
    (h : TableEffect db event db') : WriteChain db db' := by
  cases h with
  | kept => exact .refl
  | committed signal startedAt alert hid _ hof =>
    exact (Write.received signal startedAt alert hid hof).writes
  | transaction _ hwrites _ => exact hwrites

/-! ## Every row has the trace of its signal -/

/-- The decision is about a stored signal and has its trace. -/
def DecisionTraced (db : Database) (d : RiskDecision) : Prop :=
  ∃ signal ∈ db.signals, d.signalId = signal.id ∧ d.traceId = signal.traceId

/-- The order is of a decision about a stored signal and has its trace; an entry is not of a
SELL. -/
def OrderTraced (db : Database) (o : Order) : Prop :=
  ∃ d ∈ db.riskDecisions, ∃ signal ∈ db.signals, o.riskDecisionId = d.id ∧
    d.signalId = signal.id ∧ o.traceId = signal.traceId ∧ (o.side = .BUY → signal.action ≠ .SELL)

/-- The trace is that of a stored signal. -/
def TraceKnown (db : Database) (traceId : Uuid) : Prop :=
  ∃ signal ∈ db.signals, traceId = signal.traceId

/-- Decisions, orders and events hang from signals, whose ids are unique like those of the
decisions. -/
structure Lineage (db : Database) : Prop where
  signals : (db.signals.map Signal.id).Nodup
  signals_lt : ∀ signal ∈ db.signals, signal.id < db.nextId
  riskDecisions : (db.riskDecisions.map RiskDecision.id).Nodup
  riskDecisions_lt : ∀ d ∈ db.riskDecisions, d.id < db.nextId
  decisions : ∀ d ∈ db.riskDecisions, DecisionTraced db d
  orders : ∀ o ∈ db.orders, OrderTraced db o
  events : ∀ e ∈ db.auditEvents, TraceKnown db e.traceId

variable {db db' : Database}

/-- An order that is about the same hangs from the same signal. -/
theorem OrderTraced.of_sameOrder {o o' : Order} (h : OrderTraced db o) (hsame : SameOrder o o') :
    OrderTraced db o' := by
  obtain ⟨d, hd, signal, hsignal, hof, hid, htrace, hside⟩ := h
  exact ⟨d, hd, signal, hsignal, hsame.riskDecisionId.trans hof, hid,
    hsame.traceId.trans htrace, fun hbuy => hside (hsame.side.symm.trans hbuy)⟩

/-- More signals and decisions keep an order where it hangs. -/
theorem OrderTraced.mono {o : Order} (h : OrderTraced db o)
    (hsignals : ∀ signal ∈ db.signals, signal ∈ db'.signals)
    (hdecisions : ∀ d ∈ db.riskDecisions, d ∈ db'.riskDecisions) : OrderTraced db' o := by
  obtain ⟨d, hd, signal, hsignal, hrest⟩ := h
  exact ⟨d, hdecisions d hd, signal, hsignals signal hsignal, hrest⟩

/-- The trace of an order that hangs from a signal is known. -/
theorem OrderTraced.known {o : Order} (h : OrderTraced db o) : TraceKnown db o.traceId := by
  obtain ⟨_, _, signal, hsignal, _, _, htrace, _⟩ := h
  exact ⟨signal, hsignal, htrace⟩

theorem Lineage.of_rows (h : Lineage db) (hsignals : db'.signals = db.signals)
    (hdecisions : db'.riskDecisions = db.riskDecisions) (hnext : db.nextId ≤ db'.nextId)
    (horders : ∀ o ∈ db'.orders, OrderTraced db o)
    (hevents : ∀ e ∈ db'.auditEvents, TraceKnown db e.traceId) : Lineage db' := by
  constructor
  · exact hsignals ▸ h.signals
  · rw [hsignals]
    exact fun signal hsignal => (h.signals_lt signal hsignal).trans_le hnext
  · exact hdecisions ▸ h.riskDecisions
  · rw [hdecisions]
    exact fun d hd => (h.riskDecisions_lt d hd).trans_le hnext
  · rw [hdecisions]
    intro d hd
    obtain ⟨signal, hsignal, hrest⟩ := h.decisions d hd
    exact ⟨signal, hsignals ▸ hsignal, hrest⟩
  · intro o ho
    exact (horders o ho).mono (fun _ hsignal => hsignals ▸ hsignal)
      fun _ hd => hdecisions ▸ hd
  · intro e he
    obtain ⟨signal, hsignal, htrace⟩ := hevents e he
    exact ⟨signal, hsignals ▸ hsignal, htrace⟩

/-- The new event is of the trace it is added for. -/
theorem mem_addAuditEvent {startedAt : Time} {traceId : Uuid} {type : AuditEventType}
    {payload : Payload} {e : AuditEvent}
    (he : e ∈ (db.addAuditEvent startedAt traceId type payload).auditEvents) :
    e ∈ db.auditEvents ∨ e.traceId = traceId := by
  rcases List.mem_append.mp he with hold | hnew
  · exact .inl hold
  · exact .inr (congrArg AuditEvent.traceId (List.mem_singleton.mp hnew))

theorem Lineage.known_event (h : Lineage db) (hsame : db'.auditEvents = db.auditEvents)
    {startedAt : Time} {traceId : Uuid} {type : AuditEventType} {payload : Payload}
    (hknown : TraceKnown db traceId) :
    ∀ e ∈ (db'.addAuditEvent startedAt traceId type payload).auditEvents,
      TraceKnown db e.traceId := by
  intro e he
  rcases mem_addAuditEvent he with hold | hnew
  · exact h.events e (hsame ▸ hold)
  · exact hnew ▸ hknown

/-- The events of a fill of a known trace. -/
theorem Lineage.known_fill (h : Lineage db) (hsame : db'.auditEvents = db.auditEvents)
    {startedAt : Time} {traceId : Uuid} {type : AuditEventType} {ofOrder ofPosition : Payload}
    (hknown : TraceKnown db traceId) :
    ∀ e ∈ (addFillEvents db' startedAt traceId type ofOrder ofPosition).auditEvents,
      TraceKnown db e.traceId := by
  intro e he
  rcases mem_addAuditEvent he with hold | hnew
  · exact h.known_event hsame hknown e hold
  · exact hnew ▸ hknown

/-- An order of a known lineage is added. -/
theorem Lineage.orders_append (h : Lineage db) {o : Order} (ho : OrderTraced db o) :
    ∀ x ∈ db.orders ++ [o], OrderTraced db x := by
  intro x hx
  rcases List.mem_append.mp hx with hold | hnew
  · exact h.orders x hold
  · exact List.mem_singleton.mp hnew ▸ ho

/-- A decision about a stored signal is added, with its event. -/
theorem Lineage.decide (h : Lineage db) {signal : Signal} {d : RiskDecision}
    (hsignal : signal ∈ db.signals) (hid : d.id = db.nextId)
    (htrace : d.traceId = signal.traceId) (hof : d.signalId = signal.id)
    (hsignals : db'.signals = db.signals)
    (hdecisions : db'.riskDecisions = db.riskDecisions ++ [d]) (horders : db'.orders = db.orders)
    (hnext : db.nextId < db'.nextId) (hevents : ∀ e ∈ db'.auditEvents, TraceKnown db e.traceId) :
    Lineage db' := by
  constructor
  · exact hsignals ▸ h.signals
  · rw [hsignals]
    exact fun signal hsignal => (h.signals_lt signal hsignal).trans hnext
  · rw [hdecisions]
    exact nodup_append_fresh h.riskDecisions h.riskDecisions_lt hid.ge
  · rw [hdecisions]
    intro x hx
    rcases List.mem_append.mp hx with hold | hnew
    · exact (h.riskDecisions_lt x hold).trans hnext
    · rw [List.mem_singleton.mp hnew, hid]
      exact hnext
  · rw [hdecisions]
    intro x hx
    rcases List.mem_append.mp hx with hold | hnew
    · obtain ⟨signal', hsignal', hrest⟩ := h.decisions x hold
      exact ⟨signal', hsignals ▸ hsignal', hrest⟩
    · rw [List.mem_singleton.mp hnew]
      exact ⟨signal, hsignals ▸ hsignal, hof, htrace⟩
  · rw [horders]
    intro o ho
    refine (h.orders o ho).mono (fun _ hx => hsignals ▸ hx) fun x hx => ?_
    rw [hdecisions]
    exact List.mem_append_left _ hx
  · intro e he
    obtain ⟨signal', hsignal', htrace'⟩ := hevents e he
    exact ⟨signal', hsignals ▸ hsignal', htrace'⟩

/-- The events of a cycle: its signal's, and the alert it brings. -/
theorem recordSignal_auditEvents (db : Database) (startedAt : Time) (signal : Signal)
    (alert : Option HealthAlert) :
    ∃ received alerts, (recordSignal db startedAt signal alert).auditEvents =
        db.auditEvents ++ received :: alerts ∧ received.traceId = signal.traceId ∧
      received.eventType = .SIGNAL_RECEIVED ∧ received.payload = signalReceivedPayload signal ∧
      ∀ e ∈ alerts, ∃ a ∈ alert, e.traceId = a.traceId ∧ e.eventType = a.eventType := by
  cases alert with
  | none => exact ⟨_, [], rfl, rfl, rfl, rfl, by simp⟩
  | some a =>
    refine ⟨_, [_], List.append_assoc db.auditEvents [_] [_], rfl, rfl, rfl, fun e he => ?_⟩
    rw [List.mem_singleton.mp he]
    exact ⟨a, rfl, rfl, rfl⟩

theorem Lineage.receive (h : Lineage db) {signal : Signal} (startedAt : Time)
    {alert : Option HealthAlert} (hid : signal.id = db.nextId)
    (halert : ∀ a ∈ alert, AlertOf signal.traceId a) :
    Lineage (recordSignal db startedAt signal alert) := by
  obtain ⟨hsignals, hnext⟩ := recordSignal_signals db startedAt signal alert
  have hdecisions : (recordSignal db startedAt signal alert).riskDecisions = db.riskDecisions := by
    cases alert <;> rfl
  have horders : (recordSignal db startedAt signal alert).orders = db.orders := by
    cases alert <;> rfl
  have hkept : ∀ x ∈ db.signals, x ∈ (recordSignal db startedAt signal alert).signals := by
    rw [hsignals]
    exact fun x hx => List.mem_append_left _ hx
  have hnew : signal ∈ (recordSignal db startedAt signal alert).signals := by
    rw [hsignals]
    exact List.mem_append_right _ (List.mem_singleton_self signal)
  constructor
  · rw [hsignals]
    exact nodup_append_fresh h.signals h.signals_lt hid.ge
  · rw [hsignals]
    intro x hx
    rcases List.mem_append.mp hx with hold | hadded
    · exact (h.signals_lt x hold).trans hnext
    · rw [List.mem_singleton.mp hadded, hid]
      exact hnext
  · exact hdecisions ▸ h.riskDecisions
  · rw [hdecisions]
    exact fun d hd => (h.riskDecisions_lt d hd).trans hnext
  · rw [hdecisions]
    intro d hd
    obtain ⟨signal', hsignal', hrest⟩ := h.decisions d hd
    exact ⟨signal', hkept signal' hsignal', hrest⟩
  · rw [horders]
    exact fun o ho => (h.orders o ho).mono hkept fun _ hd => hdecisions ▸ hd
  · intro e he
    have hcase : e ∈ db.auditEvents ∨ e.traceId = signal.traceId := by
      obtain ⟨received, alerts, hadded, htrace, -, -, halerts⟩ :=
        recordSignal_auditEvents db startedAt signal alert
      rw [hadded] at he
      rcases List.mem_append.mp he with hold | he
      · exact .inl hold
      · rcases List.mem_cons.mp he with rfl | he
        · exact .inr htrace
        · obtain ⟨a, ha, hsame, -⟩ := halerts e he
          exact .inr (hsame.trans (halert a ha).1)
    rcases hcase with hold | htrace
    · obtain ⟨signal', hsignal', htrace⟩ := h.events e hold
      exact ⟨signal', hkept signal' hsignal', htrace⟩
    · exact ⟨signal, hnew, htrace⟩

/-- **Every write keeps the lineage.** -/
theorem Lineage.write (h : Lineage db) (hwrite : Write db db') : Lineage db' := by
  have hknown : ∀ {o}, o ∈ db.orders → TraceKnown db o.traceId := fun ho => (h.orders _ ho).known
  cases hwrite with
  | order id f hsame =>
    refine h.of_rows rfl rfl le_rfl (fun o ho => ?_) h.events
    rcases mem_modifyRow.mp ho with ⟨hold, -⟩ | ⟨x, hx, -, rfl⟩
    · exact h.orders o hold
    · exact (h.orders x hx).of_sameOrder (hsame x)
  | exitOrder entry o hentry _ _ htrace hdecision hsell =>
    obtain ⟨d, hd, signal, hsignal, hof, hid, hentryTrace, -⟩ := h.orders entry hentry
    refine h.of_rows rfl rfl (Nat.le_succ _) (h.orders_append ?_) h.events
    exact ⟨d, hd, signal, hsignal, hdecision.trans hof, hid, htrace.trans hentryTrace,
      fun hbuy => by rw [hsell] at hbuy; cases hbuy⟩
  | opening order p startedAt _ _ horder =>
    refine h.of_rows rfl rfl (Nat.le_add_right _ 3) h.orders (h.known_fill ?_ (hknown horder))
    rfl
  | closing order position f startedAt _ _ horder =>
    refine h.of_rows rfl rfl (Nat.le_add_right _ 2) h.orders (h.known_fill ?_ (hknown horder))
    rfl
  | link position exitOrderId => exact h.of_rows rfl rfl le_rfl h.orders h.events
  | event order startedAt type payload horder =>
    exact h.of_rows rfl rfl (Nat.le_succ _) h.orders (h.known_event rfl (hknown horder))
  | trip signal startedAt reason hsignal =>
    exact h.of_rows rfl rfl (Nat.le_succ _) h.orders
      (h.known_event rfl ⟨signal, hsignal, rfl⟩)
  | decision signal d startedAt check hsignal hid htrace hof =>
    refine h.decide hsignal hid htrace hof rfl rfl rfl
      (Nat.lt_succ_of_lt (Nat.lt_succ_self _)) (h.known_event ?_ ⟨signal, hsignal, rfl⟩)
    rfl
  | submission signal d o startedAt status hsignal hd _ htrace hdecision hof _ hside =>
    refine h.of_rows rfl rfl (Nat.le_add_right _ 2) (h.orders_append ?_)
      (h.known_event (by rfl) ⟨signal, hsignal, rfl⟩)
    refine ⟨d, hd, signal, hsignal, hdecision, hof, htrace, fun hbuy hsell => ?_⟩
    rw [hside, if_pos hsell] at hbuy
    cases hbuy
  | received signal startedAt alert hid halert => exact h.receive startedAt hid halert

/-! ## The events recite the tables -/

/-- The tables whose rows the audit events recite, one event for each row that is written. -/
inductive Recital
  | signal | decision | order
  deriving DecidableEq

/-- The table whose rows the events of a type recite. -/
def recital : AuditEventType → Option Recital
  | .SIGNAL_RECEIVED => some .signal
  | .RISK_APPROVED | .RISK_REJECTED => some .decision
  | .ORDER_SUBMITTED | .ORDER_FAILED => some .order
  | _ => none

/-- The events that recite a table, in order. -/
def recitals (db : Database) (kind : Recital) : List AuditEvent :=
  db.auditEvents.filter fun e => recital e.eventType = some kind

/-- What the payload of a decision's event shows of it, the expectancy check aside. -/
def decisionPayload (d : RiskDecision) : Payload :=
  let verdict : Payload :=
    [("signal_id", PayloadAtom.uuid d.signalId), ("approved", PayloadAtom.bool d.approved),
      ("rejection_reason", PayloadAtom.ofReason d.rejectionReason)]
  let sizing : Payload :=
    [("nominal_risk_amount_usdt", PayloadAtom.ofNumber d.nominalRiskAmountUsdt),
      ("actual_risk_usdt", PayloadAtom.ofNumber d.actualRiskUsdt),
      ("stop_distance_pct", PayloadAtom.ofNumber d.stopDistancePct)]
  verdict ++ if d.approved then sizing else []

/-- A decision as its event shows it. -/
def decisionLine (d : RiskDecision) : Uuid × AuditEventType × Payload :=
  (d.traceId, if d.approved then .RISK_APPROVED else .RISK_REJECTED, decisionPayload d)

/-- An order as its event shows it, but for the status it had then. -/
def orderLine (o : Order) : Uuid × Payload :=
  (o.traceId, [("symbol", PayloadAtom.text o.symbol), ("side", PayloadAtom.side o.side)])

/-- The order was submitted for a signal, and not made for an exit of Freqtrade's own. -/
def isSubmitted (signals : List Signal) (riskDecisions : List RiskDecision) (o : Order) : Bool :=
  o.side = .BUY ∨ ∃ d ∈ riskDecisions, d.id = o.riskDecisionId ∧
    ∃ signal ∈ signals, signal.id = d.signalId ∧ signal.action = .SELL

/-- The submitted orders of the table, in order. -/
def submittedOrders (db : Database) : List Order :=
  db.orders.filter (isSubmitted db.signals db.riskDecisions)

/-- The events list what the tables hold. -/
structure Recited (db : Database) : Prop where
  signals : (recitals db .signal).map (fun e => (e.traceId, e.payload)) =
    db.signals.map fun signal => (signal.traceId, signalReceivedPayload signal)
  riskDecisions : (recitals db .decision).map (fun e => (e.traceId, e.eventType,
      e.payload.take (if e.eventType = .RISK_APPROVED then 6 else 3))) =
    db.riskDecisions.map decisionLine
  orders : (recitals db .order).map (fun e => (e.traceId, e.payload.take 2)) =
    (submittedOrders db).map orderLine

theorem recitals_quiet {added : List AuditEvent}
    (hadded : db'.auditEvents = db.auditEvents ++ added)
    (hquiet : ∀ e ∈ added, recital e.eventType = none) (kind : Recital) :
    recitals db' kind = recitals db kind := by
  have hnone : added.filter (fun e => recital e.eventType = some kind) = [] := by
    refine List.filter_eq_nil_iff.mpr fun e he => ?_
    rw [hquiet e he]
    simp
  rw [recitals, hadded, List.filter_append, hnone, List.append_nil, recitals]

theorem recitals_append {e : AuditEvent} {quiet : List AuditEvent} {kind : Recital}
    (hadded : db'.auditEvents = db.auditEvents ++ e :: quiet)
    (hkind : recital e.eventType = some kind)
    (hquiet : ∀ e ∈ quiet, recital e.eventType = none) (other : Recital) :
    recitals db' other = recitals db other ++ if other = kind then [e] else [] := by
  have hnone : quiet.filter (fun e => recital e.eventType = some other) = [] := by
    refine List.filter_eq_nil_iff.mpr fun e he => ?_
    rw [hquiet e he]
    simp
  rw [recitals, hadded, List.filter_append, List.filter_cons, hkind, hnone, recitals]
  by_cases hother : other = kind
  · rw [if_pos hother, hother]
    simp
  · rw [if_neg hother]
    simp [Ne.symm hother]

/-- A write that recites nothing and leaves what is recited. -/
theorem Recited.quiet (h : Recited db) {added : List AuditEvent}
    (hadded : db'.auditEvents = db.auditEvents ++ added)
    (hquiet : ∀ e ∈ added, recital e.eventType = none) (hsignals : db'.signals = db.signals)
    (hdecisions : db'.riskDecisions = db.riskDecisions)
    (horders : (submittedOrders db').map orderLine = (submittedOrders db).map orderLine) :
    Recited db' := by
  have hsame := recitals_quiet hadded hquiet
  constructor
  · rw [hsame, hsignals]
    exact h.signals
  · rw [hsame, hdecisions]
    exact h.riskDecisions
  · rw [hsame, horders]
    exact h.orders

/-- The decision of an order that hangs from a signal is one of an id handed out. -/
theorem Lineage.isSubmitted_append (h : Lineage db) {o : Order} (ho : o ∈ db.orders)
    {signals : List Signal} {riskDecisions : List RiskDecision}
    (hsignals : ∀ signal ∈ signals, db.nextId ≤ signal.id)
    (hdecisions : ∀ d ∈ riskDecisions, db.nextId ≤ d.id) :
    isSubmitted (db.signals ++ signals) (db.riskDecisions ++ riskDecisions) o =
      isSubmitted db.signals db.riskDecisions o := by
  obtain ⟨d, hd, signal, hsignal, hof, hid, -, -⟩ := h.orders o ho
  have hbelow := h.riskDecisions_lt d hd
  unfold isSubmitted
  refine decide_eq_decide.mpr (or_congr_right ⟨?_, ?_⟩)
  · rintro ⟨d', hd', heq, signal', hsignal', hid', hsell⟩
    have hold : d' ∈ db.riskDecisions := by
      rcases List.mem_append.mp hd' with hold | hnew
      · exact hold
      · exact absurd ((hdecisions d' hnew).trans_eq (heq.trans hof)) (not_le.mpr hbelow)
    obtain ⟨known, hknown, hknownId, -⟩ := h.decisions d' hold
    have hbelow' := h.signals_lt known hknown
    have hsignalOld : signal' ∈ db.signals := by
      rcases List.mem_append.mp hsignal' with hold | hnew
      · exact hold
      · exact absurd ((hsignals signal' hnew).trans_eq (hid'.trans hknownId))
          (not_le.mpr hbelow')
    exact ⟨d', hold, heq, signal', hsignalOld, hid', hsell⟩
  · rintro ⟨d', hd', heq, signal', hsignal', hrest⟩
    exact ⟨d', List.mem_append_left _ hd', heq, signal', List.mem_append_left _ hsignal', hrest⟩

/-- The order of an entry's own exit is not submitted. -/
theorem Lineage.not_isSubmitted (h : Lineage db) {entry o : Order} (hentry : entry ∈ db.orders)
    (hbuy : entry.side = .BUY) (hdecision : o.riskDecisionId = entry.riskDecisionId)
    (hsell : o.side = .SELL) : isSubmitted db.signals db.riskDecisions o = false := by
  obtain ⟨d, hd, signal, hsignal, hof, hid, -, hnotSell⟩ := h.orders entry hentry
  refine decide_eq_false ?_
  rintro (hside | ⟨d', hd', heq, signal', hsignal', hid', haction⟩)
  · rw [hsell] at hside
    cases hside
  · have hsame : d' = d := List.inj_on_of_nodup_map h.riskDecisions hd' hd
      (heq.trans (hdecision.trans hof))
    rw [hsame] at hid'
    have hsameSignal : signal' = signal := List.inj_on_of_nodup_map h.signals hsignal' hsignal
      (hid'.trans hid)
    exact hnotSell hbuy (hsameSignal ▸ haction)

/-- New rows of the other tables leave the submitted orders. -/
theorem Lineage.submittedOrders_eq (h : Lineage db) {signals : List Signal}
    {riskDecisions : List RiskDecision} (horders : db'.orders = db.orders)
    (hsignals : db'.signals = db.signals ++ signals)
    (hdecisions : db'.riskDecisions = db.riskDecisions ++ riskDecisions)
    (hfreshSignals : ∀ signal ∈ signals, db.nextId ≤ signal.id)
    (hfreshDecisions : ∀ d ∈ riskDecisions, db.nextId ≤ d.id) :
    submittedOrders db' = submittedOrders db := by
  rw [submittedOrders, horders, hsignals, hdecisions]
  exact List.filter_congr fun o ho => h.isSubmitted_append ho hfreshSignals hfreshDecisions

theorem decision_event (db : Database) (startedAt : Time) {signal : Signal} {d : RiskDecision}
    (htrace : d.traceId = signal.traceId) (hof : d.signalId = signal.id)
    (check : Option ExpectancyCheck) :
    ∃ e, (writeDecisionAuditEvent (db.insertRiskDecision d) startedAt signal d.approved
        d.rejectionReason ⟨d.nominalRiskAmountUsdt, d.actualRiskUsdt, d.stopDistancePct,
          check⟩).auditEvents = db.auditEvents ++ [e] ∧
      recital e.eventType = some .decision ∧
      (e.traceId, e.eventType, e.payload.take (if e.eventType = .RISK_APPROVED then 6 else 3)) =
        decisionLine d := by
  refine ⟨_, rfl, ?_, ?_⟩
  · cases d.approved <;> rfl
  · rw [decisionLine, decisionPayload, htrace, hof]
    cases d.approved <;> rfl

/-- A decision and its event. -/
theorem Recited.decide (h : Recited db) (hlineage : Lineage db) {d : RiskDecision}
    {e : AuditEvent} (hid : d.id = db.nextId) (hsignals : db'.signals = db.signals)
    (hdecisions : db'.riskDecisions = db.riskDecisions ++ [d]) (horders : db'.orders = db.orders)
    (hadded : db'.auditEvents = db.auditEvents ++ [e])
    (hkind : recital e.eventType = some .decision)
    (hline : (e.traceId, e.eventType,
      e.payload.take (if e.eventType = .RISK_APPROVED then 6 else 3)) = decisionLine d) :
    Recited db' := by
  have hrecitals := recitals_append hadded hkind (fun _ he => absurd he List.not_mem_nil)
  have hsubmitted := hlineage.submittedOrders_eq horders
    (hsignals.trans (List.append_nil _).symm) hdecisions (fun _ hx => absurd hx List.not_mem_nil)
    fun x hx => List.mem_singleton.mp hx ▸ hid.ge
  constructor
  · rw [hrecitals, if_neg Recital.noConfusion, List.append_nil, hsignals]
    exact h.signals
  · rw [hrecitals, if_pos rfl, hdecisions, List.map_append, List.map_append, h.riskDecisions,
      List.map_singleton, List.map_singleton, hline]
  · rw [hrecitals, if_neg Recital.noConfusion, List.append_nil, hsubmitted]
    exact h.orders

theorem Recited.receive (h : Recited db) (hlineage : Lineage db) {signal : Signal}
    (startedAt : Time) {alert : Option HealthAlert} (hid : signal.id = db.nextId)
    (halert : ∀ a ∈ alert, AlertOf signal.traceId a) :
    Recited (recordSignal db startedAt signal alert) := by
  obtain ⟨hsignals, -⟩ := recordSignal_signals db startedAt signal alert
  obtain ⟨received, alerts, hadded, htrace, htype, hpayload, halerts⟩ :=
    recordSignal_auditEvents db startedAt signal alert
  have hkind : recital received.eventType = some .signal := by rw [htype]; rfl
  have hquiet : ∀ e ∈ alerts, recital e.eventType = none := by
    intro e he
    obtain ⟨a, ha, -, hsame⟩ := halerts e he
    rcases (halert a ha).2 with htype | htype
    · rw [hsame, htype]; rfl
    · rw [hsame, htype]; rfl
  have hrecitals := recitals_append hadded hkind hquiet
  have hdecisions : (recordSignal db startedAt signal alert).riskDecisions =
      db.riskDecisions := by
    cases alert <;> rfl
  have horders : (recordSignal db startedAt signal alert).orders = db.orders := by
    cases alert <;> rfl
  have hsubmitted := hlineage.submittedOrders_eq horders hsignals
    (hdecisions.trans (List.append_nil _).symm)
    (fun x hx => List.mem_singleton.mp hx ▸ hid.ge) fun _ hx => absurd hx List.not_mem_nil
  constructor
  · rw [hrecitals, if_pos rfl, hsignals, List.map_append, List.map_append, h.signals,
      List.map_singleton, List.map_singleton, htrace, hpayload]
  · rw [hrecitals, if_neg Recital.noConfusion, List.append_nil, hdecisions]
    exact h.riskDecisions
  · rw [hrecitals, if_neg Recital.noConfusion, List.append_nil, hsubmitted]
    exact h.orders

theorem Recited.submit (h : Recited db) {o : Order} {e : AuditEvent}
    (hsubmitted : isSubmitted db.signals db.riskDecisions o = true)
    (hsignals : db'.signals = db.signals) (hdecisions : db'.riskDecisions = db.riskDecisions)
    (horders : db'.orders = db.orders ++ [o])
    (hadded : db'.auditEvents = db.auditEvents ++ [e]) (hkind : recital e.eventType = some .order)
    (hline : (e.traceId, e.payload.take 2) = orderLine o) : Recited db' := by
  have hrecitals := recitals_append hadded hkind (fun _ he => absurd he List.not_mem_nil)
  constructor
  · rw [hrecitals, if_neg Recital.noConfusion, List.append_nil, hsignals]
    exact h.signals
  · rw [hrecitals, if_neg Recital.noConfusion, List.append_nil, hdecisions]
    exact h.riskDecisions
  · rw [hrecitals, if_pos rfl, submittedOrders, horders, hsignals, hdecisions,
      List.filter_append, List.filter_cons_of_pos hsubmitted, List.filter_nil, List.map_append,
      List.map_append, h.orders, List.map_singleton, List.map_singleton, hline, submittedOrders]

/-- The events of a fill recite nothing. -/
theorem Recited.fill (h : Recited db) {startedAt : Time} {traceId : Uuid}
    {type : AuditEventType} (htype : recital type = none) {ofOrder ofPosition : Payload} :
    Recited (addFillEvents db startedAt traceId type ofOrder ofPosition) := by
  refine h.quiet (List.append_assoc _ [_] [_]) (fun e he => ?_) rfl rfl rfl
  rcases List.mem_cons.mp he with rfl | he
  · rfl
  · rw [List.mem_singleton.mp he]
    exact htype

/-- The event of a webhook or of a reconciliation recites no row of the signals, decisions or
submissions. -/
theorem recital_of_isFillEvent {type : AuditEventType} (h : isFillEvent type = true) :
    recital type = none := by
  cases type <;> first | rfl | cases h

theorem submission_event (db : Database) (startedAt : Time) {signal : Signal} {o : Order}
    (htrace : o.traceId = signal.traceId) (hsymbol : o.symbol = signal.symbol)
    (status : OrderStatus) :
    ∃ e, (writeOrderAuditEvent (db.insertOrder o) startedAt signal o.side status).auditEvents =
        db.auditEvents ++ [e] ∧ recital e.eventType = some .order ∧
      (e.traceId, e.payload.take 2) = orderLine o := by
  refine ⟨_, rfl, ?_, ?_⟩
  · dsimp only
    split <;> rfl
  · rw [orderLine, htrace, hsymbol]
    rfl

/-- **Every write keeps the recital.** -/
theorem Recited.write (h : Recited db) (hlineage : Lineage db) (hwrite : Write db db') :
    Recited db' := by
  have hnothing : db.auditEvents = db.auditEvents ++ [] := (List.append_nil _).symm
  have hempty : ∀ e ∈ ([] : List AuditEvent), recital e.eventType = none :=
    fun _ he => absurd he List.not_mem_nil
  cases hwrite with
  | order id f hsame =>
    refine h.quiet hnothing hempty rfl rfl ?_
    refine map_filter_modifyRow _ orderLine (fun o => ?_) fun o => ?_
    · rw [isSubmitted, isSubmitted, (hsame o).side, (hsame o).riskDecisionId]
    · rw [orderLine, orderLine, (hsame o).traceId, (hsame o).symbol, (hsame o).side]
  | exitOrder entry o hentry hbuy _ _ hdecision hsell =>
    refine h.quiet hnothing hempty rfl rfl (congrArg (List.map orderLine) ?_)
    have hnot := hlineage.not_isSubmitted hentry hbuy hdecision hsell
    calc submittedOrders (db.insertOrder o)
        = submittedOrders db ++ [o].filter (isSubmitted db.signals db.riskDecisions) :=
          List.filter_append _ _
      _ = submittedOrders db := by
          rw [List.filter_cons_of_neg (ne_true_of_eq_false hnot), List.filter_nil, List.append_nil]
  | opening order p =>
    have hinserted : Recited (db.insertPosition p) := ⟨h.signals, h.riskDecisions, h.orders⟩
    exact hinserted.fill rfl
  | closing order position f =>
    have hmodified : Recited (db.modifyPosition position.id f) :=
      ⟨h.signals, h.riskDecisions, h.orders⟩
    exact hmodified.fill rfl
  | link position exitOrderId => exact h.quiet hnothing hempty rfl rfl rfl
  | event order startedAt type payload horder htype =>
    refine h.quiet rfl (fun e he => ?_) rfl rfl rfl
    rw [List.mem_singleton.mp he]
    exact recital_of_isFillEvent htype
  | trip signal startedAt reason hsignal =>
    refine h.quiet rfl (fun e he => ?_) rfl rfl rfl
    rw [List.mem_singleton.mp he]
    rfl
  | decision signal d startedAt check hsignal hid htrace hof =>
    obtain ⟨e, hadded, hkind, hline⟩ := decision_event db startedAt htrace hof check
    exact h.decide hlineage hid rfl rfl rfl hadded hkind hline
  | submission signal d o startedAt status hsignal hd _ htrace hdecision hof hsymbol hside =>
    obtain ⟨e, hadded, hkind, hline⟩ := submission_event db startedAt htrace hsymbol status
    refine h.submit (decide_eq_true ?_) rfl rfl rfl hadded hkind hline
    by_cases hsell : signal.action = .SELL
    · exact .inr ⟨d, hd, hdecision.symm, signal, hsignal, hof.symm, hsell⟩
    · exact .inl (hside.trans (if_neg hsell))
  | received signal startedAt alert hid halert => exact h.receive hlineage startedAt hid halert

/-! ## No position opens or closes without its event -/

/-- An event of the type has the trace of the order. -/
def IsAnnounced (db : Database) (type : AuditEventType) (orderId : Uuid) : Prop :=
  ∃ o ∈ db.orders, o.id = orderId ∧
    ∃ e ∈ db.auditEvents, e.eventType = type ∧ e.traceId = o.traceId

/-- Positions have unique ids; each is announced as opened by its entry, and where it is closed,
as closed by its exit. -/
structure PositionsAnnounced (db : Database) : Prop where
  ids : (db.positions.map Position.id).Nodup
  ids_lt : ∀ p ∈ db.positions, p.id < db.nextId
  opened : ∀ p ∈ db.positions, IsAnnounced db .POSITION_OPENED p.entryOrderId
  closed : ∀ p ∈ db.positions, p.status = .CLOSED →
    ∃ exitId, p.exitOrderId = some exitId ∧ IsAnnounced db .POSITION_CLOSED exitId

theorem Write.event_stays (h : Write db db') {e : AuditEvent} (he : e ∈ db.auditEvents) :
    e ∈ db'.auditEvents := by
  have happended : ∀ {added : List AuditEvent}, e ∈ db.auditEvents ++ added :=
    List.mem_append_left _ he
  cases h with
  | order => exact he
  | exitOrder => exact he
  | link => exact he
  | opening => exact List.mem_append_left _ happended
  | closing => exact List.mem_append_left _ happended
  | received signal startedAt alert =>
    obtain ⟨received, alerts, hadded, -⟩ := recordSignal_auditEvents db startedAt signal alert
    exact hadded ▸ happended
  | _ => exact happended

/-- What is announced stays so. -/
theorem IsAnnounced.write {type : AuditEventType} {orderId : Uuid} (h : IsAnnounced db type orderId)
    (hwrite : Write db db') : IsAnnounced db' type orderId := by
  obtain ⟨o, ho, hid, e, he, htype, htrace⟩ := h
  obtain ⟨o', ho', hsame⟩ := hwrite.order_stays ho
  exact ⟨o', ho', hsame.id.trans hid, e, hwrite.event_stays he, htype,
    htrace.trans hsame.traceId.symm⟩

theorem Write.nextId_le (h : Write db db') : db.nextId ≤ db'.nextId := by
  cases h with
  | received signal startedAt alert => exact (recordSignal_signals db startedAt signal alert).2.le
  | order => exact le_rfl
  | link => exact le_rfl
  | opening => exact Nat.le_add_right _ 3
  | closing => exact Nat.le_add_right _ 2
  | decision => exact Nat.le_add_right _ 2
  | submission => exact Nat.le_add_right _ 2
  | _ => exact Nat.le_succ _

theorem PositionsAnnounced.of_same (h : PositionsAnnounced db) (hwrite : Write db db')
    (hsame : db'.positions = db.positions) : PositionsAnnounced db' := by
  constructor
  · exact hsame ▸ h.ids
  · rw [hsame]
    exact fun p hp => (h.ids_lt p hp).trans_le hwrite.nextId_le
  · rw [hsame]
    exact fun p hp => (h.opened p hp).write hwrite
  · rw [hsame]
    intro p hp hclosed
    obtain ⟨exitId, hexit, hannounced⟩ := h.closed p hp hclosed
    exact ⟨exitId, hexit, hannounced.write hwrite⟩

/-- A write of one position, that keeps its id and its entry and announces it if it is closed. -/
theorem PositionsAnnounced.of_modified (h : PositionsAnnounced db) (hwrite : Write db db')
    {position : Position} (hposition : position ∈ db.positions) {f : Position → Position}
    (hmodified : db'.positions = modifyRow Position.id position.id f db.positions)
    (hid : ∀ p, (f p).id = p.id) (hentry : ∀ p, (f p).entryOrderId = p.entryOrderId)
    (hclosed : (f position).status = .CLOSED →
      ∃ exitId, (f position).exitOrderId = some exitId ∧ IsAnnounced db' .POSITION_CLOSED exitId) :
    PositionsAnnounced db' := by
  have hrow : ∀ p ∈ db'.positions,
      p ∈ db.positions ∨ p = f position := by
    intro p hp
    rw [hmodified] at hp
    rcases mem_modifyRow.mp hp with ⟨hold, -⟩ | ⟨x, hx, hxid, rfl⟩
    · exact .inl hold
    · exact .inr (congrArg f (List.inj_on_of_nodup_map h.ids hx hposition hxid))
  constructor
  · rw [hmodified, map_modifyRow Position.id fun p _ _ => hid p]
    exact h.ids
  · intro p hp
    refine lt_of_lt_of_le ?_ hwrite.nextId_le
    rcases hrow p hp with hold | rfl
    · exact h.ids_lt p hold
    · exact (hid position).trans_lt (h.ids_lt position hposition)
  · intro p hp
    rcases hrow p hp with hold | rfl
    · exact (h.opened p hold).write hwrite
    · rw [hentry]
      exact (h.opened position hposition).write hwrite
  · intro p hp hstatus
    rcases hrow p hp with hold | rfl
    · obtain ⟨exitId, hexit, hannounced⟩ := h.closed p hold hstatus
      exact ⟨exitId, hexit, hannounced.write hwrite⟩
    · exact hclosed hstatus

/-- The events of a fill announce its order. -/
theorem announced_fill {order : Order} (horder : order ∈ db.orders) (startedAt : Time)
    (type : AuditEventType) (ofOrder ofPosition : Payload) :
    IsAnnounced (addFillEvents db startedAt order.traceId type ofOrder ofPosition) type order.id :=
  ⟨order, horder, rfl, _, List.mem_append_right _ (List.mem_singleton_self _), rfl, rfl⟩

/-- **Every write announces the positions it opens or closes.** -/
theorem PositionsAnnounced.write (h : PositionsAnnounced db) (hwrite : Write db db') :
    PositionsAnnounced db' := by
  have hkept := hwrite
  cases hwrite with
  | opening order p startedAt ofOrder ofPosition horder hid hentry hopen =>
    have hannounced := @announced_fill (db.insertPosition p) order horder startedAt
      .POSITION_OPENED ofOrder ofPosition
    constructor
    · exact nodup_append_fresh h.ids h.ids_lt hid.ge
    · intro x hx
      rcases List.mem_append.mp hx with hold | hnew
      · exact (h.ids_lt x hold).trans_le hkept.nextId_le
      · rw [List.mem_singleton.mp hnew, hid]
        exact Nat.lt_add_of_pos_right (Nat.succ_pos 2)
    · intro x hx
      rcases List.mem_append.mp hx with hold | hnew
      · exact (h.opened x hold).write hkept
      · rw [List.mem_singleton.mp hnew, hentry]
        exact hannounced
    · intro x hx hclosed
      rcases List.mem_append.mp hx with hold | hnew
      · obtain ⟨exitId, hexit, hexitAnnounced⟩ := h.closed x hold hclosed
        exact ⟨exitId, hexit, hexitAnnounced.write hkept⟩
      · rw [List.mem_singleton.mp hnew, hopen] at hclosed
        cases hclosed
  | closing order position f startedAt ofOrder ofPosition horder hposition hid hentry hexit =>
    exact h.of_modified hkept hposition rfl hid hentry fun _ =>
      ⟨order.id, hexit, @announced_fill (db.modifyPosition position.id f) order horder startedAt
        .POSITION_CLOSED ofOrder ofPosition⟩
  | link position exitOrderId hposition hopen =>
    refine h.of_modified hkept hposition rfl (fun _ => rfl) (fun _ => rfl) fun hclosed => ?_
    rw [hopen] at hclosed
    cases hclosed
  | received signal startedAt alert => exact h.of_same hkept (by cases alert <;> rfl)
  | _ => exact h.of_same hkept rfl

/-! ## Every run -/

/-- The tables before any service has written a row: no signal, decision, order, position or event.
-/
structure EmptyTables (db : Database) : Prop where
  signals : db.signals = []
  riskDecisions : db.riskDecisions = []
  orders : db.orders = []
  positions : db.positions = []
  auditEvents : db.auditEvents = []

/-- The invariant of the audit trail: the rows descend from their signals, the events recite them,
and every position is announced. -/
structure OnTrail (db : Database) : Prop where
  lineage : Lineage db
  recited : Recited db
  announced : PositionsAnnounced db

theorem EmptyTables.onTrail (h : EmptyTables db) : OnTrail db := by
  obtain ⟨hsignals, hdecisions, horders, hpositions, hevents⟩ := h
  refine ⟨⟨?_, ?_, ?_, ?_, ?_, ?_, ?_⟩, ⟨?_, ?_, ?_⟩, ⟨?_, ?_, ?_, ?_⟩⟩ <;>
    simp [hsignals, hdecisions, horders, hpositions, hevents, recitals, submittedOrders]

/-- A transaction keeps them. -/
theorem OnTrail.writes (h : OnTrail db) (hwrites : WriteChain db db') : OnTrail db' := by
  induction hwrites with
  | refl => exact h
  | tail _ hwrite ih =>
    exact ⟨ih.lineage.write hwrite, ih.recited.write ih.lineage hwrite, ih.announced.write hwrite⟩

variable [DecidableEq ι] {w : PublishingWorld ι}

/-- Every state of a run is on the trail. -/
theorem onTrail_throughout (settings : CycleSettings) (h : EmptyTables w.world.db)
    (events : List (PublishingStep ι)) :
    AllStates (publishingStep settings) (fun w => OnTrail w.world.db) w events :=
  allStates_of_pending (I := fun w _ => OnTrail w.world.db) (fun _ _ htrail => htrail)
    (fun w event _ htrail => htrail.writes (publishingStep_tables settings w event).writes)
    h.onTrail

/-- The traces of the stored signals, and of those that the steps to come may store, differ. -/
def TracesApart (w : PublishingWorld ι) (events : List (PublishingStep ι)) : Prop :=
  (w.world.db.signals.map Signal.traceId ++ events.filterMap commitTrace).Nodup

omit [DecidableEq ι] in
/-- A step stores the trace it was to store, or none. -/
theorem TracesApart.next {w w' : PublishingWorld ι} {event : PublishingStep ι}
    {rest : List (PublishingStep ι)} (h : TracesApart w (event :: rest))
    (heffect : TableEffect w.world.db event w'.world.db) : TracesApart w' rest := by
  have hsame : w'.world.db.signals = w.world.db.signals → TracesApart w' rest := by
    intro hsignals
    rw [TracesApart, hsignals]
    refine h.sublist (List.Sublist.append_left ?_ _)
    exact (List.sublist_cons_self event rest).filterMap commitTrace
  generalize hdb : w'.world.db = db' at heffect hsame
  cases heffect with
  | kept => exact hsame rfl
  | committed signal startedAt alert _ htrace =>
    rw [TracesApart, List.filterMap_cons, htrace] at h
    rw [TracesApart, hdb, (recordSignal_signals _ startedAt signal alert).1, List.map_append,
      List.append_assoc]
    exact h
  | transaction _ _ hsignals => exact hsame hsignals

/-- The stored signals have traces of their own throughout. -/
theorem traces_apart_throughout (settings : CycleSettings) {events : List (PublishingStep ι)}
    (h : TracesApart w events) :
    AllStates (publishingStep settings) (fun w => (w.world.db.signals.map Signal.traceId).Nodup)
      w events :=
  allStates_of_pending (I := TracesApart) (fun _ _ hI => (List.nodup_append.mp hI).1)
    (fun w event _ hI => hI.next (publishingStep_tables settings w event)) h

/-- The timeline of a signal's trace shows its cycle: the signal, the decisions about it, and the
orders of those, those of Freqtrade's own exits included. -/
structure ShowsCycle (rows : TimelineRows) (db : Database) (signal : Signal) : Prop where
  signals : (getAuditTimeline rows db signal.traceId).signals = [signal]
  riskDecisions : ∀ d, d ∈ (getAuditTimeline rows db signal.traceId).riskDecisions ↔
    d ∈ db.riskDecisions ∧ d.signalId = signal.id
  orders : ∀ o, o ∈ (getAuditTimeline rows db signal.traceId).orders ↔
    o ∈ db.orders ∧ ∃ d ∈ db.riskDecisions, o.riskDecisionId = d.id ∧ d.signalId = signal.id

/-- Of two stored signals with one trace, or with one id, there is one. -/
theorem Lineage.same_trace (h : Lineage db) (htraces : (db.signals.map Signal.traceId).Nodup)
    {signal other : Signal} (hsignal : signal ∈ db.signals) (hother : other ∈ db.signals) :
    other.traceId = signal.traceId ↔ other.id = signal.id := by
  constructor
  · intro htrace
    rw [List.inj_on_of_nodup_map htraces hother hsignal htrace]
  · intro hid
    rw [List.inj_on_of_nodup_map h.signals hother hsignal hid]

/-- Under traces of their own, a timeline shows the cycle. -/
theorem Lineage.showsCycle (h : Lineage db) (htraces : (db.signals.map Signal.traceId).Nodup)
    (rows : TimelineRows) {signal : Signal} (hsignal : signal ∈ db.signals) :
    ShowsCycle rows db signal := by
  constructor
  · have hnodup : (getAuditTimeline rows db signal.traceId).signals.Nodup :=
      (rows.signals.perm _).nodup_iff.mpr (htraces.of_map.filter _)
    refine List.perm_singleton.mp
      ((List.perm_ext_iff_of_nodup hnodup (List.nodup_singleton signal)).mpr fun other => ?_)
    rw [mem_timeline_signals, List.mem_singleton]
    constructor
    · rintro ⟨hother, htrace⟩
      exact List.inj_on_of_nodup_map htraces hother hsignal htrace
    · rintro rfl
      exact ⟨hsignal, rfl⟩
  · intro d
    rw [mem_timeline_riskDecisions]
    refine and_congr_right fun hd => ?_
    obtain ⟨other, hother, hof, htrace⟩ := h.decisions d hd
    rw [htrace, hof]
    exact h.same_trace htraces hsignal hother
  · intro o
    rw [mem_timeline_orders]
    refine and_congr_right fun ho => ?_
    obtain ⟨d, hd, other, hother, hdecision, hof, htrace, -⟩ := h.orders o ho
    rw [htrace, h.same_trace htraces hsignal hother]
    constructor
    · intro hid
      exact ⟨d, hd, hdecision, hof.trans hid⟩
    · rintro ⟨d', hd', hdecision', hof'⟩
      have hsame : d' = d := List.inj_on_of_nodup_map h.riskDecisions hd' hd
        (hdecision'.symm.trans hdecision)
      rw [← hof, ← hsame]
      exact hof'

/-- The answer to buy. -/
def buyAnswer : CycleAnswer where
  traceId := 7
  action := .BUY
  confidence := 9 / 10
  price := 100
  atr14 := 1
  tradeScore := some 80
  setupRegime := some "trend"
  volatilityRegime := none
  reasoning := "breakout"
  modelName := "llm"
  health := none

/-- A cycle that publishes an entry, which Freqtrade fills and later closes on its own. -/
def tradedCycle : List (PublishingStep ℕ) :=
  [.acquire 0 "BTC/USDT", .claim 0 [⟨0, 2, 2, 2, 2, 1⟩, ⟨300000, 2, 2, 2, 2, 1⟩] 600000 none,
    .commit 0 (seconds 600) buyAnswer none, .xadd 0 none, .release 0,
    .other (.signal (cleanDelivery 0 (seconds 600))),
    .other (.webhook (receivedAt (seconds 660)) (btcEntryFill 7)),
    .other (.webhook (receivedAt (seconds 900)) (btcExitFill 7))]

/-- The tables that the traded cycle leaves. -/
def tradedTables : Database := (runFrom (publishingStep fiveMinutes) tenPast tradedCycle).world.db

/-- Queries that return the rows as they are stored. -/
def TimelineRows.stored : TimelineRows :=
  ⟨Arrangement.stored Signal, Arrangement.stored RiskDecision, Arrangement.stored Order,
    Arrangement.stored AuditEvent⟩

theorem tenPast_empty : EmptyTables tenPast.world.db := ⟨rfl, rfl, rfl, rfl, rfl⟩

/-- **A timeline is one cycle, whole.**  Whatever cycles, deliveries, webhooks and reconciliations
have interleaved, the timeline of a stored signal's trace has that signal, the decisions about it
and the orders of those, and no other; and every event is in the timeline of one signal. -/
theorem timeline_is_one_cycle (settings : CycleSettings) (rows : TimelineRows)
    (h : EmptyTables w.world.db) {events : List (PublishingStep ι)}
    (htraces : (events.filterMap commitTrace).Nodup) :
    AllStates (publishingStep settings) (fun w =>
      (∀ signal ∈ w.world.db.signals, ShowsCycle rows w.world.db signal) ∧
        ∀ e ∈ w.world.db.auditEvents, ∃! signal, signal ∈ w.world.db.signals ∧
          e ∈ (getAuditTimeline rows w.world.db signal.traceId).auditEvents) w events := by
  have hapart : TracesApart w events := by
    rw [TracesApart, h.signals]
    exact htraces
  refine AllStates.imp (fun w hw => ?_) ((onTrail_throughout settings h events).and
    (traces_apart_throughout settings hapart))
  obtain ⟨htrail, htraces⟩ := hw
  refine ⟨fun signal hsignal => htrail.lineage.showsCycle htraces rows hsignal, fun e he => ?_⟩
  obtain ⟨signal, hsignal, htrace⟩ := htrail.lineage.events e he
  refine ⟨signal, ⟨hsignal, mem_timeline_auditEvents.mpr ⟨he, htrace⟩⟩, ?_⟩
  rintro other ⟨hother, hmem⟩
  have hsame := (mem_timeline_auditEvents.mp hmem).2
  exact List.inj_on_of_nodup_map htraces hother hsignal (hsame.symm.trans htrace)

/-- The timeline of the traded cycle has its entry and Freqtrade's own exit. -/
theorem tradedCycle_timeline :
    (getAuditTimeline TimelineRows.stored tradedTables 7).orders.map Order.side = [.BUY, .SELL] ∧
      ∀ signal ∈ tradedTables.signals, ShowsCycle TimelineRows.stored tradedTables signal := by
  refine ⟨by decide +kernel, ?_⟩
  have htraces : (tradedCycle.filterMap commitTrace).Nodup := by decide
  exact (timeline_is_one_cycle fiveMinutes TimelineRows.stored tenPast_empty htraces).last.1

/-- A payload without its figures, which a numeric column may round where the event does not. -/
def withoutFigures (payload : Payload) : Payload :=
  payload.filter fun field => match field.2 with
    | .atom (.number _) => false
    | _ => true

/-- What a decision's event shows of it besides figures: the signal, the verdict and the reason. -/
def verdictPayload (d : RiskDecision) : Payload :=
  [("signal_id", PayloadAtom.uuid d.signalId), ("approved", PayloadAtom.bool d.approved),
    ("rejection_reason", PayloadAtom.ofReason d.rejectionReason)]

/-- The events list what the tables hold, the figures aside. -/
structure RecitedVerdicts (db : Database) : Prop where
  signals : (recitals db .signal).map (fun e => (e.traceId, withoutFigures e.payload)) =
    db.signals.map fun signal => (signal.traceId, withoutFigures (signalReceivedPayload signal))
  riskDecisions : (recitals db .decision).map (fun e => (e.traceId, e.eventType,
      e.payload.take 3)) =
    db.riskDecisions.map fun d =>
      (d.traceId, (if d.approved then .RISK_APPROVED else .RISK_REJECTED : AuditEventType),
        verdictPayload d)
  orders : (recitals db .order).map (fun e => (e.traceId, e.payload.take 2)) =
    (submittedOrders db).map orderLine

/-- What is recited with its figures is recited without them. -/
theorem Recited.verdicts (h : Recited db) : RecitedVerdicts db where
  signals := by
    have hlines := congrArg (List.map fun line : Uuid × Payload => (line.1, withoutFigures line.2))
      h.signals
    rwa [List.map_map, List.map_map] at hlines
  riskDecisions := by
    have hlines := congrArg (List.map fun line : Uuid × AuditEventType × Payload =>
      (line.1, line.2.1, line.2.2.take 3)) h.riskDecisions
    rw [List.map_map, List.map_map] at hlines
    have hevents : ∀ e ∈ recitals db .decision, (e.traceId, e.eventType,
        (e.payload.take (if e.eventType = .RISK_APPROVED then 6 else 3)).take 3) =
          (e.traceId, e.eventType, e.payload.take 3) := by
      intro e _
      rw [List.take_take]
      split <;> rfl
    have hrows : ∀ d ∈ db.riskDecisions,
        ((decisionLine d).1, (decisionLine d).2.1, (decisionLine d).2.2.take 3) =
          (d.traceId, (if d.approved then .RISK_APPROVED else .RISK_REJECTED : AuditEventType),
            verdictPayload d) :=
      fun d _ => rfl
    exact (List.map_congr_left hevents).symm.trans (hlines.trans (List.map_congr_left hrows))
  orders := h.orders

/-- **The events recite the tables.**  In every state the events of received signals, of verdicts
and of submissions are, in order and the figures aside, the stored signals, the decisions and the
submitted orders. -/
theorem trail_recites_tables (settings : CycleSettings) (h : EmptyTables w.world.db)
    (events : List (PublishingStep ι)) :
    AllStates (publishingStep settings) (fun w => RecitedVerdicts w.world.db) w events :=
  AllStates.imp (fun _ htrail => htrail.recited.verdicts) (onTrail_throughout settings h events)

/-- Of the two orders of the traded cycle the events recite the entry. -/
theorem tradedCycle_recited :
    tradedTables.orders.length = 2 ∧ (recitals tradedTables .order).length = 1 ∧
      RecitedVerdicts tradedTables :=
  ⟨by decide +kernel, by decide +kernel,
    (trail_recites_tables fiveMinutes tenPast_empty tradedCycle).last⟩

/-- **No position opens or closes unannounced.**  In every state each position has a
POSITION_OPENED event under the trace of its entry order, and each closed one names its exit order
and has a POSITION_CLOSED event under that one's trace. -/
theorem positions_announced (settings : CycleSettings) (h : EmptyTables w.world.db)
    (events : List (PublishingStep ι)) :
    AllStates (publishingStep settings) (fun w => ∀ p ∈ w.world.db.positions,
      IsAnnounced w.world.db .POSITION_OPENED p.entryOrderId ∧
        (p.status = .CLOSED → ∃ exitId, p.exitOrderId = some exitId ∧
          IsAnnounced w.world.db .POSITION_CLOSED exitId)) w events :=
  AllStates.imp (fun _ htrail p hp => ⟨htrail.announced.opened p hp, htrail.announced.closed p hp⟩)
    (onTrail_throughout settings h events)

/-- The traded cycle opens and closes one position, and both have their event. -/
theorem tradedCycle_announced :
    tradedTables.positions.map Position.status = [.CLOSED] ∧ ∀ p ∈ tradedTables.positions,
      IsAnnounced tradedTables .POSITION_OPENED p.entryOrderId ∧
        (p.status = .CLOSED → ∃ exitId, p.exitOrderId = some exitId ∧
          IsAnnounced tradedTables .POSITION_CLOSED exitId) :=
  ⟨by decide +kernel, (positions_announced fiveMinutes tenPast_empty tradedCycle).last⟩

end TradeMind.Analysis
