import TradeMind.Library.Rows
import TradeMind.Model.Records

/-!
# The database

The Postgres tables the services share, as lists in insertion order, and the few ways the
code writes them: a row is inserted under a fresh id, an ORM row is rewritten by its
primary key, an audit event is appended.  A session works on a copy of the tables and
`commit` publishes it; autoflush makes a session's own writes visible to its queries, so
one `Database` value is both.

`RowOrder` is the order in which the database returns the rows of a query that does not
fix it.  `WellKeyed` is what primary keys and `uuid4` give: ids are unique and every id
handed out is new.
-/

set_option autoImplicit false

namespace TradeMind.Model

open TradeMind.Library

structure Database where
  signals : List Signal := []
  riskDecisions : List RiskDecision := []
  orders : List Order := []
  positions : List Position := []
  auditEvents : List AuditEvent := []
  systemState : Option SystemState := none
  /-- The next id `uuid4` hands out. -/
  nextId : Uuid := 0
  deriving DecidableEq, Repr

/-- The row orders the database picks for the queries of one transaction. -/
structure RowOrder where
  orders : Arrangement Order
  positions : Arrangement Position
  joined : Arrangement (Position × Order)

/-- Every query returns its rows in the order the table holds them. -/
def RowOrder.stored : RowOrder :=
  ⟨Arrangement.stored Order, Arrangement.stored Position,
    Arrangement.stored (Position × Order)⟩

namespace Database

/-! ## Reading by primary key: `session.get` -/

def getSignal (db : Database) (id : Uuid) : Option Signal :=
  db.signals.find? fun s => s.id = id

def getRiskDecision (db : Database) (id : Uuid) : Option RiskDecision :=
  db.riskDecisions.find? fun d => d.id = id

def getOrder (db : Database) (id : Uuid) : Option Order :=
  db.orders.find? fun o => o.id = id

/-! ## Writing -/

/-- `session.add` of a decision whose id is `nextId`. -/
def insertRiskDecision (db : Database) (d : RiskDecision) : Database :=
  { db with riskDecisions := db.riskDecisions ++ [d], nextId := db.nextId + 1 }

/-- `session.add` of an order whose id is `nextId`. -/
def insertOrder (db : Database) (o : Order) : Database :=
  { db with orders := db.orders ++ [o], nextId := db.nextId + 1 }

/-- `session.add` of a position whose id is `nextId`. -/
def insertPosition (db : Database) (p : Position) : Database :=
  { db with positions := db.positions ++ [p], nextId := db.nextId + 1 }

/-- `session.add(AuditEvent(...))` in a transaction that started at `startedAt`. -/
def addAuditEvent (db : Database) (startedAt : Time) (traceId : Uuid)
    (eventType : AuditEventType) (payload : Payload) : Database :=
  { db with
    auditEvents := db.auditEvents ++
      [{ id := db.nextId, traceId, eventType, payload, createdAt := startedAt }]
    nextId := db.nextId + 1 }

/-- Assignments to the attributes of one order row. -/
def modifyOrder (db : Database) (id : Uuid) (f : Order → Order) : Database :=
  { db with orders := modifyRow Order.id id f db.orders }

/-- Assignments to the attributes of one position row. -/
def modifyPosition (db : Database) (id : Uuid) (f : Position → Position) : Database :=
  { db with positions := modifyRow Position.id id f db.positions }

section Frames

variable (db : Database) (d : RiskDecision) (o : Order) (p : Position) (now : Time)
  (trace id : Uuid) (type : AuditEventType) (payload : Payload)
  (f : Order → Order) (g : Position → Position)

@[simp] theorem insertRiskDecision_riskDecisions :
    (db.insertRiskDecision d).riskDecisions = db.riskDecisions ++ [d] := rfl

@[simp] theorem insertPosition_positions :
    (db.insertPosition p).positions = db.positions ++ [p] := rfl
@[simp] theorem insertPosition_nextId : (db.insertPosition p).nextId = db.nextId + 1 := rfl

@[simp] theorem addAuditEvent_positions :
    (db.addAuditEvent now trace type payload).positions = db.positions := rfl
@[simp] theorem addAuditEvent_riskDecisions :
    (db.addAuditEvent now trace type payload).riskDecisions = db.riskDecisions := rfl
@[simp] theorem addAuditEvent_nextId :
    (db.addAuditEvent now trace type payload).nextId = db.nextId + 1 := rfl
@[simp] theorem addAuditEvent_systemState :
    (db.addAuditEvent now trace type payload).systemState = db.systemState := rfl

@[simp] theorem modifyOrder_positions : (db.modifyOrder id f).positions = db.positions := rfl
@[simp] theorem modifyOrder_nextId : (db.modifyOrder id f).nextId = db.nextId := rfl
@[simp] theorem modifyOrder_systemState :
    (db.modifyOrder id f).systemState = db.systemState := rfl

@[simp] theorem modifyPosition_positions :
    (db.modifyPosition id g).positions = modifyRow Position.id id g db.positions := rfl

end Frames

/-! ## Primary keys -/

/-- Order and position ids are unique and below the next id. -/
structure WellKeyed (db : Database) : Prop where
  orders : (db.orders.map Order.id).Nodup
  positions : (db.positions.map Position.id).Nodup
  orders_lt : ∀ o ∈ db.orders, o.id < db.nextId
  positions_lt : ∀ p ∈ db.positions, p.id < db.nextId

end Database

end TradeMind.Model
