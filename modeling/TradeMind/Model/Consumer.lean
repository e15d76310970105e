import TradeMind.Library.ConsumerGroup
import TradeMind.Model.ProcessSignal

/-!
# The consumer of the signal stream

`risk_engine/main.py`: `run_consumer` and `_handle_message` over the Redis stream of
pending signals.  One step of the machine is one round of the loop, from the read to the
last message of its response, or the end of the process.  What the rest of the system
does meanwhile is left open: each message is handled in a world of its own.
-/

set_option autoImplicit false

namespace TradeMind.Model

open TradeMind.Library

/-- The `signal_id` text of a message; `uuid.UUID` parses it or raises. -/
inductive SignalIdText
  | uuid (id : Uuid)
  | malformed (text : String)
  deriving DecidableEq, Repr

/-- What the handling of one message meets: the world and the delivery of its attempt, how
the XACK fails, and whether the process is killed before the next message. -/
structure Handling where
  world : World
  delivery : Delivery
  ackFault : Option Fault
  killed : Bool

/-- The attempt made for the message returns. -/
def Handling.succeeds (h : Handling) : SignalIdText → Bool
  | .uuid id => (handleMessage h.world { h.delivery with signalId := id }).2
  | .malformed _ => false

/-- The XACK of the message. -/
def Handling.xack (h : Handling) (g : Group) (id : ℕ) : Group :=
  if h.ackFault = some .before then g else g.ack id

/-- `_handle_message`: the group it leaves and whether the loop goes on.  An XACK that
raises is caught where the message names a signal, and not caught where it does not. -/
def Handling.run (h : Handling) (g : Group) (message : Option SignalIdText × ℕ) : Group × Bool :=
  match message.1 with
  | none => (h.xack g message.2, h.ackFault = none && !h.killed)
  | some signalId =>
    (if h.succeeds signalId then h.xack g message.2 else g, !h.killed)

/-- The loop over the messages of one response. -/
def handleMessages (handling : ℕ → Handling) (g : Group) :
    List (Option SignalIdText × ℕ) → Group × Bool
  | [] => (g, true)
  | message :: rest =>
    match (handling message.2).run g message with
    | (g, true) => handleMessages handling g rest
    | (g, false) => (g, false)

/-- The stream, its consumer group once there is one, and the name of the running
consumer. -/
structure SignalStream where
  entries : List (Option SignalIdText) := []
  group : Option Group := none
  consumer : Option ℕ := none
  deriving DecidableEq, Repr

/-- The `count` of the XREADGROUP. -/
def readCount : ℕ := 10

/-- One step: the scheduler's XADD, the start of a consumer process, its end, an XREADGROUP
whose reply is lost with the process, and a round of the loop. -/
inductive StreamStep
  | publish (signalId : Option SignalIdText)
  | start (name : ℕ)
  | stop
  | loseRead
  | iterate (handling : ℕ → Handling)

/-- An XREADGROUP whose reply is lost with the process. -/
def SignalStream.loseRead (s : SignalStream) : SignalStream :=
  match s.consumer, s.group with
  | some name, some g =>
    { s with
      group := some (g.readNew s.entries name readCount).1
      consumer := none }
  | _, _ => { s with consumer := none }

/-- One round of the loop of `run_consumer`; without a group the XREADGROUP raises. -/
def SignalStream.iterate (s : SignalStream) (handling : ℕ → Handling) : SignalStream :=
  match s.consumer, s.group with
  | some name, some g =>
    let (g, messages) := g.readNew s.entries name readCount
    let (g, goesOn) := handleMessages handling g messages
    { s with
      group := some g
      consumer := if goesOn then some name else none }
  | _, _ => { s with consumer := none }

/-- What the step leaves.  `_ensure_consumer_group` creates the group at the start of the
stream and keeps one there is. -/
def streamStep (s : SignalStream) : StreamStep → SignalStream
  | .publish signalId => { s with entries := s.entries ++ [signalId] }
  | .start name => { s with group := some (s.group.getD {}), consumer := some name }
  | .stop => { s with consumer := none }
  | .loseRead => s.loseRead
  | .iterate handling => s.iterate handling

end TradeMind.Model
