import TopicMesh.Broker.Hub
import TopicMesh.ControlFrame.Json

/-!
# The broker's server

Clients reach the broker over connections.  The first thing on a connection has to
be a greeting (`connect`), which registers the client; anything else ends the
connection.  From then on the connection **serves** its client: what the client
sends is done at the hub, one frame at a time, and what is posted to the client's
inbox is sent on the connection.

A connection ends when the client takes its leave, when it closes the connection,
or when the connection breaks.  Its end cleans up, at the broker, what there is in
the *name* of its client.

A client that greets again on another connection takes its registration along.
The old connection sends what is left in its inbox and is then hung up by the
server (`flush`); it still serves its client until it has ended.
-/

namespace TopicMesh

/-- How far a connection has come. -/
inductive Connection.Phase
  /-- Nothing has come yet. -/
  | greeting
  | serving (client : String)
  | ended
deriving DecidableEq, Repr, Inhabited

/-- A connection as the server sees it. -/
structure Connection where
  phase : Connection.Phase
  /-- The inbox whose frames are sent on the connection. -/
  inbox : Option Nat
  /-- The frames sent so far, oldest first. -/
  sent : List ServerFrame
  /-- Whether the server has ended the connection. -/
  hungUp : Bool
deriving DecidableEq, Repr, Inhabited

/-- What comes over a connection. -/
inductive Connection.Received
  | text (s : String)
  /-- Something else than text. -/
  | other
  /-- The end, by a farewell of the connection or without one. -/
  | ended
deriving DecidableEq, Repr, Inhabited

/-- **The server.** -/
structure BrokerServer where
  hub : Hub
  connections : KeyMap Nat Connection
  /-- The number of the next connection. -/
  nextConnection : Nat

namespace BrokerServer

/-- A server without connections, at a time. -/
def empty (now : Int64) : BrokerServer := ⟨.empty now, .empty, 0⟩

instance : Inhabited BrokerServer := ⟨empty 0⟩

/-- Accepts a connection; also its number. -/
def accept (s : BrokerServer) : BrokerServer × Nat :=
  ({ s with
      connections := s.connections.insert s.nextConnection ⟨.greeting, none, [], false⟩
      nextConnection := s.nextConnection + 1 },
    s.nextConnection)

/-- Changes what is known of a connection. -/
def change (s : BrokerServer) (c : Nat) (f : Connection → Connection) : BrokerServer :=
  { s with connections := s.connections.modify c f }

/-- Ends a connection that has not greeted, with some last frames. -/
def turnAway (s : BrokerServer) (c : Nat) (last : List ServerFrame) : BrokerServer :=
  s.change c fun k => { k with phase := .ended, sent := k.sent ++ last, hungUp := true }

/-- Registers the client of a connection and tells it so. -/
def register (s : BrokerServer) (c : Nat) (client : String) (will : Option Will) : BrokerServer :=
  let (hub, inbox) := s.hub.register client will
  { s with hub := hub.deliver [⟨inbox, .accepted client⟩] }.change c fun k =>
    { k with phase := .serving client, inbox := some inbox }

/-- What the first text does. -/
def greet (s : BrokerServer) (c : Nat) (text : String) : BrokerServer :=
  match ClientFrame.ofText? text with
  | some (.connect client will) => s.register c client will
  | some _ => s.turnAway c [.refused "expected connect"]
  | none => s.turnAway c [.refused "invalid frame"]

/-- Ends a connection that serves a client. -/
def finish (s : BrokerServer) (c : Nat) (client : String) (graceful : Bool) : BrokerServer :=
  { s with hub := s.hub.cleanup client graceful }.change c fun k => { k with phase := .ended }

/-- Does what a client asks for.  A second greeting, and a text that is no frame,
do nothing. -/
def serve (s : BrokerServer) (c : Nat) (client text : String) : BrokerServer :=
  match ClientFrame.ofText? text with
  | some (.subscribe filter qos) => { s with hub := s.hub.subscribe filter client qos }
  | some (.unsubscribe filter) => { s with hub := s.hub.unsubscribe filter client }
  | some (.publish m) => { s with hub := s.hub.publish m }
  | some .disconnect => s.finish c client true
  | some (.connect _ _) => s
  | none => s

/-- **What comes over a connection is dealt with.** -/
def receive (s : BrokerServer) (c : Nat) (r : Connection.Received) : BrokerServer :=
  match (s.connections.get? c).map Connection.phase, r with
  | some .greeting, .text text => s.greet c text
  | some .greeting, _ => s.turnAway c []
  | some (.serving client), .text text => s.serve c client text
  | some (.serving _), .other => s
  | some (.serving client), .ended => s.finish c client false
  | _, _ => s

/-- Whether frames can still be posted to an inbox: a registered client has it. -/
def isRegistered (s : BrokerServer) (inbox : Nat) : Bool :=
  s.hub.broker.clients.values.any fun r => r.inbox == inbox

/-- Sends the frames that wait in the inbox of a connection.  If no more can come,
the connection is hung up. -/
def flush (s : BrokerServer) (c : Nat) : BrokerServer :=
  match (s.connections.get? c).bind Connection.inbox with
  | none => s
  | some inbox =>
    let (hub, frames) := s.hub.take inbox
    { s with hub := hub }.change c fun k =>
      { k with sent := k.sent ++ frames, hungUp := k.hungUp || !s.isRegistered inbox }

/-- What may happen at a server. -/
inductive Event
  | accept
  | receive (c : Nat) (r : Connection.Received)
  | flush (c : Nat)
deriving DecidableEq, Repr, Inhabited

/-- The server after an event. -/
def step (s : BrokerServer) : Event → BrokerServer
  | .accept => s.accept.1
  | .receive c r => s.receive c r
  | .flush c => s.flush c

/-- The server after some events. -/
def run (s : BrokerServer) (events : List Event) : BrokerServer :=
  events.foldl step s

end BrokerServer

end TopicMesh
