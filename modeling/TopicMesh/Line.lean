import TopicMesh.Broker.Hub
import TopicMesh.Error

/-!
# Lines to the broker

A node reaches the broker over its **line**.  A line is attached while it has an
inbox at the hub.  It counts as connected while it is attached *and* the broker
knows a client of its name; another line with the same name can end the second
without the first.

`disconnect` takes leave: the will is dropped, and frames that wait are still
taken.  `abort` is a crash: the will is published, the frames are lost, and the
loss is reported.
-/

namespace TopicMesh

/-- The calls of a line that can be made to fail. -/
inductive LineCall
  | connect
  | publish
  | subscribe
  | unsubscribe
  | disconnect
deriving DecidableEq, Repr, Inhabited

/-- The name of a call. -/
def LineCall.name : LineCall → String
  | connect => "connect"
  | publish => "publish"
  | subscribe => "subscribe"
  | unsubscribe => "unsubscribe"
  | disconnect => "disconnect"

/-- **A line**: one client's end of the connection to the broker. -/
structure Line where
  client : String
  /-- The inbox, while the line is attached. -/
  inbox : Option Nat
  /-- The will that goes with the next greeting. -/
  will : Option Will
deriving DecidableEq, Repr, Inhabited

namespace Line

/-- A line that has not been attached. -/
def new (client : String) : Line := ⟨client, none, none⟩

/-- Whether the line is attached and the broker knows its client. -/
def isConnected (line : Line) (hub : Hub) : Bool :=
  line.inbox.isSome && hub.broker.has line.client

/-- Attaches the line, unless it is attached. -/
def connect (line : Line) (hub : Hub) : Line × Hub :=
  match line.inbox with
  | some _ => (line, hub)
  | none =>
    let (hub, inbox) := hub.register line.client line.will
    ({ line with inbox := some inbox }, hub)

/-- Does something at the hub, if the line is connected. -/
def ifConnected (line : Line) (hub : Hub) (act : Hub → Hub) : Except Error Hub :=
  if line.isConnected hub then .ok (act hub) else .error .notConnected

/-- Publishes a message. -/
def publish (line : Line) (hub : Hub) (m : Message) : Except Error Hub :=
  line.ifConnected hub fun hub => hub.publish m

/-- Subscribes a filter. -/
def subscribe (line : Line) (hub : Hub) (filter : String) (qos : QoS) : Except Error Hub :=
  line.ifConnected hub fun hub => hub.subscribe filter line.client qos

/-- Ends the subscription of a filter. -/
def unsubscribe (line : Line) (hub : Hub) (filter : String) : Except Error Hub :=
  line.ifConnected hub fun hub => hub.unsubscribe filter line.client

/-- Takes leave of the broker. -/
def disconnect (line : Line) (hub : Hub) : Line × Hub :=
  match line.inbox with
  | none => (line, hub)
  | some _ => ({ line with inbox := none }, hub.cleanup line.client true)

/-- How the loss of a crashed line is worded. -/
def abortReason : String := "connection aborted"

/-- Loses the line; also whether there was one to lose. -/
def abort (line : Line) (hub : Hub) : Line × Hub × Bool :=
  match line.inbox with
  | none => (line, hub, false)
  | some inbox =>
    ({ line with inbox := none }, (hub.cleanup line.client false).closeInbox inbox, true)

end Line

end TopicMesh
