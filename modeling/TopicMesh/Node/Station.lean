import TopicMesh.Direct.Network
import TopicMesh.Node.Basic
import TopicMesh.Wire.Envelope

/-!
# Nodes at work

A node's calls act on a **station**: the node itself, the hub behind its line and
the direct network.  An `Act` may change any of them and may fail; what it changed
before it failed stays changed.

An `Outage` says which calls fail before they reach the line or the network.
-/

namespace TopicMesh

/-- Which calls fail by themselves, and how. -/
structure Outage where
  /-- Calls of the line. -/
  line : LineCall → Option Error
  /-- Sends over a protocol to a host's port. -/
  send : Protocol → String → UInt16 → Option Error
  /-- The opening of listeners of a protocol. -/
  listen : Protocol → Option Error

namespace Outage

/-- Nothing fails by itself. -/
def none : Outage := ⟨fun _ => .none, fun _ _ _ => .none, fun _ => .none⟩

instance : Inhabited Outage := ⟨none⟩

end Outage

/-- **A node and what it acts on.** -/
structure Station where
  node : Node
  hub : Hub
  network : DirectNetwork
  outage : Outage

/-- What a node does: it changes its station, and may fail. -/
abbrev Act := EStateM Error Station

namespace Act

/-- Goes on with what was encoded, or fails. -/
def encoded {α : Type} : Except Announcement.EncodeFault α → Act α
  | .ok a => pure a
  | .error e => throw e.toError

/-- Changes the node. -/
def changeNode (f : Node → Node) : Act Unit :=
  modify fun s => { s with node := f s.node }

/-- Looks at the node. -/
def node : Act Node :=
  return (← get).node

/-- Does something and forgets whether it failed. -/
def attempt (act : Act Unit) : Act Unit := fun s =>
  match act s with
  | .ok _ s => .ok () s
  | .error _ s => .ok () s

/-- Does something and, if it fails, tells the node. -/
def orReport (act : Act Unit) (report : Error → NodeEvent) : Act Unit := fun s =>
  match act s with
  | .ok _ s => .ok () s
  | .error e s => .ok () { s with node := s.node.emit (report e) }

/-! ## The line -/

/-- Whether the node's line is connected. -/
def isConnected : Act Bool :=
  return (fun s => s.node.line.isConnected s.hub) (← get)

/-- A call of the line that changes line and hub. -/
def onLine (call : LineCall) (f : Line → Hub → Except Error (Line × Hub)) : Act Unit := fun s =>
  match s.outage.line call with
  | some e => .error e s
  | none =>
    match f s.node.line s.hub with
    | .ok (line, hub) => .ok () { s with node := { s.node with line := line }, hub := hub }
    | .error e => .error e s

/-- Attaches the line. -/
def attach : Act Unit :=
  onLine .connect fun line hub => .ok (line.connect hub)

/-- Publishes a message through the broker. -/
def post (m : Message) : Act Unit :=
  onLine .publish fun line hub => (line.publish hub m).map fun hub => (line, hub)

/-- Subscribes a filter at the broker. -/
def subscribeFilter (filter : String) (qos : QoS) : Act Unit :=
  onLine .subscribe fun line hub => (line.subscribe hub filter qos).map fun hub => (line, hub)

/-- Ends the subscription of a filter at the broker. -/
def unsubscribeFilter (filter : String) : Act Unit :=
  onLine .unsubscribe fun line hub => (line.unsubscribe hub filter).map fun hub => (line, hub)

/-- Takes leave of the broker. -/
def detach : Act Unit :=
  onLine .disconnect fun line hub => .ok (line.disconnect hub)

/-! ## The direct network -/

/-- Opens a listener of the node for a topic; also its port. -/
def listen (protocol : Protocol) (topic : String) : Act UInt16 := fun s =>
  match s.outage.listen protocol with
  | some e => .error e s
  | none =>
    let (network, port) := s.network.listen ⟨s.node.id, protocol, topic⟩
    .ok port { s with network := network }

/-- Closes a listener of the node. -/
def unlisten (protocol : Protocol) (port : UInt16) : Act Unit :=
  modify fun s => { s with network := s.network.unlisten s.node.id protocol port }

/-- Refuses a payload that goes over sockets and does not fit on the wire. -/
def checkFits (protocol : Protocol) (topic : String) (payload : Bytes) : Act Unit := do
  if (← get).network.usesSockets protocol then
    match Wire.onWire protocol topic payload with
    | .ok _ => pure ()
    | .error e => throw e
  else pure ()

/-- Sends a payload to a host's port. -/
def send (protocol : Protocol) (host : String) (port : UInt16) (topic : String)
    (payload : Bytes) : Act Unit := do
  checkFits protocol topic payload
  fun s =>
    let network := s.network.record (.send s.node.id protocol host port topic payload)
    match s.outage.send protocol host port with
    | some e => .error e { s with network := network }
    | none => .ok () { s with network := network.carry protocol port topic payload }

end Act

end TopicMesh
