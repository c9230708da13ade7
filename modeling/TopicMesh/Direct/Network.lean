import TopicMesh.Error
import TopicMesh.KeyMap
import TopicMesh.Message

/-!
# The direct network

Payload that does not go through the broker travels over the **direct network**:
listeners wait on ports, and a payload sent to a port arrives at the listener
there.  Ports are handed out in ascending order, over the whole network.

Some protocols may go over sockets of the operating system instead.  Their ports
come from a range of its own, and they and the other protocols do not reach each
other.

Arrivals wait in order until they are handed to the listener's node.  The network
keeps a record of the calls that were made on it.
-/

namespace TopicMesh

/-- Who waits on a port, and for which topic. -/
structure Listener where
  node : String
  protocol : Protocol
  topic : String
deriving DecidableEq, Repr, Inhabited

/-- A call on the direct network. -/
inductive DirectCall
  | listen (node : String) (protocol : Protocol) (topic : String) (port : UInt16)
  | send (node : String) (protocol : Protocol) (host : String) (port : UInt16) (topic : String)
      (payload : Bytes)
  | unlisten (node : String) (protocol : Protocol) (port : UInt16)
deriving DecidableEq, Repr

/-- A payload that has reached a listener. -/
structure Arrival where
  node : String
  topic : String
  payload : Bytes
  protocol : Protocol
deriving DecidableEq, Repr, Inhabited

/-- **The direct network.** -/
structure DirectNetwork where
  listeners : KeyMap UInt16 Listener
  nextPort : UInt16
  /-- The protocols that go over sockets. -/
  sockets : List Protocol
  /-- The port that the next socket listens on. -/
  nextSocket : UInt16
  /-- The payloads that nobody has been handed yet, oldest first. -/
  arrivals : List Arrival
  /-- The calls made so far, oldest first. -/
  calls : List DirectCall

namespace DirectNetwork

/-- The first of the ports that an operating system hands out. -/
def firstSocket : UInt16 := 49152

/-- A network without listeners and sockets, with the port that is handed out
first. -/
def empty (firstPort : UInt16) : DirectNetwork := ⟨.empty, firstPort, [], firstSocket, [], []⟩

instance : Inhabited DirectNetwork := ⟨empty 7000⟩

/-- Whether a protocol goes over sockets. -/
def usesSockets (n : DirectNetwork) (protocol : Protocol) : Bool :=
  n.sockets.contains protocol

/-- Takes the next port for a protocol. -/
def takePort (n : DirectNetwork) (protocol : Protocol) : DirectNetwork × UInt16 :=
  if n.usesSockets protocol then ({ n with nextSocket := n.nextSocket + 1 }, n.nextSocket)
  else ({ n with nextPort := n.nextPort + 1 }, n.nextPort)

/-- Opens a listener; also its port. -/
def listen (n : DirectNetwork) (l : Listener) : DirectNetwork × UInt16 :=
  let (n, port) := n.takePort l.protocol
  ({ n with
      listeners := n.listeners.insert port l
      calls := n.calls ++ [.listen l.node l.protocol l.topic port] },
    port)

/-- Closes the listener on a port. -/
def unlisten (n : DirectNetwork) (node : String) (protocol : Protocol) (port : UInt16) :
    DirectNetwork :=
  { n with
    listeners := n.listeners.erase port
    calls := n.calls ++ [.unlisten node protocol port] }

/-- Lets a payload arrive at a port, if somebody listens there. -/
def arrive (n : DirectNetwork) (port : UInt16) (topic : String) (payload : Bytes) : DirectNetwork :=
  match n.listeners.get? port with
  | none => n
  | some l => { n with arrivals := n.arrivals ++ [⟨l.node, topic, payload, l.protocol⟩] }

/-- Whether what is sent over a protocol can reach a port: nobody there is of the
other kind. -/
def reaches (n : DirectNetwork) (protocol : Protocol) (port : UInt16) : Bool :=
  (n.listeners.get? port).all fun l => n.usesSockets l.protocol == n.usesSockets protocol

/-- Carries a payload to a port. -/
def carry (n : DirectNetwork) (protocol : Protocol) (port : UInt16) (topic : String)
    (payload : Bytes) : DirectNetwork :=
  if n.reaches protocol port then n.arrive port topic payload else n

/-- Records a call to send. -/
def record (n : DirectNetwork) (call : DirectCall) : DirectNetwork :=
  { n with calls := n.calls ++ [call] }

end DirectNetwork

end TopicMesh
