import TopicMesh.ControlFrame
import TopicMesh.KeyMap.Nested
import TopicMesh.Retained

/-!
# The control broker

The **broker** knows its clients by name.  A client has an inbox, where its frames
go, and perhaps a will.  For each filter the broker knows who subscribed it; a
filter without subscribers is forgotten.

Every operation answers with the broker afterwards and with the **posts** to make:
frames, each with the inbox it goes to.  What an inbox is, the broker need not
know (`ι`).  The clock is read by whoever calls (`now`).

A published message is posted **once** to every registered client that owns a
matching filter, however many of its filters match.
-/

namespace TopicMesh

/-- A client as the broker knows it. -/
structure Registration (ι : Type) where
  /-- Where the client's frames go. -/
  inbox : ι
  will : Option Will
deriving DecidableEq, Repr

/-- A frame on its way to an inbox. -/
structure Post (ι : Type) where
  inbox : ι
  frame : ServerFrame
deriving DecidableEq, Repr

/-- A filter and the clients that subscribed it. -/
structure Broker.Topic where
  /-- The filter. -/
  name : String
  /-- The guarantee that each subscriber asked for. -/
  subscribers : KeyMap String QoS

/-- **The control broker.** -/
structure Broker (ι : Type) where
  /-- The registered clients, by name. -/
  clients : KeyMap String (Registration ι)
  /-- The subscribed filters, each under its name. -/
  filters : KeyMap String Broker.Topic
  retained : Retained

namespace Broker

namespace Topic

/-- A filter without subscribers. -/
def new (name : String) : Topic := ⟨name, .empty⟩

/-- Adds a subscriber, or changes what it asked for. -/
def subscribe (t : Topic) (client : String) (qos : QoS) : Topic :=
  { t with subscribers := t.subscribers.insert client qos }

/-- Strikes a subscriber out. -/
def unsubscribe (t : Topic) (client : String) : Topic :=
  { t with subscribers := t.subscribers.erase client }

/-- Whether a topic matches the filter. -/
def covers (t : Topic) (topic : String) : Bool :=
  Filter.topicMatches t.name topic

/-- The subscribers with what they asked for, by name. -/
def entries (t : Topic) : List (String × QoS) :=
  t.subscribers.entries

/-- The filter, if anybody is subscribed through it. -/
def inUse? (t : Topic) : Option Topic :=
  if t.subscribers.isEmpty then none else some t

end Topic

variable {ι : Type}

/-- A broker that knows nobody and keeps nothing. -/
def empty : Broker ι := ⟨.empty, .empty, .empty⟩

instance : Inhabited (Broker ι) := ⟨empty⟩

/-- Registers a client, in the place of an earlier one with its name. -/
def register (b : Broker ι) (client : String) (r : Registration ι) : Broker ι :=
  { b with clients := b.clients.insert client r }

/-- Strikes a client out; its subscriptions stay. -/
def remove (b : Broker ι) (client : String) : Broker ι :=
  { b with clients := b.clients.erase client }

/-- Whether a client is registered. -/
def has (b : Broker ι) (client : String) : Bool :=
  b.clients.contains client

/-- The post of a frame to a client, if it is registered. -/
def postTo (b : Broker ι) (client : String) (frame : ServerFrame) : List (Post ι) :=
  match b.clients.get? client with
  | some r => [⟨r.inbox, frame⟩]
  | none => []

/-- Subscribes a filter for a client and posts it the retained messages that the
filter matches.  An invalid filter is refused. -/
def subscribe (b : Broker ι) (filter client : String) (qos : QoS) : Broker ι × List (Post ι) :=
  if Filter.isValid filter then
    let t := (b.filters.get? filter).getD (.new filter)
    ({ b with filters := b.filters.insert filter (t.subscribe client qos) },
      (b.retained.matching filter).flatMap fun m => b.postTo client (.deliver m))
  else (b, b.postTo client (.refused s!"invalid filter '{filter}'"))

/-- Ends a client's subscription of a filter. -/
def unsubscribe (b : Broker ι) (filter client : String) : Broker ι :=
  { b with
    filters :=
      match b.filters.get? filter with
      | some t => b.filters.put filter (t.unsubscribe client).inUse?
      | none => b.filters }

/-- Whether a client owns a filter that a topic matches. -/
def owns (b : Broker ι) (topic client : String) : Bool :=
  b.filters.values.any fun t => t.covers topic && t.subscribers.contains client

/-- The registered clients that a message on a topic goes to, by name. -/
def recipients (b : Broker ι) (topic : String) : List (String × Registration ι) :=
  b.clients.entries.filter fun e => b.owns topic e.1

/-- Publishes a message: stamps it, keeps it if it is to be kept, and posts it to
its recipients. -/
def publish (now : Int64) (b : Broker ι) (m : Message) : Broker ι × List (Post ι) :=
  let m := m.stamp now
  let retained := if m.retain then b.retained.store now m else b.retained
  ({ b with retained := retained },
    (b.recipients m.topic).map fun e => ⟨e.2.inbox, .deliver { m with retain := false }⟩)

/-- Ends everything that a client has at the broker.  Unless the client took its
leave, its will is published then. -/
def cleanup (now : Int64) (b : Broker ι) (client : String) (graceful : Bool) :
    Broker ι × List (Post ι) :=
  let will := if graceful then none else (b.clients.get? client).bind Registration.will
  let b := { b.remove client with
    filters := (b.filters.mapValues fun _ t => t.unsubscribe client).filter fun _ t =>
      !t.subscribers.isEmpty }
  match will with
  | none => (b, [])
  | some w => b.publish now w.toMessage

/-- The guarantee that a client asked for with a filter. -/
def qos? (b : Broker ι) (filter client : String) : Option QoS :=
  (b.filters.get? filter).bind fun t => t.subscribers.get? client

/-- Whether a client is subscribed through a filter. -/
def subscribed (b : Broker ι) (filter client : String) : Bool :=
  (b.qos? filter client).isSome

end Broker

end TopicMesh
