import TopicMesh.Announcement
import TopicMesh.KeyMap.Nested
import TopicMesh.Message
import TopicMesh.RouteTable

/-!
# Discovery

Nodes find each other through retained announcements.  Below a common base every
node has a topic of its own, named by its identity, on which it announces itself;
and every node subscribes to all of these topics.  A node's will is the
announcement of its departure, so a crash takes its routes back everywhere.

What a node hears about others changes its route table by **table operations**
(`TableOp`), one after the other:

* a departure removes all routes of the announced host;
* any other announcement sets the routes it lists, all at once, and then drops
  those ports that the same node had announced for the same topics before.

The ports are remembered per announcing node, since several nodes may share a
host.
-/

namespace TopicMesh

/-- How a node takes part in discovery. -/
structure DiscoveryConfig where
  nodeId : String
  /-- Where other nodes reach this one. -/
  host : String
  /-- The base of the announcement topics, without slashes at its end. -/
  topicBase : String
  /-- Whether a crash is to be announced. -/
  lastWill : Bool
deriving DecidableEq, Repr, Inhabited

namespace DiscoveryConfig

/-- A base without the slashes at its end. -/
def trimBase (base : String) : String :=
  String.ofList (base.toList.reverse.dropWhile fun c => c = '/').reverse

/-- The configuration of a node below a base. -/
def new (nodeId host base : String) (lastWill : Bool) : DiscoveryConfig :=
  ⟨nodeId, host, trimBase base, lastWill⟩

/-- The topic that the node announces itself on. -/
def nodeTopic (c : DiscoveryConfig) : String :=
  c.topicBase ++ "/" ++ c.nodeId

/-- The filter of all announcement topics. -/
def filter (c : DiscoveryConfig) : String :=
  c.topicBase ++ "/+"

/-- Whether a topic is one for announcements: one level below the base, and not
an empty one. -/
def isDiscoveryTopic (c : DiscoveryConfig) (topic : String) : Bool :=
  let base := c.topicBase.toList ++ ['/']
  let node := topic.toList.drop base.length
  base.isPrefixOf topic.toList && !node.isEmpty && !node.contains '/'

/-- The message that carries an announcement of the node. -/
def announce (c : DiscoveryConfig) (a : Announcement) : Except Announcement.EncodeFault Message :=
  a.encode.map fun payload => .plain c.nodeTopic payload .atLeastOnce true

/-- The announcement that the node leaves. -/
def departure (c : DiscoveryConfig) : Except Announcement.EncodeFault Message :=
  c.announce (.departure c.host)

/-- The will to go with the greeting of the broker. -/
def will (c : DiscoveryConfig) : Except Announcement.EncodeFault (Option Will) :=
  if c.lastWill then
    (Announcement.departure c.host).encode.map fun payload =>
      some ⟨c.nodeTopic, payload, .atLeastOnce, true⟩
  else .ok none

end DiscoveryConfig

/-- The routes that an announcement lists, by topic. -/
def Announcement.updates (a : Announcement) : List RouteUpdate :=
  a.topics.entries.map fun (topic, capability) => ⟨topic, capability.port, capability.protocol⟩

/-- One change of a route table, during which nobody can look at it. -/
inductive TableOp
  | removeHost (host : String)
  | apply (host : String) (updates : List RouteUpdate)
  | retire (host : String) (ports : List (String × UInt16))
deriving DecidableEq, Repr

namespace TableOp

variable {σ : Type}

/-- Makes a change; also the sessions that it displaces. -/
def run (t : RouteTable σ) : TableOp → RouteTable σ × List σ
  | removeHost host => t.removeHost host
  | apply host updates => t.apply host updates
  | retire host ports => t.retire host ports

/-- Makes changes one after the other. -/
def runAll (t : RouteTable σ) : List TableOp → RouteTable σ × List σ
  | [] => (t, [])
  | op :: rest =>
    let (t, displaced) := op.run t
    let (t, others) := runAll t rest
    (t, displaced ++ others)

/-- The tables that can be seen between the changes, the first and the last one
included. -/
def visible (t : RouteTable σ) : List TableOp → List (RouteTable σ)
  | [] => [t]
  | op :: rest => t :: visible (op.run t).1 rest

end TableOp

/-- **What a node knows for discovery**: what it advertises itself, and which
ports it has heard of. -/
structure Discovery where
  /-- The topics that the node serves. -/
  advertised : KeyMap String Capability
  /-- For each announcement topic the last port announced for each topic. -/
  announced : KeyMap String (KeyMap String UInt16)

namespace Discovery

instance : DecidableEq Discovery := fun d d' =>
  if h : d.advertised = d'.advertised ∧ d.announced = d'.announced then
    .isTrue (by cases d; cases d'; cases h.1; cases h.2; rfl)
  else
    .isFalse fun e => h (e ▸ ⟨rfl, rfl⟩)

/-- Nothing advertised and nothing heard. -/
def empty : Discovery := ⟨.empty, .empty⟩

instance : Inhabited Discovery := ⟨empty⟩

/-- The announcement of what the node serves. -/
def own (c : DiscoveryConfig) (d : Discovery) : Announcement :=
  ⟨.connected, c.host, d.advertised⟩

/-- The announcement in a payload on an announcement topic, if there is one to
listen to: an empty payload says nothing, and a node does not listen to itself. -/
def heard? (c : DiscoveryConfig) (topic : String) (payload : Bytes) :
    Except Announcement.DecodeFault (Option Announcement) :=
  if payload.isEmpty || topic = c.nodeTopic then .ok none
  else (Announcement.decode payload).map some

/-- The ports that some updates of one node replace. -/
def movedPorts (known : KeyMap String UInt16) (updates : List RouteUpdate) :
    List (String × UInt16) :=
  updates.filterMap fun u =>
    match known.get? u.topic with
    | some old => if old = u.port then none else some (u.topic, old)
    | none => none

/-- The known ports of a node after some updates. -/
def remember (known : KeyMap String UInt16) (updates : List RouteUpdate) : KeyMap String UInt16 :=
  updates.foldl (fun known u => known.insert u.topic u.port) known

/-- What an announcement changes: the node's knowledge, and the table. -/
def absorb (d : Discovery) (topic : String) (a : Announcement) : Discovery × List TableOp :=
  match a.status with
  | .disconnected =>
    ({ d with announced := d.announced.erase topic }, [.removeHost a.host])
  | .connected =>
    let moved := movedPorts (d.announced.innerOf topic) a.updates
    ({ d with announced := d.announced.within topic fun known => remember known a.updates },
      .apply a.host a.updates :: if moved.isEmpty then [] else [.retire a.host moved])

/-- What a payload on an announcement topic changes. -/
def operations (c : DiscoveryConfig) (d : Discovery) (topic : String) (payload : Bytes) :
    Except Announcement.DecodeFault (Discovery × List TableOp) :=
  (heard? c topic payload).map fun
    | none => (d, [])
    | some a => d.absorb topic a

/-- **Takes in a payload on an announcement topic**: the knowledge and the table
after it, and the sessions that are displaced. -/
def handle {σ : Type} (c : DiscoveryConfig) (d : Discovery) (t : RouteTable σ) (topic : String)
    (payload : Bytes) : Except Announcement.DecodeFault (Discovery × RouteTable σ × List σ) :=
  (d.operations c topic payload).map fun (d, ops) => (d, TableOp.runAll t ops)

end Discovery

end TopicMesh
