import TopicMesh.Node.Calls

/-!
# Meshes

A **mesh** is any number of nodes on one hub and one direct network.  A node acts
by `perform`, which lends it the hub and the network.

What has been sent then waits: payloads on the direct network, frames in the
inboxes.  `handArrivals` takes the payloads to the nodes and `handFrom?` the frames,
from any inbox and one at a time; `settle` goes on until nothing waits: the direct
payloads, the frames of every inbox in order, and then the subscriptions that are
due to be dropped.
-/

namespace TopicMesh

/-- **A mesh.** -/
structure Mesh where
  hub : Hub
  network : DirectNetwork
  /-- The nodes, by identity. -/
  nodes : KeyMap String Node
  /-- For each node, which of its calls fail by themselves. -/
  outage : String → Outage

namespace Mesh

/-- A mesh of nodes that have done nothing yet. -/
def new (configs : List NodeConfig) (now : Int64) (firstPort : UInt16) : Mesh where
  hub := .empty now
  network := .empty firstPort
  nodes := .ofList (configs.map fun c => (c.discovery.nodeId, .new c))
  outage := fun _ => .none

instance : Inhabited Mesh := ⟨new [] 0 0⟩

/-- Lets a node act, if there is such a node; also what became of it. -/
def perform {α : Type} (m : Mesh) (id : String) (act : Act α) : Mesh × Option (Except Error α) :=
  match m.nodes.get? id with
  | none => (m, none)
  | some n =>
    match act ⟨n, m.hub, m.network, m.outage id⟩ with
    | .ok a s =>
      ({ m with hub := s.hub, network := s.network, nodes := m.nodes.insert id s.node },
        some (.ok a))
    | .error e s =>
      ({ m with hub := s.hub, network := s.network, nodes := m.nodes.insert id s.node },
        some (.error e))

/-- Hands every payload on the direct network to its node. -/
def handArrivals (m : Mesh) : Mesh :=
  { m with
    network := { m.network with arrivals := [] }
    nodes := m.network.arrivals.foldl
      (fun nodes a => nodes.modify a.node fun n =>
        n.deliver (.direct a.topic a.payload a.protocol))
      m.nodes }

/-- Hands a frame that was taken out of an inbox to its node. -/
def hand (m : Mesh) (taken : Hub × String × ServerFrame) : Mesh :=
  { m with
    hub := taken.1
    nodes := m.nodes.modify taken.2.1 fun n => n.onFrame taken.2.2 }

/-- Hands the oldest frame of an inbox to its node. -/
def handFrom? (m : Mesh) (inbox : Nat) : Option Mesh :=
  (m.hub.pop? inbox).map m.hand

/-- Hands the oldest frame of the first inbox that holds one to its node. -/
def handFrame? (m : Mesh) : Option Mesh :=
  m.hub.next?.map m.hand

/-- Hands over at most `limit` frames. -/
def handFrames : (limit : Nat) → Mesh → Mesh
  | 0, m => m
  | limit + 1, m =>
    match m.handFrame? with
    | none => m
    | some m => handFrames limit m

/-- Hands over every frame that waits; that makes no new ones. -/
def drain (m : Mesh) : Mesh :=
  m.handFrames m.hub.pending

/-- Lets a node drop the subscriptions that are due. -/
def doChores (m : Mesh) (id : String) : Mesh :=
  (m.perform id do
    let n ← Act.node
    Act.changeNode fun n => { n with chores := [] }
    Node.doChores n.chores).1

/-- **Goes on until nothing waits.** -/
def settle (m : Mesh) : Mesh :=
  let m := m.handArrivals.drain
  (m.nodes.keys.foldl doChores m).drain

end Mesh

end TopicMesh
