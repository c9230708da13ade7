import TopicMesh.Proofs.Node.FanOut

/-!
# Nodes at work

A node is **reached** (`Node.Reached`) by what its owner asks of it, by what the broker,
the direct network and its sessions bring, and by the steps of its subscriptions, between
which others may run.  Each time it may meet another hub, another network and another
outage.

Whatever has happened to a node, its sessions are in order (`Reached.housed`), and so
its next publication reaches everybody it is for (`Reached.fanOut`).
-/

namespace TopicMesh.Node

open Act

/-- What a node does, or what reaches it. -/
inductive Deed
  | call (c : Call)
  | publish (topic : String) (payload : Bytes) (protocols : ProtocolSet) (qos : QoS) (retain : Bool)
  | request (topic : String) (payload : Bytes) (qos : QoS) (correlation : Option String)
    (callback : String)
  | reply (d : Delivery) (payload : Bytes) (isLast : Bool)
  /-- The steps of a subscription. -/
  | findRecord (topic : String) (callback : Callback)
  | openEndpoint (topic : String) (protocol : Protocol) (qos : QoS)
  | offer (topic : String) (callback : Callback) (endpoint : Endpoint) (qos : QoS)
    (advertised : Bool)
  | conclude (topic : String) (protocol : Protocol) (port : UInt16) (advertised : Bool)
    (insertion : Insertion)
  /-- Subscriptions of answers that are due are dropped. -/
  | chores (topics : List String)
  /-- The owner edits the route table. -/
  | edit (e : RouteTable.Edit)
  | forgetTopic (topic : String)
  /-- A frame comes from the broker. -/
  | frame (f : ServerFrame)
  /-- A payload comes from the direct network. -/
  | arrival (d : Delivery)
  /-- Something happens in the life of a session. -/
  | occurrence (topic peer : String) (o : Session.Occurrence)
  | sessionEnd (session : Nat)
  | sessionFailure (session : Nat) (reason : String)

/-- The node of a station after a deed. -/
def Deed.result (s : Station) : Deed → Node
  | call c => (after c.act s).node
  | publish topic payload protocols qos retain =>
    (after (Node.publish topic payload protocols qos retain) s).node
  | request topic payload qos correlation callback =>
    (after (Node.request topic payload qos correlation callback) s).node
  | reply d payload isLast => (after (Node.reply d payload isLast) s).node
  | findRecord topic callback => (after (Node.findRecord topic callback) s).node
  | openEndpoint topic protocol qos => (after (Node.openEndpoint topic protocol qos) s).node
  | offer topic callback endpoint qos advertised =>
    (after (Node.offer topic callback endpoint qos advertised) s).node
  | conclude topic protocol port advertised insertion =>
    (after (Node.conclude topic protocol port advertised insertion) s).node
  | chores topics => (after (doChores topics) s).node
  | edit e => { s.node with table := (s.node.table.edited e).1 }
  | forgetTopic topic => s.node.forgetTopic topic
  | frame f => s.node.onFrame f
  | arrival d => s.node.deliver d
  | occurrence topic peer o => s.node.onOccurrence topic peer o
  | sessionEnd session => s.node.onSessionEnd session
  | sessionFailure session reason => s.node.failSession session reason

/-- **Whether a node is one that has been at work**, whatever it met on the way. -/
inductive Reached : Node → Prop
  | new (config : NodeConfig) : Reached (new config)
  | step {n : Node} (hub : Hub) (network : DirectNetwork) (outage : Outage) (d : Deed) :
    Reached n → Reached (d.result ⟨n, hub, network, outage⟩)

/-- Whether the sessions of a station's node are in order. -/
def HousedAt (s : Station) : Prop :=
  s.node.lodging.Housed

theorem housedAt_blind (s s' : Station) (same : s'.node.lodging = s.node.lodging)
    (housed : HousedAt s) : HousedAt s' :=
  show s'.node.lodging.Housed from same ▸ housed

theorem keeps_checkTopic (topic : String) : Keeps HousedAt (checkTopic topic) :=
  .ite (keeps_throw _) (keeps_pure ())

theorem keeps_checkProtocols (protocols : ProtocolSet) : Keeps HousedAt (checkProtocols protocols) :=
  .ite (keeps_throw _) (keeps_pure ())

theorem keeps_subscribe (topic : String) (callback : Callback) (protocols : ProtocolSet) (qos : QoS) :
    Keeps HousedAt (subscribe topic callback protocols qos) := by
  refine (keeps_checkTopic topic).bind fun _ => (keeps_checkProtocols protocols).bind fun _ =>
    keeps_node.bind fun n => .ite (keeps_throw _) ?_
  cases preference.find? protocols.contains with
  | none => exact keeps_throw _
  | some protocol => exact keeps_subscribeWith housedAt_blind topic callback protocol qos true

theorem keeps_disconnect : Keeps HousedAt disconnect := by
  have forgets : Keeps HousedAt forgetRoutes := keeps_changeNode fun s housed =>
    housed_closeSessions housed (s.node.table.narrows_edited .clear) s.node.discovery _
  have ends : Keeps HousedAt endAll := keeps_node.bind fun n =>
    (keeps_changeNode fun s housed => housedAt_blind s _ rfl housed).bind fun _ =>
      keeps_teardownAll housedAt_blind _
  have leaves : Keeps HousedAt (Act.detach >>= fun _ => forgetRoutes) :=
    (keeps_onLine housedAt_blind _ _).bind fun _ => forgets
  refine ends.bind fun _ => (keeps_changeNode fun s housed => housedAt_blind s _ rfl housed).bind
    fun _ => keeps_isConnected.bind fun _ => .ite ?_ leaves
  exact (keeps_announceDeparture housedAt_blind).attempt.bind fun _ => leaves

theorem keeps_connect : Keeps HousedAt connect := by
  have wills : Keeps HousedAt setWill := keeps_node.bind fun _ => (keeps_encoded _).bind fun _ =>
    keeps_changeNode fun s housed => housedAt_blind s _ rfl housed
  exact wills.bind fun _ => (keeps_onLine housedAt_blind _ _).bind fun _ => keeps_node.bind fun n =>
    (keeps_renew housedAt_blind _).bind fun _ => keeps_startDiscovery housedAt_blind

theorem keeps_call (c : Call) : Keeps HousedAt c.act := by
  cases c with
  | connect => exact keeps_connect
  | subscribe topic callback protocols qos => exact keeps_subscribe topic callback protocols qos
  | unsubscribe topic =>
    exact (keeps_checkTopic topic).bind fun _ => keeps_endSubscription housedAt_blind topic
  | disconnect => exact keeps_disconnect
  | abort =>
    intro s housed
    obtain ⟨events, run⟩ := abort_ok s
    exact after_ok run ▸ housed

theorem keeps_request (topic : String) (payload : Bytes) (qos : QoS) (correlation : Option String)
    (callback : String) : Keeps HousedAt (request topic payload qos correlation callback) :=
  (keeps_checkTopic topic).bind fun _ =>
    (keeps_node.bind fun _ => (keeps_changeNode fun s housed => housedAt_blind s _ rfl housed).bind
      fun _ => keeps_pure _).bind fun _ => keeps_node.bind fun _ =>
        (keeps_subscribeWith housedAt_blind _ _ _ _ _).bind fun _ =>
          keeps_ask housedAt_blind _ _

theorem keeps_reply (d : Delivery) (payload : Bytes) (isLast : Bool) :
    Keeps HousedAt (reply d payload isLast) := by
  unfold reply
  cases d.replyTopic with
  | none => exact keeps_throw _
  | some topic =>
    exact (keeps_node.bind fun _ =>
      (keeps_changeNode fun s housed => housedAt_blind s _ rfl housed).bind fun _ =>
        keeps_pure _).bind fun _ => keeps_onLine housedAt_blind _ _

theorem keeps_publish (topic : String) (payload : Bytes) (protocols : ProtocolSet) (qos : QoS)
    (retain : Bool) : Keeps HousedAt (publish topic payload protocols qos retain) := by
  intro s housed
  rcases checkTopic_cases (s := s) topic with ⟨checks, named⟩ | ⟨e, fails⟩
  · rcases checkProtocols_cases (s := s) protocols with ⟨-, wanted⟩ | ⟨e, fails⟩
    · rw [after_ok (Station.publish_ok housed named payload wanted qos retain)]
      exact housed.serveAll _ _
    · have run : publish topic payload protocols qos retain s = .error e s :=
        (bind_ok checks).trans (bind_error fails)
      rw [after_error run]
      exact housed
  · have run : publish topic payload protocols qos retain s = .error e s := bind_error fails
    rw [after_error run]
    exact housed

theorem housed_result {s : Station} (housed : HousedAt s) (d : Deed) :
    (d.result s).lodging.Housed := by
  cases d with
  | call c => exact keeps_call c s housed
  | publish topic payload protocols qos retain =>
    exact keeps_publish topic payload protocols qos retain s housed
  | request topic payload qos correlation callback =>
    exact keeps_request topic payload qos correlation callback s housed
  | reply d payload isLast => exact keeps_reply d payload isLast s housed
  | findRecord topic callback => exact keeps_findRecord housedAt_blind topic callback s housed
  | openEndpoint topic protocol qos =>
    exact keeps_openEndpoint housedAt_blind topic protocol qos s housed
  | offer topic callback endpoint qos advertised =>
    exact keeps_offer housedAt_blind topic callback endpoint qos advertised s housed
  | conclude topic protocol port advertised insertion =>
    exact keeps_conclude housedAt_blind topic protocol port advertised insertion s housed
  | chores topics => exact keeps_doChores housedAt_blind topics s housed
  | edit e => exact housed.narrow (s.node.table.narrows_edited e) (fun _ => rfl) rfl
  | forgetTopic topic => exact housed_forgetTopic housed topic
  | frame f => exact housed_onFrame housed f
  | arrival d =>
    obtain ⟨finished, chores, invoked, is⟩ := s.node.deliver_eq d
    exact show (s.node.deliver d).lodging.Housed from is ▸ housed
  | occurrence topic peer o => exact lodging_onOccurrence s.node topic peer o ▸ housed
  | sessionEnd session => exact housed_onSessionEnd housed session
  | sessionFailure session reason => exact housed_failSession housed session reason

/-- **The sessions of a node that has been at work are in order.** -/
theorem Reached.housed {n : Node} (reached : n.Reached) : n.lodging.Housed := by
  induction reached with
  | new config => exact ⟨RouteTable.labelled_empty, nofun, nofun⟩
  | step hub network outage d _ ih => exact housed_result (s := ⟨_, hub, network, outage⟩) ih d

end TopicMesh.Node
