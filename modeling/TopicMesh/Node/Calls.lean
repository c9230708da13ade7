import TopicMesh.Node.Station

/-!
# The calls of a node

What a node's owner can ask for.

* `connect` joins the mesh, or rejoins it after the line was lost: the broker
  learns the node's subscriptions again and the others what it serves.
* `disconnect` ends every subscription, announces the departure and takes leave.
* `subscribe` opens an endpoint for a topic and advertises it; who comes second
  only adds a callback.  It goes in steps (`findRecord`, `openEndpoint`, `offer`,
  `conclude`), between which other calls may run.
* `publish` sends a payload to everybody who serves the topic by one of the wanted
  protocols.  Whatever fails on the way is reported, and the rest goes on.
* `request` publishes a message that asks for answers, and `reply` answers one.
-/

namespace TopicMesh

namespace Node

open Act

/-! ## Discovery -/

/-- Announces what the node serves. -/
def announce : Act Unit := do
  let n ← node
  let m ← encoded (n.config.discovery.announce (n.discovery.own n.config.discovery))
  post m

/-- Listens to announcements, and announces what the node serves if it serves
anything. -/
def startDiscovery : Act Unit := do
  let n ← node
  subscribeFilter n.config.discovery.filter .atLeastOnce
  if n.discovery.advertised.isEmpty then pure () else announce

/-- Serves a topic, and announces it. -/
def advertise (topic : String) (c : Capability) : Act Unit := do
  changeNode fun n =>
    { n with discovery := { n.discovery with advertised := n.discovery.advertised.insert topic c } }
  announce

/-- Serves a topic no longer, and announces that if it was served. -/
def withdraw (topic : String) : Act Unit := do
  let n ← node
  if n.discovery.advertised.contains topic then
    changeNode fun n =>
      { n with discovery := { n.discovery with advertised := n.discovery.advertised.erase topic } }
    announce
  else pure ()

/-- Serves nothing any more, and announces the departure. -/
def announceDeparture : Act Unit := do
  changeNode fun n => { n with discovery := { n.discovery with advertised := .empty } }
  let n ← node
  let m ← encoded n.config.discovery.departure
  post m

/-! ## Endpoints -/

/-- Closes an endpoint of a topic. -/
def teardown (topic : String) : Endpoint → Act Unit
  | .broker => do
    if ← isConnected then attempt (unsubscribeFilter topic) else pure ()
  | .direct protocol port => do
    let n ← node
    if protocol ∈ n.config.transports then unlisten protocol port else pure ()
  | .peer port => unlisten .peerRtc port

/-- Opens an endpoint for a topic. -/
def openEndpoint (topic : String) (protocol : Protocol) (qos : QoS) : Act Endpoint :=
  match protocol with
  | .broker => do
    subscribeFilter topic qos
    pure .broker
  | .peerRtc => do
    let port ← listen .peerRtc topic
    pure (.peer port)
  | protocol => do
    let n ← node
    if protocol ∈ n.config.transports then
      let port ← listen protocol topic
      pure (.direct protocol port)
    else throw (.invalidArgument s!"no transport registered for {protocol.name}")

/-! ## Subscribing -/

/-- First step: lets the callback join the topic's record.  Whether there is one;
if not, the line has to be connected. -/
def findRecord (topic : String) (callback : Callback) : Act Bool := do
  let n ← node
  match n.subscriptions.join topic callback with
  | (subscriptions, some _) =>
    changeNode fun n => { n with subscriptions := subscriptions }
    pure true
  | (_, none) =>
    if ← isConnected then pure false else throw .notConnected

/-- Third step, after the endpoint was opened: offers a record for the topic. -/
def offer (topic : String) (callback : Callback) (endpoint : Endpoint) (qos : QoS)
    (advertised : Bool) : Act Insertion := do
  let n ← node
  let record := ⟨[callback], endpoint, qos, advertised⟩
  let (subscriptions, insertion) := n.subscriptions.insert topic record
  changeNode fun n => { n with subscriptions := subscriptions }
  pure insertion

/-- Takes the record of a topic out. -/
def removeRecord (topic : String) : Act (Option (Subscription Callback)) := do
  let n ← node
  let (subscriptions, record) := n.subscriptions.remove topic
  changeNode fun n => { n with subscriptions := subscriptions }
  pure record

/-- Undoes a subscription whose announcement failed. -/
def undo (topic : String) (e : Error) : Act Unit := do
  match ← removeRecord topic with
  | some record => teardown topic record.endpoint
  | none => pure ()
  throw e

/-- Last step: closes an endpoint that was not needed, or advertises the topic. -/
def conclude (topic : String) (protocol : Protocol) (port : UInt16) (advertised : Bool) :
    Insertion → Act Unit
  | .merged unused => teardown topic unused
  | .inserted =>
    if advertised then fun s =>
      match advertise topic ⟨protocol, port⟩ s with
      | .ok _ s => .ok () s
      | .error e s => undo topic e s
    else pure ()

/-- Subscribes a topic over a protocol. -/
def subscribeWith (topic : String) (callback : Callback) (protocol : Protocol) (qos : QoS)
    (advertised : Bool) : Act Unit := do
  if ← findRecord topic callback then pure ()
  else
    let endpoint ← openEndpoint topic protocol qos
    let insertion ← offer topic callback endpoint qos advertised
    conclude topic protocol endpoint.port advertised insertion

/-- Refuses an empty topic. -/
def checkTopic (topic : String) : Act Unit :=
  if topic = "" then throw (.invalidArgument "empty topic") else pure ()

/-- Refuses an empty set of protocols. -/
def checkProtocols (protocols : ProtocolSet) : Act Unit :=
  if protocols.isEmpty then throw (.invalidArgument "empty protocol set") else pure ()

/-- The order in which a subscription picks its protocol. -/
def preference : List Protocol :=
  [.peerRtc, .stream, .datagram, .broker]

/-- Whether a topic is not for subscribers. -/
def isReserved (c : DiscoveryConfig) (topic : String) : Bool :=
  isReservedKey topic || c.isDiscoveryTopic topic

/-- **Subscribes a topic.** -/
def subscribe (topic : String) (callback : Callback) (protocols : ProtocolSet) (qos : QoS) :
    Act Unit := do
  checkTopic topic
  checkProtocols protocols
  let n ← node
  if isReserved n.config.discovery topic then
    throw (.invalidArgument s!"'{topic}' is reserved for discovery")
  else
    match preference.find? protocols.contains with
    | none => throw (.invalidArgument "no transport serves the requested protocols")
    | some protocol => subscribeWith topic callback protocol qos true

/-- Ends the subscription of a topic. -/
def endSubscription (topic : String) : Act Unit := do
  match ← removeRecord topic with
  | none => pure ()
  | some record =>
    teardown topic record.endpoint
    if record.advertised then withdraw topic else pure ()

/-- **Ends the subscription of a topic**, with all its callbacks. -/
def unsubscribe (topic : String) : Act Unit := do
  checkTopic topic
  endSubscription topic

/-! ## Publishing -/

/-- Publishes through the broker, if one of the routes leads there. -/
def publishBroker (topic : String) (payload : Bytes) (routes : List (RouteEntry Nat)) (qos : QoS)
    (retain : Bool) : Act Unit :=
  if routes.any fun r => r.protocol == .broker then
    orReport (post (.plain topic payload qos retain)) fun e =>
      .transportFailure topic "broker" .broker e.message
  else pure ()

/-- Sends a payload along one route. -/
def sendAlong (topic : String) (payload : Bytes) (r : RouteEntry Nat) : Act Unit :=
  orReport (send r.protocol r.host r.port topic payload) fun e =>
    .transportFailure topic s!"{r.host}:{r.port}" r.protocol e.message

/-- Sends a payload along the direct routes of the wanted protocols. -/
def publishDirect (topic : String) (payload : Bytes) (protocols : ProtocolSet) :
    List (RouteEntry Nat) → Act Unit
  | [] => pure ()
  | r :: rest => do
    let n ← node
    if r.protocol ≠ .broker ∧ protocols.contains r.protocol ∧ r.protocol ∈ n.config.transports then
      sendAlong topic payload r
    publishDirect topic payload protocols rest

/-- The kind and measures of the frames on a topic: answers are messages, anything
else is pictures. -/
def frameShape (c : NodeConfig) (topic : String) : FrameShape :=
  if isReplyTopic topic then ⟨.message, 0, 0⟩ else ⟨.video, c.frameWidth, c.frameHeight⟩

/-- The session of a route: the one it holds, or a new one. -/
def sessionFor (topic : String) (r : RouteEntry Nat) : Act (Option Nat) := do
  let n ← node
  match n.table.sessionOrInsert n.hasClosed topic r.host r.port n.nextSession with
  | (_, none) => pure none
  | (table, some (session, isNew)) =>
    if isNew then
      changeNode fun n =>
        { n with
          table := table
          nextSession := n.nextSession + 1
          sessions := n.sessions.insert session ⟨topic, r.host, r.port, [], false, false⟩ }
    pure (some session)

/-- Gives a frame to a session, unless it has ended. -/
def give (session : Nat) (f : Frame) : Act Unit :=
  changeNode fun n =>
    if n.hasClosed session then n
    else
      { n with sessions := n.sessions.modify session fun s => { s with frames := s.frames ++ [f] } }

/-- Sends a payload along the peer routes. -/
def publishPeers (topic : String) (payload : Bytes) : List (RouteEntry Nat) → Act Unit
  | [] => pure ()
  | r :: rest => do
    if r.protocol = .peerRtc then
      match ← sessionFor topic r with
      | some session => give session ⟨frameShape (← node).config topic, payload⟩
      | none => pure ()
    publishPeers topic payload rest

/-- **Publishes a payload** to everybody who serves the topic by one of the wanted
protocols. -/
def publish (topic : String) (payload : Bytes) (protocols : ProtocolSet) (qos : QoS)
    (retain : Bool) : Act Unit := do
  checkTopic topic
  checkProtocols protocols
  let n ← node
  let routes := n.table.lookup topic
  let (direct, oriented) := protocols.split
  if direct.contains .broker then publishBroker topic payload routes qos retain
  publishDirect topic payload direct routes
  if oriented.contains .peerRtc then publishPeers topic payload routes

/-! ## Requests -/

/-- The topic for the answers to a request. -/
def replyTopic (topic id : String) (request : Nat) : String :=
  topic ++ replyMark ++ id ++ "-" ++ toString request

/-- The next number for a request. -/
def takeRequest : Act Nat := do
  let n ← node
  changeNode fun n => { n with nextRequest := n.nextRequest + 1 }
  pure n.nextRequest

/-- **Asks for answers**, which go to the callback until the last one has come. -/
def request (topic : String) (payload : Bytes) (qos : QoS) (correlation : Option String)
    (callback : String) : Act Unit := do
  checkTopic topic
  let number ← takeRequest
  let answers := replyTopic topic (← node).id number
  subscribeWith answers ⟨callback, some number⟩ .broker qos false
  let m := { Message.plain topic payload qos false with
    reply := some ⟨answers, correlation, 0, false⟩ }
  fun s =>
    match post m s with
    | .ok _ s => .ok () s
    | .error e s =>
      match endSubscription answers s with
      | .ok _ s => .error e s
      | .error e s => .error e s

/-- The next number of an answer on a topic. -/
def takeSequence (topic : String) (isLast : Bool) : Act UInt32 := do
  let n ← node
  let sequence := (n.replySequences.get? topic).getD 0
  changeNode fun n =>
    { n with
      replySequences :=
        if isLast then n.replySequences.erase topic
        else n.replySequences.insert topic (sequence + 1) }
  pure sequence

/-- **Answers a request** that a callback was handed. -/
def reply (d : Delivery) (payload : Bytes) (isLast : Bool) : Act Unit := do
  match d.replyTopic with
  | none => throw (.invalidArgument "message does not expect a reply")
  | some topic =>
    let sequence ← takeSequence topic isLast
    post { Message.plain topic payload d.qos false with
      reply := some ⟨topic, d.correlation, sequence, isLast⟩ }

/-! ## Joining and leaving -/

/-- Subscribes topics at the broker again. -/
def renew : List (String × QoS) → Act Unit
  | [] => pure ()
  | (topic, qos) :: rest => do
    subscribeFilter topic qos
    renew rest

/-- Sets the will that goes with the next greeting. -/
def setWill : Act Unit := do
  let n ← node
  let will ← encoded n.config.discovery.will
  changeNode fun n => { n with line := { n.line with will := will } }

/-- **Joins the mesh**, or rejoins it. -/
def connect : Act Unit := do
  setWill
  attach
  renew (← node).subscriptions.brokerTopics
  startDiscovery

/-- Closes the endpoints of some records. -/
def teardownAll : List (String × Subscription Callback) → Act Unit
  | [] => pure ()
  | (topic, record) :: rest => do
    teardown topic record.endpoint
    teardownAll rest

/-- Ends every subscription. -/
def endAll : Act Unit := do
  let n ← node
  let (subscriptions, records) := n.subscriptions.drain
  changeNode fun n => { n with subscriptions := subscriptions }
  teardownAll records

/-- Forgets all routes and closes their sessions. -/
def forgetRoutes : Act Unit :=
  changeNode fun n =>
    let (table, sessions) := n.table.clear
    { n with table := table }.closeSessions sessions

/-- **Leaves the mesh.** -/
def disconnect : Act Unit := do
  endAll
  changeNode fun n => { n with replySequences := .empty }
  if ← isConnected then attempt announceDeparture
  detach
  forgetRoutes

/-- Loses the line, as in a crash. -/
def abort : Act Unit :=
  modify fun s =>
    let (line, hub, lost) := s.node.line.abort s.hub
    let n := { s.node with line := line }
    { s with node := if lost then n.emit (.controlLost Line.abortReason) else n, hub := hub }

/-- Drops the subscriptions whose last answer has come. -/
def doChores : List String → Act Unit
  | [] => pure ()
  | topic :: rest => do
    attempt (endSubscription topic)
    doChores rest

end Node

end TopicMesh
