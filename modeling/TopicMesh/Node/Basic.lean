import TopicMesh.Discovery
import TopicMesh.Line
import TopicMesh.Session.Basic
import TopicMesh.Subscriptions

/-!
# Nodes

A **node** publishes and subscribes for its owner.  It has a line to the broker,
knows which hosts serve which topics (its route table), takes part in discovery,
and remembers who has subscribed what.

Callbacks are known by name.  The callback of a request is one of its own, for
that request alone, and falls silent after the last answer.

What happens in the background is reported as events, and every call of a
callback is noted, in order.
-/

namespace TopicMesh

/-- A callback. -/
structure Callback where
  name : String
  /-- The number of the request whose answers it takes. -/
  request : Option Nat
deriving DecidableEq, Repr, Inhabited

/-- The bounds and measures of a node, and what it can send with. -/
structure NodeConfig where
  discovery : DiscoveryConfig
  session : SessionLimits
  /-- The width of published pictures. -/
  frameWidth : UInt32
  /-- The height of published pictures. -/
  frameHeight : UInt32
  /-- The direct protocols that the node has a transport for. -/
  transports : List Protocol
deriving DecidableEq, Repr, Inhabited

/-- What a node reports about work in the background. -/
inductive NodeEvent
  | sessionReady (topic peer : String)
  | sessionClosed (topic peer : String) (reason : CloseReason)
  /-- A session failed or was not ready in time. -/
  | connectionFailure (topic peer reason : String)
  | transportFailure (topic peer : String) (protocol : Protocol) (reason : String)
  /-- The line to the broker was lost. -/
  | controlLost (reason : String)
deriving DecidableEq, Repr

/-- A peer session as its node sees it. -/
structure PeerSession where
  topic : String
  host : String
  port : UInt16
  /-- The frames given to the session, oldest first. -/
  frames : List Frame
  /-- Whether the node wants it closed. -/
  closing : Bool
  /-- Whether it has ended. -/
  closed : Bool
deriving DecidableEq, Repr, Inhabited

/-- The address of a session's other end. -/
def PeerSession.peer (s : PeerSession) : String :=
  Session.peerName s.host s.port

/-- **A node.** -/
structure Node where
  config : NodeConfig
  line : Line
  table : RouteTable Nat
  discovery : Discovery
  subscriptions : Subscriptions Callback
  /-- The number of the next request. -/
  nextRequest : Nat
  /-- The requests whose last answer has come. -/
  finished : List Nat
  /-- The topics to unsubscribe because the last answer has come. -/
  chores : List String
  /-- For each topic of answers the number of the next one. -/
  replySequences : KeyMap String UInt32
  /-- The sessions that the node has opened, by number. -/
  sessions : KeyMap Nat PeerSession
  nextSession : Nat
  /-- What was reported, oldest first. -/
  events : List NodeEvent
  /-- The callbacks called, oldest first, each with what it was handed. -/
  invoked : List (String × Delivery)

namespace Node

/-- A node before its first call. -/
def new (config : NodeConfig) : Node where
  config := config
  line := .new config.discovery.nodeId
  table := .empty
  discovery := .empty
  subscriptions := .empty
  nextRequest := 0
  finished := []
  chores := []
  replySequences := .empty
  sessions := .empty
  nextSession := 0
  events := []
  invoked := []

instance : Inhabited Node := ⟨new default⟩

/-- The name by which the broker knows the node. -/
def id (n : Node) : String :=
  n.config.discovery.nodeId

/-- Reports an event. -/
def emit (n : Node) (e : NodeEvent) : Node :=
  { n with events := n.events ++ [e] }

/-! ## Sessions -/

/-- Whether a session has ended. -/
def hasClosed (n : Node) (session : Nat) : Bool :=
  match n.sessions.get? session with
  | some s => s.closed
  | none => true

/-- Asks some sessions to close. -/
def closeSessions (n : Node) (sessions : List Nat) : Node :=
  { n with
    sessions := sessions.foldl (fun known s => known.modify s fun p => { p with closing := true })
      n.sessions }

/-- Forgets the routes of a topic and closes their sessions. -/
def forgetTopic (n : Node) (topic : String) : Node :=
  let (table, sessions) := n.table.forgetTopic topic
  { n with table := table }.closeSessions sessions

/-! ## What reaches the node -/

/-- Calls one callback.  That of a request is silent after the last answer, and
the last answer ends its subscription. -/
def invoke (n : Node) (callback : Callback) (d : Delivery) : Node :=
  let called := { n with invoked := n.invoked ++ [(callback.name, d)] }
  match callback.request with
  | none => called
  | some request =>
    if request ∈ n.finished then n
    else if d.isLast then
      { called with finished := request :: n.finished, chores := n.chores ++ [d.topic] }
    else called

/-- Hands a delivery to the callbacks of its topic, in order. -/
def deliver (n : Node) (d : Delivery) : Node :=
  (n.subscriptions.callbacks d.topic).foldl (fun n callback => n.invoke callback d) n

/-- Takes in a payload on an announcement topic, and closes the sessions that it
displaces. -/
def handleAnnouncement (n : Node) (topic : String) (payload : Bytes) :
    Except Announcement.DecodeFault Node :=
  (n.discovery.handle n.config.discovery n.table topic payload).map
    fun (discovery, table, displaced) =>
      { n with discovery := discovery, table := table }.closeSessions displaced

/-- Takes in a payload on an announcement topic, if it is good. -/
def hear (n : Node) (topic : String) (payload : Bytes) : Node :=
  match n.handleAnnouncement topic payload with
  | .ok n => n
  | .error _ => n

/-- What a message from the broker does: announcements go to discovery, anything
else to the callbacks. -/
def onMessage (n : Node) (m : Message) : Node :=
  if n.config.discovery.isDiscoveryTopic m.topic then n.hear m.topic m.payload
  else n.deliver (.ofMessage m)

/-- What a frame from the broker does. -/
def onFrame (n : Node) : ServerFrame → Node
  | .deliver m => n.onMessage m
  | _ => n

/-- The wording of a session's failure. -/
def failureText (limits : SessionLimits) : CloseReason → String
  | .timeout => (Error.handshakeTimeout limits.handshakeTimeout).message
  | .failed reason => reason
  | _ => ""

/-- What happens in the life of a session on a topic, as the node takes it. -/
def onOccurrence (n : Node) (topic peer : String) : Session.Occurrence → Node
  | .ready => n.emit (.sessionReady topic peer)
  | .closed reason =>
    if reason.isFailure then
      n.emit (.connectionFailure topic peer (failureText n.config.session reason))
    else n.emit (.sessionClosed topic peer reason)
  | .received f => n.deliver (.ofFrame topic f)
  | _ => n

/-- A session that the node opened has ended: it is taken off its route. -/
def onSessionEnd (n : Node) (session : Nat) : Node :=
  match n.sessions.get? session with
  | none => n
  | some s =>
    { n with
      sessions := n.sessions.insert session { s with closed := true }
      table := (n.table.detach s.topic s.host s.port session).1 }

/-- A session that the node opened fails, unless it has ended. -/
def failSession (n : Node) (session : Nat) (reason : String) : Node :=
  match n.sessions.get? session with
  | none => n
  | some s =>
    if s.closed then n
    else (n.onOccurrence s.topic s.peer (.closed (.failed reason))).onSessionEnd session

end Node

end TopicMesh
