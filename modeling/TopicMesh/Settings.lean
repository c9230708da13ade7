import TopicMesh.Node.Basic
import TopicMesh.Settings.Source

/-!
# Settings

`Settings` are what the owner of a node, or of a broker, may choose.  They come
in sections, and every one of them has a default (`Settings.default`); only the
identity of a node is made anew where none is chosen.  `load?` lays the file over
the defaults and the environment over the file, and fails if any value does not
fit its setting.

`nodeConfig` is what a node takes from the settings.
-/

namespace TopicMesh

/-- The identity of a node. -/
structure NodeSettings where
  id : String
  /-- Where other nodes reach it. -/
  host : String
deriving DecidableEq, Repr, Inhabited

/-- Where a node finds the broker. -/
structure BrokerSettings where
  host : String
  port : Nat
deriving DecidableEq, Repr, Inhabited

/-- How a broker is run. -/
structure ServerSettings where
  host : String
  port : Nat
  /-- Where retained messages are kept. -/
  retainedPath : String
deriving DecidableEq, Repr, Inhabited

/-- How a node takes part in discovery. -/
structure DiscoverySettings where
  topicBase : String
  lastWill : Bool
deriving DecidableEq, Repr, Inhabited

/-- The bounds of peer sessions. -/
structure SignalingSettings where
  /-- In milliseconds. -/
  handshakeTimeout : Nat
  candidateLimit : Nat
  frameLimit : Nat
deriving DecidableEq, Repr, Inhabited

/-- The measures of published pictures. -/
structure MediaSettings where
  frameWidth : Nat
  frameHeight : Nat
deriving DecidableEq, Repr, Inhabited

/-- **What can be chosen.** -/
structure Settings where
  node : NodeSettings
  broker : BrokerSettings
  server : ServerSettings
  discovery : DiscoverySettings
  signaling : SignalingSettings
  media : MediaSettings
deriving DecidableEq, Repr, Inhabited

namespace Settings

/-- The settings of a node with a given identity where nothing is chosen. -/
def default (id : String) : Settings where
  node := ⟨id, "127.0.0.1"⟩
  broker := ⟨"127.0.0.1", 1883⟩
  server := ⟨"0.0.0.0", 1883, "meshsub_retained"⟩
  discovery := ⟨"/meshsub/discovery", true⟩
  signaling := ⟨10000, 32, 64⟩
  media := ⟨640, 480⟩

/-! ## Sections -/

/-- The section on the node. -/
def nodeSection? (old : NodeSettings) (v : Value) : Option NodeSettings := do
  let [id, host] ← v.fields? ["id", "host"] | none
  some ⟨← id.getD Value.text? old.id, ← host.getD Value.text? old.host⟩

/-- The section on the broker. -/
def brokerSection? (old : BrokerSettings) (v : Value) : Option BrokerSettings := do
  let [host, port] ← v.fields? ["host", "port"] | none
  some ⟨← host.getD Value.text? old.host, ← port.getD (Value.natural? UInt16.size) old.port⟩

/-- The section on running a broker. -/
def serverSection? (old : ServerSettings) (v : Value) : Option ServerSettings := do
  let [host, port, retainedPath] ← v.fields? ["host", "port", "retained_path"] | none
  some ⟨← host.getD Value.text? old.host, ← port.getD (Value.natural? UInt16.size) old.port,
    ← retainedPath.getD Value.text? old.retainedPath⟩

/-- The section on discovery. -/
def discoverySection? (old : DiscoverySettings) (v : Value) : Option DiscoverySettings := do
  let [topicBase, lastWill] ← v.fields? ["topic_base", "last_will"] | none
  some ⟨← topicBase.getD Value.text? old.topicBase, ← lastWill.getD Value.truth? old.lastWill⟩

/-- The section on peer sessions. -/
def signalingSection? (old : SignalingSettings) (v : Value) : Option SignalingSettings := do
  let [timeout, candidates, frames] ←
    v.fields? ["handshake_timeout_ms", "candidate_queue_limit", "pending_frame_limit"] | none
  some ⟨← timeout.getD (Value.natural? UInt64.size) old.handshakeTimeout,
    ← candidates.getD (Value.natural? UInt64.size) old.candidateLimit,
    ← frames.getD (Value.natural? UInt64.size) old.frameLimit⟩

/-- The section on pictures. -/
def mediaSection? (old : MediaSettings) (v : Value) : Option MediaSettings := do
  let [width, height] ← v.fields? ["frame_width", "frame_height"] | none
  some ⟨← width.getD (Value.natural? UInt32.size) old.frameWidth,
    ← height.getD (Value.natural? UInt32.size) old.frameHeight⟩

/-- The settings that what is chosen makes of others. -/
def choose? (old : Settings) (v : Value) : Option Settings := do
  let [node, broker, server, discovery, signaling, media] ←
    v.fields? ["node", "broker", "server", "discovery", "signaling", "media"] | none
  some ⟨← nodeSection? old.node node, ← brokerSection? old.broker broker,
    ← serverSection? old.server server, ← discoverySection? old.discovery discovery,
    ← signalingSection? old.signaling signaling, ← mediaSection? old.media media⟩

/-- The settings from a file, if there is one, and an environment; the identity
is used where none is chosen. -/
def load? (id : String) (file : Option String) (environment : List (String × String)) :
    Option Settings := do
  let chosen ← match file with
    | some text => ofFile? text
    | none => some (.group [])
  (Settings.default id).choose? (withVariables chosen environment)

/-! ## What follows -/

/-- The bounds of a session. -/
def sessionLimits (s : Settings) : SessionLimits :=
  ⟨s.signaling.handshakeTimeout, s.signaling.candidateLimit, s.signaling.frameLimit⟩

/-- The configuration of a node with the given transports. -/
def nodeConfig (s : Settings) (transports : List Protocol) : NodeConfig where
  discovery := .new s.node.id s.node.host s.discovery.topicBase s.discovery.lastWill
  session := s.sessionLimits
  frameWidth := UInt32.ofNat s.media.frameWidth
  frameHeight := UInt32.ofNat s.media.frameHeight
  transports := transports

/-- The settings as the members of a settings file. -/
def toMembers (s : Settings) : List (String × Json) :=
  [("node", .record [("id", .text s.node.id), ("host", .text s.node.host)]),
    ("broker", .record [("host", .text s.broker.host), ("port", .integer s.broker.port)]),
    ("server", .record [("host", .text s.server.host), ("port", .integer s.server.port),
      ("retained_path", .text s.server.retainedPath)]),
    ("discovery", .record [("topic_base", .text s.discovery.topicBase),
      ("last_will", .bool s.discovery.lastWill)]),
    ("signaling", .record [("handshake_timeout_ms", .integer s.signaling.handshakeTimeout),
      ("candidate_queue_limit", .integer s.signaling.candidateLimit),
      ("pending_frame_limit", .integer s.signaling.frameLimit)]),
    ("media", .record [("frame_width", .integer s.media.frameWidth),
      ("frame_height", .integer s.media.frameHeight)])]

end Settings

end TopicMesh
