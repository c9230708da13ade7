/-!
# Errors

`Error` is what a call of the mesh can fail with.  A constructor says how the
failure is to be handled, and `kind` names it; `message` is the wording that
callers and events show.
-/

namespace TopicMesh

/-- What a call can fail with. -/
inductive Error
  /-- The caller asked for something that cannot be done; nothing has happened. -/
  | invalidArgument (reason : String)
  /-- Nobody is known to serve the topic. -/
  | routeNotFound (topic : String)
  /-- An announcement that cannot be used. -/
  | malformedAnnouncement (reason : String)
  /-- A step that the signaling protocol does not allow. -/
  | protocolViolation (reason : String)
  /-- A transport did not do what it was asked. -/
  | transportFailure (reason : String)
  /-- A session did not become ready in the given number of milliseconds. -/
  | handshakeTimeout (limit : Nat)
  /-- The session has ended. -/
  | sessionClosed
  /-- There is no link to the control broker. -/
  | notConnected
  /-- A value that has no encoding. -/
  | encode (reason : String)
  /-- Bytes or text that do not decode. -/
  | decode (reason : String)
  /-- The store of retained messages failed. -/
  | store (reason : String)
  /-- The signaling or control stream failed. -/
  | webSocket (reason : String)
  /-- Reading or writing failed. -/
  | io (reason : String)
deriving DecidableEq, Repr, Inhabited

/-- The name of an error's kind. -/
def Error.kind : Error → String
  | invalidArgument _ => "InvalidArgument"
  | routeNotFound _ => "RouteNotFound"
  | malformedAnnouncement _ => "MalformedAnnouncement"
  | protocolViolation _ => "SignalingProtocolViolation"
  | transportFailure _ => "TransportFailure"
  | handshakeTimeout _ => "HandshakeTimeout"
  | sessionClosed => "SessionClosed"
  | notConnected => "NotConnected"
  | encode _ => "Encode"
  | decode _ => "Decode"
  | store _ => "Store"
  | webSocket _ => "WebSocket"
  | io _ => "Io"

/-- The wording of an error. -/
def Error.message : Error → String
  | invalidArgument reason => "invalid argument: " ++ reason
  | routeNotFound topic => "no route for topic: " ++ topic
  | malformedAnnouncement reason => "malformed announcement: " ++ reason
  | protocolViolation reason => "signaling protocol violation: " ++ reason
  | transportFailure reason => "transport failure: " ++ reason
  | handshakeTimeout limit => s!"handshake did not complete within {limit} ms"
  | sessionClosed => "session is closed"
  | notConnected => "control channel is not connected"
  | encode reason => "encode error: " ++ reason
  | decode reason => "decode error: " ++ reason
  | store reason => "retained store error: " ++ reason
  | webSocket reason => "websocket error: " ++ reason
  | io reason => "io error: " ++ reason

end TopicMesh
