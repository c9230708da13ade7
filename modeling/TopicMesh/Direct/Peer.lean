import TopicMesh.Error
import TopicMesh.Session.Basic
import TopicMesh.Signal
import TopicMesh.Wire.FrameStream

/-!
# Direct peers

A **direct peer** is the end of a channel that runs over a connection of its own.
The responder listens on a port while it answers, and names the port in a
candidate; the initiator dials the first candidate that it is given.  Whatever is
to be told about the channel (that it is open, a frame, its end) is an event.

The descriptions of the two ends differ only in who is active.  A peer takes a
description of the right kind that starts like one.
-/

namespace TopicMesh

/-- **One end of a direct channel.** -/
structure DirectPeer where
  role : Role
  /-- The identity in the peer's descriptions. -/
  sessionId : String
  /-- The host in the peer's candidates. -/
  host : String
  /-- The other end's description. -/
  remote : Option String
  /-- The ports that the peer has listened on. -/
  ports : List UInt16
  /-- Whether the peer has been given a place to dial. -/
  dialing : Bool
  /-- The place that the peer dials, until that has come to something. -/
  target : Option (String × UInt16)
  /-- Whether frames can be written. -/
  isOpen : Bool
  /-- Whether the peer was closed from this end. -/
  isShut : Bool
  /-- The events that nobody has taken yet, oldest first. -/
  events : List ChannelEvent
  /-- What was written and has not arrived at the other end yet. -/
  written : Bytes
deriving DecidableEq, Repr, Inhabited

namespace DirectPeer

/-- A peer before its first call. -/
def new (role : Role) (sessionId host : String) : DirectPeer :=
  ⟨role, sessionId, host, none, [], false, none, false, false, [], []⟩

/-- Adds an event. -/
def report (p : DirectPeer) (e : ChannelEvent) : DirectPeer :=
  { p with events := p.events ++ [e] }

/-! ## Descriptions -/

/-- The description of a peer that takes a part in setting up the channel. -/
def description (p : DirectPeer) (part : String) : String :=
  "v=0\r\no=- " ++ p.sessionId ++ " 0 IN IP4 " ++ p.host ++
    "\r\ns=meshsub\r\nt=0 0\r\nm=application 9 TCP meshsub-frames\r\na=setup:" ++ part ++ "\r\n"

/-- Makes an offer. -/
def createOffer (p : DirectPeer) : Except Error String :=
  match p.role with
  | .initiator => .ok (p.description "active")
  | .responder => .error (.protocolViolation "only the initiator creates an offer")

/-- The candidate of a peer that listens on a port. -/
def candidate (p : DirectPeer) (port : UInt16) : Candidate :=
  ⟨0, "0", Candidate.hostLine p.host port⟩

/-- Makes an answer, and listens on a port; `bound` is what listening comes to. -/
def createAnswer (p : DirectPeer) (bound : Except Error UInt16) :
    Except Error (String × DirectPeer) :=
  if p.role = .responder ∧ p.remote.isSome then
    bound.map fun port =>
      (p.description "passive",
        { p with ports := p.ports ++ [port] }.report (.localCandidate (p.candidate port)))
  else .error (.protocolViolation "answer requested without a remote offer")

/-- The kind of description that the other end gives. -/
def expectedKind : Role → DescriptionKind
  | .initiator => .answer
  | .responder => .offer

/-- Takes the other end's description. -/
def applyDescription (p : DirectPeer) (kind : DescriptionKind) (description : String) :
    Except Error DirectPeer :=
  if kind = expectedKind p.role ∧ "v=0".toList.isPrefixOf description.toList then
    .ok { p with remote := some description }
  else .error (.protocolViolation s!"unusable remote {kind.name} description")

/-! ## The channel -/

/-- Takes a candidate.  The initiator dials the first one that names a place; the
responder never dials. -/
def applyCandidate (p : DirectPeer) (c : Candidate) : Except Error DirectPeer :=
  if p.role = .responder ∨ p.dialing then .ok p
  else
    match Candidate.endpointOf c.line with
    | .ok place => .ok { p with dialing := true, target := some place }
    | .error fault => .error fault.toError

/-- The connection is there, unless the peer was closed meanwhile. -/
def opened (p : DirectPeer) : DirectPeer :=
  if p.isShut then { p with target := none }
  else { p with target := none, isOpen := true }.report .opened

/-- The connection could not be made. -/
def notOpened (p : DirectPeer) (reason : String) : DirectPeer :=
  if p.isShut then { p with target := none }
  else { p with target := none }.report (.failed reason)

/-- Reports what was read from the connection; a peer that was closed reports
nothing more. -/
def heard (p : DirectPeer) (read : Wire.FrameRead) : DirectPeer :=
  if p.isShut then p
  else
    match read with
    | .frame f _ => p.report (.frame f)
    | .finished => p.report .closed
    | .failed fault _ => p.report (.failed fault.toError.message)

/-- Writes a frame. -/
def send (p : DirectPeer) (f : Frame) : Except Error DirectPeer :=
  if p.isOpen then
    match Wire.writeFrame f with
    | .ok bytes => .ok { p with written := p.written ++ bytes }
    | .error fault => .error fault.toError
  else .error .sessionClosed

/-- Closes the channel from this end. -/
def close (p : DirectPeer) : DirectPeer :=
  { p with target := none, isOpen := false, isShut := true }

end DirectPeer

end TopicMesh
