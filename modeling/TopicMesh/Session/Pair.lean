import TopicMesh.Direct.Peer
import TopicMesh.Session.Basic

/-!
# Two sessions joined

A `SessionPair` is an initiator and a responder whose signaling streams are joined:
what one end sends, the other receives in the same order, and nothing is lost.
Their channels are direct peers, and the responder's port can be reached.

The pair goes on by `Move`s.  Each of them is one thing that happens at one end: a
signal arrives, the channel reports an event, the connection is made or accepted,
something is read from it, or the owner or the clock wakes the session.
`enabled` lists the moves that are due by themselves; a pair with none of them is
at rest.
-/

namespace TopicMesh

/-- What travels on a signaling stream. -/
inductive StreamItem
  | text (s : String)
  /-- The end of the stream. -/
  | ended
deriving DecidableEq, Repr, Inhabited

/-- What one of two joined sessions acts on. -/
structure JoinedEnd where
  peer : DirectPeer
  /-- The port that the peer listens on when it answers. -/
  port : UInt16
  /-- What is on its way to the other end, oldest first. -/
  outgoing : List StreamItem
deriving DecidableEq, Repr, Inhabited

namespace JoinedEnd

/-- An end before its session begins. -/
def new (role : Role) (sessionId host : String) (port : UInt16) : JoinedEnd :=
  ⟨.new role sessionId host, port, []⟩

/-- Takes over a peer. -/
def took (w : JoinedEnd) : Except Error DirectPeer → Except Error Unit × JoinedEnd
  | .ok peer => (.ok (), { w with peer })
  | .error e => (.error e, w)

/-- The operations of an end. -/
def surroundings : Surroundings JoinedEnd where
  openChannel role w := { w with peer := .new role w.peer.sessionId w.peer.host }
  createOffer w := (w.peer.createOffer, w)
  createAnswer w :=
    match w.peer.createAnswer (.ok w.port) with
    | .ok (description, peer) => (.ok description, { w with peer })
    | .error e => (.error e, w)
  applyDescription kind description w := w.took (w.peer.applyDescription kind description)
  applyCandidate c w := w.took (w.peer.applyCandidate c)
  sendFrame f w := w.took (w.peer.send f)
  closeChannel w := { w with peer := w.peer.close }
  sendSignal s w := (.ok (), { w with outgoing := w.outgoing ++ [.text s.toText] })
  closeStream w := { w with outgoing := w.outgoing ++ [.ended] }

end JoinedEnd

/-- **Two joined sessions.** -/
structure SessionPair where
  initiator : Session JoinedEnd
  responder : Session JoinedEnd
  /-- Whether the initiator's connection waits to be accepted. -/
  knocking : Bool
  /-- Whether each end has read the end of the connection. -/
  drained : Role → Bool

namespace SessionPair

/-- Two sessions that begin, with the bounds of either, the identities and hosts that
they name and the port of the responder. -/
def begin (ofInitiator ofResponder : SessionLimits) (sessionId remoteId host remoteHost : String)
    (port : UInt16) : SessionPair where
  initiator := .connect ofInitiator (.new .initiator sessionId host 0)
  responder := .accept JoinedEnd.surroundings ofResponder (.new .responder remoteId remoteHost port)
  knocking := false
  drained _ := false

/-- The session of an end. -/
def session (p : SessionPair) : Role → Session JoinedEnd
  | .initiator => p.initiator
  | .responder => p.responder

/-- Changes the session of an end. -/
def change (p : SessionPair) (role : Role) (f : Session JoinedEnd → Session JoinedEnd) :
    SessionPair :=
  match role with
  | .initiator => { p with initiator := f p.initiator }
  | .responder => { p with responder := f p.responder }

/-- The other end. -/
def other : Role → Role
  | .initiator => .responder
  | .responder => .initiator

/-- What happens to a pair. -/
inductive Move
  /-- The initiator's stream is there. -/
  | dialed
  /-- The oldest item on the stream to an end arrives. -/
  | arrive (role : Role)
  /-- The channel of an end reports its oldest event. -/
  | report (role : Role)
  /-- The initiator's connection reaches the port, or finds nobody there. -/
  | knock
  /-- The responder accepts the connection. -/
  | letIn
  /-- An end reads from the connection. -/
  | read (role : Role)
  /-- The owner of an end, or its clock, wakes it. -/
  | wake (role : Role) (stimulus : Session.Stimulus)
deriving DecidableEq, Repr

/-- Wakes the session of an end. -/
def wake (p : SessionPair) (role : Role) (stimulus : Session.Stimulus) : SessionPair :=
  p.change role fun s => s.react JoinedEnd.surroundings stimulus

/-- Changes what the session of an end acts on. -/
def touch (p : SessionPair) (role : Role) (f : JoinedEnd → JoinedEnd) : SessionPair :=
  p.change role fun s => { s with world := f s.world }

/-- Changes the channel of an end. -/
def touchPeer (p : SessionPair) (role : Role) (f : DirectPeer → DirectPeer) : SessionPair :=
  p.touch role fun w => { w with peer := f w.peer }

/-- The channel of an end. -/
def peer (p : SessionPair) (role : Role) : DirectPeer :=
  (p.session role).world.peer

/-- Whether the responder listens on a port. -/
def isListening (p : SessionPair) (port : UInt16) : Bool :=
  (p.peer .responder).ports.contains port && !(p.peer .responder).isShut

/-- Whether a connection waits for a responder that can accept it. -/
def canLetIn (p : SessionPair) : Bool :=
  p.knocking && !(p.peer .responder).isShut

/-- How a refused connection is worded. -/
def refusal : String := "connection refused"

/-- What there is to read at an end: a frame, or the end that the other end made. -/
def readable? (p : SessionPair) (role : Role) : Option Wire.FrameRead :=
  let sender := p.peer (other role)
  let reader := p.peer role
  if reader.isOpen && !p.drained role then
    match Wire.readFrame sender.written with
    | .finished => if sender.isShut then some .finished else none
    | found => some found
  else none

/-- What is left to read after a read. -/
def restOf : Wire.FrameRead → Bytes
  | .frame _ rest => rest
  | .finished => []
  | .failed _ rest => rest

/-- The pair after a move; a move that is not due changes nothing. -/
def move (p : SessionPair) : Move → SessionPair
  | .dialed => p.wake .initiator .dialed
  | .arrive role =>
    match (p.session (other role)).world.outgoing with
    | [] => p
    | item :: rest =>
      let p := p.touch (other role) fun w => { w with outgoing := rest }
      p.wake role (match item with
        | .text s => .text s
        | .ended => .streamEnded)
  | .report role =>
    match (p.peer role).events with
    | [] => p
    | event :: rest =>
      (p.touchPeer role fun peer => { peer with events := rest }).wake role (.channel event)
  | .knock =>
    match (p.peer .initiator).target with
    | none => p
    | some (_, port) =>
      if p.isListening port then { p.touchPeer .initiator DirectPeer.opened with knocking := true }
      else p.touchPeer .initiator fun peer => peer.notOpened refusal
  | .letIn =>
    if p.canLetIn then { p.touchPeer .responder DirectPeer.opened with knocking := false } else p
  | .read role =>
    match p.readable? role with
    | none => p
    | some found =>
      let p := p.touchPeer (other role) fun peer => { peer with written := restOf found }
      let p := p.touchPeer role fun peer => peer.heard found
      match found with
      | .frame _ _ => p
      | _ => { p with drained := fun r => r == role || p.drained r }
  | .wake role stimulus => p.wake role stimulus

/-- The moves that are due by themselves. -/
def enabled (p : SessionPair) : List Move :=
  (if p.initiator.phase = .dialing then [Move.dialed] else []) ++
    [Role.initiator, .responder].flatMap (fun role =>
      (if (p.session (other role)).world.outgoing.isEmpty then [] else [Move.arrive role]) ++
        (if (p.peer role).events.isEmpty then [] else [Move.report role]) ++
        (if (p.readable? role).isSome then [Move.read role] else [])) ++
    (if (p.peer .initiator).target.isSome then [Move.knock] else []) ++
    (if p.canLetIn then [Move.letIn] else [])

/-- Whether nothing is due. -/
def isAtRest (p : SessionPair) : Bool :=
  p.enabled.isEmpty

/-- The pair after some moves. -/
def run (p : SessionPair) (moves : List Move) : SessionPair :=
  moves.foldl move p

end SessionPair

end TopicMesh
