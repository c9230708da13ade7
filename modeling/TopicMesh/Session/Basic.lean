import TopicMesh.Message
import TopicMesh.Session.Handshake
import TopicMesh.Signal.Json

/-!
# Sessions

A **session** is one end of a connection between two peers: a handshake, the
signaling stream it talks over and the channel it negotiates.  Stream and channel
are its `Surroundings`: operations on a state of any type `ω`, each of which may
succeed or fail every time.

A session is woken by a `Stimulus`: something on the stream, something of the
channel, a command of its owner, or the deadline of the handshake.  It turns the
stimulus into inputs of its handshake and works through them (`settle`), carrying
out the effects, which may bring further inputs.

* An initiator first **dials**; frames are held meanwhile, and whatever ends the
  session ends it without a word to anybody.
* Frames sent before the session is ready are **held**, the newest of them, and
  go out in order when it becomes ready.
* The session ends once: it closes channel and stream, says why (`closed`) and
  then runs the hook of its owner.

The log keeps what happened, oldest first: what the owner is told and which frames
were handed to the channel.
-/

namespace TopicMesh

/-- What a channel reports by itself. -/
inductive ChannelEvent
  | localCandidate (c : Candidate)
  | opened
  | frame (f : Frame)
  | closed
  | failed (reason : String)
deriving DecidableEq, Repr, Inhabited

/-- **What a session acts on**: its channel and its end of the signaling stream. -/
structure Surroundings (ω : Type) where
  /-- Makes the channel; it is made once, when the stream is there. -/
  openChannel : Role → ω → ω
  createOffer : ω → Except Error String × ω
  createAnswer : ω → Except Error String × ω
  applyDescription : DescriptionKind → String → ω → Except Error Unit × ω
  applyCandidate : Candidate → ω → Except Error Unit × ω
  sendFrame : Frame → ω → Except Error Unit × ω
  closeChannel : ω → ω
  sendSignal : Signal → ω → Except Error Unit × ω
  closeStream : ω → ω

namespace Session

/-- What wakes a session. -/
inductive Stimulus
  /-- The signaling stream is there. -/
  | dialed
  /-- The signaling stream could not be made. -/
  | dialFailed (reason : String)
  /-- A text on the stream. -/
  | text (s : String)
  /-- The other end closed the stream. -/
  | streamEnded
  /-- The stream broke. -/
  | streamFailed (reason : String)
  | channel (e : ChannelEvent)
  /-- A frame is to be sent. -/
  | send (f : Frame)
  /-- The session is to be closed, or nobody holds it any more. -/
  | close
  /-- The time for the handshake is up. -/
  | deadline
deriving DecidableEq, Repr

/-- What happens in the life of a session. -/
inductive Occurrence
  | ready
  | closed (reason : CloseReason)
  /-- The owner's hook ran. -/
  | hook
  /-- A frame came through the channel. -/
  | received (f : Frame)
  /-- A frame was handed to the channel. -/
  | handed (f : Frame)
deriving DecidableEq, Repr

/-- Whether a session dials, runs or has ended. -/
inductive Phase
  | dialing
  | running
  | ended
deriving DecidableEq, Repr, Inhabited

end Session

/-- **One end of a connection between peers.** -/
structure Session (ω : Type) where
  machine : Handshake
  phase : Session.Phase
  /-- The stage that the owner sees. -/
  published : Stage
  /-- The frames that wait for the session to become ready, oldest first. -/
  held : List Frame
  /-- How many frames may wait. -/
  holdLimit : Nat
  /-- The inputs that the handshake has not seen yet, oldest first. -/
  inputs : List Handshake.Input
  /-- The state of channel and stream. -/
  world : ω
  /-- What happened, oldest first. -/
  log : List Session.Occurrence

/-- The bounds of a session. -/
structure SessionLimits where
  /-- Milliseconds until the session has to be ready. -/
  handshakeTimeout : Nat
  /-- How many candidates may wait. -/
  candidates : Nat
  /-- How many frames may be held. -/
  frames : Nat
deriving DecidableEq, Repr, Inhabited

namespace Session

variable {ω : Type}

/-- Adds to the log. -/
def note (s : Session ω) (o : Occurrence) : Session ω :=
  { s with log := s.log ++ [o] }

/-- Adds an input for the handshake. -/
def push (s : Session ω) (i : Handshake.Input) : Session ω :=
  { s with inputs := s.inputs ++ [i] }

/-- Takes over the outcome of an operation; a failure becomes an input. -/
def took {α : Type} (s : Session ω) (outcome : Except Error α × ω) : Session ω :=
  match outcome with
  | (.ok _, w) => { s with world := w }
  | (.error e, w) => { s with world := w }.push (.failed e.message)

/-- Takes over the outcome of a request for a description. -/
def described (s : Session ω) (outcome : Except Error String × ω) : Session ω :=
  match outcome with
  | (.ok description, w) => { s with world := w }.push (.localDescription description)
  | (.error e, w) => { s with world := w }.push (.failed e.message)

/-- Holds a frame; if there is no room, the oldest one goes. -/
def hold (s : Session ω) (f : Frame) : Session ω :=
  { s with held := (if s.holdLimit ≤ s.held.length then s.held.drop 1 else s.held) ++ [f] }

/-- Hands a frame to the channel. -/
def hand (env : Surroundings ω) (s : Session ω) (f : Frame) : Session ω :=
  (s.note (.handed f)).took (env.sendFrame f s.world)

/-- Hands held frames to the channel until one fails. -/
def flush (env : Surroundings ω) : List Frame → Session ω → Session ω
  | [], s => { s with held := [] }
  | f :: rest, s =>
    let s := s.note (.handed f)
    match env.sendFrame f s.world with
    | (.ok _, w) => flush env rest { s with world := w }
    | (.error e, w) => { s with world := w, held := rest }.push (.failed e.message)

/-- The end: the owner sees the session closed and is told why, and the hook runs. -/
def finish (s : Session ω) (reason : CloseReason) : Session ω :=
  ({ s with phase := .ended, published := .closed, held := [] }.note (.closed reason)).note .hook

/-- Carries out one effect of the handshake. -/
def carryOut (env : Surroundings ω) (s : Session ω) : Handshake.Effect → Session ω
  | .send m => s.took (env.sendSignal m s.world)
  | .createOffer => s.described (env.createOffer s.world)
  | .createAnswer => s.described (env.createAnswer s.world)
  | .applyDescription kind description =>
    s.took (env.applyDescription kind description s.world)
  | .applyCandidate c => { s with world := (env.applyCandidate c s.world).2 }
  | .ready => flush env s.held (s.note .ready)
  | .closed reason => { s with world := env.closeStream (env.closeChannel s.world) }.finish reason

/-- Carries out effects in order, until the session is over. -/
def carryOutAll (env : Surroundings ω) : List Handshake.Effect → Session ω → Session ω
  | [], s => s
  | e :: rest, s =>
    match s.phase with
    | .ended => s
    | _ => carryOutAll env rest (s.carryOut env e)

/-- Gives one input to the handshake; a violation is dropped. -/
def process (env : Surroundings ω) (s : Session ω) (i : Handshake.Input) : Session ω :=
  match s.machine.handle i with
  | (m, .error _) => { s with machine := m }
  | (m, .ok effects) => carryOutAll env effects { s with machine := m, published := m.stage }

/-- Works through at most `n` inputs, until none is left or the session is over. -/
def pump (env : Surroundings ω) : (n : Nat) → Session ω → Session ω
  | 0, s => s
  | n + 1, s =>
    match s.phase, s.inputs with
    | .ended, _ => s
    | _, [] => s
    | _, i :: rest => pump env n ({ s with inputs := rest }.process env i)

/-- How many inputs may come of one, itself included: a step's effects bring at
most one failure each, and a description where one is asked for. -/
def weight : Handshake.Input → Nat
  | .signal (.offer _) => 4
  | .streamOpened => 3
  | .signal (.answer _) => 2
  | .localDescription _ => 2
  | .localCandidate _ => 2
  | .channelOpen => 2
  | .timeout => 2
  | .close => 2
  | _ => 1

/-- Works through all inputs. -/
def settle (env : Surroundings ω) (s : Session ω) : Session ω :=
  s.pump env (s.inputs.foldr (fun i n => weight i + n) 0)

/-- Ends a session that is still dialing. -/
def abandon (s : Session ω) (i : Handshake.Input) : Session ω :=
  let (m, effects) := s.machine.feed i
  let reason := effects.findSome? fun
    | .closed reason => some reason
    | _ => none
  { s with machine := m }.finish (reason.getD .requested)

/-- What a stimulus does to a session that dials. -/
def reactDialing (env : Surroundings ω) (s : Session ω) : Stimulus → Session ω
  | .dialed =>
    settle env { s with
      phase := .running
      world := env.openChannel s.machine.role s.world
      inputs := [.streamOpened] }
  | .dialFailed reason => s.abandon (.failed reason)
  | .deadline => s.abandon .timeout
  | .close => s.abandon .close
  | .send f => s.hold f
  | _ => s

/-- What a stimulus does at once to a session that runs. -/
def take (env : Surroundings ω) (s : Session ω) : Stimulus → Session ω
  | .text t =>
    match Signal.ofText? t with
    | some m => s.push (.signal m)
    | none => s
  | .streamEnded => s.push .streamClosed
  | .streamFailed reason => s.push (.failed reason)
  | .channel (.localCandidate c) => s.push (.localCandidate c)
  | .channel .opened => s.push .channelOpen
  | .channel (.frame f) => s.note (.received f)
  | .channel .closed => s.push .channelClosed
  | .channel (.failed reason) => s.push (.failed reason)
  | .send f => if s.machine.stage = .ready then s.hand env f else s.hold f
  | .close => s.push .close
  | .deadline => if s.machine.stage = .ready then s else s.push .timeout
  | _ => s

/-- **What a stimulus does to a session.** -/
def react (env : Surroundings ω) (s : Session ω) (stimulus : Stimulus) : Session ω :=
  match s.phase with
  | .ended => s
  | .dialing => s.reactDialing env stimulus
  | .running => (s.take env stimulus).settle env

/-- A session before its first step. -/
def fresh (role : Role) (limits : SessionLimits) (world : ω) (phase : Phase) : Session ω :=
  let machine := ((Handshake.new role limits.candidates).feed .start).1
  ⟨machine, phase, machine.stage, [], limits.frames, [], world, []⟩

/-- The session of an end that dials. -/
def connect (limits : SessionLimits) (world : ω) : Session ω :=
  fresh .initiator limits world .dialing

/-- The session of an end that was dialed. -/
def accept (env : Surroundings ω) (limits : SessionLimits) (world : ω) : Session ω :=
  let s := fresh .responder limits (env.openChannel .responder world) .running
  (s.push .streamOpened).settle env

/-- The session after some stimuli. -/
def run (env : Surroundings ω) (s : Session ω) (stimuli : List Stimulus) : Session ω :=
  stimuli.foldl (react env) s

/-! ## The owner's view -/

/-- Whether the session has ended. -/
def isClosed (s : Session ω) : Bool :=
  s.published == .closed

/-- The owner sends a frame. -/
def sendFrame (env : Surroundings ω) (s : Session ω) (f : Frame) : Except Error (Session ω) :=
  if s.isClosed then .error .sessionClosed else .ok (s.react env (.send f))

/-- What a wait for readiness comes to, as far as a stage decides it. -/
def waitOutcome? : Stage → Option (Except Error Unit)
  | .ready => some (.ok ())
  | .closed => some (.error .sessionClosed)
  | _ => none

/-- The address of the other end, as sessions name it: colons in a host are told
apart from the one before the port by brackets. -/
def peerName (host : String) (port : UInt16) : String :=
  if host.contains ':' && host.front != '[' then s!"[{host}]:{port}" else s!"{host}:{port}"

end Session

end TopicMesh
