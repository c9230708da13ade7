import TopicMesh.Signal

/-!
# The handshake

Before frames can flow, the two ends of a session exchange descriptions of the
channel: the **initiator** offers, the **responder** answers, and either names
candidates for the channel's address.  A `Handshake` is one end of that
conversation.  It does nothing itself: `handle` takes one input to the next machine
and the **effects** that are to be carried out, in order.

An input that the protocol does not allow where it arrives is a `Violation` and
changes nothing.  An input that ends the conversation makes the effect `closed`,
after a farewell if the stream is open and the other end does not know yet.

Candidates that arrive before the descriptions are exchanged wait, at most
`limit` of them, and are applied in the order of their arrival.
-/

namespace TopicMesh

/-- The two ends of a session. -/
inductive Role
  | initiator
  | responder
deriving DecidableEq, Repr, Inhabited

/-- The name of a role. -/
def Role.name : Role → String
  | initiator => "Initiator"
  | responder => "Responder"

/-- How far a session has come. -/
inductive Stage
  | idle
  | connecting
  /-- The initiator waits for the answer. -/
  | offerSent
  /-- The responder waits for the offer, or for its own answer. -/
  | awaitingOffer
  /-- Both descriptions are known; the channel is not open yet. -/
  | answerExchanged
  /-- The channel is open. -/
  | ready
  | closed
deriving DecidableEq, Repr, Inhabited

namespace Stage

/-- The name of a stage. -/
def name : Stage → String
  | idle => "IDLE"
  | connecting => "CONNECTING"
  | offerSent => "OFFER_SENT"
  | awaitingOffer => "AWAITING_OFFER"
  | answerExchanged => "ANSWER_EXCHANGED"
  | ready => "READY"
  | closed => "CLOSED"

/-- The place of a stage on the way of a session. -/
def rank : Stage → Nat
  | idle => 0
  | connecting => 1
  | offerSent => 2
  | awaitingOffer => 2
  | answerExchanged => 3
  | ready => 4
  | closed => 5

end Stage

/-- The two kinds of description. -/
inductive DescriptionKind
  | offer
  | answer
deriving DecidableEq, Repr, Inhabited

/-- The name of a kind of description. -/
def DescriptionKind.name : DescriptionKind → String
  | offer => "Offer"
  | answer => "Answer"

/-- Why a session ends. -/
inductive CloseReason
  /-- It was closed from this end. -/
  | requested
  /-- The other end took its leave. -/
  | remoteBye
  /-- It did not become ready in time. -/
  | timeout
  /-- The signaling stream ended. -/
  | streamClosed
  /-- The channel ended. -/
  | channelClosed
  /-- Something failed. -/
  | failed (reason : String)
deriving DecidableEq, Repr, Inhabited

/-- The name of a reason. -/
def CloseReason.name : CloseReason → String
  | requested => "Local"
  | remoteBye => "RemoteBye"
  | timeout => "Timeout"
  | streamClosed => "StreamClosed"
  | channelClosed => "ChannelClosed"
  | failed _ => "Failed"

/-- Whether the owner of a session should take its end as a failure. -/
def CloseReason.isFailure : CloseReason → Bool
  | timeout => true
  | failed _ => true
  | _ => false

namespace Handshake

/-- What a handshake reacts to. -/
inductive Input
  /-- The session begins. -/
  | start
  /-- The signaling stream is there. -/
  | streamOpened
  /-- The channel has described itself, as it was asked to. -/
  | localDescription (description : String)
  /-- The other end sent a signal. -/
  | signal (s : Signal)
  /-- The channel found a place where it can be reached. -/
  | localCandidate (c : Candidate)
  | channelOpen
  | channelClosed
  | streamClosed
  | timeout
  | failed (reason : String)
  /-- The session is to be closed from this end. -/
  | close
deriving DecidableEq, Repr, Inhabited

/-- What is to be done after a step. -/
inductive Effect
  | send (s : Signal)
  /-- Have the channel describe itself, as an offer. -/
  | createOffer
  /-- Have the channel describe itself, as an answer. -/
  | createAnswer
  | applyDescription (kind : DescriptionKind) (description : String)
  | applyCandidate (c : Candidate)
  | ready
  | closed (reason : CloseReason)
deriving DecidableEq, Repr, Inhabited

/-- Why an input is not allowed. -/
inductive Violation
  | startIn (stage : Stage)
  | streamOpenedIn (stage : Stage)
  | descriptionIn (stage : Stage)
  | candidateAfterClose
  | candidateBeforeDescription
  | channelOpenIn (stage : Stage)
  /-- A signal of the named kind after the end. -/
  | signalAfterClose (kind : String)
  | unexpectedOffer (stage : Stage) (role : Role)
  | unexpectedAnswer (stage : Stage)
  | queueFull (limit : Nat)
deriving DecidableEq, Repr

/-- The wording of a violation. -/
def Violation.message : Violation → String
  | startIn s => s!"start requested in {s.name}"
  | streamOpenedIn s => s!"stream opened in {s.name}"
  | descriptionIn s => s!"local description produced in {s.name}"
  | candidateAfterClose => "local candidate after close"
  | candidateBeforeDescription => "local candidate before local description"
  | channelOpenIn s => s!"payload channel opened in {s.name}"
  | signalAfterClose kind => s!"{kind} received after close"
  | unexpectedOffer s r => s!"unexpected offer in {s.name} as {r.name}"
  | unexpectedAnswer s => s!"unexpected answer in {s.name}"
  | queueFull limit => s!"candidate queue full ({limit}), dropping candidate"

/-- The error that a violation is reported as. -/
def Violation.toError (v : Violation) : Error :=
  .protocolViolation v.message

end Handshake

/-- **One end of a handshake.** -/
structure Handshake where
  role : Role
  stage : Stage
  streamOpen : Bool
  offerSent : Bool
  localDescription : Option String
  remoteDescription : Option String
  /-- The candidates that wait for the descriptions, oldest first. -/
  waiting : List Candidate
  /-- How many candidates may wait. -/
  limit : Nat
deriving DecidableEq, Repr, Inhabited

namespace Handshake

/-- The beginning of a handshake. -/
def new (role : Role) (limit : Nat) : Handshake :=
  ⟨role, .idle, false, false, none, none, [], limit⟩

/-- What a machine makes of an input: the machine after it, and the effects to carry
out unless the input is a violation. -/
abbrev Turn := Handshake × Except Violation (List Effect)

/-- The turn that an allowed input brings. -/
def allowed (result : Handshake × List Effect) : Turn :=
  (result.1, .ok result.2)

/-- What an allowed input comes to: the machine after it and the effects to carry out. -/
abbrev Outcome := Except Violation (Handshake × List Effect)

/-- What a turn comes to. -/
def Turn.outcome : Turn → Outcome
  | (h, .ok effects) => .ok (h, effects)
  | (_, .error v) => .error v

/-- Ends the handshake, unless it has ended; with a farewell if one is due. -/
def endWith (h : Handshake) (reason : CloseReason) (farewell : Bool) : Handshake × List Effect :=
  if h.stage = .closed then (h, [])
  else
    ({ h with stage := .closed, waiting := [] },
      (if farewell && h.streamOpen then [.send .bye] else []) ++ [.closed reason])

/-- The session begins. -/
def onStart (h : Handshake) : Turn :=
  if h.stage = .idle then allowed ({ h with stage := .connecting }, [])
  else (h, .error (.startIn h.stage))

/-- The signaling stream is there: the initiator describes its channel, the
responder waits. -/
def onStreamOpened (h : Handshake) : Turn :=
  if h.stage = .connecting then
    match h.role with
    | .initiator => allowed ({ h with streamOpen := true }, [.createOffer])
    | .responder => allowed ({ h with streamOpen := true, stage := .awaitingOffer }, [])
  else (h, .error (.streamOpenedIn h.stage))

/-- The channel has described itself: the description goes to the other end.  The
responder then knows both descriptions. -/
def onLocalDescription (h : Handshake) (description : String) : Turn :=
  match h.role with
  | .initiator =>
    if h.stage = .connecting ∧ h.offerSent = false then
      allowed ({ h with offerSent := true, localDescription := some description, stage := .offerSent },
        [.send (.offer description)])
    else (h, .error (.descriptionIn h.stage))
  | .responder =>
    if h.stage = .awaitingOffer ∧ h.remoteDescription.isSome ∧ h.localDescription = none then
      let h' := { h with
        localDescription := some description, stage := .answerExchanged, waiting := [] }
      allowed (h', .send (.answer description) :: h.waiting.map .applyCandidate)
    else (h, .error (.descriptionIn h.stage))

/-- An offer arrives: it is applied and an answer asked for. -/
def onOffer (h : Handshake) (description : String) : Turn :=
  if h.role = .responder ∧ h.stage = .awaitingOffer ∧ h.remoteDescription = none then
    allowed ({ h with remoteDescription := some description },
      [.applyDescription .offer description, .createAnswer])
  else (h, .error (.unexpectedOffer h.stage h.role))

/-- An answer arrives: it is applied, and then the candidates that waited for it. -/
def onAnswer (h : Handshake) (description : String) : Turn :=
  if h.role = .initiator ∧ h.stage = .offerSent then
    allowed ({ h with remoteDescription := some description, stage := .answerExchanged, waiting := [] },
      .applyDescription .answer description :: h.waiting.map .applyCandidate)
  else (h, .error (.unexpectedAnswer h.stage))

/-- A candidate arrives: it is applied, or waits for the descriptions. -/
def onCandidate (h : Handshake) (c : Candidate) : Turn :=
  if h.stage = .answerExchanged ∨ h.stage = .ready then allowed (h, [.applyCandidate c])
  else if h.waiting.length < h.limit then allowed ({ h with waiting := h.waiting ++ [c] }, [])
  else (h, .error (.queueFull h.limit))

/-- The other end sent a signal. -/
def onSignal (h : Handshake) (s : Signal) : Turn :=
  if h.stage = .closed then (h, .error (.signalAfterClose s.kind))
  else
    match s with
    | .offer description => h.onOffer description
    | .answer description => h.onAnswer description
    | .candidate c => h.onCandidate c
    | .bye => allowed (h.endWith .remoteBye false)

/-- The channel found a place where it can be reached: the other end is told. -/
def onLocalCandidate (h : Handshake) (c : Candidate) : Turn :=
  if h.stage = .closed then (h, .error .candidateAfterClose)
  else if h.localDescription = none then (h, .error .candidateBeforeDescription)
  else allowed (h, [.send (.candidate c)])

/-- The channel is open. -/
def onChannelOpen (h : Handshake) : Turn :=
  match h.stage with
  | .answerExchanged => allowed ({ h with stage := .ready }, [.ready])
  | .ready => allowed (h, [])
  | stage => (h, .error (.channelOpenIn stage))

/-- The time for the handshake is up. -/
def onTimeout (h : Handshake) : Turn :=
  if h.stage = .ready then allowed (h, []) else allowed (h.endWith .timeout true)

/-- **One turn of the machine.** -/
def handle (h : Handshake) : Input → Turn
  | .start => h.onStart
  | .streamOpened => h.onStreamOpened
  | .localDescription description => h.onLocalDescription description
  | .signal s => h.onSignal s
  | .localCandidate c => h.onLocalCandidate c
  | .channelOpen => h.onChannelOpen
  | .channelClosed => allowed (h.endWith .channelClosed false)
  | .streamClosed => allowed ({ h with streamOpen := false }.endWith .streamClosed false)
  | .timeout => h.onTimeout
  | .failed reason => allowed (h.endWith (.failed reason) false)
  | .close => allowed (h.endWith .requested true)

/-- What an input comes to. -/
def step (h : Handshake) (input : Input) : Outcome :=
  (h.handle input).outcome

/-- The machine after an input, and the effects; a violation asks for nothing. -/
def feed (h : Handshake) (input : Input) : Handshake × List Effect :=
  match h.handle input with
  | (h, .ok effects) => (h, effects)
  | (h, .error _) => (h, [])

/-- The machine after some inputs, and the effects of all of them. -/
def run (h : Handshake) : List Input → Handshake × List Effect
  | [] => (h, [])
  | input :: rest =>
    let (h, effects) := h.feed input
    let (h, others) := h.run rest
    (h, effects ++ others)

end Handshake

end TopicMesh
