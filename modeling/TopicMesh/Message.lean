import TopicMesh.Bytes
import TopicMesh.Protocol

/-!
# Messages

A `Message` is what a client publishes through the control broker and what
subscribers are sent.  Its payload is opaque; `reply` carries the data of a
request or of an answer, which the broker passes on untouched.

A `Delivery` is what a subscriber's callback is handed, whichever way the
payload came.
-/

namespace TopicMesh

/-- What a message says about a request and its answers. -/
structure ReplyInfo where
  /-- The topic that answers are published on. -/
  replyTopic : String
  /-- The requester's mark, returned with every answer. -/
  correlation : Option String
  /-- The place of an answer in its sequence. -/
  sequence : UInt32
  /-- Whether the answer is the last of its sequence. -/
  isLast : Bool
deriving DecidableEq, Repr, Inhabited

/-- The message that the broker publishes when a client goes away without a
farewell. -/
structure Will where
  topic : String
  payload : Bytes
  qos : QoS
  retain : Bool
deriving DecidableEq, Repr, Inhabited

/-- A message of the control broker. -/
structure Message where
  topic : String
  payload : Bytes
  qos : QoS
  /-- On the way in: keep this as the topic's retained message.  On the way out:
  this was kept. -/
  retain : Bool
  reply : Option ReplyInfo
  /-- Milliseconds; zero is stamped with the time of arrival. -/
  timestamp : Int64
deriving DecidableEq, Repr, Inhabited

namespace Message

/-- A message without reply data or time. -/
def plain (topic : String) (payload : Bytes) (qos : QoS) (retain : Bool) : Message :=
  ⟨topic, payload, qos, retain, none, 0⟩

/-- The message with its time of arrival, if it has no time yet. -/
def stamp (now : Int64) (m : Message) : Message :=
  if m.timestamp = 0 then { m with timestamp := now } else m

end Message

/-- The message that a will stands for. -/
def Will.toMessage (w : Will) : Message :=
  .plain w.topic w.payload w.qos w.retain

/-- What marks a topic as one for answers. -/
def replyMark : String := "_AittRe_"

/-- Whether a text occurs within another. -/
def occursIn (part : List Char) : List Char → Bool
  | [] => part.isEmpty
  | c :: rest => part.isPrefixOf (c :: rest) || occursIn part rest

/-- Whether the reply mark occurs in a topic. -/
def isReplyTopic (topic : String) : Bool :=
  occursIn replyMark.toList topic.toList

/-- What frames carry beside their bytes. -/
inductive FrameKind
  /-- Opaque bytes. -/
  | message
  /-- An encoded picture. -/
  | video
deriving DecidableEq, Repr, Inhabited

/-- The name of a kind of frame. -/
def FrameKind.name : FrameKind → String
  | message => "message"
  | video => "video"

/-- The kind and measures of a frame. -/
structure FrameShape where
  kind : FrameKind
  width : UInt32
  height : UInt32
deriving DecidableEq, Repr, Inhabited

/-- A unit of payload on a peer channel. -/
structure Frame where
  shape : FrameShape
  data : Bytes
deriving DecidableEq, Repr, Inhabited

/-- What a subscriber's callback is handed. -/
structure Delivery where
  topic : String
  payload : Bytes
  /-- The way the payload came. -/
  protocol : Protocol
  qos : QoS
  correlation : Option String
  /-- The topic for answers, if the sender expects some. -/
  replyTopic : Option String
  sequence : UInt32
  isLast : Bool
  /-- The frame data of a payload that came over a peer channel. -/
  frame : Option FrameShape
deriving DecidableEq, Repr, Inhabited

namespace Delivery

/-- The delivery of a payload that came directly. -/
def direct (topic : String) (payload : Bytes) (protocol : Protocol) : Delivery :=
  ⟨topic, payload, protocol, .atMostOnce, none, none, 0, false, none⟩

/-- The delivery of a frame of a peer channel. -/
def ofFrame (topic : String) (frame : Frame) : Delivery :=
  { direct topic frame.data .peerRtc with frame := some frame.shape }

/-- The delivery of a message that the broker relayed. -/
def ofMessage (m : Message) : Delivery :=
  let d := { direct m.topic m.payload .broker with qos := m.qos }
  match m.reply with
  | none => d
  | some r =>
    { d with
      replyTopic := some r.replyTopic
      correlation := r.correlation
      sequence := r.sequence
      isLast := r.isLast }

end Delivery

end TopicMesh
