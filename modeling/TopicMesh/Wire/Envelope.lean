import TopicMesh.Error
import TopicMesh.Protocol
import TopicMesh.Text.Utf8
import TopicMesh.Wire.FrameStream

/-!
# Envelopes of the direct transports

A payload that goes straight to a subscriber's port travels in an **envelope**:
two bytes for the length of the topic, the topic, four bytes for the length of
the payload, the payload.  An envelope is the whole of its bytes: `openEnvelope`
refuses anything missing and anything left over.

A **datagram** carries one envelope.  A **stream** carries any number of them,
each behind its length in four bytes; `readStream` delivers them in order and
stops at the end of the stream or at the first envelope that cannot be read.
-/

namespace TopicMesh.Wire

/-- Why a payload has no envelope, or bytes are none. -/
inductive EnvelopeFault
  | topicTooLong
  | payloadTooLarge
  /-- The bytes end before a length or the topic does. -/
  | truncated
  /-- The topic is not UTF-8. -/
  | badTopic (fault : Utf8.Fault)
  /-- The payload is not as long as announced. -/
  | wrongLength (announced found : Nat)
deriving DecidableEq, Repr

/-- The error that a fault of an envelope is reported as. -/
def EnvelopeFault.toError : EnvelopeFault → Error
  | topicTooLong => .invalidArgument "topic too long for a direct envelope"
  | payloadTooLarge => .invalidArgument "payload too large for a direct envelope"
  | truncated => .decode "truncated envelope"
  | badTopic fault => .decode fault.message
  | wrongLength announced found =>
    .decode s!"payload length {announced} does not match {found} remaining bytes"

/-- The envelope of a payload for a topic. -/
def sealEnvelope (topic : String) (payload : Bytes) : Except EnvelopeFault Bytes :=
  let name := Utf8.encode topic
  if 65535 < name.length then .error .topicTooLong
  else if 4294967295 < payload.length then .error .payloadTooLarge
  else .ok (bigEndian name.length 2 ++ name ++ bigEndian payload.length 4 ++ payload)

/-- The topic and payload of an envelope. -/
def openEnvelope (bytes : Bytes) : Except EnvelopeFault (String × Bytes) :=
  match takeNumber 2 bytes with
  | none => .error .truncated
  | some (topicLength, bytes) =>
    match takeExactly topicLength bytes with
    | none => .error .truncated
    | some (name, bytes) =>
      match Utf8.decode name with
      | .error fault => .error (.badTopic fault)
      | .ok topic =>
        match takeNumber 4 bytes with
        | none => .error .truncated
        | some (payloadLength, payload) =>
          if payload.length = payloadLength then .ok (topic, payload)
          else .error (.wrongLength payloadLength payload.length)

/-! ## Datagrams -/

/-- The most bytes that one datagram carries. -/
def maxDatagramLength : Nat := 65507

/-- The datagram of a payload for a topic. -/
def datagram (topic : String) (payload : Bytes) : Except Error Bytes :=
  match sealEnvelope topic payload with
  | .error fault => .error fault.toError
  | .ok envelope =>
    if maxDatagramLength < envelope.length then
      .error (.transportFailure s!"{envelope.length} byte envelope does not fit in a datagram")
    else .ok envelope

/-! ## Streams -/

/-- What one send puts on a stream: the envelope behind its length. -/
def streamed (topic : String) (payload : Bytes) : Except EnvelopeFault Bytes :=
  (sealEnvelope topic payload).map fun envelope => bigEndian envelope.length 4 ++ envelope

/-- What one send over a protocol puts on the wire. -/
def onWire (protocol : Protocol) (topic : String) (payload : Bytes) : Except Error Bytes :=
  match protocol with
  | .datagram => datagram topic payload
  | _ => (streamed topic payload).mapError EnvelopeFault.toError

/-- How the reading of a stream of envelopes ends. -/
inductive StreamEnd
  /-- The stream ended, with fewer than four bytes after the last envelope. -/
  | clean
  /-- The stream ended within an envelope. -/
  | endsInside
  /-- An envelope is announced that is longer than a frame may be. -/
  | oversized (length : Nat)
  /-- An envelope cannot be read. -/
  | malformed (fault : EnvelopeFault)
deriving DecidableEq, Repr

/-- What a stream begins with. -/
inductive StreamRead
  /-- An envelope, and the bytes after it. -/
  | envelope (topic : String) (payload rest : Bytes)
  /-- Nothing more to deliver. -/
  | finished (ending : StreamEnd)

/-- Reads one envelope off a stream. -/
def readEnvelope (bytes : Bytes) : StreamRead :=
  match takeNumber 4 bytes with
  | none => .finished .clean
  | some (length, bytes) =>
    if maxFrameLength < length then .finished (.oversized length)
    else
      match takeExactly length bytes with
      | none => .finished .endsInside
      | some (envelope, rest) =>
        match openEnvelope envelope with
        | .error fault => .finished (.malformed fault)
        | .ok (topic, payload) => .envelope topic payload rest

/-- Reads at most `limit` envelopes. -/
def readStreamUpTo : (limit : Nat) → Bytes → List (String × Bytes) × StreamEnd
  | 0, _ => ([], .endsInside)
  | limit + 1, bytes =>
    match readEnvelope bytes with
    | .finished ending => ([], ending)
    | .envelope topic payload rest =>
      let (delivered, ending) := readStreamUpTo limit rest
      ((topic, payload) :: delivered, ending)

/-- What a stream delivers, in order, and how it ends.  Each envelope takes
bytes, so there are at most as many reads as bytes, and one more for the end. -/
def readStream (bytes : Bytes) : List (String × Bytes) × StreamEnd :=
  readStreamUpTo (bytes.length + 1) bytes

end TopicMesh.Wire
